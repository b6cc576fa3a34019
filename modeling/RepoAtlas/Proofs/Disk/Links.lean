import RepoAtlas.Proofs.Disk.Path

/-!
Following a path step by step, each link replaced by the path that it holds. A
link that is found to lead back to itself is one where this never ends.
-/
namespace RepoAtlas

/-- How far a path has been followed: the place that is reached, and the names that are left. -/
structure Trail where
  here : List String
  left : List String
deriving Repr, DecidableEq

namespace DiskNode

variable {disk : DiskNode}

/-- The folder from which the path of a link starts. -/
def startOf (here : List String) (target : String) : List String :=
  if (PurePath.ofString target).isAbsolute then [] else here

/-- One step along a path: upwards, to what a name stands for, or from a link to the path
it holds. -/
def stepAlong (disk : DiskNode) : Trail → Option Trail
  | ⟨_, []⟩ => none
  | ⟨here, name :: rest⟩ =>
    if name == ".." then some ⟨here.dropLast, rest⟩
    else
      match disk.at? (here ++ [name]) with
      | some (.link target) =>
        some ⟨startOf here target, (PurePath.ofString target).names ++ rest⟩
      | _ => some ⟨here ++ [name], rest⟩

/-- Some steps along a path, if it is not at its end before. -/
def walk (disk : DiskNode) : Nat → Trail → Option Trail
  | 0, trail => some trail
  | steps + 1, trail => (disk.stepAlong trail).bind (disk.walk steps)

/-- Whether following a path comes to an end. -/
def Ends (disk : DiskNode) (trail : Trail) : Prop :=
  ∃ steps here, disk.walk steps trail = some ⟨here, []⟩

section Walking

variable {a b c : Trail} {here there left more : List String}

theorem stepAlong_append (tail : List String)
    (h : disk.stepAlong ⟨here, left⟩ = some ⟨there, more⟩) :
    disk.stepAlong ⟨here, left ++ tail⟩ = some ⟨there, more ++ tail⟩ := by
  cases left with
  | nil => cases h
  | cons name rest =>
      rw [stepAlong] at h
      rw [List.cons_append, stepAlong]
      split at h
      · next hup =>
          rw [if_pos hup]
          cases h
          rfl
      · next hup =>
          rw [if_neg hup]
          split at h <;> cases h
          · rw [List.append_assoc]
          · rfl

theorem walk_add (steps further : Nat) (a : Trail) :
    disk.walk (steps + further) a = (disk.walk steps a).bind (disk.walk further) := by
  induction steps generalizing a with
  | zero => rw [Nat.zero_add]; rfl
  | succ steps ih =>
      rw [Nat.succ_add, walk, walk, Option.bind_assoc]
      exact congrArg _ (funext ih)

theorem walk_trans {steps further : Nat} (hfirst : disk.walk steps a = some b)
    (hlast : disk.walk further b = some c) : disk.walk (steps + further) a = some c := by
  rw [walk_add, hfirst]
  exact hlast

theorem walk_one (h : disk.stepAlong a = some b) : disk.walk 1 a = some b := by
  rw [walk, h]
  rfl

/-- What comes after some names makes no difference until they are used up. -/
theorem walk_append {steps : Nat} (tail : List String)
    (h : disk.walk steps ⟨here, left⟩ = some ⟨there, more⟩) :
    disk.walk steps ⟨here, left ++ tail⟩ = some ⟨there, more ++ tail⟩ := by
  induction steps generalizing here left with
  | zero =>
      cases h
      rfl
  | succ steps ih =>
      rw [walk, Option.bind_eq_some_iff] at h
      obtain ⟨⟨next, rest⟩, hstep, hwalk⟩ := h
      rw [walk, stepAlong_append tail hstep]
      exact ih hwalk

theorem ends_of_walk {steps : Nat} (h : disk.walk steps a = some b) (hb : disk.Ends b) :
    disk.Ends a := by
  obtain ⟨further, there, hwalk⟩ := hb
  exact ⟨_, there, walk_trans h hwalk⟩

/-- A path that ends does so from wherever it leads on the way. -/
theorem Ends.of_walk (ha : disk.Ends a) {steps : Nat} (h : disk.walk steps a = some b) :
    disk.Ends b := by
  obtain ⟨count, there, hend⟩ := ha
  by_cases hcount : count < steps
  · obtain ⟨beyond, rfl⟩ := Nat.exists_eq_add_of_lt hcount
    rw [Nat.add_assoc, walk_add, hend] at h
    cases h
  · obtain ⟨further, rfl⟩ := Nat.exists_eq_add_of_le (Nat.le_of_not_lt hcount)
    rw [walk_add, h] at hend
    exact ⟨further, there, hend⟩

/-- A path that ends has come to an end of its first part before. -/
theorem Ends.of_append {tail : List String} (h : disk.Ends ⟨here, left ++ tail⟩) :
    disk.Ends ⟨here, left⟩ := by
  obtain ⟨steps, there, hwalk⟩ := h
  induction steps generalizing here left with
  | zero =>
      have hleft : left ++ tail = [] := congrArg Trail.left (Option.some.inj hwalk)
      rw [List.append_eq_nil_iff.mp hleft |>.1]
      exact ⟨0, here, rfl⟩
  | succ steps ih =>
      cases hstep : disk.stepAlong ⟨here, left⟩ with
      | none =>
          cases left with
          | nil => exact ⟨0, here, rfl⟩
          | cons name rest =>
              rw [stepAlong] at hstep
              split at hstep
              · cases hstep
              · split at hstep <;> cases hstep
      | some next =>
          rw [walk, stepAlong_append tail hstep] at hwalk
          exact ends_of_walk (walk_one hstep) (ih hwalk)

/-- A path never ends if it comes back to a name that was to be followed before. -/
theorem not_ends_of_return {name : String} {steps : Nat}
    (h : disk.walk (steps + 1) ⟨here, [name]⟩ = some ⟨here, name :: more⟩) :
    ¬disk.Ends ⟨here, [name]⟩ := by
  rintro ⟨count, there, hend⟩
  -- However few steps are left to the end, there is a time after which even fewer are.
  suffices hnever : ∀ count rest, disk.walk count ⟨here, name :: rest⟩ ≠ some ⟨there, []⟩ from
    hnever count [] hend
  intro count
  induction count using Nat.strongRecOn with
  | ind count ih =>
      intro rest hwalk
      have hreturn := walk_append rest h
      rw [List.singleton_append, List.cons_append] at hreturn
      by_cases hcount : count < steps + 1
      · obtain ⟨beyond, hbeyond⟩ := Nat.exists_eq_add_of_lt hcount
        rw [hbeyond, Nat.add_assoc, walk_add, hwalk] at hreturn
        cases hreturn
      · obtain ⟨fewer, rfl⟩ := Nat.exists_eq_add_of_le (Nat.le_of_not_lt hcount)
        rw [walk_add, hreturn] at hwalk
        exact ih fewer (by omega) _ hwalk

end Walking

/--
What replacing the links on a path can come to. A link at `spot` is one of those
that are being replaced, or lies too deep, or its own path is replaced first.
-/
inductive Replaces (disk : DiskNode) :
    (depth : Nat) → (active : List (List String)) → Trail → Replaced → Prop where
  | ends {depth active here} : Replaces disk depth active ⟨here, []⟩ (.done here)
  | moves {depth active here there name rest result}
      (hstep : disk.stepAlong ⟨here, name :: rest⟩ = some ⟨there, rest⟩)
      (hrest : Replaces disk depth active ⟨there, rest⟩ result) :
      Replaces disk depth active ⟨here, name :: rest⟩ result
  | returns {depth active here name rest} (hmem : here ++ [name] ∈ active) :
      Replaces disk depth active ⟨here, name :: rest⟩ (.loop (here ++ [name] ++ rest))
  | sinks {active here name rest target} (hlink : disk.at? (here ++ [name]) = some (.link target))
      (hmem : here ++ [name] ∉ active) :
      Replaces disk 0 active ⟨here, name :: rest⟩ .tooDeep
  | follows {depth active here there name rest target result} (hname : name ≠ "..")
      (hlink : disk.at? (here ++ [name]) = some (.link target))
      (htarget : Replaces disk depth ((here ++ [name]) :: active)
        ⟨startOf here target, (PurePath.ofString target).names⟩ (.done there))
      (hrest : Replaces disk (depth + 1) active ⟨there, rest⟩ result) :
      Replaces disk (depth + 1) active ⟨here, name :: rest⟩ result
  | loops {depth active here name rest target left} (hname : name ≠ "..")
      (hlink : disk.at? (here ++ [name]) = some (.link target))
      (htarget : Replaces disk depth ((here ++ [name]) :: active)
        ⟨startOf here target, (PurePath.ofString target).names⟩ (.loop left)) :
      Replaces disk (depth + 1) active ⟨here, name :: rest⟩ (.loop (left ++ rest))
  | drowns {depth active here name rest target}
      (hlink : disk.at? (here ++ [name]) = some (.link target)) (hmem : here ++ [name] ∉ active)
      (htarget : Replaces disk depth ((here ++ [name]) :: active)
        ⟨startOf here target, (PurePath.ofString target).names⟩ .tooDeep) :
      Replaces disk (depth + 1) active ⟨here, name :: rest⟩ .tooDeep

theorem stepAlong_link {here : List String} {name target : String} (rest : List String)
    (hname : name ≠ "..") (hlink : disk.at? (here ++ [name]) = some (.link target)) :
    disk.stepAlong ⟨here, name :: rest⟩ =
      some ⟨startOf here target, (PurePath.ofString target).names ++ rest⟩ := by
  rw [stepAlong, if_neg (by simpa using hname), hlink]

theorem replaceLinks_link {depth : Nat} {active : List (List String)} {here rest : List String}
    {name target : String} (hname : name ≠ "..")
    (hlink : disk.at? (here ++ [name]) = some (.link target)) :
    disk.replaceLinks depth active (name :: rest) here =
      if active.contains (here ++ [name]) then .loop (here ++ [name] ++ rest)
      else
        match depth with
        | 0 => .tooDeep
        | depth + 1 =>
          match disk.replaceLinks depth ((here ++ [name]) :: active) (PurePath.ofString target).names
              (startOf here target) with
          | .done there => disk.replaceLinks (depth + 1) active rest there
          | .loop left => .loop (left ++ rest)
          | .tooDeep => .tooDeep := by
  rw [replaceLinks.eq_def]
  simp only [beq_iff_eq, hname, if_false, hlink]
  rfl

theorem stepAlong_of_not_link {here : List String} {name : String} (rest : List String)
    (hname : name ≠ "..") (hnode : ∀ target, disk.at? (here ++ [name]) ≠ some (.link target)) :
    disk.stepAlong ⟨here, name :: rest⟩ = some ⟨here ++ [name], rest⟩ := by
  rw [stepAlong, if_neg (by simpa using hname)]
  split
  · next target hlink => exact absurd hlink (hnode target)
  · rfl

theorem replaceLinks_of_not_link {depth : Nat} {active : List (List String)}
    {here rest : List String} {name : String} (hname : name ≠ "..")
    (hnode : ∀ target, disk.at? (here ++ [name]) ≠ some (.link target)) :
    disk.replaceLinks depth active (name :: rest) here =
      disk.replaceLinks depth active rest (here ++ [name]) := by
  rw [replaceLinks.eq_def]
  simp only [beq_iff_eq, hname, if_false]

theorem replaces (disk : DiskNode) (depth : Nat) (active : List (List String))
    (names here : List String) :
    disk.Replaces depth active ⟨here, names⟩ (disk.replaceLinks depth active names here) := by
  induction depth, active, names, here using replaceLinks.induct disk with
  | case1 depth active here =>
      rw [replaceLinks]
      exact .ends
  | case2 depth active here name rest hup ih =>
      rw [replaceLinks, if_pos hup]
      exact .moves (by rw [stepAlong, if_pos hup]) ih
  | case3 depth active here name rest hname spot target hlink hmem =>
      rw [replaceLinks_link (by simpa using hname) hlink, if_pos hmem]
      exact .returns (List.contains_iff_mem.mp hmem)
  | case4 active here name rest hname spot target hlink hmem =>
      rw [replaceLinks_link (by simpa using hname) hlink, if_neg hmem]
      exact .sinks hlink (by simpa using hmem)
  | case5 active here name rest hname spot target hlink hmem depth path there htarget ih ihrest =>
      have hname : name ≠ ".." := by simpa using hname
      have hthere : disk.replaceLinks depth ((here ++ [name]) :: active)
          (PurePath.ofString target).names (startOf here target) = .done there := htarget
      rw [replaceLinks_link hname hlink, if_neg hmem]
      rw [htarget] at ih
      simp only [hthere]
      exact .follows hname hlink ih ihrest
  | case6 active here name rest hname spot target hlink hmem depth path left htarget ih =>
      have hname : name ≠ ".." := by simpa using hname
      have hleft : disk.replaceLinks depth ((here ++ [name]) :: active)
          (PurePath.ofString target).names (startOf here target) = .loop left := htarget
      rw [replaceLinks_link hname hlink, if_neg hmem]
      rw [htarget] at ih
      simp only [hleft]
      exact .loops hname hlink ih
  | case7 active here name rest hname spot target hlink hmem depth path htarget ih =>
      have hname : name ≠ ".." := by simpa using hname
      have hdeep : disk.replaceLinks depth ((here ++ [name]) :: active)
          (PurePath.ofString target).names (startOf here target) = .tooDeep := htarget
      rw [replaceLinks_link hname hlink, if_neg hmem]
      rw [htarget] at ih
      simp only [hdeep]
      exact .drowns hlink (by simpa using hmem) ih
  | case8 depth active here name rest hname spot hnode ih =>
      have hname : name ≠ ".." := by simpa using hname
      rw [replaceLinks_of_not_link hname hnode]
      exact .moves (stepAlong_of_not_link rest hname hnode) ih

namespace Replaces

variable {depth : Nat} {active : List (List String)} {trail : Trail}

/-- Replacing all links leads to where the path leads step by step. -/
theorem exists_walk {there : List String} (h : disk.Replaces depth active trail (.done there)) :
    ∃ steps, disk.walk steps trail = some ⟨there, []⟩ := by
  generalize hresult : Replaced.done there = result at h
  induction h generalizing there with
  | ends =>
      cases hresult
      exact ⟨0, rfl⟩
  | moves hstep hrest ih =>
      obtain ⟨steps, hwalk⟩ := ih hresult
      exact ⟨_, walk_trans (walk_one hstep) hwalk⟩
  | @follows _ _ _ _ _ rest _ _ hname hlink htarget hrest ihtarget ihrest =>
      obtain ⟨steps, hwalk⟩ := ihtarget rfl
      obtain ⟨further, hfurther⟩ := ihrest hresult
      have hinner := walk_append rest hwalk
      exact ⟨_, walk_trans (walk_one (stepAlong_link _ hname hlink)) (walk_trans hinner hfurther)⟩
  | _ => cases hresult

/-- Whether following a link has led to where a path stands now, before the link is done. -/
def Pending (disk : DiskNode) (trail : Trail) (link : List String) : Prop :=
  ∃ here name steps tail, link = here ++ [name] ∧
    disk.walk (steps + 1) ⟨here, [name]⟩ = some ⟨trail.here, trail.left ++ tail⟩

theorem Pending.of_walk {here there left more link : List String} (tail : List String)
    (h : Pending disk ⟨here, left⟩ link) {steps : Nat}
    (hwalk : disk.walk steps ⟨here, left⟩ = some ⟨there, more ++ tail⟩) :
    Pending disk ⟨there, more⟩ link := by
  obtain ⟨start, name, count, behind, rfl, hcount⟩ := h
  refine ⟨start, name, count + steps, tail ++ behind, rfl, ?_⟩
  have hfurther := walk_append behind hwalk
  rw [Nat.add_right_comm, ← List.append_assoc]
  exact walk_trans hcount hfurther

theorem pending_self {here : List String} {name target : String} (hname : name ≠ "..")
    (hlink : disk.at? (here ++ [name]) = some (.link target)) :
    Pending disk ⟨startOf here target, (PurePath.ofString target).names⟩ (here ++ [name]) :=
  ⟨here, name, 0, [], rfl, walk_one (stepAlong_link _ hname hlink)⟩

/-- Where a link is found to lead back to itself, following the path never ends. -/
theorem not_ends {left : List String} (h : disk.Replaces depth active trail (.loop left))
    (hactive : ∀ link ∈ active, Pending disk trail link) : ¬disk.Ends trail := by
  generalize hresult : Replaced.loop left = result at h
  induction h generalizing left with
  | moves hstep hrest ih =>
      have hwalk := walk_one hstep
      intro hends
      refine ih (fun link hmem => ?_) hresult (hends.of_walk hwalk)
      exact (hactive link hmem).of_walk [] (by rwa [List.append_nil])
  | returns hmem =>
      obtain ⟨here, name, steps, tail, heq, hwalk⟩ := hactive _ hmem
      obtain ⟨rfl, hname⟩ := List.append_inj' heq rfl
      obtain rfl := (List.cons.inj hname).1
      intro hends
      exact not_ends_of_return hwalk hends.of_append
  | @follows _ _ _ _ _ rest _ _ hname hlink htarget hrest _ ih =>
      obtain ⟨steps, hthere⟩ := htarget.exists_walk
      have hwalk := walk_trans (walk_one (stepAlong_link _ hname hlink)) (walk_append rest hthere)
      intro hends
      refine ih (fun link hmem => ?_) hresult (hends.of_walk hwalk)
      exact (hactive link hmem).of_walk [] (by rwa [List.append_nil])
  | @loops _ _ _ _ rest _ _ hname hlink htarget ih =>
      have hwalk := walk_one (stepAlong_link rest hname hlink)
      intro hends
      refine ih (fun link hmem => ?_) rfl (hends.of_walk hwalk).of_append
      rcases List.mem_cons.mp hmem with rfl | hmem
      · exact pending_self hname hlink
      · exact (hactive link hmem).of_walk _ hwalk
  | _ => cases hresult

/-- Where links lead too deep into one another, there are more of them than the limit. -/
theorem exists_links (h : disk.Replaces depth active trail .tooDeep) (hnodup : active.Nodup)
    (hactive : ∀ link ∈ active, ∃ target, disk.at? link = some (.link target)) :
    ∃ links : List (List String), links.Nodup ∧ links.length = active.length + depth + 1 ∧
      ∀ link ∈ links, ∃ target, disk.at? link = some (.link target) := by
  generalize hresult : Replaced.tooDeep = result at h
  induction h with
  | moves hstep hrest ih => exact ih hnodup hactive hresult
  | follows hname hlink htarget hrest _ ih => exact ih hnodup hactive hresult
  | sinks hlink hmem =>
      refine ⟨_ :: _, List.nodup_cons.mpr ⟨hmem, hnodup⟩, rfl, ?_⟩
      exact List.forall_mem_cons.mpr ⟨⟨_, hlink⟩, hactive⟩
  | drowns hlink hmem htarget ih =>
      obtain ⟨links, hlinks, hlength, hall⟩ := ih (List.nodup_cons.mpr ⟨hmem, hnodup⟩)
        (List.forall_mem_cons.mpr ⟨⟨_, hlink⟩, hactive⟩) rfl
      rw [List.length_cons] at hlength
      exact ⟨links, hlinks, by omega, hall⟩
  | _ => cases hresult

end Replaces

/--
The failure of a path that cannot be resolved: on the way is a link that leads
back to itself, or there are too many links that lead into one another.
-/
inductive Entangled (disk : DiskNode) (names : List String) : Unexpected → Prop where
  | loops {left : List String} (hloop : disk.replaceLinks maxNesting [] names [] = .loop left)
      (hneeded : disk.locate (normalNames left) = .error .linkLoop) :
      Entangled disk names (linkLoop (normalNames left))
  | sinks (hdeep : disk.replaceLinks maxNesting [] names [] = .tooDeep) :
      Entangled disk names tooDeep

section Resolving

variable {names : List String} {cause : Unexpected}

theorem resolve_eq_error_iff (hnull : ∀ name ∈ names, '\x00' ∉ name.toList) :
    disk.resolve names = .error cause ↔ disk.Entangled names cause := by
  have hpossible : (names.any fun name => name.toList.contains '\x00') = false := by
    simpa [List.any_eq_false] using hnull
  rw [resolve, hpossible, if_neg Bool.false_ne_true]
  constructor
  · intro h
    split at h
    · cases h
    · next left hloop =>
        split at h
        · next hneeded =>
            cases h
            exact .loops hloop hneeded
        · cases h
    · next hdeep =>
        cases h
        exact .sinks hdeep
  · intro h
    cases h with
    | loops hloop hneeded => simp only [hloop, hneeded]
    | sinks hdeep => simp only [hdeep]

/-- A path cannot be resolved only if following it never ends, or if there are very many links. -/
theorem Entangled.endless_or_deep (h : disk.Entangled names cause) :
    ¬disk.Ends ⟨[], names⟩ ∨ ∃ links : List (List String), links.Nodup ∧
      maxNesting < links.length ∧ ∀ link ∈ links, ∃ target, disk.at? link = some (.link target) := by
  have hreplaces := disk.replaces maxNesting [] names []
  cases h with
  | loops hloop hneeded =>
      rw [hloop] at hreplaces
      exact .inl (hreplaces.not_ends (by simp))
  | sinks hdeep =>
      rw [hdeep] at hreplaces
      obtain ⟨links, hnodup, hlength, hall⟩ := hreplaces.exists_links List.nodup_nil (by simp)
      rw [List.length_nil, Nat.zero_add] at hlength
      exact .inr ⟨links, hnodup, by omega, hall⟩

/-- A path that no link lies on can be resolved. -/
theorem not_entangled_of_linkFree (hup : ".." ∉ names) (hfree : disk.LinkFreeAlong names) :
    ¬disk.Entangled names cause := by
  have hdone : disk.replaceLinks maxNesting [] names [] = .done names :=
    replaceLinks_of_linkFree [] hup hfree
  intro h
  cases h with
  | loops hloop => cases hdone.symm.trans hloop
  | sinks hdeep => cases hdone.symm.trans hdeep

end Resolving

end DiskNode

end RepoAtlas
