import Mathlib.Data.List.Basic
import RepoAtlas.Proofs.Http.Escape

/-!
Where the steps of a path lead: out of a folder by a number of steps upwards,
and from there through names.
-/
namespace RepoAtlas.Address

/-- Takes one more step, when `state` says how many led upwards out and what names followed. -/
def walkStep (state : Nat × List String) (part : String) : Nat × List String :=
  if part = "." then state
  else if part = ".." then
    if state.2 = [] then (state.1 + 1, []) else (state.1, state.2.dropLast)
  else (state.1, state.2 ++ [part])

/-- How many steps lead upwards out of a folder, and the names that are entered from there. -/
def walk (parts : List String) : Nat × List String :=
  parts.foldl walkStep (0, [])

/-- Names that are no steps are all entered. -/
theorem walk_of_plain {parts : List String} (h : ∀ part ∈ parts, part ≠ "." ∧ part ≠ "..") :
    walk parts = (0, parts) := by
  have hfold : ∀ ups names, parts.foldl walkStep (ups, names) = (ups, names ++ parts) := by
    induction parts with
    | nil => simp
    | cons part parts ih =>
        intro ups names
        rw [List.forall_mem_cons] at h
        rw [List.foldl_cons, walkStep, if_neg h.1.1, if_neg h.1.2, ih h.2, List.append_assoc]
        rfl
  exact hfold 0 []

/-- The names from the root on after a walk that started in a folder. -/
def after (folder : List String) (state : Nat × List String) : List String :=
  "" :: (folder.take (folder.length - state.1) ++ state.2)

theorem after_zero (folder names : List String) :
    after folder (0, names) = "" :: (folder ++ names) := by
  rw [after, Nat.sub_zero, List.take_length]

theorem stepPath_after (folder : List String) (state : Nat × List String) (part : String) :
    stepPath (after folder state) part = after folder (walkStep state part) := by
  obtain ⟨ups, names⟩ := state
  by_cases hdot : part = "."
  · simp [stepPath, walkStep, hdot]
  · by_cases hup : part = ".."
    · subst hup
      by_cases hnames : names = []
      · subst hnames
        by_cases hroot : folder.take (folder.length - ups) = []
        · have hstill : folder.take (folder.length - (ups + 1)) = [] := by
            rcases List.take_eq_nil_iff.mp hroot with hzero | hnil
            · exact List.take_eq_nil_iff.mpr (.inl (by omega))
            · exact List.take_eq_nil_iff.mpr (.inr hnil)
          simp [stepPath, walkStep, after, hroot, hstill]
        · have hless : min (min (folder.length - ups) folder.length - 1) (folder.length - ups) =
              folder.length - (ups + 1) := by
            omega
          have hfront : (folder.take (folder.length - ups)).dropLast =
              folder.take (folder.length - (ups + 1)) := by
            rw [List.dropLast_eq_take, List.take_take, List.length_take, hless]
          simp [stepPath, walkStep, after, hroot, List.dropLast_cons_of_ne_nil hroot, hfront]
      · have hdone : folder.take (folder.length - ups) ++ names ≠ [] := by simp [hnames]
        simp [stepPath, walkStep, after, hnames, List.dropLast_cons_of_ne_nil hdone,
          List.dropLast_append_of_ne_nil hnames]
    · simp [stepPath, walkStep, after, hdot, hup]

/-- The steps of a path lead where a walk leads. -/
theorem foldl_stepPath (folder parts : List String) :
    parts.foldl stepPath ("" :: folder) = after folder (walk parts) := by
  have hfold : ∀ state : Nat × List String, parts.foldl stepPath (after folder state) =
      after folder (parts.foldl walkStep state) := by
    induction parts with
    | nil => exact fun _ => rfl
    | cons part parts ih =>
        intro state
        rw [List.foldl_cons, stepPath_after, ih, List.foldl_cons]
  have hstart := hfold (0, [])
  rwa [after_zero, List.append_nil] at hstart

theorem mem_stepPath {name part : String} {done : List String}
    (h : name ∈ stepPath done part) :
    name ∈ done ∨ name = part ∧ part ≠ "." ∧ part ≠ ".." := by
  by_cases hdot : part = "."
  · simp only [stepPath, hdot, beq_self_eq_true, if_true] at h
    exact .inl h
  · by_cases hup : part = ".."
    · subst hup
      have hback : name ∈ if done.isEmpty || done == [""] then done else done.dropLast := h
      split at hback
      · exact .inl hback
      · exact .inl (List.dropLast_subset _ hback)
    · simp only [stepPath, beq_iff_eq, hdot, hup, if_false, List.mem_append,
        List.mem_singleton] at h
      exact h.imp_right fun heq => ⟨heq, hdot, hup⟩

/-- The steps `.` and `..` are taken and not kept as names. -/
theorem mem_foldl_stepPath {name : String} {done parts : List String}
    (h : name ∈ parts.foldl stepPath done) :
    name ∈ done ∨ name ∈ parts ∧ name ≠ "." ∧ name ≠ ".." := by
  induction parts generalizing done with
  | nil => exact .inl h
  | cons part parts ih =>
      rcases ih h with hdone | ⟨hmem, hstep⟩
      · rcases mem_stepPath hdone with hdone | ⟨rfl, hstep⟩
        · exact .inl hdone
        · exact .inr ⟨List.mem_cons_self, hstep⟩
      · exact .inr ⟨List.mem_cons_of_mem _ hmem, hstep⟩

theorem length_foldl_stepPath_le (done parts : List String) :
    (parts.foldl stepPath done).length ≤ done.length + parts.length := by
  induction parts generalizing done with
  | nil => simp
  | cons part parts ih =>
      have hstep : (stepPath done part).length ≤ done.length + 1 := by
        unfold stepPath
        repeat' split
        all_goals simp
        omega
      rw [List.foldl_cons, List.length_cons]
      have hrest := ih (stepPath done part)
      omega

/-- Writing names with percent signs does not change where they lead. -/
theorem walk_map_quote (parts : List String) :
    walk (parts.map (Percent.quote [])) =
      ((walk parts).1, (walk parts).2.map (Percent.quote [])) := by
  have hdot : ∀ part, Percent.quote [] part = "." ↔ part = "." := fun part =>
    Percent.quote_eq_iff (by decide) (by decide)
  have hup : ∀ part, Percent.quote [] part = ".." ↔ part = ".." := fun part =>
    Percent.quote_eq_iff (by decide) (by decide)
  have hfold : ∀ ups names, (parts.map (Percent.quote [])).foldl walkStep
      (ups, names.map (Percent.quote [])) = ((parts.foldl walkStep (ups, names)).1,
        (parts.foldl walkStep (ups, names)).2.map (Percent.quote [])) := by
    induction parts with
    | nil => exact fun _ _ => rfl
    | cons part parts ih =>
        intro ups names
        have hstep : walkStep (ups, names.map (Percent.quote [])) (Percent.quote [] part) =
            ((walkStep (ups, names) part).1,
              (walkStep (ups, names) part).2.map (Percent.quote [])) := by
          simp only [walkStep, hdot, hup, List.map_eq_nil_iff]
          repeat' split
          all_goals simp [List.map_dropLast]
        rw [List.map_cons, List.foldl_cons, List.foldl_cons, hstep, ih]
  exact hfold 0 []

/-- Whether names lead below a folder: its names come first, and others follow. -/
def Below (folder names : List String) : Prop :=
  folder <+: names ∧ folder ≠ names

instance (folder names : List String) : Decidable (Below folder names) :=
  inferInstanceAs (Decidable (_ ∧ _))

theorem Below.length_lt {folder names : List String} (h : Below folder names) :
    folder.length < names.length := by
  refine Nat.lt_of_le_of_ne h.1.length_le fun hlength => h.2 (h.1.eq_of_length hlength)

theorem below_append_iff {front folder names : List String} :
    Below (front ++ folder) (front ++ names) ↔ Below folder names := by
  rw [Below, Below, List.prefix_append_right_inj, ne_eq, List.append_cancel_left_eq]

/--
Whether a walk from a folder ends below it: the names of the folders that it
leaves are the first ones that it then enters, and others follow.
-/
def Returns (folder : List String) (state : Nat × List String) : Prop :=
  Below (folder.drop (folder.length - state.1)) state.2

instance (folder : List String) (state : Nat × List String) : Decidable (Returns folder state) :=
  inferInstanceAs (Decidable (Below _ _))

theorem below_after_iff (folder : List String) (state : Nat × List String) :
    Below ("" :: folder) (after folder state) ↔ Returns folder state := by
  have hfolder : "" :: folder = ("" :: folder.take (folder.length - state.1)) ++
      folder.drop (folder.length - state.1) := by
    rw [List.cons_append, List.take_append_drop]
  have hafter : after folder state =
      ("" :: folder.take (folder.length - state.1)) ++ state.2 := rfl
  rw [hafter]
  conv => lhs; arg 1; rw [hfolder]
  exact below_append_iff

theorem map_after (f : String → String) (hroot : f "" = "") (folder : List String)
    (state : Nat × List String) :
    (after folder state).map f = after (folder.map f) (state.1, state.2.map f) := by
  simp [after, hroot, List.map_take]

/--
A path that is made of the names of a folder and further steps leads below the
folder if no name of the folder is itself a step, and the steps lead back.
-/
theorem below_foldl_iff {top folder parts : List String} (hdot : "." ∉ top) (hup : ".." ∉ top) :
    Below (("" :: (top ++ folder)).map (escapeText pathSpecial))
        (((folder ++ parts).foldl stepPath ("" :: top)).map (escapeText pathSpecial)) ↔
      (∀ name ∈ folder, name ≠ "." ∧ name ≠ "..") ∧
        Returns ((top ++ folder).map (escapeText pathSpecial))
          ((walk parts).1, (walk parts).2.map (escapeText pathSpecial)) := by
  have hroot : escapeText pathSpecial "" = "" := by decide
  by_cases hplain : ∀ name ∈ folder, name ≠ "." ∧ name ≠ ".."
  · rw [List.foldl_append, foldl_stepPath, walk_of_plain hplain, after_zero, foldl_stepPath,
      map_after _ hroot, List.map_cons, hroot, below_after_iff]
    exact (and_iff_right hplain).symm
  · refine iff_of_false ?_ fun h => hplain h.1
    intro hway
    -- A step among the names would be escaped as itself, and no step is left in the path.
    obtain ⟨name, hname, hstep⟩ : ∃ name ∈ folder, name = "." ∨ name = ".." := by
      simp only [not_forall, not_and_or, not_not] at hplain
      obtain ⟨name, hname, hstep⟩ := hplain
      exact ⟨name, hname, hstep⟩
    have hsame : escapeText pathSpecial name = name := by
      rcases hstep with rfl | rfl <;> decide
    have hmem : name ∈ ((folder ++ parts).foldl stepPath ("" :: top)).map
        (escapeText pathSpecial) := by
      apply hway.1.subset
      exact List.mem_map.mpr ⟨name, by simp [hname], hsame⟩
    obtain ⟨other, hother, heq⟩ := List.mem_map.mp hmem
    have hpercent : '%' ∉ name.toList := by
      rcases hstep with rfl | rfl <;> decide
    obtain rfl := eq_of_escapeText hpercent heq
    rcases mem_foldl_stepPath hother with htop | ⟨-, hnotdot, hnotup⟩
    · rcases hstep with rfl | rfl
      · simp [hdot] at htop
      · simp [hup] at htop
    · rcases hstep with rfl | rfl
      · exact hnotdot rfl
      · exact hnotup rfl

end RepoAtlas.Address
