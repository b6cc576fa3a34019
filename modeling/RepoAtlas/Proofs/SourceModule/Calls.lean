import RepoAtlas.Proofs.Syntax.Walk
import RepoAtlas.Proofs.Table

/-!
What is read off all the nodes of a tree: the names and the members that are called, each
listed once and in the order in which they are met first, and whether there is markup.
-/
namespace RepoAtlas

open Syntax Text

/-- Whether names are listed once each, in the order of the first addresses they occur at. -/
structure ListsFirst (names : List String) (Occurs : List Nat → String → Prop) : Prop where
  nodup : names.Nodup
  mem : ∀ name, name ∈ names ↔ ∃ place, Occurs place name
  order : names.Pairwise fun name later =>
    ∀ place, Occurs place later → ∃ first, first < place ∧ Occurs first name

/-- A name at a later address is added at the end, unless it is listed. -/
theorem ListsFirst.concat {names : List String} {known : List (List Nat × String)}
    {place : List Nat} {name : String}
    (h : ListsFirst names fun first other => (first, other) ∈ known)
    (hlater : ∀ entry ∈ known, entry.1 < place) :
    ListsFirst (addNew name names) fun first other =>
      (first, other) ∈ known ++ [(place, name)] where
  nodup := nodup_addNew h.nodup
  mem other := by
    rw [mem_addNew, h.mem]
    simp [exists_or]
  order := by
    have hearlier : ∀ other ∈ names,
        ∃ first, first < place ∧ (first, other) ∈ known ++ [(place, name)] := by
      intro other hother
      obtain ⟨first, hfirst⟩ := (h.mem other).mp hother
      exact ⟨first, hlater _ hfirst, List.mem_append_left _ hfirst⟩
    have hlisted : names.Pairwise fun other later =>
        ∀ here, (here, later) ∈ known ++ [(place, name)] →
          ∃ first, first < here ∧ (first, other) ∈ known ++ [(place, name)] := by
      refine h.order.imp_of_mem fun hother _ hbefore here hmem => ?_
      rcases List.mem_append.mp hmem with hold | hnew
      · obtain ⟨first, hlt, hfirst⟩ := hbefore here hold
        exact ⟨first, hlt, List.mem_append_left _ hfirst⟩
      · obtain ⟨rfl, -⟩ := Prod.mk.inj (List.mem_singleton.mp hnew)
        exact hearlier _ hother
    by_cases hname : name ∈ names
    · rwa [addNew_of_mem hname]
    · rw [addNew_of_not_mem hname, List.pairwise_append]
      refine ⟨hlisted, List.pairwise_singleton _ _, fun other hother later hlast here hmem => ?_⟩
      obtain rfl := List.mem_singleton.mp hlast
      rcases List.mem_append.mp hmem with hold | hnew
      · exact absurd ((h.mem later).mpr ⟨here, hold⟩) hname
      · obtain ⟨rfl, -⟩ := Prod.mk.inj (List.mem_singleton.mp hnew)
        exact hearlier other hother

/-- To drop the repeats among names that come with ascending addresses is to list them so. -/
theorem listsFirst_distinct {occurrences : List (List Nat × String)}
    (hascends : occurrences.Pairwise fun p q => p.1 < q.1) :
    ListsFirst (distinct (occurrences.map Prod.snd)) fun place name =>
      (place, name) ∈ occurrences := by
  induction occurrences using List.reverseRecOn with
  | nil => exact ⟨List.nodup_nil, by simp, .nil⟩
  | append_singleton known last ih =>
      obtain ⟨hknown, -, hlast⟩ := List.pairwise_append.mp hascends
      rw [List.map_append, List.map_singleton, distinct_concat]
      refine (ih hknown).concat fun entry hentry => ?_
      exact hlast entry hentry last (List.mem_singleton_self last)

/-- What is found in the nodes of a tree is listed by the addresses of these. -/
theorem listsFirst_walk (root : Tree) (found? : Tree → Option String) :
    ListsFirst (distinct (root.walk.filterMap found?)) fun place name =>
      ∃ n, root.NamedAt place n ∧ found? n = some name := by
  let occurrences := root.outline.filterMap fun entry => (found? entry.2).map (entry.1, ·)
  have hnames : root.walk.filterMap found? = occurrences.map Prod.snd := by
    rw [← Tree.map_snd_outline, List.filterMap_map, List.map_filterMap]
    congr 1
    funext entry
    simp [Option.map_map, Function.comp_def]
  have hoccurs : (fun place name => ∃ n, root.NamedAt place n ∧ found? n = some name) =
      fun place name => (place, name) ∈ occurrences := by
    funext place name
    simp [occurrences, ← Tree.mem_outline_iff]
  rw [hnames, hoccurs]
  refine listsFirst_distinct (root.outline_pairwise.filterMap _ fun p q hlt found hp other hq => ?_)
  obtain ⟨_, -, rfl⟩ := Option.map_eq_some_iff.mp hp
  obtain ⟨_, -, rfl⟩ := Option.map_eq_some_iff.mp hq
  exact hlt

namespace ModuleFacts

variable {source : List Char} {t : Tree} {name : String}

/-- Whether a node calls what has a plain name, one that can be a function's. -/
structure CallsName (source : List Char) (t : Tree) (name : String) : Prop where
  isCall : t.kind = .callExpression
  callee : ∃ callee, t.child? .function = some callee ∧ callee.kind = .identifier ∧
    callee.text source = name
  startsLower : Unicode.startsLower name = true
  notReserved : name ∉ reservedWords

/-- Whether a node calls a member of something. -/
structure CallsMember (source : List Char) (t : Tree) (name : String) : Prop where
  isCall : t.kind = .callExpression
  callee : ∃ callee property, t.child? .function = some callee ∧
    callee.kind = .memberExpression ∧ callee.child? .property = some property ∧
    property.text source = name

theorem calledName?_eq_some_iff : calledName? source t = some name ↔ CallsName source t name := by
  constructor
  · intro h
    rw [calledName?] at h
    split at h
    · next hcall =>
        obtain ⟨callee, hcallee, hname⟩ := Option.bind_eq_some_iff.mp h
        split at hname
        · next hkind =>
            obtain ⟨⟨hlower, hfree⟩, hname⟩ : (Unicode.startsLower (callee.text source) = true ∧
                callee.text source ∉ reservedWords) ∧ callee.text source = name := by
              simpa using hname
            subst hname
            exact ⟨beq_iff_eq.mp hcall, ⟨callee, hcallee, beq_iff_eq.mp hkind, rfl⟩, hlower, hfree⟩
        · cases hname
    · cases h
  · rintro ⟨hcall, ⟨callee, hcallee, hkind, rfl⟩, hlower, hfree⟩
    simp [calledName?, hcall, hcallee, hkind, hlower, hfree]

theorem calledMember?_eq_some_iff :
    calledMember? source t = some name ↔ CallsMember source t name := by
  constructor
  · intro h
    rw [calledMember?] at h
    split at h
    · next hcall =>
        obtain ⟨callee, hcallee, hname⟩ := Option.bind_eq_some_iff.mp h
        split at hname
        · next hkind =>
            obtain ⟨property, hproperty, htext⟩ := Option.map_eq_some_iff.mp hname
            exact ⟨beq_iff_eq.mp hcall, callee, property, hcallee, beq_iff_eq.mp hkind, hproperty,
              htext⟩
        · cases hname
    · cases h
  · rintro ⟨hcall, callee, property, hcallee, hkind, hproperty, rfl⟩
    simp [calledMember?, hcall, hcallee, hkind, Tree.fieldText?, hproperty]

end ModuleFacts

namespace SampleCalls

def source : List Char :=
  "f(g())".toList

def inner : Tree :=
  .node .callExpression none 2 5
    [.node .identifier (some .function) 2 3 [],
      .node .other (some .arguments) 3 5
        [.node (.token "(") none 3 4 [], .node (.token ")") none 4 5 []]]

/-- A call with another call for an argument. -/
def root : Tree :=
  .node .callExpression none 0 6
    [.node .identifier (some .function) 0 1 [],
      .node .other (some .arguments) 1 6
        [.node (.token "(") none 1 2 [], inner, .node (.token ")") none 5 6 []]]

theorem tokensAreLeaves : root.TokensAreLeaves := by
  simp [Tree.TokensAreLeaves, Tree.everywhere_node, root, inner, Tree.children, Tree.isNamed,
    Tree.kind]

end SampleCalls

open ModuleFacts in
/--
The walk through a tree is the loop over a stack, which ends, and the recursive one. It meets the
root and what can be reached by named nodes, each node once and in the order of addresses;
where nothing stands below a token, these are all named nodes. So the calls of plain names and of
members are listed as they are met first, and there is markup if and only if some node is an
element, with an end of its own or without, or a fragment.
-/
theorem scan_meets_each_node_once (dialect : Dialect) (source : List Char) (root : Tree) :
    let facts := ofTree dialect source root
    (∀ rounds, (Tree.stackRound^[rounds] [root]).getLast? = root.walk[rounds]? ∧
      (Tree.stackRound^[rounds] [root] = [] ↔ root.walk.length ≤ rounds)) ∧
    root.walk = root :: root.namedChildren.flatMap Tree.walk ∧
    root.outline.map Prod.snd = root.walk ∧
    (root.outline.Pairwise fun p q => p.1 < q.1) ∧
    (∀ place n, (place, n) ∈ root.outline ↔ root.NamedAt place n) ∧
    (root.TokensAreLeaves → ∀ place n, (place, n) ∈ root.outline ↔
      root.at? place = some n ∧ (place = [] ∨ n.isNamed = true)) ∧
    ListsFirst facts.calls (fun place name =>
      ∃ n, root.NamedAt place n ∧ CallsName source n name) ∧
    ListsFirst facts.memberCalls (fun place name =>
      ∃ n, root.NamedAt place n ∧ CallsMember source n name) ∧
    (facts.hasMarkup = true ↔ ∃ place n, root.NamedAt place n ∧
      (n.kind = .markupElement ∨ n.kind = .selfClosingMarkup ∨ n.kind = .markupFragment)) := by
  intro facts
  refine ⟨fun rounds => ⟨Tree.getLast?_stackRound [root] rounds, Tree.stackRound_eq_nil_iff⟩,
    root.walk_eq, root.map_snd_outline, root.outline_pairwise,
    fun place n => Tree.mem_outline_iff root, ?_, ?_, ?_, ?_⟩
  · exact fun hleaves place n => (Tree.mem_outline_iff root).trans hleaves.namedAt_iff
  · simp only [← calledName?_eq_some_iff]
    exact listsFirst_walk root (calledName? source)
  · simp only [← calledMember?_eq_some_iff]
    exact listsFirst_walk root (calledMember? source)
  · have hmarkup : facts.hasMarkup = root.walk.any fun t => markupKinds.contains t.kind := rfl
    simp [hmarkup, markupKinds, ← root.map_snd_outline, ← Tree.mem_outline_iff]

open ModuleFacts SampleCalls in
/-- In a call with another one for an argument, both are met, and both names are listed. -/
theorem scan_meets_each_node_once_sample :
    let facts := ofTree .plain source root
    root.TokensAreLeaves ∧
      (∀ place n, (place, n) ∈ root.outline ↔
        root.at? place = some n ∧ (place = [] ∨ n.isNamed = true)) ∧
      "f" ∈ facts.calls ∧ "g" ∈ facts.calls := by
  intro facts
  obtain ⟨-, -, -, -, -, hleaves, hcalls, -⟩ := scan_meets_each_node_once .plain source root
  have hplaces := hleaves tokensAreLeaves
  have houter : root.NamedAt [] root := Tree.namedAt_nil.mpr rfl
  have hinner : root.NamedAt [1, 1] inner := tokensAreLeaves.namedAt_iff.mpr ⟨rfl, .inr rfl⟩
  refine ⟨tokensAreLeaves, hplaces, ?_, ?_⟩
  · exact (hcalls.mem "f").mpr ⟨[], root, houter, calledName?_eq_some_iff.mp (by decide)⟩
  · exact (hcalls.mem "g").mpr ⟨[1, 1], inner, hinner, calledName?_eq_some_iff.mp (by decide)⟩

end RepoAtlas
