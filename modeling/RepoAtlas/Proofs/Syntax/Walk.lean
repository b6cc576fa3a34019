import Mathlib.Data.List.Basic
import Mathlib.Logic.Function.Iterate
import RepoAtlas.SourceModule.Collect

/-!
The walk through a tree: it is that of a loop over a stack, and it meets the root and every
named node below it once, each before the nodes below it and these from left to right.
-/
namespace RepoAtlas.Syntax.Tree

theorem walkFrom_append (nodes others : List Tree) :
    walkFrom (nodes ++ others) = walkFrom nodes ++ walkFrom others := by
  induction nodes using walkFrom.induct with
  | case1 => rw [walkFrom, List.nil_append, List.nil_append]
  | case2 t waiting ih =>
      rw [List.append_assoc] at ih
      rw [List.cons_append, walkFrom, walkFrom, List.cons_append, ih]

theorem walkFrom_eq_flatMap (nodes : List Tree) : walkFrom nodes = nodes.flatMap walk := by
  induction nodes with
  | nil => rw [walkFrom, List.flatMap_nil]
  | cons t nodes ih => rw [← List.singleton_append, walkFrom_append, ih, List.flatMap_append,
      List.flatMap_singleton, walk]

/-- A node comes first, and then what is met in its children, one after another. -/
theorem walk_eq (t : Tree) : walk t = t :: t.namedChildren.flatMap walk := by
  rw [walk, walkFrom, List.append_nil, walkFrom_eq_flatMap]

section Stack

/-- One round of a loop over a stack: the last node is taken off, and its children are put on
in reverse. -/
def stackRound (stack : List Tree) : List Tree :=
  match stack.getLast? with
  | some t => stack.dropLast ++ t.namedChildren.reverse
  | none => []

theorem stackRound_concat (stack : List Tree) (t : Tree) :
    stackRound (stack ++ [t]) = stack ++ t.namedChildren.reverse := by
  rw [stackRound, List.getLast?_concat, List.dropLast_concat]

/-- The node on top of the stack after some rounds is the one that is met then. -/
theorem getLast?_stackRound (stack : List Tree) (rounds : Nat) :
    (stackRound^[rounds] stack).getLast? = (walkFrom stack.reverse)[rounds]? := by
  induction rounds generalizing stack with
  | zero =>
      rcases List.eq_nil_or_concat' stack with rfl | ⟨below, t, rfl⟩
      · rw [List.reverse_nil, walkFrom]
        rfl
      · rw [List.reverse_concat, walkFrom]
        exact List.getLast?_concat
  | succ rounds ih =>
      rw [Function.iterate_succ_apply, ih]
      rcases List.eq_nil_or_concat' stack with rfl | ⟨below, t, rfl⟩
      · rw [List.reverse_nil, walkFrom]
        exact congrArg (·[rounds]?) walkFrom.eq_1
      · rw [stackRound_concat, List.reverse_append, List.reverse_reverse, List.reverse_concat,
          walkFrom, List.getElem?_cons_succ]

/-- The loop ends after as many rounds as there are nodes to meet. -/
theorem stackRound_eq_nil_iff {stack : List Tree} {rounds : Nat} :
    stackRound^[rounds] stack = [] ↔ (walkFrom stack.reverse).length ≤ rounds := by
  rw [← List.getLast?_eq_none_iff, getLast?_stackRound, List.getElem?_eq_none_iff]

end Stack

section Address

/-- The node at an address: the number of a child, of a child of that, and so on. -/
def at? : List Nat → Tree → Option Tree
  | [], t => some t
  | i :: place, t => t.children[i]?.bind (at? place)

/-- Whether a node stands at an address and all nodes on the way to it are named. -/
structure NamedAt (root : Tree) (place : List Nat) (n : Tree) : Prop where
  found : root.at? place = some n
  named : ∀ way c, way ≠ [] → way <+: place → root.at? way = some c → c.isNamed = true

theorem at?_cons {root c : Tree} {i : Nat} (h : root.children[i]? = some c) (place : List Nat) :
    root.at? (i :: place) = c.at? place := by
  rw [at?, h, Option.bind_some]

/-- Whether something holds of a node and of all nodes below it. -/
def Everywhere (P : Tree → Prop) (root : Tree) : Prop :=
  ∀ place n, root.at? place = some n → P n

theorem everywhere_iff {P : Tree → Prop} {root : Tree} :
    root.Everywhere P ↔ P root ∧ ∀ c ∈ root.children, c.Everywhere P := by
  constructor
  · refine fun h => ⟨h [] root rfl, fun c hmem place n hn => ?_⟩
    obtain ⟨i, hchild⟩ := List.mem_iff_getElem?.mp hmem
    exact h (i :: place) n ((at?_cons hchild place).trans hn)
  · rintro ⟨hroot, hchildren⟩ place n hn
    cases place with
    | nil =>
        obtain rfl := Option.some.inj hn
        exact hroot
    | cons i place =>
        obtain ⟨c, hchild, hbelow⟩ := Option.bind_eq_some_iff.mp hn
        exact hchildren c (List.mem_of_getElem? hchild) place n hbelow

theorem everywhere_node {P : Tree → Prop} {kind : Kind} {field : Option Field} {start stop : Nat}
    {children : List Tree} :
    (node kind field start stop children).Everywhere P ↔
      P (node kind field start stop children) ∧ ∀ c ∈ children, c.Everywhere P :=
  everywhere_iff

theorem Everywhere.of_mem_children {P : Tree → Prop} {root c : Tree} (h : root.Everywhere P)
    (hmem : c ∈ root.children) : c.Everywhere P :=
  (everywhere_iff.mp h).2 c hmem

theorem namedAt_nil {root n : Tree} : NamedAt root [] n ↔ n = root := by
  constructor
  · exact fun h => (Option.some.inj h.found).symm
  · rintro rfl
    exact ⟨rfl, fun way c hway hpre => absurd (List.prefix_nil.mp hpre) hway⟩

theorem namedAt_cons {root n : Tree} {i : Nat} {place : List Nat} :
    NamedAt root (i :: place) n ↔
      ∃ c, root.children[i]? = some c ∧ c.isNamed = true ∧ NamedAt c place n := by
  constructor
  · rintro ⟨hfound, hnamed⟩
    obtain ⟨c, hchild, hbelow⟩ := Option.bind_eq_some_iff.mp hfound
    refine ⟨c, hchild, hnamed [i] c (by simp) (by simp) (at?_cons hchild []), hbelow, ?_⟩
    intro way d _ hpre hd
    exact hnamed (i :: way) d (by simp) (List.cons_prefix_cons.mpr ⟨rfl, hpre⟩)
      ((at?_cons hchild way).trans hd)
  · rintro ⟨c, hchild, hnamed, hbelow⟩
    refine ⟨(at?_cons hchild place).trans hbelow.found, ?_⟩
    intro way d hne hpre hd
    cases way with
    | nil => exact absurd rfl hne
    | cons j way =>
        obtain ⟨rfl, hbehind⟩ := List.cons_prefix_cons.mp hpre
        rw [at?_cons hchild] at hd
        cases way with
        | nil => exact Option.some.inj hd ▸ hnamed
        | cons k way => exact hbelow.named _ d (by simp) hbehind hd

/-- Whether nothing stands below the tokens of a tree. -/
def TokensAreLeaves (root : Tree) : Prop :=
  root.Everywhere fun n => n.isNamed = false → n.children = []

/-- Where nothing stands below a token, all nodes on the way to a named one are named. -/
theorem TokensAreLeaves.namedAt_iff {root n : Tree} {place : List Nat} (h : root.TokensAreLeaves) :
    NamedAt root place n ↔ root.at? place = some n ∧ (place = [] ∨ n.isNamed = true) := by
  induction place generalizing root with
  | nil =>
      rw [namedAt_nil]
      exact ⟨fun heq => ⟨heq ▸ rfl, .inl rfl⟩, fun hfound => (Option.some.inj hfound.1).symm⟩
  | cons i place ih =>
      have hchildren : ∀ {c}, root.children[i]? = some c → c.TokensAreLeaves :=
        fun hchild => Everywhere.of_mem_children h (List.mem_of_getElem? hchild)
      rw [namedAt_cons]
      constructor
      · rintro ⟨c, hchild, hnamed, hbelow⟩
        obtain ⟨hfound, hplace⟩ := (ih (hchildren hchild)).mp hbelow
        refine ⟨(at?_cons hchild place).trans hfound, .inr ?_⟩
        rcases hplace with rfl | hlast
        · exact Option.some.inj hfound ▸ hnamed
        · exact hlast
      · rintro ⟨hfound, hlast⟩
        have hn : n.isNamed = true := hlast.resolve_left (List.cons_ne_nil _ _)
        obtain ⟨c, hchild, hbelow⟩ := Option.bind_eq_some_iff.mp hfound
        refine ⟨c, hchild, ?_, (ih (hchildren hchild)).mpr ⟨hbelow, .inr hn⟩⟩
        by_contra htoken
        have hleaf := h [i] c (at?_cons hchild []) (Bool.eq_false_iff.mpr htoken)
        cases place with
        | nil => exact htoken (Option.some.inj hbelow ▸ hn)
        | cons j place => simp [at?, hleaf] at hbelow

mutual

/-- A node and all named nodes below it with their addresses. -/
def outline : Tree → List (List Nat × Tree)
  | node kind field start stop children =>
    ([], node kind field start stop children) :: outlineFrom 0 children

/-- The same of some children, of which the first one has a number. -/
def outlineFrom (i : Nat) : List Tree → List (List Nat × Tree)
  | [] => []
  | c :: rest =>
    (if c.isNamed then c.outline.map fun entry => (i :: entry.1, entry.2) else []) ++
      outlineFrom (i + 1) rest

end

mutual

/-- The walk meets the nodes of the outline. -/
theorem map_snd_outline : (t : Tree) → t.outline.map Prod.snd = t.walk
  | node kind field start stop children => by
      rw [outline, List.map_cons, map_snd_outlineFrom, walk_eq, ← walkFrom_eq_flatMap]
      rfl

theorem map_snd_outlineFrom (i : Nat) : (nodes : List Tree) →
    (outlineFrom i nodes).map Prod.snd = walkFrom (nodes.filter isNamed)
  | [] => by rw [outlineFrom, List.filter_nil, walkFrom, List.map_nil]
  | c :: rest => by
      rw [outlineFrom, List.map_append, map_snd_outlineFrom (i + 1) rest]
      split
      · next hnamed =>
          have hbelow : (c.outline.map fun entry => (i :: entry.1, entry.2)).map Prod.snd =
              walk c := by
            rw [List.map_map, ← map_snd_outline c]
            rfl
          rw [hbelow, List.filter_cons_of_pos hnamed, ← List.singleton_append, walkFrom_append,
            walk]
      · next hnamed => rw [List.filter_cons_of_neg hnamed, List.map_nil, List.nil_append]

end

mutual

/-- The outline holds the nodes that are reached by named nodes. -/
theorem mem_outline_iff {place : List Nat} {n : Tree} : (t : Tree) →
    ((place, n) ∈ t.outline ↔ NamedAt t place n)
  | node kind field start stop children => by
      rw [outline, List.mem_cons, mem_outlineFrom_iff 0 children]
      cases place with
      | nil => simp [namedAt_nil]
      | cons i place => simp [namedAt_cons, Tree.children]

theorem mem_outlineFrom_iff {place : List Nat} {n : Tree} (i : Nat) : (nodes : List Tree) →
    ((place, n) ∈ outlineFrom i nodes ↔ ∃ j below c, place = (i + j) :: below ∧
      nodes[j]? = some c ∧ c.isNamed = true ∧ NamedAt c below n)
  | [] => by simp [outlineFrom]
  | c :: rest => by
      have hfirst : (place, n) ∈ (if c.isNamed then
            c.outline.map fun entry => (i :: entry.1, entry.2) else []) ↔
          ∃ below, place = i :: below ∧ c.isNamed = true ∧ NamedAt c below n := by
        split
        · next hnamed =>
            constructor
            · intro hmem
              obtain ⟨⟨below, d⟩, hbelow, heq⟩ := List.mem_map.mp hmem
              cases heq
              exact ⟨below, rfl, hnamed, (mem_outline_iff c).mp hbelow⟩
            · rintro ⟨below, rfl, -, hbelow⟩
              exact List.mem_map.mpr ⟨(below, n), (mem_outline_iff c).mpr hbelow, rfl⟩
        · next hnamed => simp [hnamed]
      rw [outlineFrom, List.mem_append, hfirst, mem_outlineFrom_iff (i + 1) rest]
      constructor
      · rintro (⟨below, rfl, hnamed, hbelow⟩ | ⟨j, below, d, rfl, hchild, hnamed, hbelow⟩)
        · exact ⟨0, below, c, rfl, rfl, hnamed, hbelow⟩
        · exact ⟨j + 1, below, d, by rw [Nat.add_assoc, Nat.add_comm 1], hchild, hnamed, hbelow⟩
      · rintro ⟨j, below, d, rfl, hchild, hnamed, hbelow⟩
        cases j with
        | zero =>
            obtain rfl := Option.some.inj hchild
            exact .inl ⟨below, rfl, hnamed, hbelow⟩
        | succ j =>
            refine .inr ⟨j, below, d, ?_, hchild, hnamed, hbelow⟩
            rw [Nat.add_assoc, Nat.add_comm 1]

end

mutual

/-- Addresses in an outline come in lexicographic order. -/
theorem outline_pairwise : (t : Tree) → t.outline.Pairwise fun p q => p.1 < q.1
  | node kind field start stop children => by
      rw [outline, List.pairwise_cons]
      refine ⟨?_, outlineFrom_pairwise 0 children⟩
      rintro ⟨place, n⟩ hmem
      obtain ⟨j, below, _, rfl, -⟩ := (mem_outlineFrom_iff 0 children).mp hmem
      exact List.nil_lt_cons _ _

theorem outlineFrom_pairwise (i : Nat) : (nodes : List Tree) →
    (outlineFrom i nodes).Pairwise fun p q => p.1 < q.1
  | [] => by
      rw [outlineFrom]
      exact .nil
  | c :: rest => by
      rw [outlineFrom, List.pairwise_append]
      refine ⟨?_, outlineFrom_pairwise (i + 1) rest, ?_⟩
      · split
        · next hnamed =>
            refine List.pairwise_map.mpr ((outline_pairwise c).imp fun hlt => ?_)
            exact List.cons_lt_cons_self.mpr hlt
        · exact .nil
      · rintro p hp ⟨place, n⟩ hq
        obtain ⟨j, below, _, rfl, -⟩ := (mem_outlineFrom_iff (i + 1) rest).mp hq
        split at hp
        · obtain ⟨entry, -, rfl⟩ := List.mem_map.mp hp
          exact List.cons_lt_cons_iff.mpr (.inl (by omega))
        · cases hp

end

end Address

end RepoAtlas.Syntax.Tree
