import RepoAtlas.Analysis.Analyzer
import RepoAtlas.Proofs.Entity
import RepoAtlas.Proofs.Graph.Resolution

/-!
The members of the interfaces in a module: none of them has an empty description,
so that the entities of the module lose nothing when they are written down.
-/
namespace RepoAtlas

open Syntax

namespace ModuleFacts

variable {source : List Char} {facts : ModuleFacts}

theorem memberProse?_ne (previous : Option Tree) : memberProse? source previous ≠ some "" := by
  unfold memberProse?
  cases previous with
  | none => simp
  | some t =>
      simp only
      split
      · split <;> simp_all
      · simp

theorem described_of_member? {previous : Option Tree} {t : Tree} {f : InterfaceField}
    (h : member? source previous t = some f) : f.Described := by
  unfold member? at h
  simp only at h
  split at h
  · obtain rfl := Option.some.inj h
    exact memberProse?_ne previous
  · obtain rfl := Option.some.inj h
    exact memberProse?_ne previous
  · cases h

theorem described_of_mem_membersFrom {previous : Option Tree} {trees : List Tree}
    {f : InterfaceField} (h : f ∈ membersFrom source previous trees) : f.Described := by
  induction trees generalizing previous with
  | nil => cases h
  | cons t rest ih =>
      rcases List.mem_append.mp h with hfirst | hrest
      · exact described_of_member? (Option.mem_toList.mp hfirst)
      · exact ih hrest

/-- Whether no member of an interface has an empty description. -/
def Described (facts : ModuleFacts) : Prop :=
  ∀ entry ∈ facts.interfaces, ∀ f ∈ entry.2, f.Described

theorem Described.of_eq (h : facts.Described) {others : ModuleFacts}
    (hothers : others.interfaces = facts.interfaces) : others.Described := by
  intro entry hmem
  exact h entry (hothers ▸ hmem)

/-- A declaration leaves the interfaces as they are, or sets the members of one. -/
theorem interfaces_declare (source : List Char) (facts : ModuleFacts) (t : Tree) :
    (facts.declare source t).1.interfaces = facts.interfaces ∨
      ∃ name body, (facts.declare source t).1.interfaces =
        facts.interfaces.set name (members source body) := by
  unfold declare
  extract_lets name names
  split
  · exact .inl rfl
  split
  · exact .inl rfl
  split
  · exact .inl rfl
  split
  · split
    · split
      · exact .inl rfl
      · exact .inr ⟨_, _, rfl⟩
    · exact .inl rfl
  split
  · split
    · split
      · exact .inr ⟨_, _, rfl⟩
      · exact .inl rfl
    · exact .inl rfl
  · exact .inl rfl

theorem Described.declare (h : facts.Described) (t : Tree) :
    (facts.declare source t).1.Described := by
  rcases interfaces_declare source facts t with hkept | ⟨name, body, hset⟩
  · exact h.of_eq hkept
  · intro entry hmem f hf
    rw [hset] at hmem
    rcases Table.mem_set hmem with rfl | hmem
    · exact described_of_mem_membersFrom hf
    · exact h entry hmem f hf

theorem interfaces_offerDefault (name : String) :
    (facts.offerDefault name).interfaces = facts.interfaces := by
  unfold offerDefault
  split
  · split <;> rfl
  · rfl

theorem interfaces_exportSpecifier (specifier : Tree) :
    (exportSpecifier source facts specifier).interfaces = facts.interfaces := by
  unfold exportSpecifier
  split
  · simp only [addExports]
    split
    · exact interfaces_offerDefault _
    · rfl
  · rfl

/-- Steps that leave the interfaces as they are leave them so one after another. -/
theorem interfaces_foldl {step : ModuleFacts → Tree → ModuleFacts}
    (hstep : ∀ facts t, (step facts t).interfaces = facts.interfaces) (trees : List Tree) :
    (trees.foldl step facts).interfaces = facts.interfaces := by
  induction trees generalizing facts with
  | nil => rfl
  | cons t rest ih => exact ih.trans (hstep facts t)

theorem interfaces_exportClause (clause : Tree) :
    (exportClause source facts clause).interfaces = facts.interfaces := by
  unfold exportClause
  split
  · exact interfaces_foldl (fun _ => interfaces_exportSpecifier) _
  · rfl

theorem Described.exportStatement (h : facts.Described) (t : Tree) :
    (facts.exportStatement source t).Described := by
  have hclauses : (t.namedChildren.foldl (exportClause source) facts).Described :=
    h.of_eq (interfaces_foldl (fun _ => interfaces_exportClause) _)
  unfold ModuleFacts.exportStatement
  simp only
  split
  · next declaration _ =>
      have hdeclared : (facts.declare source declaration).1.Described := h.declare declaration
      split
      · split <;> exact hdeclared.of_eq rfl
      · exact hdeclared.of_eq rfl
  · split
    · split
      · split
        · exact h
        · exact h.of_eq (interfaces_offerDefault _)
      · exact h
    · exact hclauses
  · exact hclauses

theorem Described.statement (h : facts.Described) (t : Tree) :
    (facts.statement source t).Described := by
  unfold ModuleFacts.statement
  split
  · exact h.of_eq rfl
  · exact h.exportStatement t
  · exact h.declare t

theorem described_ofTree (dialect : Dialect) (source : List Char) (root : Tree) :
    (ofTree dialect source root).Described := by
  have hfold (trees : List Tree) {facts : ModuleFacts} (h : facts.Described) :
      (trees.foldl (statement source) facts).Described := by
    induction trees generalizing facts with
    | nil => exact h
    | cons t rest ih => exact ih (h.statement t)
  refine (hfold root.namedChildren ?_).of_eq rfl
  intro entry hmem
  cases hmem

theorem described_of_readIn {path content : String} {dialects : List Dialect}
    (h : (readIn path content dialects).value = some facts) : facts.Described := by
  induction dialects with
  | nil => cases h
  | cons dialect rest ih =>
      unfold readIn at h
      simp only at h
      split at h
      · obtain rfl := Option.some.inj h
        exact described_ofTree _ _ _
      · exact ih h

end ModuleFacts

/-- What is found in a file loses nothing when it is written down. -/
theorem described_of_ofFile {path content : String} {e : Entity}
    (h : (Entity.ofFile path content).value = some e) : e.Described := by
  unfold Entity.ofFile at h
  split at h
  · have hread : ∀ facts, (ModuleFacts.read path content).value = some facts → facts.Described :=
      fun _ hfacts => ModuleFacts.described_of_readIn hfacts
    generalize ModuleFacts.read path content = read at h hread
    obtain ⟨facts, records⟩ := read
    cases facts with
    | none => cases h
    | some facts =>
        obtain rfl := Option.some.inj h
        intro f hf
        simp only [Entity.ofModule] at hf
        cases hget : Table.get? (facts.unitName path ++ "Props") facts.interfaces with
        | none => simp [hget] at hf
        | some fields =>
            rw [hget] at hf
            exact hread facts rfl _ (Table.mem_of_get? hget) f hf
  · cases h

/-- Resolving keeps what is said of the members. -/
theorem described_of_mem_resolve {entities : List Entity} (h : ∀ e ∈ entities, e.Described)
    {e : Entity} (hmem : e ∈ resolve entities) : e.Described := by
  obtain ⟨found, i, hget, rfl⟩ := mem_resolve.mp hmem
  exact h found (List.mem_of_getElem? hget)

end RepoAtlas
