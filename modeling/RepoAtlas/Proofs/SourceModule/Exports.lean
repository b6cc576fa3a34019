import RepoAtlas.Analysis.Analyzer
import RepoAtlas.Proofs.Graph.Declared
import RepoAtlas.Proofs.Syntax.Walk

/-!
What a module exports: the names that its statements offer, in the order of the source, and as
its default the first of those that are offered as one.
-/
namespace RepoAtlas

open Syntax Text

namespace Syntax.Tree

/-- Whether no name that is given in a tree is empty. -/
def Spelled (source : List Char) (root : Tree) : Prop :=
  root.Everywhere fun n => n.field = some .name → n.text source ≠ ""

variable {source : List Char} {t c : Tree}

theorem Spelled.of_mem_namedChildren (h : t.Spelled source) (hmem : c ∈ t.namedChildren) :
    c.Spelled source :=
  Everywhere.of_mem_children h (List.mem_of_mem_filter hmem)

theorem Spelled.of_child? {f : Field} (h : t.Spelled source) (hchild : t.child? f = some c) :
    c.Spelled source :=
  Everywhere.of_mem_children h (List.mem_of_find?_eq_some hchild)

theorem Spelled.text_ne (h : t.Spelled source) (hname : t.child? .name = some c) :
    c.text source ≠ "" := by
  have hfield : (c.field == some Field.name) = true := by
    rw [child?] at hname
    simpa using List.find?_some hname
  exact h.of_child? hname [] c rfl (beq_iff_eq.mp hfield)

end Syntax.Tree

namespace ModuleFacts

/-- A name that is exported, perhaps as the default. -/
structure Offer where
  name : String
  isDefault : Bool
deriving DecidableEq

/-- The names among some offers. -/
def offeredNames (offers : List Offer) : List String :=
  offers.map Offer.name

/-- The names that are offered as the default. -/
def defaultNames (offers : List Offer) : List String :=
  offeredNames (offers.filter Offer.isDefault)

/-- The name that a declaration is given, unless it is empty. -/
def givenName (source : List Char) (t : Tree) : List String :=
  ((t.fieldText? source .name).filter (· != "")).toList

/-- The names that a declaration binds to variables; patterns bind none. -/
def boundNames (source : List Char) (t : Tree) : List String :=
  t.namedChildren.filterMap fun declarator =>
    if declarator.kind == .variableDeclarator then
      (declarator.child? .name).bind fun target =>
        if target.kind == .identifier then some (target.text source) else none
    else none

/-- The names that a declaration declares; an interface without a body declares none. -/
def declaredNames (source : List Char) (t : Tree) : List String :=
  if functionKinds.contains t.kind then givenName source t
  else if classKinds.contains t.kind then givenName source t
  else if variableKinds.contains t.kind then boundNames source t
  else if t.kind == .interfaceDeclaration then
    if (t.child? .body).isSome then givenName source t else []
  else if t.kind == .typeAliasDeclaration then givenName source t
  else []

/-- What an export of some declared names offers: the first of them may be the default. -/
def declarationOffers (isDefault : Bool) : List String → List Offer
  | [] => []
  | name :: rest => ⟨name, isDefault⟩ :: rest.map fun other => ⟨other, false⟩

/-- What the export of a value offers, if the value has a name. -/
def valueOffers (source : List Char) (value : Tree) : List Offer :=
  match defaultValueName? source value with
  | some name => if name == "" then [] else [⟨name, true⟩]
  | none => []

/-- What a specifier offers: the local name of what is exported as the default, or else the
name it is exported as. -/
def specifierOffers (source : List Char) (specifier : Tree) : List Offer :=
  match specifier.kind, specifier.fieldText? source .name with
  | .exportSpecifier, some name =>
    let exported := (specifier.fieldText? source .alias).getD name
    if exported == "default" then [⟨name, true⟩] else [⟨exported, false⟩]
  | _, _ => []

def clauseOffers (source : List Char) (clause : Tree) : List Offer :=
  if clause.kind == .exportClause then clause.namedChildren.flatMap (specifierOffers source)
  else []

/-- What a statement at the top of a module offers, in the order of the source. -/
def statementOffers (source : List Char) (t : Tree) : List Offer :=
  if t.kind == .exportStatement then
    match t.child? .declaration, t.child? .value with
    | some declaration, _ =>
      declarationOffers (t.hasToken "default") (declaredNames source declaration)
    | none, some value =>
      if t.hasToken "default" then valueOffers source value
      else t.namedChildren.flatMap (clauseOffers source)
    | none, none => t.namedChildren.flatMap (clauseOffers source)
  else []

/-- Whether a default is what becomes of another one when some names are offered: it is kept
or one of them, and the first of all if none is empty. -/
structure Settles (old : Option String) (names : List String) (new : Option String) : Prop where
  keptOrTaken : new = old ∨ ∃ name ∈ names, new = some name
  first : old ≠ some "" → "" ∉ names → new = old.or names.head?

namespace Settles

variable {old mid new : Option String} {names more : List String}

theorem refl (old : Option String) : Settles old [] old where
  keptOrTaken := .inl rfl
  first _ _ := by rw [List.head?_nil, Option.or_none]

theorem trans (h : Settles old names mid) (hmore : Settles mid more new) :
    Settles old (names ++ more) new where
  keptOrTaken := by
    rcases hmore.keptOrTaken with rfl | ⟨name, hname, rfl⟩
    · exact h.keptOrTaken.imp_right fun ⟨name, hname, heq⟩ =>
        ⟨name, List.mem_append_left _ hname, heq⟩
    · exact .inr ⟨name, List.mem_append_right _ hname, rfl⟩
  first hold hnames := by
    rw [List.mem_append, not_or] at hnames
    have hmid := h.first hold hnames.1
    have hspelled : mid ≠ some "" := by
      rcases h.keptOrTaken with rfl | ⟨name, hname, rfl⟩
      · exact hold
      · rintro heq
        exact hnames.1 (Option.some.inj heq ▸ hname)
    rw [hmore.first hspelled hnames.2, hmid, Option.or_assoc, List.head?_append]

theorem kept (old name : String) : Settles (some old) [name] (some old) where
  keptOrTaken := .inl rfl
  first _ _ := by rw [Option.some_or]

theorem taken (name : String) : Settles none [name] (some name) where
  keptOrTaken := .inr ⟨name, List.mem_singleton_self name, rfl⟩
  first _ _ := by rw [Option.none_or, List.head?_cons]

/-- An empty default gives way. -/
theorem replaced (name : String) : Settles (some "") [name] (some name) where
  keptOrTaken := .inr ⟨name, List.mem_singleton_self name, rfl⟩
  first hold _ := absurd rfl hold

end Settles

/-- Whether facts differ from others by some offers, as far as exports go. -/
structure Adds (facts : ModuleFacts) (offers : List Offer) (after : ModuleFacts) : Prop where
  exports : after.exports = facts.exports ++ offeredNames offers
  defaultExport : Settles facts.defaultExport (defaultNames offers) after.defaultExport

namespace Adds

variable {facts mid after : ModuleFacts} {offers more : List Offer}

theorem of_eq (hexports : after.exports = facts.exports)
    (hdefault : after.defaultExport = facts.defaultExport) : Adds facts [] after where
  exports := by rw [hexports, offeredNames, List.map_nil, List.append_nil]
  defaultExport := hdefault ▸ .refl _

theorem trans (h : Adds facts offers mid) (hmore : Adds mid more after) :
    Adds facts (offers ++ more) after where
  exports := by
    rw [hmore.exports, h.exports, List.append_assoc, offeredNames, offeredNames, offeredNames,
      List.map_append]
  defaultExport := by
    have hsettles := h.defaultExport.trans hmore.defaultExport
    rwa [defaultNames, defaultNames, offeredNames, offeredNames, ← List.map_append,
      ← List.filter_append] at hsettles

/-- Steps that each add their offers add them all, in order. -/
theorem foldl {step : ModuleFacts → Tree → ModuleFacts} {offersOf : Tree → List Offer}
    (hstep : ∀ facts t, Adds facts (offersOf t) (step facts t)) (trees : List Tree)
    (facts : ModuleFacts) : Adds facts (trees.flatMap offersOf) (trees.foldl step facts) := by
  induction trees generalizing facts with
  | nil => exact .of_eq rfl rfl
  | cons t trees ih => exact (hstep facts t).trans (ih (step facts t))

end Adds

section Steps

variable (source : List Char) (facts : ModuleFacts)

/-- Declaring changes no exports, and what it declares does not depend on the facts. -/
theorem declare_eq (t : Tree) :
    (facts.declare source t).1.exports = facts.exports ∧
      (facts.declare source t).1.defaultExport = facts.defaultExport ∧
      (facts.declare source t).2 = declaredNames source t := by
  unfold declaredNames declare
  extract_lets name names
  have hnames : names = givenName source t := by
    simp only [names, name, givenName]
    cases t.fieldText? source .name with
    | none => rfl
    | some text => by_cases htext : text = "" <;> simp [Option.filter, htext]
  have hempty : name = "" → givenName source t = [] := fun hname => by simp [← hnames, names, hname]
  split
  · exact ⟨rfl, rfl, hnames⟩
  split
  · exact ⟨rfl, rfl, hnames⟩
  split
  · exact ⟨rfl, rfl, rfl⟩
  split
  · cases t.child? .body with
    | none => exact ⟨rfl, rfl, rfl⟩
    | some body =>
        simp only [Option.isSome_some, if_true]
        split
        · next hname => exact ⟨rfl, rfl, (hempty (beq_iff_eq.mp hname)).symm⟩
        · exact ⟨rfl, rfl, hnames⟩
  split
  · cases t.child? .value with
    | none => exact ⟨rfl, rfl, hnames⟩
    | some value =>
        simp only
        split <;> exact ⟨rfl, rfl, hnames⟩
  · exact ⟨rfl, rfl, rfl⟩

theorem adds_default (name : String) :
    Adds facts [⟨name, true⟩] ((facts.offerDefault name).addExports [name]) := by
  unfold offerDefault
  split
  · next old hold =>
      split
      · next hempty =>
          obtain rfl := beq_iff_eq.mp hempty
          exact ⟨rfl, hold ▸ .replaced name⟩
      · exact ⟨rfl, hold ▸ .kept old name⟩
  · next hnone => exact ⟨rfl, hnone ▸ .taken name⟩

theorem adds_specifier (specifier : Tree) :
    Adds facts (specifierOffers source specifier) (exportSpecifier source facts specifier) := by
  by_cases hkind : specifier.kind = .exportSpecifier
  · cases hname : specifier.fieldText? source .name with
    | none =>
        simp only [specifierOffers, exportSpecifier, hkind, hname]
        exact .of_eq rfl rfl
    | some name =>
        simp only [specifierOffers, exportSpecifier, hkind, hname]
        split
        · exact adds_default facts name
        · exact ⟨rfl, .refl _⟩
  · have hoffers : specifierOffers source specifier = [] := by simp [specifierOffers, hkind]
    have hfacts : exportSpecifier source facts specifier = facts := by
      simp [exportSpecifier, hkind]
    rw [hoffers, hfacts]
    exact .of_eq rfl rfl

theorem adds_clause (clause : Tree) :
    Adds facts (clauseOffers source clause) (exportClause source facts clause) := by
  rw [clauseOffers, exportClause]
  split
  · exact .foldl (adds_specifier source) _ facts
  · exact .of_eq rfl rfl

theorem adds_clauses (t : Tree) :
    Adds facts (t.namedChildren.flatMap (clauseOffers source))
      (t.namedChildren.foldl (exportClause source) facts) :=
  .foldl (adds_clause source) _ facts

theorem offeredNames_declarationOffers (isDefault : Bool) (names : List String) :
    offeredNames (declarationOffers isDefault names) = names := by
  cases names <;> simp [offeredNames, declarationOffers, Function.comp_def]

theorem defaultNames_declarationOffers (isDefault : Bool) (name : String) (rest : List String) :
    defaultNames (declarationOffers isDefault (name :: rest)) =
      if isDefault then [name] else [] := by
  have hrest : (rest.map fun other => (⟨other, false⟩ : Offer)).filter Offer.isDefault = [] := by
    simp [List.filter_map, Function.comp_def]
  cases isDefault <;> simp [defaultNames, declarationOffers, hrest, offeredNames]

/-- The first of some declared names is the default if it is to be and there is none. -/
theorem adds_declared {declared : ModuleFacts} (hexports : declared.exports = facts.exports)
    (hdefault : declared.defaultExport = facts.defaultExport) (isDefault : Bool)
    (names : List String) :
    Adds facts (declarationOffers isDefault names)
      (match names with
        | name :: _ =>
          if isDefault && (declared.addExports names).defaultExport.isNone then
            { declared.addExports names with defaultExport := some name }
          else declared.addExports names
        | [] => declared.addExports names) := by
  cases names with
  | nil => exact .of_eq ((List.append_nil _).trans hexports) hdefault
  | cons name rest =>
      have hadded : (declared.addExports (name :: rest)).defaultExport = facts.defaultExport :=
        hdefault
      have hnames : (declared.addExports (name :: rest)).exports =
          facts.exports ++ offeredNames (declarationOffers isDefault (name :: rest)) := by
        rw [offeredNames_declarationOffers, ← hexports]
        rfl
      simp only [hadded]
      split
      · next htaken =>
          obtain ⟨rfl, hnone⟩ : isDefault = true ∧ facts.defaultExport = none := by
            simpa using htaken
          refine ⟨hnames, ?_⟩
          rw [defaultNames_declarationOffers, hnone]
          exact .taken name
      · next hkept =>
          refine ⟨hnames, ?_⟩
          rw [defaultNames_declarationOffers, hadded]
          cases isDefault with
          | false => exact .refl _
          | true =>
              cases hold : facts.defaultExport with
              | none => simp [hold] at hkept
              | some old => exact .kept old name

theorem adds_export (t : Tree) (hkind : t.kind = .exportStatement) :
    Adds facts (statementOffers source t) (exportStatement source facts t) := by
  have hoffers : (t.kind == .exportStatement) = true := beq_iff_eq.mpr hkind
  rw [statementOffers, if_pos hoffers]
  unfold exportStatement
  extract_lets isDefault clauses
  cases hdeclaration : t.child? .declaration with
  | some declaration =>
      obtain ⟨hexports, hdefault, hnames⟩ := declare_eq source facts declaration
      simp only [← hnames]
      exact adds_declared facts hexports hdefault isDefault _
  | none =>
      cases hvalue : t.child? .value with
      | none => exact adds_clauses source facts t
      | some value =>
          simp only
          split
          · rw [valueOffers]
            cases defaultValueName? source value with
            | none => exact .of_eq rfl rfl
            | some name =>
                by_cases hempty : name = ""
                · simp only [hempty, BEq.rfl, if_true]
                  exact .of_eq rfl rfl
                · simp only [beq_eq_false_iff_ne.mpr hempty, Bool.false_eq_true, if_false]
                  exact adds_default facts name
          · exact adds_clauses source facts t

theorem adds_statement (t : Tree) :
    Adds facts (statementOffers source t) (statement source facts t) := by
  unfold statement
  split
  · next hkind =>
      rw [statementOffers, hkind]
      exact .of_eq rfl rfl
  · next hkind => exact adds_export source facts t hkind
  · next hkind =>
      obtain ⟨hexports, hdefault, -⟩ := declare_eq source facts t
      rw [statementOffers, if_neg (by simpa using hkind)]
      exact .of_eq hexports hdefault

end Steps

section Spelled

variable {source : List Char} {t : Tree}

theorem not_mem_givenName (source : List Char) (t : Tree) : "" ∉ givenName source t := by
  simp [givenName, Option.filter_eq_some_iff]

theorem not_mem_declaredNames (h : t.Spelled source) : "" ∉ declaredNames source t := by
  have hbound : "" ∉ boundNames source t := by
    intro hmem
    obtain ⟨declarator, hdeclarator, hbound⟩ := List.mem_filterMap.mp hmem
    split at hbound
    · obtain ⟨target, htarget, htext⟩ := Option.bind_eq_some_iff.mp hbound
      split at htext
      · exact (h.of_mem_namedChildren hdeclarator).text_ne htarget (Option.some.inj htext)
      · cases htext
    · cases hbound
  have hgiven := not_mem_givenName source t
  unfold declaredNames
  split
  · exact hgiven
  split
  · exact hgiven
  split
  · exact hbound
  split
  · split
    · exact hgiven
    · exact List.not_mem_nil
  split
  · exact hgiven
  · exact List.not_mem_nil

/-- Whether no empty name is offered as the default. -/
def Filled (offers : List Offer) : Prop :=
  ∀ offer ∈ offers, offer.isDefault = true → offer.name ≠ ""

theorem Filled.not_mem {offers : List Offer} (h : Filled offers) : "" ∉ defaultNames offers := by
  intro hmem
  obtain ⟨offer, hoffer, hempty⟩ := List.mem_map.mp hmem
  obtain ⟨hoffer, hdefault⟩ := List.mem_filter.mp hoffer
  exact h offer hoffer hdefault hempty

theorem filled_nil : Filled [] :=
  List.forall_mem_nil _

theorem filled_flatMap {offersOf : Tree → List Offer} {trees : List Tree}
    (h : ∀ t ∈ trees, Filled (offersOf t)) : Filled (trees.flatMap offersOf) :=
  List.forall_mem_flatMap.mpr h

theorem filled_declarationOffers (h : t.Spelled source) (isDefault : Bool) :
    Filled (declarationOffers isDefault (declaredNames source t)) := by
  have hnames := not_mem_declaredNames h
  cases hdeclared : declaredNames source t with
  | nil => exact filled_nil
  | cons name rest =>
      rw [hdeclared, List.mem_cons, not_or] at hnames
      refine List.forall_mem_cons.mpr ⟨fun _ => Ne.symm hnames.1, List.forall_mem_map.mpr ?_⟩
      exact fun _ _ hdefault => nomatch hdefault

theorem filled_valueOffers (source : List Char) (value : Tree) :
    Filled (valueOffers source value) := by
  unfold valueOffers
  split
  · split
    · exact filled_nil
    · next hname => exact List.forall_mem_singleton.mpr fun _ heq => hname (beq_iff_eq.mpr heq)
  · exact filled_nil

theorem filled_specifierOffers (h : t.Spelled source) : Filled (specifierOffers source t) := by
  unfold specifierOffers
  split
  · next name _ hname =>
      obtain ⟨target, htarget, rfl⟩ := Option.map_eq_some_iff.mp hname
      extract_lets exported
      split
      · exact List.forall_mem_singleton.mpr fun _ => h.text_ne htarget
      · exact List.forall_mem_singleton.mpr nofun
  · exact filled_nil

theorem filled_clauses (h : t.Spelled source) :
    Filled (t.namedChildren.flatMap (clauseOffers source)) := by
  refine filled_flatMap fun clause hclause => ?_
  unfold clauseOffers
  split
  · refine filled_flatMap fun specifier hspecifier => filled_specifierOffers ?_
    exact (h.of_mem_namedChildren hclause).of_mem_namedChildren hspecifier
  · exact filled_nil

/-- Where all names are spelled, no empty name is offered as the default. -/
theorem filled_statementOffers (h : t.Spelled source) : Filled (statementOffers source t) := by
  unfold statementOffers
  split
  · split
    · next hdeclaration => exact filled_declarationOffers (h.of_child? hdeclaration) _
    · split
      · exact filled_valueOffers source _
      · exact filled_clauses h
    · exact filled_clauses h
  · exact filled_nil

end Spelled

/-- All that the statements of a module offer. -/
def moduleOffers (source : List Char) (root : Tree) : List Offer :=
  root.namedChildren.flatMap (statementOffers source)

theorem adds_module (dialect : Dialect) (source : List Char) (root : Tree) :
    (ofTree dialect source root).exports = distinct (offeredNames (moduleOffers source root)) ∧
      Settles none (defaultNames (moduleOffers source root))
        (ofTree dialect source root).defaultExport := by
  have hadds := Adds.foldl (adds_statement source) root.namedChildren
    { dialect
      isClient := hasUseClient source root.namedChildren
      description := proseBefore source [] root.namedChildren }
  exact ⟨congrArg distinct hadds.exports, hadds.defaultExport⟩

end ModuleFacts

/-- In an index, a name that an entity exports leads to the last entity that exports it. -/
theorem ReferenceIndex.get?_byExport {e : Entity} {name : String} (h : name ∈ e.exports)
    (before after : List Entity) :
    ∃ found ∈ e :: after,
      Table.get? name (ofEntities (before ++ e :: after)).byExport = some found ∧
        name ∈ found.exports ∧ ((∀ other ∈ after, name ∉ other.exports) → found = e) := by
  have hfirst : (e :: before.reverse).find? (fun item => item.exports.contains name) = some e := by
    simp [h]
  rw [ofEntities_eq, Table.get?_ofEntries_flatMap, List.reverse_append, List.reverse_cons,
    List.append_assoc, List.find?_append, List.singleton_append, hfirst]
  cases hlast : after.reverse.find? fun other => other.exports.contains name with
  | none => exact ⟨e, List.mem_cons_self, rfl, h, fun _ => rfl⟩
  | some found =>
      have hmem : found ∈ after := List.mem_reverse.mp (List.mem_of_find?_eq_some hlast)
      have hfound : name ∈ found.exports := by simpa using List.find?_some hlast
      refine ⟨found, List.mem_cons_of_mem _ hmem, rfl, hfound, fun hnone => ?_⟩
      exact absurd hfound (hnone found hmem)

open ModuleFacts

namespace SampleExports

def source : List Char :=
  "export \x7ba as default\x7d;export default class B\x7b\x7d".toList

def clause : Tree :=
  .node .exportClause none 7 21
    [.node (.token "\x7b") none 7 8 [],
      .node .exportSpecifier none 8 20
        [.node .identifier (some .name) 8 9 [], .node (.token "as") none 10 12 [],
          .node .identifier (some .alias) 13 20 []],
      .node (.token "\x7d") none 20 21 []]

def declaration : Tree :=
  .node .classDeclaration (some .declaration) 37 46
    [.node (.token "class") none 37 42 [], .node .identifier (some .name) 43 44 [],
      .node .other (some .body) 44 46 []]

/-- Two names are offered as the default. -/
def root : Tree :=
  .node .program none 0 46
    [.node .exportStatement none 0 22 [.node (.token "export") none 0 6 [], clause],
      .node .exportStatement none 22 46
        [.node (.token "export") none 22 28 [], .node (.token "default") none 29 36 [],
          declaration]]

theorem spelled : root.Spelled source := by
  have ha : (Syntax.Tree.node .identifier (some .name) 8 9 []).text source ≠ "" := by decide
  have hb : (Syntax.Tree.node .identifier (some .name) 43 44 []).text source ≠ "" := by decide
  simp [Tree.Spelled, Tree.everywhere_node, root, clause, declaration, Tree.field, ha, hb]

theorem offers : moduleOffers source root = [⟨"a", true⟩, ⟨"B", true⟩] := by
  decide

end SampleExports

/--
The exports of a module are the names that its statements offer, without repeats, and its default
is one of them. Where no name in the tree is empty, the default is the first name that is offered
as one. It names the module wherever this is, and leads to its entity in an index of exports,
unless a later entity exports the same name.
-/
theorem default_export_is_first_offered (dialect : Dialect) (source : List Char) (root : Tree) :
    let facts := ofTree dialect source root
    let offers := moduleOffers source root
    facts.exports.Nodup ∧
    (∀ name, name ∈ facts.exports ↔ name ∈ offeredNames offers) ∧
    (∀ name, facts.defaultExport = some name → name ∈ facts.exports) ∧
    (root.Spelled source →
      facts.defaultExport = (defaultNames offers).head? ∧
      ∀ name, facts.defaultExport = some name → ∀ path,
        facts.unitName path = name ∧ facts.unitName path ∈ facts.exports ∧
        ∀ content before after,
          let e := Entity.ofModule path content facts
          let index := ReferenceIndex.ofEntities (before ++ e :: after)
          ∃ found ∈ e :: after, Table.get? e.name index.byExport = some found ∧
            e.name ∈ found.exports ∧
            ((∀ other ∈ after, e.name ∉ other.exports) → found = e)) := by
  intro facts offers
  obtain ⟨hexports, hsettles⟩ := adds_module dialect source root
  have hmem : ∀ name, name ∈ facts.exports ↔ name ∈ offeredNames offers := by
    intro name
    rw [hexports, mem_distinct]
  have hdefault : ∀ name, facts.defaultExport = some name →
      name ∈ defaultNames offers ∧ name ∈ facts.exports := by
    intro name hname
    rcases hsettles.keptOrTaken with hnone | ⟨taken, htaken, htook⟩
    · cases hnone.symm.trans hname
    · obtain rfl := Option.some.inj (htook.symm.trans hname)
      refine ⟨htaken, (hmem taken).mpr ?_⟩
      exact (List.filter_sublist.map Offer.name).subset htaken
  refine ⟨hexports ▸ nodup_distinct _, hmem, fun name hname => (hdefault name hname).2, ?_⟩
  intro hspelled
  have hfilled : "" ∉ defaultNames offers :=
    (filled_flatMap fun t ht => filled_statementOffers (hspelled.of_mem_namedChildren ht)).not_mem
  refine ⟨(hsettles.first nofun hfilled).trans (Option.none_or), fun name hname path => ?_⟩
  obtain ⟨htaken, hexported⟩ := hdefault name hname
  have hunit : facts.unitName path = name := by
    have hne : name ≠ "" := by
      rintro rfl
      exact hfilled htaken
    simp [unitName, hname, hne]
  have hunitExported : facts.unitName path ∈ facts.exports := hunit.symm ▸ hexported
  exact ⟨hunit, hunitExported, fun content => ReferenceIndex.get?_byExport hunitExported⟩

open SampleExports in
/-- Of two names that are offered as the default, the first one is taken. -/
theorem default_export_is_first_offered_sample :
    let facts := ofTree .plain source root
    let e := Entity.ofModule "index.ts" "" facts
    root.Spelled source ∧ facts.defaultExport = some "a" ∧ facts.unitName "index.ts" = "a" ∧
      Table.get? e.name (ReferenceIndex.ofEntities [e]).byExport = some e := by
  intro facts e
  obtain ⟨-, -, -, hspelled⟩ := default_export_is_first_offered .plain source root
  obtain ⟨hfirst, hnamed⟩ := hspelled spelled
  have hdefault : facts.defaultExport = some "a" := by
    rw [hfirst, offers]
    rfl
  obtain ⟨hunit, -, hfound⟩ := hnamed "a" hdefault "index.ts"
  obtain ⟨found, -, hget, -, hlast⟩ := hfound "" [] []
  obtain rfl : found = e := hlast (List.forall_mem_nil _)
  exact ⟨spelled, hdefault, hunit, hget⟩

end RepoAtlas
