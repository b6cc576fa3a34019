import RepoAtlas.Proofs.Graph.Resolution
import RepoAtlas.Proofs.Repository.Reading

/-!
Imports between the files of a repository. An importer names a file by a path, the
index knows it by its last name; an edge between them needs a name that both make
of their path.
-/
namespace RepoAtlas

section Ending

/-- No source ending ends with another one. -/
theorem eq_of_sourceEndings_suffix {first second : String} {chars : List Char}
    (hfirst : first ∈ sourceEndings) (hsecond : second ∈ sourceEndings)
    (h : first.toList <:+ chars) (h' : second.toList <:+ chars) : first = second := by
  have hapart : ∀ a ∈ sourceEndings, ∀ b ∈ sourceEndings,
      a.toList.isSuffixOf b.toList = true → a = b := by
    decide +kernel
  rcases List.suffix_or_suffix_of_suffix h h' with hsuffix | hsuffix
  · exact hapart _ hfirst _ hsecond (List.isSuffixOf_iff_suffix.mpr hsuffix)
  · exact (hapart _ hsecond _ hfirst (List.isSuffixOf_iff_suffix.mpr hsuffix)).symm

/-- A source ending is taken off again, whatever stands before it. -/
theorem withoutEnding_append (stem : String) {ending : String} (h : ending ∈ sourceEndings) :
    withoutEnding (stem ++ ending) = stem := by
  have hchars : (stem ++ ending).toList = stem.toList ++ ending.toList := String.toList_append
  rw [withoutEnding, hchars]
  cases hfind : sourceEndings.findSome? fun other =>
      Text.beforeEnd? other.toList (stem.toList ++ ending.toList) with
  | none =>
      have hnone := List.findSome?_eq_none_iff.mp hfind ending h
      simp [Text.beforeEnd?, Text.endsIn] at hnone
  | some found =>
      obtain ⟨other, hother, hfound⟩ := List.exists_of_findSome?_eq_some hfind
      simp only [Text.beforeEnd?, Text.endsIn, Option.ite_none_right_eq_some,
        List.isSuffixOf_iff_suffix, Option.some.injEq] at hfound
      obtain ⟨hsuffix, rfl⟩ := hfound
      obtain rfl := eq_of_sourceEndings_suffix hother h hsuffix (List.suffix_append _ _)
      simp

end Ending

/-- Whether a part of an import specifier may name something. -/
def mayName (part : String) : Bool :=
  !(["", ".", "..", "@", "~"].contains part)

section Naming

variable {specifier last : String} {parts : List String}

/-- The names of what a specifier ends with. -/
theorem moduleNames_of_last (hparts : specifierParts specifier = parts ++ [last])
    (hempty : withoutEnding last ≠ "") (hindex : withoutEnding last ≠ "index") :
    moduleNames specifier =
      distinctNames [withoutEnding last, Unicode.capitalize (withoutEnding last)] := by
  simp [moduleNames, hparts, hempty, hindex]

/-- An index goes by the name of its folder. -/
theorem moduleNames_of_index {folder : String}
    (hparts : specifierParts specifier = parts ++ [folder] ++ [last])
    (hfolder : folder ≠ "") (hindex : withoutEnding last = "index") :
    moduleNames specifier = distinctNames [folder, Unicode.capitalize folder] := by
  simp [moduleNames, hparts, hfolder, hindex]

end Naming

/-- The path of a source file in a folder of a repository, cut before its ending. -/
structure SourcePath where
  folders : List String
  stem : String
  ending : String
  inFolder : folders ≠ []
  named : ∀ name ∈ folders ++ [stem ++ ending], IsName name
  source : Unicode.lowercase ending ∈ sourceEndings

/-- The ways to name a source file from the root of its repository: by its path with or
without the ending, or by the path of the folder whose index it is. -/
inductive ImportForm where
  | kept
  | dropped
  | folder
deriving Repr, DecidableEq

namespace SourcePath

/-- The path as text. -/
def path (p : SourcePath) : String :=
  LocalTree.relative (p.folders ++ [p.stem ++ p.ending])

/-- The names between the slashes of an import. -/
def names (p : SourcePath) : ImportForm → List String
  | .kept => p.folders ++ [p.stem ++ p.ending]
  | .dropped => p.folders ++ [p.stem]
  | .folder => p.folders

/-- The specifier that names the file in some way. -/
def specifier (p : SourcePath) (form : ImportForm) : String :=
  "./" ++ LocalTree.relative (p.names form)

/-- Only an index can be named by its folder. -/
def Allows (p : SourcePath) : ImportForm → Prop
  | .folder => p.stem = "index"
  | _ => True

/-- Whether an import comes to the name that the index has of the file: there is one, it is
no index, and without the ending it is still a whole name. -/
def Plain (p : SourcePath) : ImportForm → Prop
  | .kept => stemOf p.path ≠ "" ∧ stemOf p.path ≠ "index"
  | .dropped => p.ending ∈ sourceEndings ∧
      p.stem ∉ ["", ".", "..", "@", "~", "index"] ∧ withoutEnding p.stem = p.stem
  | .folder => False

instance (p : SourcePath) : DecidablePred p.Plain
  | .kept => inferInstanceAs (Decidable (stemOf p.path ≠ "" ∧ stemOf p.path ≠ "index"))
  | .dropped => inferInstanceAs (Decidable (p.ending ∈ sourceEndings ∧
      p.stem ∉ ["", ".", "..", "@", "~", "index"] ∧ withoutEnding p.stem = p.stem))
  | .folder => inferInstanceAs (Decidable False)

/-- Whether the file is the index of a folder with a name that imports keep. -/
structure IsIndexOf (p : SourcePath) (form : ImportForm) (folder : String) : Prop where
  stem : p.stem = "index"
  ending : p.ending ∈ sourceEndings
  last : p.folders.getLast? = some folder
  kept : folder ∉ ["@", "~"]
  whole : form = .folder → withoutEnding folder = folder ∧ folder ≠ "index"

variable (p : SourcePath) {form : ImportForm}

theorem stemOf_path : stemOf p.path = withoutEnding (p.stem ++ p.ending) := by
  have hpath : PurePath.ofString p.path = ⟨"", p.folders ++ [p.stem ++ p.ending]⟩ :=
    PurePath.ofString_intercalate (by simp) p.named
  rw [stemOf, hpath, PurePath.name, List.getLast?_concat]
  rfl

theorem slash_not_mem {name : String} (hmem : name ∈ p.names form) : '/' ∉ name.toList := by
  have hfile : '/' ∉ (p.stem ++ p.ending).toList := (p.named _ (by simp)).slash
  have hfolder : name ∈ p.folders → '/' ∉ name.toList := fun h => (p.named _ (by simp [h])).slash
  cases form with
  | kept => exact (p.named _ hmem).slash
  | dropped =>
      rcases List.mem_append.mp hmem with h | h
      · exact hfolder h
      · obtain rfl := List.mem_singleton.mp h
        intro hslash
        exact hfile (by simp [String.toList_append, hslash])
  | folder => exact hfolder hmem

/-- The parts of a specifier are the names in it that may name something. -/
theorem specifierParts_specifier :
    specifierParts (p.specifier form) = (p.names form).filter mayName := by
  have hne : p.names form ≠ [] := by
    cases form with
    | kept => simp [names]
    | dropped => simp [names]
    | folder => exact p.inFolder
  have hdot : p.specifier form = "." ++ "/" ++ "/".intercalate (p.names form) := rfl
  rw [specifierParts, hdot, Text.splitOnChar_append,
    Text.splitOnChar_intercalate hne fun name hmem => p.slash_not_mem hmem]
  rfl

/-- A last name that may name something is the last part. -/
theorem specifierParts_concat {parts : List String} {last : String}
    (hnames : p.names form = parts ++ [last]) (hlast : mayName last = true) :
    specifierParts (p.specifier form) = parts.filter mayName ++ [last] := by
  rw [specifierParts_specifier, hnames, List.filter_append, List.filter_cons_of_pos hlast,
    List.filter_nil]

theorem mayName_file : mayName (p.stem ++ p.ending) = true := by
  have hname : IsName (p.stem ++ p.ending) := p.named _ (by simp)
  have hmark : ∀ c ∈ ['@', '~'], p.stem ++ p.ending ≠ String.ofList [c] := by
    intro c hc heq
    have hchars : p.stem.toList ++ p.ending.toList = [c] := by
      rw [← String.toList_append, heq, String.toList_ofList]
    have hends : p.ending ∈ ["", String.ofList [c]] := by
      rcases List.append_eq_singleton_iff.mp hchars with ⟨-, h⟩ | ⟨-, h⟩
      · simp [← String.toList_inj, h]
      · simp [← String.toList_inj, h]
    have hnone : ['@', '~'].all (fun c => ["", String.ofList [c]].all fun ending =>
        !sourceEndings.contains (Unicode.lowercase ending)) = true := by
      decide +kernel
    simpa [p.source] using List.all_eq_true.mp (List.all_eq_true.mp hnone c hc) _ hends
  have hat := hmark '@' (by simp)
  have htilde := hmark '~' (by simp)
  simpa [mayName, hname.nonempty, hname.notHere, hname.notUp] using ⟨hat, htilde⟩

/-- Where an import is plain, importer and index make the same names of the path. -/
theorem moduleNames_of_plain (h : p.Plain form) :
    moduleNames (p.specifier form) =
      distinctNames [stemOf p.path, Unicode.capitalize (stemOf p.path)] := by
  cases form with
  | kept =>
      have hparts : specifierParts (p.specifier .kept) =
          p.folders.filter mayName ++ [p.stem ++ p.ending] :=
        p.specifierParts_concat rfl p.mayName_file
      rw [Plain, stemOf_path] at h
      rw [moduleNames_of_last hparts h.1 h.2, stemOf_path]
  | dropped =>
      obtain ⟨hending, hstem, hwhole⟩ := h
      have hkept : mayName p.stem = true := by
        simp only [List.mem_cons, List.not_mem_nil, or_false, not_or] at hstem
        simp [mayName, hstem]
      have hparts : specifierParts (p.specifier .dropped) =
          p.folders.filter mayName ++ [p.stem] :=
        p.specifierParts_concat rfl hkept
      have hempty : withoutEnding p.stem ≠ "" := by
        rw [hwhole]
        rintro heq
        simp [heq] at hstem
      have hindex : withoutEnding p.stem ≠ "index" := by
        rw [hwhole]
        rintro heq
        simp [heq] at hstem
      rw [moduleNames_of_last hparts hempty hindex, hwhole, stemOf_path,
        withoutEnding_append _ hending]
  | folder => exact h.elim

/-- An import of an index makes names of its folder, however it is written. -/
theorem moduleNames_of_isIndexOf {folder : String} (h : p.IsIndexOf form folder) :
    moduleNames (p.specifier form) = distinctNames [folder, Unicode.capitalize folder] := by
  obtain ⟨before, hfolders⟩ := List.getLast?_eq_some_iff.mp h.last
  have hname : IsName folder := p.named _ (by simp [hfolders])
  have hfolder : mayName folder = true := by
    have hkept := h.kept
    simp only [List.mem_cons, List.not_mem_nil, or_false, not_or] at hkept
    simp [mayName, hname.nonempty, hname.notHere, hname.notUp, hkept]
  have hfilter : p.folders.filter mayName = before.filter mayName ++ [folder] := by
    rw [hfolders, List.filter_append, List.filter_cons_of_pos hfolder, List.filter_nil]
  cases form with
  | kept =>
      have hparts : specifierParts (p.specifier .kept) =
          before.filter mayName ++ [folder] ++ [p.stem ++ p.ending] := by
        rw [p.specifierParts_concat rfl p.mayName_file, hfilter]
      have hindex : withoutEnding (p.stem ++ p.ending) = "index" := by
        rw [withoutEnding_append _ h.ending, h.stem]
      exact moduleNames_of_index hparts hname.nonempty hindex
  | dropped =>
      have hparts : specifierParts (p.specifier .dropped) =
          before.filter mayName ++ [folder] ++ ["index"] := by
        have hlast : mayName "index" = true := by decide
        rw [p.specifierParts_concat (congrArg (p.folders ++ [·]) h.stem) hlast, hfilter]
      exact moduleNames_of_index hparts hname.nonempty (by decide +kernel)
  | folder =>
      obtain ⟨hwhole, hindex⟩ := h.whole rfl
      have hparts : specifierParts (p.specifier .folder) = before.filter mayName ++ [folder] :=
        p.specifierParts_concat hfolders hfolder
      rw [moduleNames_of_last hparts (hwhole.symm ▸ hname.nonempty) (hwhole.symm ▸ hindex), hwhole]

end SourcePath

/-- Whether one of the names that an import makes leads to the file of an entity, which is
the only one known. -/
def Entity.IsImportedBy (e : Entity) (specifier : String) : Prop :=
  ∃ name ∈ moduleNames specifier,
    ((ReferenceIndex.ofEntities [e]).lookup name).file? = some e.file

instance (e : Entity) (specifier : String) : Decidable (e.IsImportedBy specifier) :=
  inferInstanceAs (Decidable (∃ name ∈ moduleNames specifier,
    ((ReferenceIndex.ofEntities [e]).lookup name).file? = some e.file))

namespace Entity

variable {e : Entity} {specifier : String}

/-- An import leads to an entity by the names that the entity claims. -/
theorem isImportedBy_iff :
    e.IsImportedBy specifier ↔ ∃ name ∈ moduleNames specifier, e.Claims name := by
  refine exists_congr fun name => and_congr_right fun _ => ?_
  rw [ReferenceIndex.lookup_file?]
  constructor
  · intro h
    obtain ⟨found, hfind, -⟩ := Option.map_eq_some_iff.mp h
    obtain ⟨hmem, hclaims⟩ := ReferenceIndex.claims_of_find? hfind
    rwa [List.mem_singleton.mp hmem] at hclaims
  · intro h
    obtain ⟨found, hfind⟩ := ReferenceIndex.exists_find?_of_claims (List.mem_singleton_self e) h
    obtain rfl := List.mem_singleton.mp (ReferenceIndex.mem_of_find? hfind)
    rw [hfind]
    rfl

theorem isImportedBy_of_declared {name : String} (hname : name ∈ moduleNames specifier)
    (h : name = e.name ∨ name ∈ e.exports) : e.IsImportedBy specifier :=
  isImportedBy_iff.mpr ⟨name, hname, h.imp_right .inl⟩

theorem isImportedBy_of_plain {p : SourcePath} {form : ImportForm} (he : e.file = p.path)
    (h : p.Plain form) : e.IsImportedBy (p.specifier form) := by
  have hstem : stemOf p.path ≠ "" := by
    cases form with
    | kept => exact h.1
    | dropped =>
        obtain ⟨hending, hstem, -⟩ := h
        rw [p.stemOf_path, withoutEnding_append _ hending]
        rintro heq
        simp [heq] at hstem
    | folder => exact h.elim
  refine isImportedBy_iff.mpr ⟨stemOf p.path, ?_, .inr (.inr ?_)⟩
  · rw [p.moduleNames_of_plain h, distinctNames, Text.mem_distinct]
    simp [hstem]
  · rw [ReferenceIndex.fileEntries, he]
    simp

/-- A plain import leads to the file, whatever is declared in it. Any other import leads
there by the names that the file declares or exports; of an index these are to be the
names of its folder. -/
theorem import_leads_to_file (e : Entity) (p : SourcePath) (he : e.file = p.path)
    (form : ImportForm) :
    (p.Plain form → e.IsImportedBy (p.specifier form)) ∧
      (∀ name ∈ moduleNames (p.specifier form), name = e.name ∨ name ∈ e.exports →
        e.IsImportedBy (p.specifier form)) ∧
      (∀ folder, p.IsIndexOf form folder → moduleNames (p.specifier form) =
        distinctNames [folder, Unicode.capitalize folder]) := by
  refine ⟨?_, ?_, ?_⟩
  · exact isImportedBy_of_plain he
  · intro name hname hdeclared
    exact isImportedBy_of_declared hname hdeclared
  · intro folder hindex
    exact p.moduleNames_of_isIndexOf hindex

/-- Where its folder is called otherwise, the file name of an index leads nowhere. -/
theorem index_isImportedBy_iff {p : SourcePath} (he : e.file = p.path) {form : ImportForm}
    {folder : String} (h : p.IsIndexOf form folder)
    (hfolder : ∀ name ∈ [folder, Unicode.capitalize folder], name ∉ ["index", "Index"]) :
    e.IsImportedBy (p.specifier form) ↔
      ∃ name ∈ distinctNames [folder, Unicode.capitalize folder],
        name = e.name ∨ name ∈ e.exports := by
  have hfile : (ReferenceIndex.fileEntries e).map Prod.fst = ["index", "Index"] := by
    have hstem : stemOf e.file = "index" := by
      rw [he, p.stemOf_path, withoutEnding_append _ h.ending, h.stem]
    have hcapital : Unicode.capitalize "index" = "Index" := by decide +kernel
    simp [ReferenceIndex.fileEntries, hstem, hcapital]
  rw [isImportedBy_iff, p.moduleNames_of_isIndexOf h]
  refine exists_congr fun name => and_congr_right fun hname => ?_
  have hspelled : name ∈ [folder, Unicode.capitalize folder] :=
    List.mem_of_mem_filter (Text.mem_distinct.mp hname)
  have hother := hfolder name hspelled
  rw [Claims, hfile]
  tauto

end Entity

namespace SampleImports

/-- A file that is imported with and without its ending. -/
def chart : SourcePath where
  folders := ["lib", "ui"]
  stem := "chart"
  ending := ".ts"
  inFolder := by decide
  named := by decide
  source := by decide +kernel

/-- A file whose name without the ending looks like that of another one. -/
def script : SourcePath where
  folders := ["lib"]
  stem := "chart.js"
  ending := ".ts"
  inFolder := by decide
  named := by decide
  source := by decide +kernel

/-- A file whose name without the ending looks like the start of an alias. -/
def mark : SourcePath where
  folders := ["lib"]
  stem := "@"
  ending := ".ts"
  inFolder := by decide
  named := by decide
  source := by decide +kernel

/-- The index of a folder. -/
def shelf : SourcePath where
  folders := ["components"]
  stem := "index"
  ending := ".tsx"
  inFolder := by decide
  named := by decide
  source := by decide +kernel

/-- A unit of some name, declared in the file of some path. -/
def declared (name : String) (p : SourcePath) : Entity :=
  { name := name, role := .component, file := p.path }

/-- A unit called otherwise is found by its file, with and without the ending, and one in an
index is found by the name of the folder. -/
theorem import_leads_to_file_sample :
    (declared "Widget" chart).file = chart.path ∧
      (declared "Widget" chart).IsImportedBy "./lib/ui/chart.ts" ∧
      (declared "Widget" chart).IsImportedBy "./lib/ui/chart" ∧
      (declared "Components" shelf).file = shelf.path ∧
      (declared "Components" shelf).IsImportedBy "./components" := by
  have hchart := Entity.import_leads_to_file (declared "Widget" chart) chart rfl
  have hshelf := Entity.import_leads_to_file (declared "Components" shelf) shelf rfl .folder
  have hindex : shelf.IsIndexOf .folder "components" :=
    ⟨rfl, by decide, rfl, by decide, fun _ => by decide +kernel⟩
  have hfolder : "Components" ∈ moduleNames (shelf.specifier .folder) := by
    rw [hshelf.2.2 "components" hindex]
    decide +kernel
  exact ⟨rfl, (hchart .kept).1 (by decide +kernel), (hchart .dropped).1 (by decide +kernel), rfl,
    hshelf.2.1 "Components" hfolder (.inl rfl)⟩

/-- What is left of a file name without its ending may be cut once more, or be dropped as
the start of an alias, and then leads nowhere. -/
theorem not_every_import_leads_to_file :
    ¬(declared "Widget" script).IsImportedBy (script.specifier .dropped) ∧
      ¬(declared "Widget" mark).IsImportedBy (mark.specifier .dropped) ∧
      ¬∀ (p : SourcePath) (form : ImportForm), p.Allows form → ∀ e : Entity, e.file = p.path →
        e.IsImportedBy (p.specifier form) := by
  have hscript : ¬(declared "Widget" script).IsImportedBy (script.specifier .dropped) := by
    decide +kernel
  refine ⟨hscript, by decide +kernel, fun hevery => ?_⟩
  exact hscript (hevery script .dropped trivial (declared "Widget" script) rfl)

end SampleImports

end RepoAtlas
