import RepoAtlas.Analysis.Analyzer
import RepoAtlas.Proofs.Analysis.Selection
import RepoAtlas.Proofs.Graph.Resolution
import RepoAtlas.Proofs.Pipeline.Ending

/-!
A run in which only single files fail delivers, event by event, what can be
computed at once from the listing and from what is in each file.
-/
namespace RepoAtlas

/-- What there is to be found: the listed files, the text of each that can be
fetched, and the entity in each text that has one. -/
structure Holdings where
  listed : List FileRecord
  text? : String → Option String
  find? : String → String → Option Entity

namespace Holdings

/-- Whether an entity that is found in a file is one of that file. -/
def OwnFiles (w : Holdings) : Prop :=
  ∀ {path text e}, w.find? path text = some e → e.file = path

/-- The entity in the file at a path, as far as it can be had. -/
def entityIn (w : Holdings) (path : String) : Option Entity :=
  (w.text? path).bind (w.find? path)

/-- The entities in some files, in order. -/
def foundIn (w : Holdings) (files : List FileRecord) : List Entity :=
  files.filterMap fun file => w.entityIn file.path

/-- The events about some files, of which the first one has a number. -/
def fileEvents (w : Holdings) (total index : Nat) (files : List FileRecord) :
    List Event :=
  (files.zipIdx index).flatMap fun (file, i) =>
    .progress i total file.path :: ((w.entityIn file.path).map .component).toList

/-- The files that are looked into. -/
def chosen (w : Holdings) (s : AnalysisSettings) (allFiles : Bool) : List FileRecord :=
  selectCandidates s.maxFiles allFiles (AnalysisPlan.keptFiles w.listed)

/-- All events after the listing, computed at once. -/
def batch (w : Holdings) (s : AnalysisSettings) (allFiles : Bool) : List Event :=
  AnalysisPlan.foundStatus (w.chosen s allFiles).length ::
    w.fileEvents (w.chosen s allFiles).length 1 (w.chosen s allFiles) ++
    [.complete (resolve (w.foundIn (w.chosen s allFiles))) (w.chosen s allFiles).length
      (w.foundIn (w.chosen s allFiles)).length false]

theorem fileEvents_cons (w : Holdings) (total index : Nat) (file : FileRecord)
    (rest : List FileRecord) :
    w.fileEvents total index (file :: rest) =
      .progress index total file.path ::
        (((w.entityIn file.path).map .component).toList ++
          w.fileEvents total (index + 1) rest) := rfl

theorem foundIn_cons (w : Holdings) (file : FileRecord) (rest : List FileRecord) :
    w.foundIn (file :: rest) = (w.entityIn file.path).toList ++ w.foundIn rest := by
  cases h : w.entityIn file.path <;> simp [foundIn, h]

end Holdings

namespace Moment

/-- Whether an answer is one of a world with some holdings: nothing but the
fetching of a file or the look into it may fail, and the cache knows nothing. -/
def Fits (w : Holdings) : Moment → Prop
  | action (.lookup ..) answer => answer = .ok none
  | action (.choose _) answer => ∃ source, answer = .ok source
  | action .list answer => answer = .ok w.listed
  | action (.read path) answer =>
    match w.text? path with
    | some text => answer = .ok text
    | none => ∃ shown reason, answer = .error (.unreadableFile shown reason)
  | action (.examine path text) answer =>
    match w.find? path text with
    | some entity => answer = .ok (some entity)
    | none => answer = .ok none ∨ ∃ failure, answer = .error failure
  | action .openSource answer => answer = .ok ()
  | action .closeSource answer => answer = .ok ()
  | action (.pause _) answer => answer = .ok ()
  | action (.store ..) answer => answer = .ok ()
  | action (.report _) _ => True
  | event _ => True

end Moment

/-- Whether all answers in some moments fit. -/
def AllFit (w : Holdings) (moments : List Moment) : Prop :=
  ∀ moment ∈ moments, moment.Fits w

theorem allFit_cons {w : Holdings} {moment : Moment} {rest : List Moment} :
    AllFit w (moment :: rest) ↔ moment.Fits w ∧ AllFit w rest :=
  List.forall_mem_cons

theorem allFit_append {w : Holdings} {first last : List Moment} :
    AllFit w (first ++ last) ↔ AllFit w first ∧ AllFit w last :=
  List.forall_mem_append

/-- Where every answer of a world fits, so do those of every run in it. -/
theorem allFit_history {σ α : Type} {w : Holdings} {h : Handler σ}
    (hfits : ∀ action state, (Moment.action action (h.perform action state).1).Fits w)
    (s : Script α) (state : σ) : AllFit w (Script.history h s state) := by
  induction s generalizing state with
  | done value => exact fun _ hmem => absurd hmem List.not_mem_nil
  | emit event next ih => exact allFit_cons.mpr ⟨trivial, ih state⟩
  | act action next ih =>
      exact allFit_cons.mpr ⟨hfits action state, ih _ _⟩

namespace AnalysisPlan

variable {w : Holdings}

theorem Examined.fits {path content : String} {moments : List Moment}
    {result : Except Failure (Option (Option Entity))}
    (h : Examined path content moments result) (hfit : AllFit w moments) :
    ∃ found, result = .ok found ∧ found.join = w.find? path content ∧
      eventsOf moments = ((w.find? path content).map .component).toList := by
  cases h with
  | fails failure record answer =>
      have hanswer := (allFit_cons.mp hfit).1
      cases hfind : w.find? path content with
      | none => exact ⟨none, rfl, rfl, rfl⟩
      | some entity =>
          simp only [Moment.Fits, hfind] at hanswer
          cases hanswer
  | findsNothing =>
      have hanswer := (allFit_cons.mp hfit).1
      cases hfind : w.find? path content with
      | none => exact ⟨some none, rfl, rfl, rfl⟩
      | some entity =>
          simp only [Moment.Fits, hfind] at hanswer
          cases hanswer
  | finds entity record answer =>
      have hanswer := (allFit_cons.mp hfit).1
      cases hfind : w.find? path content with
      | none =>
          simp only [Moment.Fits, hfind] at hanswer
          rcases hanswer with heq | ⟨failure, heq⟩ <;> cases heq
      | some other =>
          simp only [Moment.Fits, hfind] at hanswer
          cases hanswer
          exact ⟨some (some entity), rfl, rfl, rfl⟩

theorem Visited.fits {path : String} {moments : List Moment}
    {result : Except Failure (Option (Option Entity))}
    (h : Visited path moments result) (hfit : AllFit w moments) :
    ∃ found, result = .ok found ∧ found.join = w.entityIn path ∧
      eventsOf moments = ((w.entityIn path).map .component).toList := by
  cases h with
  | unreadable shown reason record answer =>
      have hanswer := (allFit_cons.mp hfit).1
      cases htext : w.text? path with
      | none => exact ⟨none, rfl, by simp [Holdings.entityIn, htext],
          by simp [Holdings.entityIn, htext]⟩
      | some text =>
          simp only [Moment.Fits, htext] at hanswer
          cases hanswer
  | fails failure hfailure =>
      have hanswer := (allFit_cons.mp hfit).1
      cases htext : w.text? path with
      | none =>
          simp only [Moment.Fits, htext] at hanswer
          obtain ⟨shown, reason, heq⟩ := hanswer
          exact absurd (Except.error.inj heq) (hfailure shown reason)
      | some text =>
          simp only [Moment.Fits, htext] at hanswer
          cases hanswer
  | reads content hexamined =>
      obtain ⟨hanswer, hrest⟩ := allFit_cons.mp hfit
      cases htext : w.text? path with
      | none =>
          simp only [Moment.Fits, htext] at hanswer
          obtain ⟨shown, reason, heq⟩ := hanswer
          cases heq
      | some text =>
          simp only [Moment.Fits, htext] at hanswer
          obtain rfl : content = text := Except.ok.inj hanswer
          simpa [Holdings.entityIn, htext] using hexamined.fits hrest

theorem entities_withFirst (found : Option (Option Entity)) (t : Tally) :
    (t.withFirst found).entities = found.join.toList ++ t.entities := by
  rcases found with _ | _ | entity <;> rfl

theorem Walked.fits {s : AnalysisSettings} {total index : Nat}
    {files : List FileRecord} {moments : List Moment} {result : Except Failure Tally}
    (h : Walked s total index files moments result) (hfit : AllFit w moments) :
    ∃ tally, result = .ok tally ∧ tally.entities = w.foundIn files ∧
      eventsOf moments = w.fileEvents total index files := by
  induction h with
  | nil index => exact ⟨{}, rfl, rfl, rfl⟩
  | pauseFails file rest failure hpauses =>
      cases (allFit_cons.mp hfit).1
  | visitFails rest hvisited =>
      obtain ⟨_, hvisit⟩ := allFit_append.mp hfit
      obtain ⟨_, heq, _⟩ := hvisited.fits (allFit_cons.mp hvisit).2
      cases heq
  | cons hvisited hrest ih =>
      obtain ⟨_, hannounced⟩ := allFit_append.mp hfit
      obtain ⟨hvisit, hlater⟩ := allFit_append.mp (allFit_cons.mp hannounced).2
      obtain ⟨found, heq, hfound, hevents⟩ := hvisited.fits hvisit
      obtain ⟨tally, rfl, hentities, hrest⟩ := ih hlater
      obtain rfl := Except.ok.inj heq
      refine ⟨tally.withFirst _, rfl, ?_, ?_⟩
      · rw [entities_withFirst, hfound, hentities, Holdings.foundIn_cons]
      · rw [eventsOf_append, eventsOf_pauseAt, List.nil_append, eventsOf_event,
          eventsOf_append, hevents, hrest, Holdings.fileEvents_cons]

theorem Surveyed.fits {s : AnalysisSettings} {repository : Coordinates}
    {allFiles : Bool} {moments : List Moment} {result : Except Failure Survey}
    (h : Surveyed s repository allFiles moments result) (hfit : AllFit w moments) :
    ∃ found, result = .ok found ∧ found.total = (w.chosen s allFiles).length ∧
      found.tally.entities = w.foundIn (w.chosen s allFiles) ∧
      eventsOf moments =
        .files (keptFiles w.listed) repository ::
          foundStatus (w.chosen s allFiles).length ::
            w.fileEvents (w.chosen s allFiles).length 1 (w.chosen s allFiles) := by
  cases h with
  | listFails failure => cases (allFit_cons.mp hfit).1
  | lists listed hchosen hwalked =>
      obtain ⟨hanswer, hrest⟩ := allFit_cons.mp hfit
      obtain rfl : listed = w.listed := Except.ok.inj hanswer
      subst hchosen
      obtain ⟨tally, rfl, hentities, hevents⟩ :=
        hwalked.fits (allFit_cons.mp (allFit_cons.mp hrest).2).2
      refine ⟨_, rfl, rfl, hentities, ?_⟩
      rw [eventsOf_action, eventsOf_event, eventsOf_event, hevents]
      rfl

theorem completion_eq {found : Survey} {entities : List Entity} {total : Nat}
    (hentities : found.tally.entities = entities) (htotal : found.total = total) :
    completion found = .complete (resolve entities) total entities.length false := by
  rw [completion, hentities, htotal, length_resolve]

theorem Analyzed.fits {s : AnalysisSettings} {repository : Coordinates}
    {allFiles : Bool} {place : Option String} {moments : List Moment}
    {result : Except Failure Unit}
    (h : Analyzed s repository allFiles place moments result)
    (hfit : AllFit w moments) :
    result = .ok () ∧
      eventsOf moments =
        .files (keptFiles w.listed) repository :: w.batch s allFiles := by
  cases h with
  | openFails failure => cases (allFit_cons.mp hfit).1
  | surveyFails hsurveyed closing failure hfailure =>
      obtain ⟨hinner, hclosing⟩ := allFit_append.mp (allFit_cons.mp hfit).2
      obtain ⟨found, rfl, _⟩ := hsurveyed.fits hinner
      obtain rfl : closing = .ok () := (allFit_cons.mp hclosing).1
      cases hfailure
  | concludes hsurveyed hconcluded =>
      obtain ⟨hinner, hrest⟩ := allFit_append.mp (allFit_cons.mp hfit).2
      obtain ⟨found, heq, htotal, hentities, hevents⟩ := hsurveyed.fits hinner
      obtain rfl := Except.ok.inj heq
      have hafter := (allFit_cons.mp hrest).2
      cases hconcluded with
      | storeFails location hplace hreports failure =>
          cases (allFit_cons.mp (allFit_append.mp hafter).2).1
      | completes hreports record answer =>
          refine ⟨rfl, ?_⟩
          rw [List.cons_append, eventsOf_action, eventsOf_append, hevents,
            eventsOf_action, eventsOf_append, eventsOf_append, hreports.eventsOf,
            eventsOf_storedAt]
          simp [Holdings.batch, completion_eq hentities htotal]

theorem Asked.fits {plan : AnalysisPlan} {request : AnalysisRequest}
    {repository : Coordinates} {moments : List Moment}
    {result : Except Failure (Option CacheRecord)}
    (h : Asked plan request repository moments result) (hfit : AllFit w moments) :
    result = .ok none := by
  cases h with
  | skips => rfl
  | asks hcache answer => exact (allFit_cons.mp (allFit_cons.mp hfit).2).1

end AnalysisPlan

namespace Holdings

variable {w : Holdings}

theorem mem_foundIn {files : List FileRecord} {e : Entity} :
    e ∈ w.foundIn files ↔ ∃ file ∈ files, w.entityIn file.path = some e :=
  List.mem_filterMap

theorem component_mem_fileEvents {total index : Nat} {files : List FileRecord}
    {e : Entity} :
    .component e ∈ w.fileEvents total index files ↔ e ∈ w.foundIn files := by
  induction files generalizing index with
  | nil => simp [fileEvents, foundIn]
  | cons file rest ih =>
      rw [fileEvents_cons, foundIn_cons]
      cases w.entityIn file.path <;> simp [ih]

theorem complete_not_mem_fileEvents {total index : Nat} {files : List FileRecord}
    {entities : List Entity} {all analyzed : Int} {fromCache : Bool} :
    .complete entities all analyzed fromCache ∉ w.fileEvents total index files := by
  induction files generalizing index with
  | nil => simp [fileEvents]
  | cons file rest ih =>
      rw [fileEvents_cons]
      cases w.entityIn file.path <;> simp [ih]

/-- What is found in the files that are looked into is found in listed ones. -/
theorem blob_of_mem_foundIn {s : AnalysisSettings} {allFiles : Bool} {e : Entity}
    (hown : w.OwnFiles)
    (h : e ∈ w.foundIn (w.chosen s allFiles)) :
    ∃ file ∈ w.listed, file.type = .blob ∧ file.path = e.file := by
  obtain ⟨file, hfile, hentity⟩ := mem_foundIn.mp h
  obtain ⟨hkept, hselectable⟩ := mem_of_mem_selectCandidates hfile
  obtain ⟨text, _, hfind⟩ := Option.bind_eq_some_iff.mp hentity
  exact ⟨file, (List.mem_filter.mp hkept).1, type_of_isSelectable hselectable,
    (hown hfind).symm⟩

/-- Whether two holdings hold the same but for the entity at one path. -/
def AgreeApart (path : String) (w v : Holdings) : Prop :=
  w.listed = v.listed ∧ ∀ other, other ≠ path → w.entityIn other = v.entityIn other

end Holdings

/-- Whether an event delivers an entity that is in another file than that at a path. -/
def Event.isComponentApart (path : String) : Event → Bool
  | .component e => e.file != path
  | _ => false

/-- Whether an entity is among those that some events deliver. -/
def Delivered (events : List Event) (e : Entity) : Prop :=
  .component e ∈ events ∨
    ∃ entities total analyzed fromCache,
      Event.complete entities total analyzed fromCache ∈ events ∧ e ∈ entities

/-- What the events of an undisturbed run are: announcements, the listing of all
files that are not excluded, and then what is computed at once. -/
structure DeliversBatch (w : Holdings) (s : AnalysisSettings) (allFiles : Bool)
    (events : List Event) : Prop where
  stream : ∃ before repository,
    events = before ++ .files (AnalysisPlan.keptFiles w.listed) repository ::
      w.batch s allFiles ∧
    ∀ e ∈ before, ∃ message, e = .status message
  as_found : ∀ e, .component e ∈ events →
    ∃ text, w.text? e.file = some text ∧ w.find? e.file text = some e
  from_blobs : ∀ e, Delivered events e →
    ∃ file ∈ w.listed, file.type = .blob ∧ file.path = e.file

section Stream

variable {w : Holdings} {s : AnalysisSettings} {allFiles : Bool}
  {before : List Event} {repository : Coordinates}

theorem component_mem_stream (hbefore : ∀ e ∈ before, ∃ message, e = Event.status message)
    {e : Entity} :
    .component e ∈ before ++
      .files (AnalysisPlan.keptFiles w.listed) repository :: w.batch s allFiles ↔
    e ∈ w.foundIn (w.chosen s allFiles) := by
  have hnot : .component e ∉ before := fun hmem => by
    obtain ⟨message, heq⟩ := hbefore _ hmem
    cases heq
  simp [hnot, Holdings.batch, AnalysisPlan.foundStatus,
    Holdings.component_mem_fileEvents]

theorem complete_mem_stream (hbefore : ∀ e ∈ before, ∃ message, e = Event.status message)
    {entities : List Entity} {total analyzed : Int} {fromCache : Bool}
    (h : .complete entities total analyzed fromCache ∈ before ++
      .files (AnalysisPlan.keptFiles w.listed) repository :: w.batch s allFiles) :
    entities = resolve (w.foundIn (w.chosen s allFiles)) := by
  have hnot : .complete entities total analyzed fromCache ∉ before := fun hmem => by
    obtain ⟨message, heq⟩ := hbefore _ hmem
    cases heq
  simp only [List.mem_append, hnot, false_or, List.mem_cons, Holdings.batch,
    AnalysisPlan.foundStatus, reduceCtorEq, List.cons_append,
    Holdings.complete_not_mem_fileEvents, List.not_mem_nil, or_false,
    Event.complete.injEq] at h
  exact h.1

theorem deliversBatch_of_stream
    (hown : w.OwnFiles)
    (hbefore : ∀ e ∈ before, ∃ message, e = .status message) :
    DeliversBatch w s allFiles
      (before ++ .files (AnalysisPlan.keptFiles w.listed) repository ::
        w.batch s allFiles) where
  stream := ⟨before, repository, rfl, hbefore⟩
  as_found := by
    intro e hmem
    obtain ⟨file, _, hentity⟩ :=
      Holdings.mem_foundIn.mp ((component_mem_stream hbefore).mp hmem)
    obtain ⟨text, htext, hfind⟩ := Option.bind_eq_some_iff.mp hentity
    rw [hown hfind]
    exact ⟨text, htext, hfind⟩
  from_blobs := by
    rintro e (hmem | ⟨entities, total, analyzed, fromCache, hmem, he⟩)
    · exact Holdings.blob_of_mem_foundIn hown ((component_mem_stream hbefore).mp hmem)
    · obtain rfl := complete_mem_stream hbefore hmem
      obtain ⟨found, i, hget, rfl⟩ := mem_resolve.mp he
      exact Holdings.blob_of_mem_foundIn (e := found) hown (List.mem_of_getElem? hget)

end Stream

namespace Holdings

variable {w v : Holdings}

theorem filter_fileEvents_of_agreeApart {path : String}
    (hw : w.OwnFiles)
    (hv : v.OwnFiles)
    (hagree : AgreeApart path w v) (total index : Nat) (files : List FileRecord) :
    (w.fileEvents total index files).filter (Event.isComponentApart path) =
      (v.fileEvents total index files).filter (Event.isComponentApart path) := by
  -- Of the file at the path itself no event counts, whoever holds an entity in it.
  have hown : ∀ {u : Holdings} {e : Entity}, u.OwnFiles →
      u.entityIn path = some e → e.file = path := by
    intro u e hu hentity
    obtain ⟨text, _, hfind⟩ := Option.bind_eq_some_iff.mp hentity
    exact hu hfind
  have hnone : ∀ {u : Holdings}, u.OwnFiles →
      ((u.entityIn path).map Event.component).toList.filter
        (Event.isComponentApart path) = [] := by
    intro u hu
    cases hentity : u.entityIn path with
    | none => rfl
    | some e => simp [Event.isComponentApart, hown hu hentity]
  induction files generalizing index with
  | nil => rfl
  | cons file rest ih =>
      rw [fileEvents_cons, fileEvents_cons, List.filter_cons, List.filter_cons,
        List.filter_append, List.filter_append, ih]
      by_cases hpath : file.path = path
      · rw [hpath, hnone hw, hnone hv]
      · rw [hagree.2 _ hpath]

theorem filter_batch_of_agreeApart {path : String}
    (hw : w.OwnFiles)
    (hv : v.OwnFiles)
    (hagree : AgreeApart path w v) (s : AnalysisSettings) (allFiles : Bool) :
    (w.batch s allFiles).filter (Event.isComponentApart path) =
      (v.batch s allFiles).filter (Event.isComponentApart path) := by
  have hchosen : w.chosen s allFiles = v.chosen s allFiles := by
    rw [chosen, chosen, hagree.1]
  rw [batch, batch, List.filter_append, List.filter_append, List.filter_cons,
    List.filter_cons, hchosen, filter_fileEvents_of_agreeApart hw hv hagree]
  rfl

end Holdings

/-- A file that fails in one run and not in another changes nothing in what is
delivered of the other files. -/
theorem DeliversBatch.components_apart {w v : Holdings} {path : String}
    (hw : w.OwnFiles)
    (hv : v.OwnFiles)
    (hagree : Holdings.AgreeApart path w v) {s : AnalysisSettings} {allFiles : Bool}
    {events others : List Event} (hevents : DeliversBatch w s allFiles events)
    (hothers : DeliversBatch v s allFiles others) :
    events.filter (Event.isComponentApart path) =
      others.filter (Event.isComponentApart path) := by
  have hstatuses : ∀ {before : List Event}, (∀ e ∈ before, ∃ message, e = .status message) →
      before.filter (Event.isComponentApart path) = [] := by
    intro before hbefore
    refine List.filter_eq_nil_iff.mpr fun e he => ?_
    obtain ⟨message, rfl⟩ := hbefore e he
    simp [Event.isComponentApart]
  obtain ⟨before, repository, rfl, hbefore⟩ := hevents.stream
  obtain ⟨before', repository', rfl, hbefore'⟩ := hothers.stream
  rw [List.filter_append, List.filter_append, hstatuses hbefore, hstatuses hbefore',
    List.filter_cons, List.filter_cons, Holdings.filter_batch_of_agreeApart hw hv hagree]
  rfl

/-- The entity in a file is one of that file, and has no users yet. -/
theorem file_of_ofFile {path text : String} {e : Entity}
    (h : (Entity.ofFile path text).value = some e) : e.file = path ∧ e.usedBy = [] := by
  unfold Entity.ofFile at h
  generalize ModuleFacts.read path text = read at h
  obtain ⟨facts, records⟩ := read
  split at h
  · cases facts with
    | none => cases h
    | some facts =>
        obtain rfl := Option.some.inj h
        exact ⟨rfl, rfl⟩
  · cases h

namespace AnalysisPlan

variable {w : Holdings}

theorem Ran.fits {plan : AnalysisPlan} {request : AnalysisRequest}
    {moments : List Moment} {result : Except Failure Unit}
    (h : Ran plan request moments result) (hfit : AllFit w moments)
    {repository : Coordinates}
    (hlocation : Coordinates.ofLocation request.location request.branch = .ok repository)
    {mode : Mode} (hmode : modeOf plan.settings request = .ok mode) :
    result = .ok () ∧ ∃ before source, (∀ e ∈ before, ∃ message, e = .status message) ∧
      eventsOf moments = before ++ .files (keptFiles w.listed) source ::
        w.batch plan.settings request.allFiles := by
  cases h with
  | badLocation failure hbad => cases hlocation.symm.trans hbad
  | badMode failure hbad => cases hmode.symm.trans hbad
  | lookupFails _ hasked => cases hasked.fits hfit
  | replays _ hasked => cases hasked.fits (allFit_append.mp hfit).1
  | chooseFails _ _ hasked record answer failure =>
      have hchoose := (allFit_append.mp hfit).2
      obtain ⟨source, heq⟩ :=
        (allFit_cons.mp (allFit_cons.mp (allFit_cons.mp hchoose).2).2).1
      cases heq
  | analyzes _ _ hasked record answer source hanalyzed =>
      obtain ⟨hbefore, hmoments⟩ := allFit_append.mp hfit
      obtain ⟨rfl, hevents⟩ := hanalyzed.fits hmoments
      refine ⟨rfl, _, source.repository, ?_, by rw [eventsOf_append, hevents]⟩
      cases hasked <;> simp [fetching]

theorem Scanned.fits {plan : AnalysisPlan} {source : SourceInfo} {allFiles : Bool}
    {moments : List Moment} {result : Except Failure Unit}
    (h : Scanned plan source allFiles moments result) (hfit : AllFit w moments) :
    result = .ok () ∧ eventsOf moments =
      .status ("Scanning " ++ source.root ++ "...") ::
        .files (keptFiles w.listed) source.repository ::
          w.batch plan.settings allFiles := by
  obtain ⟨hanalyzed⟩ := h
  obtain ⟨rfl, hevents⟩ := hanalyzed.fits (allFit_cons.mp hfit).2
  exact ⟨rfl, by rw [eventsOf_event, hevents]⟩

theorem analyze_deliversBatch {σ : Type} {h : Handler σ} {state : σ}
    {plan : AnalysisPlan} (hown : w.OwnFiles) {request : AnalysisRequest}
    {repository : Coordinates}
    (hlocation : Coordinates.ofLocation request.location request.branch = .ok repository)
    {mode : Mode} (hmode : modeOf plan.settings request = .ok mode)
    (hfit : AllFit w (Script.history h (plan.analyze request) state)) :
    DeliversBatch w plan.settings request.allFiles
      (Script.drain h (plan.analyze request) state).events := by
  obtain ⟨_, hcourse⟩ := Script.course_history h (plan.analyze request) state
  rw [Script.drain_events]
  have hfinished := finished_of_analyze hcourse
  generalize Script.history h (plan.analyze request) state = moments at *
  cases hfinished with
  | succeeds hran =>
      obtain ⟨_, before, source, hbefore, hevents⟩ := hran.fits hfit hlocation hmode
      rw [hevents]
      exact deliversBatch_of_stream hown hbefore
  | fails hran record answer =>
      obtain ⟨heq, _⟩ := hran.fits (allFit_append.mp hfit).1 hlocation hmode
      cases heq

theorem analyzeFolder_deliversBatch {σ : Type} {h : Handler σ} {state : σ}
    {plan : AnalysisPlan} (hown : w.OwnFiles) {path : String} {allFiles : Bool}
    (hfit : AllFit w (Script.history h (plan.analyzeFolder path allFiles) state)) :
    DeliversBatch w plan.settings allFiles
      (Script.drain h (plan.analyzeFolder path allFiles) state).events := by
  obtain ⟨_, hcourse⟩ :=
    Script.course_history h (plan.analyzeFolder path allFiles) state
  rw [Script.drain_events]
  have hran := folderRan_of_course hcourse
  generalize Script.history h (plan.analyzeFolder path allFiles) state = moments at *
  cases hran with
  | chooseFails failure record answer =>
      obtain ⟨source, heq⟩ := (allFit_cons.mp hfit).1
      cases heq
  | chooses source hfinished =>
      have hrest := (allFit_cons.mp hfit).2
      cases hfinished with
      | succeeds hscanned =>
          obtain ⟨_, hevents⟩ := hscanned.fits hrest
          rw [eventsOf_action, hevents]
          have hbefore : ∀ e ∈ [Event.status ("Scanning " ++ source.root ++ "...")],
              ∃ message, e = .status message :=
            fun e he => ⟨_, List.mem_singleton.mp he⟩
          exact deliversBatch_of_stream hown hbefore
      | fails hscanned record answer =>
          obtain ⟨heq, _⟩ := hscanned.fits (allFit_append.mp hrest).1
          cases heq

end AnalysisPlan

/-- A run in which nothing fails but the fetching of single files and the look
into them, and in which the cache knows nothing, delivers the batch: the number
of files, each file with the entity in it, and all of these resolved. So do
analyses of folders. Whatever comes of one file, the others are delivered alike. -/
theorem undisturbed_runs_deliver_batch {σ : Type} (h : Handler σ) (state : σ)
    (plan : AnalysisPlan) (w : Holdings) (hown : w.OwnFiles) :
    (∀ request repository mode,
      Coordinates.ofLocation request.location request.branch = .ok repository →
      AnalysisPlan.modeOf plan.settings request = .ok mode →
      AllFit w (Script.history h (plan.analyze request) state) →
      DeliversBatch w plan.settings request.allFiles
        (Script.drain h (plan.analyze request) state).events) ∧
    (∀ path allFiles,
      AllFit w (Script.history h (plan.analyzeFolder path allFiles) state) →
      DeliversBatch w plan.settings allFiles
        (Script.drain h (plan.analyzeFolder path allFiles) state).events) ∧
    (∀ path v, v.OwnFiles → Holdings.AgreeApart path w v →
      ∀ s allFiles events others,
        DeliversBatch w s allFiles events → DeliversBatch v s allFiles others →
        events.filter (Event.isComponentApart path) =
          others.filter (Event.isComponentApart path)) ∧
    ∀ path text e, (Entity.ofFile path text).value = some e →
      e.file = path ∧ e.usedBy = [] := by
  refine ⟨?_, ?_, ?_, ?_⟩
  · intro request repository mode hlocation hmode hfit
    exact AnalysisPlan.analyze_deliversBatch hown hlocation hmode hfit
  · intro path allFiles hfit
    exact AnalysisPlan.analyzeFolder_deliversBatch hown hfit
  · intro path v hv hagree s allFiles events others hevents hothers
    exact hevents.components_apart hown hv hagree hothers
  · intro path text e hfind
    exact file_of_ofFile hfind

namespace SampleWorld

/-- Three files and a folder: one file cannot be fetched, and one holds an entity. -/
def holdings : Holdings where
  listed := [⟨"src/Gone.tsx", .blob, ""⟩, ⟨"src", .tree, ""⟩, ⟨"src/Card.tsx", .blob, ""⟩,
    ⟨"src/Bad.tsx", .blob, ""⟩, ⟨"dist/Card.tsx", .blob, ""⟩]
  text? path := if path = "src/Gone.tsx" then none else some "export"
  find? path text := if path = "src/Card.tsx" then
      some { name := "Card", role := .component, file := path, uses := ["Bad"], content := text }
    else none

/-- The same, but there is an entity in the file that has none above. -/
def mended : Holdings :=
  { holdings with
    find? := fun path text => if path = "src/Bad.tsx" then
        some { name := "Bad", role := .component, file := path, content := text }
      else holdings.find? path text }

/-- A look that finds nothing fails. -/
def answer (w : Holdings) : (action : Action) → Answer action
  | .lookup .. => .ok none
  | .choose _ => .ok ⟨⟨"acme", "widgets", "main"⟩, ""⟩
  | .list => .ok w.listed
  | .read path =>
    match w.text? path with
    | some text => .ok text
    | none => .error (.unreadableFile path "gone")
  | .examine path text =>
    match w.find? path text with
    | some e => .ok (some e)
    | none => .error (.generic "no tree")
  | .openSource | .closeSource | .pause _ | .store .. | .report _ => .ok ()

def handler (w : Holdings) : Handler Unit where
  perform action state := (answer w action, state)

theorem fits (w : Holdings) (action : Action) (state : Unit) :
    (Moment.action action ((handler w).perform action state).1).Fits w := by
  cases action with
  | read path =>
      simp only [handler, answer, Moment.Fits]
      cases w.text? path with
      | none => exact ⟨path, "gone", rfl⟩
      | some text => rfl
  | examine path text =>
      simp only [handler, answer, Moment.Fits]
      cases w.find? path text with
      | none => exact Or.inr ⟨_, rfl⟩
      | some e => rfl
  | choose origin => exact ⟨_, rfl⟩
  | report record => trivial
  | _ => rfl

theorem holdings_ownFiles : holdings.OwnFiles := by
  intro path text e hfind
  simp only [holdings] at hfind
  split at hfind
  · obtain rfl := Option.some.inj hfind
    rfl
  · cases hfind

theorem mended_ownFiles : mended.OwnFiles := by
  intro path text e hfind
  simp only [mended] at hfind
  split at hfind
  · obtain rfl := Option.some.inj hfind
    rfl
  · exact holdings_ownFiles hfind

theorem agreeApart : Holdings.AgreeApart "src/Bad.tsx" holdings mended := by
  refine ⟨rfl, fun other hother => ?_⟩
  simp [Holdings.entityIn, mended, hother]

end SampleWorld

open SampleWorld in
/-- A request and the analysis of a folder in the sample world, and the same
request after the bad file has been mended. -/
theorem undisturbed_runs_deliver_batch_sample :
    let plan : AnalysisPlan := {}
    let request : AnalysisRequest := { location := "acme/widgets" }
    let events := (Script.drain (handler holdings) (plan.analyze request) ()).events
    let others := (Script.drain (handler mended) (plan.analyze request) ()).events
    holdings.OwnFiles ∧ mended.OwnFiles ∧
      Coordinates.ofLocation request.location request.branch =
        .ok ⟨"acme", "widgets", "main"⟩ ∧
      AnalysisPlan.modeOf plan.settings request = .ok .remote ∧
      AllFit holdings (Script.history (handler holdings) (plan.analyze request) ()) ∧
      AllFit holdings (Script.history (handler holdings) (plan.analyzeFolder "repo" true) ()) ∧
      DeliversBatch holdings plan.settings false events ∧
      DeliversBatch holdings plan.settings true
        (Script.drain (handler holdings) (plan.analyzeFolder "repo" true) ()).events ∧
      Holdings.AgreeApart "src/Bad.tsx" holdings mended ∧
      DeliversBatch mended plan.settings false others ∧
      events.filter (Event.isComponentApart "src/Bad.tsx") =
        others.filter (Event.isComponentApart "src/Bad.tsx") := by
  intro plan request events others
  have hlocation : Coordinates.ofLocation request.location request.branch =
      .ok ⟨"acme", "widgets", "main"⟩ := by decide +kernel
  have hmode : AnalysisPlan.modeOf plan.settings request = .ok .remote := by decide
  have hhosted := allFit_history (fits holdings) (plan.analyze request) ()
  have hfolder := allFit_history (fits holdings) (plan.analyzeFolder "repo" true) ()
  have hmended := allFit_history (fits mended) (plan.analyze request) ()
  obtain ⟨hanalyze, hanalyzeFolder, hapart, _⟩ :=
    undisturbed_runs_deliver_batch (handler holdings) () plan holdings holdings_ownFiles
  obtain ⟨hanalyzeMended, _⟩ :=
    undisturbed_runs_deliver_batch (handler mended) () plan mended mended_ownFiles
  have hevents := hanalyze request _ _ hlocation hmode hhosted
  have hothers := hanalyzeMended request _ _ hlocation hmode hmended
  exact ⟨holdings_ownFiles, mended_ownFiles, hlocation, hmode, hhosted, hfolder, hevents,
    hanalyzeFolder "repo" true hfolder, agreeApart, hothers,
    hapart _ _ mended_ownFiles agreeApart _ _ _ _ hevents hothers⟩

end RepoAtlas
