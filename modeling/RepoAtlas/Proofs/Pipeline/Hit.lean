import RepoAtlas.Proofs.Pipeline.Completion

/-!
Hits of the cache: a request that finds the record of an earlier run is answered with
what a run of its own would have found.
-/
namespace RepoAtlas

/-- Whether some events announce a run, list its files, and end with all that it finds. -/
def Delivers (found : Findings) (repository : Coordinates) (fromCache : Bool)
    (events : List Event) : Prop :=
  ∃ before middle, (∀ e ∈ before, ∃ message, e = .status message) ∧
    events = before ++ .files found.files repository :: middle ++
      [.complete found.entities found.total found.entities.length fromCache]

namespace AnalysisPlan

open Script

/-- What a run of a request begins with, if its location and mode are known. -/
theorem Ran.asked {plan : AnalysisPlan} {request : AnalysisRequest} {moments : List Moment}
    {result : Except Failure Unit} (h : Ran plan request moments result)
    {repository : Coordinates}
    (hlocation : Coordinates.ofLocation request.location request.branch = .ok repository)
    {mode : Mode} (hmode : modeOf plan.settings request = .ok mode) :
    ∃ asked answer rest, moments = asked ++ rest ∧ Asked plan request repository asked answer ∧
      ∀ record, answer = .ok (some record) → result = .ok () ∧
        rest = (replayEvents plan.settings record request.allFiles).map .event := by
  cases h with
  | badLocation failure hbad => cases hlocation.symm.trans hbad
  | badMode failure hbad => cases hmode.symm.trans hbad
  | lookupFails hlocation' hasked =>
      obtain rfl := Except.ok.inj (hlocation.symm.trans hlocation')
      exact ⟨_, _, [], (List.append_nil _).symm, hasked, fun _ heq => by cases heq⟩
  | replays hlocation' hasked =>
      obtain rfl := Except.ok.inj (hlocation.symm.trans hlocation')
      refine ⟨_, _, _, rfl, hasked, fun record heq => ?_⟩
      obtain rfl := Option.some.inj (Except.ok.inj heq)
      exact ⟨rfl, rfl⟩
  | chooseFails hlocation' hmode' hasked =>
      obtain rfl := Except.ok.inj (hlocation.symm.trans hlocation')
      exact ⟨_, _, _, rfl, hasked, fun _ heq => by cases heq⟩
  | analyzes hlocation' hmode' hasked =>
      obtain rfl := Except.ok.inj (hlocation.symm.trans hlocation')
      exact ⟨_, _, _, List.append_assoc _ _ _, hasked, fun _ heq => by cases heq⟩

/-- A request that finds a record does nothing but ask for it and hand it out. -/
theorem history_of_found {σ : Type} {h : Handler σ} {state : σ} {plan : AnalysisPlan}
    {request : AnalysisRequest} {repository : Coordinates}
    (hlocation : Coordinates.ofLocation request.location request.branch = .ok repository)
    {mode : Mode} (hmode : modeOf plan.settings request = .ok mode)
    (hcache : (request.useCache && plan.cached) = true) {record : CacheRecord}
    (hfound : (h.perform (.lookup (cacheLocation repository) repository.branch) state).1 =
      .ok (some record)) :
    history h (plan.analyze request) state =
      .event (.status "Checking cache...") ::
        .action (.lookup (cacheLocation repository) repository.branch) (.ok (some record)) ::
          (replayEvents plan.settings record request.allFiles).map .event := by
  obtain ⟨_, hcourse⟩ := course_history h (plan.analyze request) state
  have hanswer {last : List Moment} {answer : Except Failure (Option CacheRecord)}
      (heq : history h (plan.analyze request) state = [.event (.status "Checking cache...")] ++
        .action (.lookup (cacheLocation repository) repository.branch) answer :: last) :
      answer = .ok (some record) := by
    have hperformed := answer_of_history heq
    exact hperformed.trans hfound
  have hfinished := finished_of_analyze hcourse
  generalize history h (plan.analyze request) state = moments at hanswer hfinished ⊢
  have hbegins {first : List Moment} {result : Except Failure Unit}
      (hran : Ran plan request first result) {last : List Moment} (heq : moments = first ++ last) :
      result = .ok () ∧ first = .event (.status "Checking cache...") ::
        .action (.lookup (cacheLocation repository) repository.branch) (.ok (some record)) ::
          (replayEvents plan.settings record request.allFiles).map .event := by
    obtain ⟨asked, answer, rest, rfl, hasked, hrest⟩ := hran.asked hlocation hmode
    cases hasked with
    | skips hskips => cases hskips.symm.trans hcache
    | asks =>
        obtain rfl := hanswer heq
        obtain ⟨rfl, rfl⟩ := hrest record rfl
        exact ⟨rfl, rfl⟩
  cases hfinished with
  | succeeds hran => exact (hbegins hran (List.append_nil _).symm).2
  | fails hran record answer => cases (hbegins hran rfl).1

end AnalysisPlan

/--
Two requests for one repository, the second of which finds the cache as the first has
left it. The first one has been completed by a run of its own, in a source that shows
some holdings.
-/
structure Revisit {σ τ : Type} (plan : AnalysisPlan) (w : Holdings) (repository : Coordinates)
    (laws : WorldLaws σ) (world : World σ) (first : AnalysisRequest)
    (later : WorldLaws τ) (again : World τ) (second : AnalysisRequest) : Prop where
  cached : plan.cached = true
  digest : laws.cache.digest = Sha256.hexDigest
  examine : ∀ path text, laws.examine path text = .ok <$> Entity.ofFile path text
  modules : w.OfModules
  typed : ∀ file ∈ w.listed, file.Typed
  clock : laws.context.now.Valid
  location : Coordinates.ofLocation first.location first.branch = .ok repository
  shows : ∀ moment ∈ Script.history laws.handler (plan.analyze first) world,
    moment.Shows w repository
  completed : ∃ e ∈ (Script.drain laws.handler (plan.analyze first) world).events,
    e.isOwnResult = true
  same_cache : later.cache = laws.cache
  untouched : again.folder = (Script.drain laws.handler (plan.analyze first) world).state.folder
  same_location : Coordinates.ofLocation second.location second.branch = .ok repository
  mode : ∃ mode, AnalysisPlan.modeOf plan.settings second = .ok mode
  asks : second.useCache = true
  choice : first.allFiles = second.allFiles ∨ Unlimited plan.settings.maxFiles

/-- What becomes of a request that is answered from the cache, and nothing else. -/
structure Replays {σ : Type} (plan : AnalysisPlan) (found : Findings) (repository : Coordinates)
    (laws : WorldLaws σ) (world : World σ) (request : AnalysisRequest) : Prop where
  /-- No source is chosen or opened, and nothing is stored: the cache is asked. -/
  only_asks : ∀ moment ∈ Script.history laws.handler (plan.analyze request) world,
    ∀ action answer, moment = .action action answer →
      action = .lookup (AnalysisPlan.cacheLocation repository) repository.branch
  unchanged : ∃ records, (Script.drain laws.handler (plan.analyze request) world).state =
    { world with records }
  events : (Script.drain laws.handler (plan.analyze request) world).events =
    [.status "Checking cache...", .status "Loaded analysis from cache",
        .files found.files repository] ++ found.entities.map .component ++
      [.complete found.entities found.total found.entities.length true]

open AnalysisPlan Script in
/-- A request that does nothing but ask the cache has found a record. -/
theorem Replays.finds {σ : Type} {plan : AnalysisPlan} {found : Findings}
    {repository : Coordinates} {laws : WorldLaws σ} {world : World σ} {request : AnalysisRequest}
    (h : Replays plan found repository laws world request) :
    ∃ record, (laws.cache.get laws.context.now (cacheLocation repository) repository.branch
      world.folder).result = .ok (some record) := by
  have hasks := h.only_asks
  obtain ⟨_, hcourse⟩ := course_history laws.handler (plan.analyze request) world
  have hanswer : ∀ first action (answer : Answer action) last,
      history laws.handler (plan.analyze request) world =
        first ++ .action action answer :: last →
      answer = (laws.perform action (stateAfter laws.handler world first)).1 :=
    fun _ _ _ _ heq => answer_of_history heq
  have hfinished := finished_of_analyze hcourse
  generalize history laws.handler (plan.analyze request) world = moments at *
  cases hfinished with
  | fails hran record answer =>
      cases hasks _ (List.mem_append_right _ List.mem_cons_self) _ _ rfl
  | succeeds hran =>
      cases hran with
      | analyzes hlocation hmode hasked record answer source hanalyzed =>
          next there mode asked moments =>
          cases hasks (.action (.choose (.hosted there mode)) (.ok source)) (by simp [fetching]) _ _
            rfl
      | replays hlocation hasked =>
          next there asked record =>
          cases hasked with
          | asks =>
              obtain ⟨hplace, hbranch⟩ := Action.lookup.inj (hasks
                (.action (.lookup (cacheLocation there) there.branch) (.ok (some record)))
                (by simp) _ _ rfl)
              have hfound := hanswer [.event (.status "Checking cache...")] _ _ _ rfl
              simp only [stateAfter, WorldLaws.perform, World.withStep, hplace, hbranch] at hfound
              generalize (laws.cache.get _ _ _ _).result = result at hfound
              cases result with
              | error failure => cases hfound
              | ok value => exact ⟨record, congrArg Except.ok (Except.ok.inj hfound).symm⟩

namespace Revisit

variable {σ τ : Type} {plan : AnalysisPlan} {w : Holdings} {repository : Coordinates}
  {laws : WorldLaws σ} {world : World σ} {first : AnalysisRequest}
  {later : WorldLaws τ} {again : World τ} {second : AnalysisRequest}

/-- The record of what the first run finds. -/
def IsRecord (plan : AnalysisPlan) (w : Holdings) (repository : Coordinates)
    (laws : WorldLaws σ) (first : AnalysisRequest) (record : CacheRecord) : Prop :=
  laws.cache.newRecord laws.context.now (AnalysisPlan.cacheLocation repository)
    repository.branch (w.findings plan.settings first.allFiles).entities
    (w.findings plan.settings first.allFiles).files repository = .ok record

theorem IsRecord.put_eq {record : CacheRecord} (h : IsRecord plan w repository laws first record)
    (folder : CacheFolder) :
    laws.cache.put laws.context (AnalysisPlan.cacheLocation repository) repository.branch
        (w.findings plan.settings first.allFiles).entities
        (w.findings plan.settings first.allFiles).files repository folder =
      laws.cache.putRecord laws.context record folder := by
  rw [RepoCache.put, h]

/-- The second request finds the folder as storing the record has left it. -/
theorem folder_eq (h : Revisit plan w repository laws world first later again second)
    {record : CacheRecord} (hrecord : IsRecord plan w repository laws first record) :
    let stored := laws.cache.putRecord laws.context record
      (laws.askedFolder first repository world.folder)
    stored.result = .ok () ∧ again.folder = stored.folder := by
  obtain ⟨hstored, hfolder⟩ := AnalysisPlan.folder_of_completed h.cached h.examine h.modules
    h.location h.shows h.completed
  rw [hrecord.put_eq] at hstored hfolder
  exact ⟨hstored, h.untouched.trans hfolder⟩

section Found

variable {record : CacheRecord} {written : Entries}

/-- The second request finds the record, and the cache is as it was. -/
theorem get_eq (h : Revisit plan w repository laws world first later again second)
    (hrecord : IsRecord plan w repository laws first record)
    (hwrites : laws.cache.Writes laws.context record
      (laws.askedFolder first repository world.folder) written)
    (hfits : laws.cache.FitsAmong laws.context.now record.key written)
    (hlives : laws.context.now.lt record.expiresAt = true)
    (hunexpired : later.context.now.lt record.expiresAt = true) :
    ∃ reports, later.cache.get later.context.now (AnalysisPlan.cacheLocation repository)
      repository.branch again.folder = ⟨again.folder, .ok (some record), reports⟩ := by
  obtain ⟨hkey, hfaithful⟩ := RepoCache.newRecord_spec hrecord h.clock
    (h.modules.described plan.settings first.allFiles) fun file hmem =>
      h.typed file (List.mem_of_mem_filter hmem)
  obtain ⟨-, hversion, -⟩ := RepoCache.newRecord_eq_ok hrecord h.clock
  obtain ⟨hstored, hfolder⟩ := h.folder_eq hrecord
  have hrecordKey : IsRecordKey record.key := by
    rw [hkey, RepoCache.key, h.digest]
    exact isRecordKey_hexDigest _
  have hread := RepoCache.read_of_putRecord hrecordKey hfaithful.toTimed hversion hlives hwrites
    hfits hstored
  rw [← hfolder] at hread
  rw [← h.same_cache] at hkey hversion
  exact ⟨_, RepoCache.get_of_read_record hkey hfaithful hversion hunexpired hread⟩

theorem replays (h : Revisit plan w repository laws world first later again second)
    (hrecord : IsRecord plan w repository laws first record) {reports : List LogRecord}
    (hget : later.cache.get later.context.now (AnalysisPlan.cacheLocation repository)
      repository.branch again.folder = ⟨again.folder, .ok (some record), reports⟩) :
    Replays plan (w.findings plan.settings second.allFiles) repository later again second := by
  obtain ⟨mode, hmode⟩ := h.mode
  obtain ⟨-, -, -, hentities, hfiles, hrepository⟩ := RepoCache.newRecord_eq_ok hrecord h.clock
  have hlookup : later.handler.perform (.lookup (AnalysisPlan.cacheLocation repository)
      repository.branch) again =
        (.ok (some record), { again with records := again.records ++ reports }) := by
    simp only [WorldLaws.handler, WorldLaws.perform, World.withStep, hget]
    rfl
  have hhistory := AnalysisPlan.history_of_found h.same_location hmode
    (by simp [h.asks, h.cached]) (congrArg Prod.fst hlookup)
  refine ⟨?_, ?_, ?_⟩
  · rintro moment hmem action answer rfl
    rw [hhistory] at hmem
    simp only [List.mem_cons, reduceCtorEq, List.mem_map, and_false, exists_false, or_false,
      false_or, Moment.action.injEq] at hmem
    exact hmem.1
  · refine ⟨again.records ++ reports, ?_⟩
    rw [Script.drain_state, hhistory]
    exact (Script.stateAfter_events _ _).trans (congrArg Prod.snd hlookup)
  · rw [Script.drain_events, hhistory, eventsOf_event, eventsOf_action,
      AnalysisPlan.eventsOf_map_event, AnalysisPlan.replayEvents, hentities, hfiles, hrepository,
      h.modules.entities_eq h.choice]
    rfl

end Found

end Revisit

namespace Holdings

variable {w : Holdings}

theorem files_not_mem_fileEvents {total index : Nat} {files listed : List FileRecord}
    {repository : Coordinates} : .files listed repository ∉ w.fileEvents total index files := by
  induction files generalizing index with
  | nil => simp [fileEvents]
  | cons file rest ih =>
      rw [fileEvents_cons]
      cases w.entityIn file.path <;> simp [ih]

/-- A batch ends with what is found. -/
theorem batch_ends (w : Holdings) (s : AnalysisSettings) (allFiles : Bool) :
    ∃ middle, w.batch s allFiles = middle ++
      [.complete (w.findings s allFiles).entities (w.findings s allFiles).total
        (w.findings s allFiles).entities.length false] := by
  have hlength : (w.findings s allFiles).entities.length =
      (w.foundIn (w.chosen s allFiles)).length := length_resolve _
  exact ⟨_, by rw [hlength]; rfl⟩

theorem files_not_mem_batch {s : AnalysisSettings} {allFiles : Bool} {listed : List FileRecord}
    {repository : Coordinates} : .files listed repository ∉ w.batch s allFiles := by
  simp [batch, AnalysisPlan.foundStatus, files_not_mem_fileEvents]

end Holdings

namespace AnalysisPlan

open Script

variable {w : Holdings}

/-- Which files there are is shown with the repository that they are in. -/
theorem Surveyed.files_mem {s : AnalysisSettings} {repository : Coordinates} {allFiles : Bool}
    {moments : List Moment} {result : Except Failure Survey}
    (h : Surveyed s repository allFiles moments result) (hfit : AllFit w moments) :
    .event (.files (keptFiles w.listed) repository) ∈ moments := by
  cases h with
  | listFails failure => cases (allFit_cons.mp hfit).1
  | lists listed hchosen hwalked =>
      obtain rfl : listed = w.listed := Except.ok.inj (allFit_cons.mp hfit).1
      simp

theorem Ran.files_mem {plan : AnalysisPlan} {request : AnalysisRequest} {moments : List Moment}
    (h : Ran plan request moments (.ok ())) (hfit : AllFit w moments) {repository : Coordinates}
    (hlocation : Coordinates.ofLocation request.location request.branch = .ok repository)
    (hshows : ∀ moment ∈ moments, moment.Shows w repository) :
    .event (.files (keptFiles w.listed) repository) ∈ moments := by
  cases h with
  | replays _ hasked => cases hasked.fits (allFit_append.mp hfit).1
  | analyzes hlocation' hmode hasked record answer source hanalyzed =>
      next mode asked inner =>
      obtain rfl := Except.ok.inj (hlocation.symm.trans hlocation')
      obtain rfl : source.repository = repository :=
        hshows (.action (.choose (.hosted repository mode)) (.ok source)) (by simp [fetching])
          source rfl
      have hsource := (allFit_append.mp hfit).2
      cases hanalyzed with
      | concludes hsurveyed hconcluded =>
          have hinner := (allFit_append.mp (allFit_cons.mp hsource).2).1
          simp [hsurveyed.files_mem hinner]

/-- A run of its own, in a source that shows some holdings, delivers what is found in them. -/
theorem fresh_delivers {σ : Type} {h : Handler σ} {state : σ} {plan : AnalysisPlan}
    {request : AnalysisRequest} {repository : Coordinates}
    (hlocation : Coordinates.ofLocation request.location request.branch = .ok repository)
    {mode : Mode} (hmode : modeOf plan.settings request = .ok mode)
    (hfits : AllFit w (history h (plan.analyze request) state))
    (hshows : ∀ moment ∈ history h (plan.analyze request) state, moment.Shows w repository) :
    Delivers (w.findings plan.settings request.allFiles) repository false
      (drain h (plan.analyze request) state).events := by
  obtain ⟨_, hcourse⟩ := course_history h (plan.analyze request) state
  have hfinished := finished_of_analyze hcourse
  rw [drain_events]
  generalize history h (plan.analyze request) state = moments at *
  cases hfinished with
  | fails hran record answer =>
      cases (hran.fits (allFit_append.mp hfits).1 hlocation hmode).1
  | succeeds hran =>
      obtain ⟨-, before, shown, hbefore, hevents⟩ := hran.fits hfits hlocation hmode
      have hfiles : .files (keptFiles w.listed) repository ∈ eventsOf moments :=
        List.mem_filterMap.mpr ⟨_, hran.files_mem hfits hlocation hshows, rfl⟩
      have hnot : .files (keptFiles w.listed) repository ∉ before := by
        intro hmem
        obtain ⟨message, heq⟩ := hbefore _ hmem
        cases heq
      obtain rfl : repository = shown := by
        simpa [hevents, hnot, Holdings.files_not_mem_batch] using hfiles
      obtain ⟨middle, hbatch⟩ := w.batch_ends plan.settings request.allFiles
      refine ⟨before, middle, hbefore, ?_⟩
      rw [hevents, hbatch, List.append_assoc, List.cons_append]
      rfl

end AnalysisPlan

/--
A request that finds what an earlier run for its repository has stored opens no
source, stores nothing, and hands out just what a run of its own would deliver. For
that the record must have been written, and it must fit under the ceiling together
with the records that would go after it.
-/
theorem hits_deliver_fresh_findings {σ τ : Type} {plan : AnalysisPlan} {w : Holdings}
    {repository : Coordinates} {laws : WorldLaws σ} {world : World σ} {first : AnalysisRequest}
    {later : WorldLaws τ} {again : World τ} {second : AnalysisRequest}
    (h : Revisit plan w repository laws world first later again second)
    {record : CacheRecord} (hrecord : Revisit.IsRecord plan w repository laws first record)
    {written : Entries} (hwrites : laws.cache.Writes laws.context record
      (laws.askedFolder first repository world.folder) written)
    (hfits : laws.cache.FitsAmong laws.context.now record.key written)
    (hlives : laws.context.now.lt record.expiresAt = true)
    (hunexpired : later.context.now.lt record.expiresAt = true) :
    Replays plan (w.findings plan.settings second.allFiles) repository later again second ∧
      ∀ {ρ : Type} (fresh : Handler ρ) (state : ρ),
        AllFit w (Script.history fresh (plan.analyze second) state) →
        (∀ moment ∈ Script.history fresh (plan.analyze second) state,
          moment.Shows w repository) →
        Delivers (w.findings plan.settings second.allFiles) repository false
          (Script.drain fresh (plan.analyze second) state).events := by
  obtain ⟨mode, hmode⟩ := h.mode
  obtain ⟨reports, hget⟩ := h.get_eq hrecord hwrites hfits hlives hunexpired
  exact ⟨h.replays hrecord hget, fun fresh state hfit hshows =>
    AnalysisPlan.fresh_delivers h.same_location hmode hfit hshows⟩

namespace RepeatedRequest

open SampleWorld (answer)

def repository : Coordinates := ⟨"acme", "widgets", "main"⟩

/-- A page that cannot be read, a folder, and a component. -/
def w : Holdings where
  listed := [⟨"README.md", .blob, "raw/README.md"⟩, ⟨"src", .tree, "raw/src"⟩,
    ⟨"src/Card.tsx", .blob, "raw/src/Card.tsx"⟩]
  text? path :=
    if path = "src/Card.tsx" then some "export default function Card() {}" else none
  find? path text := (Entity.ofFile path text).value

def source : Source Unit where
  choose origin _ := ⟨answer w (.choose origin), (), []⟩
  openIt _ := ⟨.ok (), (), []⟩
  closeIt _ := ⟨.ok (), (), []⟩
  list _ := ⟨answer w .list, (), []⟩
  read path _ := ⟨answer w (.read path), (), []⟩

/-- A cache in which records last a minute and take up to a thousand bytes, at some second. -/
def lawsAt (now : Int) : WorldLaws Unit where
  source
  cache := { directory := ".cache/repos", ttl := .whole 60, maxBytes := 1000 }
  context := { now := .ofInt now, stamp := .ofInt now, temporary := ".tmp-" ++ "x1" ++ ".part" }

def first : AnalysisRequest where
  location := "acme/widgets"
  useCache := false

/-- The same repository by its whole address, with all files. -/
def second : AnalysisRequest where
  location := "https://github.com/acme/widgets.git"
  allFiles := true

def world (folder : CacheFolder) : World Unit where
  source := ()
  folder

/-- The world after the first request. -/
def again (folder : CacheFolder) : World Unit :=
  (Script.drain (lawsAt 1000).handler (AnalysisPlan.analyze {} first) (world folder)).state

def card : Entity where
  name := "Card"
  role := .component
  file := "src/Card.tsx"
  exports := ["Card"]
  content := "export default function Card() {}"

/-- The record that the first request stores. -/
def record : CacheRecord where
  key := "697b592a27b3546237571314022f7e5bcc18380f3f336695518a4c36f3f5a4da"
  location := "https://github.com/acme/widgets"
  branch := "main"
  timestamp := .ofInt 1000
  expiresAt := .ofInt 1060
  version := "1.0.0"
  entities := [card]
  files := w.listed
  repository := repository

/-- A record of another repository. -/
def other : CacheRecord where
  key := "ed4b93bd490be0b686a56cae128b8f8d2372b47c02d5ac608224d6a15d6b7c66"
  location := "acme/site"
  branch := "main"
  timestamp := .ofInt 990
  expiresAt := .ofInt 1050
  version := "1.0.0"
  entities := []
  files := []
  repository := ⟨"acme", "site", "main"⟩

/-- The other record, in a file that was changed at some second. -/
def held (changed : Int) : Table StoredRecord :=
  [("acme/site#main", ⟨other, .ofInt changed⟩)]

/-- Both records. -/
def both (changed : Int) : Table StoredRecord :=
  Table.set "https://github.com/acme/widgets#main" ⟨record, .ofInt 1000⟩ (held changed)

def used : List String := ["https://github.com/acme/widgets#main", "acme/site#main"]

theorem used_record : "https://github.com/acme/widgets#main" ∈ used := List.mem_cons_self

/-- The keys are the digests that they should be, and that of the other record is later. -/
theorem keys : record.key = Sha256.hexDigest "https://github.com/acme/widgets#main" ∧
    other.key = Sha256.hexDigest "acme/site#main" ∧
    ¬recordName other.key ≤ recordName record.key := by
  decide +kernel

theorem sizes : record.size = 836 ∧ other.size = 238 := by
  decide +kernel

/-- Both requests are for the repository, and its record has the fingerprint that it should have. -/
theorem locations : Coordinates.ofLocation first.location first.branch = .ok repository ∧
    Coordinates.ofLocation second.location second.branch = .ok repository ∧
    fingerprint (AnalysisPlan.cacheLocation repository) repository.branch =
      "https://github.com/acme/widgets#main" := by
  decide +kernel

/-- The record counts from when it is stored until the second request, and the other one too. -/
theorem clock : (Binary64.ofInt 1000).add (.ofInt 60) = record.expiresAt ∧
    (Binary64.ofInt 1000).lt record.expiresAt = true ∧
    (Binary64.ofInt 1030).lt record.expiresAt = true ∧
    (Binary64.ofInt 1000).lt other.expiresAt = true := by
  decide

theorem modules : w.OfModules := by
  intro path text
  simp only [w]

/-- The page and the folder add no entity. -/
theorem entities_first : (w.findings {} first.allFiles).entities = [card] := by
  decide +kernel

/-- What the second request is to find: it looks into the page as well. -/
def found : Findings := ⟨w.listed, [card], 2⟩

theorem findings_second : w.findings {} second.allFiles = found := by
  have hentities : (w.findings {} second.allFiles).entities = [card] :=
    (modules.entities_eq (.inr (by simp [Unlimited]))).trans entities_first
  have hchosen : (w.chosen {} second.allFiles).length = 2 := by
    rw [Holdings.chosen, selectCandidates, limited_of_unlimited (by simp [Unlimited]),
      List.length_mergeSort]
    decide
  have hfiles : AnalysisPlan.keptFiles w.listed = w.listed := by decide
  simp only [Holdings.findings] at hentities
  rw [Holdings.findings, hentities, hchosen, hfiles, found]

theorem isRecord : Revisit.IsRecord {} w repository (lawsAt 1000) first record := by
  have hkey : (lawsAt 1000).cache.key (AnalysisPlan.cacheLocation repository)
      repository.branch = record.key := by
    rw [RepoCache.key, locations.2.2, keys.1]
    rfl
  have httl : (lawsAt 1000).cache.ttl.toReal = .ok (.ofInt 60) := rfl
  have hexpires : (lawsAt 1000).context.now.add (.ofInt 60) = record.expiresAt := clock.1
  have hfiles : (w.findings {} first.allFiles).files = w.listed := by decide
  rw [Revisit.IsRecord, entities_first, hfiles, RepoCache.newRecord, hkey, httl]
  simp only [bind, Except.bind, hexpires]
  rfl

theorem apart : Apart used := by
  have hdigests : Sha256.hexDigest "https://github.com/acme/widgets#main" ≠
      Sha256.hexDigest "acme/site#main" := by
    rw [← keys.1, ← keys.2.1]
    decide
  simp [used, Apart, hdigests, hdigests.symm]

theorem record_faithful : record.Faithful :=
  (RepoCache.newRecord_spec isRecord (Binary64.valid_ofInt 1000) (modules.described {} false)
    (by decide)).2

theorem other_faithful : other.Faithful :=
  ⟨⟨Binary64.valid_ofInt 990, Binary64.valid_ofInt 1050⟩, by simp [other], by simp [other]⟩

theorem held_sound (changed : Int) : Sound used (held changed) :=
  ⟨by simp [held], by simp [held, used], by simp [held, keys.2.1],
    by simpa [held] using other_faithful⟩

theorem both_sound (changed : Int) : Sound used (both changed) :=
  (held_sound changed).set used_record keys.1 record_faithful

theorem writes (changed : Int) : (lawsAt 1000).cache.Writes (lawsAt 1000).context record
    (.present (folderOf (held changed))) (folderOf (both changed)) := by
  refine ⟨rfl, _, rfl, ?_⟩
  have hset := (held_sound changed).set_folderOf apart used_record ⟨record, .ofInt 1000⟩
  rw [fileName, ← keys.1, StoredRecord.file] at hset
  rw [(onlyFiles_folderOf _).writeRecord_eq (lawsAt 1000).cache (fun _ => rfl)
    (Sound.temporary_ne_recordName "x1" _) (Sound.temporary_not_mem_folderOf _ "x1")]
  exact congrArg (·, none) hset

def recordSummary : RecordSummary :=
  ⟨record.key, .ofInt 1000, 836, true⟩

def otherSummary (changed : Int) : RecordSummary :=
  ⟨other.key, .ofInt changed, 238, true⟩

theorem summaries_both (changed : Int) :
    ((lawsAt 1000).cache.inMemory (.ofInt 1000) (both changed)).summaries =
      [recordSummary, otherSummary changed] := by
  have hboth : (both changed).map Prod.snd =
      [⟨other, .ofInt changed⟩, ⟨record, .ofInt 1000⟩] := by
    simp [both, held, Table.set]
  have hnames : (recordName other.key ≤ recordName record.key) = False := eq_false keys.2.2
  have hversion : record.version = "1.0.0" ∧ other.version = "1.0.0" := ⟨rfl, rfl⟩
  rw [CacheMap.summaries, RepoCache.inMemory, hboth, mergeSort_pair]
  simp [StoredRecord.notAfter, hnames, StoredRecord.summary, StoredRecord.isCurrent,
    hversion, clock, sizes, recordSummary, otherSummary, lawsAt]

theorem fitsAmong :
    (lawsAt 1000).cache.FitsAmong (.ofInt 1000) record.key (folderOf (both 900)) := by
  intro found hfound
  rw [(both_sound 900).summaries_folderOf apart, summaries_both] at hfound
  obtain rfl := Except.ok.inj hfound
  have hvalid : [recordSummary, otherSummary 900].filter RecordSummary.valid =
      [recordSummary, otherSummary 900] := rfl
  rw [lastToGo, hvalid, mergeSort_pair]
  decide

/-- Of the two records the one whose file is later stays. -/
theorem evict_both : ((lawsAt 1000).cache.inMemory (.ofInt 1000) (both 1100)).evict.records =
    held 1100 := by
  have hdoomed : planEvictions 1000 [recordSummary, otherSummary 1100] = [record.key] := by
    have hvalid : [recordSummary, otherSummary 1100].filter RecordSummary.valid =
        [recordSummary, otherSummary 1100] := rfl
    rw [planEvictions, hvalid, mergeSort_pair]
    decide
  have hkeys : other.key ≠ record.key := by decide
  rw [CacheMap.evict, summaries_both]
  simp only [RepoCache.inMemory, lawsAt, hdoomed]
  simp [both, held, Table.set, hkeys]

theorem answer_shows (action : Action) :
    (Moment.action action (answer w action)).Shows w repository := by
  cases action with
  | choose origin =>
      intro source hsource
      obtain rfl := Except.ok.inj hsource
      rfl
  | read path => exact SampleWorld.fits w (.read path) ()
  | list => rfl
  | _ => trivial

section Answers

variable {now : Int} (action : Action) (state : World Unit)

theorem shows :
    (Moment.action action ((lawsAt now).perform action state).1).Shows w repository := by
  cases action with
  | choose origin => exact answer_shows (.choose origin)
  | read path => exact answer_shows (.read path)
  | list => exact answer_shows .list
  | _ => trivial

theorem examine_eq (path text : String) :
    (lawsAt now).examine path text = .ok <$> Entity.ofFile path text := by
  simp only [lawsAt]

/-- All answers but those of the cache fit what the source holds. -/
theorem fits
    (hspares : (Moment.action action ((lawsAt now).perform action state).1).SparesCache) :
    (Moment.action action ((lawsAt now).perform action state).1).Fits w := by
  cases action with
  | lookup location branch => exact absurd hspares id
  | store => exact absurd hspares id
  | choose origin => exact ⟨_, rfl⟩
  | openSource => rfl
  | closeSource => rfl
  | _ =>
      have hexamine : ∀ path text, (lawsAt now).examine path text =
          .ok <$> Entity.ofFile path text := examine_eq
      refine WorldLaws.fits_of_isVisit hexamine modules trivial (shows _ state) ?_
      rintro action answer ⟨rfl, rfl⟩
      exact ⟨state, rfl⟩

end Answers

/-- Where the first request can store its result, the second comes after a completed run. -/
theorem revisit {folder : CacheFolder}
    (hput : ((lawsAt 1000).cache.putRecord (lawsAt 1000).context record folder).result = .ok ()) :
    Revisit {} w repository (lawsAt 1000) (world folder) first (lawsAt 1030) (again folder)
      second where
  cached := rfl
  digest := rfl
  examine := examine_eq
  modules := modules
  typed := by decide
  clock := Binary64.valid_ofInt 1000
  location := locations.1
  shows moment hmem := by
    cases moment with
    | event e => trivial
    | action action answer =>
        obtain ⟨reached, rfl⟩ := Script.answer_of_mem_history hmem
        exact shows action reached
  completed := AnalysisPlan.completed_of_put rfl rfl locations.1 rfl fits
    (fun action state _ => shows action state) (by rw [isRecord.put_eq]; exact hput)
  same_cache := rfl
  untouched := rfl
  same_location := locations.2.1
  mode := ⟨.remote, rfl⟩
  asks := rfl
  choice := .inr (by simp [Unlimited])

theorem put_occupied :
    ((lawsAt 1000).cache.putRecord (lawsAt 1000).context record .occupied).result = .ok () :=
  rfl

theorem put_held (changed : Int) : ((lawsAt 1000).cache.putRecord (lawsAt 1000).context record
    (.present (folderOf (held changed)))).result = .ok () := by
  obtain ⟨reports, hevict⟩ :=
    (both_sound changed).evict_folderOf apart (lawsAt 1000).cache (lawsAt 1000).context.now
  exact RepoCache.putRecord_ok_of_evict (writes changed) hevict

theorem occupied_again : ¬Replays {} (w.findings {} second.allFiles) repository (lawsAt 1030)
    (again .occupied) second := by
  intro hreplays
  obtain ⟨found, hfound⟩ := hreplays.finds
  rw [((revisit put_occupied).folder_eq isRecord).2] at hfound
  cases hfound

theorem crowded_again : ¬Replays {} (w.findings {} second.allFiles) repository (lawsAt 1030)
    (again (.present (folderOf (held 1100)))) second := by
  intro hreplays
  obtain ⟨found, hfound⟩ := hreplays.finds
  have hstored : ((lawsAt 1000).cache.putRecord (lawsAt 1000).context record
      (.present (folderOf (held 1100)))).folder =
        .present (folderOf ((lawsAt 1000).cache.inMemory (.ofInt 1000)
          (both 1100)).evict.records) :=
    (held_sound 1100).putRecord_folderOf apart (lawsAt 1000).cache (fun _ => rfl) "x1" rfl
      used_record keys.1 record_faithful rfl
  have hget := ((held_sound 1100).get_folderOf apart (lawsAt 1030).cache rfl
    (lawsAt 1030).context.now (AnalysisPlan.cacheLocation repository) repository.branch
    (locations.2.2 ▸ used_record)).2
  have hnone : Table.get? "https://github.com/acme/widgets#main" (held 1100) = none := rfl
  rw [CacheMap.get, locations.2.2, RepoCache.inMemory, hnone] at hget
  rw [((revisit (put_held 1100)).folder_eq isRecord).2] at hfound
  simp only [WorldLaws.askedFolder, first, Bool.false_eq_true, if_false, world] at hfound
  rw [hstored, evict_both, hget] at hfound
  cases hfound

end RepeatedRequest

open RepeatedRequest in
/-- A request after one whose record has taken the place of an older one. -/
theorem hits_deliver_fresh_findings_crowded :
    let folder := .present (folderOf (held 900))
    Revisit {} w repository (lawsAt 1000) (world folder) first (lawsAt 1030) (again folder) second ∧
      Revisit.IsRecord {} w repository (lawsAt 1000) first record ∧
      (lawsAt 1000).cache.Writes (lawsAt 1000).context record folder (folderOf (both 900)) ∧
      (lawsAt 1000).cache.FitsAmong (.ofInt 1000) record.key (folderOf (both 900)) ∧
      (lawsAt 1000).context.now.lt record.expiresAt = true ∧
      (lawsAt 1030).context.now.lt record.expiresAt = true ∧
      Replays {} found repository (lawsAt 1030) (again folder) second ∧
      Delivers found repository false
        (Script.drain (SampleWorld.handler w) (AnalysisPlan.analyze {} second) ()).events := by
  intro folder
  have hrevisit := revisit (put_held 900)
  obtain ⟨-, hlives, hunexpired, -⟩ := clock
  obtain ⟨hreplays, hdelivers⟩ := hits_deliver_fresh_findings hrevisit isRecord (writes 900)
    fitsAmong hlives hunexpired
  rw [findings_second] at hreplays hdelivers
  refine ⟨hrevisit, isRecord, writes 900, fitsAmong, hlives, hunexpired, hreplays,
    hdelivers (SampleWorld.handler w) () (allFit_history (SampleWorld.fits w) _ _) ?_⟩
  intro moment hmem
  cases moment with
  | event e => trivial
  | action action answer =>
      obtain ⟨reached, rfl⟩ := Script.answer_of_mem_history hmem
      exact answer_shows action

open RepeatedRequest in
/--
A record that would fit by itself is not found if it could not be written, or if
another one with a later file takes its room.
-/
theorem not_every_record_is_found :
    let findings := w.findings {} second.allFiles
    record.size ≤ (lawsAt 1000).cache.maxBytes ∧
      Revisit.IsRecord {} w repository (lawsAt 1000) first record ∧
      (lawsAt 1000).context.now.lt record.expiresAt = true ∧
      (lawsAt 1030).context.now.lt record.expiresAt = true ∧
      (let folder := .occupied
      Revisit {} w repository (lawsAt 1000) (world folder) first (lawsAt 1030) (again folder)
          second ∧
        ¬Replays {} findings repository (lawsAt 1030) (again folder) second) ∧
      let folder := .present (folderOf (held 1100))
      Revisit {} w repository (lawsAt 1000) (world folder) first (lawsAt 1030) (again folder)
          second ∧
        (lawsAt 1000).cache.Writes (lawsAt 1000).context record folder (folderOf (both 1100)) ∧
        ¬Replays {} findings repository (lawsAt 1030) (again folder) second :=
  ⟨by rw [sizes.1]; decide, isRecord, clock.2.1, clock.2.2.1,
    ⟨revisit put_occupied, occupied_again⟩, revisit (put_held 1100), writes 1100, crowded_again⟩

end RepoAtlas
