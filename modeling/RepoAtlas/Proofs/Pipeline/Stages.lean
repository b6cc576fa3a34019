import RepoAtlas.Pipeline.Analysis
import RepoAtlas.Proofs.Pipeline.Course

/-!
What each stage of an analysis can do: the moments of its courses, one case for
each way in which its actions may be answered.
-/
namespace RepoAtlas

/-- The tally with the file that came before. -/
def Tally.withFirst (found : Option (Option Entity)) (t : Tally) : Tally :=
  match found with
  | some entity => t.after entity
  | none => t.afterSkip

namespace AnalysisPlan

open Script Stage

/-- What looking into a text can come to. -/
inductive Examined (path content : String) :
    List Moment → Except Failure (Option (Option Entity)) → Prop where
  | fails (failure : Failure) (record : LogRecord) (answer) :
      Examined path content
        [.action (.examine path content) (.error failure),
          .action (.report record) answer]
        (.ok none)
  | findsNothing :
      Examined path content [.action (.examine path content) (.ok none)]
        (.ok (some none))
  | finds (entity : Entity) (record : LogRecord) (answer) :
      Examined path content
        [.action (.examine path content) (.ok (some entity)),
          .action (.report record) answer, .event (.component entity)]
        (.ok (some (some entity)))

theorem examined_of_course {path content : String} {moments : List Moment}
    {result : Except Failure (Option (Option Entity))}
    (h : Course (examine path content).run moments result) :
    Examined path content moments result := by
  obtain ⟨answer, _, rfl, hrest⟩ := course_run_ask_bind.mp h
  rcases answer with failure | _ | entity
  · obtain ⟨answer, _, rfl, hpure⟩ := course_run_tell_bind.mp hrest
    obtain ⟨rfl, rfl⟩ := course_run_pure.mp hpure
    exact .fails failure _ answer
  · obtain ⟨rfl, rfl⟩ := course_run_pure.mp hrest
    exact .findsNothing
  · obtain ⟨answer, _, rfl, hyield⟩ := course_run_tell_bind.mp hrest
    obtain ⟨_, rfl, hpure⟩ := course_run_yield_bind.mp hyield
    obtain ⟨rfl, rfl⟩ := course_run_pure.mp hpure
    exact .finds entity _ answer

/-- What a visit to a file can come to. Only a failure that is not about the
file itself is passed on. -/
inductive Visited (path : String) :
    List Moment → Except Failure (Option (Option Entity)) → Prop where
  | unreadable (shown reason : String) (record : LogRecord) (answer) :
      Visited path
        [.action (.read path) (.error (.unreadableFile shown reason)),
          .action (.report record) answer]
        (.ok none)
  | fails (failure : Failure)
      (hfailure : ∀ shown reason, failure ≠ .unreadableFile shown reason) :
      Visited path [.action (.read path) (.error failure)] (.error failure)
  | reads (content : String) {moments : List Moment}
      {result : Except Failure (Option (Option Entity))}
      (hexamined : Examined path content moments result) :
      Visited path (.action (.read path) (.ok content) :: moments) result

theorem visited_of_course {path : String} {moments : List Moment}
    {result : Except Failure (Option (Option Entity))}
    (h : Course (visit path).run moments result) :
    Visited path moments result := by
  obtain ⟨answer, _, rfl, hrest⟩ := course_run_ask_bind.mp h
  rcases answer with failure | content
  · cases failure with
    | unreadableFile shown reason =>
        obtain ⟨answer, _, rfl, hpure⟩ := course_run_tell_bind.mp hrest
        obtain ⟨rfl, rfl⟩ := course_run_pure.mp hpure
        exact .unreadable shown reason _ answer
    | _ =>
        obtain ⟨rfl, rfl⟩ := course_run_throw.mp hrest
        exact .fails _ (fun _ _ => Failure.noConfusion)
  · exact .reads content (examined_of_course hrest)

/-- The pause before the file at a place, if there is one. -/
def pauseAt (s : AnalysisSettings) (index : Nat) : List Moment :=
  if pausesBefore s index then [.action (.pause s.paceDelay) (.ok ())] else []

/-- The walk through some files, up to the first failure that is passed on. -/
inductive Walked (s : AnalysisSettings) (total : Nat) :
    Nat → List FileRecord → List Moment → Except Failure Tally → Prop where
  | nil (index : Nat) : Walked s total index [] [] (.ok {})
  | pauseFails {index : Nat} (file : FileRecord) (rest : List FileRecord)
      (failure : Failure) (hpauses : pausesBefore s index = true) :
      Walked s total index (file :: rest)
        [.action (.pause s.paceDelay) (.error failure)] (.error failure)
  | visitFails {index : Nat} {file : FileRecord} (rest : List FileRecord)
      {moments : List Moment} {failure : Failure}
      (hvisited : Visited file.path moments (.error failure)) :
      Walked s total index (file :: rest)
        (pauseAt s index ++ .event (.progress index total file.path) :: moments)
        (.error failure)
  | cons {index : Nat} {file : FileRecord} {rest : List FileRecord}
      {moments later : List Moment} {found : Option (Option Entity)}
      {result : Except Failure Tally}
      (hvisited : Visited file.path moments (.ok found))
      (hrest : Walked s total (index + 1) rest later result) :
      Walked s total index (file :: rest)
        (pauseAt s index ++ .event (.progress index total file.path) ::
          (moments ++ later))
        (result.map (Tally.withFirst found))

theorem walked_of_course {s : AnalysisSettings} {total index : Nat}
    {files : List FileRecord} {moments : List Moment}
    {result : Except Failure Tally}
    (h : Course (visitAll s total index files).run moments result) :
    Walked s total index files moments result := by
  induction files generalizing index moments result with
  | nil =>
      obtain ⟨rfl, rfl⟩ := course_run_pure.mp h
      exact .nil index
  | cons file rest ih =>
      -- After the pause, if there is one, the file is announced and visited.
      have hannounced : ∀ {moments : List Moment},
          Course (do
            Stage.yield (.progress index total file.path)
            let found ← visit file.path
            let tally ← visitAll s total (index + 1) rest
            return match found with
              | some entity => tally.after entity
              | none => tally.afterSkip : Stage Tally).run moments result →
          Walked s total index (file :: rest) (pauseAt s index ++ moments)
            result := by
        intro moments hyield
        obtain ⟨_, rfl, hvisit⟩ := course_run_yield_bind.mp hyield
        rcases course_run_bind.mp hvisit with
          ⟨visited, found, _, rfl, hvisited, hwalk⟩ | ⟨failure, rfl, hvisited⟩
        · have hvisited := visited_of_course hvisited
          rcases course_run_bind.mp hwalk with
            ⟨later, tally, _, rfl, hlater, hpure⟩ | ⟨failure, rfl, hlater⟩
          · obtain ⟨rfl, rfl⟩ := course_run_pure.mp hpure
            rw [List.append_nil]
            exact .cons hvisited (ih hlater)
          · exact .cons hvisited (ih hlater)
        · exact .visitFails rest (visited_of_course hvisited)
      rw [visitAll] at h
      split at h
      · next hpauses =>
          rcases course_run_perform_bind.mp h with
            ⟨_, _, rfl, hrest⟩ | ⟨failure, rfl, rfl⟩
          · have hwalked := hannounced hrest
            rwa [pauseAt, if_pos hpauses] at hwalked
          · exact .pauseFails file rest failure hpauses
      · next hpauses =>
          have hwalked := hannounced h
          rwa [pauseAt, if_neg hpauses] at hwalked

/-- The files of a listing that are not excluded. -/
def keptFiles (listed : List FileRecord) : List FileRecord :=
  listed.filter fun file => !isExcluded file.path

/-- The announcement of how many files are chosen. -/
def foundStatus (count : Nat) : Event :=
  .status s!"Found {count} files to analyze..."

/-- What a visit to the files of an open source can come to. -/
inductive Surveyed (s : AnalysisSettings) (repository : Coordinates) (allFiles : Bool) :
    List Moment → Except Failure Survey → Prop where
  | listFails (failure : Failure) :
      Surveyed s repository allFiles [.action .list (.error failure)] (.error failure)
  | lists (listed : List FileRecord) {chosen : List FileRecord}
      (hchosen : chosen = selectCandidates s.maxFiles allFiles (keptFiles listed))
      {moments : List Moment} {tally : Except Failure Tally}
      (hwalked : Walked s chosen.length 1 chosen moments tally) :
      Surveyed s repository allFiles
        (.action .list (.ok listed) :: .event (.files (keptFiles listed) repository) ::
          .event (foundStatus chosen.length) :: moments)
        (tally.map fun tally => ⟨keptFiles listed, chosen.length, tally⟩)

theorem surveyed_of_course {s : AnalysisSettings} {repository : Coordinates}
    {allFiles : Bool} {moments : List Moment} {result : Except Failure Survey}
    (h : Course (survey s repository allFiles).run moments result) :
    Surveyed s repository allFiles moments result := by
  rcases course_run_perform_bind.mp h with
    ⟨listed, _, rfl, hfiles⟩ | ⟨failure, rfl, rfl⟩
  · obtain ⟨_, rfl, hstatus⟩ := course_run_yield_bind.mp hfiles
    obtain ⟨_, rfl, hwalk⟩ := course_run_yield_bind.mp hstatus
    rcases course_run_bind.mp hwalk with
      ⟨_, tally, _, rfl, hwalked, hpure⟩ | ⟨failure, rfl, hwalked⟩
    · obtain ⟨rfl, rfl⟩ := course_run_pure.mp hpure
      rw [List.append_nil]
      exact .lists listed rfl (walked_of_course hwalked)
    · exact .lists listed rfl (walked_of_course hwalked)
  · exact .listFails failure

/-- The moments of storing a result, if there is a place for it. -/
def storedAt (place : Option String) (repository : Coordinates) (found : Survey) :
    List Moment :=
  match place with
  | some location =>
    [.action (.store location repository.branch (resolve found.tally.entities)
      found.files repository) (.ok ())]
  | none => []

/-- The event that ends a run which succeeded. -/
def completion (found : Survey) : Event :=
  .complete (resolve found.tally.entities) found.total
    (resolve found.tally.entities).length false

/-- Moments in which something is reported and nothing else happens. -/
def OnlyReports (moments : List Moment) : Prop :=
  ∀ moment ∈ moments, ∃ record answer, moment = .action (.report record) answer

theorem OnlyReports.eventsOf {moments : List Moment} (h : OnlyReports moments) :
    eventsOf moments = [] := by
  induction moments with
  | nil => rfl
  | cons moment rest ih =>
      obtain ⟨record, answer, rfl⟩ := h moment List.mem_cons_self
      exact ih fun later hlater => h later (List.mem_cons_of_mem _ hlater)

/-- What can come of a survey that succeeded. -/
inductive Concluded (place : Option String) (repository : Coordinates) (found : Survey) :
    List Moment → Except Failure Unit → Prop where
  | storeFails (location : String) (hplace : place = some location)
      {reports : List Moment} (hreports : OnlyReports reports) (failure : Failure) :
      Concluded place repository found
        (reports ++ [.action (.store location repository.branch
          (resolve found.tally.entities) found.files repository) (.error failure)])
        (.error failure)
  | completes {reports : List Moment} (hreports : OnlyReports reports)
      (record : LogRecord) (answer) :
      Concluded place repository found
        (reports ++ storedAt place repository found ++
          [.action (.report record) answer, .event (completion found)])
        (.ok ())

/-- The last steps of an analysis: a report and the event that ends the run. -/
def concludeStage (found : Survey) : Stage Unit := do
  Stage.tell (.info logger
    s!"Analysis complete: {(resolve found.tally.entities).length} entities from {found.total} files")
  Stage.yield (completion found)

/-- The steps from the store on. -/
def storeStage (place : Option String) (repository : Coordinates) (found : Survey) :
    Stage Unit :=
  match place with
  | some location => do
    Stage.perform (.store location repository.branch (resolve found.tally.entities)
      found.files repository)
    concludeStage found
  | none => concludeStage found

theorem analyzeSource_eq (s : AnalysisSettings) (repository : Coordinates)
    (allFiles : Bool) (place : Option String) :
    analyzeSource s repository allFiles place = (do
      let found ← Stage.withSource (survey s repository allFiles)
      Stage.tell (resolveRecord found.tally.entities)
      if 0 < found.tally.skipped then
        Stage.tell (.info logger s!"Skipped {found.tally.skipped} unreadable files")
      storeStage place repository found) := by
  cases place <;> rfl

theorem concluded_of_course {place : Option String} {repository : Coordinates}
    {found : Survey} {reports moments : List Moment} {result : Except Failure Unit}
    (hreports : OnlyReports reports)
    (h : Course (storeStage place repository found).run moments result) :
    Concluded place repository found (reports ++ moments) result := by
  have hends : ∀ {moments : List Moment},
      Course (concludeStage found).run moments result →
      ∃ record answer, result = .ok () ∧
        moments = [.action (.report record) answer, .event (completion found)] := by
    intro moments hconclude
    obtain ⟨answer, _, rfl, hyield⟩ := course_run_tell_bind.mp hconclude
    obtain ⟨rfl, rfl⟩ := course_run_yield.mp hyield
    exact ⟨_, answer, rfl, rfl⟩
  cases place with
  | none =>
      obtain ⟨record, answer, rfl, rfl⟩ := hends h
      have hconcluded : Concluded none repository found _ _ :=
        .completes hreports record answer
      rwa [storedAt, List.append_nil] at hconcluded
  | some location =>
      rcases course_run_perform_bind.mp h with
        ⟨_, _, rfl, hconclude⟩ | ⟨failure, rfl, rfl⟩
      · obtain ⟨record, answer, rfl, rfl⟩ := hends hconclude
        have hconcluded : Concluded (some location) repository found _ _ :=
          .completes hreports record answer
        rwa [storedAt, List.append_assoc] at hconcluded
      · exact .storeFails location rfl hreports failure

/-- What the analysis of a source can come to. -/
inductive Analyzed (s : AnalysisSettings) (repository : Coordinates) (allFiles : Bool)
    (place : Option String) : List Moment → Except Failure Unit → Prop where
  | openFails (failure : Failure) :
      Analyzed s repository allFiles place
        [.action .openSource (.error failure)] (.error failure)
  | surveyFails {inner : List Moment} {found : Except Failure Survey}
      (hsurveyed : Surveyed s repository allFiles inner found)
      (closing : Answer .closeSource) (failure : Failure)
      (hfailure : (closing.bind fun _ => found) = .error failure) :
      Analyzed s repository allFiles place
        (.action .openSource (.ok ()) :: inner ++ [.action .closeSource closing])
        (.error failure)
  | concludes {inner : List Moment} {found : Survey}
      (hsurveyed : Surveyed s repository allFiles inner (.ok found))
      {moments : List Moment} {result : Except Failure Unit}
      (hconcluded : Concluded place repository found moments result) :
      Analyzed s repository allFiles place
        (.action .openSource (.ok ()) :: inner ++
          .action .closeSource (.ok ()) :: moments)
        result

theorem analyzed_of_course {s : AnalysisSettings} {repository : Coordinates}
    {allFiles : Bool} {place : Option String} {moments : List Moment}
    {result : Except Failure Unit}
    (h : Course (analyzeSource s repository allFiles place).run moments result) :
    Analyzed s repository allFiles place moments result := by
  rw [analyzeSource_eq] at h
  rcases course_run_bind.mp h with
    ⟨opened, found, after, rfl, hsource, hrest⟩ | ⟨failure, rfl, hsource⟩
  · rcases course_run_withSource.mp hsource with
      ⟨_, _, heq⟩ | ⟨inner, surveyed, closing, hinner, rfl, heq⟩
    · cases heq
    · cases closing with
      | error failure => cases heq
      | ok _ =>
          obtain rfl : surveyed = .ok found := heq.symm
          rw [List.append_assoc]
          refine .concludes (surveyed_of_course hinner) ?_
          obtain ⟨answer, _, rfl, hafter⟩ := course_run_tell_bind.mp hrest
          split at hafter
          · obtain ⟨skipped, _, rfl, hstore⟩ := course_run_tell_bind.mp hafter
            have hreports : OnlyReports [.action _ answer, .action _ skipped] := by
              simp [OnlyReports]
            have hconcluded := concluded_of_course hreports hstore
            exact hconcluded
          · have hreports : OnlyReports [.action _ answer] := by
              simp [OnlyReports]
            have hconcluded := concluded_of_course hreports hafter
            exact hconcluded
  · rcases course_run_withSource.mp hsource with
      ⟨_, rfl, heq⟩ | ⟨inner, surveyed, closing, hinner, rfl, heq⟩
    · obtain rfl := Except.error.inj heq
      exact .openFails failure
    · exact .surveyFails (surveyed_of_course hinner) closing failure heq.symm

/-- The events of handing out a stored result. -/
def replayEvents (s : AnalysisSettings) (record : CacheRecord) (allFiles : Bool) :
    List Event :=
  [.status "Loaded analysis from cache", .files record.files record.repository] ++
    record.entities.map .component ++
    [.complete record.entities (selectCandidates s.maxFiles allFiles record.files).length
      record.entities.length true]

theorem course_run_components {entities : List Entity} {moments : List Moment}
    {result : Except Failure Unit}
    (h : Course (entities.forM fun entity => Stage.yield (.component entity)).run
      moments result) :
    moments = entities.map (fun entity => .event (.component entity)) ∧
      result = .ok () := by
  induction entities generalizing moments with
  | nil => exact course_run_pure.mp h
  | cons entity rest ih =>
      obtain ⟨_, rfl, hrest⟩ := course_run_yield_bind.mp h
      obtain ⟨rfl, rfl⟩ := ih hrest
      exact ⟨rfl, rfl⟩

theorem replayed_of_course {s : AnalysisSettings} {record : CacheRecord}
    {allFiles : Bool} {moments : List Moment} {result : Except Failure Unit}
    (h : Course (replay s record allFiles).run moments result) :
    moments = (replayEvents s record allFiles).map .event ∧ result = .ok () := by
  obtain ⟨_, rfl, hfiles⟩ := course_run_yield_bind.mp h
  obtain ⟨_, rfl, hentities⟩ := course_run_yield_bind.mp hfiles
  rcases course_run_bind.mp hentities with
    ⟨_, _, _, rfl, hcomponents, hcomplete⟩ | ⟨failure, _, hcomponents⟩
  · obtain ⟨rfl, _⟩ := course_run_components hcomponents
    obtain ⟨rfl, rfl⟩ := course_run_yield.mp hcomplete
    simp [replayEvents]
  · obtain ⟨_, heq⟩ := course_run_components hcomponents
    cases heq

/-- What asking the cache can come to. -/
inductive Asked (plan : AnalysisPlan) (request : AnalysisRequest)
    (repository : Coordinates) :
    List Moment → Except Failure (Option CacheRecord) → Prop where
  | skips (hcache : (request.useCache && plan.cached) = false) :
      Asked plan request repository [] (.ok none)
  | asks (hcache : (request.useCache && plan.cached) = true)
      (answer : Except Failure (Option CacheRecord)) :
      Asked plan request repository
        [.event (.status "Checking cache..."),
          .action (.lookup (cacheLocation repository) repository.branch) answer]
        answer

theorem asked_of_course {plan : AnalysisPlan} {request : AnalysisRequest}
    {repository : Coordinates} {moments : List Moment}
    {result : Except Failure (Option CacheRecord)}
    (h : Course (remembered plan request repository).run moments result) :
    Asked plan request repository moments result := by
  rw [remembered] at h
  split at h
  · next hcache =>
      obtain ⟨_, rfl, hlookup⟩ := course_run_yield_bind.mp h
      obtain rfl := course_run_perform.mp hlookup
      exact .asks hcache result
  · next hcache =>
      obtain ⟨rfl, rfl⟩ := course_run_pure.mp h
      exact .skips (by simpa using hcache)

/-- The place in the cache for the result of a repository. -/
def placeFor (plan : AnalysisPlan) (repository : Coordinates) : Option String :=
  if plan.cached then some (cacheLocation repository) else none

/-- The moments from the announcement of a fetch until a source is chosen. -/
def fetching (repository : Coordinates) (mode : Mode) (record : LogRecord)
    (answer : Answer (.report record))
    (source : Answer (.choose (.hosted repository mode))) : List Moment :=
  [.event (.status "Fetching repository structure..."),
    .action (.report record) answer, .action (.choose (.hosted repository mode)) source]

/-- What the run of a request can come to. -/
inductive Ran (plan : AnalysisPlan) (request : AnalysisRequest) :
    List Moment → Except Failure Unit → Prop where
  | badLocation (failure : Failure)
      (hlocation : Coordinates.ofLocation request.location request.branch =
        .error failure) :
      Ran plan request [] (.error failure)
  | badMode (failure : Failure) (hmode : modeOf plan.settings request = .error failure) :
      Ran plan request [] (.error failure)
  | lookupFails {repository : Coordinates}
      (hlocation : Coordinates.ofLocation request.location request.branch = .ok repository)
      {asked : List Moment} {failure : Failure}
      (hasked : Asked plan request repository asked (.error failure)) :
      Ran plan request asked (.error failure)
  | replays {repository : Coordinates}
      (hlocation : Coordinates.ofLocation request.location request.branch = .ok repository)
      {asked : List Moment} {record : CacheRecord}
      (hasked : Asked plan request repository asked (.ok (some record))) :
      Ran plan request
        (asked ++ (replayEvents plan.settings record request.allFiles).map .event) (.ok ())
  | chooseFails {repository : Coordinates}
      (hlocation : Coordinates.ofLocation request.location request.branch = .ok repository)
      {mode : Mode} (hmode : modeOf plan.settings request = .ok mode)
      {asked : List Moment} (hasked : Asked plan request repository asked (.ok none))
      (record : LogRecord) (answer) (failure : Failure) :
      Ran plan request
        (asked ++ fetching repository mode record answer (.error failure))
        (.error failure)
  | analyzes {repository : Coordinates}
      (hlocation : Coordinates.ofLocation request.location request.branch = .ok repository)
      {mode : Mode} (hmode : modeOf plan.settings request = .ok mode)
      {asked : List Moment} (hasked : Asked plan request repository asked (.ok none))
      (record : LogRecord) (answer) (source : SourceInfo)
      {moments : List Moment} {result : Except Failure Unit}
      (hanalyzed : Analyzed plan.settings source.repository request.allFiles
        (placeFor plan repository) moments result) :
      Ran plan request
        (asked ++ fetching repository mode record answer (.ok source) ++ moments) result

theorem ran_of_course {plan : AnalysisPlan} {request : AnalysisRequest}
    {moments : List Moment} {result : Except Failure Unit}
    (h : Course (run plan request).run moments result) :
    Ran plan request moments result := by
  rcases course_run_bind.mp h with
    ⟨_, repository, _, rfl, hread, hafter⟩ | ⟨failure, rfl, hread⟩
  · obtain ⟨rfl, hlocation⟩ := course_run_of.mp hread
    rcases course_run_bind.mp hafter with
      ⟨_, mode, _, rfl, hchosen, hask⟩ | ⟨failure, rfl, hchosen⟩
    · obtain ⟨rfl, hmode⟩ := course_run_of.mp hchosen
      rcases course_run_bind.mp hask with
        ⟨asked, remembered, _, rfl, hremembered, hrest⟩ | ⟨failure, rfl, hremembered⟩
      · have hasked := asked_of_course hremembered
        cases remembered with
        | some record =>
            obtain ⟨rfl, rfl⟩ := replayed_of_course hrest
            exact .replays hlocation.symm hasked
        | none =>
            obtain ⟨_, rfl, hreport⟩ := course_run_yield_bind.mp hrest
            obtain ⟨answer, _, rfl, hchoose⟩ := course_run_tell_bind.mp hreport
            rcases course_run_perform_bind.mp hchoose with
              ⟨source, _, rfl, hanalyze⟩ | ⟨failure, rfl, rfl⟩
            · have hran := Ran.analyzes hlocation.symm hmode.symm hasked _ answer
                source (analyzed_of_course hanalyze)
              rwa [List.append_assoc] at hran
            · exact .chooseFails hlocation.symm hmode.symm hasked _ answer failure
      · exact .lookupFails hlocation.symm (asked_of_course hremembered)
    · obtain ⟨rfl, hmode⟩ := course_run_of.mp hchosen
      exact .badMode failure hmode.symm
  · obtain ⟨rfl, hlocation⟩ := course_run_of.mp hread
    exact .badLocation failure hlocation.symm

/-- The end of a run, which a failure makes one with an event that says so. -/
inductive Finished (stage : List Moment → Except Failure Unit → Prop) :
    List Moment → Prop where
  | succeeds {moments : List Moment} (hstage : stage moments (.ok ())) :
      Finished stage moments
  | fails {moments : List Moment} {failure : Failure}
      (hstage : stage moments (.error failure)) (record : LogRecord) (answer) :
      Finished stage
        (moments ++
          [.action (.report record) answer, .event (.error (shownFailure failure))])

theorem finished_of_course {subject : String} {stage : Stage Unit}
    {moments : List Moment} {value : Unit}
    (h : Course (concluding subject stage) moments value) :
    Finished (Course stage.run) moments := by
  obtain ⟨first, result, last, rfl, hstage, hrest⟩ := course_bind.mp h
  cases result with
  | ok _ =>
      obtain ⟨rfl, _⟩ := course_pure.mp hrest
      rw [List.append_nil]
      exact .succeeds hstage
  | error failure =>
      obtain ⟨_, _, _, rfl, htell, hyield⟩ := course_bind.mp hrest
      obtain ⟨answer, rfl⟩ := course_tell.mp htell
      obtain rfl := course_yield.mp hyield
      exact .fails hstage _ answer

theorem Finished.imp {stage other : List Moment → Except Failure Unit → Prop}
    (himp : ∀ {moments result}, stage moments result → other moments result)
    {moments : List Moment} (h : Finished stage moments) : Finished other moments := by
  cases h with
  | succeeds hstage => exact .succeeds (himp hstage)
  | fails hstage record answer => exact .fails (himp hstage) record answer

theorem finished_of_analyze {plan : AnalysisPlan} {request : AnalysisRequest}
    {moments : List Moment} {value : Unit}
    (h : Course (analyze plan request) moments value) :
    Finished (Ran plan request) moments :=
  (finished_of_course h).imp ran_of_course

/-- What the analysis of a folder can come to once the folder is found. -/
inductive Scanned (plan : AnalysisPlan) (source : SourceInfo) (allFiles : Bool) :
    List Moment → Except Failure Unit → Prop where
  | scans {moments : List Moment} {result : Except Failure Unit}
      (hanalyzed : Analyzed plan.settings source.repository allFiles none moments result) :
      Scanned plan source allFiles
        (.event (.status ("Scanning " ++ source.root ++ "...")) :: moments) result

/-- What the analysis of a folder can come to. -/
inductive FolderRan (plan : AnalysisPlan) (path : String) (allFiles : Bool) :
    List Moment → Prop where
  | chooseFails (failure : Failure) (record : LogRecord) (answer) :
      FolderRan plan path allFiles
        [.action (.choose (.folder path)) (.error failure),
          .action (.report record) answer, .event (.error (shownLocalFailure failure))]
  | chooses (source : SourceInfo) {moments : List Moment}
      (hfinished : Finished (Scanned plan source allFiles) moments) :
      FolderRan plan path allFiles
        (.action (.choose (.folder path)) (.ok source) :: moments)

theorem folderRan_of_course {plan : AnalysisPlan} {path : String} {allFiles : Bool}
    {moments : List Moment} {value : Unit}
    (h : Course (analyzeFolder plan path allFiles) moments value) :
    FolderRan plan path allFiles moments := by
  obtain ⟨_, answer, _, rfl, hask, hrest⟩ := course_bind.mp h
  obtain rfl := course_ask.mp hask
  rcases answer with failure | source
  · obtain ⟨_, _, _, rfl, htell, hyield⟩ := course_bind.mp hrest
    obtain ⟨answer, rfl⟩ := course_tell.mp htell
    obtain rfl := course_yield.mp hyield
    exact .chooseFails failure _ answer
  · refine .chooses source ((finished_of_course hrest).imp ?_)
    intro moments result hstage
    obtain ⟨_, rfl, hanalyze⟩ := course_run_yield_bind.mp hstage
    exact .scans (analyzed_of_course hanalyze)

end AnalysisPlan

end RepoAtlas
