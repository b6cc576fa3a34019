import RepoAtlas.Proofs.Cache.Survival
import RepoAtlas.Proofs.Pipeline.Disconnect
import RepoAtlas.Proofs.Pipeline.Stream

/-!
What a run leaves behind in a world: each answer is one that the world gives, and
between asking the cache and storing the result nothing touches the cache.
-/
namespace RepoAtlas

namespace Script

variable {α σ : Type} {h : Handler σ}

theorem stateAfter_append (state : σ) (first last : List Moment) :
    stateAfter h state (first ++ last) = stateAfter h (stateAfter h state first) last := by
  induction first generalizing state with
  | nil => rfl
  | cons moment rest ih => cases moment <;> exact ih _

theorem stateAfter_events (state : σ) (events : List Event) :
    stateAfter h state (events.map .event) = state := by
  induction events with
  | nil => rfl
  | cons e rest ih => exact ih

/-- A whole run leaves the world that its moments leave. -/
theorem drain_state (s : Script α) (state : σ) :
    (drain h s state).state = stateAfter h state (history h s state) := by
  induction s generalizing state with
  | done value => rfl
  | emit event next ih => exact ih state
  | act action next ih => exact ih _ _

/-- An action is answered as the world answers it in which the moments before it end. -/
theorem answer_of_history {s : Script α} {state : σ} {first last : List Moment} {action : Action}
    {answer : Answer action} (heq : history h s state = first ++ .action action answer :: last) :
    answer = (h.perform action (stateAfter h state first)).1 := by
  induction s generalizing state first with
  | done value => simp [history] at heq
  | emit event next ih =>
      rw [history] at heq
      cases first with
      | nil => cases (List.cons.inj heq).1
      | cons moment first =>
          obtain ⟨rfl, hrest⟩ := List.cons.inj heq
          have hanswer := ih hrest
          exact hanswer
  | act asked next ih =>
      rw [history] at heq
      cases first with
      | nil =>
          cases (List.cons.inj heq).1
          rfl
      | cons moment first =>
          obtain ⟨rfl, hrest⟩ := List.cons.inj heq
          have hanswer := ih _ hrest
          exact hanswer

theorem answer_of_mem_history {s : Script α} {state : σ} {action : Action} {answer : Answer action}
    (hmem : .action action answer ∈ history h s state) :
    ∃ reached, answer = (h.perform action reached).1 := by
  obtain ⟨first, last, heq⟩ := List.append_of_mem hmem
  exact ⟨_, answer_of_history heq⟩

end Script

namespace Moment

/-- Whether a moment asks nothing of the cache. -/
def SparesCache : Moment → Prop
  | action (.lookup ..) _ | action (.store ..) _ => False
  | _ => True

/-- Whether a moment is one of a visit to the files of an open source. -/
def IsVisit : Moment → Prop
  | action .list _ | action (.read _) _ | action (.examine ..) _ | action (.pause _) _ => True
  | action (.report _) _ | event _ => True
  | _ => False

theorem IsVisit.sparesCache {moment : Moment} (h : moment.IsVisit) : moment.SparesCache := by
  cases moment with
  | event e => trivial
  | action action answer => cases action <;> first | exact h | trivial

/-- Whether an answer shows some holdings, in a source that is one of a repository. -/
def Shows (w : Holdings) (repository : Coordinates) : Moment → Prop
  | action (.choose _) answer => ∀ source, answer = .ok source → source.repository = repository
  | action .list answer => answer = .ok w.listed
  | action (.read path) answer =>
    match w.text? path with
    | some text => answer = .ok text
    | none => ∃ shown reason, answer = .error (.unreadableFile shown reason)
  | _ => True

end Moment

namespace AnalysisPlan

theorem Visited.isVisit {path : String} {moments : List Moment}
    {result : Except Failure (Option (Option Entity))} (h : Visited path moments result) :
    ∀ moment ∈ moments, moment.IsVisit := by
  cases h with
  | unreadable shown reason record answer => simp [Moment.IsVisit]
  | fails failure hfailure => simp [Moment.IsVisit]
  | reads content hexamined => cases hexamined <;> simp [Moment.IsVisit]

theorem isVisit_pauseAt (s : AnalysisSettings) (index : Nat) :
    ∀ moment ∈ pauseAt s index, moment.IsVisit := by
  unfold pauseAt
  split <;> simp [Moment.IsVisit]

theorem Walked.isVisit {s : AnalysisSettings} {total index : Nat} {files : List FileRecord}
    {moments : List Moment} {result : Except Failure Tally}
    (h : Walked s total index files moments result) : ∀ moment ∈ moments, moment.IsVisit := by
  induction h with
  | nil index => simp
  | pauseFails file rest failure hpauses => simp [Moment.IsVisit]
  | visitFails rest hvisited =>
      rw [List.forall_mem_append, List.forall_mem_cons]
      exact ⟨isVisit_pauseAt s _, trivial, hvisited.isVisit⟩
  | cons hvisited hrest ih =>
      rw [List.forall_mem_append, List.forall_mem_cons, List.forall_mem_append]
      exact ⟨isVisit_pauseAt s _, trivial, hvisited.isVisit, ih⟩

theorem Surveyed.isVisit {s : AnalysisSettings} {repository : Coordinates} {allFiles : Bool}
    {moments : List Moment} {result : Except Failure Survey}
    (h : Surveyed s repository allFiles moments result) : ∀ moment ∈ moments, moment.IsVisit := by
  cases h with
  | listFails failure => simp [Moment.IsVisit]
  | lists listed hchosen hwalked =>
      rw [List.forall_mem_cons, List.forall_mem_cons, List.forall_mem_cons]
      exact ⟨trivial, trivial, trivial, hwalked.isVisit⟩

/-- The files of a survey are those of the listing that are not excluded. -/
theorem Surveyed.files_eq {w : Holdings} {s : AnalysisSettings} {repository : Coordinates}
    {allFiles : Bool} {moments : List Moment} {result : Except Failure Survey}
    (h : Surveyed s repository allFiles moments result) (hfit : AllFit w moments) {found : Survey}
    (hfound : result = .ok found) : found.files = keptFiles w.listed := by
  cases h with
  | listFails failure => cases hfound
  | lists listed hchosen hwalked =>
      obtain rfl : listed = w.listed := Except.ok.inj (allFit_cons.mp hfit).1
      next tally =>
      cases tally with
      | error failure => cases hfound
      | ok tally =>
          obtain rfl := Except.ok.inj hfound
          rfl

end AnalysisPlan

namespace WorldLaws

variable {σ : Type} {laws : WorldLaws σ}

/-- Moments that spare the cache leave its folder as it is. -/
theorem folder_stateAfter {moments : List Moment} (h : ∀ moment ∈ moments, moment.SparesCache)
    (w : World σ) : (Script.stateAfter laws.handler w moments).folder = w.folder := by
  induction moments generalizing w with
  | nil => rfl
  | cons moment rest ih =>
      obtain ⟨hmoment, hrest⟩ := List.forall_mem_cons.mp h
      cases moment with
      | event e => exact ih hrest w
      | action action answer =>
          refine (ih hrest _).trans ?_
          cases action <;> first | exact absurd hmoment id | rfl

/-- In a visit of files that are shown and looked into as usual, all answers fit. -/
theorem fits_of_isVisit {w : Holdings} {repository : Coordinates}
    (hexamine : ∀ path text, laws.examine path text = .ok <$> Entity.ofFile path text)
    (hfind : ∀ path text, w.find? path text = (Entity.ofFile path text).value)
    {moment : Moment} (hvisit : moment.IsVisit) (hshows : moment.Shows w repository)
    (hanswer : ∀ action answer, moment = .action action answer →
      ∃ state, answer = (laws.perform action state).1) : moment.Fits w := by
  cases moment with
  | event e => trivial
  | action action answer =>
      obtain ⟨state, rfl⟩ := hanswer action answer rfl
      cases action with
      | list => exact hshows
      | read path => exact hshows
      | examine path text =>
          simp only [Moment.Fits, perform, hexamine, hfind]
          cases hfound : (Entity.ofFile path text).value with
          | none => exact .inl (congrArg Except.ok hfound)
          | some e => exact congrArg Except.ok hfound
      | pause delay => rfl
      | report record => trivial
      | _ => exact absurd hvisit id

end WorldLaws

namespace AnalysisPlan

open Stance

/-- A stage that fails ends no run with a result of its own. -/
theorem StandsBy.times_completes {cached : Bool} {moments : List Moment} {failure : Failure}
    (h : StandsBy cached .fresh moments (.error failure)) : times .completes moments = 0 := by
  obtain ⟨q, hrun, hfail⟩ := h
  have htally := tally_run hrun (by decide : IsCounted .completes)
  rcases hfail with rfl | rfl | rfl <;> exact (Nat.zero_add _).symm.trans htally.symm

theorem Asked.times_replays {plan : AnalysisPlan} {request : AnalysisRequest}
    {repository : Coordinates} {asked : List Moment} {record : CacheRecord}
    (hasked : Asked plan request repository asked (.ok (some record))) :
    times .completes
      (asked ++ (replayEvents plan.settings record request.allFiles).map .event) = 0 := by
  have hrun : Stance.run plan.cached .fresh
      (asked ++ (replayEvents plan.settings record request.allFiles).map .event) =
        some .replayed :=
    (run_append_of_eq hasked.stance _).trans (replayEvents_stance _ _ _)
  have htally := tally_run hrun (by decide : IsCounted .completes)
  exact (Nat.zero_add _).symm.trans htally.symm

theorem OnlyReports.sparesCache {moments : List Moment} (h : OnlyReports moments) :
    ∀ moment ∈ moments, moment.SparesCache := by
  intro moment hmem
  obtain ⟨record, answer, rfl⟩ := h moment hmem
  trivial

/--
The course of a request whose result is passed to the cache: the cache is asked, the
files of a source are visited, and what is found is stored. The run comes to what
storing comes to.
-/
inductive Passes (plan : AnalysisPlan) (request : AnalysisRequest) (repository : Coordinates) :
    List Moment → Except Failure Unit → Prop where
  | passes {asked : List Moment} (hasked : Asked plan request repository asked (.ok none))
      {visit : List Moment} (hspares : ∀ moment ∈ visit, moment.SparesCache) {mode : Mode}
      {source : SourceInfo}
      (hsource : .action (.choose (.hosted repository mode)) (.ok source) ∈ visit)
      {inner : List Moment} (hinner : ∀ moment ∈ inner, moment ∈ visit) {found : Survey}
      (hsurveyed : Surveyed plan.settings source.repository request.allFiles inner (.ok found))
      (result : Except Failure Unit) {last : List Moment}
      (hlast : ∀ moment ∈ last, moment.SparesCache) :
      Passes plan request repository
        (asked ++ visit ++ .action (.store (cacheLocation repository) source.repository.branch
          (resolve found.tally.entities) found.files source.repository) result :: last)
        result

/-- After the source is closed there are reports, the store, and what spares the cache. -/
theorem Concluded.stores {location : String} {repository : Coordinates} {found : Survey}
    {moments : List Moment} {result : Except Failure Unit}
    (h : Concluded (some location) repository found moments result) :
    ∃ reports last, OnlyReports reports ∧ (∀ moment ∈ last, moment.SparesCache) ∧
      moments = reports ++ .action (.store location repository.branch
        (resolve found.tally.entities) found.files repository) result :: last := by
  cases h with
  | storeFails _ hplace hreports failure =>
      obtain rfl := Option.some.inj hplace
      exact ⟨_, [], hreports, by simp, rfl⟩
  | completes hreports record answer =>
      refine ⟨_, _, hreports, ?_, by rw [storedAt, List.append_assoc]; rfl⟩
      simp [Moment.SparesCache]

theorem passes_of_concluded {plan : AnalysisPlan} (hcached : plan.cached = true)
    {request : AnalysisRequest} {repository : Coordinates} {asked : List Moment}
    (hasked : Asked plan request repository asked (.ok none)) {mode : Mode}
    (record : LogRecord) (answer) {source : SourceInfo} {inner : List Moment} {found : Survey}
    (hsurveyed : Surveyed plan.settings source.repository request.allFiles inner (.ok found))
    {moments : List Moment} {result : Except Failure Unit}
    (hconcluded : Concluded (placeFor plan repository) source.repository found moments result) :
    Passes plan request repository
      (asked ++ fetching repository mode record answer (.ok source) ++
        (.action .openSource (.ok ()) :: inner ++ .action .closeSource (.ok ()) :: moments))
      result := by
  rw [placeFor, if_pos hcached] at hconcluded
  obtain ⟨reports, last, hreports, hlast, rfl⟩ := hconcluded.stores
  have hspares : ∀ moment ∈ fetching repository mode record answer (.ok source) ++
      (.action .openSource (.ok ()) :: inner ++ .action .closeSource (.ok ()) :: reports),
      moment.SparesCache := by
    simp only [fetching, List.forall_mem_append, List.forall_mem_cons]
    exact ⟨⟨trivial, trivial, trivial, by simp⟩,
      ⟨trivial, fun moment hmem => (hsurveyed.isVisit moment hmem).sparesCache⟩,
      trivial, hreports.sparesCache⟩
  have hsource : .action (.choose (.hosted repository mode)) (.ok source) ∈
      fetching repository mode record answer (.ok source) ++
        (.action .openSource (.ok ()) :: inner ++ .action .closeSource (.ok ()) :: reports) := by
    simp [fetching]
  have hpasses := Passes.passes hasked hspares hsource
    (fun moment hmem => by simp [hmem]) hsurveyed result hlast
  simpa only [List.append_assoc, List.cons_append] using hpasses

/-- A run that is completed has passed its result to the cache. -/
theorem Ran.passes_of_completes {plan : AnalysisPlan} (hcached : plan.cached = true)
    {request : AnalysisRequest} {moments : List Moment}
    (h : Ran plan request moments (.ok ())) (hcompletes : 0 < times .completes moments)
    {repository : Coordinates}
    (hlocation : Coordinates.ofLocation request.location request.branch = .ok repository) :
    Passes plan request repository moments (.ok ()) := by
  cases h with
  | replays hlocation' hasked =>
      rw [hasked.times_replays] at hcompletes
      exact absurd hcompletes (Nat.lt_irrefl 0)
  | analyzes hlocation' hmode hasked record answer source hanalyzed =>
      obtain rfl := Except.ok.inj (hlocation.symm.trans hlocation')
      cases hanalyzed with
      | concludes hsurveyed hconcluded =>
          exact passes_of_concluded hcached hasked record answer hsurveyed hconcluded

theorem Finished.passes_of_completes {plan : AnalysisPlan} (hcached : plan.cached = true)
    {request : AnalysisRequest} {moments : List Moment} (h : Finished (Ran plan request) moments)
    (hcompletes : 0 < times .completes moments) {repository : Coordinates}
    (hlocation : Coordinates.ofLocation request.location request.branch = .ok repository) :
    Passes plan request repository moments (.ok ()) := by
  cases h with
  | succeeds hran => exact hran.passes_of_completes hcached hcompletes hlocation
  | fails hran record answer =>
      rw [times_append, hran.stance.times_completes] at hcompletes
      simp [times, Moment.deed] at hcompletes

end AnalysisPlan

namespace WorldLaws

variable {σ : Type} {laws : WorldLaws σ}

/-- The folder of the cache after it has been asked for a repository, if it is to be asked. -/
def askedFolder (laws : WorldLaws σ) (request : AnalysisRequest) (repository : Coordinates)
    (folder : CacheFolder) : CacheFolder :=
  if request.useCache then
    (laws.cache.get laws.context.now (AnalysisPlan.cacheLocation repository) repository.branch
      folder).folder
  else folder

theorem folder_of_asked {plan : AnalysisPlan} (hcached : plan.cached = true)
    {request : AnalysisRequest} {repository : Coordinates} {asked : List Moment}
    {result : Except Failure (Option CacheRecord)}
    (h : AnalysisPlan.Asked plan request repository asked result) (world : World σ) :
    (Script.stateAfter laws.handler world asked).folder =
      laws.askedFolder request repository world.folder := by
  cases h with
  | skips hskips =>
      have huse : request.useCache = false := by simpa [hcached] using hskips
      rw [askedFolder, huse]
      rfl
  | asks hasks =>
      have huse : request.useCache = true := by simpa [hcached] using hasks
      rw [askedFolder, huse]
      rfl

end WorldLaws

end RepoAtlas
