import RepoAtlas.Proofs.Pipeline.Stages

/-!
Every run ends with exactly one event that says how, whichever of its actions
fail, and lists files before it says anything about one.
-/
namespace RepoAtlas

namespace Event

def isListing : Event → Bool
  | files .. => true
  | _ => false

/-- Whether an event is about one file. -/
def isAboutFile : Event → Bool
  | progress .. | component _ => true
  | _ => false

end Event

/-- What holds of the events of a run that has ended: the last one and no other
says how it ended, files are listed at most once, and before any of them is
announced or found to hold an entity. -/
structure ProperlyEnded (events : List Event) : Prop where
  ends_once : ∃ before last, events = before ++ [last] ∧ last.isTerminal = true ∧
    ∀ e ∈ before, e.isTerminal = false
  lists_once : events.countP Event.isListing ≤ 1
  lists_first : ∀ before e after, events = before ++ e :: after →
    e.isAboutFile = true → ∃ listing ∈ before, listing.isListing = true

/-- How far the events of a run have come. -/
inductive Phase where
  | preparing
  | visiting
  | ended
deriving DecidableEq

namespace Phase

/-- The phase after an event, if the event may come in this phase. -/
def step : Phase → Event → Option Phase
  | ended, _ => none
  | p, .status _ => some p
  | preparing, .files .. => some visiting
  | visiting, .progress .. => some visiting
  | visiting, .component _ => some visiting
  | _, .complete .. => some ended
  | _, .error _ => some ended
  | _, _ => none

/-- The phase after some events. -/
def run : Phase → List Event → Option Phase
  | p, [] => some p
  | p, e :: rest => (p.step e).bind fun q => run q rest

theorem run_append (p : Phase) (first last : List Event) :
    p.run (first ++ last) = (p.run first).bind fun q => q.run last := by
  induction first generalizing p with
  | nil => rfl
  | cons e rest ih =>
      simp only [List.cons_append, run, Option.bind_assoc]
      congr 1
      funext q
      exact ih q

theorem run_append_of_eq {p q : Phase} {first : List Event} (h : p.run first = some q)
    (last : List Event) : p.run (first ++ last) = q.run last := by
  rw [run_append, h, Option.bind_some]

theorem run_ended {events : List Event} {q : Phase} (h : ended.run events = some q) :
    events = [] := by
  cases events with
  | nil => rfl
  | cons e rest => simp [run, step] at h

/-- Exactly the events that say how a run ended lead to its end. -/
theorem isTerminal_of_step {p q : Phase} {e : Event} (h : p.step e = some q) :
    e.isTerminal = true ↔ q = ended := by
  cases p <;> cases e <;> simp_all [step, Event.isTerminal] <;> simp [← h]

/-- How many more times files may be listed. -/
def listingsLeft : Phase → Nat
  | preparing => 1
  | _ => 0

theorem listingsLeft_of_step {p q : Phase} {e : Event} (h : p.step e = some q) :
    q.listingsLeft + (if e.isListing then 1 else 0) ≤ p.listingsLeft := by
  cases p <;> cases e <;> simp_all [step, Event.isListing] <;>
    simp [← h, listingsLeft]

/-- A run from an open phase to the end has just ended. -/
theorem ends_once {p : Phase} {events : List Event} (hp : p ≠ ended)
    (h : p.run events = some ended) :
    ∃ before last, events = before ++ [last] ∧ last.isTerminal = true ∧
      ∀ e ∈ before, e.isTerminal = false := by
  induction events generalizing p with
  | nil => exact absurd (Option.some.inj h) hp
  | cons e rest ih =>
      obtain ⟨q, hstep, hrest⟩ := Option.bind_eq_some_iff.mp h
      by_cases hq : q = ended
      · subst hq
        obtain rfl := run_ended hrest
        exact ⟨[], e, rfl, (isTerminal_of_step hstep).mpr rfl, by simp⟩
      · obtain ⟨before, last, rfl, hlast, hbefore⟩ := ih hq hrest
        refine ⟨e :: before, last, rfl, hlast, ?_⟩
        intro other hother
        rcases List.mem_cons.mp hother with rfl | hother
        · exact Bool.eq_false_iff.mpr fun hterminal =>
            hq ((isTerminal_of_step hstep).mp hterminal)
        · exact hbefore other hother

theorem countP_isListing_le {p q : Phase} {events : List Event}
    (h : p.run events = some q) :
    events.countP Event.isListing ≤ p.listingsLeft := by
  induction events generalizing p with
  | nil => simp
  | cons e rest ih =>
      obtain ⟨next, hstep, hrest⟩ := Option.bind_eq_some_iff.mp h
      have hleft := listingsLeft_of_step hstep
      have hcount := ih hrest
      rw [List.countP_cons]
      omega

theorem exists_isListing {events : List Event}
    (h : preparing.run events = some visiting) :
    ∃ listing ∈ events, listing.isListing = true := by
  induction events with
  | nil => simp [run] at h
  | cons e rest ih =>
      obtain ⟨next, hstep, hrest⟩ := Option.bind_eq_some_iff.mp h
      cases e with
      | files records repository => exact ⟨_, List.mem_cons_self, rfl⟩
      | status message =>
          obtain rfl : preparing = next := Option.some.inj hstep
          obtain ⟨listing, hmem, hlisting⟩ := ih hrest
          exact ⟨listing, List.mem_cons_of_mem _ hmem, hlisting⟩
      | complete entities totalFiles analyzedFiles fromCache =>
          obtain rfl : ended = next := Option.some.inj hstep
          obtain rfl := run_ended hrest
          cases hrest
      | error message =>
          obtain rfl : ended = next := Option.some.inj hstep
          obtain rfl := run_ended hrest
          cases hrest
      | _ => cases hstep

/-- A run through the phases to the end has ended properly. -/
theorem properlyEnded {events : List Event} (h : preparing.run events = some ended) :
    ProperlyEnded events where
  ends_once := ends_once (by decide) h
  lists_once := countP_isListing_le h
  lists_first := by
    rintro before e after rfl habout
    rw [run_append] at h
    obtain ⟨p, hbefore, hrest⟩ := Option.bind_eq_some_iff.mp h
    obtain ⟨q, hstep, _⟩ := Option.bind_eq_some_iff.mp hrest
    have hvisiting : p = visiting := by
      cases p <;> cases e <;> simp_all [step, Event.isAboutFile]
    exact exists_isListing (hvisiting ▸ hbefore)

end Phase

namespace AnalysisPlan

open Phase

theorem Visited.phase {path : String} {moments : List Moment}
    {result : Except Failure (Option (Option Entity))}
    (h : Visited path moments result) :
    visiting.run (eventsOf moments) = some visiting := by
  cases h with
  | unreadable => rfl
  | fails => rfl
  | reads content hexamined => cases hexamined <;> rfl

@[simp]
theorem eventsOf_pauseAt (s : AnalysisSettings) (index : Nat) :
    eventsOf (pauseAt s index) = [] := by
  unfold pauseAt
  split <;> rfl

theorem Walked.phase {s : AnalysisSettings} {total index : Nat}
    {files : List FileRecord} {moments : List Moment} {result : Except Failure Tally}
    (h : Walked s total index files moments result) :
    visiting.run (eventsOf moments) = some visiting := by
  induction h with
  | nil => rfl
  | pauseFails => rfl
  | visitFails rest hvisited =>
      rw [eventsOf_append, eventsOf_pauseAt]
      exact hvisited.phase
  | cons hvisited _ ih =>
      rw [eventsOf_append, eventsOf_pauseAt, List.nil_append, eventsOf_event,
        eventsOf_append]
      exact (run_append_of_eq hvisited.phase _).trans ih

/-- A survey leaves the run open, and past the listing if it succeeds. -/
theorem Surveyed.phase {s : AnalysisSettings} {repository : Coordinates}
    {allFiles : Bool} {moments : List Moment} {result : Except Failure Survey}
    (h : Surveyed s repository allFiles moments result) :
    ∃ p, preparing.run (eventsOf moments) = some p ∧ p ≠ ended ∧
      ∀ found, result = .ok found → p = visiting := by
  cases h with
  | listFails failure =>
      exact ⟨preparing, rfl, by decide, fun _ heq => by cases heq⟩
  | lists listed hchosen hwalked =>
      exact ⟨visiting, hwalked.phase, by decide, fun _ _ => rfl⟩

/-- Some events of a stage lead from a phase to the end of the run exactly if
the stage succeeds, and leave the run open if it fails. -/
def EndsIfOk (p : Phase) (events : List Event) (result : Except Failure Unit) : Prop :=
  ∃ q, p.run events = some q ∧ (q = ended ↔ result = .ok ())

theorem EndsIfOk.after {p q : Phase} {first last : List Event}
    {result : Except Failure Unit} (hfirst : p.run first = some q)
    (h : EndsIfOk q last result) : EndsIfOk p (first ++ last) result := by
  obtain ⟨r, hlast, hended⟩ := h
  exact ⟨r, (run_append_of_eq hfirst last).trans hlast, hended⟩

theorem eventsOf_storedAt (place : Option String) (repository : Coordinates)
    (found : Survey) : eventsOf (storedAt place repository found) = [] := by
  cases place <;> rfl

theorem Concluded.phase {place : Option String} {repository : Coordinates}
    {found : Survey} {moments : List Moment} {result : Except Failure Unit}
    (h : Concluded place repository found moments result) :
    EndsIfOk visiting (eventsOf moments) result := by
  cases h with
  | storeFails location hplace hreports failure =>
      rw [eventsOf_append, hreports.eventsOf]
      exact ⟨visiting, rfl, by simp⟩
  | completes hreports record answer =>
      rw [eventsOf_append, eventsOf_append, hreports.eventsOf, eventsOf_storedAt]
      exact ⟨ended, rfl, by simp⟩

theorem Analyzed.phase {s : AnalysisSettings} {repository : Coordinates}
    {allFiles : Bool} {place : Option String} {moments : List Moment}
    {result : Except Failure Unit}
    (h : Analyzed s repository allFiles place moments result) :
    EndsIfOk preparing (eventsOf moments) result := by
  cases h with
  | openFails failure => exact ⟨preparing, rfl, by simp⟩
  | surveyFails hsurveyed closing failure hfailure =>
      obtain ⟨p, hrun, hopen, _⟩ := hsurveyed.phase
      rw [List.cons_append, eventsOf_action, eventsOf_append, eventsOf_action,
        eventsOf_nil, List.append_nil]
      exact ⟨p, hrun, by simp [hopen]⟩
  | concludes hsurveyed hconcluded =>
      obtain ⟨p, hrun, _, hvisiting⟩ := hsurveyed.phase
      obtain rfl := hvisiting _ rfl
      rw [List.cons_append, eventsOf_action, eventsOf_append, eventsOf_action]
      exact hconcluded.phase.after hrun

theorem visiting_run_components (entities : List Entity) :
    visiting.run (entities.map .component) = some visiting := by
  induction entities with
  | nil => rfl
  | cons entity rest ih => exact ih

theorem replayEvents_phase (s : AnalysisSettings) (record : CacheRecord)
    (allFiles : Bool) :
    preparing.run (replayEvents s record allFiles) = some ended := by
  rw [replayEvents, List.append_assoc, List.cons_append, List.cons_append,
    List.nil_append]
  exact run_append_of_eq (visiting_run_components record.entities) _

theorem eventsOf_map_event (events : List Event) :
    eventsOf (events.map .event) = events := by
  induction events with
  | nil => rfl
  | cons e rest ih => exact congrArg (e :: ·) ih

theorem Asked.phase {plan : AnalysisPlan} {request : AnalysisRequest}
    {repository : Coordinates} {moments : List Moment}
    {result : Except Failure (Option CacheRecord)}
    (h : Asked plan request repository moments result) :
    preparing.run (eventsOf moments) = some preparing := by
  cases h <;> rfl

theorem Ran.phase {plan : AnalysisPlan} {request : AnalysisRequest}
    {moments : List Moment} {result : Except Failure Unit}
    (h : Ran plan request moments result) :
    EndsIfOk preparing (eventsOf moments) result := by
  cases h with
  | badLocation failure hlocation => exact ⟨preparing, rfl, by simp⟩
  | badMode failure hmode => exact ⟨preparing, rfl, by simp⟩
  | lookupFails hlocation hasked => exact ⟨preparing, hasked.phase, by simp⟩
  | replays hlocation hasked =>
      rw [eventsOf_append, eventsOf_map_event]
      exact .after hasked.phase ⟨ended, replayEvents_phase _ _ _, by simp⟩
  | chooseFails hlocation hmode hasked record answer failure =>
      rw [eventsOf_append]
      exact .after hasked.phase ⟨preparing, rfl, by simp⟩
  | analyzes hlocation hmode hasked record answer source hanalyzed =>
      rw [List.append_assoc, eventsOf_append, eventsOf_append]
      exact .after hasked.phase (.after (q := preparing) rfl hanalyzed.phase)

theorem Finished.phase {stage : List Moment → Except Failure Unit → Prop}
    (hstage : ∀ {moments result}, stage moments result →
      EndsIfOk preparing (eventsOf moments) result)
    {moments : List Moment} (h : Finished stage moments) :
    preparing.run (eventsOf moments) = some ended := by
  cases h with
  | succeeds hok =>
      obtain ⟨p, hrun, hended⟩ := hstage hok
      rw [hrun, hended.mpr rfl]
  | fails herror record answer =>
      obtain ⟨p, hrun, hended⟩ := hstage herror
      rw [eventsOf_append, run_append_of_eq hrun]
      cases p with
      | ended => cases hended.mp rfl
      | _ => rfl

theorem Scanned.phase {plan : AnalysisPlan} {source : SourceInfo} {allFiles : Bool}
    {moments : List Moment} {result : Except Failure Unit}
    (h : Scanned plan source allFiles moments result) :
    EndsIfOk preparing (eventsOf moments) result := by
  obtain ⟨hanalyzed⟩ := h
  have hscanning : preparing.run [.status ("Scanning " ++ source.root ++ "...")] =
      some preparing := rfl
  exact hanalyzed.phase.after hscanning

theorem FolderRan.phase {plan : AnalysisPlan} {path : String} {allFiles : Bool}
    {moments : List Moment} (h : FolderRan plan path allFiles moments) :
    preparing.run (eventsOf moments) = some ended := by
  cases h with
  | chooseFails => rfl
  | chooses source hfinished => exact hfinished.phase Scanned.phase

end AnalysisPlan

open AnalysisPlan in
/-- However a world answers, the analysis of a repository or of a folder ends
properly: with one event that says how, after at most one listing of files. -/
theorem drained_runs_end_properly {σ : Type} (h : Handler σ) (state : σ)
    (plan : AnalysisPlan) (request : AnalysisRequest) (path : String) (allFiles : Bool) :
    ProperlyEnded (Script.drain h (plan.analyze request) state).events ∧
      ProperlyEnded (Script.drain h (plan.analyzeFolder path allFiles) state).events := by
  constructor
  · obtain ⟨_, hcourse⟩ := Script.course_history h (plan.analyze request) state
    rw [Script.drain_events]
    exact Phase.properlyEnded ((finished_of_analyze hcourse).phase Ran.phase)
  · obtain ⟨_, hcourse⟩ :=
      Script.course_history h (plan.analyzeFolder path allFiles) state
    rw [Script.drain_events]
    exact Phase.properlyEnded (folderRan_of_course hcourse).phase

end RepoAtlas
