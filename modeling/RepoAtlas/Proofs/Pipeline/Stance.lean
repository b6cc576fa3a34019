import RepoAtlas.Proofs.Pipeline.Ending

/-!
What a run does besides handing out events: it opens and closes its source, and
it stores its result. Where a run stands decides what it may do next, and tells
how often it has done each of these things.
-/
namespace RepoAtlas

/-- What one moment of a run does, as far as it matters for the source and the cache. -/
inductive Deed where
  /-- The source has been opened. -/
  | opens
  | closes
  /-- Files are listed, read or looked into, or there is a pause. -/
  | visits
  /-- A record has been found in the cache. -/
  | finds
  | stores
  /-- The result could not be stored, and that was passed on. -/
  | losesStore
  /-- Something is asked or reported that changes neither the source nor the cache. -/
  | asks
  /-- An event is handed out that does not end the run. -/
  | shows
  /-- The run ends with a result of its own. -/
  | completes
  /-- The run ends with a result of the cache. -/
  | replays
  | fails
deriving DecidableEq, Repr

namespace Moment

def deed : Moment → Deed
  | .action .openSource (.ok _) => .opens
  | .action .closeSource _ => .closes
  | .action .list _ | .action (.read _) _ | .action (.examine ..) _ | .action (.pause _) _ =>
    .visits
  | .action (.lookup ..) (.ok (some _)) => .finds
  | .action (.store ..) (.ok _) => .stores
  | .action (.store ..) (.error _) => .losesStore
  | .event (.complete _ _ _ false) => .completes
  | .event (.complete _ _ _ true) => .replays
  | .event (.error _) => .fails
  | .event _ => .shows
  | _ => .asks

end Moment

/-- How often some moments do a deed. -/
def times (d : Deed) (moments : List Moment) : Nat :=
  (moments.map Moment.deed).count d

theorem times_append (d : Deed) (first last : List Moment) :
    times d (first ++ last) = times d first + times d last := by
  rw [times, List.map_append, List.count_append]
  rfl

theorem times_cons (d : Deed) (moment : Moment) (rest : List Moment) :
    times d (moment :: rest) = times d rest + if moment.deed = d then 1 else 0 := by
  rw [times, List.map_cons, List.count_cons]
  simp [times]

/-- Where a run stands. -/
inductive Stance where
  | fresh
  | visiting
  | closed
  | stored
  /-- Storing has failed. -/
  | unstored
  | replaying
  | completed
  | replayed
  /-- A failure has been shown; whether the source was opened, and whether storing failed. -/
  | broken (opened lost : Bool)
deriving DecidableEq, Repr

namespace Stance

/-- Where a run stands after a deed, if it may do it. Only a cached run stores. -/
def step (cached : Bool) : Stance → Deed → Option Stance
  | fresh, .asks | fresh, .shows => some fresh
  | fresh, .opens => some visiting
  | fresh, .finds => some replaying
  | fresh, .fails => some (broken false false)
  | visiting, .asks | visiting, .shows | visiting, .visits => some visiting
  | visiting, .closes => some closed
  | closed, .asks => some closed
  | closed, .stores => if cached then some stored else none
  | closed, .losesStore => if cached then some unstored else none
  | closed, .completes => if cached then none else some completed
  | closed, .fails => some (broken true false)
  | stored, .asks => some stored
  | stored, .completes => some completed
  | unstored, .asks => some unstored
  | unstored, .fails => some (broken true true)
  | replaying, .shows => some replaying
  | replaying, .replays => some replayed
  | _, _ => none

/-- Where a run stands after some moments. -/
def run (cached : Bool) : Stance → List Moment → Option Stance
  | p, [] => some p
  | p, moment :: rest => (p.step cached moment.deed).bind fun q => run cached q rest

/-- Whether a run has ended. -/
def isFinal : Stance → Bool
  | completed | replayed | broken .. => true
  | _ => false

/-- How often a run that stands there has done a deed of a kind that is counted. -/
def tally (cached : Bool) : Stance → Deed → Nat
  | visiting, .opens => 1
  | closed, .opens | closed, .closes => 1
  | stored, .opens | stored, .closes => 1
  | stored, .stores => cached.toNat
  | unstored, .opens | unstored, .closes => 1
  | unstored, .losesStore => cached.toNat
  | completed, .opens | completed, .closes | completed, .completes => 1
  | completed, .stores => cached.toNat
  | replaying, .finds => 1
  | replayed, .finds | replayed, .replays => 1
  | broken opened _, .opens | broken opened _, .closes => opened.toNat
  | broken _ lost, .losesStore => (lost && cached).toNat
  | broken .., .fails => 1
  | _, _ => 0

/-- Whether deeds of a kind are counted: those that are done at most once. -/
def IsCounted (d : Deed) : Prop :=
  d ≠ .visits ∧ d ≠ .asks ∧ d ≠ .shows

instance (d : Deed) : Decidable (IsCounted d) :=
  inferInstanceAs (Decidable (_ ∧ _ ∧ _))

theorem tally_step {cached : Bool} {p q : Stance} {d : Deed} (h : p.step cached d = some q)
    {counted : Deed} (hcounted : IsCounted counted) :
    q.tally cached counted = p.tally cached counted + if d = counted then 1 else 0 := by
  obtain ⟨hvisits, hasks, hshows⟩ := hcounted
  -- Most deeds are not possible, or they are for any run; storing is for a cached one.
  cases p <;> cases d <;> first
    | cases h
    | cases cached <;> cases h
  all_goals
    cases counted with
    | visits => exact absurd rfl hvisits
    | asks => exact absurd rfl hasks
    | shows => exact absurd rfl hshows
    | _ => rfl

variable {cached : Bool} {p q : Stance}

theorem run_append (first last : List Moment) :
    run cached p (first ++ last) = (run cached p first).bind fun q => run cached q last := by
  induction first generalizing p with
  | nil => rfl
  | cons moment rest ih =>
      simp only [List.cons_append, run, Option.bind_assoc]
      congr 1
      funext q
      exact ih

theorem run_append_of_eq {first : List Moment} (h : run cached p first = some q)
    (last : List Moment) : run cached p (first ++ last) = run cached q last := by
  rw [run_append, h, Option.bind_some]

theorem run_cons_of_eq {moment : Moment} (h : p.step cached moment.deed = some q)
    (rest : List Moment) : run cached p (moment :: rest) = run cached q rest := by
  rw [run, h, Option.bind_some]

/-- A run has done a deed as often as it says where it stands. -/
theorem tally_run {moments : List Moment} (h : run cached p moments = some q) {d : Deed}
    (hd : IsCounted d) : q.tally cached d = p.tally cached d + times d moments := by
  induction moments generalizing p with
  | nil =>
      obtain rfl := Option.some.inj h
      rfl
  | cons moment rest ih =>
      obtain ⟨next, hstep, hrest⟩ := Option.bind_eq_some_iff.mp h
      rw [ih hrest, tally_step hstep hd, times_cons]
      omega

/-- Moments that change nothing leave a run where it stands. -/
theorem run_of_stays {moments : List Moment}
    (h : ∀ moment ∈ moments, p.step cached moment.deed = some p) :
    run cached p moments = some p := by
  induction moments with
  | nil => rfl
  | cons moment rest ih =>
      obtain ⟨hmoment, hrest⟩ := List.forall_mem_cons.mp h
      exact (run_cons_of_eq hmoment rest).trans (ih hrest)

end Stance

namespace AnalysisPlan

open Stance

variable {cached : Bool}

/-- Where a stage may fail: before the source is open, after it is closed, or in storing. -/
def MayFail (q : Stance) : Prop :=
  q = .fresh ∨ q = .closed ∨ q = .unstored

theorem Visited.stance {path : String} {moments : List Moment}
    {result : Except Failure (Option (Option Entity))} (h : Visited path moments result) :
    Stance.run cached .visiting moments = some .visiting := by
  cases h with
  | unreadable => rfl
  | fails => rfl
  | reads content hexamined => cases hexamined <;> rfl

theorem run_pauseAt (s : AnalysisSettings) (index : Nat) :
    Stance.run cached .visiting (pauseAt s index) = some .visiting := by
  unfold pauseAt
  split <;> rfl

theorem Walked.stance {s : AnalysisSettings} {total index : Nat} {files : List FileRecord}
    {moments : List Moment} {result : Except Failure Tally}
    (h : Walked s total index files moments result) :
    Stance.run cached .visiting moments = some .visiting := by
  induction h with
  | nil => rfl
  | pauseFails => rfl
  | visitFails rest hvisited =>
      rw [run_append_of_eq (run_pauseAt s _), run_cons_of_eq (q := .visiting) rfl]
      exact hvisited.stance
  | cons hvisited _ ih =>
      rw [run_append_of_eq (run_pauseAt s _), run_cons_of_eq (q := .visiting) rfl,
        run_append_of_eq hvisited.stance]
      exact ih

theorem Surveyed.stance {s : AnalysisSettings} {repository : Coordinates} {allFiles : Bool}
    {moments : List Moment} {result : Except Failure Survey}
    (h : Surveyed s repository allFiles moments result) :
    Stance.run cached .visiting moments = some .visiting := by
  cases h with
  | listFails failure => rfl
  | lists listed hchosen hwalked => exact hwalked.stance

theorem OnlyReports.stance {moments : List Moment} (h : OnlyReports moments) :
    Stance.run cached .closed moments = some .closed := by
  refine run_of_stays fun moment hmem => ?_
  obtain ⟨record, answer, rfl⟩ := h moment hmem
  rfl

/-- A stage ends the run exactly if it succeeds, and stands where it may fail otherwise. -/
def StandsBy (cached : Bool) (p : Stance) (moments : List Moment)
    (result : Except Failure Unit) : Prop :=
  ∃ q, Stance.run cached p moments = some q ∧
    match result with
    | .ok () => q = .completed ∨ q = .replayed
    | .error _ => MayFail q

theorem StandsBy.after {p q : Stance} {first last : List Moment} {result : Except Failure Unit}
    (hfirst : Stance.run cached p first = some q) (h : StandsBy cached q last result) :
    StandsBy cached p (first ++ last) result := by
  obtain ⟨r, hlast, hresult⟩ := h
  exact ⟨r, (run_append_of_eq hfirst last).trans hlast, hresult⟩

theorem Concluded.stance {place : Option String} (hplace : place.isSome = cached)
    {repository : Coordinates} {found : Survey} {moments : List Moment}
    {result : Except Failure Unit} (h : Concluded place repository found moments result) :
    StandsBy cached .closed moments result := by
  cases h with
  | storeFails location hlocation hreports failure =>
      obtain rfl : cached = true := by rw [← hplace, hlocation, Option.isSome_some]
      exact .after hreports.stance ⟨.unstored, rfl, .inr (.inr rfl)⟩
  | completes hreports record answer =>
      rw [List.append_assoc]
      refine .after hreports.stance ⟨.completed, ?_, .inl rfl⟩
      cases place <;> obtain rfl := hplace <;> rfl

theorem Analyzed.stance {s : AnalysisSettings} {repository : Coordinates} {allFiles : Bool}
    {place : Option String} (hplace : place.isSome = cached) {moments : List Moment}
    {result : Except Failure Unit} (h : Analyzed s repository allFiles place moments result) :
    StandsBy cached .fresh moments result := by
  have hopens (inner rest : List Moment)
      (hinner : Stance.run cached .visiting inner = some .visiting) :
      Stance.run cached .fresh (.action .openSource (.ok ()) :: inner ++ rest) =
        Stance.run cached .visiting rest := by
    rw [List.cons_append, run_cons_of_eq (q := .visiting) rfl, run_append_of_eq hinner]
  cases h with
  | openFails failure => exact ⟨.fresh, rfl, .inl rfl⟩
  | surveyFails hsurveyed closing failure hfailure =>
      exact ⟨.closed, hopens _ _ hsurveyed.stance, .inr (.inl rfl)⟩
  | concludes hsurveyed hconcluded =>
      obtain ⟨q, hrun, hresult⟩ := hconcluded.stance hplace
      exact ⟨q, (hopens _ _ hsurveyed.stance).trans hrun, hresult⟩

theorem replayEvents_stance (s : AnalysisSettings) (record : CacheRecord) (allFiles : Bool) :
    Stance.run cached .replaying ((replayEvents s record allFiles).map .event) =
      some .replayed := by
  have hentities : Stance.run cached .replaying
      ((record.entities.map Event.component).map Moment.event) = some .replaying := by
    refine run_of_stays fun moment hmem => ?_
    obtain ⟨event, hevent, rfl⟩ := List.mem_map.mp hmem
    obtain ⟨entity, -, rfl⟩ := List.mem_map.mp hevent
    rfl
  rw [replayEvents, List.append_assoc, List.map_append, List.map_append,
    run_append_of_eq (q := .replaying) rfl, run_append_of_eq hentities]
  rfl

theorem Asked.stance {plan : AnalysisPlan} {request : AnalysisRequest}
    {repository : Coordinates} {moments : List Moment}
    {result : Except Failure (Option CacheRecord)}
    (h : Asked plan request repository moments result) :
    Stance.run cached .fresh moments =
      some (match result with
        | .ok (some _) => .replaying
        | _ => .fresh) := by
  cases h with
  | skips hcache => rfl
  | asks hcache => rcases result with failure | _ | record <;> rfl

theorem isSome_placeFor (plan : AnalysisPlan) (repository : Coordinates) :
    (placeFor plan repository).isSome = plan.cached := by
  unfold placeFor
  split <;> simp_all

theorem Ran.stance {plan : AnalysisPlan} {request : AnalysisRequest} {moments : List Moment}
    {result : Except Failure Unit} (h : Ran plan request moments result) :
    StandsBy plan.cached .fresh moments result := by
  cases h with
  | badLocation failure hlocation => exact ⟨.fresh, rfl, .inl rfl⟩
  | badMode failure hmode => exact ⟨.fresh, rfl, .inl rfl⟩
  | lookupFails hlocation hasked => exact ⟨.fresh, hasked.stance, .inl rfl⟩
  | replays hlocation hasked =>
      exact .after hasked.stance ⟨.replayed, replayEvents_stance _ _ _, .inr rfl⟩
  | chooseFails hlocation hmode hasked record answer failure =>
      exact .after hasked.stance ⟨.fresh, rfl, .inl rfl⟩
  | analyzes hlocation hmode hasked record answer source hanalyzed =>
      rw [List.append_assoc]
      exact .after hasked.stance
        (.after (q := .fresh) rfl (hanalyzed.stance (isSome_placeFor plan _)))

/-- A run that is drained ends where nothing may follow. -/
theorem Finished.stance {stage : List Moment → Except Failure Unit → Prop}
    (hstage : ∀ {moments result}, stage moments result → StandsBy cached .fresh moments result)
    {moments : List Moment} (h : Finished stage moments) :
    ∃ q, Stance.run cached .fresh moments = some q ∧ q.isFinal = true := by
  cases h with
  | succeeds hok =>
      obtain ⟨q, hrun, rfl | rfl⟩ := hstage hok
      · exact ⟨_, hrun, rfl⟩
      · exact ⟨_, hrun, rfl⟩
  | fails herror record answer =>
      obtain ⟨q, hrun, hfail⟩ := hstage herror
      rw [run_append_of_eq hrun]
      rcases hfail with rfl | rfl | rfl
      · exact ⟨.broken false false, rfl, rfl⟩
      · exact ⟨.broken true false, rfl, rfl⟩
      · exact ⟨.broken true true, rfl, rfl⟩

theorem Scanned.stance {plan : AnalysisPlan} {source : SourceInfo} {allFiles : Bool}
    {moments : List Moment} {result : Except Failure Unit}
    (h : Scanned plan source allFiles moments result) :
    StandsBy false .fresh moments result := by
  obtain ⟨hanalyzed⟩ := h
  have hscanning : Stance.run false .fresh
      [.event (.status ("Scanning " ++ source.root ++ "..."))] = some .fresh := rfl
  exact .after hscanning (hanalyzed.stance rfl)

theorem FolderRan.stance {plan : AnalysisPlan} {path : String} {allFiles : Bool}
    {moments : List Moment} (h : FolderRan plan path allFiles moments) :
    ∃ q, Stance.run false .fresh moments = some q ∧ q.isFinal = true := by
  cases h with
  | chooseFails => exact ⟨.broken false false, rfl, rfl⟩
  | chooses source hfinished => exact hfinished.stance Scanned.stance

end AnalysisPlan

end RepoAtlas
