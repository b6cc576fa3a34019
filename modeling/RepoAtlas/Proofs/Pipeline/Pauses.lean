import RepoAtlas.Pipeline.Analysis
import RepoAtlas.Pipeline.World

/-!
Pauses change nothing: analyses that differ in their pace alone take the same course but
for the pauses, and hand out the same events wherever pausing itself changes nothing.
-/
namespace RepoAtlas

/-- What is to be analyzed. -/
inductive Errand where
  | repository (request : AnalysisRequest)
  | folder (path : String) (allFiles : Bool)

namespace Errand

/-- Whether all files are asked for, or only source files. -/
def allFiles : Errand → Bool
  | repository request => request.allFiles
  | folder _ allFiles => allFiles

/-- The analysis by a plan. -/
def script (plan : AnalysisPlan) : Errand → Script Unit
  | repository request => plan.analyze request
  | folder path allFiles => plan.analyzeFolder path allFiles

end Errand

namespace AnalysisSettings

/-- The same settings at another pace. -/
def atPace (s : AnalysisSettings) (every : Int) (delay : Quantity) : AnalysisSettings :=
  { s with paceEvery := every, paceDelay := delay }

end AnalysisSettings

namespace AnalysisPlan

/-- The same plan at another pace. -/
def atPace (plan : AnalysisPlan) (every : Int) (delay : Quantity) : AnalysisPlan :=
  { plan with settings := plan.settings.atPace every delay }

end AnalysisPlan

namespace Script

variable {α β : Type}

/-- Whether two scripts are the same where every pause ends and goes unnoticed. -/
inductive SameApart : Script α → Script α → Prop where
  | done (value : α) : SameApart (.done value) (.done value)
  | emit (event : Event) {next other : Script α} (hnext : SameApart next other) :
      SameApart (.emit event next) (.emit event other)
  | act (action : Action) {next other : Answer action → Script α}
      (hnext : ∀ answer, SameApart (next answer) (other answer)) :
      SameApart (.act action next) (.act action other)
  | pauseLeft (delay : Quantity) {next : Answer (.pause delay) → Script α} {other : Script α}
      (hnext : SameApart (next (.ok ())) other) : SameApart (.act (.pause delay) next) other
  | pauseRight (delay : Quantity) {next : Script α} {other : Answer (.pause delay) → Script α}
      (hnext : SameApart next (other (.ok ()))) : SameApart next (.act (.pause delay) other)

namespace SameApart

theorem refl (s : Script α) : SameApart s s := by
  induction s with
  | done value => exact .done value
  | emit event next ih => exact .emit event ih
  | act action next ih => exact .act action ih

theorem bind {s t : Script α} (h : SameApart s t) {f g : α → Script β}
    (hfg : ∀ a, SameApart (f a) (g a)) : SameApart (s >>= f) (t >>= g) := by
  change SameApart (s.bind f) (t.bind g)
  induction h with
  | done value => exact hfg value
  | emit event _ ih => exact .emit event ih
  | act action _ ih => exact .act action ih
  | pauseLeft delay _ ih => exact .pauseLeft delay ih
  | pauseRight delay _ ih => exact .pauseRight delay ih

end SameApart

end Script

namespace Stage

open Script

variable {α β : Type}

/-- Whether two stages are the same where every pause ends and goes unnoticed. -/
def SameApart (stage other : Stage α) : Prop :=
  Script.SameApart stage.run other.run

namespace SameApart

theorem refl (stage : Stage α) : SameApart stage stage :=
  Script.SameApart.refl stage.run

theorem bind {stage other : Stage α} (h : SameApart stage other) {f g : α → Stage β}
    (hfg : ∀ a, SameApart (f a) (g a)) : SameApart (stage >>= f) (other >>= g) := by
  refine Script.SameApart.bind h fun result => ?_
  cases result with
  | ok a => exact hfg a
  | error failure => exact .refl _

theorem of_script {s t : Script α} (h : Script.SameApart s t) :
    SameApart (ExceptT.lift s) (ExceptT.lift t) :=
  Script.SameApart.bind h fun _ => .refl _

/-- A pause in front of a stage goes unnoticed, whether there is one or not. -/
theorem pauseLeft {stage other : Stage α} (h : SameApart stage other) (pauses : Bool)
    (delay : Quantity) :
    SameApart (if pauses then Stage.perform (.pause delay) >>= fun _ => stage else stage)
      other := by
  split
  · exact Script.SameApart.pauseLeft delay h
  · exact h

theorem pauseRight {stage other : Stage α} (h : SameApart stage other) (pauses : Bool)
    (delay : Quantity) :
    SameApart stage
      (if pauses then Stage.perform (.pause delay) >>= fun _ => other else other) := by
  split
  · exact Script.SameApart.pauseRight delay h
  · exact h

theorem withSource {stage other : Stage α} (h : SameApart stage other) :
    SameApart (Stage.withSource stage) (Stage.withSource other) :=
  (refl _).bind fun _ => (of_script h).bind fun _ => refl _

end SameApart

end Stage

namespace AnalysisPlan

open Stage

variable {s : AnalysisSettings} {plan : AnalysisPlan} {every : Int} {delay : Quantity}

/-- The visits to some files are the same at any pace. -/
theorem visitAll_sameApart (s other : AnalysisSettings) (total index : Nat)
    (files : List FileRecord) :
    SameApart (visitAll s total index files) (visitAll other total index files) := by
  induction files generalizing index with
  | nil => exact .refl _
  | cons file rest ih =>
      rw [visitAll, visitAll]
      refine SameApart.pauseRight (SameApart.pauseLeft ?_ _ _) _ _
      exact (SameApart.refl _).bind fun _ => (SameApart.refl _).bind fun _ =>
        (ih (index + 1)).bind fun _ => SameApart.refl _

theorem survey_sameApart (repository : Coordinates) (allFiles : Bool) :
    SameApart (survey s repository allFiles)
      (survey (s.atPace every delay) repository allFiles) := by
  refine (SameApart.refl _).bind fun listed => ?_
  refine (SameApart.refl _).bind fun _ => (SameApart.refl _).bind fun _ => ?_
  exact (visitAll_sameApart _ _ _ _ _).bind fun _ => SameApart.refl _

theorem analyzeSource_sameApart (repository : Coordinates) (allFiles : Bool)
    (place : Option String) :
    SameApart (analyzeSource s repository allFiles place)
      (analyzeSource (s.atPace every delay) repository allFiles place) :=
  (survey_sameApart repository allFiles).withSource.bind fun _ => SameApart.refl _

theorem run_sameApart (request : AnalysisRequest) :
    SameApart (run plan request) (run (plan.atPace every delay) request) := by
  refine (SameApart.refl _).bind fun repository => (SameApart.refl _).bind fun mode => ?_
  refine (SameApart.refl _).bind fun remembered => ?_
  cases remembered with
  | some record => exact .refl _
  | none =>
      refine (SameApart.refl _).bind fun _ => (SameApart.refl _).bind fun _ => ?_
      exact (SameApart.refl _).bind fun source => analyzeSource_sameApart _ _ _

theorem concluding_sameApart {stage other : Stage Unit} (h : SameApart stage other)
    (subject : String) :
    Script.SameApart (concluding subject stage) (concluding subject other) :=
  Script.SameApart.bind h fun _ => .refl _

end AnalysisPlan

open AnalysisPlan in
/-- Whatever is to be analyzed, the script is the same at any pace but for the pauses. -/
theorem Errand.script_sameApart (errand : Errand) (plan : AnalysisPlan) (every : Int)
    (delay : Quantity) :
    Script.SameApart (errand.script plan) (errand.script (plan.atPace every delay)) := by
  cases errand with
  | repository request => exact concluding_sameApart (run_sameApart request) _
  | folder path allFiles =>
      refine (Script.SameApart.refl _).bind fun chosen => ?_
      cases chosen with
      | error failure => exact .refl _
      | ok source =>
          refine concluding_sameApart ?_ path
          exact (Stage.SameApart.refl _).bind fun _ => analyzeSource_sameApart _ _ _

/-- Whether pausing always ends in a world and leaves it in a state alike. -/
structure Handler.IgnoresPauses {σ : Type} (h : Handler σ) (Alike : σ → σ → Prop) : Prop where
  ends : ∀ delay state, (h.perform (.pause delay) state).1 = .ok ()
  stays : ∀ delay state other, Alike state other →
    Alike (h.perform (.pause delay) state).2 other ∧ Alike state (h.perform (.pause delay) other).2
  agrees : ∀ action state other, Alike state other →
    (h.perform action state).1 = (h.perform action other).1 ∧
      Alike (h.perform action state).2 (h.perform action other).2

namespace Script

variable {α σ : Type}

/-- Where pausing changes nothing, scripts that are the same but for pauses run alike. -/
theorem SameApart.drain_eq {h : Handler σ} {Alike : σ → σ → Prop} (hignores : h.IgnoresPauses Alike)
    {s t : Script α} (hsame : SameApart s t) {state other : σ} (halike : Alike state other) :
    (drain h s state).events = (drain h t other).events ∧
      Alike (drain h s state).state (drain h t other).state := by
  induction hsame generalizing state other with
  | done value => exact ⟨rfl, halike⟩
  | emit event _ ih =>
      obtain ⟨hevents, hstate⟩ := ih halike
      exact ⟨congrArg (event :: ·) hevents, hstate⟩
  | act action _ ih =>
      obtain ⟨hanswer, hnext⟩ := hignores.agrees action _ _ halike
      simp only [drain, ← hanswer]
      exact ih _ hnext
  | pauseLeft delay _ ih =>
      simp only [drain, hignores.ends delay state]
      exact ih (hignores.stays delay _ _ halike).1
  | pauseRight delay _ ih =>
      simp only [drain, hignores.ends delay other]
      exact ih (hignores.stays delay _ _ halike).2

end Script

namespace World

/-- Whether two worlds differ in nothing but the pauses that there have been. -/
def SameApart {σ : Type} (w v : World σ) : Prop :=
  v = { w with pauses := v.pauses }

theorem SameApart.refl {σ : Type} (w : World σ) : w.SameApart w :=
  Eq.refl w

end World

/-- In a world made of a source and a cache, nothing but the list of pauses tells of one. -/
theorem WorldLaws.ignoresPauses {σ : Type} (laws : WorldLaws σ) :
    laws.handler.IgnoresPauses World.SameApart where
  ends _ _ := rfl
  stays delay w v hsame := by
    obtain ⟨source, folder, pauses, records⟩ := w
    obtain ⟨source', folder', pauses', records'⟩ := v
    cases hsame
    exact ⟨rfl, rfl⟩
  agrees action w v hsame := by
    obtain ⟨source, folder, pauses, records⟩ := w
    obtain ⟨source', folder', pauses', records'⟩ := v
    cases hsame
    cases action <;> exact ⟨rfl, rfl⟩

/-- At any pace, a run in a world made of a source and a cache hands out the same events. -/
theorem events_atPace {σ : Type} (laws : WorldLaws σ) (w : World σ) (errand : Errand)
    (plan : AnalysisPlan) (every : Int) (delay : Quantity) :
    (Script.drain laws.handler (errand.script (plan.atPace every delay)) w).events =
      (Script.drain laws.handler (errand.script plan) w).events :=
  ((errand.script_sameApart plan every delay).drain_eq laws.ignoresPauses
    (World.SameApart.refl w)).1.symm

end RepoAtlas
