import Mathlib.Data.List.Basic
import RepoAtlas.Pipeline.Handler

/-!
The courses that a script can take: what happens in one, in order, when every
action may be answered in any way. A run in a world is one of them.
-/
namespace RepoAtlas

/-- What happens in a run: an event is yielded, or an action is answered. -/
inductive Moment where
  | event (event : Event)
  | action (action : Action) (answer : Answer action)

namespace Moment

def event? : Moment → Option Event
  | event e => some e
  | action .. => none

end Moment

/-- The events among some moments. -/
def eventsOf (moments : List Moment) : List Event :=
  moments.filterMap Moment.event?

@[simp]
theorem eventsOf_nil : eventsOf [] = [] := rfl

@[simp]
theorem eventsOf_event (e : Event) (rest : List Moment) :
    eventsOf (.event e :: rest) = e :: eventsOf rest := rfl

@[simp]
theorem eventsOf_action (a : Action) (answer : Answer a) (rest : List Moment) :
    eventsOf (.action a answer :: rest) = eventsOf rest := rfl

@[simp]
theorem eventsOf_append (first last : List Moment) :
    eventsOf (first ++ last) = eventsOf first ++ eventsOf last :=
  List.filterMap_append

namespace Script

variable {α β : Type} {σ : Type}

/-- A course of a script: the moments up to its end, and the value there. -/
inductive Course : Script α → List Moment → α → Prop where
  | done (value : α) : Course (.done value) [] value
  | emit (event : Event) {next : Script α} {rest : List Moment} {value : α}
      (tail : Course next rest value) :
      Course (.emit event next) (.event event :: rest) value
  | act (action : Action) (answer : Answer action)
      {next : Answer action → Script α} {rest : List Moment} {value : α}
      (tail : Course (next answer) rest value) :
      Course (.act action next) (.action action answer :: rest) value

theorem course_pure {a value : α} {moments : List Moment} :
    Course (pure a) moments value ↔ moments = [] ∧ value = a := by
  constructor
  · intro h
    cases h
    exact ⟨rfl, rfl⟩
  · rintro ⟨rfl, rfl⟩
    exact .done value

theorem course_yield {event : Event} {moments : List Moment} {value : Unit} :
    Course (yield event) moments value ↔ moments = [.event event] := by
  constructor
  · rintro (_ | @⟨_, _, _, _, tail⟩)
    cases tail
    rfl
  · rintro rfl
    exact .emit event (.done value)

theorem course_ask {action : Action} {moments : List Moment}
    {value : Answer action} :
    Course (ask action) moments value ↔ moments = [.action action value] := by
  constructor
  · intro h
    cases h with
    | act _ answer tail =>
        cases tail
        rfl
  · rintro rfl
    exact .act action value (.done value)

/-- The courses of two scripts in a row are those of the first one followed by
those of the second. -/
theorem course_bind {s : Script α} {f : α → Script β} {moments : List Moment}
    {value : β} :
    Course (s >>= f) moments value ↔
      ∃ first a last, moments = first ++ last ∧ Course s first a ∧
        Course (f a) last value := by
  change Course (s.bind f) moments value ↔ _
  constructor
  · intro h
    induction s generalizing moments with
    | done a => exact ⟨[], a, moments, rfl, .done a, h⟩
    | emit event next ih =>
        cases h with
        | emit _ tail =>
            obtain ⟨first, a, last, rfl, hs, hf⟩ := ih tail
            exact ⟨.event event :: first, a, last, rfl, .emit event hs, hf⟩
    | act action next ih =>
        cases h with
        | act _ answer tail =>
            obtain ⟨first, a, last, rfl, hs, hf⟩ := ih answer tail
            exact ⟨.action action answer :: first, a, last, rfl,
              .act action answer hs, hf⟩
  · rintro ⟨first, a, last, rfl, hs, hf⟩
    induction hs with
    | done a => exact hf
    | emit event _ ih => exact .emit event (ih hf)
    | act action answer _ ih => exact .act action answer (ih hf)

theorem course_tell {record : LogRecord} {moments : List Moment} {value : Unit} :
    Course (tell record) moments value ↔
      ∃ answer, moments = [.action (.report record) answer] := by
  have hbind : tell record = ask (.report record) >>= fun _ => pure () := rfl
  rw [hbind, course_bind]
  constructor
  · rintro ⟨first, answer, last, rfl, hask, hpure⟩
    rw [course_ask] at hask
    rw [course_pure] at hpure
    exact ⟨answer, by rw [hask, hpure.1, List.append_nil]⟩
  · rintro ⟨answer, rfl⟩
    exact ⟨_, answer, [], rfl, course_ask.mpr rfl, course_pure.mpr ⟨rfl, rfl⟩⟩

/-- The moments of the run of a script in a world. -/
def history (h : Handler σ) : Script α → σ → List Moment
  | done _, _ => []
  | emit event next, state => .event event :: history h next state
  | act action next, state =>
    .action action (h.perform action state).1 ::
      history h (next (h.perform action state).1) (h.perform action state).2

theorem drain_events (h : Handler σ) (s : Script α) (state : σ) :
    (drain h s state).events = eventsOf (history h s state) := by
  induction s generalizing state with
  | done a => rfl
  | emit event next ih =>
      simp [drain, history, Taken.after, ih]
  | act action next ih =>
      simp [drain, history, ih]

/-- A run in a world is a course of its script. -/
theorem course_history (h : Handler σ) (s : Script α) (state : σ) :
    ∃ value, Course s (history h s state) value := by
  induction s generalizing state with
  | done a => exact ⟨a, .done a⟩
  | emit event next ih =>
      obtain ⟨value, hnext⟩ := ih state
      exact ⟨value, .emit event hnext⟩
  | act action next ih =>
      obtain ⟨value, hnext⟩ :=
        ih (h.perform action state).1 (h.perform action state).2
      exact ⟨value, .act action _ hnext⟩

end Script

namespace Stage

open Script

variable {α β : Type}

theorem course_run_pure {a : α} {moments : List Moment} {result : Except Failure α} :
    Course (pure a : Stage α).run moments result ↔
      moments = [] ∧ result = .ok a :=
  course_pure

theorem course_run_throw {failure : Failure} {moments : List Moment}
    {result : Except Failure α} :
    Course (throw failure : Stage α).run moments result ↔
      moments = [] ∧ result = .error failure :=
  course_pure

theorem course_run_of {given : Except Failure α} {moments : List Moment}
    {result : Except Failure α} :
    Course (ExceptT.mk (pure given) : Stage α).run moments result ↔
      moments = [] ∧ result = given :=
  course_pure

/-- Two stages in a row: the second one follows unless the first one fails. -/
theorem course_run_bind {s : Stage α} {f : α → Stage β} {moments : List Moment}
    {result : Except Failure β} :
    Course (s >>= f).run moments result ↔
      (∃ first a last, moments = first ++ last ∧ Course s.run first (.ok a) ∧
        Course (f a).run last result) ∨
      ∃ failure, result = .error failure ∧ Course s.run moments (.error failure) := by
  have hbind : (s >>= f).run = s.run >>= ExceptT.bindCont f := rfl
  rw [hbind, course_bind]
  constructor
  · rintro ⟨first, a | a, last, rfl, hs, hf⟩
    · obtain ⟨rfl, rfl⟩ := course_pure.mp hf
      exact Or.inr ⟨a, rfl, by rwa [List.append_nil]⟩
    · exact Or.inl ⟨first, a, last, rfl, hs, hf⟩
  · rintro (⟨first, a, last, rfl, hs, hf⟩ | ⟨failure, rfl, hs⟩)
    · exact ⟨first, .ok a, last, rfl, hs, hf⟩
    · exact ⟨moments, .error failure, [], (List.append_nil _).symm, hs,
        course_pure.mpr ⟨rfl, rfl⟩⟩

theorem course_run_lift {s : Script α} {moments : List Moment}
    {result : Except Failure α} :
    Course (ExceptT.lift s : Stage α).run moments result ↔
      ∃ a, result = .ok a ∧ Course s moments a := by
  have hlift : (ExceptT.lift s : Stage α).run = s >>= fun a => pure (.ok a) := rfl
  rw [hlift, course_bind]
  constructor
  · rintro ⟨first, a, last, rfl, hs, hpure⟩
    obtain ⟨rfl, rfl⟩ := course_pure.mp hpure
    exact ⟨a, rfl, by rwa [List.append_nil]⟩
  · rintro ⟨a, rfl, hs⟩
    exact ⟨moments, a, [], (List.append_nil _).symm, hs, course_pure.mpr ⟨rfl, rfl⟩⟩

theorem course_run_perform {action : Action} {moments : List Moment}
    {result : Answer action} :
    Course (perform action).run moments result ↔
      moments = [.action action result] :=
  course_ask

theorem course_run_yield {event : Event} {moments : List Moment}
    {result : Except Failure Unit} :
    Course (yield event).run moments result ↔
      moments = [.event event] ∧ result = .ok () := by
  rw [yield, course_run_lift]
  constructor
  · rintro ⟨a, rfl, h⟩
    exact ⟨course_yield.mp h, rfl⟩
  · rintro ⟨rfl, rfl⟩
    exact ⟨(), rfl, course_yield.mpr rfl⟩

/-- To take an action goes on with its reply, or fails as it fails. -/
theorem course_run_perform_bind {action : Action} {f : action.Reply → Stage α}
    {moments : List Moment} {result : Except Failure α} :
    Course (perform action >>= f).run moments result ↔
      (∃ reply last, moments = .action action (.ok reply) :: last ∧
        Course (f reply).run last result) ∨
      ∃ failure, moments = [.action action (.error failure)] ∧
        result = .error failure := by
  rw [course_run_bind]
  constructor
  · rintro (⟨_, reply, last, rfl, hask, hrest⟩ | ⟨failure, rfl, hask⟩)
    · obtain rfl := course_run_perform.mp hask
      exact Or.inl ⟨reply, last, rfl, hrest⟩
    · exact Or.inr ⟨failure, course_run_perform.mp hask, rfl⟩
  · rintro (⟨reply, last, rfl, hrest⟩ | ⟨failure, rfl, rfl⟩)
    · exact Or.inl ⟨_, reply, last, rfl, course_run_perform.mpr rfl, hrest⟩
    · exact Or.inr ⟨failure, rfl, course_run_perform.mpr rfl⟩

/-- What is lifted into a stage does not fail. -/
theorem course_run_lift_bind {s : Script β} {f : β → Stage α}
    {moments : List Moment} {result : Except Failure α} :
    Course (ExceptT.lift s >>= f).run moments result ↔
      ∃ first a last, moments = first ++ last ∧ Course s first a ∧
        Course (f a).run last result := by
  rw [course_run_bind]
  constructor
  · rintro (⟨first, a, last, rfl, hlift, hrest⟩ | ⟨failure, rfl, hlift⟩)
    · obtain ⟨_, heq, hs⟩ := course_run_lift.mp hlift
      obtain rfl := Except.ok.inj heq
      exact ⟨first, a, last, rfl, hs, hrest⟩
    · obtain ⟨_, heq, _⟩ := course_run_lift.mp hlift
      cases heq
  · rintro ⟨first, a, last, rfl, hs, hrest⟩
    exact Or.inl ⟨first, a, last, rfl, course_run_lift.mpr ⟨a, rfl, hs⟩, hrest⟩

theorem course_run_ask_bind {action : Action} {f : Answer action → Stage α}
    {moments : List Moment} {result : Except Failure α} :
    Course (ExceptT.lift (ask action) >>= f).run moments result ↔
      ∃ answer last, moments = .action action answer :: last ∧
        Course (f answer).run last result := by
  rw [course_run_lift_bind]
  constructor
  · rintro ⟨_, answer, last, rfl, hask, hrest⟩
    obtain rfl := course_ask.mp hask
    exact ⟨answer, last, rfl, hrest⟩
  · rintro ⟨answer, last, rfl, hrest⟩
    exact ⟨_, answer, last, rfl, course_ask.mpr rfl, hrest⟩

theorem course_run_yield_bind {event : Event} {f : Unit → Stage α}
    {moments : List Moment} {result : Except Failure α} :
    Course (yield event >>= f).run moments result ↔
      ∃ last, moments = .event event :: last ∧ Course (f ()).run last result := by
  rw [yield, course_run_lift_bind]
  constructor
  · rintro ⟨_, _, last, rfl, hyield, hrest⟩
    obtain rfl := course_yield.mp hyield
    exact ⟨last, rfl, hrest⟩
  · rintro ⟨last, rfl, hrest⟩
    exact ⟨_, (), last, rfl, course_yield.mpr rfl, hrest⟩

theorem course_run_tell_bind {record : LogRecord} {f : Unit → Stage α}
    {moments : List Moment} {result : Except Failure α} :
    Course (tell record >>= f).run moments result ↔
      ∃ answer last, moments = .action (.report record) answer :: last ∧
        Course (f ()).run last result := by
  rw [tell, course_run_lift_bind]
  constructor
  · rintro ⟨_, _, last, rfl, htell, hrest⟩
    obtain ⟨answer, rfl⟩ := course_tell.mp htell
    exact ⟨answer, last, rfl, hrest⟩
  · rintro ⟨answer, last, rfl, hrest⟩
    exact ⟨_, (), last, rfl, course_tell.mpr ⟨answer, rfl⟩, hrest⟩

/-- With the source open a stage takes its own course, unless the source cannot
be opened. The source is closed again, and to fail in that is to fail. -/
theorem course_run_withSource {s : Stage α} {moments : List Moment}
    {result : Except Failure α} :
    Course (withSource s).run moments result ↔
      (∃ failure, moments = [.action .openSource (.error failure)] ∧
        result = .error failure) ∨
      ∃ inner found closing, Course s.run inner found ∧
        moments = .action .openSource (.ok ()) :: inner ++
          [.action .closeSource closing] ∧
        result = closing.bind fun _ => found := by
  constructor
  · intro h
    rcases course_run_perform_bind.mp h with ⟨_, _, rfl, hrest⟩ | ⟨failure, rfl, rfl⟩
    · obtain ⟨inner, found, _, rfl, hs, hclose⟩ := course_run_lift_bind.mp hrest
      rcases course_run_perform_bind.mp hclose with
        ⟨_, _, rfl, hgiven⟩ | ⟨failure, rfl, rfl⟩
      · obtain ⟨rfl, rfl⟩ := course_run_of.mp hgiven
        exact Or.inr ⟨inner, _, .ok (), hs, rfl, rfl⟩
      · exact Or.inr ⟨inner, found, .error failure, hs, rfl, rfl⟩
    · exact Or.inl ⟨failure, rfl, rfl⟩
  · rintro (⟨failure, rfl, rfl⟩ | ⟨inner, found, closing, hs, rfl, rfl⟩)
    · exact course_run_perform_bind.mpr (Or.inr ⟨failure, rfl, rfl⟩)
    · refine course_run_perform_bind.mpr (Or.inl ⟨(), _, rfl, ?_⟩)
      refine course_run_lift_bind.mpr ⟨inner, found, _, rfl, hs, ?_⟩
      cases closing with
      | ok _ =>
          exact course_run_perform_bind.mpr
            (Or.inl ⟨(), [], rfl, course_run_of.mpr ⟨rfl, rfl⟩⟩)
      | error failure =>
          exact course_run_perform_bind.mpr (Or.inr ⟨failure, rfl, rfl⟩)

end Stage

end RepoAtlas
