import RepoAtlas.Pipeline.Script

/-!
Running an analysis in a world that answers its actions: to its end, or until a
number of events has been taken.
-/
namespace RepoAtlas

/-- A world with states `σ`: how it answers an action, and how that changes it. -/
structure Handler (σ : Type) where
  perform : (action : Action) → σ → Answer action × σ

/-- The events of a run, and the state of the world after it. -/
structure Taken (σ : Type) where
  events : List Event
  state : σ

namespace Taken

/-- The same run with one more event in front. -/
def after (event : Event) (t : Taken σ) : Taken σ :=
  { t with events := event :: t.events }

end Taken

/-- Whether the source is open after an action. -/
def isOpenAfter (isOpen : Bool) : (action : Action) → Answer action → Bool
  | .openSource, .ok _ => true
  | .closeSource, _ => false
  | _, _ => isOpen

namespace Script

/-- Runs a script to its end. -/
def drain (h : Handler σ) : Script α → σ → Taken σ
  | done _, state => ⟨[], state⟩
  | emit event next, state => (drain h next state).after event
  | act action next, state =>
    let (answer, state) := h.perform action state
    drain h (next answer) state

/-- Closes a source that is open. -/
def release (h : Handler σ) (isOpen : Bool) (state : σ) : σ :=
  if isOpen then (h.perform .closeSource state).2 else state

/-- Runs a script until it has yielded `n` events, and closes the source if it is open then. -/
def takeFrom (h : Handler σ) (isOpen : Bool) : (n : Nat) → Script α → σ → Taken σ
  | 0, _, state => ⟨[], release h isOpen state⟩
  | _ + 1, done _, state => ⟨[], state⟩
  | n + 1, emit event next, state => (takeFrom h isOpen n next state).after event
  | n + 1, act action next, state =>
    let (answer, state) := h.perform action state
    takeFrom h (isOpenAfter isOpen action answer) (n + 1) (next answer) state

/-- Runs a script until it has yielded `n` events. -/
def take (h : Handler σ) (n : Nat) (s : Script α) (state : σ) : Taken σ :=
  takeFrom h false n s state

end Script

end RepoAtlas
