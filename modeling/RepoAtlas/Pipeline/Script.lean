import RepoAtlas.Pipeline.Action

/-!
The course of an analysis, as a value: the events it yields and the actions it
takes, in order. What follows an action depends on the answer.
-/
namespace RepoAtlas

inductive Script (α : Type) where
  | done (value : α)
  | emit (event : Event) (next : Script α)
  | act (action : Action) (next : Answer action → Script α)

namespace Script

def bind : Script α → (α → Script β) → Script β
  | done value, f => f value
  | emit event next, f => emit event (bind next f)
  | act action next, f => act action fun answer => bind (next answer) f

instance : Monad Script where
  pure := done
  bind := bind

/-- Takes an action and gives the answer. -/
def ask (action : Action) : Script (Answer action) :=
  act action done

/-- Yields an event. -/
def yield (event : Event) : Script Unit :=
  emit event (done ())

/-- Reports something. -/
def tell (record : LogRecord) : Script Unit := do
  discard (ask (.report record))

end Script

/-- A part of an analysis that may fail. -/
abbrev Stage := ExceptT Failure Script

namespace Stage

/-- Takes an action, whose failure ends the stage. -/
def perform (action : Action) : Stage action.Reply :=
  ExceptT.mk (Script.ask action)

def yield (event : Event) : Stage Unit :=
  ExceptT.lift (Script.yield event)

def tell (record : LogRecord) : Stage Unit :=
  ExceptT.lift (Script.tell record)

/-- A stage with the source open; it is closed again also if the stage fails. -/
def withSource (stage : Stage α) : Stage α := do
  perform .openSource
  let result ← ExceptT.lift stage.run
  perform .closeSource
  ExceptT.mk (pure result)

end Stage

end RepoAtlas
