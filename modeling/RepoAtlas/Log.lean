/-!
Log records: what a part of the program reports besides its results.
-/
namespace RepoAtlas

/-- How much a record matters, the least first. -/
inductive LogLevel where
  | debug
  | info
  | warning
  | error
deriving Repr, DecidableEq, Inhabited

namespace LogLevel

def name : LogLevel → String
  | debug => "DEBUG"
  | info => "INFO"
  | warning => "WARNING"
  | error => "ERROR"

def rank : LogLevel → Nat
  | debug => 0
  | info => 1
  | warning => 2
  | error => 3

def ofName? (s : String) : Option LogLevel :=
  [debug, info, warning, error].find? fun l => l.name == s

end LogLevel

/-- One record: its level, the part that reports it, and the text. -/
structure LogRecord where
  level : LogLevel
  logger : String
  message : String
deriving Repr, DecidableEq, Inhabited

namespace LogRecord

/-- The name of the logger of a part of the program. -/
def loggerOf (part : String) : String :=
  "compgraph." ++ part

def debug (part message : String) : LogRecord := ⟨.debug, loggerOf part, message⟩
def info (part message : String) : LogRecord := ⟨.info, loggerOf part, message⟩
def warning (part message : String) : LogRecord := ⟨.warning, loggerOf part, message⟩
def error (part message : String) : LogRecord := ⟨.error, loggerOf part, message⟩

/-- Whether a log that starts at `least` keeps a record. -/
def isKept (least : LogLevel) (r : LogRecord) : Bool :=
  least.rank ≤ r.level.rank

end LogRecord

/-- A result together with what was reported on the way to it. -/
structure Logged (α : Type) where
  value : α
  records : List LogRecord := []
deriving Repr, Inhabited

namespace Logged

def bind (x : Logged α) (f : α → Logged β) : Logged β :=
  let y := f x.value
  ⟨y.value, x.records ++ y.records⟩

instance : Monad Logged where
  pure a := ⟨a, []⟩
  bind := bind

/-- Reports one record. -/
def tell (r : LogRecord) : Logged Unit :=
  ⟨(), [r]⟩

end Logged

end RepoAtlas
