import RepoAtlas.Event
import RepoAtlas.Number.Shortest
import RepoAtlas.Pipeline.World

/-!
What the program writes while it runs: results to its output, progress and
reports to its error output, and the reports also to a log.
-/
namespace RepoAtlas

namespace LogRecord

/-- A report on the error output. -/
def shown (r : LogRecord) : String :=
  "[compgraph] " ++ r.level.name ++ " " ++ r.message

/-- A report in a log, with the time it was made at. -/
def logLine (time : String) (r : LogRecord) : String :=
  time ++ " " ++ r.level.name ++ " " ++ r.logger ++ ": " ++ r.message

end LogRecord

/-- What has been written so far, and which reports are written at all. -/
structure Console where
  level : LogLevel := .info
  output : String := ""
  errors : String := ""
  log : List LogRecord := []
deriving Inhabited

namespace Console

/-- A line on the output. -/
def print (c : Console) (line : String) : Console :=
  { c with output := c.output ++ line ++ "\n" }

/-- A line on the error output. -/
def warn (c : Console) (line : String) : Console :=
  { c with errors := c.errors ++ line ++ "\n" }

/-- A report, if it matters enough. -/
def report (c : Console) (r : LogRecord) : Console :=
  if r.isKept c.level then { c.warn r.shown with log := c.log ++ [r] } else c

end Console

namespace Event

/-- The line that tells of an event while it happens. -/
def progressLine? : Event → Option String
  | status message => some message
  | progress current total path => some s!"[{current}/{total}] {path}"
  | component entity => some ("  found " ++ entity.name ++ " (" ++ entity.role.label ++ ")")
  | _ => none

end Event

namespace Console

/-- Tells of an event. -/
def see (c : Console) (e : Event) : Console :=
  match e.progressLine? with
  | some line => c.warn line
  | none => c

/-- Fills a text up with blanks. -/
def padded (width : Nat) (s : String) : String :=
  s ++ String.ofList (List.replicate (width - s.length) ' ')

/-- The lines about one entity. -/
def entityLines (width : Nat) (e : Entity) : List String :=
  (padded width e.name ++ "  " ++ padded 14 e.role.label ++ "  " ++ e.file) ::
    if e.uses.isEmpty then []
    else [padded width "" ++ "  uses: " ++ ", ".intercalate e.uses]

/-- Entities by role, and by name within a role. -/
def entityLe (a b : Entity) : Bool :=
  if a.role.label == b.role.label then a.name ≤ b.name else a.role.label ≤ b.role.label

/-- The table of a result. -/
def summary (entities : List Entity) (totalFiles analyzedFiles : Int) (fromCache : Bool) :
    List String :=
  let width := (entities.map fun e => e.name.length).foldl max 0
  (s!"Analyzed {analyzedFiles} entities from {totalFiles} files" ++
    if fromCache then " (from cache)" else "") ::
    (entities.mergeSort entityLe).flatMap (entityLines width)

/-- The lines about what a cache holds. -/
def statsLines (s : CacheStats) : List String :=
  let size := Binary64.ofRatio false s.totalBytes.toNat (1024 * 1024)
  [s!"Records: {s.count}", "Total size: " ++ size.fixedText 2 ++ " MB"] ++
    match s.oldest, s.newest with
    | some oldest, some newest => ["Oldest: " ++ oldest, "Newest: " ++ newest]
    | _, _ => []

end Console

/-- A world whose reports go to a console as they are made. -/
def Handler.watched (h : Handler (World σ)) : Handler (World σ × Console) where
  perform action state :=
    let (answer, w) := h.perform action state.1
    (answer, { w with records := [] }, w.records.foldl Console.report state.2)

/-- Runs a script to its end; `see` takes each event in when it is yielded. -/
def Script.watch (h : Handler σ) (see : Event → σ → σ) : Script α → σ → Taken σ
  | done _, state => ⟨[], state⟩
  | emit event next, state => (watch h see next (see event state)).after event
  | act action next, state =>
    let (answer, state) := h.perform action state
    watch h see (next answer) state

end RepoAtlas
