import RepoAtlas.Number.Binary64
import RepoAtlas.Text.Trim

/-!
Which stored records have to go: the ones that are not valid, and the oldest of
the others until the rest fits.
-/
namespace RepoAtlas

/-- What the choice needs to know about one record. -/
structure RecordSummary where
  key : String
  modified : Binary64
  size : Int
  valid : Bool
deriving Repr, DecidableEq, Inhabited

namespace RecordSummary

/-- Whether a record comes no later than another: by time, then by key. -/
def notAfter (a b : RecordSummary) : Bool :=
  a.modified.lt b.modified || (!b.modified.lt a.modified && a.key ≤ b.key)

end RecordSummary

/-- The size of some records together. -/
def totalSize (summaries : List RecordSummary) : Int :=
  (summaries.map RecordSummary.size).foldr (· + ·) 0

/-- The keys of the first records that have to go so that the rest fits. -/
def cutOldest (maxBytes : Int) (total : Int) : List RecordSummary → List String
  | [] => []
  | s :: rest =>
    if total ≤ maxBytes then [] else s.key :: cutOldest maxBytes (total - s.size) rest

/-- The keys of the records to delete, each once. -/
def planEvictions (maxBytes : Int) (summaries : List RecordSummary) : List String :=
  let invalid := (summaries.filter fun s => !s.valid).map RecordSummary.key
  let valid := summaries.filter RecordSummary.valid
  Text.distinct (invalid ++
    cutOldest maxBytes (totalSize valid) (valid.mergeSort RecordSummary.notAfter))

end RepoAtlas
