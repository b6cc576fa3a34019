import RepoAtlas.Yaml.Node
import RepoAtlas.Yaml.Scalar

/-!
The value of a YAML document. Nodes are valued in rounds, those nearest to the
root first, so the fault that shows is one of the earliest round.
-/
namespace RepoAtlas.Yaml

inductive Value where
  | scalar (s : Scalar)
  | list (items : List Value)
  /-- A list of single entries, in which names may come twice. -/
  | pairs (entries : List (Value × Value))
  | set (members : List Value)
  | mapping (entries : List (Value × Value))
  /-- A list or a mapping that this value lies in itself. -/
  | enclosing (isMapping : Bool)
deriving Inhabited

namespace Value

/-- Whether a value may be a key. -/
def isKey : Value → Bool
  | scalar _ => true
  | _ => false

/-- The value of an entry: that of the last one with this name. -/
def get? (v : Value) (name : String) : Option Value :=
  match v with
  | mapping entries =>
    (entries.reverse.find? fun e =>
      match e.1 with
      | scalar (.text s) => s == name
      | _ => false).map Prod.snd
  | _ => none

/-- A fault and the round in which it shows. -/
structure Trouble where
  round : Nat
  fault : Fault
deriving Repr, Inhabited

/-- A value, or the first trouble on the way to it. -/
abbrev Attempt (α : Type) := Except Trouble α

def Trouble.earlier (a b : Trouble) : Trouble :=
  if b.round < a.round then b else a

def malformed (round : Nat) : Attempt α :=
  .error ⟨round, .malformed⟩

/-- Two attempts, of which the earlier trouble shows. -/
def both (a : Attempt α) (b : Attempt β) : Attempt (α × β) :=
  match a, b with
  | .ok x, .ok y => .ok (x, y)
  | .error t, .ok _ => .error t
  | .ok _, .error u => .error u
  | .error t, .error u => .error (t.earlier u)

def all : List (Attempt α) → Attempt (List α)
  | [] => .ok []
  | a :: rest => (both a (all rest)).map fun (x, xs) => x :: xs

/-- A key, which must not be a collection, and its value. -/
def entry (round : Nat) (key value : Attempt Value) : Attempt (Value × Value) :=
  let usable := key.bind fun k => if k.isKey then .ok k else malformed round
  both usable value

/-- The text that a node stands for where a scalar is wanted. -/
def scalarText : Node → Option String
  | .scalar _ text => some text
  | .mapping _ entries => inEntries entries
  | _ => none
where
  inEntries : List (Node × Node) → Option String
    | [] => none
    | (.scalar .value _, v) :: _ => scalarText v
    | (.mapping .value _, v) :: _ => scalarText v
    | (.sequence .value _, v) :: _ => scalarText v
    | _ :: rest => inEntries rest

/-- The tag of a node; one that is not read to its end has none that matters here. -/
def tagOf : Node → Tag
  | .scalar tag _ => tag
  | .sequence tag _ => tag
  | .mapping tag _ => tag
  | .enclosing _ => .map

/-- The value of a collection that is tagged as a scalar. -/
def scalarOf (round : Nat) (tag : Tag) (n : Node) : Attempt Value :=
  match scalarText n, n, tag with
  | none, _, _ => malformed round
  | some _, .mapping .., .timestamp =>
    .error ⟨round, .unexpected
      ⟨"TypeError", "expected string or bytes-like object, got 'list'"⟩⟩
  | some text, _, _ => ((Scalar.ofText tag text).map scalar).mapError (⟨round, ·⟩)

/-- Entries that other mappings give to a mapping, and its own. None if there is no mapping. -/
abbrev Parts := Option (List (Attempt (Value × Value)) × List (Attempt (Value × Value)))

/-- The entries of a mapping. Its own come last, so that they count. -/
def Parts.entries (round : Nat) : Parts → List (Attempt (Value × Value))
  | some (given, own) => given ++ own
  | none => [malformed round]

mutual

/-- The value of a node that is met in a round. What it holds is met in the next one. -/
def ofNode (round : Nat) : Node → Attempt Value
  | .scalar tag text => 
    match tag with
    | .seq | .map | .set | .omap | .pairs => malformed (round + 1)
    | _ => ((Scalar.ofText tag text).map scalar).mapError (⟨round, ·⟩)
  | .sequence tag items =>
    match tag with
    | .seq => (all (ofItems (round + 1) items)).map list
    | .omap | .pairs => (all (ofPairs (round + 1) items)).map pairs
    | .map | .set => malformed (round + 1)
    | _ => malformed round
  | .mapping tag entries =>
    match tag with
    | .map => (all ((ofEntries (round + 1) entries).entries (round + 1))).map mapping
    | .set => (all ((ofEntries (round + 1) entries).entries (round + 1))).map fun es =>
        set (es.map Prod.fst)
    | .seq | .omap | .pairs => malformed (round + 1)
    | _ => scalarOf round tag (.mapping tag entries)
  | .enclosing isMapping => .ok (enclosing isMapping)

def ofItems (round : Nat) : List Node → List (Attempt Value)
  | [] => []
  | n :: rest => ofNode round n :: ofItems round rest

/-- The entries of a list of mappings with one entry each. -/
def ofPairs (round : Nat) : List Node → List (Attempt (Value × Value))
  | [] => []
  | .mapping _ [(k, v)] :: rest =>
    both (ofNode round k) (ofNode round v) :: ofPairs round rest
  | _ :: rest => malformed round :: ofPairs round rest

/-- The entries that a mapping takes in from others, and its own. -/
def ofEntries (round : Nat) : List (Node × Node) → Parts
  | [] => some ([], [])
  | (k, v) :: rest =>
    match ofEntries round rest with
    | none => none
    | some (given, own) =>
      if tagOf k == .merge then
        (givenBy round v).map fun es => (es ++ given, own)
      else
        let key := match k with
          | .scalar .value text => .ok (.scalar (.text text))
          | _ => ofNode round k
        some (given, entry round key (ofNode round v) :: own)

/-- What a node gives to the mapping that takes it in. -/
def givenBy (round : Nat) : Node → Option (List (Attempt (Value × Value)))
  | .mapping _ entries => (ofEntries round entries).map fun (given, own) => given ++ own
  | .sequence _ items => givenByAll round items
  | .enclosing true => some []
  | _ => none

/-- What several mappings give together. The first of them comes last, so that it counts. -/
def givenByAll (round : Nat) : List Node → Option (List (Attempt (Value × Value)))
  | [] => some []
  | .mapping _ entries :: rest =>
    match ofEntries round entries, givenByAll round rest with
    | some (given, own), some more => some (more ++ given ++ own)
    | _, _ => none
  | .enclosing true :: rest => givenByAll round rest
  | _ :: _ => none

end

/-- The value of the only document of a text; a text without one stands for nothing. -/
def ofText (text : List Char) : Except Fault Value :=
  match Node.ofText text with
  | .error fault => .error fault
  | .ok none => .ok (scalar .null)
  | .ok (some root) => (ofNode 0 root).mapError Trouble.fault

end Value

end RepoAtlas.Yaml
