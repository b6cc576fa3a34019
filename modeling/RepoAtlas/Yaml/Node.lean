import RepoAtlas.Table
import RepoAtlas.Yaml.Tag
import RepoAtlas.Yaml.Token.Scan

/-!
Nodes of a YAML document: tagged text, sequences and mappings. A text that holds
more than one document, or none that is well formed, has no node.
-/
namespace RepoAtlas.Yaml

inductive Node where
  | scalar (tag : Tag) (text : String)
  | sequence (tag : Tag) (items : List Node)
  | mapping (tag : Tag) (entries : List (Node × Node))
  /-- A sequence or a mapping that this node lies in itself. -/
  | enclosing (isMapping : Bool)
deriving Inhabited

/-- How far the tokens of a document have been read. -/
structure Reading where
  tokens : List Token
  /-- What is wrong where the tokens end too early. -/
  fault : Fault
  handles : Table String := []
  anchors : Table Node := []

/-- A step of reading nodes from tokens. -/
abbrev Read := StateT Reading (Except Fault)

namespace Read

def fail : Read α := throw .malformed

def peek : Read Token := do
  let s ← get
  match s.tokens with
  | t :: _ => return t
  | [] => throw s.fault

def advance : Read Unit :=
  modify fun s => { s with tokens := s.tokens.tail }

/-- Whether one of some tokens comes next. -/
def isAt (ts : List Token) : Read Bool :=
  return ts.contains (← peek)

/-- Passes a token, if it comes next. -/
def pass? (t : Token) : Read Bool := do
  if (← peek) == t then
    advance
    return true
  return false

/-- Passes a token, which must come next. -/
def expect (t : Token) : Read Unit := do
  if !(← pass? t) then fail

def empty : Node := .scalar .null ""

/-- The meaning of handles that no directive sets. -/
def commonHandles : Table String :=
  [("!", "!"), ("!!", Tag.common)]

/-- The whole name of a tag. -/
def tagName (t : WrittenTag) : Read String := do
  match t.handle with
  | none => return t.suffix
  | some handle =>
    match Table.get? handle (← get).handles with
    | some start => return start ++ t.suffix
    | none => fail

def anchor? : Read (Option String) := do
  match ← peek with
  | .anchor name =>
    advance
    return some name
  | _ => return none

def tag? : Read (Option String) := do
  match ← peek with
  | .tag t =>
    advance
    return some (← tagName t)
  | _ => return none

/-- The anchor and the tag of a node, in either order. -/
def properties : Read (Option String × Option String) := do
  match ← anchor? with
  | some name => return (some name, ← tag?)
  | none =>
    match ← tag? with
    | some tag => return (← anchor?, some tag)
    | none => return (none, none)

/-- Gives a name to a node, which no other node may have had. -/
def nameNode (anchor : Option String) (node : Node) : Read Unit := do
  match anchor with
  | none => return
  | some name =>
    if (Table.get? name (← get).anchors).isSome then fail
    modify fun s => { s with anchors := Table.set name node s.anchors }

/-- The tag of a sequence or mapping. -/
def collectionTag (default : Tag) : Option String → Tag
  | none => default
  | some "!" => default
  | some name => Tag.ofName name

/-- The tag of a text. -/
def scalarTag (text : String) (plain : Bool) : Option String → Tag
  | none => if plain then Tag.ofShape text else .str
  | some "!" => Tag.ofShape text
  | some name => Tag.ofName name

/-- Reads what a name may stand for while it is read itself. -/
def named (anchor : Option String) (isMapping : Bool) (read : Read Node) : Read Node := do
  nameNode anchor (.enclosing isMapping)
  let node ← read
  if let some name := anchor then
    modify fun s => { s with anchors := Table.set name node s.anchors }
  return node

mutual

/-- A node. Indented blocks count only where `block` allows them. -/
def node (block unindented : Bool) : Nat → Read Node
  | 0 => fail
  | fuel + 1 => do
    match ← peek with
    | .alias name =>
      advance
      match Table.get? name (← get).anchors with
      | some n => return n
      | none => fail
    | _ =>
      let (anchor, tag) ← properties
      let list (items : Read (List Node)) : Read Node :=
        named anchor false (Node.sequence (collectionTag .seq tag) <$> items)
      let table (entries : Read (List (Node × Node))) : Read Node :=
        named anchor true (Node.mapping (collectionTag .map tag) <$> entries)
      match ← peek, block with
      | .scalar text plain, _ =>
        advance
        let n := .scalar (scalarTag text plain tag) text
        nameNode anchor n
        return n
      | .blockEntry, _ =>
        if unindented then list (unindentedItems fuel)
        else lone anchor tag
      | .flowSequenceStart, _ =>
        advance
        list (flowItems true fuel)
      | .flowMappingStart, _ =>
        advance
        table (flowEntries true fuel)
      | .blockSequenceStart, true =>
        advance
        list (blockItems fuel)
      | .blockMappingStart, true =>
        advance
        table (blockEntries fuel)
      | _, _ => lone anchor tag

/-- A node of which there is nothing but an anchor or a tag. -/
def lone (anchor tag : Option String) : Read Node := do
  if anchor.isNone && tag.isNone then fail
  let n := .scalar (scalarTag "" true tag) ""
  nameNode anchor n
  return n

/-- A node of a block, or nothing if one of some tokens comes next. -/
def blockNode (unindented : Bool) (stops : List Token) : Nat → Read Node
  | 0 => fail
  | fuel + 1 => do
    if ← isAt stops then return empty
    node true unindented fuel

/-- A node inside brackets, or nothing if one of some tokens comes next. -/
def flowNode (stops : List Token) : Nat → Read Node
  | 0 => fail
  | fuel + 1 => do
    if ← isAt stops then return empty
    node false false fuel

def blockItems : Nat → Read (List Node)
  | 0 => fail
  | fuel + 1 => do
    if ← pass? .blockEntry then
      let item ← blockNode false [.blockEntry, .blockEnd] fuel
      return item :: (← blockItems fuel)
    expect .blockEnd
    return []

/-- The items of a sequence that is not indented deeper than the key it belongs to. -/
def unindentedItems : Nat → Read (List Node)
  | 0 => fail
  | fuel + 1 => do
    if ← pass? .blockEntry then
      let item ← blockNode false [.blockEntry, .key, .value, .blockEnd] fuel
      return item :: (← unindentedItems fuel)
    return []

def blockEntries : Nat → Read (List (Node × Node))
  | 0 => fail
  | fuel + 1 => do
    let stops := [Token.key, .value, .blockEnd]
    if ← pass? .key then
      let key ← blockNode true stops fuel
      let value ← if ← pass? .value then blockNode true stops fuel else pure empty
      return (key, value) :: (← blockEntries fuel)
    expect .blockEnd
    return []

/-- A key that has been announced, and its value. -/
def flowEntry (closing : Token) : Nat → Read (Node × Node)
  | 0 => fail
  | fuel + 1 => do
    let key ← flowNode [.value, .flowEntry, closing] fuel
    let value ← if ← pass? .value then flowNode [.flowEntry, closing] fuel else pure empty
    return (key, value)

/-- Items up to the closing bracket. One with a colon is a mapping of one entry. -/
def flowItems (first : Bool) : Nat → Read (List Node)
  | 0 => fail
  | fuel + 1 => do
    if ← pass? .flowSequenceEnd then return []
    if !first then expect .flowEntry
    if ← pass? .key then
      let entry ← flowEntry .flowSequenceEnd fuel
      return .mapping .map [entry] :: (← flowItems false fuel)
    if ← pass? .flowSequenceEnd then return []
    let item ← node false false fuel
    return item :: (← flowItems false fuel)

def flowEntries (first : Bool) : Nat → Read (List (Node × Node))
  | 0 => fail
  | fuel + 1 => do
    if ← pass? .flowMappingEnd then return []
    if !first then expect .flowEntry
    if ← pass? .key then
      let entry ← flowEntry .flowMappingEnd fuel
      return entry :: (← flowEntries false fuel)
    if ← pass? .flowMappingEnd then return []
    let key ← node false false fuel
    return (key, empty) :: (← flowEntries false fuel)

end

/-- The directives before a document: whether a version is set, and the handles. -/
def directives (version : Bool) : Nat → Read Unit
  | 0 => fail
  | fuel + 1 => do
    match ← peek with
    | .directive d =>
      advance
      match d with
      | .version major =>
        if version || major != 1 then fail
        directives true fuel
      | .tagHandle handle start =>
        if (Table.get? handle (← get).handles).isSome then fail
        modify fun s => { s with handles := Table.set handle start s.handles }
        directives version fuel
      | .other => directives version fuel
    | _ =>
      modify fun s => { s with handles := s.handles ++ commonHandles }

def passDocumentEnds : Nat → Read Unit
  | 0 => return
  | fuel + 1 => do
    if ← pass? .documentEnd then passDocumentEnds fuel

def isDirective : Token → Bool
  | .directive _ => true
  | _ => false

/-- The only document of a text, if there is one. -/
def document (fuel : Nat) : Read (Option Node) := do
  let first ← peek
  if first == .streamEnd then return none
  directives false fuel
  let started ← pass? .documentStart
  if isDirective first && !started then fail
  let absent := started &&
    ((← isAt [.documentStart, .documentEnd, .streamEnd]) || isDirective (← peek))
  let root ← if absent then pure empty else node true false fuel
  passDocumentEnds fuel
  expect .streamEnd
  return some root

end Read

namespace Node

/-- The node of the document that a text holds. -/
def ofText (text : List Char) : Except Fault (Option Node) :=
  let stream := TokenStream.ofText text
  let fuel := 4 * stream.tokens.length + 8
  ((Read.document fuel).run { tokens := stream.tokens, fault := stream.fault }).map Prod.fst

end Node

end RepoAtlas.Yaml
