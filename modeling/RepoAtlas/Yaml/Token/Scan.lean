import RepoAtlas.Yaml.Token.Block
import RepoAtlas.Yaml.Token.Plain
import RepoAtlas.Yaml.Token.Quoted

/-!
Cutting a text into tokens. Indentation opens and closes blocks, and a colon
turns what stands before it into a key.
-/
namespace RepoAtlas.Yaml

namespace Lex

/-- Most characters of a key without a mark. -/
def maxKeyLength : Nat := 1024

/-- Whether a key that started at a candidate may still end here. -/
def isCurrent (cursor : Cursor) (k : KeyCandidate) : Bool :=
  k.start.line == cursor.line && cursor.index - k.start.index ≤ maxKeyLength

/-- Drops the candidates that satisfy `p`, none of which may be required. -/
def dropCandidates (p : KeyCandidate → Bool) : Lex Unit := do
  let s ← get
  if s.candidates.any fun k => p k && k.required then fail
  set { s with candidates := s.candidates.filter fun k => !p k }

/-- Drops the keys that did not get their colon in time. -/
def dropStale : Lex Unit := do
  let cursor := (← get).cursor
  dropCandidates fun k => !isCurrent cursor k

/-- Drops the candidate inside the innermost brackets. -/
def dropCandidate : Lex Unit := do
  let level := (← get).level
  dropCandidates fun k => k.level == level

/-- Notes that a key may start here. -/
def noteCandidate : Lex Unit := do
  let s ← get
  if s.keyAllowed then
    dropCandidate
    let k : KeyCandidate :=
      { level := s.level, position := s.tokens.size, start := s.cursor
        required := s.level == 0 && s.indent == (s.cursor.column : Int) }
    modify fun s => { s with candidates := k :: s.candidates }

/-- Closes the blocks that are indented deeper than a column. -/
def unwind (column : Int) : Lex Unit := do
  let s ← get
  if s.level == 0 then
    set (close s.outer s)
where
  close : List Int → Lexer → Lexer
    | [], s => s
    | i :: outer, s =>
      if column < s.indent then
        close outer { s with indent := i, outer, tokens := s.tokens.push .blockEnd }
      else s

/-- Opens a block at a column, if it is indented deeper than the one around it. -/
def deepen (column : Nat) : Lex Bool := do
  let s ← get
  if s.indent < column then
    set { s with indent := (column : Int), outer := s.indent :: s.outer }
    return true
  return false

/-- Passes blanks, remarks and line breaks. A key may start on each new line. -/
def passGap : Nat → Lex Unit
  | 0 => return
  | fuel + 1 => do
    passSpaces
    passComment
    if !(← lineBreak).isEmpty then
      if !(← inFlow) then allowKey true
      passGap fuel

def passToToken : Lex Unit := do
  let s ← get
  if s.cursor.index == 0 && s.cursor.peek 0 == '\uFEFF' then skip
  passGap (← remaining)

/-- Ends all blocks before a line that belongs to no block. -/
def endBlocks : Lex Unit := do
  unwind (-1)
  dropCandidate
  allowKey false

def lexSeparator (t : Token) : Lex Unit := do
  endBlocks
  skip 3
  emit t

def openBracket (t : Token) : Lex Unit := do
  noteCandidate
  modify fun s => { s with level := s.level + 1, keyAllowed := true }
  skip
  emit t

def closeBracket (t : Token) : Lex Unit := do
  dropCandidate
  if !(← inFlow) then fail
  modify fun s => { s with level := s.level - 1, keyAllowed := false }
  skip
  emit t

def lexFlowEntry : Lex Unit := do
  allowKey true
  dropCandidate
  skip
  emit .flowEntry

/-- Opens a block for an entry that starts here, outside brackets. -/
def openBlock (t : Token) : Lex Unit := do
  let s ← get
  if s.level == 0 then
    if !s.keyAllowed then fail
    if ← deepen s.cursor.column then emit t

def lexBlockEntry : Lex Unit := do
  openBlock .blockSequenceStart
  allowKey true
  dropCandidate
  skip
  emit .blockEntry

def lexKey : Lex Unit := do
  openBlock .blockMappingStart
  allowKey !(← inFlow)
  dropCandidate
  skip
  emit .key

/-- Puts a token before those from a position on. -/
def insertToken (position : Nat) (t : Token) : Lex Unit :=
  modify fun s =>
    { s with tokens := s.tokens.extract 0 position ++ #[t] ++
        s.tokens.extract position s.tokens.size }

/-- A colon: what the candidate started is a key, or the key is empty. -/
def lexValue : Lex Unit := do
  let s ← get
  match s.candidates.find? fun k => k.level == s.level with
  | some k =>
    set { s with candidates := s.candidates.filter fun k => k.level != s.level }
    insertToken k.position .key
    if s.level == 0 then
      if ← deepen k.start.column then insertToken k.position .blockMappingStart
    allowKey false
  | none =>
    openBlock .blockMappingStart
    allowKey !(← inFlow)
  skip
  emit .value

/-- A token that may start a key, and that no key may follow directly. -/
def lexWord (read : Lex Token) : Lex Unit := do
  noteCandidate
  allowKey false
  emit (← read)

def lexBlockText (folded : Bool) : Lex Unit := do
  allowKey true
  dropCandidate
  emit (.scalar (← blockText folded) false)

/-- Whether text without quotes starts here. -/
def startsPlain (inFlow : Bool) (c after : Char) : Bool :=
  !(isGap c || "-?:,[]\x7b\x7d#&*!|>'\"%@\u0060".toList.contains c) ||
    (!isGap after && (c == '-' || (!inFlow && (c == '?' || c == ':'))))

/-- The next token, and those that it makes necessary. Gives whether the text goes on. -/
def lexNext : Lex Bool := do
  passToToken
  dropStale
  unwind (← get).cursor.column
  let cursor := (← get).cursor
  let flow ← inFlow
  let c := cursor.peek 0
  let alone := isGap (cursor.peek 1)
  if c == endMark then
    endBlocks
    modify fun s => { s with candidates := [] }
    emit .streamEnd
    return false
  if c == '%' && cursor.column == 0 then
    endBlocks
    emit (.directive (← directive))
  else if cursor.column == 0 && cursor.isAtMarker '-' then lexSeparator .documentStart
  else if cursor.column == 0 && cursor.isAtMarker '.' then lexSeparator .documentEnd
  else if c == '[' then openBracket .flowSequenceStart
  else if c == '\x7b' then openBracket .flowMappingStart
  else if c == ']' then closeBracket .flowSequenceEnd
  else if c == '\x7d' then closeBracket .flowMappingEnd
  else if c == ',' then lexFlowEntry
  else if c == '-' && alone then lexBlockEntry
  else if c == '?' && (flow || alone) then lexKey
  else if c == ':' && (flow || alone) then lexValue
  else if c == '*' then lexWord (Token.alias <$> anchorName)
  else if c == '&' then lexWord (Token.anchor <$> anchorName)
  else if c == '!' then lexWord (Token.tag <$> writtenTag)
  else if c == '|' && !flow then lexBlockText false
  else if c == '>' && !flow then lexBlockText true
  else if c == '\'' then lexWord ((Token.scalar · false) <$> quotedText false)
  else if c == '"' then lexWord ((Token.scalar · false) <$> quotedText true)
  else if startsPlain flow c (cursor.peek 1) then
    lexWord ((Token.scalar · true) <$> plainText)
  else fail
  return true

end Lex

/-- The tokens of a text up to its end, or up to a fault. -/
structure TokenStream where
  tokens : List Token
  fault : Fault
deriving Repr, Inhabited

namespace TokenStream

def ofLexer : Nat → Lexer → TokenStream
  | 0, s => ⟨s.tokens.toList, .malformed⟩
  | fuel + 1, s =>
    match Lex.lexNext.run s with
    | .ok (true, next) => ofLexer fuel next
    | .ok (false, last) => ⟨last.tokens.toList, .malformed⟩
    | .error fault => ⟨s.tokens.toList, fault⟩

def ofText (text : List Char) : TokenStream :=
  if text.all isAllowed then ofLexer (text.length + 2) { cursor := { rest := text } }
  else ⟨[], .malformed⟩

end TokenStream

end RepoAtlas.Yaml
