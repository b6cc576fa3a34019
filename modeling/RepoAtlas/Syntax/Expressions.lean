import RepoAtlas.Syntax.Types

/-!
Expressions: literals, functions, operators, calls and assignments.

How tightly binary operators bind is left open: a chain of them is read from
left to right, since nothing that a tree is asked depends on its grouping.
-/
namespace RepoAtlas.Syntax.Grammar

open Scan

/-- Words that are no names where an expression starts. -/
def expressionWords : List String :=
  ["await", "typeof", "void", "delete", "function", "class", "this", "super", "true", "false",
    "null", "undefined", "import", "using", "yield"]

/-- Operators and other marks that an operator could be mistaken for, longest first. -/
def marks : List String :=
  [">>>=", "...", "===", "!==", "**=", "<<=", ">>=", ">>>", "&&=", "||=", "??=",
    "=>", "==", "!=", "<=", ">=", "&&", "||", "??", "?.", "++", "--", "+=", "-=", "*=", "/=",
    "%=", "&=", "|=", "^=", "<<", ">>", "**", "+", "-", "*", "/", "%", "&", "|", "^", "<", ">",
    "=", "!", "?"]

def binaryMarks : List String :=
  [">>>", "===", "!==", "==", "!=", "<=", ">=", "&&", "||", "??", "<<", ">>", "**", "+", "-",
    "*", "/", "%", "&", "|", "^", "<", ">"]

def augmentedMarks : List String :=
  [">>>=", "**=", "<<=", ">>=", "&&=", "||=", "??=", "+=", "-=", "*=", "/=", "%=", "&=", "|=",
    "^="]

/-- The longest mark that a list of characters starts with. -/
def markAt (s : List Char) : String :=
  (marks.find? fun m => m.toList.isPrefixOf s).getD ""

/-- A text between back quotes, with expressions in it. -/
def templateRule (g : Grammar) : Scan Tree :=
  branch .other do
    let opening ← symbol "`"
    let parts ← many do
      let c ← get
      match c.rest with
      | '$' :: '\x7b' :: _ => do
        let mark ← take (.token "") 2
        let value ← g.expressions .never
        let closing ← symbol "\x7d"
        pure [Tree.ofChildren .other mark.start [mark, value, closing]]
      | '\\' :: _ =>
        match escape? c.rest with
        | some n => do
          let _ ← take .other n
          pure []
        | none => fail
      | d :: rest => do
        require (d != '\u0060')
        let run := if d == '$' then [] else
          rest.takeWhile fun x => x != '\u0060' && x != '$' && x != '\\'
        let _ ← take .other (run.length + 1)
        pure []
      | [] => fail
    let c ← get
    require (c.rest.head? == some '\u0060')
    let closing ← take (.token "`") 1
    pure (opening :: parts.flatten ++ [closing])

/-- Expressions between round brackets. -/
def parenthesized (g : Grammar) : Scan Tree :=
  branch .parenthesized do
    let opening ← symbol "("
    let value ← g.expressions .never
    let typing ← Scan.optional (g.typeAnnotation .never)
    let closing ← symbol ")"
    pure (opening :: value :: typing ++ [closing])

/-- Items between square brackets. -/
def arrayRule (g : Grammar) : Scan Tree :=
  branch .array (listedWithGaps "[" "]" (g.spread <|> g.expression))

/-- A block or an expression, as the body of an arrow function. -/
def arrowBody (g : Grammar) (ending : Ending) (typed : Bool) : Scan Tree := do
  let s ← peek
  if s.head? == some '\x7b' then
    g.read .block <|> g.read (.expression ending typed)
  else g.read (.expression ending typed)

/-- A member of an object: a method, a pair, a spread or a name alone. -/
def objectMember (g : Grammar) : Scan Tree := do
  let s ← peek
  if "...".toList.isPrefixOf s then g.spread
  else
    branch .other do
      let before ← modifiers
        ["public", "private", "protected", "static", "override", "readonly", "async", "get", "set"]
        ['*'] .never
      let star ← Scan.optional (symbol "*")
      let n ← g.propertyName
      let question ← Scan.optional (symbol "?")
      let s ← peek
      match s with
      | c :: _ =>
        if c == '(' || c == '<' then
          let signature ← g.callSignature .never
          let body ← g.read .block
          pure (before ++ star ++ [n.withKind .other] ++ question ++ signature ++ [body])
        else if c == ':' then
          require (before.isEmpty && star.isEmpty && question.isEmpty)
          let colon ← symbol ":"
          let value ← g.expression
          pure [n.withKind .other, colon, value]
        else
          require (before.isEmpty && star.isEmpty && question.isEmpty && n.kind == .identifier)
          pure [n.withKind .other]
      | [] => fail

/-- Members between braces. -/
def objectRule (g : Grammar) : Scan Tree :=
  branch .object (listedWithGaps "\x7b" "\x7d" g.objectMember)

/-- A pattern with a default value. -/
def patternWithDefault (g : Grammar) : Scan (List Tree) := do
  let p ← g.read .pattern
  let default ← optionalList (g.initializer .never)
  pure (p :: default)

/-- The rest of a list of bindings. -/
def restPattern (g : Grammar) : Scan Tree :=
  branch .other do
    let dots ← symbol "..."
    let p ← g.read .pattern
    pure [dots, p]

/-- A binding in an object pattern. -/
def boundProperty (g : Grammar) : Scan Tree := do
  let s ← peek
  if "...".toList.isPrefixOf s then g.restPattern
  else
    branch .other do
      let n ← g.propertyName
      (do
        let colon ← symbol ":"
        let value ← g.patternWithDefault
        pure (n.withKind .other :: colon :: value))
      <|> (do
        require (n.kind == .identifier)
        let default ← optionalList (g.initializer .never)
        pure (n.withKind .other :: default))

/-- A property or an element of a place. -/
def placeStep (g : Grammar) (target : Tree) : Scan Tree := do
  let s ← peek
  match s with
  | '.' :: c :: _ => do
    require (c != '.')
    let dot ← symbol "."
    let property ← privateName <|> name
    pure (Tree.ofChildren .memberExpression target.start
      [target, dot, (property.withKind .other).withField .property])
  | '[' :: _ => do
    let opening ← symbol "["
    let index ← g.expressions .never
    let closing ← symbol "]"
    pure (Tree.ofChildren .subscript target.start [target, opening, index, closing])
  | _ => fail

/-- Names to be bound, or places to be assigned. -/
def patternRule (g : Grammar) : Scan Tree := do
  let s ← peek
  match s with
  | '\x7b' :: _ => branch .object (listedWithGaps "\x7b" "\x7d" g.boundProperty)
  | '[' :: _ =>
    branch .array (listedWithGaps "[" "]" (g.restPattern <|> branch .other g.patternWithDefault))
  | _ => do
    let base ← name
    extended g.placeStep base

/-- One parameter of a function. -/
def parameter (g : Grammar) : Scan (List Tree) := do
  let decorators ← many g.decorator
  let before ← many do
    let w ← peekName
    require (["public", "private", "protected", "override", "readonly"].contains w)
    let token ← keyword w
    let s ← peek
    require (nameLength s != 0 || s.head? == some '\x7b' || s.head? == some '[' ||
      "...".toList.isPrefixOf s)
    pure token
  let s ← peek
  let p ← if "...".toList.isPrefixOf s then g.restPattern else g.read .pattern
  let question ← Scan.optional (symbol "?")
  let typing ← Scan.optional (g.typeAnnotation .never)
  let default ← optionalList (g.initializer .never)
  pure (decorators ++ before ++ [p.withKind .other] ++ question ++ typing ++ default)

/-- The parameters of a function between round brackets. -/
def parametersRule (g : Grammar) : Scan Tree :=
  branch .other (listed "(" ")" (do
    let p ← branch .other g.parameter
    pure [p]))

/-- A function with its body, as an expression. -/
def functionExpression (g : Grammar) : Scan Tree := do
  let start ← offset
  let async_ ← Scan.optional (keyword "async")
  let function_ ← keyword "function"
  let star ← Scan.optional (symbol "*")
  let n ← Scan.optional name
  let signature ← g.callSignature .never
  let body ← g.read .block
  pure (Tree.ofChildren (if star.isEmpty then .functionExpression else .generatorFunction) start
    (async_ ++ [function_] ++ star ++ n.map (Tree.withField .name) ++ signature ++
      [body.withField .body]))

/-- An arrow function. Its result type is left out unless `typed` is set. -/
def arrowFunction (g : Grammar) (ending : Ending) (typed : Bool) : Scan Tree :=
  branch .other do
    let async_ ← Scan.optional do
      let a ← keyword "async"
      let s ← peek
      require (s.head? == some '(' || s.head? == some '<' || nameLength s != 0)
      pure a
    let s ← peek
    let before ← match s with
      | c :: _ =>
        if c == '(' || c == '<' then do
          let typeParameters ← if c == '<' then (do
            let t ← g.read .typeParameters
            pure [t]) else pure []
          let parameters ← g.read .parameters
          let result ← if typed then Scan.optional (branch .other do
              let colon ← symbol ":"
              let t ← g.resultType .never
              pure [colon, t])
            else pure []
          let arrow ← symbol "=>"
          pure (typeParameters ++ [parameters] ++ result ++ [arrow])
        else do
          let n ← nameExcept expressionWords
          let arrow ← symbol "=>"
          pure [n, arrow]
      | [] => fail
    let body ← g.arrowBody ending typed
    pure (async_ ++ before ++ [body])

/-- Whether the next token could start an arrow function. -/
def mayStartArrow (s : List Char) : Bool :=
  match s with
  | [] => false
  | c :: _ => c == '(' || c == '<' || nameLength s != 0

/-- A call of `import`, or the module's own properties. -/
def importExpression (g : Grammar) : Scan Tree := do
  let i ← keyword "import"
  let s ← peek
  match s with
  | '.' :: _ => do
    let dot ← symbol "."
    let meta_ ← keyword "meta"
    pure (Tree.ofChildren .other i.start [i, dot, meta_])
  | '(' :: _ => do
    let arguments ← g.arguments
    pure (Tree.ofChildren .callExpression i.start
      [(i.withKind .other).withField .function, arguments.withField .arguments])
  | _ => fail

/-- Type arguments of a call. -/
def argumentTypes (g : Grammar) : Scan Tree := do
  let t ← g.read .typeArguments
  let s ← peek
  require (s.head? == some '(')
  pure t

/-- A class as an expression. -/
def classExpression (g : Grammar) : Scan Tree := do
  let start ← offset
  let class_ ← keyword "class"
  let w ← peekName
  let n ← if w != "" && w != "extends" && w != "implements" then Scan.optional name else pure []
  let tail ← g.read .classTail
  pure (Tree.ofChildren .classExpression start
    (class_ :: n.map (Tree.withField .name) ++ tail.children))

/-- A property, an element, a template or an assertion behind what is constructed. -/
def constructorStep (g : Grammar) (target : Tree) : Scan Tree := do
  let s ← peek
  match s with
  | '!' :: c :: _ => do
    require (c != '=')
    let mark ← symbol "!"
    pure (Tree.ofChildren .nonNull target.start [target, mark])
  | '\u0060' :: _ => do
    let t ← g.read .template
    pure (Tree.ofChildren .callExpression target.start
      [target.withField .function, t.withField .arguments])
  | _ => g.placeStep target

/-- The construction of an object. -/
def newExpression (g : Grammar) : Scan Tree :=
  branch .other do
    let n ← keyword "new"
    let s ← peek
    let w := String.ofList (s.take (nameLength s))
    let base ←
      match s with
      | c :: _ =>
        if c == '(' then g.parenthesized
        else if c == '[' then g.read .array
        else if c == '\x7b' then g.read .object
        else if w == "function" then g.functionExpression
        else if w == "class" then g.classExpression
        else if w == "import" then g.importExpression
        else if ["this", "super", "true", "false", "null", "undefined"].contains w then
          lexeme .other fun _ => some w.length
        else nameExcept expressionWords
      | [] => fail
    let constructor ← extended g.constructorStep base
    let typeArguments ← Scan.optional g.argumentTypes
    let s ← peek
    let arguments ← if s.head? == some '(' then (do
      let a ← g.arguments
      pure [a]) else pure []
    pure (n :: constructor :: typeArguments ++ arguments)

/-- What an expression without operators starts with. -/
def primary (g : Grammar) : Scan Tree := do
  skipAll
  let c ← get
  match c.rest with
  | [] => fail
  | d :: rest =>
    if d == '"' || d == '\'' then string
    else if d.isDigit || (d == '.' && rest.head?.any Char.isDigit) then number
    else if d == '\u0060' then g.read .template
    else if d == '/' then lexeme .other pattern?
    else if d == '[' then g.read .array
    else if d == '(' then g.parenthesized
    else if d == '#' then do
      let n ← privateName
      let w ← peekName
      require (w == "in")
      pure n
    else if d == '\x7b' then
      g.read .object <|> (do
        let p ← g.read .pattern
        let s ← peek
        require (markAt s == "=")
        pure p)
    else if d == '@' then do
      let start ← offset
      let decorators ← many g.decorator
      let k ← g.classExpression
      pure (Tree.ofChildren .classExpression start (decorators ++ k.children))
    else
      let w := String.ofList (c.rest.take (nameLength c.rest))
      if w == "function" then g.functionExpression
      else if w == "async" then
        (do
          let s ← ahead (do let _ ← keyword "async"; peekName)
          require (s == "function")
          g.functionExpression)
        <|> name
      else if w == "class" then g.classExpression
      else if w == "import" then g.importExpression
      else if w == "new" then
        (do
          let n ← keyword "new"
          let dot ← symbol "."
          let target ← keyword "target"
          pure (Tree.ofChildren .other n.start [n, dot, target]))
        <|> g.newExpression <|> name
      else if w == "undefined" then lexeme .undefined fun _ => some 9
      else if ["this", "super", "true", "false", "null"].contains w then
        lexeme .other fun _ => some w.length
      else nameExcept expressionWords

/-- Whether type arguments without a call may stand before these characters. -/
def followsInstantiation (s : List Char) : Bool :=
  match s with
  | [] => true
  | c :: _ =>
    [')', ']', '\x7d', '\x7b', ',', ';', ':', '?', '|', '&', '.'].contains c ||
      ["as", "satisfies", "instanceof", "in", "implements"].contains
        (String.ofList (s.take (nameLength s)))

/-- A property, an element, a call or another suffix of an expression. -/
def suffix (g : Grammar) (ending : Ending) (target : Tree) : Scan Tree := do
  let stop ← atEnd ending
  require !stop
  let s ← peek
  match s with
  | '?' :: '.' :: c :: _ => do
    require !c.isDigit
    let mark ← symbol "?."
    let next ← peek
    match next with
    | '[' :: _ => do
      let opening ← symbol "["
      let index ← g.expressions .never
      let closing ← symbol "]"
      pure (Tree.ofChildren .subscript target.start [target, mark, opening, index, closing])
    | '(' :: _ => do
      let arguments ← g.arguments
      pure (Tree.ofChildren .callExpression target.start
        [target.withField .function, mark, arguments.withField .arguments])
    | '<' :: _ => do
      let typeArguments ← g.read .typeArguments
      let arguments ← g.arguments
      pure (Tree.ofChildren .callExpression target.start
        [target.withField .function, mark, typeArguments, arguments.withField .arguments])
    | _ => do
      let property ← privateName <|> name
      pure (Tree.ofChildren .memberExpression target.start
        [target, mark, (property.withKind .other).withField .property])
  | '.' :: c :: _ => do
    require (c != '.')
    let dot ← symbol "."
    let property ← privateName <|> name
    pure (Tree.ofChildren .memberExpression target.start
      [target, dot, (property.withKind .other).withField .property])
  | '[' :: _ => do
    let opening ← symbol "["
    let index ← g.expressions .never
    let closing ← symbol "]"
    pure (Tree.ofChildren .subscript target.start [target, opening, index, closing])
  | '(' :: _ => do
    let arguments ← g.arguments
    pure (Tree.ofChildren .callExpression target.start
      [target.withField .function, arguments.withField .arguments])
  | '\u0060' :: _ => do
    let t ← g.read .template
    pure (Tree.ofChildren .callExpression target.start
      [target.withField .function, t.withField .arguments])
  | '!' :: rest => do
    require (rest.head? != some '=')
    let mark ← symbol "!"
    pure (Tree.ofChildren .nonNull target.start [target, mark])
  | '<' :: _ => do
    let typeArguments ← g.read .typeArguments
    let next ← peek
    if next.head? == some '(' then
      let arguments ← g.arguments
      pure (Tree.ofChildren .callExpression target.start
        [target.withField .function, typeArguments, arguments.withField .arguments])
    else
      let stop ← atEnd ending
      require (stop || followsInstantiation next)
      pure (Tree.ofChildren .other target.start [target, typeArguments])
  | _ => fail

/-- Whether a value may be assigned to what a node stands for. -/
def assignable (k : Kind) : Bool :=
  [.identifier, .undefined, .memberExpression, .subscript, .nonNull, .parenthesized].contains k

/-- A target, the mark of an assignment and the value, as one node. -/
def assigned (g : Grammar) (ending : Ending) (typed : Bool) (mark : String) (target : Tree) :
    Scan Tree := do
  let m ← symbol mark
  let value ← g.read (.expression ending typed)
  pure (Tree.ofChildren .other target.start [target, m, value])

/--
What a suffix-free end of an operand is followed by: an increment, or an
assignment. A list or an object on the left of an assignment is read again, as
a pattern.
-/
def afterSuffixes (g : Grammar) (ending : Ending) (typed : Bool) (from_ : Cursor) (target : Tree) :
    Scan Tree := do
  let stop ← atEnd ending
  let s ← peek
  let mark := markAt s
  if stop then pure target
  else if mark == "++" || mark == "--" then
    let m ← symbol mark
    pure (Tree.ofChildren .other target.start [target, m])
  else if mark == "=" then
    if assignable target.kind then g.assigned ending typed mark target
    else if target.kind == .array || target.kind == .object then
      set from_
      let p ← g.read .pattern
      g.assigned ending typed mark p
    else fail
  else if augmentedMarks.contains mark && assignable target.kind then
    g.assigned ending typed mark target
  else pure target

/-- A primary expression with its suffixes. -/
def chain (g : Grammar) (ending : Ending) (typed : Bool) : Scan Tree := do
  let from_ ← get
  let base ← g.primary
  let target ← extended (g.suffix ending) base
  g.afterSuffixes ending typed from_ target

/-- An operand of an operator. -/
def operandRule (g : Grammar) (ending : Ending) (typed : Bool) : Scan Tree := do
  skipAll
  let c ← get
  let s := c.rest
  let w := String.ofList (s.take (nameLength s))
  let mark := markAt s
  let operand := g.read (.operand ending typed)
  if ["typeof", "void", "delete", "await"].contains w then
    branch .other do
      let k ← keyword w
      let value ← operand
      pure [k, value]
  else if w == "using" then
    branch .other do
      let k ← keyword w
      let from_ ← get
      let base ← g.primary
      let target ← extended (g.suffix ending) base
      let s ← peek
      require (markAt s == "=")
      let value ← g.afterSuffixes ending typed from_ target
      pure [k, value]
  else if w == "yield" then
    branch .other do
      let k ← keyword w
      let stop ← atEnd ending
      let star ← Scan.optional (symbol "*")
      let value ← if star.isEmpty then
          if stop then pure [] else Scan.optional (g.read (.expression ending typed))
        else (do
          let value ← g.read (.expression ending typed)
          pure [value])
      pure (k :: star ++ value)
  else if mark == "++" || mark == "--" then
    branch .other do
      let m ← symbol mark
      let value ← operand
      pure [m, value]
  else if mark == "!" || mark == "+" || mark == "-" || s.head? == some '~' || mark == "!=" then
    branch .other do
      let m ← take (.token "") 1
      let value ← operand
      pure [m, value]
  else if mark == "<" || mark == "<=" || mark == "<<" then
    g.arrowFunction ending typed <|>
      (if g.markup then do
        let element ← g.read .markup
        extended (g.suffix ending) element
      else
        branch .other do
          let arguments ← g.read .typeArguments
          let value ← operand
          pure [arguments, value])
  else if mayStartArrow s then
    g.arrowFunction ending typed <|> g.chain ending typed
  else g.chain ending typed

/-- An operator and its right operand, behind a left one. -/
def operation (g : Grammar) (ending : Ending) (typed : Bool) (left : Tree) : Scan Tree := do
  let stop ← atEnd ending
  require !stop
  let s ← peek
  let w := String.ofList (s.take (nameLength s))
  if w == "in" || w == "instanceof" then
    let k ← keyword w
    let right ← g.read (.operand ending typed)
    pure (Tree.ofChildren .other left.start [left, k, right])
  else if w == "as" || w == "satisfies" then
    let k ← keyword w
    let t ← g.read (.type ending)
    pure (Tree.ofChildren .other left.start [left, k, t])
  else
    let mark := markAt s
    require (binaryMarks.contains mark)
    let m ← symbol mark
    let right ← g.read (.operand ending typed)
    pure (Tree.ofChildren .other left.start [left, m, right])

/-- The mark of a choice between two values. -/
def questionMark : Scan Tree := do
  let m ← symbolNot "?" ['?', '.'] <|> (do
    let s ← peek
    match s with
    | '?' :: '.' :: c :: _ => do
      require c.isDigit
      symbol "?"
    | _ => fail)
  pure m

/-- One expression. -/
def expressionRule (g : Grammar) (ending : Ending) (typed : Bool) : Scan Tree := do
  let first ← g.read (.operand ending typed)
  let left ← extended (g.operation ending typed) first
  (do
    let stop ← atEnd ending
    require !stop
    let question ← questionMark
    let consequence ←
      (do
        let value ← g.read (.expression .never true)
        let s ← peek
        require (s.head? == some ':')
        pure value)
      <|> g.read (.expression .never false)
    let colon ← symbol ":"
    let alternative ← g.read (.expression ending typed)
    pure (Tree.ofChildren .other left.start [left, question, consequence, colon, alternative]))
    <|> pure left

end RepoAtlas.Syntax.Grammar
