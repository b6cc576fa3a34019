import RepoAtlas.Syntax.Grammar

/-!
Types: unions and intersections of operands, conditional types, function and
object types, and the lists of type arguments and parameters.
-/
namespace RepoAtlas.Syntax.Grammar

open Scan

/-- A bar or an ampersand that is no part of a longer operator. -/
def joiner (mark : String) : Scan Tree :=
  symbolNot mark ['|', '&', '\x7d', '=']

/-- Operands with a mark between them, and perhaps one in front. -/
def joined (ending : Ending) (mark : String) (operand : Scan Tree) : Scan Tree := do
  let leading ← Scan.optional (joiner mark)
  let first ← operand
  let more ← many do
    let stop ← atEnd ending
    require !stop
    let m ← joiner mark
    let next ← operand
    pure [m, next]
  if leading.isEmpty && more.isEmpty then pure first
  else pure (Tree.ofChildren .other first.start (leading ++ first :: more.flatten))

/-- A union of intersections of operands. -/
def unionType (g : Grammar) (ending : Ending) : Scan Tree :=
  joined ending "|" (joined ending "&" (g.read (.typeOperand ending)))

/-- A type, which may be a conditional one. -/
def typeRule (g : Grammar) (ending : Ending) : Scan Tree := do
  let left ← g.unionType ending
  (do
    let stop ← atEnd ending
    require !stop
    let extends_ ← keyword "extends"
    let right ← g.type
    let question ← symbol "?"
    let yes ← g.type
    let colon ← symbol ":"
    let no ← g.read (.type ending)
    pure (Tree.ofChildren .other left.start [left, extends_, right, question, yes, colon, no]))
    <|> pure left

/-- Type arguments between angle brackets. -/
def typeArguments (g : Grammar) : Scan Tree :=
  branch .other do
    let opening ← symbolNot "<" ['<', '=']
    let items ← separated (do let t ← g.type; pure [t]) (symbol ",")
    let trailing ← Scan.optional (symbol ",")
    let closing ← symbol ">"
    pure (opening :: items ++ trailing ++ [closing])

/-- One type parameter with its bound and its default. -/
def typeParameter (g : Grammar) : Scan Tree :=
  branch .other do
    let const_ ← Scan.optional do
      let token ← keyword "const"
      let w ← peekName
      require (w != "")
      pure token
    let n ← name
    let bound ← optionalList do
      let mark ← keyword "extends" <|> symbol ":"
      let t ← g.type
      pure [mark, t]
    let default ← optionalList do
      let equals ← symbolNot "=" ['=', '>']
      let t ← g.type
      pure [equals, t]
    pure (const_ ++ [n] ++ bound ++ default)

/-- Type parameters between angle brackets. -/
def typeParameters (g : Grammar) : Scan Tree :=
  branch .other do
    let opening ← symbol "<"
    let items ← separated (do let t ← g.typeParameter; pure [t]) (symbol ",")
    let trailing ← Scan.optional (symbol ",")
    let closing ← symbol ">"
    pure (opening :: items ++ trailing ++ [closing])

/-- The type of a function. -/
def functionType (g : Grammar) (ending : Ending) : Scan Tree :=
  branch .other do
    let s ← peek
    let typeParameters ← if s.head? == some '<' then (do
      let t ← g.read .typeParameters
      pure [t]) else pure []
    let parameters ← g.read .parameters
    let arrow ← symbol "=>"
    let result ← g.resultType ending
    pure (typeParameters ++ [parameters, arrow, result])

/-- The type of a constructor. -/
def constructorType (g : Grammar) (ending : Ending) : Scan Tree :=
  branch .other do
    let abstract_ ← Scan.optional (keyword "abstract")
    let new_ ← keyword "new"
    let s ← peek
    let typeParameters ← if s.head? == some '<' then (do
      let t ← g.read .typeParameters
      pure [t]) else pure []
    let parameters ← g.read .parameters
    let arrow ← symbol "=>"
    let result ← g.read (.type ending)
    pure (abstract_ ++ [new_] ++ typeParameters ++ [parameters, arrow, result])

/-- One item of a tuple type. -/
def tupleMember (g : Grammar) : Scan Tree :=
  branch .other do
    (do
      let n ← name
      let question ← Scan.optional (symbol "?")
      let typing ← g.typeAnnotation .never
      pure (n :: question ++ [typing]))
    <|> (do
      let dots ← symbol "..."
      (do
        let n ← name
        let typing ← g.typeAnnotation .never
        pure [dots, n, typing])
      <|> (do
        let t ← g.type
        pure [dots, t]))
    <|> (do
      let t ← g.type
      let question ← Scan.optional (symbol "?")
      pure (t :: question))

/-- Names with dots between them. -/
def dottedName : Scan Tree := do
  let first ← name
  let more ← many do
    let dot ← symbolNot "." ['.']
    let n ← name
    pure [dot, n]
  if more.isEmpty then pure first
  else pure (Tree.ofChildren .other first.start (first :: more.flatten))

/-- Properties and calls that follow what a type asks about. -/
def queryTail (g : Grammar) (calls : Bool) (base : Tree) : Scan Tree := do
  let step (target : Tree) : Scan Tree := do
    let s ← peek
    match s with
    | '.' :: _ => do
      let dot ← symbolNot "." ['.']
      let property ← privateName <|> name
      pure (Tree.ofChildren .memberExpression target.start
        [target, dot, (property.withKind .other).withField .property])
    | '?' :: '.' :: _ => do
      require calls
      let dot ← symbol "?."
      let property ← privateName <|> name
      pure (Tree.ofChildren .memberExpression target.start
        [target, dot, (property.withKind .other).withField .property])
    | '(' :: _ => do
      let arguments ← g.arguments
      pure (Tree.ofChildren .callExpression target.start
        [target.withField .function, arguments.withField .arguments])
    | '[' :: _ => do
      require calls
      let opening ← symbol "["
      let index ← string <|> number <|> name
      let closing ← symbol "]"
      pure (Tree.ofChildren .subscript target.start [target, opening, index, closing])
    | _ => fail
  extended step base

/-- The type of a value. -/
def typeQuery (g : Grammar) : Scan Tree :=
  branch .other do
    let typeof_ ← keyword "typeof"
    let w ← peekName
    let base ←
      if w == "import" then keyword "import" else name
    let base := if w == "import" || w == "this" then base.withKind .other else base
    let target ← g.queryTail true base
    let s ← peek
    let typeArguments ← if s.head? == some '<' then
        Scan.optional (g.read .typeArguments)
      else pure []
    pure (typeof_ :: target :: typeArguments)

/-- A literal text with types in it. -/
def templateType (g : Grammar) : Scan Tree :=
  branch .other do
    let opening ← symbol "`"
    let parts ← many do
      let c ← get
      match c.rest with
      | '$' :: '\x7b' :: _ => do
        let mark ← take (.token "") 2
        let t ← g.type
        let closing ← symbol "\x7d"
        pure [mark, t, closing]
      | d :: _ => do
        require (d != '\u0060' && d != '\\')
        let t ← take (.token "") 1
        pure [t]
      | [] => fail
    let c ← get
    require (c.rest.head? == some '\u0060')
    let closing ← take (.token "`") 1
    pure (opening :: parts.flatten ++ [closing])

/-- The words that stand for types of their own. -/
def builtinTypes : List String :=
  ["any", "number", "boolean", "string", "symbol", "void", "unknown", "never", "object", "this",
    "const", "true", "false", "null", "undefined"]

/-- A type by its name, with its arguments. -/
def namedType (g : Grammar) (ending : Ending) : Scan Tree := do
  let n ← dottedName
  let stop ← atEnd ending
  let s ← peek
  if !stop && s.head? == some '<' && (s.drop 1).head? != some '<' then
    (do
      let arguments ← g.read .typeArguments
      pure (Tree.ofChildren .other n.start [n.withKind .other, arguments]))
    <|> pure (n.withKind .other)
  else pure (n.withKind .other)

/-- A type to which index brackets may be added. -/
def primaryType (g : Grammar) (ending : Ending) : Scan Tree := do
  let s ← peek
  match s with
  | '(' :: _ => branch .other do
    let opening ← symbol "("
    let t ← g.type
    let closing ← symbol ")"
    pure [opening, t, closing]
  | '\x7b' :: _ => g.read (.objectType .objectType)
  | '[' :: _ =>
    branch .other do
      let opening ← symbol "["
      let items ← optionalList (separated (do let t ← g.tupleMember; pure [t]) (symbol ","))
      let trailing ← Scan.optional (symbol ",")
      let closing ← symbol "]"
      pure (opening :: items ++ trailing ++ [closing])
  | '\u0060' :: _ => g.templateType
  | '*' :: _ => symbol "*"
  | '?' :: _ => branch .other do
    let question ← symbol "?"
    let t ← g.read (.typeOperand ending)
    pure [question, t]
  | c :: rest =>
    if c == '"' || c == '\'' then string
    else if c.isDigit || (c == '.' && rest.head?.any Char.isDigit) then number
    else if c == '-' || c == '+' then
      branch .other do
        let sign ← symbol "-" <|> symbol "+"
        let n ← number
        pure [sign, n]
    else
      let w := String.ofList (s.take (nameLength s))
      if w == "keyof" then
        branch .other do
          let k ← keyword "keyof"
          let t ← g.read (.typeOperand ending)
          pure [k, t]
      else if w == "typeof" then g.typeQuery
      else if w == "unique" then
        (branch .other do
          let u ← keyword "unique"
          let symbol_ ← keyword "symbol"
          pure [u, symbol_])
        <|> g.namedType ending
      else if builtinTypes.contains w then
        (do
          let t ← lexeme .other fun s => some (nameLength s)
          let s ← peek
          require (s.head? != some '.' || w == "this")
          pure t)
        <|> g.namedType ending
      else g.namedType ending
  | [] => fail

/-- One pair of index brackets behind a type. -/
def indexedOnce (g : Grammar) (ending : Ending) (t : Tree) : Scan Tree := do
  let stop ← atEnd ending
  require !stop
  let opening ← symbol "["
  let index ← Scan.optional g.type
  let closing ← symbol "]"
  pure (Tree.ofChildren .other t.start (t :: opening :: index ++ [closing]))

/-- A type that is inferred, perhaps within a bound. -/
def inferredType (g : Grammar) : Scan Tree :=
  branch .other do
    let infer ← keyword "infer"
    let n ← name
    let bound ← optionalList do
      let extends_ ← keyword "extends"
      let t ← g.type
      pure [extends_, t]
    pure (infer :: n :: bound)

/-- An operand of a union or an intersection. -/
def typeOperandRule (g : Grammar) (ending : Ending) : Scan Tree := do
  let s ← peek
  let primary : Scan Tree := do
    let t ← g.primaryType ending
    extended (g.indexedOnce ending) t
  match s with
  | '(' :: _ => g.functionType ending <|> primary
  | '<' :: _ => g.functionType ending
  | _ =>
    let w := String.ofList (s.take (nameLength s))
    if w == "new" || w == "abstract" then g.constructorType ending <|> primary
    else if w == "readonly" then
      (branch .other do
        let r ← keyword "readonly"
        let t ← g.read (.typeOperand ending)
        pure [r, t])
      <|> primary
    else if w == "infer" then g.inferredType <|> primary
    else if w == "import" then do
      let i ← keyword "import"
      g.queryTail false (i.withKind .other)
    else primary

/-- The mark in front of the type of an index. -/
def indexAnnotation (g : Grammar) : Scan Tree :=
  branch .other do
    let mark ← symbol "-?:" <|> symbol "+?:" <|> symbol "?:" <|> symbol ":"
    let t ← g.read (.type .plain)
    pure [mark, t]

/-- A member of an object type that stands for all keys of a type. -/
def indexSignature (g : Grammar) : Scan Tree :=
  branch .other do
    let readonly_ ← optionalList do
      let sign ← Scan.optional (symbol "+" <|> symbol "-")
      let r ← keyword "readonly"
      pure (sign ++ [r])
    let opening ← symbol "["
    let n ← name
    let key ←
      (do
        let colon ← symbol ":"
        let t ← g.type
        pure [colon, t])
      <|> (do
        let in_ ← keyword "in"
        let t ← g.type
        let as_ ← optionalList do
          let a ← keyword "as"
          let t ← g.type
          pure [a, t]
        pure (in_ :: t :: as_))
    let closing ← symbol "]"
    let typing ← g.indexAnnotation
    pure (readonly_ ++ opening :: n :: key ++ [closing, typing])

/-- A member of an object type without a name that can be called or constructed. -/
def callOrConstruct (g : Grammar) : Scan Tree :=
  branch .other do
    let new_ ← optionalList do
      let abstract_ ← Scan.optional (keyword "abstract")
      let n ← keyword "new"
      pure (abstract_ ++ [n])
    let s ← peek
    require (s.head? == some '(' || s.head? == some '<')
    let signature ← g.callSignature .plain
    pure (new_ ++ signature)

/-- A property or a method of an object type. -/
def namedMember (g : Grammar) : Scan Tree := do
  let start ← offset
  let before ← modifiers
    ["public", "private", "protected", "static", "override", "readonly", "async", "get", "set"]
    ['*'] .plain
  let star ← Scan.optional (symbol "*")
  let n ← g.propertyName
  let stop ← atEnd .plain
  if stop then
    pure (Tree.ofChildren .propertySignature start (before ++ star ++ [n.withField .name]))
  else
    let question ← Scan.optional (symbol "?")
    let s ← peek
    let stop ← atEnd .plain
    if !stop && (s.head? == some '(' || s.head? == some '<') then
      let signature ← g.callSignature .plain
      pure (Tree.ofChildren .methodSignature start
        (before ++ star ++ [n.withField .name] ++ question ++ signature))
    else
      let typing ← Scan.optional (g.typeAnnotation .plain)
      pure (Tree.ofChildren .propertySignature start
        (before ++ star ++ [n.withField .name] ++ question ++
          typing.map (Tree.withField .type)))

/-- A member of an object type. -/
def typeMember (g : Grammar) : Scan Tree :=
  g.indexSignature <|> g.callOrConstruct <|> g.namedMember

/-- The members of an object type, or of an interface, between braces. -/
def objectTypeRule (g : Grammar) (kind : Kind) : Scan Tree :=
  branch kind do
    let exact ← test (symbol "\x7b|")
    let opening ← if exact then symbol "\x7b|" else symbol "\x7b"
    let separator : Scan Tree := symbol "," <|> semicolon .plain
    let members ← optionalList do
      let leading ← Scan.optional (symbol "," <|> symbol ";")
      let first ← g.typeMember
      let more ← manyLists do
        let s ← separator
        let m ← g.typeMember
        pure [s, m]
      let trailing ← Scan.optional separator
      pure (leading ++ first :: more ++ trailing)
    let closing ← if exact then symbol "|\x7d" else symbol "\x7d"
    pure (opening :: members ++ [closing])

end RepoAtlas.Syntax.Grammar
