import RepoAtlas.Syntax.Scan

/-!
The constructs of the language that contain one another, and what every part
of the grammar needs: the dialect, and a way to read such a construct.

No rule calls itself. A rule is a plain definition over a `Grammar`, whose
`read` field stands for all rules, one level of nesting further in.
-/
namespace RepoAtlas.Syntax

/-- A construct that may stand inside itself. -/
inductive Goal where
  | statement (inSwitch : Bool)
  | block
  | declaration
  /-- One expression. An arrow function in it may have a result type if `typed` is set. -/
  | expression (ending : Ending) (typed : Bool)
  /-- An operand of a unary or binary operator. -/
  | operand (ending : Ending) (typed : Bool)
  | type (ending : Ending)
  | typeOperand (ending : Ending)
  | pattern
  | parameters
  | typeArguments
  | typeParameters
  | objectType (kind : Kind)
  | template
  | object
  | array
  /-- What follows the name of a class. -/
  | classTail
  | markup
deriving Repr, DecidableEq, Inhabited

/-- A dialect, and the rules for the constructs inside the one at hand. -/
structure Grammar where
  /-- Whether markup elements are expressions; otherwise type assertions are. -/
  markup : Bool
  read : Goal → Scan Tree

namespace Grammar

open Scan

/-- One expression that ends no statement. -/
def expression (g : Grammar) : Scan Tree :=
  g.read (.expression .never true)

/-- A type that ends no statement. -/
def type (g : Grammar) : Scan Tree :=
  g.read (.type .never)

/-- One or more expressions with commas between them. -/
def expressions (g : Grammar) (ending : Ending) : Scan Tree := do
  let first ← g.read (.expression ending true)
  let more ← many do
    let stop ← atEnd ending
    require !stop
    let comma ← symbol ","
    let next ← g.read (.expression ending true)
    pure [comma, next]
  if more.isEmpty then pure first
  else pure (Tree.ofChildren .other first.start (first :: more.flatten))

/-- Items between two marks, with commas between them and perhaps one more behind the last. -/
def listed (opening closing : String) (item : Scan (List Tree)) : Scan (List Tree) := do
  let first ← symbol opening
  let items ← optionalList do
    let items ← separated item (symbol ",")
    let trailing ← Scan.optional (symbol ",")
    pure (items ++ trailing)
  let last ← symbol closing
  pure (first :: items ++ [last])

/-- As `listed`, but any item may be left out. -/
def listedWithGaps (opening closing : String) (item : Scan Tree) : Scan (List Tree) := do
  let first ← symbol opening
  let items ← separated (Scan.optional item) (symbol ",")
  let last ← symbol closing
  pure (first :: items ++ [last])

/-- What an initializer gives. -/
def initializer (g : Grammar) (ending : Ending) : Scan (List Tree) := do
  let equals ← symbolNot "=" ['=', '>']
  let value ← g.read (.expression ending true)
  pure [equals, value.withField .value]

/-- A quoted string. -/
def string : Scan Tree :=
  lexeme .string string?

/-- A number. -/
def number : Scan Tree :=
  lexeme .other number?

/-- A name after a number sign. -/
def privateName : Scan Tree :=
  lexeme .other fun
    | '#' :: rest =>
      let n := nameLength rest
      if n == 0 then none else some (n + 1)
    | _ => none

/-- A name between square brackets that is computed. -/
def computedName (g : Grammar) : Scan Tree :=
  branch .other do
    let opening ← symbol "["
    let value ← g.expression
    let closing ← symbol "]"
    pure [opening, value, closing]

/-- The name of a property. -/
def propertyName (g : Grammar) : Scan Tree := do
  let s ← peek
  match s with
  | '[' :: _ => g.computedName
  | '#' :: _ => privateName
  | c :: d :: _ =>
    if c == '"' || c == '\'' then string
    else if c.isDigit || (c == '.' && d.isDigit) then number
    else name
  | _ => name

/-- Whether the next token may start the name of a property. -/
def startsPropertyName (s : List Char) : Bool :=
  match s with
  | [] => false
  | c :: d =>
    c == '[' || c == '#' || c == '"' || c == '\'' || c.isDigit || nameLength (c :: d) != 0

/--
Modifiers in front of a member's name. A word is one only if the name of a
property, or one of the marks in `others`, follows before the member can end.
-/
def modifiers (words : List String) (others : List Char) (ending : Ending) : Scan (List Tree) :=
  many do
    let w ← peekName
    require (words.contains w)
    let token ← keyword w
    let stop ← atEnd ending
    require !stop
    let s ← peek
    require (startsPropertyName s || s.head?.any others.contains)
    pure token

/-- A colon and a type. -/
def typeAnnotation (g : Grammar) (ending : Ending) : Scan Tree :=
  branch .other do
    let colon ← symbol ":"
    let type ← g.read (.type ending)
    pure [colon, type]

/-- What a test of a type says: a name, the word `is` and a type. -/
def typePredicate (g : Grammar) (ending : Ending) : Scan Tree :=
  branch .other do
    let subject ← name
    let is ← keyword "is"
    let type ← g.read (.type ending)
    pure [subject, is, type]

/-- An assertion about an argument. -/
def assertion (g : Grammar) (ending : Ending) : Scan Tree :=
  branch .other do
    let asserts ← keyword "asserts"
    let subject ← g.typePredicate ending <|> name
    pure [asserts, subject]

/-- The result of a function: a type, a test of a type, or an assertion. -/
def resultType (g : Grammar) (ending : Ending) : Scan Tree := do
  let w ← peekName
  if w == "asserts" then g.assertion ending
  else g.typePredicate ending <|> g.read (.type ending)

/-- The parameters of a function with its type parameters and its result. -/
def callSignature (g : Grammar) (ending : Ending) : Scan (List Tree) := do
  let s ← peek
  let typeParameters ← if s.head? == some '<' then (do
    let t ← g.read .typeParameters
    pure [t]) else pure []
  let parameters ← g.read .parameters
  let result ← Scan.optional (branch .other do
    let stop ← atEnd ending
    require !stop
    let colon ← symbol ":"
    let type ← g.resultType ending
    pure [colon, type])
  pure (typeParameters ++ [parameters] ++ result)

/-- An expression whose items take its place. -/
def spread (g : Grammar) : Scan Tree :=
  branch .other do
    let dots ← symbol "..."
    let value ← g.expression
    pure [dots, value]

/-- Arguments between round brackets. -/
def arguments (g : Grammar) : Scan Tree :=
  branch .other (listedWithGaps "(" ")" (g.spread <|> g.expression))

/-- What a decorator applies: a name, a property of one, or a call of either. -/
def decoratorTarget (g : Grammar) : Scan Tree := do
  let base ← name
  let properties ← many do
    let dot ← symbolNot "." ['.']
    let property ← name
    pure (dot, property)
  let target := properties.foldl (fun object (dot, property) =>
    Tree.ofChildren .memberExpression object.start
      [object, dot, (property.withKind .other).withField .property]) base
  (do
    let s ← peek
    let typeArguments ← if s.head? == some '<' then (do
      let t ← g.read .typeArguments
      pure [t]) else pure []
    let arguments ← g.arguments
    pure (Tree.ofChildren .callExpression target.start
      (target.withField .function :: typeArguments ++ [arguments.withField .arguments])))
    <|> pure target

/-- A decorator: what it applies, perhaps in round brackets. -/
def decorator (g : Grammar) : Scan Tree :=
  branch .other do
    let sign ← symbol "@"
    let s ← peek
    if s.head? == some '(' then
      let opening ← symbol "("
      let target ← g.decoratorTarget
      let closing ← symbol ")"
      pure [sign, opening, target, closing]
    else
      let target ← g.decoratorTarget
      pure [sign, target]

end Grammar

end RepoAtlas.Syntax
