import RepoAtlas.Syntax.Expressions

/-!
Classes: what they extend, and their fields, methods and static blocks.
-/
namespace RepoAtlas.Syntax.Grammar

open Scan

/-- A class or an interface that is extended: an expression with its suffixes. -/
def heritageItem (g : Grammar) : Scan (List Tree) := do
  let base ← g.primary
  let value ← extended (g.suffix .never) base
  let typeArguments ← Scan.optional (g.read .typeArguments)
  pure (value :: typeArguments)

/-- What a class extends and implements. -/
def heritage (g : Grammar) : Scan (List Tree) := do
  let extends_ ← optionalList do
    let k ← keyword "extends"
    let items ← separated g.heritageItem (symbol ",")
    pure (k :: items)
  let implements ← optionalList do
    let k ← keyword "implements"
    let items ← separated (do let t ← g.type; pure [t]) (symbol ",")
    pure (k :: items)
  pure (extends_ ++ implements)

/-- The words that may stand in front of the name of a member. -/
def memberModifiers : List String :=
  ["public", "private", "protected", "static", "override", "readonly", "abstract", "declare",
    "accessor", "async", "get", "set"]

/-- A block that runs when a class is made. -/
def staticBlock (g : Grammar) : Scan (List Tree) := do
  let k ← keyword "static"
  let s ← peek
  require (s.head? == some '\x7b')
  let body ← g.read .block
  pure [k, body]

/-- The end of a member without a body. -/
def memberEnd (ending : Ending) : Scan (List Tree) := do
  let mark ← symbol "," <|> semicolon ending
  pure [mark]

/-- A field or a method with its end. -/
def namedClassMember (g : Grammar) : Scan (List Tree) := do
  let decorators ← many g.decorator
  let before ← modifiers memberModifiers ['*'] .plain
  let star ← Scan.optional (symbol "*")
  let n ← g.propertyName
  let stop ← atEnd .plain
  let mark ← if stop then pure [] else Scan.optional (symbol "?" <|> symbolNot "!" ['='])
  let s ← peek
  let start := decorators ++ before ++ star ++ [n.withKind .other] ++ mark
  if !stop && (s.head? == some '(' || s.head? == some '<') then
    let signature ← g.callSignature .signature
    let next ← peek
    if next.head? == some '\x7b' then
      let body ← g.read .block
      pure (start ++ signature ++ [body])
    else
      let ended ← memberEnd .signature
      pure (start ++ signature ++ ended)
  else
    require star.isEmpty
    let typing ← if stop then pure [] else Scan.optional (g.typeAnnotation .plain)
    let stopped ← atEnd .plain
    let value ← if stopped then pure [] else optionalList (g.initializer .expression)
    let ended ← memberEnd (if value.isEmpty then .plain else .expression)
    pure (start ++ typing ++ value ++ ended)

/-- One member of a class. -/
def classMember (g : Grammar) : Scan (List Tree) :=
  (do let s ← symbol ";"; pure [s])
  <|> g.staticBlock
  <|> (do
    let m ← g.indexSignature
    let ended ← memberEnd .plain
    pure (m :: ended))
  <|> g.namedClassMember

/-- The members of a class between braces. -/
def classBody (g : Grammar) : Scan Tree :=
  branch .other do
    let opening ← symbol "\x7b"
    let members ← manyLists g.classMember
    let closing ← symbol "\x7d"
    pure (opening :: members ++ [closing])

/-- What follows the name of a class. -/
def classTailRule (g : Grammar) : Scan Tree :=
  branch .other do
    let s ← peek
    let typeParameters ← if s.head? == some '<' then (do
      let t ← g.read .typeParameters
      pure [t]) else pure []
    let heritage ← g.heritage
    let body ← g.classBody
    pure (typeParameters ++ heritage ++ [body.withField .body])

end RepoAtlas.Syntax.Grammar
