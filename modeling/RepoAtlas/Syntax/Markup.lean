import RepoAtlas.Syntax.Expressions

/-!
Markup elements: tags with attributes, and the text, references, expressions
and elements between them. The names of two tags that belong together need not
agree.
-/
namespace RepoAtlas.Syntax.Grammar

open Scan

/-- A name that may hold dashes. -/
def dashedName : Scan Tree :=
  lexeme .other fun s =>
    let n := nameLength s
    let ascii (c : Char) := c.isAlphanum || c == '_' || c == '$'
    if n == 0 then none
    else if (s.take n).all ascii && (s.drop n).head? == some '-' then
      some (n + ((s.drop n).takeWhile fun c => ascii c || c == '-').length)
    else some n

/-- A name with a name space. -/
def spacedName : Scan (List Tree) := do
  let first ← dashedName
  let more ← optionalList do
    let colon ← symbol ":"
    let second ← dashedName
    pure [colon, second]
  pure (first :: more)

/-- The name of an element. -/
def elementName : Scan (List Tree) := do
  let first ← spacedName
  let more ← manyLists do
    let dot ← symbol "."
    let n ← name
    pure [dot, n.withKind .other]
  pure (first ++ more)

/-- An expression between braces, perhaps none. -/
def markupExpression (g : Grammar) : Scan Tree :=
  branch .other do
    let opening ← symbol "\x7b"
    let value ← Scan.optional (g.spread <|> g.expressions .never)
    let closing ← symbol "\x7d"
    pure (opening :: value ++ [closing])

/-- An attribute of an element. -/
def elementAttribute (g : Grammar) : Scan Tree := do
  let s ← peek
  if s.head? == some '\x7b' then g.markupExpression
  else
    branch .other do
      let n ← spacedName
      let value ← optionalList do
        let equals ← symbol "="
        let s ← peek
        let v ← match s with
          | '\x7b' :: _ => g.markupExpression
          | '<' :: _ => g.read .markup
          | _ => lexeme .string attributeString?
        pure [equals, v]
      pure (n ++ value)

/-- A piece of what stands between two tags. -/
def markupChild (g : Grammar) : Scan (List Tree) := do
  let c ← get
  let text := (c.rest.takeWhile (!endsMarkupText ·))
  if !text.isEmpty then
    let _ ← take .other text.length
    pure []
  else
    match c.rest with
    | '<' :: '/' :: _ => fail
    | '<' :: _ => do
      let e ← g.read .markup
      pure [e]
    | '\x7b' :: _ => do
      let e ← g.markupExpression
      pure [e]
    | '&' :: _ =>
      match characterReference? c.rest with
      | some n => do
        let _ ← take .other n
        pure []
      | none => fail
    | _ => fail

/-- An element with its tags, or a tag that closes itself. -/
def markupRule (g : Grammar) : Scan Tree := do
  let opening ← symbol "<"
  let s ← peek
  let head ← if s.head? == some '>' then pure [] else (do
    let n ← elementName
    let s ← peek
    let typeArguments ← if s.head? == some '<' then (do
      let t ← g.read .typeArguments
      pure [t]) else pure []
    let attributes ← many g.elementAttribute
    pure (n ++ typeArguments ++ attributes))
  let next ← peek
  match next with
  | '/' :: '>' :: _ => do
    require !head.isEmpty
    let closing ← symbol "/>"
    pure (Tree.ofChildren .selfClosingMarkup opening.start (opening :: head ++ [closing]))
  | '>' :: _ => do
    let mark ← symbol ">"
    let children ← manyLists g.markupChild
    let closing ← symbol "</"
    let s ← peek
    let last ← if s.head? == some '>' then pure [] else elementName
    let final ← symbol ">"
    pure (Tree.ofChildren .markupElement opening.start
      (opening :: head ++ mark :: children ++ closing :: last ++ [final]))
  | _ => fail

end RepoAtlas.Syntax.Grammar
