import RepoAtlas.Syntax.Classes
import RepoAtlas.Syntax.Markup

/-!
Statements and declarations, imports and exports.
-/
namespace RepoAtlas.Syntax.Grammar

open Scan

/-- Words that start a statement of their own, and so are no names there. -/
def statementWords : List String :=
  ["import", "debugger", "if", "switch", "for", "while", "do", "try", "with", "break", "continue",
    "return", "throw", "var", "const", "abstract", "enum", "interface"]

/-- Statements between braces. -/
def blockRule (g : Grammar) : Scan Tree :=
  branch .other do
    let opening ← symbol "\x7b"
    let statements ← many (g.read (.statement false))
    skipAll
    let closing ← symbol "\x7d"
    pure (opening :: statements ++ [closing])

/-- An expression as a statement. -/
def expressionStatement (g : Grammar) : Scan Tree :=
  branch .expressionStatement do
    let value ← g.expressions .expression
    let ended ← semicolon .expression
    pure [value, ended]

/-- A condition in round brackets. -/
def condition (g : Grammar) : Scan Tree :=
  g.parenthesized

/-- A nested statement. -/
def statement (g : Grammar) : Scan Tree :=
  g.read (.statement false)

/-- A name, or a pattern of names, to be bound. -/
def bindingTarget (g : Grammar) : Scan Tree := do
  let s ← peek
  if s.head? == some '\x7b' || s.head? == some '[' then g.read .pattern else name

/-- A variable with its type and its value, and where a statement ends behind it. -/
def declarator (g : Grammar) : Scan (Tree × Ending) := do
  let start ← offset
  let n ← g.bindingTarget
  let stop ← atEnd .plain
  if stop then pure (Tree.ofChildren .variableDeclarator start [n.withField .name], .plain)
  else
    let mark ← Scan.optional (do
      require (n.kind == .identifier)
      symbolNot "!" ['='])
    let typing ← Scan.optional (g.typeAnnotation .plain)
    require (mark.isEmpty || !typing.isEmpty)
    let stop ← atEnd .plain
    let value ← if stop || !mark.isEmpty then pure []
      else optionalList (g.initializer .expression)
    pure (Tree.ofChildren .variableDeclarator start
      (n.withField .name :: mark ++ typing ++ value),
      if value.isEmpty then .plain else .expression)

/-- Variables with commas between them. -/
def declarators (g : Grammar) : Scan (List Tree × Ending) := do
  let (first, ending) ← g.declarator
  let more ← many do
    let comma ← symbol ","
    let (d, ending) ← g.declarator
    pure ([comma, d], ending)
  pure (first :: (more.map Prod.fst).flatten, (more.map Prod.snd).getLast?.getD ending)

/-- A declaration of variables. -/
def variableList (g : Grammar) (kind : Kind) (word : String) : Scan Tree :=
  branch kind do
    let k ← keyword word
    let (ds, ending) ← g.declarators
    let ended ← semicolon ending
    pure (k :: ds ++ [ended])

/-- A function with a name: its body, or its signature alone. -/
def functionDeclaration (g : Grammar) : Scan Tree := do
  let start ← offset
  let async_ ← Scan.optional (keyword "async")
  let function_ ← keyword "function"
  let star ← Scan.optional (symbol "*")
  let n ← name
  let signature ← g.callSignature .signature
  let before := async_ ++ [function_] ++ star ++ [n.withField .name] ++ signature
  let s ← peek
  if s.head? == some '\x7b' then
    let body ← g.read .block
    pure (Tree.ofChildren
      (if star.isEmpty then .functionDeclaration else .generatorFunctionDeclaration) start
      (before ++ [body.withField .body]))
  else
    require star.isEmpty
    let ended ← semicolon .signature
    pure (Tree.ofChildren .other start (before ++ [ended]))

/-- A class with a name. -/
def classDeclaration (g : Grammar) : Scan Tree := do
  let start ← offset
  let decorators ← many g.decorator
  let abstract_ ← Scan.optional (keyword "abstract")
  let class_ ← keyword "class"
  let w ← peekName
  require (w != "extends" && w != "implements")
  let n ← name
  let tail ← g.read .classTail
  pure (Tree.ofChildren
    (if abstract_.isEmpty then .classDeclaration else .abstractClassDeclaration) start
    (decorators ++ abstract_ ++ [class_, n.withField .name] ++ tail.children))

/-- An interface. -/
def interfaceDeclaration (g : Grammar) : Scan Tree :=
  branch .interfaceDeclaration do
    let k ← keyword "interface"
    let n ← name
    let s ← peek
    let typeParameters ← if s.head? == some '<' then (do
      let t ← g.read .typeParameters
      pure [t]) else pure []
    let extends_ ← optionalList do
      let k ← keyword "extends"
      let items ← separated (do let t ← g.namedType .never; pure [t]) (symbol ",")
      pure (k :: items)
    let body ← g.read (.objectType .interfaceBody)
    pure ([k, n.withField .name] ++ typeParameters ++ extends_ ++ [body.withField .body])

/-- A name for a type. -/
def typeAlias (g : Grammar) : Scan Tree :=
  branch .typeAliasDeclaration do
    let k ← keyword "type"
    let n ← name
    let s ← peek
    let typeParameters ← if s.head? == some '<' then (do
      let t ← g.read .typeParameters
      pure [t]) else pure []
    let equals ← symbolNot "=" ['=', '>']
    let value ← g.read (.type .plain)
    let ended ← semicolon .plain
    pure ([k, n.withField .name] ++ typeParameters ++ [equals, value.withField .value, ended])

/-- An enumeration. -/
def enumDeclaration (g : Grammar) : Scan Tree :=
  branch .other do
    let const_ ← Scan.optional (keyword "const")
    let k ← keyword "enum"
    let n ← name
    let body ← listed "\x7b" "\x7d" do
      let n ← g.propertyName
      let value ← optionalList (g.initializer .never)
      pure (n.withKind .other :: value)
    pure (const_ ++ [k, n] ++ body)

/-- A name space, or a module with a name of its own. -/
def moduleDeclaration (g : Grammar) : Scan Tree :=
  branch .other do
    let k ← keyword "module" <|> keyword "namespace"
    let n ← string <|> dottedName
    let s ← peek
    let body ← if s.head? == some '\x7b' then (do
      let b ← g.read .block
      pure [b]) else pure []
    pure ([k, n] ++ body)

/-- A local name for something in a name space. -/
def importAlias : Scan Tree :=
  branch .other do
    let k ← keyword "import"
    let n ← name
    let equals ← symbol "="
    let target ← dottedName
    let ended ← semicolon .plain
    pure [k, n, equals, target, ended]

/-- A declaration of something that is defined elsewhere. -/
def ambientDeclaration (g : Grammar) : Scan Tree :=
  branch .other do
    let k ← keyword "declare"
    let w ← peekName
    if w == "global" then
      let word ← keyword "global"
      let b ← g.read .block
      pure [k, word, b]
    else
      let d ← g.read .declaration
      pure [k, d]

/-- A declaration, which may be exported. -/
def declarationRule (g : Grammar) : Scan Tree := do
  let w ← peekName
  if w == "function" || w == "async" then g.functionDeclaration
  else if w == "class" || w == "abstract" then g.classDeclaration
  else if w == "interface" then g.interfaceDeclaration
  else if w == "enum" then g.enumDeclaration
  else if w == "const" then
    g.enumDeclaration <|> g.variableList .lexicalDeclaration "const"
  else if w == "let" then g.variableList .lexicalDeclaration "let"
  else if w == "var" then g.variableList .variableDeclaration "var"
  else if w == "type" then g.typeAlias
  else if w == "module" || w == "namespace" then g.moduleDeclaration
  else if w == "import" then importAlias
  else if w == "declare" then g.ambientDeclaration
  else
    let s ← peek
    require (s.head? == some '@')
    g.classDeclaration

/-- The words of an imported or exported name. -/
def moduleExportName : Scan Tree :=
  string <|> name

/-- Where imported or exported names come from. -/
def fromClause : Scan (List Tree) := do
  let k ← keyword "from"
  let source ← string
  pure [k, source.withField .source]

/-- One imported name. -/
def importSpecifier : Scan Tree :=
  branch .importSpecifier do
    let mark ← Scan.optional (do
      let k ← keyword "type" <|> keyword "typeof"
      let s ← peek
      let w ← peekName
      let afterAs ← test (do let _ ← keyword "as"; let _ ← keyword "as"; name)
      require (w != "" && (w != "as" || afterAs) || s.head? == some '"' || s.head? == some '\'')
      pure k)
    let n ← moduleExportName
    let alias_ ← optionalList do
      let k ← keyword "as"
      let a ← name
      pure [k, a.withField .alias]
    require (n.kind == .identifier || !alias_.isEmpty)
    pure (mark ++ n.withField .name :: alias_)

/-- All names of a module under one. -/
def namespaceImport : Scan Tree :=
  branch .other do
    let star ← symbol "*"
    let k ← keyword "as"
    let n ← name
    pure [star, k, n]

/-- Imported names between braces. -/
def namedImports : Scan Tree :=
  branch .namedImports (listed "\x7b" "\x7d" (do let s ← importSpecifier; pure [s]))

/-- What an import binds. -/
def importClause : Scan Tree :=
  branch .importClause do
    let s ← peek
    match s with
    | '*' :: _ => do
      let n ← namespaceImport
      pure [n]
    | '\x7b' :: _ => do
      let n ← namedImports
      pure [n]
    | _ => do
      let n ← name
      let more ← optionalList do
        let comma ← symbol ","
        let s ← peek
        let rest ← if s.head? == some '*' then namespaceImport else namedImports
        pure [comma, rest]
      pure (n :: more)

/-- An import of a module. -/
def importStatement (g : Grammar) : Scan Tree :=
  branch .importStatement do
    let k ← keyword "import"
    let body ←
      (do
        let mark ← Scan.optional (keyword "type" <|> keyword "typeof")
        let clause ← importClause
        let source ← fromClause
        pure (mark ++ clause :: source))
      <|> (do
        let clause ← importClause
        let source ← fromClause
        pure (clause :: source))
      <|> (do
        let mark ← Scan.optional (do
          let k ← keyword "type"
          let w ← peekName
          require (w != "")
          pure k)
        let required ← branch .other do
          let n ← name
          let equals ← symbol "="
          let word ← keyword "require"
          let opening ← symbol "("
          let source ← string
          let closing ← symbol ")"
          pure [n, equals, word, opening, source.withField .source, closing]
        pure (mark ++ [required]))
      <|> (do
        let mark ← Scan.optional (keyword "type" <|> keyword "typeof")
        let source ← string
        pure (mark ++ [source.withField .source]))
    let attributes ← optionalList do
      let stop ← atEnd .plain
      require !stop
      let k ← keyword "with"
      let o ← g.read .object
      pure [k, o]
    let ended ← semicolon .plain
    pure (k :: body ++ attributes ++ [ended])

/-- One exported name. -/
def exportSpecifier : Scan Tree :=
  branch .exportSpecifier do
    let mark ← Scan.optional (do
      let k ← keyword "type" <|> keyword "typeof"
      let s ← peek
      let w ← peekName
      require (w != "" && w != "as" || s.head? == some '"' || s.head? == some '\'')
      pure k)
    let n ← moduleExportName
    let alias_ ← optionalList do
      let k ← keyword "as"
      let a ← moduleExportName
      pure [k, a.withField .alias]
    pure (mark ++ n.withField .name :: alias_)

/-- Exported names between braces. -/
def exportClause : Scan Tree :=
  branch .exportClause (listed "\x7b" "\x7d" (do let s ← exportSpecifier; pure [s]))

/-- Whether a declaration with a name follows. -/
def declaredDefault (g : Grammar) : Scan Unit := do
  let _ ← many g.decorator
  let w ← peekName
  if w == "function" || w == "async" then
    let _ ← Scan.optional (keyword "async")
    let _ ← keyword "function"
    let _ ← Scan.optional (symbol "*")
    let _ ← name
  else if w == "class" then
    let _ ← keyword "class"
    let n ← peekName
    require (n != "" && n != "extends" && n != "implements")
  else if ["interface", "abstract", "enum", "const", "var"].contains w then pure ()
  else if ["let", "type", "module", "namespace", "declare"].contains w then
    let _ ← keyword w
    let n ← peekName
    require (n != "" && !(["as", "satisfies", "in", "instanceof"].contains n))
  else fail

/-- What a module exports by default. -/
def defaultExport (g : Grammar) : Scan (List Tree) := do
  let k ← keyword "default"
  let declared ← test (g.declaredDefault)
  if declared then
    let d ← g.read .declaration
    pure [k, d.withField .declaration]
  else
    let value ← g.read (.expression .expression true)
    let ended ← semicolon .expression
    pure [k, value.withField .value, ended]

/-- All names of a module, perhaps under one. -/
def namespaceExport : Scan (List Tree) := do
  let star ← symbol "*"
  let under ← optionalList do
    let k ← keyword "as"
    let n ← moduleExportName
    pure [k, n]
  pure (star :: under)

/-- An export. -/
def exportStatement (g : Grammar) : Scan Tree :=
  branch .exportStatement do
    let decorators ← many g.decorator
    let k ← keyword "export"
    let s ← peek
    let w ← peekName
    let body ←
      match s with
      | '*' :: _ => do
        let n ← namespaceExport
        let source ← fromClause
        let ended ← semicolon .plain
        pure (n ++ source ++ [ended])
      | '\x7b' :: _ => do
        let clause ← exportClause
        let source ← optionalList (do
          let stop ← atEnd .plain
          require !stop
          fromClause)
        let ended ← semicolon .plain
        pure (clause :: source ++ [ended])
      | '=' :: _ => do
        let equals ← symbolNot "=" ['=', '>']
        let value ← g.read (.expression .expression true)
        let ended ← semicolon .expression
        pure [equals, value, ended]
      | _ =>
        if w == "default" then g.defaultExport
        else if w == "as" then do
          let as_ ← keyword "as"
          let n ← keyword "namespace"
          let target ← name
          let ended ← semicolon .plain
          pure [as_, n, target, ended]
        else
          (do
            let t ← keyword "type"
            let clause ← exportClause
            let source ← optionalList (do
              let stop ← atEnd .plain
              require !stop
              fromClause)
            let ended ← semicolon .plain
            pure (t :: clause :: source ++ [ended]))
          <|> (do
            let d ← g.read .declaration
            pure [d.withField .declaration])
    pure (decorators ++ k :: body)

/-- A statement that depends on a condition. -/
def ifStatement (g : Grammar) : Scan (List Tree) := do
  let k ← keyword "if"
  let c ← g.condition
  let body ← g.statement
  let otherwise_ ← optionalList do
    let e ← keyword "else"
    let body ← g.statement
    pure [e, body]
  pure (k :: c :: body :: otherwise_)

/-- The head of a loop over the items of a value. -/
def loopHead (g : Grammar) : Scan (List Tree) := do
  let opening ← symbol "("
  let w ← peekName
  let target ←
    (do
      require (["var", "let", "const"].contains w)
      let k ← keyword w
      let n ← g.bindingTarget
      let value ← if w == "var" then optionalList (g.initializer .never) else pure []
      let between ← peekName
      require (between == "in" || between == "of")
      pure (k :: n :: value))
    <|> (do
      let s ← peek
      let t ←
        if s.head? == some '\x7b' || s.head? == some '[' then g.read .pattern
        else (do
          let base ← g.primary
          extended (g.suffix .never) base)
      require (assignable t.kind || t.kind == .array || t.kind == .object)
      pure [t])
  let operator ← keyword "in" <|> keyword "of"
  let right ← g.expressions .never
  let closing ← symbol ")"
  pure (opening :: target ++ [operator, right, closing])

/-- The head of a loop with a counter. -/
def counterHead (g : Grammar) : Scan (List Tree) := do
  let opening ← symbol "("
  let w ← peekName
  let first ←
    (do
      require (["var", "let", "const"].contains w)
      let k ← keyword w
      let (ds, ending) ← g.declarators
      let ended ← semicolon ending
      pure (k :: ds ++ [ended]))
    <|> (do
      let value ← Scan.optional (g.expressions .never)
      let ended ← symbol ";"
      pure (value ++ [ended]))
  let test ← Scan.optional (g.expressions .never)
  let ended ← symbol ";"
  let step ← Scan.optional (g.expressions .never)
  let closing ← symbol ")"
  pure (opening :: first ++ test ++ ended :: step ++ [closing])

/-- A loop. -/
def forStatement (g : Grammar) : Scan (List Tree) := do
  let k ← keyword "for"
  let await_ ← Scan.optional (keyword "await")
  let head ← g.loopHead <|> (do
    require await_.isEmpty
    g.counterHead)
  let body ← g.statement
  pure (k :: await_ ++ head ++ [body])

/-- One case of a choice. -/
def switchCase (g : Grammar) : Scan (List Tree) := do
  let head ←
    (do
      let k ← keyword "case"
      let value ← g.expressions .never
      pure [k, value])
    <|> (do
      let k ← keyword "default"
      pure [k])
  let colon ← symbol ":"
  let body ← many (g.read (.statement true))
  pure (head ++ colon :: body)

/-- A choice among cases. -/
def switchStatement (g : Grammar) : Scan (List Tree) := do
  let k ← keyword "switch"
  let value ← g.condition
  let opening ← symbol "\x7b"
  let cases ← many (branch .other g.switchCase)
  let closing ← symbol "\x7d"
  pure (k :: value :: opening :: cases ++ [closing])

/-- A statement whose errors are caught. -/
def tryStatement (g : Grammar) : Scan (List Tree) := do
  let k ← keyword "try"
  let body ← g.read .block
  let handler ← optionalList do
    let c ← keyword "catch"
    let parameter ← optionalList do
      let opening ← symbol "("
      let n ← g.bindingTarget
      let typing ← Scan.optional (g.typeAnnotation .never)
      let closing ← symbol ")"
      pure (opening :: n :: typing ++ [closing])
    let b ← g.read .block
    pure (c :: parameter ++ [b])
  let final ← optionalList do
    let f ← keyword "finally"
    let b ← g.read .block
    pure [f, b]
  pure (k :: body :: handler ++ final)

/-- A jump, perhaps to a label. -/
def jump (word : String) : Scan (List Tree) := do
  let k ← keyword word
  let stop ← atEnd .plain
  let label ← if stop then pure [] else Scan.optional name
  let ended ← semicolon .plain
  pure (k :: label ++ [ended])

/-- A word with a value, which may be left out if `optional_` is set. -/
def valued (g : Grammar) (word : String) (optional_ : Bool) : Scan (List Tree) := do
  let k ← keyword word
  let stop ← if optional_ then atEnd .plain else pure false
  let value ← if stop then pure []
    else if optional_ then Scan.optional (g.expressions .expression)
    else (do
      let v ← g.expressions .expression
      pure [v])
  let ended ← semicolon (if value.isEmpty then .plain else .expression)
  pure (k :: value ++ [ended])

/-- An expression as a statement, or a statement with a label. -/
def plainStatement (g : Grammar) (word : String) : Scan Tree :=
  (do
    require (word != "" && !expressionWords.contains word)
    branch .other do
      let n ← name
      let colon ← symbol ":"
      let body ← g.statement
      pure [n.withKind .other, colon, body])
  <|> (do
    require !(statementWords.contains word && word != "import")
    g.expressionStatement)

/-- One statement. -/
def statementRule (g : Grammar) (inSwitch : Bool) : Scan Tree := do
  skipAll
  let c ← get
  let s := c.rest
  let w := String.ofList (s.take (nameLength s))
  let word : String → Scan String := fun k => ahead (do let _ ← keyword k; peekName)
  match s with
  | [] => fail
  | '\x7d' :: _ => fail
  | '\x7b' :: _ => g.read .block <|> g.expressionStatement
  | ';' :: _ => branch .other do
    let m ← symbol ";"
    pure [m]
  | '@' :: _ =>
    g.exportStatement <|> g.classDeclaration <|> g.expressionStatement
  | _ =>
    if w == "import" then
      let next ← ahead (do let _ ← keyword "import"; peek)
      if next.head? == some '(' || next.head? == some '.' then g.expressionStatement
      else g.importStatement <|> importAlias
    else if w == "export" then
      g.exportStatement <|> g.plainStatement w
    else if w == "function" then
      let named ← test (do
        let _ ← keyword "function"
        let _ ← Scan.optional (symbol "*")
        name)
      if named then g.functionDeclaration else g.expressionStatement
    else if w == "async" then
      let next ← word "async"
      if next == "function" then
        let named ← test (do
          let _ ← keyword "async"
          let _ ← keyword "function"
          let _ ← Scan.optional (symbol "*")
          name)
        if named then g.functionDeclaration else g.expressionStatement
      else g.plainStatement w
    else if w == "class" then
      let next ← word "class"
      if next != "" && next != "extends" && next != "implements" then g.classDeclaration
      else g.expressionStatement
    else if w == "abstract" then g.classDeclaration
    else if w == "interface" then g.interfaceDeclaration
    else if w == "enum" then g.enumDeclaration
    else if w == "const" then
      let next ← word "const"
      if next == "enum" then g.enumDeclaration else g.variableList .lexicalDeclaration "const"
    else if w == "let" then
      let next ← ahead (do let _ ← keyword "let"; peek)
      if nameLength next != 0 || next.head? == some '\x7b' || next.head? == some '[' then
        g.variableList .lexicalDeclaration "let"
      else g.plainStatement w
    else if w == "var" then g.variableList .variableDeclaration "var"
    else if w == "type" then
      g.typeAlias <|> g.plainStatement w
    else if w == "module" || w == "namespace" then
      let next ← ahead (do let _ ← keyword w; peek)
      if nameLength next != 0 || next.head? == some '"' || next.head? == some '\'' then
        g.moduleDeclaration <|> g.plainStatement w
      else g.plainStatement w
    else if w == "declare" then
      let next ← word "declare"
      if ["function", "async", "class", "abstract", "interface", "enum", "const", "let", "var",
          "type", "module", "namespace", "global", "import", "declare"].contains next then
        g.ambientDeclaration <|> g.plainStatement w
      else g.plainStatement w
    else if w == "if" then branch .other g.ifStatement
    else if w == "for" then branch .other g.forStatement
    else if w == "while" then branch .other do
      let k ← keyword w
      let c ← g.condition
      let body ← g.statement
      pure [k, c, body]
    else if w == "do" then branch .other do
      let k ← keyword w
      let body ← g.statement
      let loop ← keyword "while"
      let c ← g.condition
      let ended ← Scan.optional (semicolon .plain)
      pure ([k, body, loop, c] ++ ended)
    else if w == "switch" then branch .other g.switchStatement
    else if w == "try" then branch .other g.tryStatement
    else if w == "with" then branch .other do
      let k ← keyword w
      let c ← g.condition
      let body ← g.statement
      pure [k, c, body]
    else if w == "break" || w == "continue" then branch .other (jump w)
    else if w == "debugger" then branch .other do
      let k ← keyword w
      let ended ← semicolon .plain
      pure [k, ended]
    else if w == "return" then branch .other (g.valued w true)
    else if w == "throw" then branch .other (g.valued w false)
    else
      require !(inSwitch && (w == "case" || w == "default"))
      g.plainStatement w

end RepoAtlas.Syntax.Grammar
