import RepoAtlas.Syntax.Tree
import RepoAtlas.SourceModule.Facts
import RepoAtlas.SourceModule.Prose

/-!
Reading the facts of a module off its syntax tree: the statements at the top
one after another, and calls and markup at any depth.
-/
namespace RepoAtlas

open Syntax Text

/-- The characters of a source that lie between two of its bytes as a whole. -/
def charsBetween (start stop : Nat) (offset : Nat) : List Char → List Char
  | [] => []
  | c :: rest =>
    let next := offset + c.utf8Size
    if stop < next then []
    else if offset < start then charsBetween start stop next rest
    else c :: charsBetween start stop next rest

namespace Syntax.Tree

/-- The part of the source that a node spans. -/
def text (source : List Char) (t : Tree) : String :=
  String.ofList (charsBetween t.start t.stop 0 source)

/-- The text of the child that plays a part. -/
def fieldText? (source : List Char) (t : Tree) (f : Field) : Option String :=
  (t.child? f).map (text source)

theorem sizeOf_filter_le (p : Tree → Bool) (trees : List Tree) :
    sizeOf (trees.filter p) ≤ sizeOf trees := by
  induction trees with
  | nil => exact Nat.le_refl _
  | cons t rest ih =>
    by_cases h : p t = true
    · simp only [List.filter_cons, h, if_true, List.cons.sizeOf_spec]
      omega
    · simp only [List.filter_cons, h, Bool.false_eq_true, if_false, List.cons.sizeOf_spec]
      omega

theorem sizeOf_append (trees others : List Tree) :
    sizeOf (trees ++ others) + 1 = sizeOf trees + sizeOf others := by
  induction trees with
  | nil =>
    simp only [List.nil_append, List.nil.sizeOf_spec]
    omega
  | cons t rest ih =>
    simp only [List.cons_append, List.cons.sizeOf_spec]
    omega

theorem sizeOf_namedChildren (t : Tree) : sizeOf t.namedChildren < sizeOf t := by
  cases t with
  | node k f s e cs =>
    have := sizeOf_filter_le isNamed cs
    simp only [namedChildren, children, node.sizeOf_spec]
    omega

/--
All nodes below some others and these themselves: the first of those that wait
is passed, and its children wait in front of the rest.
-/
def walkFrom : List Tree → List Tree
  | [] => []
  | t :: waiting => t :: walkFrom (t.namedChildren ++ waiting)
termination_by waiting => sizeOf waiting
decreasing_by
  have := sizeOf_namedChildren t
  have := sizeOf_append t.namedChildren waiting
  simp only [List.cons.sizeOf_spec]
  omega

/-- A node and all named nodes below it, in the order of the source. -/
def walk (t : Tree) : List Tree :=
  walkFrom [t]

end Syntax.Tree

/-- A text without white space around it and without the quotes that enclose it. -/
def unquote (s : String) : String :=
  let chars := trimWhile Unicode.isBlank s.toList
  match chars, chars.getLast? with
  | first :: rest, some last =>
    if !rest.isEmpty && first == last && ['\'', '"', '\u0060'].contains first then
      String.ofList rest.dropLast
    else String.ofList chars
  | _, _ => String.ofList chars

/-- The type in an annotation. -/
def annotatedType (s : String) : String :=
  trim (trimStart (· == ':') (trim s))

/-- Names that open a statement or an operator and so are never taken for a called function. -/
def reservedWords : List String :=
  ["if", "for", "while", "switch", "catch", "return", "typeof", "instanceof", "function", "new",
    "delete", "void", "await", "yield", "super", "import", "require", "this", "do", "else", "case",
    "throw", "with", "in", "of"]

def functionKinds : List Kind :=
  [.functionDeclaration, .generatorFunctionDeclaration, .functionExpression, .generatorFunction]

def classKinds : List Kind :=
  [.classDeclaration, .abstractClassDeclaration, .classExpression]

def variableKinds : List Kind :=
  [.lexicalDeclaration, .variableDeclaration]

def markupKinds : List Kind :=
  [.markupElement, .selfClosingMarkup, .markupFragment]

namespace ModuleFacts

/-- The names that an import clause binds. -/
def clauseNames (source : List Char) (clause : Tree) : List String :=
  clause.namedChildren.flatMap fun child =>
    match child.kind with
    | .identifier => [child.text source]
    | .namedImports =>
      child.namedChildren.filterMap fun specifier =>
        if specifier.kind == .importSpecifier then specifier.fieldText? source .name else none
    | _ => []

/-- What an import statement binds, if it names a module. -/
def importBinding? (source : List Char) (t : Tree) : Option ImportBinding :=
  (t.child? .source).map fun module => {
    source := unquote (module.text source)
    names := t.namedChildren.flatMap fun clause =>
      if clause.kind == .importClause then clauseNames source clause else [] }

/-- The prose of the documentation comment `previous`, if there is any. -/
def memberProse? (source : List Char) (previous : Option Tree) : Option String :=
  match previous with
  | some t =>
    let text := t.text source
    if t.kind == .comment && isStartOf "/**" text then
      let prose := proseOf text
      if prose == "" then none else some prose
    else none
  | none => none

/-- The type of a method: its text after as many characters as the name ends bytes behind its start. -/
def methodType (source : List Char) (member name : Tree) : String :=
  let rest := (member.text source).toList.drop (name.stop - member.start)
  trimEnd (fun c => c == ';' || c == ',') (trim (String.ofList (rest.dropWhile (· == '?'))))

/-- What one member of a type body says, if it is a property or a method with a name. -/
def member? (source : List Char) (previous : Option Tree) (t : Tree) : Option InterfaceField :=
  let found (name : Tree) (type : String) : InterfaceField := {
    name := unquote (name.text source)
    type
    required := !t.hasToken "?"
    description := memberProse? source previous }
  match t.kind, t.child? .name with
  | .propertySignature, some name =>
    some (found name (match t.child? .type with
      | some type => annotatedType (type.text source)
      | none => "any"))
  | .methodSignature, some name => some (found name (methodType source t name))
  | _, _ => none

/-- The members among some nodes, the first of which follows `previous`. -/
def membersFrom (source : List Char) (previous : Option Tree) : List Tree → List InterfaceField
  | [] => []
  | t :: rest => (member? source previous t).toList ++ membersFrom source (some t) rest

/-- The members of the body of an interface or of an object type. -/
def members (source : List Char) (body : Tree) : List InterfaceField :=
  membersFrom source none body.namedChildren

/-- What a declaration adds to the facts, and the names that it declares. -/
def declare (source : List Char) (facts : ModuleFacts) (t : Tree) : ModuleFacts × List String :=
  let name := (t.fieldText? source .name).getD ""
  let names := if name == "" then [] else [name]
  if functionKinds.contains t.kind then
    ({ facts with functions := facts.functions ++ names }, names)
  else if classKinds.contains t.kind then
    ({ facts with classes := facts.classes ++ names }, names)
  else if variableKinds.contains t.kind then
    let bound := t.namedChildren.filterMap fun declarator =>
      if declarator.kind == .variableDeclarator then
        (declarator.child? .name).bind fun target =>
          if target.kind == .identifier then some (target.text source) else none
      else none
    ({ facts with constants := facts.constants ++ bound }, bound)
  else if t.kind == .interfaceDeclaration then
    match t.child? .body with
    | some body =>
      if name == "" then (facts, [])
      else
        ({ facts with interfaces := facts.interfaces.set name (members source body) }, names)
    | none => (facts, [])
  else if t.kind == .typeAliasDeclaration then
    match t.child? .value with
    | some value =>
      if name != "" && value.kind == .objectType then
        ({ facts with interfaces := facts.interfaces.set name (members source value) }, names)
      else (facts, names)
    | none => (facts, names)
  else (facts, [])

/-- The name of a value that a module exports by default. -/
def defaultValueName? (source : List Char) (value : Tree) : Option String :=
  if value.kind == .identifier then some (value.text source)
  else if functionKinds.contains value.kind || classKinds.contains value.kind then
    value.fieldText? source .name
  else if value.kind == .callExpression then
    (value.child? .arguments).bind fun arguments =>
      (arguments.namedChildren.find? (·.kind == .identifier)).map (Tree.text source)
  else none

/-- Takes a default export unless there is one; an empty name is none. -/
def offerDefault (facts : ModuleFacts) (name : String) : ModuleFacts :=
  match facts.defaultExport with
  | some old => if old == "" then { facts with defaultExport := some name } else facts
  | none => { facts with defaultExport := some name }

def addExports (facts : ModuleFacts) (names : List String) : ModuleFacts :=
  { facts with exports := facts.exports ++ names }

/-- What one name in an export clause adds. -/
def exportSpecifier (source : List Char) (facts : ModuleFacts) (specifier : Tree) : ModuleFacts :=
  match specifier.kind, specifier.fieldText? source .name with
  | .exportSpecifier, some name =>
    let exported := (specifier.fieldText? source .alias).getD name
    if exported == "default" then (facts.offerDefault name).addExports [name]
    else facts.addExports [exported]
  | _, _ => facts

/-- What an export clause adds. -/
def exportClause (source : List Char) (facts : ModuleFacts) (clause : Tree) : ModuleFacts :=
  if clause.kind == .exportClause then
    clause.namedChildren.foldl (exportSpecifier source) facts
  else facts

/-- What an export statement adds. -/
def exportStatement (source : List Char) (facts : ModuleFacts) (t : Tree) : ModuleFacts :=
  let isDefault := t.hasToken "default"
  let clauses := t.namedChildren.foldl (exportClause source) facts
  match t.child? .declaration, t.child? .value with
  | some declaration, _ =>
    let (facts, names) := facts.declare source declaration
    let facts := facts.addExports names
    match names with
    | name :: _ =>
      if isDefault && facts.defaultExport.isNone then { facts with defaultExport := some name }
      else facts
    | [] => facts
  | none, some value =>
    if isDefault then
      match defaultValueName? source value with
      | some name => if name == "" then facts else (facts.offerDefault name).addExports [name]
      | none => facts
    else clauses
  | none, none => clauses

/-- What a statement at the top of a module adds. -/
def statement (source : List Char) (facts : ModuleFacts) (t : Tree) : ModuleFacts :=
  match t.kind with
  | .importStatement => { facts with imports := facts.imports ++ (importBinding? source t).toList }
  | .exportStatement => facts.exportStatement source t
  | _ => (facts.declare source t).1

/-- Whether the first statement, comments aside, is the directive for client modules. -/
def hasUseClient (source : List Char) : List Tree → Bool
  | [] => false
  | t :: rest =>
    match t.kind with
    | .comment => hasUseClient source rest
    | .expressionStatement =>
      match t.namedChildren with
      | value :: _ => value.kind == .string && unquote (value.text source) == "use client"
      | [] => false
    | _ => false

/--
What the comments in front of the first declaration say: the first documentation
comment with prose, or else the line comments after the last other statement.
-/
def proseBefore (source : List Char) (pending : List String) : List Tree → Option String
  | [] => finish pending
  | t :: rest =>
    match t.kind with
    | .comment =>
      let text := t.text source
      if isStartOf "/**" text then
        let prose := proseOf text
        if prose == "" then proseBefore source [] rest else some prose
      else
        match afterStart? "//".toList text.toList with
        | some line => proseBefore source (pending ++ [trim (String.ofList line)]) rest
        | none => proseBefore source pending rest
    | .expressionStatement | .importStatement => proseBefore source [] rest
    | _ => finish pending
where
  finish (pending : List String) : Option String :=
    let joined := " ".intercalate (pending.filter (· != ""))
    if joined == "" then none else some joined

/-- The name that a call gives to the function called, if it is a plain one. -/
def calledName? (source : List Char) (t : Tree) : Option String :=
  if t.kind == .callExpression then
    (t.child? .function).bind fun callee =>
      if callee.kind == .identifier then
        let name := callee.text source
        if Unicode.startsLower name && !reservedWords.contains name then some name else none
      else none
  else none

/-- The property that a call calls, if it calls one. -/
def calledMember? (source : List Char) (t : Tree) : Option String :=
  if t.kind == .callExpression then
    (t.child? .function).bind fun callee =>
      if callee.kind == .memberExpression then callee.fieldText? source .property else none
  else none

/-- Calls and markup at any depth. -/
def scanExpressions (source : List Char) (facts : ModuleFacts) (root : Tree) : ModuleFacts :=
  let nodes := root.walk
  { facts with
    hasMarkup := nodes.any fun t => markupKinds.contains t.kind
    calls := distinct (nodes.filterMap (calledName? source))
    memberCalls := distinct (nodes.filterMap (calledMember? source)) }

/-- The facts of the module with this source and this tree. -/
def ofTree (dialect : Dialect) (source : List Char) (root : Tree) : ModuleFacts :=
  let statements := root.namedChildren
  let start : ModuleFacts := {
    dialect
    isClient := hasUseClient source statements
    description := proseBefore source [] statements }
  let facts := statements.foldl (statement source) start
  let facts := facts.scanExpressions source root
  { facts with exports := distinct facts.exports }

end ModuleFacts

end RepoAtlas
