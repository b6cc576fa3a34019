import RepoAtlas.Syntax.Statements

/-!
Reading a whole module: the rules of the grammar tied together, and comments
put in their places.
-/
namespace RepoAtlas.Syntax

open Scan

/-- The rule of the grammar for each construct. -/
def Grammar.rule (g : Grammar) : Goal → Scan Tree
  | .statement inSwitch => g.statementRule inSwitch
  | .block => g.blockRule
  | .declaration => g.declarationRule
  | .expression ending typed => g.expressionRule ending typed
  | .operand ending typed => g.operandRule ending typed
  | .type ending => g.typeRule ending
  | .typeOperand ending => g.typeOperandRule ending
  | .pattern => g.patternRule
  | .parameters => g.parametersRule
  | .typeArguments => g.typeArguments
  | .typeParameters => g.typeParameters
  | .objectType kind => g.objectTypeRule kind
  | .template => g.templateRule
  | .object => g.objectRule
  | .array => g.arrayRule
  | .classTail => g.classTailRule
  | .markup => g.markupRule

/-- Reads a construct that holds at most `depth` levels of others. -/
def readGoal (markup : Bool) : (depth : Nat) → Goal → Scan Tree
  | 0, _ => fail
  | depth + 1, goal => ({ markup, read := readGoal markup depth } : Grammar).rule goal

/-- The line that names the program to run a file with. -/
def interpreterLine? (s : List Char) : Option Nat :=
  match s with
  | '#' :: '!' :: rest => some (2 + (rest.takeWhile (· != '\n')).length)
  | _ => none

/-- All statements of a module, up to the end of the text. -/
def moduleStatements (markup : Bool) (depth : Nat) : Scan (List Tree) := do
  let first ← Scan.optional (lexeme .other interpreterLine?)
  let statements ← many (readGoal markup depth (.statement false))
  skipAll
  let c ← get
  require c.rest.isEmpty
  pure (first ++ statements)

mutual

/--
Puts nodes into a tree: each becomes a child of the innermost node whose span
holds it. The nodes come in the order of the source.
-/
def Tree.insert (extra : List Tree) : Tree → Tree
  | .node k f start stop children => .node k f start stop (insertAmong extra children)

/-- Puts nodes among siblings, or into the one that holds them. -/
def Tree.insertAmong (extra : List Tree) : List Tree → List Tree
  | [] => extra
  | child :: rest =>
    let before := extra.takeWhile fun e => e.stop ≤ child.start
    let more := extra.drop before.length
    let inside := more.takeWhile fun e => e.start < child.stop
    before ++ (if inside.isEmpty then child else child.insert inside) ::
      insertAmong (more.drop inside.length) rest

end

/-- The syntax tree of a module, if its text is one of the dialect. -/
def parseModule? (markup : Bool) (source : List Char) : Option Tree :=
  match (moduleStatements markup (8 * source.length + 64)).run (Cursor.ofSource source) with
  | some (statements, c) =>
    some (.node .program none 0 c.offset (Tree.insertAmong c.comments.reverse statements))
  | none => none

end RepoAtlas.Syntax
