/-!
Syntax trees of modules: nodes with a kind, the bytes of the source that they
span, and the part they play in their parent.
-/
namespace RepoAtlas.Syntax

/-- What a node is. Kinds that nothing tells apart share `other`. -/
inductive Kind where
  | program
  | comment
  | identifier
  | string
  | undefined
  | array
  | object
  | parenthesized
  | subscript
  | nonNull
  | callExpression
  | memberExpression
  | functionExpression
  | generatorFunction
  | classExpression
  | functionDeclaration
  | generatorFunctionDeclaration
  | classDeclaration
  | abstractClassDeclaration
  | lexicalDeclaration
  | variableDeclaration
  | variableDeclarator
  | interfaceDeclaration
  | interfaceBody
  | typeAliasDeclaration
  | objectType
  | propertySignature
  | methodSignature
  | importStatement
  | importClause
  | namedImports
  | importSpecifier
  | exportStatement
  | exportClause
  | exportSpecifier
  | expressionStatement
  | markupElement
  | selfClosingMarkup
  | markupFragment
  | other
  | token (text : String)
deriving Repr, DecidableEq, Inhabited

/-- The part that a node plays in its parent. -/
inductive Field where
  | name
  | alias
  | source
  | declaration
  | value
  | body
  | function
  | arguments
  | property
  | type
deriving Repr, DecidableEq, Inhabited

/-- A node, with its first byte and the byte after its last. -/
inductive Tree where
  | node (kind : Kind) (field : Option Field) (start stop : Nat) (children : List Tree)
deriving Repr, Inhabited

namespace Tree

def kind : Tree → Kind
  | node k _ _ _ _ => k

def field : Tree → Option Field
  | node _ f _ _ _ => f

def start : Tree → Nat
  | node _ _ s _ _ => s

def stop : Tree → Nat
  | node _ _ _ s _ => s

def children : Tree → List Tree
  | node _ _ _ _ cs => cs

/-- Tokens such as `default` and `?` are not named; all other nodes are. -/
def isNamed (t : Tree) : Bool :=
  match t.kind with
  | .token _ => false
  | _ => true

def namedChildren (t : Tree) : List Tree :=
  t.children.filter isNamed

/-- Whether a token with this text stands directly below a node. -/
def hasToken (t : Tree) (text : String) : Bool :=
  t.children.any fun c => c.kind == .token text

/-- The first child that plays a given part. -/
def child? (t : Tree) (f : Field) : Option Tree :=
  t.children.find? fun c => c.field == some f

/-- The same node in another part. -/
def withField (f : Field) : Tree → Tree
  | node k _ s e cs => node k (some f) s e cs

/-- The same node as another kind. -/
def withKind (k : Kind) : Tree → Tree
  | node _ f s e cs => node k f s e cs

/-- A node that spans its children, or nothing at `at` without any. -/
def ofChildren (k : Kind) (position : Nat) (cs : List Tree) : Tree :=
  match cs, cs.getLast? with
  | first :: _, some last => node k none first.start last.stop cs
  | _, _ => node k none position position cs

theorem sizeOf_lt_of_mem_children {t c : Tree} (h : c ∈ t.children) : sizeOf c < sizeOf t := by
  cases t with
  | node k f s e cs =>
    have := List.sizeOf_lt_of_mem h
    simp only [children] at this
    simp only [node.sizeOf_spec]
    omega

end Tree

end RepoAtlas.Syntax
