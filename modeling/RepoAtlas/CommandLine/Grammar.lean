import RepoAtlas.Text.Quoted
import RepoAtlas.Text.Trim
import RepoAtlas.Unicode.Char

/-!
What a command line may hold: options by their spellings, and at most one place
for an argument without a name. Here each word is told apart from the others;
the values are read elsewhere.
-/
namespace RepoAtlas

/-- What an option does to what is read so far. -/
inductive OptionAction (σ : Type) where
  /-- Asks for an explanation instead. -/
  | help
  | flag (set : σ → σ)
  /-- Takes a value, which may not do. -/
  | value (set : String → σ → Except String σ)

structure OptionRule (σ : Type) where
  spellings : List String
  action : OptionAction σ

/-- The place for an argument without a name. -/
inductive PlaceRule (σ : Type) where
  | absent
  | required (name : String) (set : String → σ → Except String σ)
  | optional (set : String → σ → σ)
  /-- Takes the word that names a command, and all words after it. -/
  | command (name : String) (commands : List String)

/-- The words that a program, or one of its commands, understands. -/
structure Grammar (σ : Type) where
  program : String
  options : List (OptionRule σ)
  place : PlaceRule σ

/-- Why a command line is not carried out. -/
inductive UsageStop where
  /-- It asks for an explanation of the program. -/
  | help
  | refused (program message : String)
deriving Repr, DecidableEq, Inhabited

namespace OptionRule

/-- All spellings of an option, as failures name it. -/
def name (o : OptionRule σ) : String :=
  "/".intercalate o.spellings

def takesValue (o : OptionRule σ) : Bool :=
  match o.action with
  | .value _ => true
  | _ => false

end OptionRule

/-- A value in the same word as its option. -/
structure Attached where
  text : String
  /-- Whether an equals sign stands between them. -/
  byEquals : Bool
deriving Repr, DecidableEq, Inhabited

/-- An option as it is spelled in a word. -/
structure Spelled (σ : Type) where
  rule : OptionRule σ
  spelling : String
  attached : Option Attached := none

/-- What a word is there for. -/
inductive WordRole (σ : Type) where
  | argument
  /-- The mark after which all words are arguments. -/
  | separator
  | option (spelled : Spelled σ)
  /-- It looks like an option, but there is no such. -/
  | unknown

/-- A word and its role. -/
structure Word (σ : Type) where
  text : String
  role : WordRole σ

namespace Grammar

def refuse (g : Grammar σ) (message : String) : UsageStop :=
  .refused g.program message

/-- The refusal of an argument, which is named. -/
def refuseArgument (g : Grammar σ) (name message : String) : UsageStop :=
  g.refuse ("argument " ++ name ++ ": " ++ message)

/-- All spellings with their options, in order. -/
def spellings (g : Grammar σ) : List (String × OptionRule σ) :=
  g.options.flatMap fun o => o.spellings.map fun s => (s, o)

/-- The option with a spelling. -/
def option? (g : Grammar σ) (spelling : String) : Option (OptionRule σ) :=
  (g.spellings.find? fun s => s.1 == spelling).map Prod.snd

/-- A word up to its first equals sign, and what follows that. -/
def splitEquals (word : String) : String × Option String :=
  match Text.splitAt (· == '=') word.toList with
  | first :: second :: more =>
    (String.ofList first, some (String.ofList (Text.joinWith ['='] (second :: more))))
  | _ => (word, none)

/-- The options that a word of two dashes may shorten. -/
def shortenedBy (g : Grammar σ) (word : String) : List (Spelled σ) :=
  let (start, value) := splitEquals word
  (g.spellings.filter fun s => Text.isStartOf start s.1).map fun (spelling, rule) =>
    { rule, spelling, attached := value.map fun text => ⟨text, true⟩ }

/-- The options that a word of one dash may begin with. -/
def begunBy (g : Grammar σ) (word : String) : List (Spelled σ) :=
  let short := String.ofList (word.toList.take 2)
  g.spellings.filterMap fun (spelling, rule) =>
    if spelling == short then
      some { rule, spelling, attached := some ⟨String.ofList (word.toList.drop 2), false⟩ }
    else if Text.isStartOf word spelling then some { rule, spelling }
    else none

/-- The options that a word may mean without spelling one out. -/
def meanings (g : Grammar σ) (word : String) : List (Spelled σ) :=
  if Text.isStartOf "--" word then g.shortenedBy word else g.begunBy word

/-- Whether a word is a negative number. -/
def isNegativeNumber (word : String) : Bool :=
  let isDigit (c : Char) : Bool := (Unicode.digitValue? c).isSome
  let body := match word.toList.reverse with
    | '\n' :: rest => rest.reverse
    | _ => word.toList
  match body with
  | '-' :: rest =>
    match rest.dropWhile isDigit with
    | [] => !rest.isEmpty
    | '.' :: places => !places.isEmpty && places.all isDigit
    | _ => false
  | _ => false

/-- The refusal of a word that may mean several options. -/
def ambiguous (g : Grammar σ) (word : String) (found : List (Spelled σ)) : UsageStop :=
  g.refuse ("ambiguous option: " ++ word ++ " could match " ++
    ", ".intercalate (found.map Spelled.spelling))

/-- The role of a word with a dash in front that spells no option out. -/
def guess (g : Grammar σ) (word : String) : Except UsageStop (WordRole σ) :=
  match g.meanings word with
  | [spelled] => .ok (.option spelled)
  | [] =>
    .ok (if isNegativeNumber word || word.toList.contains ' ' then .argument else .unknown)
  | found => .error (g.ambiguous word found)

/-- The role of a word before any separator. -/
def roleOf (g : Grammar σ) (word : String) : Except UsageStop (WordRole σ) :=
  if !Text.isStartOf "-" word || word == "-" then .ok .argument
  else
    match g.option? word, splitEquals word with
    | some rule, _ => .ok (.option { rule, spelling := word })
    | none, (start, some value) =>
      match g.option? start with
      | some rule => .ok (.option { rule, spelling := start, attached := some ⟨value, true⟩ })
      | none => g.guess word
    | none, (_, none) => g.guess word

/-- All words with their roles. -/
def words (g : Grammar σ) : List String → Except UsageStop (List (Word σ))
  | [] => .ok []
  | "--" :: rest => .ok (⟨"--", .separator⟩ :: rest.map fun text => ⟨text, .argument⟩)
  | text :: rest => do
    let role ← g.roleOf text
    let others ← g.words rest
    pure (⟨text, role⟩ :: others)

end Grammar

end RepoAtlas
