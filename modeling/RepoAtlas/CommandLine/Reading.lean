import RepoAtlas.CommandLine.Grammar

/-!
Reading a command line word by word. Options take effect in order; what is not
understood is kept, so that it can be refused in the end.
-/
namespace RepoAtlas

/-- What one word of options asks for. -/
structure Cluster (σ : Type) where
  /-- Options without a value, in order. -/
  switches : List (OptionRule σ) := []
  /-- An option with a value at the end; the value, if it is in the same word. -/
  last : Option (OptionRule σ × Option String) := none
  /-- The end of the word, if it is not understood. -/
  rest : List String := []

/-- What has been read of a command line. -/
structure CommandReading (σ : Type) where
  state : σ
  /-- Whether the place is taken. -/
  isPlaced : Bool := false
  /-- The words that are not understood. -/
  unknown : List String := []
  /-- The name of a command and the words after it. -/
  command : Option (String × List String) := none

namespace Grammar

def refuseAttached (g : Grammar σ) (o : OptionRule σ) (text : String) : UsageStop :=
  g.refuseArgument o.name ("ignored explicit argument " ++ Text.quoted text)

/-- What follows the letter of an option in a word. -/
def attachedOf : List Char → Option Attached
  | [] => none
  | '=' :: text => some ⟨String.ofList text, true⟩
  | text => some ⟨String.ofList text, false⟩

/-- More options behind one that takes no value, in the word of one dash. -/
def clusterAfter (g : Grammar σ) (before : OptionRule σ) :
    List Char → Except UsageStop (Cluster σ)
  | [] => .ok { switches := [before] }
  | text@(letter :: rest) =>
    if letter == '-' then .error (g.refuseAttached before (String.ofList text))
    else
      match g.option? (String.ofList ['-', letter]) with
      | none => .ok { switches := [before], rest := [String.ofList ('-' :: text)] }
      | some next =>
        match next.takesValue, rest with
        | true, _ =>
          .ok { switches := [before], last := some (next, (attachedOf rest).map Attached.text) }
        | false, '=' :: value => .error (g.refuseAttached next (String.ofList value))
        | false, _ => (g.clusterAfter next rest).map fun c =>
            { c with switches := before :: c.switches }

/-- What a word with an option in it asks for. -/
def cluster (g : Grammar σ) (s : Spelled σ) : Except UsageStop (Cluster σ) :=
  match s.rule.takesValue, s.attached with
  | true, attached => .ok { last := some (s.rule, attached.map Attached.text) }
  | false, none => .ok { switches := [s.rule] }
  | false, some attached =>
    if attached.byEquals || attached.text == "" || Text.isStartOf "--" s.spelling then
      .error (g.refuseAttached s.rule attached.text)
    else g.clusterAfter s.rule attached.text.toList

/-- The effect of an option without a value. -/
def switch (r : CommandReading σ) (o : OptionRule σ) : Except UsageStop (CommandReading σ) :=
  match o.action with
  | .help => .error .help
  | .flag set => .ok { r with state := set r.state }
  | .value _ => .ok r

/-- The effect of an option with a value. -/
def assign (g : Grammar σ) (r : CommandReading σ) (o : OptionRule σ) (value : String) :
    Except UsageStop (CommandReading σ) :=
  match o.action with
  | .value set =>
    match set value r.state with
    | .ok state => .ok { r with state }
    | .error message => .error (g.refuseArgument o.name message)
  | _ => .ok r

/-- The effect of the options without a value in a word. -/
def applyCluster (r : CommandReading σ) (c : Cluster σ) : Except UsageStop (CommandReading σ) :=
  c.switches.foldlM switch { r with unknown := r.unknown ++ c.rest }

def chooseFrom (commands : List String) (name : String) : String :=
  "invalid choice: " ++ Text.quoted name ++ " (choose from " ++
    ", ".intercalate (commands.map Text.quoted) ++ ")"

/-- The effect of an argument; `rest` are the words after it, as they were written. -/
def fill (g : Grammar σ) (r : CommandReading σ) (text : String) (rest : List String) :
    Except UsageStop (CommandReading σ) :=
  match g.place with
  | .absent => .ok r
  | .optional set => .ok { r with state := set text r.state, isPlaced := true }
  | .required name set =>
    match set text r.state with
    | .ok state => .ok { r with state, isPlaced := true }
    | .error message => .error (g.refuseArgument name message)
  | .command name commands =>
    if commands.contains text then .ok { r with isPlaced := true, command := some (text, rest) }
    else .error (g.refuseArgument name (chooseFrom commands text))

/-- Whether the place can take an argument. -/
def isOpen (g : Grammar σ) (r : CommandReading σ) : Bool :=
  match g.place with
  | .absent => false
  | _ => !r.isPlaced

def takesAll (g : Grammar σ) : Bool :=
  match g.place with
  | .command .. => true
  | _ => false

/-- Reads what stands behind the separator. -/
def readArguments (g : Grammar σ) (r : CommandReading σ) (texts : List String) :
    Except UsageStop (CommandReading σ) :=
  match g.isOpen r, g.takesAll, texts with
  | true, true, _ :: _ => g.fill r "--" texts
  | true, false, text :: rest =>
    (g.fill r text rest).map fun r => { r with unknown := r.unknown ++ rest }
  | true, false, [] =>
    .ok (match g.place with
      | .optional _ => r
      | _ => { r with unknown := r.unknown ++ ["--"] })
  | _, _, _ => .ok { r with unknown := r.unknown ++ "--" :: texts }

/-- The refusal of an option that lacks its value. -/
def lacksValue (g : Grammar σ) (o : OptionRule σ) : UsageStop :=
  g.refuseArgument o.name "expected one argument"

/-- The effect of a word with an option in it. Says whether `next`, the argument behind it, is used. -/
def readOption (g : Grammar σ) (r : CommandReading σ) (s : Spelled σ) (next : Option String) :
    Except UsageStop (CommandReading σ × Bool) := do
  let found ← g.cluster s
  match found.last, next with
  | none, _ => pure (← applyCluster r found, false)
  | some (o, some value), _ => pure (← g.assign (← applyCluster r found) o value, false)
  | some (o, none), some value => pure (← g.assign (← applyCluster r found) o value, true)
  | some (o, none), none => throw (g.lacksValue o)

/-- The argument at the start of some words. -/
def nextArgument : List (Word σ) → Option String
  | ⟨text, .argument⟩ :: _ => some text
  | _ => none

/-- Whether the words begin with the separator. -/
def startsBySeparator : List (Word σ) → Bool
  | ⟨_, .separator⟩ :: _ => true
  | _ => false

/-- Reads words in order. A separator right behind the argument in the place leaves no trace. -/
def readWords (g : Grammar σ) : List (Word σ) → CommandReading σ →
    Except UsageStop (CommandReading σ)
  | [], r => .ok r
  | ⟨text, .unknown⟩ :: rest, r => g.readWords rest { r with unknown := r.unknown ++ [text] }
  | ⟨_, .separator⟩ :: rest, r => g.readArguments r (rest.map Word.text)
  | ⟨_, .option spelled⟩ :: rest, r =>
    match g.readOption r spelled (nextArgument rest) with
    | .error stop => .error stop
    | .ok (r, false) => g.readWords rest r
    | .ok (r, true) =>
      match rest with
      | [] => .ok r
      | _ :: rest => g.readWords rest r
  | ⟨text, .argument⟩ :: rest, r =>
    if g.isOpen r then
      match g.fill r text (rest.map Word.text) with
      | .error stop => .error stop
      | .ok r =>
        if g.takesAll then .ok r
        else if startsBySeparator rest then
          .ok { r with unknown := r.unknown ++ (rest.drop 1).map Word.text }
        else g.readWords rest r
    else g.readWords rest { r with unknown := r.unknown ++ [text] }

/-- The refusal of a command line without what has to be in it. -/
def missing? (g : Grammar σ) (r : CommandReading σ) : Option UsageStop :=
  let refusal (name : String) : UsageStop :=
    g.refuse ("the following arguments are required: " ++ name)
  match g.place, r.isPlaced with
  | .required name _, false => some (refusal name)
  | .command name _, false => some (refusal name)
  | _, _ => none

/-- Reads a command line; words that are not understood are kept. -/
def read (g : Grammar σ) (start : σ) (args : List String) :
    Except UsageStop (CommandReading σ) := do
  let words ← g.words args
  let r ← g.readWords words { state := start }
  match g.missing? r with
  | some stop => throw stop
  | none => pure r

/-- The refusal of words that are not understood. -/
def unrecognized? (g : Grammar σ) (words : List String) : Option UsageStop :=
  if words.isEmpty then none
  else some (g.refuse ("unrecognized arguments: " ++ " ".intercalate words))

end Grammar

end RepoAtlas
