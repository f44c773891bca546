import SumTree.Config
import SumTree.Text.Resemblance

/-!
# Options of a command line

A command has options, which take a value or not, and arguments. The words of a command line are told
apart first; then the values are read, in the order in which they were given, and last those that
come from the environment or are left to their defaults.

## Main Definitions

* `ValueForm`, `OptionSpec`, `CommandSpec` — what a command understands.
* `UsageFault` — why a command line is not understood.
* `CommandSpec.split` — the words of a command line, told apart.
* `CommandSpec.read` — the values of a command line.

## Design Notes

An option of one letter may stand together with others behind one hyphen, and with its value. A long
option takes its value behind an equals sign or as the next word. Behind two hyphens all words are
arguments.
-/

namespace SumTree

/-- What is found under the name of a file. -/
inductive FileContent
  | file (bytes : List UInt8)
  | directory

/-- The files that a command can see, by their names. -/
abbrev Files := List (String × FileContent)

/-- How a value is read. -/
inductive ValueForm
  | text
  /-- A file that exists. -/
  | file
  | integer
  | integerFrom (least : Int)
  | real
  | choice (names : List String)

/-- A value that was read. -/
inductive OptionValue
  | text (s : String)
  | integer (n : Int)
  | real (x : Float)

/-- An option of a command. -/
structure OptionSpec where
  /-- The spellings of the option. -/
  names : List String
  form : ValueForm
  /-- The variable of the environment that gives the value when the command line does not. -/
  envName? : Option String

/-- What a command understands. -/
structure CommandSpec where
  options : List OptionSpec
  /-- The options without a value. -/
  switches : List (List String)
  /-- The name of the arguments, of which there must be one at least; without a name there must be
  none. -/
  arguments? : Option String
  /-- Whether options may stand behind arguments. -/
  interspersed : Bool

/-- Why a command line is not understood. -/
inductive UsageFault
  /-- There is no such option, but perhaps some that resemble it. -/
  | noOption (name : String) (closest : List String)
  | noValue (name : String)
  | surplusValue (name : String)
  | badValue (names : List String) (reason : String)
  | missingArgument (name : String)
  | surplusArguments (words : List String)
  | noCommand (name : String)
  | missingCommand
  | other (text : String)
  deriving Repr, DecidableEq

/-- The text of a `UsageFault`. -/
def UsageFault.message : UsageFault → String
  | noOption name [] => "No such option: " ++ name
  | noOption name [close] => "No such option: " ++ name ++ " Did you mean " ++ close ++ "?"
  | noOption name others =>
    "No such option: " ++ name ++ " (Possible options: "
      ++ ", ".intercalate (others.mergeSort fun a b => a ≤ b) ++ ")"
  | noValue name => "Option " ++ Quoted.quote name ++ " requires an argument."
  | surplusValue name => "Option " ++ Quoted.quote name ++ " does not take a value."
  | badValue names reason =>
    "Invalid value for " ++ " / ".intercalate (names.map fun n => "'" ++ n ++ "'") ++ ": " ++ reason
  | missingArgument name => "Missing argument '" ++ name ++ "'."
  | surplusArguments words =>
    "Got unexpected extra argument" ++ (if words.length == 1 then "" else "s") ++ " ("
      ++ " ".intercalate words ++ ")"
  | noCommand name => "No such command " ++ Quoted.quote name ++ "."
  | missingCommand => "Missing command."
  | other text => text

namespace ValueForm

/-- The value of a word, or the reason why it has none. -/
def read (files : Files) (form : ValueForm) (word : String) : Except String OptionValue :=
  let quoted := Quoted.quote word
  match form with
  | .text => .ok (.text word)
  | .file =>
    match files.lookup word with
    | some (.file _) => .ok (.text word)
    | some .directory => .error ("File " ++ quoted ++ " is a directory.")
    | none => .error ("File " ++ quoted ++ " does not exist.")
  | .integer =>
    match Decimal.parse word with
    | .ok n => .ok (.integer n)
    | .error _ => .error (quoted ++ " is not a valid integer.")
  | .integerFrom least =>
    match Decimal.parse word with
    | .ok n =>
      if n < least then
        .error (Decimal.render n ++ " is not in the range x>=" ++ Decimal.render least ++ ".")
      else .ok (.integer n)
    | .error _ => .error (quoted ++ " is not a valid integer range.")
  | .real =>
    match Real64.read? word with
    | some x => .ok (.real x)
    | none => .error (quoted ++ " is not a valid float.")
  | .choice names =>
    if names.contains word then .ok (.text word)
    else .error (quoted ++ " is not one of " ++ ", ".intercalate (names.map Quoted.quote) ++ ".")

end ValueForm

/-- The words of a command line, told apart. -/
structure Words where
  /-- The options with their values, in order. -/
  given : List (OptionSpec × String)
  /-- The options without a value, each by its first spelling. -/
  switches : List String
  arguments : List String

/-- The value of an option, as it was given or found. -/
structure Setting where
  names : List String
  value : OptionValue

/-- The values of a command line. -/
structure Settings where
  settings : List Setting
  switches : List String
  arguments : List String

namespace CommandSpec

/-- The option of a spelling. -/
def option? (c : CommandSpec) (name : String) : Option OptionSpec :=
  c.options.find? fun o => o.names.contains name

/-- The first spelling of a switch. -/
def switch? (c : CommandSpec) (name : String) : Option String :=
  (c.switches.find? fun names => names.contains name).bind List.head?

/-- The long spellings of options and switches. -/
def longNames (c : CommandSpec) : List String :=
  ((c.options.map OptionSpec.names).flatten ++ c.switches.flatten).filter fun name =>
    ['-', '-'].isPrefixOf name.toList

/-- Tells apart the letters behind one hyphen. The last one may take the rest as its value, or the next
word, which is then used up. -/
def letters (c : CommandSpec) (next : List String) :
    List Char → Words → Except UsageFault (Words × List String)
  | [], w => .ok (w, next)
  | letter :: rest, w =>
    let name := String.ofList ['-', letter]
    match c.option? name with
    | some o =>
      if !rest.isEmpty then .ok ({ w with given := w.given ++ [(o, String.ofList rest)] }, next)
      else
        match next with
        | value :: next => .ok ({ w with given := w.given ++ [(o, value)] }, next)
        | [] => .error (.noValue name)
    | none =>
      match c.switch? name with
      | some first => letters c next rest { w with switches := w.switches ++ [first] }
      | none => .error (.noOption name [])

/-- Tells apart a word that begins with a hyphen. -/
def word (c : CommandSpec) (w : Words) (word : String) (next : List String) :
    Except UsageFault (Words × List String) :=
  let cs := word.toList
  let name := String.ofList (cs.takeWhile (· != '='))
  let value? := (cs.dropWhile (· != '=')).tail?.map String.ofList
  let isLong := ['-', '-'].isPrefixOf cs
  match if isLong then c.option? name else none with
  | some o =>
    match value?, next with
    | some value, next => .ok ({ w with given := w.given ++ [(o, value)] }, next)
    | none, value :: next => .ok ({ w with given := w.given ++ [(o, value)] }, next)
    | none, [] => .error (.noValue name)
  | none =>
    match if isLong then c.switch? name else none with
    | some first =>
      if value?.isSome then .error (.surplusValue name)
      else .ok ({ w with switches := w.switches ++ [first] }, next)
    | none =>
      if isLong then .error (.noOption name (Resemblance.closest name c.longNames))
      else c.letters next (cs.drop 1) w

/-- Whether a word begins with a hyphen and goes on. -/
def isOption (word : String) : Bool :=
  match word.toList with
  | '-' :: _ :: _ => true
  | _ => false

/-- Tells words apart, with `fuel` at least their number. -/
def splitFrom (c : CommandSpec) : Nat → Words → List String → Except UsageFault Words
  | 0, w, words => .ok { w with arguments := w.arguments ++ words }
  | _, w, [] => .ok w
  | fuel + 1, w, first :: rest =>
    if first == "--" then .ok { w with arguments := w.arguments ++ rest }
    else if isOption first then
      match c.word w first rest with
      | .ok (w, rest) => splitFrom c fuel w rest
      | .error fault => .error fault
    else if c.interspersed then
      splitFrom c fuel { w with arguments := w.arguments ++ [first] } rest
    else .ok { w with arguments := w.arguments ++ first :: rest }

/-- The words of a command line, told apart. -/
def split (c : CommandSpec) (words : List String) : Except UsageFault Words :=
  c.splitFrom (words.length + 1) ⟨[], [], []⟩ words

/-- The value of an option. -/
def readValue (files : Files) (o : OptionSpec) (word : String) : Except UsageFault Setting :=
  match o.form.read files word with
  | .ok value => .ok ⟨o.names, value⟩
  | .error reason => .error (.badValue o.names reason)

/-- The words that were given for an option together, in the place of the first of them; of an option
that counts once only the last word is read. -/
def grouped (repeatable : List String) (given : List (OptionSpec × String)) :
    List (OptionSpec × List String) :=
  let firsts := given.foldl (fun (done : List OptionSpec) g =>
    if done.any (·.names == g.1.names) then done else done ++ [g.1]) []
  firsts.map fun o =>
    let words := (given.filter fun g => g.1.names == o.names).map Prod.snd
    (o, if o.names.any repeatable.contains then words else words.drop (words.length - 1))

/-- The words that the environment gives for options that the command line does not give; an empty
variable gives none. -/
def fromEnvironment (c : CommandSpec) (env : Environment) (given : List (OptionSpec × String)) :
    List (OptionSpec × String) :=
  c.options.filterMap fun o =>
    if given.any fun g => g.1.names == o.names then none
    else ((o.envName?.bind fun v => List.lookup v env).filter fun s => !s.isEmpty).map (o, ·)

/-- The check of the arguments. -/
def checkArguments (c : CommandSpec) (files : Files) (arguments : List String) :
    Except UsageFault Unit := do
  match c.arguments? with
  | some name =>
    let _ ← arguments.mapM fun word =>
      (ValueForm.file.read files word).mapError fun reason => UsageFault.badValue [name] reason
    if arguments.isEmpty then throw (.missingArgument name)
  | none => return ()

/-- The values of a command line. The options named in `repeatable` keep all their values. -/
def read (c : CommandSpec) (repeatable : List String) (files : Files) (env : Environment)
    (words : List String) : Except UsageFault Settings := do
  let w ← c.split words
  let given ← (grouped repeatable w.given).mapM fun g => g.2.mapM (readValue files g.1)
  c.checkArguments files w.arguments
  let found ← (c.fromEnvironment env w.given).mapM fun g => readValue files g.1 g.2
  if c.arguments?.isNone && !w.arguments.isEmpty then throw (.surplusArguments w.arguments)
  return ⟨given.flatten ++ found, w.switches, w.arguments⟩

end CommandSpec

namespace Settings

/-- The values of an option. -/
def values (s : Settings) (name : String) : List OptionValue :=
  s.settings.filterMap fun v => if v.names.contains name then some v.value else none

/-- The texts of an option. -/
def texts (s : Settings) (name : String) : List String :=
  (s.values name).filterMap fun v => match v with
    | .text t => some t
    | _ => none

/-- The text of an option. -/
def text? (s : Settings) (name : String) : Option String :=
  (s.texts name).head?

/-- The integer of an option. -/
def integer? (s : Settings) (name : String) : Option Int :=
  (s.values name).findSome? fun v => match v with
    | .integer n => some n
    | _ => none

/-- The double of an option. -/
def real? (s : Settings) (name : String) : Option Float :=
  (s.values name).findSome? fun v => match v with
    | .real x => some x
    | _ => none

end Settings

end SumTree
