import GraphQuery.Decimal.Reading
import GraphQuery.Text.Quoted
import GraphQuery.Text.Display
import GraphQuery.Text.Digit
import GraphQuery.Text.Split

/-! # Reading command lines

A command takes options and operands; a group takes options and the name of a command, to which the
rest of the line belongs. Words are first told apart: options start with a hyphen, long ones may be
cut short and given a value behind `=`, short ones may be joined. Everything behind the first
divider `--` is an operand. Words are then taken from left to right, and the first word that does
not fit ends the reading.
-/

namespace GraphQuery.CommandLine

/-- What an option is for. -/
inductive OptionKind where
  | help
  | flag
  | text
  | number
  deriving DecidableEq, Repr

/-- An option with its names; short ones have a single hyphen and a letter, and take no value. -/
structure OptionSpec where
  names : List String
  kind : OptionKind
  required : Bool
  deriving DecidableEq, Repr

namespace OptionSpec

/-- An option that a command can do without. -/
def optional (names : List String) (kind : OptionKind) : OptionSpec :=
  ⟨names, kind, false⟩

/-- The option that asks for help. Every command has it. -/
def help : OptionSpec :=
  optional ["-h", "--help"] .help

def title (option : OptionSpec) : String :=
  "/".intercalate option.names

/-- The name under which the value of an option is kept. -/
def key (option : OptionSpec) : String :=
  option.names.headD ""

def hasValue (option : OptionSpec) : Bool :=
  option.kind = .text || option.kind = .number

end OptionSpec

/-- What may be written on a line. -/
inductive Grammar where
  | command (options : List OptionSpec) (operands : List String)
  | group (options : List OptionSpec) (choice : String) (commands : List (String × Grammar))

/-- Why a line is not understood. -/
inductive Misuse where
  | ambiguous (word : String) (names : List String)
  | valueMissing (option : OptionSpec)
  | valueUnwanted (option : OptionSpec) (value : String)
  | notANumber (option : OptionSpec) (value : String)
  | unknownCommand (choice word : String) (known : List String)
  | missing (names : List String)
  | unrecognized (words : List String)
  deriving DecidableEq, Repr

/-- The message about a line that is not understood. -/
def Misuse.message : Misuse → String
  | .ambiguous word names =>
    let matching := ", ".intercalate names
    s!"ambiguous option: {word} could match {matching}"
  | .valueMissing option => s!"argument {option.title}: expected one argument"
  | .valueUnwanted option value =>
    s!"argument {option.title}: ignored explicit argument {Text.display value}"
  | .notANumber option value =>
    s!"argument {option.title}: invalid float value: {Text.display value}"
  | .unknownCommand choice word known =>
    let shown := ", ".intercalate (known.map Text.display)
    s!"argument {choice}: invalid choice: {Text.display word} (choose from {shown})"
  | .missing names =>
    let listed := ", ".intercalate names
    s!"the following arguments are required: {listed}"
  | .unrecognized words =>
    let listed := " ".intercalate words
    s!"unrecognized arguments: {listed}"

/-- Why the reading of a line ends without a command to run. -/
inductive Ending where
  | help
  /-- The program or the command of it that was misused. -/
  | misuse (program : String) (reason : Misuse)
  deriving DecidableEq, Repr

def Ending.status : Ending → Nat
  | .help => 0
  | .misuse _ _ => 2

def Ending.message : Ending → String
  | .help => ""
  | .misuse program reason => s!"{program}: error: {reason.message}"

/-- The value of an option or an operand. -/
inductive Argument where
  | given
  | text (s : String)
  | number (x : Float)

/-- What was read: the commands that were named, the values, and the words that belong nowhere. -/
structure Reading where
  commands : List String
  values : List (String × Argument)
  strays : List String

namespace Reading

/-- A value; the last one counts. -/
def get? (reading : Reading) (key : String) : Option Argument :=
  reading.values.reverse.lookup key

def has (reading : Reading) (key : String) : Bool :=
  (reading.get? key).isSome

def text? (reading : Reading) (key : String) : Option String :=
  match reading.get? key with
  | some (.text s) => some s
  | _ => none

def number? (reading : Reading) (key : String) : Option Float :=
  match reading.get? key with
  | some (.number x) => some x
  | _ => none

end Reading

/-! ## Telling words apart -/

/-- What a word is. -/
inductive Word where
  | operand
  | unknown
  | option (option : OptionSpec) (value : Option String)
  /-- A short option with letters joined to it. -/
  | joined (option : OptionSpec) (letters : List Char)
  deriving DecidableEq, Repr

/-- Whether characters are a number without an exponent: digits, or a point before digits. -/
def isPlainNumber (cs : List Char) : Bool :=
  let digits (ds : List Char) : Bool :=
    !ds.isEmpty && ds.all fun c => (Text.digit? c).isSome
  let whole := cs.takeWhile fun c => (Text.digit? c).isSome
  match cs.drop whole.length with
  | [] => digits whole
  | '.' :: fraction => digits fraction
  | _ => false

/-- Whether a word is a negative number. A newline may end it. -/
def isNegativeNumber (word : String) : Bool :=
  match word.toList with
  | '-' :: cs => isPlainNumber (if cs.getLast? = some '\n' then cs.dropLast else cs)
  | _ => false

def named? (options : List OptionSpec) (name : String) : Option OptionSpec :=
  options.find? fun option => option.names.contains name

/-- The options that have a name with a beginning, each with that name. -/
def starting (options : List OptionSpec) (beginning : String) : List (OptionSpec × String) :=
  options.flatMap fun option =>
    (option.names.filter fun name => name.startsWith beginning).map fun name => (option, name)

/-- What stands before and behind the first equals sign of a word. -/
def assigned? (word : String) : Option (String × String) :=
  (Text.splitAt? ['='] word.toList).map fun (name, value) =>
    (String.ofList name, String.ofList value)

/-- A word that starts with a hyphen and is no name of an option. -/
def classifyUnnamed (options : List OptionSpec) (word : String) : Except Misuse Word :=
  let other : Word := if isNegativeNumber word || word.contains ' ' then .operand else .unknown
  match word.toList with
  | '-' :: '-' :: _ =>
    let assigned := assigned? word
    match starting options (assigned.elim word Prod.fst) with
    | [] => .ok other
    | [(option, _)] => .ok (.option option (assigned.map Prod.snd))
    | several => .error (.ambiguous word (several.map Prod.snd))
  | hyphen :: letter :: rest =>
    match named? options (String.ofList [hyphen, letter]) with
    | some option => .ok (.joined option rest)
    | none => .ok other
  | _ => .ok other

def classify (options : List OptionSpec) (word : String) : Except Misuse Word :=
  match word.toList with
  | '-' :: _ :: _ =>
    match named? options word, assigned? word with
    | some option, _ => .ok (.option option none)
    | none, none => classifyUnnamed options word
    | none, some (name, value) =>
      match named? options name with
      | some option => .ok (.option option (some value))
      | none => classifyUnnamed options word
  | _ => .ok .operand

def classifyAll (options : List OptionSpec) (words : List String) :
    Except Misuse (List (String × Word)) :=
  words.mapM fun word => (classify options word).map fun kind => (word, kind)

/-! ## Taking words -/

/-- How far the words of a line were taken. -/
structure Progress where
  values : List (String × Argument)
  /-- The operands that are still to come. -/
  pending : List String
  /-- The option whose value is still to come. -/
  awaiting : Option OptionSpec
  /-- Whether the last word was taken for an operand. -/
  bound : Bool
  strays : List String

/-- Why a word cannot be taken. -/
inductive Stop where
  | help
  | misuse (reason : Misuse)
  deriving DecidableEq, Repr

namespace Progress

def start (operands : List String) : Progress :=
  ⟨[], operands, none, false, []⟩

/-- Keeps a word that belongs nowhere. -/
def stray (word : String) (progress : Progress) : Progress :=
  { progress with strays := progress.strays ++ [word], bound := false }

/-- Takes a word for the next operand, if one is still to come. -/
def bind (word : String) (progress : Progress) : Progress :=
  match progress.pending with
  | [] => progress.stray word
  | name :: rest =>
    { progress with
      values := progress.values ++ [(name, .text word)], pending := rest, bound := true }

def give (option : OptionSpec) (value : String) (progress : Progress) : Except Stop Progress :=
  let keep (argument : Argument) : Progress :=
    { progress with
      values := progress.values ++ [(option.key, argument)], awaiting := none, bound := false }
  match option.kind with
  | .number =>
    match Decimal.float? value with
    | some x => .ok (keep (.number x))
    | none => .error (.misuse (.notANumber option value))
  | _ => .ok (keep (.text value))

/-- Takes an option without a value. -/
def trigger (option : OptionSpec) (progress : Progress) : Except Stop Progress :=
  match option.kind with
  | .help => .error .help
  | .flag =>
    .ok { progress with values := progress.values ++ [(option.key, .given)], bound := false }
  | .text | .number => .ok { progress with awaiting := some option, bound := false }

/-- The options that joined letters stand for, and the letters from the first one that is none. -/
def separate (options : List OptionSpec) (option : OptionSpec) :
    List Char → Except Misuse (List OptionSpec × List Char)
  | [] => .ok ([option], [])
  | '-' :: rest => .error (.valueUnwanted option (String.ofList ('-' :: rest)))
  | c :: rest =>
    match named? options (String.ofList ['-', c]), rest with
    | none, _ => .ok ([option], c :: rest)
    | some next, '=' :: value => .error (.valueUnwanted next (String.ofList value))
    | some next, _ =>
      (separate options next rest).map fun (others, left) => (option :: others, left)

def takeJoined (options : List OptionSpec) (option : OptionSpec) (letters : List Char)
    (progress : Progress) : Except Stop Progress := do
  let (joined, left) ← (separate options option letters).mapError .misuse
  let after ← joined.foldlM (fun progress option => progress.trigger option) progress
  .ok (if left.isEmpty then after else after.stray (String.ofList ('-' :: left)))

def take (options : List OptionSpec) (progress : Progress) (entry : String × Word) :
    Except Stop Progress :=
  match progress.awaiting, entry.2 with
  | some option, .operand => progress.give option entry.1
  | some option, _ => .error (.misuse (.valueMissing option))
  | none, .operand => .ok (progress.bind entry.1)
  | none, .unknown => .ok (progress.stray entry.1)
  | none, .joined option letters => progress.takeJoined options option letters
  | none, .option option none => progress.trigger option
  | none, .option option (some value) =>
    if option.hasValue then progress.give option value
    else .error (.misuse (.valueUnwanted option value))

/-- Refuses to go on before the value of an option. -/
def settled (progress : Progress) : Except Stop Progress :=
  match progress.awaiting with
  | some option => .error (.misuse (.valueMissing option))
  | none => .ok progress

/-- Takes the words behind a divider. The divider belongs to the operand on either side of it, and a
further divider leaves its operand empty, which is shown as a pair of brackets. -/
def takeBehind (words : List String) (progress : Progress) : Progress :=
  let take (progress : Progress) (word : String) : Progress :=
    progress.bind (if word = "--" && !progress.pending.isEmpty then "[]" else word)
  match words with
  | [] => if progress.bound then progress else progress.stray "--"
  | first :: rest =>
    if progress.bound then words.foldl take progress
    else if progress.pending.isEmpty then words.foldl take (progress.stray "--")
    else rest.foldl take (progress.bind first)

/-- The names of what is required and was not given. -/
def lacking (options : List OptionSpec) (progress : Progress) : List String :=
  progress.pending ++
    (options.filter fun option =>
      option.required && (progress.values.lookup option.key).isNone).map OptionSpec.title

/-- Refuses to end without what is required. -/
def complete (options : List OptionSpec) (progress : Progress) : Except Stop Progress :=
  match progress.lacking options with
  | [] => .ok progress
  | names => .error (.misuse (.missing names))

end Progress

/-! ## Reading lines -/

/-- The words in front of the first divider, and the words behind it if there is one. -/
def divide (words : List String) : List String × Option (List String) :=
  match words.dropWhile fun word => word ≠ "--" with
  | [] => (words, none)
  | _ :: behind => (words.takeWhile fun word => word ≠ "--", some behind)

def readWords (options : List OptionSpec) (operands words : List String) :
    Except Stop Progress := do
  let (front, behind) := divide words
  let entries ← (classifyAll options front).mapError .misuse
  let progress ← entries.foldlM (Progress.take options) (.start operands)
  let progress ← progress.settled
  (behind.elim progress fun words => progress.takeBehind words).complete options

/-- Takes words up to the name of a command; the name and the words after it are left. -/
def takeToCommand (options : List OptionSpec) :
    List (String × Word) → Progress → Except Stop (Progress × List String)
  | [], progress => progress.settled.map fun progress => (progress, [])
  | entry :: rest, progress =>
    if progress.awaiting.isNone && entry.2 = .operand then
      .ok (progress, entry.1 :: rest.map Prod.fst)
    else do
      let after ← progress.take options entry
      takeToCommand options rest after

/-- Takes the words of a group: the name of a command and the words after it are left. -/
def readGroup (options : List OptionSpec) (choice : String) (words : List String) :
    Except Stop (Progress × String × List String) := do
  let (front, behind) := divide words
  let entries ← (classifyAll options front).mapError .misuse
  let (progress, left) ← takeToCommand options entries (.start [choice])
  let behind := (behind.map ("--" :: ·)).getD []
  match left, behind with
  | name :: rest, _ => .ok (progress, name, rest ++ behind)
  | [], _ :: first :: rest => .ok (progress, "--", first :: rest)
  | [], _ => .error (.misuse (.missing (progress.lacking options)))

/-- The ending of a program whose words could not be taken. -/
def Stop.ending (program : String) : Stop → Ending
  | .help => .help
  | .misuse reason => .misuse program reason

mutual

/-- Reads the words after the name of a program or a command. -/
def readLine (program : String) : Grammar → (words : List String) → Except Ending Reading
  | .command options operands, words =>
    match readWords options operands words with
    | .ok progress => .ok ⟨[], progress.values, progress.strays⟩
    | .error stop => .error (stop.ending program)
  | .group options choice commands, words =>
    match readGroup options choice words with
    | .error stop => .error (stop.ending program)
    | .ok (progress, name, rest) =>
      match readCommand program name rest commands with
      | none => .error (.misuse program (.unknownCommand choice name (commands.map Prod.fst)))
      | some (.error ending) => .error ending
      | some (.ok inner) =>
        .ok ⟨name :: inner.commands, progress.values ++ inner.values,
          progress.strays ++ inner.strays⟩

/-- Reads the words after the name of a command, if there is a command with that name. -/
def readCommand (program name : String) (words : List String) :
    List (String × Grammar) → Option (Except Ending Reading)
  | [] => none
  | (known, grammar) :: rest =>
    if known = name then some (readLine s!"{program} {name}" grammar words)
    else readCommand program name words rest

end

/-- Reads a line. Words that belong nowhere are refused in the end. -/
def read (program : String) (grammar : Grammar) (words : List String) : Except Ending Reading :=
  match readLine program grammar words with
  | .error ending => .error ending
  | .ok reading =>
    if reading.strays.isEmpty then .ok reading
    else .error (.misuse program (.unrecognized reading.strays))

end GraphQuery.CommandLine
