import Turnstile.Text.Numeral
import Turnstile.Text.Terminal

/-!
# Arguments of the command line

The arguments are identifiers and options, in any order. An option that takes a
value finds it after an equals sign, in the rest of a cluster of short options,
or in the next argument. After `--` everything is an identifier.

Arguments are read from left to right, and the first mistake counts. The value
that an option found in the next argument is looked at only when the next option
or identifier begins, or at the end: by then an argument that means nothing at
all has gone before it.
-/

namespace Turnstile.CommandLine

/-! ### Options -/

/-- The options. -/
inductive Flag
  | config
  | threshold
  | deadline
  | repetitions
  | logJson
  | help
  | version
deriving DecidableEq, Repr

namespace Flag

/-- All options. -/
def all : List Flag := [config, threshold, deadline, repetitions, logJson, help, version]

/-- The name of an option after two dashes. -/
def longName : Flag → String
  | config => "config"
  | threshold => "threshold-ms"
  | deadline => "deadline-ms"
  | repetitions => "repeat"
  | logJson => "log-json"
  | help => "help"
  | version => "version"

/-- The letter of an option after one dash. -/
def letter? : Flag → Option Char
  | config => some 'c'
  | repetitions => some 'r'
  | help => some 'h'
  | version => some 'V'
  | _ => none

/-- The name of the value that an option takes, if it takes one. -/
def valueName? : Flag → Option String
  | config => some "CONFIG"
  | threshold => some "THRESHOLD_MS"
  | deadline => some "DEADLINE_MS"
  | repetitions => some "REPEAT"
  | _ => none

/-- An option with its value, as messages show it. -/
def display (f : Flag) : String :=
  "--" ++ f.longName ++
    match f.valueName? with
    | some name => " <" ++ name ++ ">"
    | none => ""

/-- The option of a long name. -/
def ofLongName? (name : String) : Option Flag := all.find? (·.longName == name)

/-- The option of a letter. -/
def ofLetter? (c : Char) : Option Flag := all.find? (·.letter? == some c)

end Flag

/-! ### Mistakes -/

/-- What is wrong with a numeral. -/
inductive NumberProblem
  | empty
  | invalidDigit
  | tooLarge
deriving DecidableEq, Repr

/-- The text of a problem. -/
def NumberProblem.message : NumberProblem → String
  | empty => "cannot parse integer from empty string"
  | invalidDigit => "invalid digit found in string"
  | tooLarge => "number too large to fit in target type"

/-- What is wrong with the arguments. -/
inductive UsageError
  | noIdentifiers
  | unknownArgument (argument : String)
  | unneededValue (value : String) (flag : Flag)
  | missingValue (flag : Flag)
  | invalidValue (value : String) (flag : Flag) (problem : NumberProblem)
  | givenTwice (flag : Flag)
deriving DecidableEq, Repr

/-- A part of an argument between apostrophes, as far as it is visible. -/
def inApostrophes (s : String) : String := "'" ++ Text.Terminal.visible s ++ "'"

/-- The text of a mistake. -/
def UsageError.message : UsageError → String
  | noIdentifiers => "the following required arguments were not provided:"
  | unknownArgument argument => "unexpected argument " ++ inApostrophes argument ++ " found"
  | unneededValue value flag =>
    "unexpected value " ++ inApostrophes value ++ " for '" ++ flag.display ++
      "' found; no more were expected"
  | missingValue flag => "a value is required for '" ++ flag.display ++ "' but none was supplied"
  | invalidValue value flag problem =>
    "invalid value " ++ inApostrophes value ++ " for '" ++ flag.display ++ "': " ++
      problem.message
  | givenTwice flag => "the argument '" ++ flag.display ++ "' cannot be used multiple times"

/-- Why the arguments do not lead to a run. -/
inductive NoRun
  | help
  | version
  | mistake (e : UsageError)
deriving DecidableEq, Repr

/-! ### Numbers -/

/-- The value of digits after a number, as a word. -/
def readWordFrom (high : Nat) : List Char → Except NumberProblem UInt64
  | [] => .ok (.ofNat high)
  | c :: rest =>
    match Numeral.digit? 10 c with
    | none => .error .invalidDigit
    | some d =>
      if high * 10 + d < UInt64.size then readWordFrom (high * 10 + d) rest else .error .tooLarge

/-- The word that a text gives; a plus sign may stand before the digits. -/
def readWord (text : String) : Except NumberProblem UInt64 :=
  match text.toList with
  | [] => .error .empty
  | ['+'] => .error .invalidDigit
  | '+' :: digits => readWordFrom 0 digits
  | digits => readWordFrom 0 digits

/-! ### Reading -/

/-- The arguments of a run. -/
structure Arguments where
  config : Option String := none
  thresholdMillis : Option UInt64 := none
  deadlineMillis : Option UInt64 := none
  /-- How many requests are issued for each identifier, if it is said. -/
  repetitions : Option UInt64 := none
  logJson : Bool := false
  identifiers : List String := []
deriving DecidableEq, Repr

namespace Arguments

/-- Whether an option has been given. -/
def has (a : Arguments) : Flag → Bool
  | .config => a.config.isSome
  | .threshold => a.thresholdMillis.isSome
  | .deadline => a.deadlineMillis.isSome
  | .repetitions => a.repetitions.isSome
  | .logJson => a.logJson
  | .help | .version => false

/-- The word that an option is given. -/
def wordOf (f : Flag) (value : String) : Except NoRun UInt64 :=
  match readWord value with
  | .ok n => .ok n
  | .error problem => .error (.mistake (.invalidValue value f problem))

/-- Take an option with its value. -/
def withValue (a : Arguments) (f : Flag) (value : String) : Except NoRun Arguments :=
  if a.has f then .error (.mistake (.givenTwice f))
  else
    match f with
    | .config =>
      if value.isEmpty then .error (.mistake (.missingValue f))
      else .ok { a with config := some value }
    | .threshold => (wordOf f value).map fun n => { a with thresholdMillis := some n }
    | .deadline => (wordOf f value).map fun n => { a with deadlineMillis := some n }
    | .repetitions => (wordOf f value).map fun n => { a with repetitions := some n }
    | .logJson | .help | .version => .error (.mistake (.unneededValue value f))

/-- Take an option without value. -/
def withFlag (a : Arguments) (f : Flag) : Except NoRun Arguments :=
  match f with
  | .help => .error .help
  | .version => .error .version
  | .logJson =>
    if a.has f then .error (.mistake (.givenTwice f)) else .ok { a with logJson := true }
  | _ => .error (.mistake (.missingValue f))

/-- How many requests are issued for each identifier. -/
def requestsEach (a : Arguments) : Nat := (a.repetitions.getD 1).toNat

end Arguments

/-- How far the arguments have been read. -/
structure Reading where
  arguments : Arguments := {}
  /-- An option that was given as an argument of its own, and the value after it,
      as far as there is one. -/
  pending : Option (Flag × Option String) := none
  /-- Whether only identifiers follow. -/
  onlyIdentifiers : Bool := false
deriving DecidableEq, Repr

namespace Reading

/-- Look at the option that is pending. -/
def settle (r : Reading) : Except NoRun Reading :=
  match r.pending with
  | none => .ok r
  | some (f, none) => .error (.mistake (.missingValue f))
  | some (f, some value) =>
    (r.arguments.withValue f value).map fun arguments => { r with arguments, pending := none }

/-- Take an option with a value that is attached to it. -/
def attach (r : Reading) (f : Flag) (value : String) : Except NoRun Reading := do
  let r ← r.settle
  let arguments ← r.arguments.withValue f value
  .ok { r with arguments }

/-- Take an option that stands alone; its value, if it takes one, is still to
    come. -/
def take (r : Reading) (f : Flag) : Except NoRun Reading := do
  let r ← r.settle
  if f.valueName?.isSome then .ok { r with pending := some (f, none) }
  else
    let arguments ← r.arguments.withFlag f
    .ok { r with arguments }

/-- Take an identifier. -/
def identifier (r : Reading) (s : String) : Except NoRun Reading := do
  let r ← r.settle
  .ok { r with arguments.identifiers := r.arguments.identifiers ++ [s] }

/-- Read an argument after two dashes. -/
def long (r : Reading) (body : List Char) : Except NoRun Reading :=
  let name := String.ofList (body.takeWhile (· != '='))
  let attached := body.dropWhile (· != '=')
  match Flag.ofLongName? name, attached with
  | none, _ => .error (.mistake (.unknownArgument ("--" ++ name)))
  | some f, [] => r.take f
  | some f, _ :: value =>
    if f.valueName?.isSome then r.attach f (String.ofList value)
    else .error (.mistake (.unneededValue (String.ofList value) f))

/-- Read a cluster of short options. -/
def short (r : Reading) : List Char → Except NoRun Reading
  | [] => .ok r
  | c :: rest =>
    match Flag.ofLetter? c with
    | none => .error (.mistake (.unknownArgument ("-" ++ String.singleton c)))
    | some f =>
      if f.valueName?.isSome then
        match rest with
        | [] => r.take f
        | '=' :: value => r.attach f (String.ofList value)
        | value => r.attach f (String.ofList value)
      else (r.take f).bind fun r => r.short rest

/-- Read a word that is no option: the value of the option before it, or an
    identifier. -/
def word (r : Reading) (s : String) : Except NoRun Reading :=
  match r.pending with
  | some (f, none) => .ok { r with pending := some (f, some s) }
  | _ => r.identifier s

/-- Read an argument. -/
def read (r : Reading) (s : String) : Except NoRun Reading :=
  if r.onlyIdentifiers then r.identifier s
  else
    match s.toList with
    | ['-', '-'] => .ok { r with onlyIdentifiers := true }
    | '-' :: '-' :: body => r.long body
    | ['-'] => r.word s
    | '-' :: letters => r.short letters
    | _ => r.word s

/-- Read some arguments. -/
def readAll (r : Reading) : List String → Except NoRun Reading
  | [] => r.settle
  | s :: rest => (r.read s).bind fun r => r.readAll rest

end Reading

/-- Read the arguments of a run. -/
def Arguments.parse (args : List String) : Except NoRun Arguments := do
  let r ← Reading.readAll {} args
  if r.arguments.identifiers.isEmpty then .error (.mistake .noIdentifiers) else .ok r.arguments

end Turnstile.CommandLine
