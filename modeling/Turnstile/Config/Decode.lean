import Turnstile.Config.Settings
import Turnstile.Yaml.Meaning

/-!
# Settings from YAML

The settings are a mapping with the sections `limiter` and `cache`, which are
mappings of words. A section or a setting that is left out has its default, and
so has a section without text. What the settings do not know is passed over, but
nothing they know may be given twice.

The first complaint in the order of the document is the error. It names the path
to the place, if there is one, and the place, unless that is the first of the
document. A mapping itself is to blame for a setting given twice; a value that
was given under an alias as its key has no name in the path.
-/

namespace Turnstile

open Yaml

/-- What is wrong with a document. -/
inductive Complaint
  /-- Something of another kind was expected. -/
  | wrongKind (found : Finding) (expected : String)
  /-- A text is not of the kind that its tag asks for. -/
  | wrongText (text : List Char) (tag : CoreTag)
  /-- A setting is given twice. -/
  | givenTwice (name : String)
deriving DecidableEq, Repr

/-- A complaint, and the path and the place in the document that it is about. -/
structure DecodeError where
  complaint : Complaint
  path : List String
  mark : Mark
deriving DecidableEq, Repr

/-- The text of a complaint. -/
def Complaint.message : Complaint → String
  | wrongKind found expected => "invalid type: " ++ found.describe ++ ", expected " ++ expected
  | wrongText text tag =>
    "invalid value: " ++ (Meaning.text text).describe ++ ", expected " ++ tag.expectation
  | givenTwice name => "duplicate field `" ++ name ++ "`"

namespace DecodeError

/-- The text of a place, counted from one. -/
def place (m : Mark) : String :=
  if m.line = 0 && m.column = 0 then ""
  else " at line " ++ Numeral.text (m.line + 1) ++ " column " ++ Numeral.text (m.column + 1)

/-- The text of an error. -/
def message (e : DecodeError) : String :=
  let path := if e.path.isEmpty then "" else ".".intercalate e.path ++ ": "
  path ++ e.complaint.message ++ place e.mark

end DecodeError

/-! ### Nodes -/

/-- The node that a node stands for. -/
def Yaml.Document.target (d : Document) : Node → Node
  | .alias mark number => (d.resolve? number).getD (.missing mark)
  | node => node

/-- The complaint about a node that is not what was expected. -/
def complain (path : List String) (node : Node) (expected : String) : DecodeError :=
  let complaint : Complaint :=
    match node with
    | .scalar _ s =>
      match s.meaning with
      | .ok meaning => .wrongKind (.scalar meaning) expected
      | .error tag => .wrongText s.text tag
    | .sequence .. => .wrongKind .sequence expected
    | .mapping .. => .wrongKind .mapping expected
    | .alias .. => .wrongKind (.scalar .nothing) expected
  ⟨complaint, path, node.mark⟩

/-- Read a word. -/
def decodeWord (d : Document) (path : List String) (node : Node) : Except DecodeError UInt64 :=
  match d.target node with
  | .scalar mark s =>
    match s.word? with
    | some n => .ok n
    | none => .error (complain path (.scalar mark s) "u64")
  | other => .error (complain path other "u64")

/-- Read the name of a setting. -/
def decodeName (d : Document) (path : List String) (node : Node) : Except DecodeError String :=
  match d.target node with
  | .scalar _ s => .ok (String.ofList s.text)
  | other => .error (complain path other "field identifier")

/-- The name that a key adds to the path. -/
def pathName (key : Node) (name : String) : String :=
  match key with
  | .alias .. => "?"
  | _ => name

/-! ### Sections -/

/-- How the settings of a section are read: each by its name, into what was read
    so far. -/
abbrev Fields (α : Type) := List (String × (List String → Node → α → Except DecodeError α))

/-- Read the entries of a mapping. -/
def decodeEntries {α : Type} (d : Document) (fields : Fields α) (path : List String) (mark : Mark) :
    List (Node × Node) → List String → α → Except DecodeError α
  | [], _, a => .ok a
  | (key, value) :: rest, seen, a => do
    let name ← decodeName d path key
    match fields.lookup name with
    | none => decodeEntries d fields path mark rest seen a
    | some field =>
      if seen.contains name then .error ⟨.givenTwice name, path, mark⟩
      else
        let a ← field (path ++ [pathName key name]) value a
        decodeEntries d fields path mark rest (name :: seen) a

/-- Read a section of the given name, over its defaults. -/
def decodeSection {α : Type} (d : Document) (fields : Fields α) (name : String) (defaults : α)
    (path : List String) (node : Node) : Except DecodeError α :=
  match d.target node with
  | .mapping mark entries => decodeEntries d fields path mark entries [] defaults
  | .scalar mark s =>
    if s.text.isEmpty && s.style = .plain then .ok defaults
    else .error (complain path (.scalar mark s) name)
  | other => .error (complain path other name)

/-- The settings of a limiter, by name. -/
def LimiterSettings.fields (d : Document) : Fields LimiterSettings := [
  ("threshold_ms", fun path node s => do
    let n ← decodeWord d path node
    .ok { s with thresholdMillis := n }),
  ("deadline_ms", fun path node s => do
    let n ← decodeWord d path node
    .ok { s with deadlineMillis := n })]

/-- The settings of a cache, by name. -/
def CacheSettings.fields (d : Document) : Fields CacheSettings := [
  ("sweep_interval_ms", fun path node s => do
    let n ← decodeWord d path node
    .ok { s with sweepIntervalMillis := n })]

/-- The sections, by name. -/
def Settings.fields (d : Document) : Fields Settings := [
  ("limiter", fun path node s => do
    let limiter ← decodeSection d (LimiterSettings.fields d) "struct LimiterConfig" {} path node
    .ok { s with limiter }),
  ("cache", fun path node s => do
    let cache ← decodeSection d (CacheSettings.fields d) "struct CacheConfig" {} path node
    .ok { s with cache })]

/-- The settings that a document holds. -/
def Settings.decode (d : Document) : Except DecodeError Settings :=
  match d.root with
  | none => .ok {}
  | some root => decodeSection d (Settings.fields d) "struct SaltlimitConfig" {} [] root

/-! ### Texts -/

/-- Why a text does not give settings. -/
inductive SettingsError
  /-- It is not one YAML document. -/
  | notYaml
  /-- The document does not hold settings. -/
  | undecodable (e : DecodeError)
  /-- A cache would be swept all the time. -/
  | zeroSweepInterval
deriving DecidableEq, Repr

/-- The text of an error. -/
def SettingsError.message : SettingsError → String
  | notYaml => "not YAML"
  | undecodable e => "Configuration error: Failed to parse config: " ++ e.message
  | zeroSweepInterval => "Configuration error: cache.sweep_interval_ms must be greater than zero"

/-- The settings that a text gives. -/
def Settings.ofYaml (text : String) : Except SettingsError Settings :=
  match Document.ofText? text with
  | none => .error .notYaml
  | some d =>
    match Settings.decode d with
    | .error e => .error (.undecodable e)
    | .ok s => if s.cache.sweepIntervalMillis = 0 then .error .zeroSweepInterval else .ok s

end Turnstile
