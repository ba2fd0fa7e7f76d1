import Turnstile.Config.Decode
import Turnstile.SystemError

/-!
# Settings from a file

What a path leads to: bytes, or a failure of the system, as where there is no
file, or a directory. The bytes have to be UTF-8.
-/

namespace Turnstile

/-- What a path leads to. -/
inductive FileContent
  | bytes (bs : ByteArray)
  | failure (cause : SystemError)

/-- There is no file. -/
def FileContent.missing : FileContent := .failure ⟨2⟩

/-- There is a directory. -/
def FileContent.directory : FileContent := .failure ⟨21⟩

/-- Why a path does not give settings. -/
inductive FileError
  | unreadable (cause : SystemError)
  /-- The bytes are not UTF-8. -/
  | notText
  /-- The text does not give settings. -/
  | settings (e : SettingsError)
deriving DecidableEq, Repr

namespace FileError

/-- What the system says. -/
def cause? : FileError → Option String
  | unreadable cause => some (cause.message ++ " (os error " ++ Numeral.text cause.code ++ ")")
  | notText => some "stream did not contain valid UTF-8"
  | settings _ => none

/-- The text of an error. -/
def message : FileError → String
  | settings e => e.message
  | e => "I/O error: " ++ e.cause?.getD ""

end FileError

/-- The text that a path leads to. -/
def FileContent.read : FileContent → Except FileError String
  | failure cause => .error (.unreadable cause)
  | bytes bs =>
    match String.fromUTF8? bs with
    | some text => .ok text
    | none => .error .notText

/-- The settings that a path leads to. -/
def Settings.ofFile (content : FileContent) : Except FileError Settings :=
  match content.read with
  | .error e => .error e
  | .ok text =>
    match Settings.ofYaml text with
    | .error e => .error (.settings e)
    | .ok s => .ok s

end Turnstile
