import Turnstile.Notice
import Turnstile.Text.Json

/-!
# Lines of the log

A notice is written in one line: as text, with its level, its message and its
fields, or as an object of JSON, which holds the message among the fields.
-/

namespace Turnstile

/-- The text of what a field holds. -/
def FieldValue.shown : FieldValue → String
  | number n => Numeral.text n
  | text s => s

/-- The JSON of what a field holds. -/
def FieldValue.json : FieldValue → String
  | number n => Numeral.text n
  | text s => Json.string s

/-- A notice as a line of text. -/
def Notice.textLine (n : Notice) : String :=
  " ".intercalate <|
    n.level.name :: n.message :: n.fields.map fun (name, value) => name ++ "=" ++ value.shown

/-- A notice as a line of JSON. -/
def Notice.jsonLine (n : Notice) : String :=
  let fields := ("message", Json.string n.message) ::
    n.fields.map fun (name, value) => (name, value.json)
  Json.object [("level", Json.string n.level.name), ("fields", Json.object fields)]

end Turnstile
