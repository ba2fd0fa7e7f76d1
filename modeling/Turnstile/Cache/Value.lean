import Turnstile.Text.Quoted
import Turnstile.Time.Calendar

/-!
# Cache values

What an entry of the cache holds. The limiter writes timestamps only. Text and
bytes are what others may have left under a key; the limiter does not interpret
them.
-/

namespace Turnstile

/-- A value in the cache. -/
inductive Value
  /-- The next point in time at which an identifier may be admitted. -/
  | timestamp (t : Timestamp)
  /-- Free text. -/
  | text (s : String)
  /-- Bytes without meaning. -/
  | bytes (bs : List UInt8)
deriving DecidableEq, Repr

namespace Value

/-- The timestamp that a value is, if it is one. -/
def timestamp? : Value → Option Timestamp
  | timestamp t => some t
  | _ => none

/-- A value as the display of a structure shows it. -/
def display : Value → String
  | timestamp t => "Timestamp(" ++ Calendar.text t ++ ")"
  | text s => "Text(" ++ Text.quoted s ++ ")"
  | bytes bs =>
    "Bytes([" ++ ", ".intercalate (bs.map fun b => Numeral.text b.toNat) ++ "])"

end Value

end Turnstile
