import Turnstile.Hash.Sha256
import Turnstile.Text.Hex

/-!
# Keys

An identifier never leaves the limiter. What does is its *key*: the SHA-256 of
its UTF-8 bytes followed by the *salt* of the limiter, in hexadecimal. The salt
is sixteen random bytes, drawn once, and shown to nobody (`Salt.text`).

A key also says which of a number of locks, the *stripes*, guards its entry: the
one numbered by its first sixteen digits, modulo the number of stripes.
-/

namespace Turnstile

/-- The secret of a limiter. -/
structure Salt where
  bytes : List UInt8
  /-- There are sixteen of them. -/
  length_eq : bytes.length = 16 := by decide
deriving DecidableEq

/-- What stands for an identifier outside the limiter. -/
structure Key where
  text : String
deriving DecidableEq, Repr, Inhabited

namespace Salt

/-- The salt of sixteen given bytes. -/
def ofBytes? (bytes : List UInt8) : Option Salt :=
  if h : bytes.length = 16 then some ⟨bytes, h⟩ else none

/-- The salt of zeros. -/
def zero : Salt := ⟨List.replicate 16 0, by decide⟩

/-- What is shown of a salt. -/
def text (_ : Salt) : String := "Salt(..)"

/-- The key of an identifier under a salt. -/
def anonymize (salt : Salt) (identifier : String) : Key :=
  let hasher := (Sha256.Hasher.new.update identifier.toUTF8.data.toList).update salt.bytes
  ⟨String.ofList (Hex.encode hasher.finalize)⟩

end Salt

namespace Key

/-- The stripe of a key among a number of them. A text without sixteen
    hexadecimal digits at its start counts as zero. -/
def stripe (key : Key) (stripes : Nat) : Nat :=
  let digits := key.text.toList.take 16
  let number := if digits.length = 16 then Numeral.read? 16 digits else none
  number.getD 0 % stripes

/-- A key as the display of a structure shows it. -/
def display (key : Key) : String :=
  "AnonymizedKey(\"" ++ key.text ++ "\")"

end Key

end Turnstile
