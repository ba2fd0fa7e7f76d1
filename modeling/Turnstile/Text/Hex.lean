import Turnstile.Text.Numeral

/-!
# Hexadecimal text

Bytes written as two lower-case hexadecimal digits each, and read back. Reading
takes digits of either case and refuses an odd number of them.
-/

namespace Turnstile.Hex

/-- The digits of a byte. -/
def ofByte (b : UInt8) : List Char :=
  [Nat.digitChar (b.toNat / 16), Nat.digitChar (b.toNat % 16)]

/-- The digits of some bytes. -/
def encode (bytes : List UInt8) : List Char :=
  bytes.flatMap ofByte

/-- The bytes that digits stand for. -/
def decode? : List Char → Option (List UInt8)
  | [] => some []
  | [_] => none
  | high :: low :: rest => do
    let h ← Numeral.digit? 16 high
    let l ← Numeral.digit? 16 low
    let bytes ← decode? rest
    some (UInt8.ofNat (h * 16 + l) :: bytes)

theorem digit?_digitChar {n : Nat} (h : n < 16) : Numeral.digit? 16 (Nat.digitChar n) = some n := by
  revert n
  decide

@[simp] theorem encode_cons (b : UInt8) (rest : List UInt8) :
    encode (b :: rest) = ofByte b ++ encode rest := rfl

/-- Bytes are read back from their digits. -/
theorem decode?_encode (bytes : List UInt8) : decode? (encode bytes) = some bytes := by
  induction bytes with
  | nil => rfl
  | cons b rest ih =>
    have high : b.toNat / 16 < 16 := by have := b.toNat_lt; omega
    have low : b.toNat % 16 < 16 := by omega
    have whole : b.toNat / 16 * 16 + b.toNat % 16 = b.toNat := by omega
    simp only [encode_cons, ofByte, List.cons_append, List.nil_append, decode?,
      digit?_digitChar high, digit?_digitChar low, ih, Option.bind_eq_bind, Option.bind_some, whole,
      UInt8.ofNat_toNat]

/-- A byte has two digits. -/
theorem length_encode (bytes : List UInt8) : (encode bytes).length = 2 * bytes.length := by
  induction bytes with
  | nil => rfl
  | cons b rest ih =>
    simp only [encode_cons, List.length_append, ih, ofByte, List.length_cons, List.length_nil]
    omega

end Turnstile.Hex
