/-!
# Numerals

Reading and writing of natural numbers in a base up to thirty-six. A numeral
is a non-empty list of digits, most significant first; letters stand for the
digits from ten on, in either case. `read?` gives its value, and refuses
anything that holds another character.

Writing is decimal: `decimal` without leading zeros, `signed` with a minus sign
where there has to be one, `padded` to a least width, and `fraction` for the
digits after a point, without trailing zeros. What `decimal` writes, `read?`
reads back (`read?_decimal`).
-/

namespace Turnstile.Numeral

/-- The value of a digit of the given base. -/
def digit? (base : Nat) (c : Char) : Option Nat :=
  let value :=
    if '0' ≤ c ∧ c ≤ '9' then some (c.toNat - '0'.toNat)
    else if 'a' ≤ c ∧ c ≤ 'z' then some (c.toNat - 'a'.toNat + 10)
    else if 'A' ≤ c ∧ c ≤ 'Z' then some (c.toNat - 'A'.toNat + 10)
    else none
  value.filter (· < base)

/-- The value of `high` followed by more digits. -/
def readFrom (base high : Nat) : List Char → Option Nat
  | [] => some high
  | c :: rest => (digit? base c).bind fun d => readFrom base (high * base + d) rest

/-- The value of a numeral. -/
def read? (base : Nat) : List Char → Option Nat
  | [] => none
  | digits => readFrom base 0 digits

/-- The decimal digits of `n`, without leading zeros. -/
def decimal (n : Nat) : List Char :=
  Nat.toDigits 10 n

/-- The decimal digits of an integer, after a minus sign if it is negative. -/
def signed (n : Int) : List Char :=
  if n < 0 then '-' :: decimal n.natAbs else decimal n.natAbs

/-- The text of a natural number. -/
def text (n : Nat) : String :=
  String.ofList (decimal n)

/-- The text of an integer. -/
def signedText (n : Int) : String :=
  String.ofList (signed n)

/-- The decimal digits of `n`, with leading zeros up to the given width. -/
def padded (width n : Nat) : List Char :=
  let digits := decimal n
  List.replicate (width - digits.length) '0' ++ digits

/-- The point and the digits of `n / 10 ^ width`, for `n < 10 ^ width`, without
    trailing zeros: nothing at all for zero. -/
def fraction (width n : Nat) : List Char :=
  match (padded width n).reverse.dropWhile (· == '0') with
  | [] => []
  | digits => '.' :: digits.reverse

/-- Decimal digits have the value that `Nat` gives them. -/
theorem readFrom_of_isDigit {digits : List Char} (h : ∀ c ∈ digits, c.isDigit) (high : Nat) :
    readFrom 10 high digits = some (Nat.ofDigitChars 10 digits high) := by
  induction digits generalizing high with
  | nil => rfl
  | cons c rest ih =>
    have hc : '0' ≤ c ∧ c ≤ '9' := by
      have := h c (List.mem_cons_self ..)
      simp only [Char.isDigit, Bool.and_eq_true, decide_eq_true_eq] at this
      exact this
    have upper : c.toNat ≤ '9'.toNat := hc.2
    have value : digit? 10 c = some (c.toNat - '0'.toNat) := by
      have small : c.toNat - 48 < 10 := by
        simp only [Char.reduceToNat] at upper
        omega
      simp [digit?, hc, Option.filter_some, small]
    rw [readFrom, value, Option.bind_some, ih fun c m => h c (List.mem_cons_of_mem _ m)]
    simp [Nat.ofDigitChars, Nat.mul_comm]

/-- A number is read back from its digits. -/
theorem read?_decimal (n : Nat) : read? 10 (decimal n) = some n := by
  unfold read? decimal
  split
  · exact absurd ‹_› Nat.toDigits_ne_nil
  · rw [readFrom_of_isDigit (fun c m => Nat.isDigit_of_mem_toDigits (by decide) (by decide) m),
      Nat.ofDigitChars_toDigits (by decide) (by decide)]

end Turnstile.Numeral
