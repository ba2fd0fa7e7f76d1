/-!
# Binary floating point

The numbers of sixty-four bits of binary floating point: a significand below
`2 ^ 53` times a power of two not below `2 ^ -1074`, with a sign, and beside them
the infinities and what is not a number.

`ofFraction` rounds a positive fraction to the nearest such number, a tie to the
even significand.
-/

namespace Turnstile

/-- A number of binary floating point. -/
inductive Binary64
  /-- The value `significand * 2 ^ exponent`. -/
  | finite (negative : Bool) (significand : Nat) (exponent : Int)
  | infinite (negative : Bool)
  | notANumber
deriving DecidableEq, Repr

namespace Binary64

/-- The least exponent. -/
def leastExponent : Int := -1074

/-- The greatest exponent of a full significand. -/
def greatestExponent : Int := 971

/-- The least significand of fifty-three bits. -/
def leastFull : Nat := Nat.pow 2 52

/-- A fraction rounded to a whole number, a half to the even one. -/
def roundHalfEven (num den : Nat) : Nat :=
  let whole := num / den
  let rest := num % den
  if 2 * rest > den || (2 * rest == den && whole % 2 == 1) then whole + 1 else whole

/-- The fraction `num / den` divided by `2 ^ e`. -/
def shiftFraction (num den : Nat) (e : Int) : Nat × Nat :=
  if 0 ≤ e then (num, den * Nat.pow 2 e.toNat) else (num * Nat.pow 2 (-e).toNat, den)

/-- The exponent at which a fraction has fifty-three significant bits, or the
    least one. -/
def exponentFor (num den : Nat) : Int :=
  let guess : Int := (num.log2 : Int) - den.log2 - 52
  let (n, d) := shiftFraction num den guess
  max leastExponent (if n / d < leastFull then guess - 1 else guess)

/-- The number nearest to a positive fraction with a sign. -/
def ofFraction (negative : Bool) (num den : Nat) : Binary64 :=
  let e := exponentFor num den
  let (n, d) := shiftFraction num den e
  let m := roundHalfEven n d
  let (m, e) := if m = 2 * leastFull then (leastFull, e + 1) else (m, e)
  if e > greatestExponent then .infinite negative else .finite negative m e

/-- The number nearest to `digits * 10 ^ exponent`. -/
def ofDecimal (negative : Bool) (digits : Nat) (exponent : Int) : Binary64 :=
  let places : Int := (Nat.toDigits 10 digits).length
  if digits = 0 || places + exponent < -330 then .finite negative 0 leastExponent
  else if places + exponent > 310 then .infinite negative
  else if 0 ≤ exponent then ofFraction negative (digits * Nat.pow 10 exponent.toNat) 1
  else ofFraction negative digits (Nat.pow 10 (-exponent).toNat)

/-- Whether a number is finite. -/
def isFinite : Binary64 → Bool
  | finite .. => true
  | _ => false

end Binary64

end Turnstile
