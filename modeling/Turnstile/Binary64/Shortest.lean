import Turnstile.Binary64.Basic
import Turnstile.Text.Numeral

/-!
# Shortest decimals

The text of a number of binary floating point: the fewest digits that lie nearer
to it than to any other such number, and of those the nearest. The point is
always shown, with a zero after it where nothing else is, and there is never a
power of ten.

The decimals that read back as a number `m * 2 ^ q` are those between the middles
of the gaps below and above it, the middles included if `m` is even. The gap
below a power of two is half as wide as the one above. For one digit, two digits
and so on, the two neighbours of the number on that grid are tried.
-/

namespace Turnstile.Binary64

/-- The least `j` from a given one on at which `num * 10 ^ j` reaches `den`, or
    the last one tried. -/
def leadingPlace (num den : Nat) : Nat → Nat → Nat
  | 0, j => j
  | tries + 1, j => if num * Nat.pow 10 j ≥ den then j else leadingPlace num den tries (j + 1)

/-- The `k` with `10 ^ (k - 1) ≤ m * 2 ^ q < 10 ^ k`. -/
def decimalPoint (m : Nat) (q : Int) : Int :=
  let (num, den) := shiftFraction m 1 (-q)
  if num ≥ den then (Nat.toDigits 10 (num / den)).length
  else 1 - (leadingPlace num den 400 0 : Nat)

/-- The multiple of `10 ^ p`, as a factor, that is nearest to `m * 2 ^ q` among
    those that read back as it, if there is one. -/
def onGrid? (m : Nat) (q : Int) (p : Int) : Option Nat :=
  -- In units of a quarter of the gap above, the number is `4 * m`.
  let (num, den) := shiftFraction 1 1 (q - 2)
  let (num, den) :=
    if 0 ≤ p then (num * Nat.pow 10 p.toNat, den) else (num, den * Nat.pow 10 (-p).toNat)
  let low := if m = leastFull ∧ q > leastExponent then 4 * m - 1 else 4 * m - 2
  let high := 4 * m + 2
  let inside (d : Nat) : Bool :=
    let scaled := d * num
    if m % 2 == 0 then low * den ≤ scaled && scaled ≤ high * den
    else low * den < scaled && scaled < high * den
  let below := 4 * m * den / num
  let above := below + 1
  match inside below, inside above with
  | true, true =>
    if above * num - 4 * m * den ≤ 4 * m * den - below * num then some above else some below
  | true, false => some below
  | false, true => some above
  | false, false => none

/-- The digits of the shortest decimal, from the given number of digits on, and
    the place of its point. -/
def shortestFrom (m : Nat) (q k : Int) : Nat → Nat → Nat × Int
  | 0, n => (m, k - n)
  | tries + 1, n =>
    match onGrid? m q (k - n) with
    | some d => (d, k - n)
    | none => shortestFrom m q k tries (n + 1)

/-- The digits before and after the point of `d * 10 ^ p`. -/
def positional (d : Nat) (p : Int) : List Char :=
  let digits := Numeral.decimal d
  if 0 ≤ p then digits ++ List.replicate p.toNat '0' ++ ['.', '0']
  else
    let places := (-p).toNat
    let padded := List.replicate (places + 1 - digits.length) '0' ++ digits
    let whole := padded.take (padded.length - places)
    let part := (padded.drop (padded.length - places)).reverse.dropWhile (· == '0')
    whole ++ '.' :: (if part.isEmpty then ['0'] else part.reverse)

/-- The text of a number. -/
def text : Binary64 → String
  | notANumber => "NaN"
  | infinite negative => if negative then "-inf" else "inf"
  | finite negative m q =>
    let digits :=
      if m = 0 then ['0', '.', '0']
      else
        let (d, p) := shortestFrom m q (decimalPoint m q) 17 1
        positional d p
    String.ofList (if negative then '-' :: digits else digits)

end Turnstile.Binary64
