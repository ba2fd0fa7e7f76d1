import Mathlib.Data.Nat.Digits.Lemmas
import Turnstile.Proofs.Key.Identity
import Turnstile.Proofs.Session.Reach

/-!
# Keys and stripes

The digits that a key begins with are read as a number (`Key.number?`), and a key without
such digits would be counted as zero. No key of an identifier is: its first sixteen digits
are those of the first eight bytes of a digest.

* `Hex.readFrom_encode`: the digits of bytes are read as the big-endian number that the
  bytes form;
* `Key.StripedBy`: how a number stripes a key;
* `Salt.stripe_of_digest`: the number that stripes the key of an identifier is the one that
  its digest begins with, and every request finds its stripe.
-/

namespace Turnstile

/-- The number that bytes form, the most significant one first. -/
def bigEndian (bytes : List UInt8) : Nat :=
  Nat.ofDigits 256 (bytes.reverse.map UInt8.toNat)

theorem bigEndian_cons (b : UInt8) (rest : List UInt8) :
    bigEndian (b :: rest) = b.toNat * 256 ^ rest.length + bigEndian rest := by
  simp only [bigEndian, List.reverse_cons, List.map_append, List.map_cons, List.map_nil,
    Nat.ofDigits_append, Nat.ofDigits_singleton, List.length_map, List.length_reverse]
  rw [Nat.add_comm, Nat.mul_comm]

/-- A byte counts less than 256. -/
theorem bigEndian_lt (bytes : List UInt8) : bigEndian bytes < 256 ^ bytes.length := by
  have digit : ∀ d ∈ bytes.reverse.map UInt8.toNat, d < 256 := by
    intro d hd
    obtain ⟨b, -, rfl⟩ := List.mem_map.1 hd
    exact b.toNat_lt
  simpa [bigEndian] using Nat.ofDigits_lt_base_pow_length (by decide) digit

namespace Hex

/-- The digits of bytes are read as the number that the bytes form. -/
theorem readFrom_encode (high : Nat) (bytes : List UInt8) :
    Numeral.readFrom 16 high (encode bytes) =
      some (high * 256 ^ bytes.length + bigEndian bytes) := by
  induction bytes generalizing high with
  | nil => simp [encode, Numeral.readFrom, bigEndian]
  | cons b rest ih =>
    have upper : b.toNat / 16 < 16 := by have := b.toNat_lt; omega
    have lower : b.toNat % 16 < 16 := by omega
    -- Two digits take the place of one byte.
    have byte : (high * 16 + b.toNat / 16) * 16 + b.toNat % 16 = high * 256 + b.toNat := by omega
    simp only [encode_cons, ofByte, List.cons_append, List.nil_append, Numeral.readFrom,
      digit?_digitChar upper, digit?_digitChar lower, Option.bind_some, byte]
    rw [ih, bigEndian_cons, List.length_cons, Nat.pow_succ']
    congr 1
    ring

/-- Every byte has two digits, so the first digits are those of the first bytes. -/
theorem take_encode (n : Nat) (bytes : List UInt8) :
    (encode bytes).take (2 * n) = encode (bytes.take n) := by
  induction bytes generalizing n with
  | nil => simp [encode]
  | cons b rest ih =>
    cases n with
    | zero => rfl
    | succ n =>
      rw [List.take_succ_cons, encode_cons, encode_cons, ← ih, Nat.mul_succ]
      rfl

end Hex

/-! ### Stripes -/

namespace Key

/-- The number that the first sixteen digits of a key are read as, if it has such digits. -/
def number? (key : Key) : Option Nat :=
  if (key.text.toList.take 16).length = 16 then Numeral.read? 16 (key.text.toList.take 16)
  else none

theorem stripe_eq (key : Key) (stripes : Nat) :
    key.stripe stripes = key.number?.getD 0 % stripes := rfl

/-- How a number stripes a key. -/
structure StripedBy (key : Key) (number stripes : Nat) : Prop where
  /-- The key does begin with digits, and they are those of the number. -/
  read : key.number? = some number
  /-- The number is that of a word. -/
  word : number < UInt64.size
  stripe : key.stripe stripes = number % stripes
  /-- Only multiples of the number of stripes fall to the first stripe. -/
  first : key.stripe stripes = 0 ↔ stripes ∣ number
  /-- A row of so many locks has one for the key. -/
  found : ∀ {α : Type} (row : Array α), row.size = stripes →
    ∃ h : key.stripe stripes < row.size, row[key.stripe stripes]? = some row[key.stripe stripes]

variable {key : Key} {number stripes : Nat}

theorem stripedBy_of_number (read : key.number? = some number) (word : number < UInt64.size)
    (present : 1 ≤ stripes) : key.StripedBy number stripes := by
  have stripe : key.stripe stripes = number % stripes := by rw [stripe_eq, read, Option.getD_some]
  constructor
  case read => exact read
  case word => exact word
  case stripe => exact stripe
  case first => rw [stripe, Nat.dvd_iff_mod_eq_zero]
  case found =>
    intro α row size
    have lt : key.stripe stripes < row.size := by
      rw [stripe, size]
      exact Nat.mod_lt _ present
    exact ⟨lt, Array.getElem?_eq_getElem lt⟩

end Key

namespace Salt

/-- The number that the digest of an identifier under a salt begins with. -/
def leading (s : Salt) (r : String) : Nat :=
  bigEndian ((Sha256.digest (s.message r)).take 8)

theorem leading_lt (s : Salt) (r : String) : s.leading r < UInt64.size := by
  have lt := bigEndian_lt ((Sha256.digest (s.message r)).take 8)
  rwa [List.length_take, Sha256.length_digest] at lt

theorem number?_anonymize (s : Salt) (r : String) :
    (s.anonymize r).number? = some (s.leading r) := by
  have digits : (s.anonymize r).text.toList.take 16 =
      Hex.encode ((Sha256.digest (s.message r)).take 8) := by
    rw [toList_anonymize]
    exact Hex.take_encode 8 _
  have length : (Hex.encode ((Sha256.digest (s.message r)).take 8)).length = 16 := by
    rw [Hex.length_encode, List.length_take, Sha256.length_digest]
    rfl
  rw [Key.number?, digits, if_pos length]
  have read := Hex.readFrom_encode 0 ((Sha256.digest (s.message r)).take 8)
  rw [Nat.zero_mul, Nat.zero_add] at read
  revert length read
  -- There are digits, so they are read from nothing on.
  cases Hex.encode ((Sha256.digest (s.message r)).take 8) with
  | nil => exact fun length => nomatch length
  | cons c rest => exact fun _ read => read

/-- The number that stripes the key of an identifier, among however many stripes, is the one
    that the first eight bytes of the digest form. Every request finds the stripe of its
    limiter that has this number. -/
theorem stripe_of_digest (s : Salt) (r : String) {stripes : Nat} (present : 1 ≤ stripes) :
    (s.anonymize r).StripedBy (bigEndian ((Sha256.digest (s.message r)).take 8)) stripes ∧
      ∀ owner (cell : LimiterCell), cell.limiter.salt = s →
        (World.request owner cell r).lock =
          ⟨owner, bigEndian ((Sha256.digest (s.message r)).take 8) % stripeCount⟩ ∧
        (World.request owner cell r).lock.stripe < stripeCount := by
  have striped {n : Nat} (h : 1 ≤ n) : (s.anonymize r).StripedBy (s.leading r) n :=
    Key.stripedBy_of_number (s.number?_anonymize r) (s.leading_lt r) h
  refine ⟨striped present, fun owner cell salt => ?_⟩
  have key : (World.request owner cell r).key = s.anonymize r := by rw [← salt]; rfl
  have lock : (World.request owner cell r).lock = ⟨owner, s.leading r % stripeCount⟩ := by
    rw [Admission.lock, key, (striped (by decide)).stripe]
    rfl
  exact ⟨lock, by rw [lock]; exact Nat.mod_lt _ (by decide)⟩

/-- A digest that begins with zeros. -/
theorem stripe_of_leading_zeros :
    ((zero.anonymize "g").text.toList.take 16 = "00396c248b9ad60f".toList ∧ 1 ≤ stripeCount) ∧
      (zero.anonymize "g").number? = some 0x396c248b9ad60f ∧
      (zero.anonymize "g").stripe stripeCount = 15 := by
  have number : bigEndian ((Sha256.digest (zero.message "g")).take 8) = 0x396c248b9ad60f := by
    decide +kernel
  obtain ⟨striped, -⟩ := zero.stripe_of_digest "g" (by decide : 1 ≤ stripeCount)
  rw [number] at striped
  exact ⟨⟨by decide +kernel, by decide⟩, striped.read, striped.stripe⟩

end Salt

end Turnstile
