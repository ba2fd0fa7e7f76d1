/-!
# SHA-256

The hash function SHA-256 on lists of bytes. A message is padded to whole blocks
of sixty-four bytes, the blocks are absorbed one after the other into a state of
eight words, and the words of the last state, most significant byte first, are
the digest (`digest`).

A `Hasher` does the same piece by piece: it absorbs what it can and keeps less
than a block pending. How a message is cut into parts makes no difference to its
digest (`update_append`, `finalize_update_new`).
-/

namespace Turnstile.Sha256

/-! ### Words -/

/-- The word with its bits moved right around by `n` places. -/
def rotateRight (x : UInt32) (n : UInt32) : UInt32 :=
  (x >>> n) ||| (x <<< (32 - n))

/-- The word that four bytes make, most significant first. -/
def wordOfBytes (a b c d : UInt8) : UInt32 :=
  (a.toUInt32 <<< 24) ||| (b.toUInt32 <<< 16) ||| (c.toUInt32 <<< 8) ||| d.toUInt32

/-- The four bytes of a word, most significant first. -/
def bytesOfWord (x : UInt32) : List UInt8 :=
  [(x >>> 24).toUInt8, (x >>> 16).toUInt8, (x >>> 8).toUInt8, x.toUInt8]

/-- The words of a block. -/
def words : List UInt8 → List UInt32
  | a :: b :: c :: d :: rest => wordOfBytes a b c d :: words rest
  | _ => []

/-- The constants of the sixty-four rounds: the first bits of the fractional
    parts of the cube roots of the first primes. -/
def roundConstants : List UInt32 := [
  0x428a2f98, 0x71374491, 0xb5c0fbcf, 0xe9b5dba5, 0x3956c25b, 0x59f111f1, 0x923f82a4, 0xab1c5ed5,
  0xd807aa98, 0x12835b01, 0x243185be, 0x550c7dc3, 0x72be5d74, 0x80deb1fe, 0x9bdc06a7, 0xc19bf174,
  0xe49b69c1, 0xefbe4786, 0x0fc19dc6, 0x240ca1cc, 0x2de92c6f, 0x4a7484aa, 0x5cb0a9dc, 0x76f988da,
  0x983e5152, 0xa831c66d, 0xb00327c8, 0xbf597fc7, 0xc6e00bf3, 0xd5a79147, 0x06ca6351, 0x14292967,
  0x27b70a85, 0x2e1b2138, 0x4d2c6dfc, 0x53380d13, 0x650a7354, 0x766a0abb, 0x81c2c92e, 0x92722c85,
  0xa2bfe8a1, 0xa81a664b, 0xc24b8b70, 0xc76c51a3, 0xd192e819, 0xd6990624, 0xf40e3585, 0x106aa070,
  0x19a4c116, 0x1e376c08, 0x2748774c, 0x34b0bcb5, 0x391c0cb3, 0x4ed8aa4a, 0x5b9cca4f, 0x682e6ff3,
  0x748f82ee, 0x78a5636f, 0x84c87814, 0x8cc70208, 0x90befffa, 0xa4506ceb, 0xbef9a3f7, 0xc67178f2]

/-! ### Compression -/

/-- The eight words that a hash is computed in. -/
structure State where
  a : UInt32
  b : UInt32
  c : UInt32
  d : UInt32
  e : UInt32
  f : UInt32
  g : UInt32
  h : UInt32
deriving DecidableEq

namespace State

/-- The state before the first block: the first bits of the fractional parts of
    the square roots of the first primes. -/
def initial : State :=
  ⟨0x6a09e667, 0xbb67ae85, 0x3c6ef372, 0xa54ff53a, 0x510e527f, 0x9b05688c, 0x1f83d9ab, 0x5be0cd19⟩

/-- One round, with its constant and its word of the schedule. -/
def round (s : State) (k w : UInt32) : State :=
  let mix := rotateRight s.e 6 ^^^ rotateRight s.e 11 ^^^ rotateRight s.e 25
  let choice := (s.e &&& s.f) ^^^ (~~~s.e &&& s.g)
  let first := s.h + mix + choice + k + w
  let spread := rotateRight s.a 2 ^^^ rotateRight s.a 13 ^^^ rotateRight s.a 22
  let majority := (s.a &&& s.b) ^^^ (s.a &&& s.c) ^^^ (s.b &&& s.c)
  ⟨first + (spread + majority), s.a, s.b, s.c, s.d + first, s.e, s.f, s.g⟩

/-- The word-wise sum of two states. -/
def add (s t : State) : State :=
  ⟨s.a + t.a, s.b + t.b, s.c + t.c, s.d + t.d, s.e + t.e, s.f + t.f, s.g + t.g, s.h + t.h⟩

/-- The digest that a state stands for. -/
def bytes (s : State) : List UInt8 :=
  [s.a, s.b, s.c, s.d, s.e, s.f, s.g, s.h].flatMap bytesOfWord

end State

/-- The word of the schedule after the sixteen words of a window. -/
def nextWord (window : Array UInt32) (i : Nat) : UInt32 :=
  let w15 := window.getD (i - 15) 0
  let w2 := window.getD (i - 2) 0
  let s0 := rotateRight w15 7 ^^^ rotateRight w15 18 ^^^ (w15 >>> 3)
  let s1 := rotateRight w2 17 ^^^ rotateRight w2 19 ^^^ (w2 >>> 10)
  window.getD (i - 16) 0 + s0 + window.getD (i - 7) 0 + s1

/-- The sixty-four words of the schedule of a block. -/
def schedule (block : List UInt8) : Array UInt32 :=
  (List.range' 16 48).foldl (fun ws i => ws.push (nextWord ws i)) (words block).toArray

/-- Absorb a block. -/
def compress (s : State) (block : List UInt8) : State :=
  let rounds := roundConstants.zip (schedule block).toList
  s.add (rounds.foldl (fun t (k, w) => t.round k w) s)

/-! ### Messages -/

/-- Absorb the whole blocks of a list of bytes; what is left is less than a
    block. -/
def absorb (s : State) (bytes : List UInt8) : State × List UInt8 :=
  if (bytes.take 64).length = 64 then
    absorb (compress s (bytes.take 64)) (bytes.drop 64)
  else (s, bytes)
termination_by bytes.length
decreasing_by simp_all; omega

/-- Bytes may be absorbed in two parts. -/
theorem absorb_append (s : State) (part rest : List UInt8) :
    absorb s (part ++ rest) = absorb (absorb s part).1 ((absorb s part).2 ++ rest) := by
  fun_induction absorb s part with
  | case1 s part full ih =>
    have long : 64 ≤ part.length := by simp at full; omega
    rw [absorb, List.take_append_of_le_length long, List.drop_append_of_le_length long, if_pos full,
      ih]
  | case2 s part short => rfl

/-- What is left is less than a block. -/
theorem length_absorb_snd_lt (s : State) (bytes : List UInt8) : (absorb s bytes).2.length < 64 := by
  fun_induction absorb s bytes with
  | case1 s bytes full ih => exact ih
  | case2 s bytes short =>
    simp only [List.length_take] at short
    show bytes.length < 64
    omega

/-- The eight bytes of the length of a message, in bits. -/
def lengthBytes (length : Nat) : List UInt8 :=
  let bits := UInt64.ofNat (length * 8)
  [(bits >>> 56).toUInt8, (bits >>> 48).toUInt8, (bits >>> 40).toUInt8, (bits >>> 32).toUInt8,
    (bits >>> 24).toUInt8, (bits >>> 16).toUInt8, (bits >>> 8).toUInt8, bits.toUInt8]

/-- What follows a message of the given length, to fill its last block: a set
    bit, as few zeros as will do, and the length. -/
def padding (length : Nat) : List UInt8 :=
  0x80 :: List.replicate ((119 - length % 64) % 64) 0 ++ lengthBytes length

/-- The digest of a message. -/
def digest (message : List UInt8) : List UInt8 :=
  (absorb .initial (message ++ padding message.length)).1.bytes

/-! ### Hashing in parts -/

/-- A hash of which more parts may come. -/
structure Hasher where
  /-- The state after the whole blocks so far. -/
  state : State
  /-- The bytes after them. -/
  pending : List UInt8
  /-- The number of bytes so far. -/
  length : Nat

namespace Hasher

/-- The hash of nothing yet. -/
def new : Hasher := ⟨.initial, [], 0⟩

/-- Feed a part of the message. -/
def update (h : Hasher) (part : List UInt8) : Hasher :=
  let (state, pending) := absorb h.state (h.pending ++ part)
  ⟨state, pending, h.length + part.length⟩

/-- The digest of all parts fed. -/
def finalize (h : Hasher) : List UInt8 :=
  (absorb h.state (h.pending ++ padding h.length)).1.bytes

/-- A message may be fed in two parts. -/
theorem update_append (h : Hasher) (part rest : List UInt8) :
    h.update (part ++ rest) = (h.update part).update rest := by
  simp only [update, ← List.append_assoc, absorb_append h.state (h.pending ++ part)]
  simp [Nat.add_assoc]

/-- A message fed at once has its digest. -/
theorem finalize_update_new (message : List UInt8) :
    (new.update message).finalize = digest message := by
  rw [digest, absorb_append]
  simp [finalize, update, new]

end Hasher

end Turnstile.Sha256
