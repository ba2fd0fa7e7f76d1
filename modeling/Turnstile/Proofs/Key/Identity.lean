import Turnstile.Key

/-!
# Keys and identifiers

The key of an identifier under a salt encodes the digest of the *message* that the two
make: the bytes of the identifier, and after them those of the salt.

* `Salt.message_inj`: identifier and salt are known from their message, as all salts are
  of one length;
* `Key.Encodes`: how a key encodes the digest of a message, however the message is fed;
* `Salt.keys_identify`: so two keys are equal only for the same identifier and salt, or if
  their messages collide.
-/

namespace Turnstile

/-! ### Digests of messages in parts -/

namespace Sha256

/-- That two messages are different but have one digest. -/
def Collide (m n : List UInt8) : Prop := m ≠ n ∧ digest m = digest n

/-- A digest has thirty-two bytes. -/
theorem length_digest (message : List UInt8) : (digest message).length = 32 := rfl

/-- To absorb takes whole blocks. -/
theorem length_absorb_snd_mod (s : State) (bytes : List UInt8) :
    (absorb s bytes).2.length % 64 = bytes.length % 64 := by
  fun_induction absorb s bytes with
  | case1 s bytes full ih =>
    simp only [List.length_take] at full
    rw [ih, List.length_drop]
    omega
  | case2 s bytes short => rfl

theorem length_padding (length : Nat) :
    (padding length).length = (119 - length % 64) % 64 + 9 := by
  simp [padding, lengthBytes]

/-- With its padding a message fills whole blocks, so nothing of it is left out of the
    digest. -/
theorem absorb_padded_snd (message : List UInt8) :
    (absorb .initial (message ++ padding message.length)).2 = [] := by
  have whole := length_absorb_snd_mod .initial (message ++ padding message.length)
  have short := length_absorb_snd_lt .initial (message ++ padding message.length)
  rw [List.length_append, length_padding] at whole
  apply List.eq_nil_of_length_eq_zero
  omega

namespace Hasher

theorem foldl_update (h : Hasher) (part : List UInt8) (parts : List (List UInt8)) :
    parts.foldl update (h.update part) = h.update (part ++ parts.flatten) := by
  induction parts generalizing part with
  | nil => simp
  | cons next rest ih =>
    rw [List.foldl_cons, ← update_append, ih, List.flatten_cons, List.append_assoc]

/-- A message may be fed in any number of parts. -/
theorem finalize_foldl_update (parts : List (List UInt8)) :
    (parts.foldl update new).finalize = digest parts.flatten := by
  have nothing : new.update [] = new := by simp [update, new, absorb]
  rw [← nothing, foldl_update, List.nil_append, finalize_update_new]

end Hasher

end Sha256

/-! ### Hexadecimal digits -/

namespace Hex

/-- The digits that bytes are written in. -/
def digits : List Char := "0123456789abcdef".toList

theorem digitChar_mem_digits {n : Nat} (h : n < 16) : Nat.digitChar n ∈ digits := by
  revert n
  decide

theorem mem_digits_of_mem_encode {bytes : List UInt8} {c : Char} (hc : c ∈ encode bytes) :
    c ∈ digits := by
  obtain ⟨b, -, hc⟩ := List.mem_flatMap.1 hc
  have high : b.toNat / 16 < 16 := by have := b.toNat_lt; omega
  have low : b.toNat % 16 < 16 := Nat.mod_lt _ (by decide)
  simp only [ofByte, List.mem_cons, List.not_mem_nil, or_false] at hc
  rcases hc with rfl | rfl
  · exact digitChar_mem_digits high
  · exact digitChar_mem_digits low

/-- Bytes are known from their digits. -/
theorem encode_inj {as bs : List UInt8} : encode as = encode bs ↔ as = bs := by
  refine ⟨fun h => ?_, congrArg encode⟩
  have read := congrArg decode? h
  rwa [decode?_encode, decode?_encode, Option.some.injEq] at read

end Hex

/-! ### Keys -/

/-- How a key encodes the digest of a message. -/
structure Key.Encodes (key : Key) (message : List UInt8) : Prop where
  length : key.text.length = 64
  digits : ∀ c ∈ key.text.toList, c ∈ Hex.digits
  /-- The digits are those of the digest, two for a byte. -/
  digest : key.text.toList = Hex.encode (Sha256.digest message)
  /-- Whatever parts the message is fed in, it is that digest which the key is read as. -/
  parts : ∀ {parts : List (List UInt8)}, parts.flatten = message →
    Hex.decode? key.text.toList = some (parts.foldl Sha256.Hasher.update .new).finalize
  /-- The digest has taken in all of the message and its padding. -/
  whole : (Sha256.absorb .initial (message ++ Sha256.padding message.length)).2 = []

namespace Salt

/-- The bytes of an identifier, and after them those of the salt. -/
def message (salt : Salt) (identifier : String) : List UInt8 :=
  identifier.toUTF8.data.toList ++ salt.bytes

variable {s₁ s₂ : Salt} {r₁ r₂ : String}

/-- Identifier and salt are known from their message. -/
theorem message_inj : s₁.message r₁ = s₂.message r₂ ↔ r₁ = r₂ ∧ s₁ = s₂ := by
  constructor
  · intro h
    -- Salts are of one length, so the messages are cut at the same distance from the end.
    obtain ⟨identifier, salt⟩ := List.append_inj' h (s₁.length_eq.trans s₂.length_eq.symm)
    have bytes : r₁.toUTF8 = r₂.toUTF8 := ByteArray.ext (Array.toList_inj.1 identifier)
    refine ⟨String.toByteArray_inj.1 bytes, ?_⟩
    obtain ⟨_, _⟩ := s₁
    obtain ⟨_, _⟩ := s₂
    cases salt
    rfl
  · rintro ⟨rfl, rfl⟩
    rfl

/-- The key is written in the digits of the digest of the message. -/
theorem toList_anonymize (s : Salt) (r : String) :
    (s.anonymize r).text.toList = Hex.encode (Sha256.digest (s.message r)) := by
  rw [anonymize, String.toList_ofList, ← Sha256.Hasher.update_append,
    Sha256.Hasher.finalize_update_new]
  rfl

theorem encodes_anonymize (s : Salt) (r : String) : (s.anonymize r).Encodes (s.message r) where
  length := by
    rw [← String.length_toList, toList_anonymize, Hex.length_encode, Sha256.length_digest]
  digits c hc := by
    rw [toList_anonymize] at hc
    exact Hex.mem_digits_of_mem_encode hc
  digest := s.toList_anonymize r
  parts h := by
    rw [toList_anonymize, Hex.decode?_encode, Sha256.Hasher.finalize_foldl_update, h]
  whole := Sha256.absorb_padded_snd _

/-- Two keys are equal exactly if the digests of the messages are. -/
theorem anonymize_eq_iff : s₁.anonymize r₁ = s₂.anonymize r₂ ↔
    Sha256.digest (s₁.message r₁) = Sha256.digest (s₂.message r₂) := by
  rw [← Hex.encode_inj, ← toList_anonymize, ← toList_anonymize, String.toList_inj]
  exact ⟨congrArg Key.text, fun h => by simpa [anonymize] using h⟩

/-- A key encodes the digest of its identifier followed by the salt. So the keys of two
    identifiers under two salts are equal exactly if both identifiers and salts are, or if
    their messages, though different, have one digest. -/
theorem keys_identify (s₁ s₂ : Salt) (r₁ r₂ : String) :
    (s₁.anonymize r₁).Encodes (s₁.message r₁) ∧
      (s₁.anonymize r₁ = s₂.anonymize r₂ ↔
        (r₁ = r₂ ∧ s₁ = s₂) ∨ Sha256.Collide (s₁.message r₁) (s₂.message r₂)) := by
  refine ⟨s₁.encodes_anonymize r₁, ?_⟩
  rw [anonymize_eq_iff, ← message_inj]
  constructor
  · intro h
    by_cases same : s₁.message r₁ = s₂.message r₂
    · exact .inl same
    · exact .inr ⟨same, h⟩
  · rintro (same | ⟨-, h⟩)
    · rw [same]
    · exact h

/-- The digest meant is SHA-256: those of the one-block and of the two-block message of its
    standard. -/
example :
    Hex.encode (Sha256.digest "abc".toUTF8.data.toList) =
      "ba7816bf8f01cfea414140de5dae2223b00361a396177a9cb410ff61f20015ad".toList ∧
    Hex.encode (Sha256.digest
        "abcdbcdecdefdefgefghfghighijhijkijkljklmklmnlmnomnopnopq".toUTF8.data.toList) =
      "248d6a61d20638b8e5c026930c3e6039a33ce45964ff2167f6ecedd419db06c1".toList := by
  decide +kernel

end Salt

end Turnstile
