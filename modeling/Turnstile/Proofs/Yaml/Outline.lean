import Turnstile.Yaml.Lexer

/-!
# Outlines

An *outline* is a text on two levels: sections, each a line with its name and
below it, indented, a line for each of its items, a name and a number. Names
are lower-case letters and underscores, so that nothing in them means anything
to YAML; within a section, and among the sections, they differ.

Here is what an outline looks like as a text and as tokens (`Outline.text`,
`Outline.kinds`), and what the characters in it are not. That its text is cut
into these tokens is shown in `Turnstile.Proofs.Yaml.Cutting`.
-/

namespace Turnstile.Yaml

/-! ### Names, items and sections -/

/-- A letter of a name. -/
def isLetter (c : Char) : Bool := c.isLower || c == '_'

/-- The name of a section or an item. -/
@[ext]
structure PlainName where
  letters : List Char
  plain : ∀ c ∈ letters, isLetter c
  nonempty : letters ≠ []
  short : letters.length ≤ 128
deriving DecidableEq

/-- An item of a section. -/
structure Item where
  name : PlainName
  number : UInt64
deriving DecidableEq

/-- A section of an outline. -/
structure Section where
  name : PlainName
  items : List Item
  nonempty : items ≠ []
  distinct : (items.map Item.name).Nodup

/-- A text on two levels. -/
structure Outline where
  sections : List Section
  distinct : (sections.map Section.name).Nodup

/-- A name as a text. -/
def PlainName.text (x : PlainName) : String := String.ofList x.letters

theorem PlainName.text_inj {x y : PlainName} : x.text = y.text ↔ x = y := by
  rw [PlainName.ext_iff, text, text, String.ofList_inj]

/-- A text as a name. -/
def PlainName.ofText (text : String) (plain : text.toList.all isLetter)
    (nonempty : text.toList ≠ []) (short : text.toList.length ≤ 128) : PlainName :=
  ⟨text.toList, List.all_eq_true.mp plain, nonempty, short⟩

@[simp]
theorem PlainName.text_ofText {text : String} (plain : text.toList.all isLetter)
    (nonempty : text.toList ≠ []) (short : text.toList.length ≤ 128) :
    (ofText text plain nonempty short).text = text := String.ofList_toList

/-! ### Lines -/

/-- The digits of an item. -/
def Item.digits (e : Item) : List Char := Numeral.decimal e.number.toNat

/-- The line of an item. -/
def Item.line (e : Item) : List Char := "  ".toList ++ e.name.letters ++ ": ".toList ++ e.digits

/-- The lines of a section. -/
def Section.lines (s : Section) : List (List Char) :=
  (s.name.letters ++ [':']) :: s.items.map Item.line

/-- The lines of an outline. -/
def Outline.lines (o : Outline) : List (List Char) := o.sections.flatMap Section.lines

/-- The text of an outline, whose last line may end as the others do. -/
def Outline.text (o : Outline) (ended : Bool) : String :=
  String.ofList (['\n'].intercalate o.lines ++ if ended then ['\n'] else [])

/-! ### Tokens -/

/-- The tokens of a mapping, by the names of its entries and the tokens of what
    they hold. -/
def mappingKinds {α : Type} (name : α → List Char) (held : α → List TokenKind) (l : List α) :
    List TokenKind :=
  .blockMappingStart ::
    l.flatMap (fun a => .key :: .scalar .plain (name a) :: .value :: held a) ++ [.blockEnd]

/-- The tokens of what an item holds. -/
def Item.kinds (e : Item) : List TokenKind := [.scalar .plain e.digits]

/-- The tokens of what a section holds. -/
def Section.kinds (s : Section) : List TokenKind :=
  mappingKinds (·.name.letters) Item.kinds s.items

/-- The tokens of an outline; one without sections has none but the end. -/
def Outline.kinds (o : Outline) : List TokenKind :=
  (if o.sections.isEmpty then []
    else mappingKinds (·.name.letters) Section.kinds o.sections) ++ [.endOfStream]

/-! ### Characters -/

/-- A letter or a digit. -/
def isPlain (c : Char) : Bool := isLetter c || c.isDigit

/-- Whether the space before a token ends at a character. -/
def isSolid (c : Char) : Bool := !isBlank c && !isBreak c && c != '#' && c != '\ufeff'

theorem PlainName.isPlain_letters (x : PlainName) : ∀ c ∈ x.letters, isPlain c := by
  intro c m
  simp [isPlain, x.plain c m]

theorem Item.isPlain_digits (e : Item) : ∀ c ∈ e.digits, isPlain c := by
  intro c m
  simp [isPlain, Nat.isDigit_of_mem_toDigits (by decide) (by decide) m]

theorem Item.digits_ne_nil (e : Item) : e.digits ≠ [] := Nat.toDigits_ne_nil

/-- What is no letter and no digit differs from all that are. -/
theorem beq_of_isPlain {c x : Char} (h : isPlain c) (hx : isPlain x = false) :
    (c == x) = false := by
  refine beq_eq_false_iff_ne.mpr fun same => ?_
  simp [← same, h] at hx

theorem isGap_of_isPlain {c : Char} (h : isPlain c) : isGap c = false := by
  refine Bool.eq_false_iff.mpr fun gap => ?_
  simp only [isGap, isBlank, isBreakOrEnd, isBreak, nul, Bool.or_eq_true, beq_iff_eq] at gap
  obtain (rfl | rfl) | ((((rfl | rfl) | rfl) | rfl) | rfl) | rfl := gap <;> revert h <;> decide

theorem isIndicator_of_isPlain {c : Char} (h : isPlain c) : Lexer.isIndicator c = false := by
  refine Bool.eq_false_iff.mpr fun found => ?_
  have others : "-?:,[]{}#&*!|>'\"%@`".toList.all fun x => !isPlain x := by decide
  have other := List.all_eq_true.mp others c
    (by simpa only [Lexer.isIndicator, List.contains_iff_mem] using found)
  simp [h] at other

theorem isSolid_iff {c : Char} :
    isSolid c ↔
      isBlank c = false ∧ isBreak c = false ∧ (c == '#') = false ∧ (c == '\ufeff') = false := by
  simp only [isSolid, bne, Bool.and_eq_true, Bool.not_eq_true', and_assoc]

theorem isSolid_of_isPlain {c : Char} (h : isPlain c) : isSolid c := by
  have gap := isGap_of_isPlain h
  simp only [isGap, isBreakOrEnd, Bool.or_eq_false_iff] at gap
  have mark : (c == '#') = false := beq_of_isPlain h (by decide)
  have order : (c == '\ufeff') = false := beq_of_isPlain h (by decide)
  exact isSolid_iff.mpr ⟨gap.1, gap.2.1, mark, order⟩

theorem startsPlain_of_isPlain {c : Char} (h : isPlain c) (flow : Bool) (after : Char) :
    Lexer.startsPlain flow c after := by
  simp [Lexer.startsPlain, isGap_of_isPlain h, isIndicator_of_isPlain h]

theorem isReadable_of_isPlain {c : Char} (h : isPlain c) : isReadable c := by
  have range : 0x20 ≤ c.toNat ∧ c.toNat ≤ 0x7e := by
    have lower : c.isLower = (decide (c.val ≥ 'a'.val) && decide (c.val ≤ 'z'.val)) := rfl
    simp only [isPlain, isLetter, lower, Char.isDigit, Bool.or_eq_true, beq_iff_eq,
      Bool.and_eq_true, decide_eq_true_eq, UInt32.le_iff_toNat_le, ge_iff_le, Char.toNat_val,
      Char.reduceVal, UInt32.reduceToNat] at h
    obtain (⟨low, high⟩ | rfl) | ⟨low, high⟩ := h
    · omega
    · decide
    · omega
  simp [isReadable, range]

end Turnstile.Yaml
