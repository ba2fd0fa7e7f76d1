import Turnstile.Proofs.Yaml.Lexing

/-!
# The tokens of an outline

The text of an outline is cut into its tokens (`tokens?_text`).

Each token takes the lexer at least a character further, so that its bound is
never reached (`Lexer.Reaches`). What comes after a line is the end of the text
or another line, which is passed over with the number before it
(`Lexer.Follows`); the items of a section, and the sections of an outline, are
an induction on how many more there are. That a level ends shows only in the
next line, or at the end of the text: a section leaves the lexer without the
last of its tokens (`Ready.section`).
-/

namespace Turnstile.Yaml

/-! ### Runs of the lexer -/

namespace Lexer

/-- All tokens from one lexer on are those from a later one on, which is no
    further behind than it has read. -/
def Reaches (l l' : Lexer) : Prop :=
  ∃ k, k + l'.cursor.rest.length ≤ l.cursor.rest.length ∧ ∀ n, lexAll (n + k) l = lexAll n l'

theorem Reaches.trans {l₁ l₂ l₃ : Lexer} (h₁ : l₁.Reaches l₂) (h₂ : l₂.Reaches l₃) :
    l₁.Reaches l₃ := by
  obtain ⟨k₁, read₁, same₁⟩ := h₁
  obtain ⟨k₂, read₂, same₂⟩ := h₂
  refine ⟨k₂ + k₁, by omega, fun n => ?_⟩
  rw [← Nat.add_assoc, same₁, same₂]

/-- A token other than the end is followed by more. -/
theorem reaches_of_lexNext {l l' : Lexer} (kind : TokenKind)
    (lexed : l.lexNext = some l') (read : l'.cursor.rest.length < l.cursor.rest.length)
    (last : (l'.tokens.toList.map Token.kind).getLast? = some kind) (more : kind ≠ .endOfStream) :
    l.Reaches l' := by
  refine ⟨1, by omega, fun n => ?_⟩
  have back : l'.tokens.back?.map Token.kind = some kind := by
    rw [← Array.getLast?_toList, ← List.getLast?_map, last]
  have goesOn : (some kind == some TokenKind.endOfStream) = false := by simpa using more
  rw [lexAll, lexed, Option.bind_eq_bind, Option.bind_some, back, goesOn, if_neg Bool.false_ne_true]

/-- After the end there is no token more. -/
theorem Reaches.lexAll_eq {l l' l'' : Lexer} (h : l.Reaches l') (lexed : l'.lexNext = some l'')
    (last : (l''.tokens.toList.map Token.kind).getLast? = some .endOfStream) :
    lexAll (l.cursor.rest.length + 1) l = some l''.tokens := by
  obtain ⟨k, read, same⟩ := h
  have back : l''.tokens.back?.map Token.kind = some .endOfStream := by
    rw [← Array.getLast?_toList, ← List.getLast?_map, last]
  have fuel : l.cursor.rest.length + 1 = (l.cursor.rest.length - k + 1) + k := by omega
  rw [fuel, same, lexAll, lexed, Option.bind_eq_bind, Option.bind_some, back, if_pos (by rfl)]

/-! ### Lines -/

variable {l : Lexer} {column : Nat} {kinds : List TokenKind} {i : Int} {outer : List Int}

/-- A name and its colon. -/
theorem Ready.key (ended : List Int) {after : List Char} (x : PlainName)
    (h : l.Ready (x.letters ++ ':' :: after) column (ended ++ i :: outer) kinds true)
    (left : ∀ j ∈ ended, column < j) (inside : i ≤ column) (gap : isGap (after.headD nul)) :
    ∃ l', l.Reaches l' ∧
      l'.Stands after (column + x.letters.length + 1)
        (if i < column then column :: i :: outer else i :: outer)
        (kinds ++ List.replicate ended.length .blockEnd ++
          ((if i < column then [.blockMappingStart] else []) ++
            [.key, .scalar .plain x.letters, .value])) false := by
  have stands := h.stands.unroll ended left inside
  obtain ⟨l', colon, stands'⟩ := stands.lexColon_key
  have ahead := h.ahead
  have size : 0 < x.letters.length := List.length_pos_iff.mpr x.nonempty
  have past : ((l.skipBlanks.unroll column).pending x.letters).cursor.rest = ':' :: after :=
    congrArg Cursor.rest stands.skip_key
  have word : l.Reaches ((l.skipBlanks.unroll column).pending x.letters) := by
    refine reaches_of_lexNext (.scalar .plain x.letters)
      (h.lexNext.trans (stands.lexHere_key x.nonempty x.isPlain_letters gap)) ?_ ?_ TokenKind.noConfusion
    · rw [past]
      simp only [List.length_append, List.length_cons] at ahead ⊢
      omega
    · simp [pending]
  have value : ((l.skipBlanks.unroll column).pending x.letters).Reaches l' := by
    refine reaches_of_lexNext .value
      ((stands.lexNext_key gap x.short inside).trans colon) ?_ ?_ TokenKind.noConfusion
    · rw [past, stands'.rest]
      exact Nat.lt_succ_self _
    · simp [stands'.kinds]
  exact ⟨l', word.trans value, stands'⟩

/-- What follows a line: the end of the text, or the end of the line, what comes
    after the indentation of the next one, and how far that is indented. -/
inductive Follows : List Char → List Char → Bool → Nat → Prop
  | stop (k : Nat) : Follows [] [] false k
  | line {rest : List Char} (k : Nat) (solid : isSolid (rest.headD nul)) (less : k ≤ 2) :
      Follows (lineFeed k ++ rest) rest true k

/-- A scalar is read to what follows its line. -/
theorem Follows.readPlain {w tail rest : List Char} {next : Bool} {k : Nat}
    (follows : Follows tail rest next k) (nonempty : w ≠ []) (plain : ∀ c ∈ w, isPlain c)
    (m : Mark) :
    ∃ scalar, readPlain false 3 ⟨w ++ tail, m⟩ = some scalar ∧ scalar.text = w ∧
      scalar.after.rest = rest ∧ scalar.broken = next ∧
      (next → scalar.after.mark.column = k) := by
  cases follows with
  | stop => exact ⟨_, readPlain_nil nonempty plain m 3, rfl, rfl, rfl, Bool.noConfusion⟩
  | line k solid less =>
    refine ⟨_, readPlain_lineFeed nonempty plain m (Nat.lt_succ_of_le less) solid, rfl, rfl, rfl,
      ?_⟩
    simp [Mark.right, Mark.newLine]

theorem Follows.length_le {tail rest : List Char} {next : Bool} {k : Nat}
    (follows : Follows tail rest next k) : rest.length ≤ tail.length := by
  cases follows with
  | stop => exact Nat.le_refl _
  | line => simp

/-- The items of a section are a level of their own. -/
theorem exists_levels {i : Int} (outer : List Int) (inside : i ≤ 2) :
    ∃ outer', (if i < 2 then 2 :: i :: outer else i :: outer) = 2 :: outer' := by
  by_cases first : i < 2
  · exact ⟨_, if_pos first⟩
  · exact ⟨outer, by rw [if_neg first, show i = 2 by omega]⟩

section Line

variable {tail rest : List Char} {next : Bool} {k : Nat} (e : Item)
  (follows : Follows tail rest next k)

include follows

/-- A number, to the end of its line. -/
theorem Ready.number (h : l.Ready (e.digits ++ tail) column (2 :: outer) kinds false)
    (inside : 2 ≤ column) :
    ∃ l' column', l.Reaches l' ∧
      l'.Stands rest column' (2 :: outer) (kinds ++ [.scalar .plain e.digits]) next ∧
      (next → column' = k) := by
  have stands : (l.skipBlanks.unroll column).Stands (e.digits ++ tail) column (2 :: outer)
      (kinds ++ List.replicate 0 .blockEnd) false :=
    h.stands.unroll [] (by simp) (by omega)
  have level : (l.skipBlanks.unroll column).indent = 2 := List.head_eq_of_cons_eq stands.levels
  obtain ⟨scalar, read, text, left, broken, place⟩ :=
    follows.readPlain e.digits_ne_nil e.isPlain_digits (l.skipBlanks.unroll column).cursor.mark
  rw [← show ((l.skipBlanks.unroll column).indent + 1).toNat = 3 by rw [level]; rfl] at read
  obtain ⟨l', lexed, stands'⟩ := stands.lexHere_value e.digits_ne_nil e.isPlain_digits read
  rw [text, left, broken, List.replicate_zero, List.append_nil] at stands'
  refine ⟨l', _, ?_, stands', place⟩
  refine reaches_of_lexNext (.scalar .plain e.digits) (h.lexNext.trans lexed) ?_ ?_
    TokenKind.noConfusion
  · have ahead := h.ahead
    have size : 0 < e.digits.length := List.length_pos_iff.mpr e.digits_ne_nil
    have shorter := follows.length_le
    rw [stands'.rest]
    simp only [List.length_append] at ahead
    omega
  · simp [stands'.kinds]

/-- An item: its name and its number, to the end of its line. -/
theorem Ready.item
    (h : l.Ready (e.name.letters ++ ':' :: ' ' :: (e.digits ++ tail)) 2 (i :: outer) kinds true)
    (inside : i ≤ 2) :
    ∃ l' column', l.Reaches l' ∧
      l'.Stands rest column' (if i < 2 then 2 :: i :: outer else i :: outer)
        (kinds ++ ((if i < 2 then [.blockMappingStart] else []) ++
          [.key, .scalar .plain e.name.letters, .value, .scalar .plain e.digits])) next ∧
      (next → column' = k) := by
  obtain ⟨outer', levels⟩ := exists_levels outer inside
  obtain ⟨l₁, reaches₁, stands₁⟩ := h.key [] e.name (by simp) inside rfl
  simp only [Int.cast_ofNat_Int, levels, List.length_nil, List.replicate_zero,
    List.append_nil] at stands₁
  have solid : isSolid ((e.digits ++ tail).headD nul) :=
    isSolid_of_isPlain (isPlain_next e.digits_ne_nil e.isPlain_digits {})
  have ready := Stands.spaces (k := 1) stands₁ solid
  obtain ⟨l₂, column', reaches₂, stands₂, place⟩ := ready.number e follows (by omega)
  refine ⟨l₂, column', reaches₁.trans reaches₂, ?_, place⟩
  rw [levels]
  simpa using stands₂

end Line

/-! ### Items and sections -/

/-- The line of an item past its indentation, and what follows. -/
def itemText (e : Item) (tail : List Char) : List Char :=
  e.name.letters ++ ':' :: ' ' :: (e.digits ++ tail)

/-- The lines of more items, each with the end of the line before it. -/
def furtherItems (es : List Item) (tail : List Char) : List Char :=
  es.flatMap (fun e => '\n' :: e.line) ++ tail

theorem furtherItems_cons (e : Item) (es : List Item) (tail : List Char) :
    furtherItems (e :: es) tail = lineFeed 2 ++ itemText e (furtherItems es tail) := by
  simp [furtherItems, itemText, lineFeed, Item.line]

theorem isSolid_itemText (e : Item) (tail : List Char) :
    isSolid ((itemText e tail).headD nul) :=
  isSolid_of_isPlain (isPlain_next e.name.nonempty e.name.isPlain_letters {})

/-- The items of a section, from the first on. -/
theorem Ready.items {tail rest : List Char} {next : Bool} {k : Nat}
    (follows : Follows tail rest next k) (e : Item) (es : List Item)
    (h : l.Ready (itemText e (furtherItems es tail)) 2 (i :: outer) kinds true)
    (inside : i ≤ 2) :
    ∃ l' column', l.Reaches l' ∧
      l'.Stands rest column' (if i < 2 then 2 :: i :: outer else i :: outer)
        (kinds ++ ((if i < 2 then [.blockMappingStart] else []) ++
          (e :: es).flatMap fun e => .key :: .scalar .plain e.name.letters :: .value :: e.kinds))
        next ∧
      (next → column' = k) := by
  induction es generalizing l e i outer kinds with
  | nil =>
    have alone : furtherItems [] tail = tail := rfl
    rw [alone] at h
    simpa [Item.kinds] using h.item e follows inside
  | cons e' es ih =>
    have solid := isSolid_itemText e' (furtherItems es tail)
    obtain ⟨outer', levels⟩ := exists_levels outer inside
    rw [furtherItems_cons] at h
    obtain ⟨l₁, column₁, reaches₁, stands₁, place₁⟩ := h.item e (.line 2 solid (by decide)) inside
    rw [place₁ rfl, levels] at stands₁
    -- The next item is on the level that this one is on, so no other mapping starts.
    obtain ⟨l₂, column₂, reaches₂, stands₂, place₂⟩ :=
      ih e' (stands₁.here solid) (Int.le_refl 2)
    refine ⟨l₂, column₂, reaches₁.trans reaches₂, ?_, place₂⟩
    rw [levels]
    simpa [Item.kinds] using stands₂

/-- The lines of a section, and what follows. -/
def sectionText (s : Section) (tail : List Char) : List Char :=
  s.name.letters ++ ':' :: furtherItems s.items tail

/-- The lines of more sections, each with the end of the line before it. -/
def furtherSections (ss : List Section) (tail : List Char) : List Char :=
  ss.flatMap (fun s => '\n' :: sectionText s []) ++ tail

theorem furtherSections_cons (s : Section) (ss : List Section) (tail : List Char) :
    furtherSections (s :: ss) tail = lineFeed 0 ++ sectionText s (furtherSections ss tail) := by
  simp [furtherSections, sectionText, lineFeed, furtherItems]

theorem isSolid_sectionText (s : Section) (tail : List Char) :
    isSolid ((sectionText s tail).headD nul) :=
  isSolid_of_isPlain (isPlain_next s.name.nonempty s.name.isPlain_letters {})

/-- A section; that it ends shows only in what comes after it. -/
theorem Ready.section {tail rest : List Char} {next : Bool} {k : Nat} (ended : List Int)
    (follows : Follows tail rest next k) (s : Section)
    (h : l.Ready (sectionText s tail) 0 (ended ++ i :: outer) kinds true)
    (left : ∀ j ∈ ended, 0 < j) (inside : i ≤ 0)
    (top : (if i < 0 then 0 :: i :: outer else i :: outer) = [0, -1]) :
    ∃ l' column', l.Reaches l' ∧
      (∃ held, l'.Stands rest column' [2, 0, -1] held next ∧
        held ++ [.blockEnd] = kinds ++ List.replicate ended.length .blockEnd ++
          ((if i < 0 then [.blockMappingStart] else []) ++
            (.key :: .scalar .plain s.name.letters :: .value :: s.kinds))) ∧
      (next → column' = k) := by
  obtain ⟨e, es, items⟩ := List.exists_cons_of_ne_nil s.nonempty
  have solid := isSolid_itemText e (furtherItems es tail)
  rw [sectionText, items, furtherItems_cons] at h
  obtain ⟨l₁, reaches₁, stands₁⟩ := h.key ended s.name left inside rfl
  simp only [Int.cast_ofNat_Int, top] at stands₁
  obtain ⟨l₂, column₂, reaches₂, stands₂, place₂⟩ :=
    (stands₁.lineFeed solid).items follows e es (by decide)
  refine ⟨l₂, column₂, reaches₁.trans reaches₂, ⟨_, stands₂, ?_⟩, place₂⟩
  simp [Section.kinds, mappingKinds, items]

/-- The sections of an outline, from the first on. -/
theorem Ready.sections {tail rest : List Char} {next : Bool} {k : Nat} (ended : List Int)
    (follows : Follows tail rest next k) (s : Section) (ss : List Section)
    (h : l.Ready (sectionText s (furtherSections ss tail)) 0 (ended ++ i :: outer) kinds true)
    (left : ∀ j ∈ ended, 0 < j) (inside : i ≤ 0)
    (top : (if i < 0 then 0 :: i :: outer else i :: outer) = [0, -1]) :
    ∃ l' column', l.Reaches l' ∧
      ∃ held, l'.Stands rest column' [2, 0, -1] held next ∧
        held ++ [.blockEnd] = kinds ++ List.replicate ended.length .blockEnd ++
          ((if i < 0 then [.blockMappingStart] else []) ++
            (s :: ss).flatMap fun s =>
              .key :: .scalar .plain s.name.letters :: .value :: s.kinds) := by
  induction ss generalizing l s ended i outer kinds with
  | nil =>
    have alone : furtherSections [] tail = tail := rfl
    rw [alone] at h
    obtain ⟨l', column', reaches, held, -⟩ := h.section ended follows s left inside top
    exact ⟨l', column', reaches, by simpa using held⟩
  | cons s' ss ih =>
    have solid := isSolid_sectionText s' (furtherSections ss tail)
    rw [furtherSections_cons] at h
    obtain ⟨l₁, column₁, reaches₁, ⟨held₁, stands₁, kinds₁⟩, place₁⟩ :=
      h.section ended (.line 0 solid (by decide)) s left inside top
    rw [place₁ rfl] at stands₁
    -- The next section is left of the items of this one: their level ends there.
    obtain ⟨l₂, column₂, reaches₂, held₂, stands₂, kinds₂⟩ :=
      ih [2] s' (stands₁.here solid) (by decide) (Int.le_refl 0) rfl
    refine ⟨l₂, column₂, reaches₁.trans reaches₂, held₂, stands₂, ?_⟩
    rw [kinds₂, List.length_singleton, List.replicate_one, kinds₁]
    simp

/-- At the end of an outline both of its levels end. -/
theorem Stands.lexNext_end {next : Bool} (h : l.Stands [] column [2, 0, -1] kinds next) :
    ∃ l', l.lexNext = some l' ∧
      l'.tokens.toList.map Token.kind = kinds ++ [.blockEnd, .blockEnd, .endOfStream] := by
  have ready := h.here rfl
  rw [ready.lexNext]
  -- Past the end of the last line the level of the items ends before the end is met.
  by_cases inside : 2 ≤ column
  · have stands := ready.stands.unroll (c := column) [] (by simp) (by omega)
    simpa using stands.lexHere_end [2, 0] (by decide)
  · have stands := ready.stands.unroll (c := column) [2] (by simp; omega) (by omega)
    simpa using stands.lexHere_end [0] (by decide)

end Lexer

/-! ### The whole text -/

/-- Lines are the first one, and the further ones each with the end of the line
    before it. -/
theorem intercalate_cons (x : List Char) (xs : List (List Char)) :
    ['\n'].intercalate (x :: xs) = x ++ xs.flatMap ('\n' :: ·) := by
  induction xs generalizing x with
  | nil => simp
  | cons y xs ih => simp [ih]

theorem Outline.text_of_cons {o : Outline} {s : Section} {ss : List Section}
    (h : o.sections = s :: ss) (ended : Bool) :
    (o.text ended).toList =
      Lexer.sectionText s (Lexer.furtherSections ss (if ended then ['\n'] else [])) := by
  have further : ∀ s : Section, s.lines.flatMap ('\n' :: ·) = '\n' :: Lexer.sectionText s [] := by
    intro s
    simp [Section.lines, Lexer.sectionText, Lexer.furtherItems, List.flatMap_map]
  have first : ∀ rest : List (List Char),
      ['\n'].intercalate (s.lines ++ rest) = Lexer.sectionText s (rest.flatMap ('\n' :: ·)) := by
    intro rest
    rw [Section.lines, List.cons_append, intercalate_cons]
    simp [Lexer.sectionText, Lexer.furtherItems, List.flatMap_map]
  rw [Outline.text, String.toList_ofList, Outline.lines, h, List.flatMap_cons, first,
    List.flatMap_assoc]
  simp [further, Lexer.sectionText, Lexer.furtherSections, Lexer.furtherItems]

theorem isReadable_text (o : Outline) (ended : Bool) : (o.text ended).toList.all isReadable := by
  have name : ∀ x : PlainName, x.letters.all isReadable := fun x =>
    List.all_eq_true.mpr fun c m => isReadable_of_isPlain (x.isPlain_letters c m)
  have digits : ∀ e : Item, e.digits.all isReadable := fun e =>
    List.all_eq_true.mpr fun c m => isReadable_of_isPlain (e.isPlain_digits c m)
  have others : isReadable '\n' ∧ isReadable ' ' ∧ isReadable ':' := by decide
  have item : ∀ e : Item, e.line.all isReadable := fun e => by
    simp [Item.line, name, digits, others, -List.all_eq_true]
  have last : (if ended then ['\n'] else []).all isReadable := by cases ended <;> rfl
  match shape : o.sections with
  | [] => simpa [Outline.text, Outline.lines, shape] using last
  | s :: ss =>
    rw [Outline.text_of_cons shape]
    simp only [Lexer.sectionText, Lexer.furtherSections, Lexer.furtherItems, List.all_append,
      List.all_cons, List.all_flatMap, List.all_nil, name, item, last, others, Bool.and_self,
      Bool.and_true]
    simp

/-- The text of an outline is cut into its tokens. -/
theorem tokens?_text (o : Outline) (ended : Bool) :
    ∃ ts, tokens? (o.text ended).toList = some ts ∧ ts.map Token.kind = o.kinds := by
  obtain ⟨next, k, follows⟩ : ∃ next k,
      Lexer.Follows (if ended then ['\n'] else []) [] next k := by
    cases ended with
    | false => exact ⟨false, 0, .stop 0⟩
    | true => exact ⟨true, 0, .line 0 rfl (by decide)⟩
  rw [tokens?, if_pos (isReadable_text o ended)]
  match shape : o.sections with
  | [] =>
    rw [Outline.kinds, Outline.text, Outline.lines, shape]
    cases ended with
    | false => exact ⟨_, rfl, rfl⟩
    | true => exact ⟨_, rfl, rfl⟩
  | s :: ss =>
    rw [Outline.text_of_cons shape, Outline.kinds, shape]
    have start : Lexer.Stands
        { cursor := ⟨Lexer.sectionText s
          (Lexer.furtherSections ss (if ended then ['\n'] else [])), {}⟩ } _ 0 [-1] [] true :=
      ⟨rfl, rfl, rfl, rfl, rfl, rfl, rfl⟩
    obtain ⟨l, column, reaches, held, stands, kinds⟩ :=
      (start.here (Lexer.isSolid_sectionText s _)).sections [] follows s ss (by simp)
        (by decide) rfl
    obtain ⟨l', lexed, final⟩ := stands.lexNext_end
    have cut := reaches.lexAll_eq lexed (by simp [final])
    refine ⟨l'.tokens.toList, congrArg (Option.map Array.toList) cut, ?_⟩
    have whole : held ++ [.blockEnd, .blockEnd, .endOfStream] =
        (held ++ [.blockEnd]) ++ [.blockEnd, .endOfStream] := by simp
    rw [final, whole, kinds]
    simp [mappingKinds]

end Turnstile.Yaml
