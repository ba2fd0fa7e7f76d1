import Turnstile.Proofs.Yaml.Outline

/-!
# The words of an outline

What the lexer does with each kind of word that an outline has: a name before a
colon, a number up to what follows its line, and the end of the text.

A lexer *stands* somewhere (`Lexer.Stands`): what is left of the text, the
column, the columns of the open block collections and the kinds of the tokens so
far. It is *ready* for a token that begins past some spaces or on the next line
(`Lexer.Ready`). The marks of the tokens are left out, for nothing that is read
from them depends on these.

A name shows to be a key only at its colon. Until then the lexer has a candidate
and does not stand anywhere (`Lexer.pending`); the colon puts the key token, and
for the first key of a level the start of a mapping, in front of the name
(`Stands.lexColon_key`).
-/

namespace Turnstile.Yaml

/-! ### Spaces -/

/-- The end of a line, and the indentation of the next one. -/
def lineFeed (k : Nat) : List Char := '\n' :: List.replicate k ' '

section Spaces

variable {rest : List Char} (solid : isSolid (rest.headD nul))

include solid

/-- What is passed over before a solid character are the spaces before it. -/
theorem span_spaces {p : Char → Bool} (blank : ∀ c, p c → isBlank c) (space : p ' ') (k : Nat) :
    (List.replicate k ' ' ++ rest).takeWhile p = List.replicate k ' ' ∧
      (List.replicate k ' ' ++ rest).dropWhile p = rest := by
  have spaces : ∀ c ∈ List.replicate k ' ', p c := fun c m => List.eq_of_mem_replicate m ▸ space
  rw [List.takeWhile_append_of_pos spaces, List.dropWhile_append_of_pos spaces]
  cases rest with
  | nil => simp
  | cons x _ =>
    have stop : p x = false := Bool.eq_false_iff.mpr fun passed => by
      simp [isSolid, blank x passed] at solid
    simp [stop]

namespace Lexer

theorem skipBlanksOn_spaces (n k : Nat) (m : Mark) (keyAllowed : Bool) :
    skipBlanksOn false (n + 1) ⟨List.replicate k ' ' ++ rest, m⟩ keyAllowed =
      (⟨rest, m.right (List.replicate k ' ')⟩, keyAllowed) := by
  obtain ⟨-, onLine, comment, order⟩ := isSolid_iff.mp solid
  have first : ((List.replicate k ' ' ++ rest).headD nul == '\ufeff') = false := by
    cases k with
    | zero => exact order
    | succ => rfl
  obtain ⟨taken, dropped⟩ := span_spaces solid
    (p := fun x => x == ' ' || ((false || !keyAllowed) && x == '\t'))
    (fun c h => by
      simp only [Bool.or_eq_true, Bool.and_eq_true] at h
      simpa [isBlank] using h.imp_right And.right) rfl k
  simp only [skipBlanksOn, Cursor.next, first, Bool.and_false, Bool.false_eq_true, if_false,
    Cursor.skipWhile, taken, dropped, comment, onLine]

theorem skipBlanksOn_lineFeed (n k : Nat) (m : Mark) (keyAllowed : Bool) :
    skipBlanksOn false (n + 2) ⟨lineFeed k ++ rest, m⟩ keyAllowed =
      (⟨rest, (m.newLine 1).right (List.replicate k ' ')⟩, true) := by
  rw [skipBlanksOn]
  simp only [Cursor.next, lineFeed, List.cons_append, List.headD_cons, Char.reduceBEq,
    Bool.and_false, Bool.false_eq_true, if_false, Cursor.skipWhile, List.takeWhile_cons,
    List.dropWhile_cons, Bool.or_self, isBreak, Bool.or_true, Bool.true_or, if_true]
  rw [Bool.not_false, Bool.or_true]
  exact skipBlanksOn_spaces solid n k (m.newLine 1) true

end Lexer

/-! ### Folds and plain scalars -/

theorem Fold.read_spaces (column k : Nat) (m : Mark) {f : Fold} (broken : f.broken) :
    Fold.read column (List.replicate k ' ' ++ rest) m f =
      some (f, ⟨rest, m.right (List.replicate k ' ')⟩) := by
  induction k generalizing m with
  | zero =>
    obtain ⟨blank, onLine, -, -⟩ := isSolid_iff.mp solid
    cases rest with
    | nil => rfl
    | cons x _ =>
      have noReturn : x ≠ '\r' := by rintro rfl; simp [isBreak] at onLine
      simp_all [Fold.read, Mark.right]
  | succ k ih =>
    have blank : isBlank ' ' := rfl
    have same : f.addBlank ' ' = f := by simp [addBlank, broken]
    have further : (m.right [' ']).right (List.replicate k ' ') =
        m.right (' ' :: List.replicate k ' ') := by
      simp [Mark.right, Nat.add_assoc, Nat.add_comm 1]
    rw [List.replicate_succ, List.cons_append, Fold.read, if_pos blank, same, ih, further]
    · simp
    · simp

/-- What follows a scalar at the end of a line is passed over with it. -/
theorem Fold.read_lineFeed (column k : Nat) (m : Mark) :
    Fold.read column (lineFeed k ++ rest) m {} =
      some ({ broken := true, first := ['\n'] },
        ⟨rest, (m.newLine 1).right (List.replicate k ' ')⟩) := by
  have blank : isBlank '\n' = false := rfl
  have onLine : isBreak '\n' := rfl
  rw [lineFeed, List.cons_append, Fold.read]
  · simp only [blank, onLine, if_true, Bool.false_eq_true, if_false]
    exact Fold.read_spaces solid column k (m.newLine 1) rfl
  · simp

end Spaces

/-- The letters and digits before the end of a scalar are a piece of it. -/
theorem plainPiece_append {w after : List Char} (plain : ∀ c ∈ w, isPlain c)
    (ends : plainPiece false after = some []) : plainPiece false (w ++ after) = some w := by
  induction w with
  | nil => exact ends
  | cons c w ih =>
    have hc : isPlain c := plain c List.mem_cons_self
    have colon : (c == ':') = false := beq_of_isPlain hc (by decide)
    rw [List.cons_append, plainPiece, ih fun x m => plain x (List.mem_cons_of_mem c m)]
    simp [isGap_of_isPlain hc, colon]

/-- The cursor past some characters of the line. -/
theorem Cursor.skip_append {w after : List Char} {m : Mark} :
    Cursor.skip ⟨w ++ after, m⟩ w.length = ⟨after, m.right w⟩ := by
  simp [Cursor.skip]

/-- The bytes of some characters are not many. -/
theorem Mark.offset_right_le (m : Mark) (w : List Char) :
    (m.right w).offset ≤ m.offset + 4 * w.length := by
  have sum : ∀ n, w.foldl (fun n c => n + c.utf8Size) n ≤ n + 4 * w.length := by
    induction w with
    | nil => exact fun n => Nat.le_refl n
    | cons c w ih =>
      intro n
      have step := ih (n + c.utf8Size)
      have size := c.utf8Size_le_four
      simp only [List.foldl_cons, List.length_cons]
      omega
  exact sum m.offset

theorem Cursor.atMarker_of_isPlain {c : Cursor} {x : Char} (h : isPlain c.next)
    (hx : isPlain x = false) : c.atMarker x = false := by
  have : c.ahead 0 = c.next := by
    simp [Cursor.ahead, Cursor.next, List.headD_eq_head?_getD, List.head?_eq_getElem?]
  simp [Cursor.atMarker, this, beq_of_isPlain h hx]

section Words

variable {w after : List Char} (nonempty : w ≠ []) (plain : ∀ c ∈ w, isPlain c) (m : Mark)

include nonempty plain

theorem isPlain_next : isPlain (Cursor.next ⟨w ++ after, m⟩) := by
  cases w with
  | nil => exact absurd rfl nonempty
  | cons c _ => exact plain c List.mem_cons_self

/-- A scalar of letters and digits, up to its end in the line. -/
theorem readPlain_append (column : Nat) (ends : plainPiece false after = some []) :
    readPlain false column ⟨w ++ after, m⟩ =
      if isBlank (after.headD nul) || isBreak (after.headD nul) then
        (Fold.read column after (m.right w) {}).bind fun (fold, d) =>
          if d.mark.column < column then some ⟨w, m.right w, d, fold.broken⟩
          else readPlainOn false column (w ++ after).length d fold w (m.right w)
      else some ⟨w, m.right w, ⟨after, m.right w⟩, false⟩ := by
  have next : isPlain (Cursor.next ⟨w ++ after, m⟩) := isPlain_next nonempty plain m
  have comment : (Cursor.next ⟨w ++ after, m⟩ == '#') = false := beq_of_isPlain next (by decide)
  have marker : Cursor.atDocumentMarker ⟨w ++ after, m⟩ = false := by
    rw [Cursor.atDocumentMarker, Cursor.atMarker_of_isPlain next (by decide),
      Cursor.atMarker_of_isPlain next (by decide), Bool.or_self]
  have filled : w.isEmpty = false := by simpa using nonempty
  have text : [] ++ ({} : Fold).text ++ w = w := rfl
  rw [readPlain, readPlainOn, marker, comment, plainPiece_append plain ends]
  simp only [Option.bind_eq_bind, Option.bind_some, Bool.or_self, filled, Bool.false_eq_true,
    if_false, Cursor.skip_append, text, Bool.not_false, Bool.true_and, decide_eq_true_eq]
  rfl

/-- A key ends at the colon after it. -/
theorem readPlain_colon (column : Nat) (gap : isGap (after.headD nul)) :
    readPlain false column ⟨w ++ ':' :: after, m⟩ =
      some ⟨w, m.right w, ⟨':' :: after, m.right w⟩, false⟩ := by
  have ends : plainPiece false (':' :: after) = some [] := by
    simp only [plainPiece, gap]
    rfl
  rw [readPlain_append nonempty plain m column ends]
  rfl

/-- A scalar ends at the end of the text. -/
theorem readPlain_nil (column : Nat) :
    readPlain false column ⟨w ++ [], m⟩ = some ⟨w, m.right w, ⟨[], m.right w⟩, false⟩ := by
  rw [readPlain_append nonempty plain m column rfl]
  rfl

/-- A scalar ends at a line that is indented less. -/
theorem readPlain_lineFeed {column k : Nat} (less : k < column)
    (solid : isSolid (after.headD nul)) :
    readPlain false column ⟨w ++ (lineFeed k ++ after), m⟩ =
      some ⟨w, m.right w, ⟨after, ((m.right w).newLine 1).right (List.replicate k ' ')⟩, true⟩ := by
  have ends : plainPiece false (lineFeed k ++ after) = some [] := rfl
  have onLine : (isBlank ((lineFeed k ++ after).headD nul) ||
      isBreak ((lineFeed k ++ after).headD nul)) = true := rfl
  rw [readPlain_append nonempty plain m column ends, if_pos onLine, Fold.read_lineFeed solid]
  simp [Mark.right, Mark.newLine, less]

end Words

/-! ### Where a lexer stands -/

namespace Lexer

/-- Where a lexer is outside of brackets, without a candidate for a key: what is
    left of the text, the column, the columns of the open block collections, what
    tokens there are, and whether a key may start here. -/
structure Stands (l : Lexer) (rest : List Char) (column : Nat) (levels : List Int)
    (kinds : List TokenKind) (keyAllowed : Bool) : Prop where
  rest : l.cursor.rest = rest
  column : l.column = column
  levels : l.indent :: l.outer = levels
  kinds : l.tokens.toList.map Token.kind = kinds
  keyAllowed : l.keyAllowed = keyAllowed
  candidate : l.candidate = none
  around : l.around = []

variable {l : Lexer} {rest : List Char} {column : Nat} {levels : List Int}
  {kinds : List TokenKind} {keyAllowed : Bool}

theorem Stands.inFlow (h : l.Stands rest column levels kinds keyAllowed) : l.inFlow = false := by
  simp [Lexer.inFlow, h.around]

/-- Where the next token of a lexer begins. -/
structure Ready (l : Lexer) (rest : List Char) (column : Nat) (levels : List Int)
    (kinds : List TokenKind) (keyAllowed : Bool) : Prop where
  stands : l.skipBlanks.Stands rest column levels kinds keyAllowed
  ahead : rest.length ≤ l.cursor.rest.length

/-- Spaces are passed over. -/
theorem Stands.spaces {k : Nat}
    (h : l.Stands (List.replicate k ' ' ++ rest) column levels kinds keyAllowed)
    (solid : isSolid (rest.headD nul)) : l.Ready rest (column + k) levels kinds keyAllowed := by
  have cursor : l.cursor = ⟨List.replicate k ' ' ++ rest, l.cursor.mark⟩ := by rw [← h.rest]
  have skipped := skipBlanksOn_spaces solid l.cursor.rest.length k l.cursor.mark l.keyAllowed
  rw [← cursor] at skipped
  refine ⟨?_, by simp [h.rest]⟩
  constructor <;> simp only [skipBlanks, h.inFlow, skipped]
  case column => simp [Lexer.column, Mark.right, ← h.column]
  case levels => exact h.levels
  case kinds => exact h.kinds
  case keyAllowed => exact h.keyAllowed
  case candidate => exact h.candidate
  case around => exact h.around

/-- The end of a line and the indentation of the next one are passed over. -/
theorem Stands.lineFeed {k : Nat}
    (h : l.Stands (lineFeed k ++ rest) column levels kinds keyAllowed)
    (solid : isSolid (rest.headD nul)) : l.Ready rest k levels kinds true := by
  have cursor : l.cursor = ⟨Yaml.lineFeed k ++ rest, l.cursor.mark⟩ := by rw [← h.rest]
  have enough : l.cursor.rest.length + 1 = (k + rest.length) + 2 := by
    simp [h.rest, Yaml.lineFeed]
  have skipped := skipBlanksOn_lineFeed solid (k + rest.length) k l.cursor.mark l.keyAllowed
  rw [← cursor, ← enough] at skipped
  refine ⟨?_, by simp [h.rest, Yaml.lineFeed]; omega⟩
  constructor <;> simp only [skipBlanks, h.inFlow, skipped]
  case column => simp [Lexer.column, Mark.right, Mark.newLine]
  case levels => exact h.levels
  case kinds => exact h.kinds
  case candidate => exact h.candidate
  case around => exact h.around

/-- At a solid character there is nothing to pass over. -/
theorem Stands.here (h : l.Stands rest column levels kinds keyAllowed)
    (solid : isSolid (rest.headD nul)) : l.Ready rest column levels kinds keyAllowed :=
  Stands.spaces (k := 0) h solid

/-- The block collections that a column is left of end there. -/
theorem Stands.unroll (ended : List Int) {outer : List Int} {i c : Int}
    (h : l.Stands rest column (ended ++ i :: outer) kinds keyAllowed)
    (left : ∀ j ∈ ended, c < j) (inside : i ≤ c) :
    (l.unroll c).Stands rest column (i :: outer)
      (kinds ++ List.replicate ended.length .blockEnd) keyAllowed := by
  have ends : ∀ j ∈ ended, decide (c < j) = true := fun j m => decide_eq_true (left j m)
  have stays : decide (c < i) = false := decide_eq_false (Int.not_lt.mpr inside)
  have closed : (ended ++ i :: outer).takeWhile (fun j => decide (c < j)) = ended := by
    simp [List.takeWhile_append_of_pos ends, stays]
  have kept : (ended ++ i :: outer).dropWhile (fun j => decide (c < j)) = i :: outer := by
    simp [List.dropWhile_append_of_pos ends, stays]
  constructor <;>
    simp only [Lexer.unroll, h.inFlow, h.levels, Bool.false_eq_true, if_false, closed, kept]
  case rest => exact h.rest
  case column => exact h.column
  case levels => rfl
  case kinds => simp [h.kinds]
  case keyAllowed => exact h.keyAllowed
  case candidate => exact h.candidate
  case around => exact h.around

/-- A candidate that is not stale stays. -/
theorem refreshAll_eq_self (flat : l.around = [])
    (same : refresh l.cursor.mark l.candidate = some l.candidate) : l.refreshAll = some l := by
  simp only [refreshAll, same, flat, List.mapM_nil, Option.bind_eq_bind, Option.bind_some,
    Option.pure_def]
  rw [← flat]

/-- The next token is the one at the place past what is passed over, after the
    ends of the collections that end there. -/
theorem Ready.lexNext (h : l.Ready rest column levels kinds keyAllowed) :
    l.lexNext = (l.skipBlanks.unroll column).lexHere := by
  have same : refresh l.skipBlanks.cursor.mark l.skipBlanks.candidate =
      some l.skipBlanks.candidate := by rw [h.stands.candidate]; rfl
  rw [Lexer.lexNext, refreshAll_eq_self h.stands.around same, ← h.stands.column]
  rfl

/-- A letter or a digit begins a plain scalar. -/
theorem lexHere_of_isPlain (h : isPlain l.cursor.next) : l.lexHere = l.lexPlain := by
  have others : ∀ x : Char, isPlain x = false → (l.cursor.next == x) = false :=
    fun x hx => beq_of_isPlain h hx
  have marker : ∀ x : Char, isPlain x = false → l.cursor.atMarker x = false :=
    fun x hx => Cursor.atMarker_of_isPlain h hx
  simp only [lexHere, others nul (by decide), others '%' (by decide), marker '-' (by decide),
    marker '.' (by decide), others '[' (by decide), others '{' (by decide),
    others ']' (by decide), others '}' (by decide), others ',' (by decide),
    others '-' (by decide), others '?' (by decide), others ':' (by decide),
    others '*' (by decide), others '&' (by decide), others '!' (by decide),
    others '|' (by decide), others '>' (by decide), others '\'' (by decide),
    others '"' (by decide), startsPlain_of_isPlain h, Bool.and_false, Bool.false_and,
    Bool.false_eq_true, if_false, if_true]

/-- A colon before a gap tells that a value follows. -/
theorem lexHere_colon {after : List Char} (h : l.cursor.rest = ':' :: after)
    (gap : isGap (after.headD nul)) : l.lexHere = l.lexColon := by
  have next : l.cursor.next = ':' := by rw [Cursor.next, h]; rfl
  have second : l.cursor.ahead 1 = after.headD nul := by
    simp [Cursor.ahead, h, List.headD_eq_head?_getD, List.head?_eq_getElem?]
  have marker : ∀ x : Char, (':' == x) = false → l.cursor.atMarker x = false := fun x hx => by
    simp [Cursor.atMarker, Cursor.ahead, h, hx]
  have inside : (':' == nul) = false := rfl
  simp only [lexHere, next, second, gap, marker '-' (by decide), marker '.' (by decide), inside,
    Char.reduceBEq, Bool.and_false, Bool.false_and, Bool.or_true, Bool.true_and,
    Bool.false_eq_true, if_false, if_true]

theorem skipBlanks_eq_self (flat : l.around = []) (solid : isSolid (l.cursor.rest.headD nul)) :
    l.skipBlanks = l := by
  have inFlow : l.inFlow = false := by simp [Lexer.inFlow, flat]
  have skipped := skipBlanksOn_spaces solid l.cursor.rest.length 0 l.cursor.mark l.keyAllowed
  rw [List.replicate_zero, List.nil_append] at skipped
  rw [skipBlanks, inFlow, skipped]
  rfl

theorem unroll_eq_self {c : Int} (inside : l.indent ≤ c) : l.unroll c = l := by
  have stays : decide (c < l.indent) = false := decide_eq_false (Int.not_lt.mpr inside)
  simp [Lexer.unroll, stays]

/-! ### Keys -/

/-- A lexer past a word that may turn out to be a key. -/
def pending (l : Lexer) (w : List Char) : Lexer :=
  { l with
    cursor := l.cursor.skip w.length
    tokens := l.tokens.push ⟨.scalar .plain w, l.cursor.mark, l.cursor.mark.right w⟩
    keyAllowed := false
    candidate := some ⟨l.indent == l.column, l.tokens.size, l.cursor.mark⟩ }

/-- A token put in front of the later ones. -/
theorem insert_before (ts : Array Token) (later : List Token) (t : Token) :
    (ts ++ later.toArray).insertIdxIfInBounds ts.size t = ts ++ (t :: later).toArray := by
  have lists : ∀ l : List Token, (l ++ later).insertIdx l.length t = l ++ t :: later := by
    intro l
    induction l with
    | nil => simp
    | cons x l ih => simp [ih]
  obtain ⟨l⟩ := ts
  simp [lists]

/-- The start of a collection changes nothing but the tokens and the levels. -/
theorem roll_frame (l : Lexer) (column : Nat) (kind : TokenKind) (number : Nat) (mark : Mark) :
    (l.roll column kind number mark).cursor = l.cursor ∧
      (l.roll column kind number mark).around = l.around := by
  rw [roll]
  split <;> exact ⟨rfl, rfl⟩

theorem roll_levels (flat : l.around = []) (column : Nat) (kind : TokenKind) (number : Nat)
    (mark : Mark) :
    (l.roll column kind number mark).indent :: (l.roll column kind number mark).outer =
      if l.indent < column then (column : Int) :: l.indent :: l.outer
      else l.indent :: l.outer := by
  simp only [roll, Lexer.inFlow, flat, List.isEmpty_nil, Bool.not_true, Bool.not_false,
    Bool.true_and, decide_eq_true_eq]
  split <;> rfl

/-- Where a collection starts, its token stands in front of the later ones. -/
theorem roll_tokens (flat : l.around = []) (column : Nat) (kind : TokenKind) (mark : Mark)
    {before : Array Token} {later : List Token} (tokens : l.tokens = before ++ later.toArray) :
    (l.roll column kind before.size mark).tokens.toList.map Token.kind =
      before.toList.map Token.kind ++
        ((if l.indent < column then [kind] else []) ++ later.map Token.kind) := by
  simp only [roll, Lexer.inFlow, flat, List.isEmpty_nil, Bool.not_true, Bool.not_false,
    Bool.true_and, decide_eq_true_eq, tokens, insert_before]
  split <;> simp [tokens]

/-- A lexer past a word that is a key. -/
def keyed (l : Lexer) (w : List Char) : Lexer :=
  { l.pending w with
    tokens := l.tokens ++ [⟨.key, l.cursor.mark, l.cursor.mark⟩,
      ⟨.scalar .plain w, l.cursor.mark, l.cursor.mark.right w⟩].toArray }

theorem lexColon_pending (l : Lexer) (w : List Char) :
    (l.pending w).lexColon =
      some ({ (l.keyed w).roll l.column .blockMappingStart l.tokens.size l.cursor.mark with
        candidate := none
        keyAllowed := false }.pushSkip .value 1) := by
  have tokens : (l.pending w).tokens.insertIdxIfInBounds l.tokens.size
      ⟨.key, l.cursor.mark, l.cursor.mark⟩ = (l.keyed w).tokens := by
    rw [keyed, ← insert_before]
    simp [pending]
  have same : { l.pending w with
      tokens := (l.pending w).tokens.insertIdxIfInBounds l.tokens.size
        ⟨.key, l.cursor.mark, l.cursor.mark⟩ } = l.keyed w := by rw [tokens]; rfl
  rw [← same]
  rfl

section Keys

variable {w after : List Char} {i : Int} {outer : List Int}
  (h : l.Stands (w ++ ':' :: after) column (i :: outer) kinds true)
  (nonempty : w ≠ []) (plain : ∀ c ∈ w, isPlain c) (gap : isGap (after.headD nul))

include h

theorem Stands.skip_key : l.cursor.skip w.length = ⟨':' :: after, l.cursor.mark.right w⟩ := by
  have cursor : l.cursor = ⟨w ++ ':' :: after, l.cursor.mark⟩ := by rw [← h.rest]
  rw [cursor]
  exact Cursor.skip_append

include gap

include nonempty plain in
/-- A word is read as one that may be a key. -/
theorem Stands.lexHere_key : l.lexHere = some (l.pending w) := by
  have cursor : l.cursor = ⟨w ++ ':' :: after, l.cursor.mark⟩ := by rw [← h.rest]
  have next : isPlain l.cursor.next := by
    rw [cursor]
    exact isPlain_next nonempty plain l.cursor.mark
  have read := readPlain_colon nonempty plain l.cursor.mark (l.indent + 1).toNat gap
  rw [← cursor] at read
  rw [lexHere_of_isPlain next, lexPlain, markCandidate, if_pos h.keyAllowed, dropCandidate,
    h.candidate, pending, h.skip_key]
  simp only [Option.any_none, Bool.false_eq_true, if_false, Option.bind_eq_bind, Option.bind_some,
    Lexer.inFlow, h.around, List.isEmpty_nil, Bool.not_true, read, Bool.not_false, Bool.true_and]

/-- The colon after a word makes it a key. -/
theorem Stands.lexNext_key (short : w.length ≤ 128) (inside : i ≤ column) :
    (l.pending w).lexNext = (l.pending w).lexColon := by
  have past : (l.pending w).cursor = ⟨':' :: after, l.cursor.mark.right w⟩ := h.skip_key
  have flat : (l.pending w).around = [] := h.around
  have colon : isSolid ((l.pending w).cursor.rest.headD nul) := by rw [past]; rfl
  have fresh : Candidate.isStale ⟨l.indent == l.column, l.tokens.size, l.cursor.mark⟩
      (l.pending w).cursor.mark = false := by
    have size := l.cursor.mark.offset_right_le w
    have line : (l.cursor.mark.right w).line = l.cursor.mark.line := rfl
    simp only [Candidate.isStale, past, line, Nat.lt_irrefl, decide_false, Bool.false_or,
      decide_eq_false_iff_not]
    omega
  have same : refresh (l.pending w).cursor.mark (l.pending w).candidate =
      some (l.pending w).candidate := by
    simp only [pending] at fresh ⊢
    simp only [refresh, fresh, Bool.false_eq_true, if_false]
  have indent : (l.pending w).indent ≤ ((l.pending w).column : Int) := by
    have level : l.indent = i := List.head_eq_of_cons_eq h.levels
    have place : (l.pending w).column = column + w.length := by
      simp only [Lexer.column, past, Mark.right, ← h.column]
    rw [place]
    simp only [pending, level]
    omega
  rw [Lexer.lexNext, skipBlanks_eq_self flat colon, refreshAll_eq_self flat same,
    Option.bind_eq_bind, Option.bind_some, unroll_eq_self indent,
    lexHere_colon (congrArg Cursor.rest past) gap]

omit gap in
/-- The tokens of a key and its colon, and of the start of a mapping if it is the
    first of its level. -/
theorem Stands.lexColon_key : ∃ l', (l.pending w).lexColon = some l' ∧
    l'.Stands after (column + w.length + 1)
      (if i < column then column :: i :: outer else i :: outer)
      (kinds ++ ((if i < column then [.blockMappingStart] else []) ++
        [.key, .scalar .plain w, .value])) false := by
  have flat : (l.keyed w).around = [] := h.around
  have level : (l.keyed w).indent = i := List.head_eq_of_cons_eq h.levels
  have past : (l.keyed w).cursor = ⟨':' :: after, l.cursor.mark.right w⟩ := h.skip_key
  have place : l.cursor.mark.column = column := h.column
  obtain ⟨cursor, around⟩ :=
    (l.keyed w).roll_frame column .blockMappingStart l.tokens.size l.cursor.mark
  have levels := roll_levels flat column .blockMappingStart l.tokens.size l.cursor.mark
  have tokens := roll_tokens flat column .blockMappingStart l.cursor.mark rfl
  refine ⟨_, lexColon_pending l w, ?_⟩
  rw [h.column]
  constructor
  case rest => simp only [pushSkip, push, cursor, past]; rfl
  case column => simp [pushSkip, push, cursor, past, Lexer.column, Cursor.skip, Mark.right, place]
  case levels =>
    rw [level, show (l.keyed w).outer = outer from List.tail_eq_of_cons_eq h.levels] at levels
    exact levels
  case kinds =>
    rw [level] at tokens
    simp [pushSkip, push, tokens, h.kinds]
  case keyAllowed => rfl
  case candidate => rfl
  case around => exact around.trans flat

end Keys

/-! ### Numbers and the end -/

/-- A word where no key may start is no more than a scalar. -/
theorem Stands.lexHere_value {w tail : List Char} {scalar : PlainScalar}
    (h : l.Stands (w ++ tail) column levels kinds false)
    (nonempty : w ≠ []) (plain : ∀ c ∈ w, isPlain c)
    (read : readPlain false (l.indent + 1).toNat ⟨w ++ tail, l.cursor.mark⟩ = some scalar) :
    ∃ l', l.lexHere = some l' ∧
      l'.Stands scalar.after.rest scalar.after.mark.column levels
        (kinds ++ [.scalar .plain scalar.text]) scalar.broken := by
  have cursor : l.cursor = ⟨w ++ tail, l.cursor.mark⟩ := by rw [← h.rest]
  have next : isPlain l.cursor.next := by
    rw [cursor]
    exact isPlain_next nonempty plain l.cursor.mark
  rw [← cursor] at read
  have unmarked : l.markCandidate = some l := by
    rw [markCandidate, h.keyAllowed]
    rfl
  have lexed : l.lexHere = some { l with
      tokens := l.tokens.push ⟨.scalar .plain scalar.text, l.cursor.mark, scalar.stop⟩
      cursor := scalar.after
      keyAllowed := scalar.broken } := by
    rw [lexHere_of_isPlain next, lexPlain, unmarked]
    simp only [Option.bind_eq_bind, Option.bind_some, h.inFlow, read]
  refine ⟨_, lexed, ?_⟩
  constructor
  case rest => rfl
  case column => rfl
  case levels => exact h.levels
  case kinds => simp [h.kinds]
  case keyAllowed => rfl
  case candidate => exact h.candidate
  case around => exact h.around

theorem dropCandidate_of_none (h : l.candidate = none) : l.dropCandidate = some l := by
  rw [dropCandidate, h]
  simp only [Option.any_none, Bool.false_eq_true, if_false]
  rw [← h]

/-- A lexer at the start of the line after the text. -/
def overEnd (l : Lexer) : Lexer :=
  let m := l.cursor.mark
  { l with cursor := { l.cursor with
      mark := if m.column = 0 then m else ⟨m.offset, m.line + 1, 0⟩ } }

/-- At the end of the text everything ends. -/
theorem Stands.lexHere_end (ended : List Int)
    (h : l.Stands [] column (ended ++ [-1]) kinds keyAllowed) (left : ∀ j ∈ ended, -1 < j) :
    ∃ l', l.lexHere = some l' ∧
      l'.tokens.toList.map Token.kind =
        kinds ++ List.replicate ended.length .blockEnd ++ [.endOfStream] := by
  have next : l.cursor.next = nul := by rw [Cursor.next, h.rest]; rfl
  have past : l.overEnd.Stands [] l.overEnd.column (ended ++ [-1]) kinds keyAllowed :=
    ⟨h.rest, rfl, h.levels, h.kinds, h.keyAllowed, h.candidate, h.around⟩
  have closed := past.unroll ended left (Int.le_refl (-1))
  have lexed : l.lexHere =
      some ({ l.overEnd.unroll (-1) with keyAllowed := false }.pushHere .endOfStream) := by
    have split : l.lexEnd = (l.overEnd.unroll (-1)).dropCandidate.bind fun l =>
        some ({ l with keyAllowed := false }.pushHere .endOfStream) := rfl
    rw [lexHere, next, if_pos (by rfl), split, dropCandidate_of_none closed.candidate]
    rfl
  refine ⟨_, lexed, ?_⟩
  simp [pushHere, push, closed.kinds]

end Lexer

end Turnstile.Yaml
