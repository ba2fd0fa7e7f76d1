import Turnstile.Text.Numeral
import Turnstile.Yaml.Cursor

/-!
# Scalars of a document

A scalar is a piece of text in one of five styles: plain, in single or double
quotes, or as a block of lines that is literal or folded. Each style has its
reader here, which takes the cursor past the scalar; there is no answer where the
text breaks the rules.

In plain and quoted scalars a *fold*, the blanks and the ends of lines between
two pieces of text, contributes its blanks if it stays in the line, a space if it
holds one end of line, and else all ends of lines but the first.
-/

namespace Turnstile.Yaml

/-- How a scalar is written. -/
inductive ScalarStyle
  | plain
  | singleQuoted
  | doubleQuoted
  | literal
  | folded
deriving DecidableEq, Repr

/-! ### Folds -/

/-- What lies between two pieces of a scalar. -/
structure Fold where
  /-- The blanks, as long as the line has not ended. -/
  blanks : List Char := []
  /-- Whether a line has ended. -/
  broken : Bool := false
  /-- The first end of line, if it contributes anything. -/
  first : List Char := []
  /-- The other ends of lines. -/
  others : List Char := []

namespace Fold

/-- Another blank. -/
def addBlank (f : Fold) (c : Char) : Fold :=
  if f.broken then f else { f with blanks := f.blanks ++ [c] }

/-- Another end of line. -/
def addBreak (f : Fold) (c : Char) : Fold :=
  if f.broken then { f with others := f.others ++ [c] }
  else { broken := true, first := [c] }

/-- What a fold contributes to the text. -/
def text (f : Fold) : List Char :=
  if f.broken then
    if f.first = ['\n'] then (if f.others.isEmpty then [' '] else f.others)
    else f.first ++ f.others
  else f.blanks

/-- Read a fold on. After the end of a line no tab may stand before the given
    column. -/
def read (column : Nat) : List Char → Mark → Fold → Option (Fold × Cursor)
  | '\r' :: '\n' :: rest, m, f => read column rest (m.newLine 2) (f.addBreak '\n')
  | c :: rest, m, f =>
    if isBlank c then
      if f.broken && c == '\t' && m.column < column then none
      else read column rest (m.right [c]) (f.addBlank c)
    else if isBreak c then read column rest (m.newLine c.utf8Size) (f.addBreak (breakText c))
    else some (f, ⟨c :: rest, m⟩)
  | [], m, f => some (f, ⟨[], m⟩)

end Fold

/-! ### Plain scalars -/

/-- The characters that end a plain scalar in a flow collection. -/
def isFlowIndicator (c : Char) : Bool :=
  c == ',' || c == '[' || c == ']' || c == '{' || c == '}'

/-- The characters of a plain scalar up to the next blank or its end. In a flow
    collection a colon must not stand before an indicator. -/
def plainPiece (flow : Bool) : List Char → Option (List Char)
  | [] => some []
  | c :: rest =>
    let after := rest.headD nul
    if isGap c then some []
    else if flow && c == ':' && (isFlowIndicator after || after == '?') then none
    else if c == ':' && isGap after then some []
    else if flow && isFlowIndicator c then some []
    else (plainPiece flow rest).map (c :: ·)

/-- A scalar that was read. -/
structure PlainScalar where
  text : List Char
  /-- The end of its text. -/
  stop : Mark
  /-- Where reading has come to, past a fold at the end. -/
  after : Cursor
  /-- Whether a line has ended after the text. -/
  broken : Bool

/-- Read a plain scalar on, whose lines are indented to the given column outside
    flow collections. -/
def readPlainOn (flow : Bool) (column : Nat) :
    Nat → Cursor → Fold → List Char → Mark → Option PlainScalar
  | 0, _, _, _, _ => none
  | n + 1, c, fold, text, stop =>
    let finished : PlainScalar := ⟨text, stop, c, fold.broken⟩
    if c.atDocumentMarker || c.next == '#' then some finished
    else do
      let piece ← plainPiece flow c.rest
      if piece.isEmpty then some finished
      else
        let c := c.skip piece.length
        let text := text ++ fold.text ++ piece
        if isBlank c.next || isBreak c.next then
          let (fold, d) ← Fold.read column c.rest c.mark {}
          if !flow && d.mark.column < column then some ⟨text, c.mark, d, fold.broken⟩
          else readPlainOn flow column n d fold text c.mark
        else some ⟨text, c.mark, c, false⟩

/-- Read a plain scalar. -/
def readPlain (flow : Bool) (column : Nat) (c : Cursor) : Option PlainScalar :=
  readPlainOn flow column (c.rest.length + 1) c {} [] c.mark

/-! ### Quoted scalars -/

/-- The characters of a single-quoted scalar up to the next blank or its end; a
    quote is written twice. With them goes the number of characters read. -/
def singlePiece : List Char → List Char × Nat
  | '\'' :: '\'' :: rest =>
    let (piece, n) := singlePiece rest
    ('\'' :: piece, n + 2)
  | c :: rest =>
    if isGap c || c == '\'' then ([], 0)
    else
      let (piece, n) := singlePiece rest
      (c :: piece, n + 1)
  | [] => ([], 0)

/-- The character for an escape of one letter. -/
def simpleEscape? : Char → Option Char
  | '0' => some '\x00'
  | 'a' => some '\x07'
  | 'b' => some '\x08'
  | 't' => some '\t'
  | '\t' => some '\t'
  | 'n' => some '\n'
  | 'v' => some '\x0b'
  | 'f' => some '\x0c'
  | 'r' => some '\r'
  | 'e' => some '\x1b'
  | ' ' => some ' '
  | '"' => some '"'
  | '/' => some '/'
  | '\\' => some '\\'
  | 'N' => some '\x85'
  | '_' => some '\xa0'
  | 'L' => some '\u2028'
  | 'P' => some '\u2029'
  | _ => none

/-- The number of hexadecimal digits after an escape letter. -/
def escapeDigits? : Char → Option Nat
  | 'x' => some 2
  | 'u' => some 4
  | 'U' => some 8
  | _ => none

/-- The character that a backslash and what follows it stand for, and the number
    of characters after the backslash. -/
def escaped? (letter : Char) (rest : List Char) : Option (Char × Nat) :=
  match simpleEscape? letter, escapeDigits? letter with
  | some c, _ => some (c, 1)
  | none, some n =>
    let digits := rest.take n
    if digits.length = n then
      match Numeral.read? 16 digits with
      | some code => if code.isValidChar then some (Char.ofNat code, n + 1) else none
      | none => none
    else none
  | none, none => none

/-- The characters of a double-quoted scalar up to the next blank or its end, and
    whether they end in an escaped end of line, which is read too. -/
def doublePiece : Nat → Cursor → Option (List Char × Cursor × Bool)
  | 0, _ => none
  | n + 1, c =>
    match c.rest with
    | [] => some ([], c, false)
    | '\\' :: rest =>
      let letter := rest.headD nul
      if isBreak letter then some ([], (c.skip 1).skipBreak, true)
      else do
        let (x, width) ← escaped? letter rest.tail
        let (piece, after, broken) ← doublePiece n (c.skip (width + 1))
        some (x :: piece, after, broken)
    | x :: _ =>
      if isGap x || x == '"' then some ([], c, false)
      else do
        let (piece, after, broken) ← doublePiece n (c.skip 1)
        some (x :: piece, after, broken)

/-- The next characters of a quoted scalar. -/
def quotedPiece (single : Bool) (c : Cursor) : Option (List Char × Cursor × Bool) :=
  if single then
    let (piece, n) := singlePiece c.rest
    some (piece, c.skip n, false)
  else doublePiece (c.rest.length + 1) c

/-- Read a quoted scalar on, to its closing quote. -/
def readQuotedOn (single : Bool) : Nat → Cursor → List Char → Option (List Char × Cursor)
  | 0, _, _ => none
  | n + 1, c, text =>
    if c.atDocumentMarker || c.rest.isEmpty then none
    else do
      let (piece, c, broken) ← quotedPiece single c
      if c.next == (if single then '\'' else '"') then some (text ++ piece, c.skip 1)
      else
        let (fold, c) ← Fold.read 0 c.rest c.mark { broken }
        readQuotedOn single n c (text ++ piece ++ fold.text)

/-- Read a quoted scalar, from its opening quote. -/
def readQuoted (single : Bool) (c : Cursor) : Option (List Char × Cursor) :=
  readQuotedOn single (c.rest.length + 1) (c.skip 1) []

/-! ### Block scalars -/

/-- What becomes of the ends of lines at the end of a block. -/
inductive Chomping
  /-- None is kept. -/
  | strip
  /-- One is kept. -/
  | clip
  /-- All are kept. -/
  | keep
deriving DecidableEq, Repr

/-- The chomping that an indicator stands for. -/
def chomping? : Char → Option Chomping
  | '-' => some .strip
  | '+' => some .keep
  | _ => none

/-- The heading of a block: how it is chomped and, if it is given, how far it is
    indented. -/
def readBlockHeading (c : Cursor) : Option (Chomping × Option Nat × Cursor) :=
  let digit (c : Cursor) : Option (Option Nat × Cursor) :=
    if isDigit c.next then
      if c.next == '0' then none else some (some (c.next.toNat - '0'.toNat), c.skip 1)
    else some (none, c)
  match chomping? c.next with
  | some chomping => do
    let (indent, c) ← digit (c.skip 1)
    some (chomping, indent, c)
  | none => do
    let (indent, c) ← digit c
    match indent, chomping? c.next with
    | some _, some chomping => some (chomping, indent, c.skip 1)
    | _, _ => some (.clip, indent, c)

/-- Past lines of a block without text, with their ends and the greatest column
    reached. With `indent` zero the indentation is not known yet. A line is
    entered up to its indentation, and no tab may stand in it. -/
def blockBreaks (indent : Nat) :
    List Char → Mark → Nat → List Char → Option (Nat × List Char × Cursor)
  | '\r' :: '\n' :: rest, m, widest, breaks =>
    blockBreaks indent rest (m.newLine 2) (max widest m.column) (breaks ++ ['\n'])
  | c :: rest, m, widest, breaks =>
    let inside := indent == 0 || m.column < indent
    if inside && c == ' ' then blockBreaks indent rest (m.right [c]) widest breaks
    else if inside && c == '\t' then none
    else if isBreak c then
      blockBreaks indent rest (m.newLine c.utf8Size) (max widest m.column) (breaks ++ [breakText c])
    else some (max widest m.column, breaks, ⟨c :: rest, m⟩)
  | [], m, widest, breaks => some (max widest m.column, breaks, ⟨[], m⟩)

/-- Read the lines of a block on. The arguments after the cursor are the text so
    far, the end of the last line, the ends of the empty lines after it, and
    whether the last line began with a blank. -/
def readBlockOn (folded : Bool) (chomping : Chomping) (indent : Nat) :
    Nat → Cursor → List Char → List Char → List Char → Bool → Option (List Char × Cursor)
  | 0, _, _, _, _, _ => none
  | n + 1, c, text, last, empties, blankBefore =>
    if c.mark.column = indent && !c.rest.isEmpty then do
      let blank := isBlank c.next
      let joint :=
        if folded && last = ['\n'] && !blankBefore && !blank then
          if empties.isEmpty then [' '] else []
        else last
      let line := c.takeWhile fun x => !isBreakOrEnd x
      let (last, c) := (c.skip line.length).takeBreak
      let (_, breaks, c) ← blockBreaks indent c.rest c.mark 0 []
      readBlockOn folded chomping indent n c (text ++ joint ++ empties ++ line) last breaks blank
    else
      let text := if chomping = .strip then text else text ++ last
      some (if chomping = .keep then text ++ empties else text, c)

/-- Read a block scalar, from its indicator, inside a block that is indented to
    the given column, or to none. -/
def readBlock (folded : Bool) (outer : Int) (c : Cursor) : Option (List Char × Cursor) := do
  let (chomping, given, c) ← readBlockHeading (c.skip 1)
  let c ← c.skipLineEnd
  let indent := match given with
    | some n => if 0 ≤ outer then outer.toNat + n else n
    | none => 0
  let (widest, breaks, c) ← blockBreaks indent c.rest c.mark 0 []
  let indent := if indent = 0 then max (max widest (outer + 1).toNat) 1 else indent
  readBlockOn folded chomping indent (c.rest.length + 1) c [] [] breaks false

end Turnstile.Yaml
