/-!
# Characters and places in a document

A YAML document is read character by character, from its start to its end. A
cursor is how far one has come: the characters that are left, and the *mark* of
the place, which error messages show.

Lines end in a carriage return, a line feed, both of them, or one of three
characters of Unicode (next line, line separator, paragraph separator). Past the
end of a document one sees NUL, which no document holds.
-/

namespace Turnstile.Yaml

/-! ### Characters -/

/-- Past the end of a document. -/
def nul : Char := '\x00'

/-- Whether a document may hold a character at all. -/
def isReadable (c : Char) : Bool :=
  let n := c.toNat
  n == 0x09 || n == 0x0a || n == 0x0d || (0x20 ≤ n && n ≤ 0x7e) || n == 0x85 ||
  (0xa0 ≤ n && n ≤ 0xd7ff) || (0xe000 ≤ n && n ≤ 0xfffd) || (0x10000 ≤ n && n ≤ 0x10ffff)

/-- A space or a tab. -/
def isBlank (c : Char) : Bool := c == ' ' || c == '\t'

/-- An end of a line. -/
def isBreak (c : Char) : Bool :=
  c == '\r' || c == '\n' || c == '\x85' || c == '\u2028' || c == '\u2029'

/-- An end of a line or of the document. -/
def isBreakOrEnd (c : Char) : Bool := isBreak c || c == nul

/-- A blank, or an end of a line or of the document. -/
def isGap (c : Char) : Bool := isBlank c || isBreakOrEnd c

/-- A character of the names of anchors, tag handles and directives. -/
def isNameChar (c : Char) : Bool :=
  ('0' ≤ c && c ≤ '9') || ('A' ≤ c && c ≤ 'Z') || ('a' ≤ c && c ≤ 'z') || c == '_' || c == '-'

/-- A decimal digit. -/
def isDigit (c : Char) : Bool := '0' ≤ c && c ≤ '9'

/-- What the end of a line contributes to a text: the two separators stay, all
    else becomes a line feed. -/
def breakText (c : Char) : Char := if c == '\u2028' || c == '\u2029' then c else '\n'

/-! ### Marks -/

/-- A place in a document, by what stands before it. -/
structure Mark where
  /-- The bytes of the text before it, in UTF-8. -/
  offset : Nat := 0
  /-- The lines before its own. -/
  line : Nat := 0
  /-- The characters of its line before it. -/
  column : Nat := 0
deriving DecidableEq, Repr, Inhabited

namespace Mark

/-- The place after some characters of the line. -/
def right (m : Mark) (passed : List Char) : Mark :=
  { m with
    offset := passed.foldl (fun n c => n + c.utf8Size) m.offset
    column := m.column + passed.length }

/-- The start of the next line, after an end of line of some bytes. -/
def newLine (m : Mark) (bytes : Nat) : Mark := ⟨m.offset + bytes, m.line + 1, 0⟩

end Mark

/-! ### Cursors -/

/-- A place in a document, and what follows it. -/
structure Cursor where
  rest : List Char
  mark : Mark := {}
deriving Repr

namespace Cursor

/-- The character some places further on. -/
def ahead (c : Cursor) (n : Nat) : Char := c.rest.getD n nul

/-- The next character. -/
def next (c : Cursor) : Char := c.rest.headD nul

/-- Past some characters of the same line. -/
def skip (c : Cursor) (n : Nat) : Cursor := ⟨c.rest.drop n, c.mark.right (c.rest.take n)⟩

/-- Past the characters of the same line that have a property. -/
def skipWhile (c : Cursor) (p : Char → Bool) : Cursor :=
  ⟨c.rest.dropWhile p, c.mark.right (c.rest.takeWhile p)⟩

/-- The next characters that have a property. -/
def takeWhile (c : Cursor) (p : Char → Bool) : List Char := c.rest.takeWhile p

/-- Past an end of line, if there is one, and what it contributes to a text. -/
def takeBreak (c : Cursor) : List Char × Cursor :=
  match c.rest with
  | '\r' :: '\n' :: rest => (['\n'], ⟨rest, c.mark.newLine 2⟩)
  | x :: rest => if isBreak x then ([breakText x], ⟨rest, c.mark.newLine x.utf8Size⟩) else ([], c)
  | [] => ([], c)

/-- Past an end of line, if there is one. -/
def skipBreak (c : Cursor) : Cursor := c.takeBreak.2

/-- Past the blanks and the comment at the end of a line, which must hold nothing
    else. -/
def skipLineEnd (c : Cursor) : Option Cursor :=
  let c := c.skipWhile isBlank
  let c := if c.next == '#' then c.skipWhile (fun x => !isBreakOrEnd x) else c
  if isBreakOrEnd c.next then some c.skipBreak else none

/-- Whether a line begins here with a marker of three equal characters. -/
def atMarker (c : Cursor) (x : Char) : Bool :=
  c.mark.column == 0 && c.ahead 0 == x && c.ahead 1 == x && c.ahead 2 == x && isGap (c.ahead 3)

/-- Whether a line begins here with the marker of a start or an end of a
    document. -/
def atDocumentMarker (c : Cursor) : Bool := c.atMarker '-' || c.atMarker '.'

end Cursor

end Turnstile.Yaml
