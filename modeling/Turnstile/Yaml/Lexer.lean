import Turnstile.Yaml.Token

/-!
# From characters to tokens

A document is cut into tokens from left to right. Two things make this more than
reading words.

*Indentation.* Outside of brackets the columns at which the open block
collections started form a stack. A word left of the innermost one ends it; a key
or an item right of it starts another one.

*Keys without a mark.* That a word was a key shows only by the colon after it.
So the place of the last word that may be a key is remembered for every level of
brackets (`Candidate`), and a colon puts the key token, and if need be the start
of a mapping, in front of that word. A candidate is given up at the end of its
line and after 1024 bytes. Where a word stands at the indentation of the
mapping around it, it has to become a key.
-/

namespace Turnstile.Yaml

/-- A word that may turn out to be a key. -/
structure Candidate where
  /-- Whether it has to. -/
  required : Bool
  /-- The number of tokens before it. -/
  number : Nat
  mark : Mark
deriving DecidableEq, Repr

/-- How far a document has been cut into tokens. -/
structure Lexer where
  cursor : Cursor
  tokens : Array Token := #[]
  /-- The column of the innermost block collection, −1 outside of any. -/
  indent : Int := -1
  /-- The columns of the block collections around it, the inner ones first. -/
  outer : List Int := []
  /-- Whether a key may start here. -/
  keyAllowed : Bool := true
  /-- The candidate of this level of brackets. -/
  candidate : Option Candidate := none
  /-- The candidates of the levels around it, the inner ones first. -/
  around : List (Option Candidate) := []

namespace Lexer

/-- Whether the lexer is within brackets. -/
def inFlow (l : Lexer) : Bool := !l.around.isEmpty

/-- The present column. -/
def column (l : Lexer) : Nat := l.cursor.mark.column

/-- Add a token that starts here and ends at another cursor. -/
def push (l : Lexer) (kind : TokenKind) (after : Cursor) : Lexer :=
  { l with tokens := l.tokens.push ⟨kind, l.cursor.mark, after.mark⟩, cursor := after }

/-- Add a token without extent. -/
def pushHere (l : Lexer) (kind : TokenKind) : Lexer := l.push kind l.cursor

/-- Add a token of some characters. -/
def pushSkip (l : Lexer) (kind : TokenKind) (n : Nat) : Lexer := l.push kind (l.cursor.skip n)

/-! ### Blanks and comments -/

/-- Past blanks, comments and ends of lines, and past the mark of the byte order
    that a line may begin with. A tab counts as a blank within brackets and where
    no key may start. -/
def skipBlanksOn (flow : Bool) : Nat → Cursor → Bool → Cursor × Bool
  | 0, c, keyAllowed => (c, keyAllowed)
  | n + 1, c, keyAllowed =>
    let c := if c.mark.column = 0 && c.next == '\ufeff' then c.skip 1 else c
    let c := c.skipWhile fun x => x == ' ' || ((flow || !keyAllowed) && x == '\t')
    let c := if c.next == '#' then c.skipWhile (fun x => !isBreakOrEnd x) else c
    if isBreak c.next then skipBlanksOn flow n c.skipBreak (keyAllowed || !flow)
    else (c, keyAllowed)

/-- Past everything before the next token. -/
def skipBlanks (l : Lexer) : Lexer :=
  let (cursor, keyAllowed) :=
    skipBlanksOn l.inFlow (l.cursor.rest.length + 1) l.cursor l.keyAllowed
  { l with cursor, keyAllowed }

/-! ### Candidates -/

/-- Whether a candidate can no longer become a key. -/
def Candidate.isStale (c : Candidate) (m : Mark) : Bool :=
  c.mark.line < m.line || c.mark.offset + 1024 < m.offset

/-- A candidate that is still one at a place; there is no answer if it had to
    become a key and did not. -/
def refresh (m : Mark) : Option Candidate → Option (Option Candidate)
  | some c => if Candidate.isStale c m then (if c.required then none else some none) else some c
  | none => some none

/-- Give up the candidates that are stale. -/
def refreshAll (l : Lexer) : Option Lexer := do
  let candidate ← refresh l.cursor.mark l.candidate
  let around ← l.around.mapM (refresh l.cursor.mark)
  some { l with candidate, around }

/-- Give up the candidate of this level. -/
def dropCandidate (l : Lexer) : Option Lexer :=
  if l.candidate.any (·.required) then none else some { l with candidate := none }

/-- The next word is a candidate, if a key may start here. -/
def markCandidate (l : Lexer) : Option Lexer :=
  if l.keyAllowed then do
    let required := !l.inFlow && l.indent == l.column
    let l ← l.dropCandidate
    some { l with candidate := some ⟨required, l.tokens.size, l.cursor.mark⟩ }
  else some l

/-! ### Indentation -/

/-- End the block collections that a column is left of. -/
def unroll (l : Lexer) (column : Int) : Lexer :=
  if l.inFlow then l
  else
    let ends (i : Int) : Bool := column < i
    let closed := ((l.indent :: l.outer).takeWhile ends).length
    let left := (l.indent :: l.outer).dropWhile ends
    let token : Token := ⟨.blockEnd, l.cursor.mark, l.cursor.mark⟩
    { l with
      tokens := l.tokens ++ Array.replicate closed token
      indent := left.headD (-1)
      outer := left.tail }

/-- Start a block collection at a column right of the present one, its token in
    front of the given number of tokens. -/
def roll (l : Lexer) (column : Nat) (kind : TokenKind) (number : Nat) (mark : Mark) : Lexer :=
  if !l.inFlow && l.indent < column then
    { l with
      tokens := l.tokens.insertIdxIfInBounds number ⟨kind, mark, mark⟩
      indent := column
      outer := l.indent :: l.outer }
  else l

/-- Start a block collection at the present place. -/
def rollHere (l : Lexer) (kind : TokenKind) : Lexer :=
  l.roll l.column kind l.tokens.size l.cursor.mark

/-! ### Tokens -/

/-- Past the end of the document. -/
def lexEnd (l : Lexer) : Option Lexer := do
  let m := l.cursor.mark
  let mark : Mark := if m.column = 0 then m else ⟨m.offset, m.line + 1, 0⟩
  let l := { l with cursor := { l.cursor with mark } }
  let l ← (l.unroll (-1)).dropCandidate
  some ({ l with keyAllowed := false }.pushHere .endOfStream)

/-- A line that belongs to no block. -/
def startOfLine (l : Lexer) : Option Lexer := do
  let l ← (l.unroll (-1)).dropCandidate
  some { l with keyAllowed := false }

/-- A directive. -/
def lexDirective (l : Lexer) : Option Lexer := do
  let l ← l.startOfLine
  let (directive, after) ← readDirective l.cursor
  some (l.push (.directive directive) after)

/-- The marker of a start or an end of a document. -/
def lexMarker (l : Lexer) (kind : TokenKind) : Option Lexer := do
  let l ← l.startOfLine
  some (l.pushSkip kind 3)

/-- An opening bracket. -/
def lexOpening (l : Lexer) (kind : TokenKind) : Option Lexer := do
  let l ← l.markCandidate
  let l := { l with around := l.candidate :: l.around, candidate := none, keyAllowed := true }
  some (l.pushSkip kind 1)

/-- A closing bracket. -/
def lexClosing (l : Lexer) (kind : TokenKind) : Option Lexer := do
  let l ← l.dropCandidate
  let l := match l.around with
    | [] => l
    | candidate :: around => { l with candidate, around }
  some ({ l with keyAllowed := false }.pushSkip kind 1)

/-- A comma. -/
def lexComma (l : Lexer) : Option Lexer := do
  let l ← l.dropCandidate
  some ({ l with keyAllowed := true }.pushSkip .flowEntry 1)

/-- A dash. -/
def lexDash (l : Lexer) : Option Lexer := do
  if !l.inFlow && !l.keyAllowed then none
  let l := l.rollHere .blockSequenceStart
  let l ← l.dropCandidate
  some ({ l with keyAllowed := true }.pushSkip .blockEntry 1)

/-- A question mark. -/
def lexQuestion (l : Lexer) : Option Lexer := do
  if !l.inFlow && !l.keyAllowed then none
  let l := l.rollHere .blockMappingStart
  let l ← l.dropCandidate
  some ({ l with keyAllowed := !l.inFlow }.pushSkip .key 1)

/-- A colon. -/
def lexColon (l : Lexer) : Option Lexer :=
  match l.candidate with
  | some c =>
    let tokens := l.tokens.insertIdxIfInBounds c.number ⟨.key, c.mark, c.mark⟩
    let l := { l with tokens }.roll c.mark.column .blockMappingStart c.number c.mark
    some ({ l with candidate := none, keyAllowed := false }.pushSkip .value 1)
  | none =>
    if !l.inFlow && !l.keyAllowed then none
    else
      let l := l.rollHere .blockMappingStart
      some ({ l with keyAllowed := !l.inFlow }.pushSkip .value 1)

/-- A word that may be a key: an anchor, an alias, a tag or a scalar. -/
def lexWord (l : Lexer) (read : Cursor → Option (TokenKind × Cursor)) : Option Lexer := do
  let l ← l.markCandidate
  let (kind, after) ← read l.cursor
  some ({ l with keyAllowed := false }.push kind after)

/-- A block scalar. -/
def lexBlock (l : Lexer) (folded : Bool) : Option Lexer := do
  let l ← l.dropCandidate
  let (text, after) ← readBlock folded l.indent l.cursor
  let style := if folded then ScalarStyle.folded else .literal
  some ({ l with keyAllowed := true }.push (.scalar style text) after)

/-- A quoted scalar. -/
def lexQuoted (l : Lexer) (single : Bool) : Option Lexer :=
  l.lexWord fun c => do
    let (text, after) ← readQuoted single c
    some (.scalar (if single then .singleQuoted else .doubleQuoted) text, after)

/-- A plain scalar. The next line, if it was reached, may start with a key. -/
def lexPlain (l : Lexer) : Option Lexer := do
  let l ← l.markCandidate
  let scalar ← readPlain l.inFlow (l.indent + 1).toNat l.cursor
  let token : Token := ⟨.scalar .plain scalar.text, l.cursor.mark, scalar.stop⟩
  some { l with tokens := l.tokens.push token, cursor := scalar.after, keyAllowed := scalar.broken }

/-- The characters that no plain scalar begins with, on their own. -/
def isIndicator (c : Char) : Bool := "-?:,[]{}#&*!|>'\"%@`".toList.contains c

/-- Whether a plain scalar begins with a character before another one. -/
def startsPlain (flow : Bool) (c after : Char) : Bool :=
  (!isGap c && !isIndicator c) || (c == '-' && !isBlank after) ||
  (!flow && (c == '?' || c == ':') && !isGap after)

/-- Add the token that begins at the cursor. -/
def lexHere (l : Lexer) : Option Lexer :=
  let c := l.cursor.next
  let after := l.cursor.ahead 1
  if c == nul then l.lexEnd
  else if l.column = 0 && c == '%' then l.lexDirective
  else if l.cursor.atMarker '-' then l.lexMarker .documentStart
  else if l.cursor.atMarker '.' then l.lexMarker .documentEnd
  else if c == '[' then l.lexOpening .flowSequenceStart
  else if c == '{' then l.lexOpening .flowMappingStart
  else if c == ']' then l.lexClosing .flowSequenceEnd
  else if c == '}' then l.lexClosing .flowMappingEnd
  else if c == ',' then l.lexComma
  else if c == '-' && isGap after then l.lexDash
  else if c == '?' && (l.inFlow || isGap after) then l.lexQuestion
  else if c == ':' && (l.inFlow || isGap after) then l.lexColon
  else if c == '*' then l.lexWord fun c => (readAnchor c).map fun (name, d) => (.alias name, d)
  else if c == '&' then l.lexWord fun c => (readAnchor c).map fun (name, d) => (.anchor name, d)
  else if c == '!' then l.lexWord fun c => (readTag l.inFlow c).map fun (tag, d) => (.tag tag, d)
  else if c == '|' && !l.inFlow then l.lexBlock false
  else if c == '>' && !l.inFlow then l.lexBlock true
  else if c == '\'' then l.lexQuoted true
  else if c == '"' then l.lexQuoted false
  else if startsPlain l.inFlow c after then l.lexPlain
  else none

/-- Add the next token. -/
def lexNext (l : Lexer) : Option Lexer := do
  let l ← l.skipBlanks.refreshAll
  (l.unroll l.column).lexHere

/-- Add all tokens. -/
def lexAll : Nat → Lexer → Option (Array Token)
  | 0, _ => none
  | n + 1, l => do
    let l ← l.lexNext
    if (l.tokens.back?.map Token.kind) == some .endOfStream then some l.tokens else lexAll n l

end Lexer

/-- The tokens of a text, if it can be cut into some. -/
def tokens? (text : List Char) : Option (List Token) :=
  if text.all isReadable then
    (Lexer.lexAll (text.length + 1) { cursor := ⟨text, {}⟩ }).map Array.toList
  else none

end Turnstile.Yaml
