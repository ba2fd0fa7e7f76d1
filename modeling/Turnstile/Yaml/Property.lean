import Turnstile.Text.Numeral
import Turnstile.Yaml.Cursor

/-!
# Anchors, tags and directives

The readers of what stands beside the content of a document: the names of anchors
and aliases, the tags of nodes, and the directives before a document.

A tag is a *handle*, which stands for the start of a longer name, and a suffix.
Characters of the suffix may be given by the hexadecimal values of their bytes,
each after a percent sign; those beyond ASCII matter to nobody here, and are all
read as the replacement character. A NUL ends a suffix early.
-/

namespace Turnstile.Yaml

/-! ### Anchors -/

/-- The characters that may follow the name of an anchor. -/
def endsAnchor (c : Char) : Bool :=
  isGap c || c == '?' || c == ':' || c == ',' || c == ']' || c == '}' || c == '%' || c == '@' ||
  c == '`'

/-- Read the name of an anchor or an alias, from its indicator. -/
def readAnchor (c : Cursor) : Option (List Char × Cursor) :=
  let c := c.skip 1
  let name := c.takeWhile isNameChar
  let c := c.skip name.length
  if !name.isEmpty && endsAnchor c.next then some (name, c) else none

/-! ### Tags -/

/-- A tag as it is written. -/
structure RawTag where
  /-- What stands for the start of the name; empty if the suffix is all. -/
  handle : List Char
  suffix : List Char
deriving DecidableEq, Repr

/-- The characters of a tag, in angle brackets also those that would end it
    otherwise. -/
def isTagChar (bracketed : Bool) (c : Char) : Bool :=
  isNameChar c || ";/?:@&=+$.%!~*'()".toList.contains c || (bracketed && ",[]".toList.contains c)

/-- The number of bytes of a character that begins with a byte. -/
def encodedWidth? (lead : Nat) : Option Nat :=
  if lead < 0x80 then some 1
  else if 0xc0 ≤ lead && lead < 0xe0 then some 2
  else if 0xe0 ≤ lead && lead < 0xf0 then some 3
  else if 0xf0 ≤ lead && lead < 0xf8 then some 4
  else none

/-- Read a byte given after a percent sign. -/
def readByte (c : Cursor) : Option (Nat × Cursor) :=
  match c.rest with
  | '%' :: high :: low :: _ => do
    let h ← Numeral.digit? 16 high
    let l ← Numeral.digit? 16 low
    some (h * 16 + l, c.skip 3)
  | _ => none

/-- Read so many further bytes of a character. -/
def readTrail : Nat → Cursor → Option Cursor
  | 0, c => some c
  | n + 1, c => do
    let (byte, c) ← readByte c
    if 0x80 ≤ byte && byte < 0xc0 then readTrail n c else none

/-- Read a character given by its bytes. -/
def readEncoded (c : Cursor) : Option (Char × Cursor) := do
  let (lead, c) ← readByte c
  let width ← encodedWidth? lead
  let c ← readTrail (width - 1) c
  some (if width = 1 then Char.ofNat lead else '\ufffd', c)

/-- Read the characters of a tag. -/
def readTagChars (bracketed : Bool) : Nat → Cursor → Option (List Char × Cursor)
  | 0, _ => none
  | n + 1, c =>
    if isTagChar bracketed c.next then do
      let (x, c) ← if c.next == '%' then readEncoded c else some (c.next, c.skip 1)
      let (more, c) ← readTagChars bracketed n c
      some (x :: more, c)
    else some ([], c)

/-- Read the rest of a tag that begins with given characters. There must be some
    of either. -/
def readSuffix (bracketed : Bool) (head : List Char) (c : Cursor) :
    Option (List Char × Cursor) := do
  let (more, d) ← readTagChars bracketed (c.rest.length + 1) c
  if head.isEmpty && more.isEmpty then none
  else some ((head.drop 1 ++ more).takeWhile (· != nul), d)

/-- Read a tag handle. In a directive it must be complete. -/
def readHandle (directive : Bool) (c : Cursor) : Option (List Char × Cursor) :=
  if c.next == '!' then
    let name := (c.skip 1).takeWhile isNameChar
    let c := c.skip (1 + name.length)
    if c.next == '!' then some ('!' :: name ++ ['!'], c.skip 1)
    else if directive && !name.isEmpty then none
    else some ('!' :: name, c)
  else none

/-- Whether a handle ends as it begins. -/
def isNamedHandle (handle : List Char) : Bool :=
  handle.length > 1 && handle.getLast? == some '!'

/-- Read a tag without what must follow it. -/
def readTagName (c : Cursor) : Option (RawTag × Cursor) :=
  if c.ahead 1 == '<' then do
    let (suffix, c) ← readSuffix true [] (c.skip 2)
    if c.next == '>' then some (⟨[], suffix⟩, c.skip 1) else none
  else do
    let (handle, c) ← readHandle false c
    if isNamedHandle handle then
      let (suffix, c) ← readSuffix false [] c
      some (⟨handle, suffix⟩, c)
    else
      let (suffix, c) ← readSuffix false handle c
      some (if suffix.isEmpty then ⟨[], ['!']⟩ else ⟨['!'], suffix⟩, c)

/-- Read a tag. A blank or an end of line must follow it, or a comma in a flow
    collection. -/
def readTag (flow : Bool) (c : Cursor) : Option (RawTag × Cursor) := do
  let (tag, c) ← readTagName c
  if isGap c.next || (flow && c.next == ',') then some (tag, c) else none

/-! ### Directives -/

/-- What is said before a document. -/
inductive Directive
  /-- The version of the language. -/
  | version (major minor : Nat)
  /-- What a tag handle stands for. -/
  | tag (handle meaning : List Char)
deriving DecidableEq, Repr

/-- Read a number of at most nine digits. -/
def readVersionNumber (c : Cursor) : Option (Nat × Cursor) :=
  let digits := c.takeWhile isDigit
  if digits.length ≤ 9 then (Numeral.read? 10 digits).map fun n => (n, c.skip digits.length)
  else none

/-- Read the value of a version directive. -/
def readVersion (c : Cursor) : Option (Directive × Cursor) := do
  let (major, c) ← readVersionNumber (c.skipWhile isBlank)
  if c.next == '.' then
    let (minor, c) ← readVersionNumber (c.skip 1)
    some (.version major minor, c)
  else none

/-- Read the value of a tag directive. -/
def readTagDirective (c : Cursor) : Option (Directive × Cursor) := do
  let (handle, c) ← readHandle true (c.skipWhile isBlank)
  if isBlank c.next then
    let (meaning, c) ← readSuffix true [] (c.skipWhile isBlank)
    if isGap c.next then some (.tag handle meaning, c) else none
  else none

/-- Read a directive, with its line. -/
def readDirective (c : Cursor) : Option (Directive × Cursor) := do
  let c := c.skip 1
  let name := c.takeWhile isNameChar
  let c := c.skip name.length
  if !isGap c.next then none
  let (directive, c) ←
    if name = "YAML".toList then readVersion c
    else if name = "TAG".toList then readTagDirective c
    else none
  some (directive, ← c.skipLineEnd)

end Turnstile.Yaml
