/-!
# Text for terminals

A terminal does not show every character that is sent to it. Control characters
are commands, and so are the sequences that begin with an escape:

* an escape, some characters from the space to the slash, and one more character;
* a *control sequence*: an escape, `[`, and all up to a character from `@` to `~`;
* a *string*: an escape, one of `P`, `X`, `^`, `_` and `]`, and all up to the next
  escape. One after `]`, a title, also ends with a bell.

What is sent where commands have no place is the text without them (`visible`).
Tabs, ends of lines and form feeds are controls that stay; except in a string,
they end a sequence that is not complete.
-/

namespace Turnstile.Text.Terminal

/-- What a terminal is about to take a character for. -/
inductive Mode
  | text
  /-- The character after an escape. -/
  | escape
  /-- The end of a sequence with characters in between. -/
  | intermediate
  | controlSequence
  /-- The parameters before the body of a device string. -/
  | parameters
  | string
  | title
deriving DecidableEq, Repr

/-- The controls that move on in a text. -/
def isMove (c : Char) : Bool := c == '\t' || c == '\n' || c == '\x0c' || c == '\r'

/-- Whether a character of a text is shown. -/
def isShown (c : Char) : Bool := (' ' ≤ c && c != '\x7f') || isMove c

/-- A character that may end a control sequence. -/
def isFinal (c : Char) : Bool := '@' ≤ c && c ≤ '~'

/-- A character that may stand between an escape and the end of its sequence. -/
def isBetween (c : Char) : Bool := ' ' ≤ c && c ≤ '/'

/-- Whether the byte 9C, which also ends a string, is part of a character. -/
def holdsTerminator (c : Char) : Bool := (String.utf8EncodeChar c).contains 0x9c

/-- What a character after an escape begins or ends. -/
def Mode.afterEscape (c : Char) : Mode :=
  if c == '[' then .controlSequence
  else if c == ']' then .title
  else if c == 'P' then .parameters
  else if c == 'X' || c == '^' || c == '_' then .string
  else if isBetween c then .intermediate
  else if '0' ≤ c && c ≤ '~' then .text
  else .escape

/-- What a terminal takes the next character for. -/
def Mode.next (m : Mode) (c : Char) : Mode :=
  if c == '\x1b' then .escape
  else if c == '\x18' || c == '\x1a' then .text
  else
    match m with
    | .text => .text
    | .escape => if isMove c then .text else afterEscape c
    | .intermediate => if isMove c || ('0' ≤ c && c ≤ '~') then .text else .intermediate
    | .controlSequence => if isMove c || isFinal c then .text else .controlSequence
    | .parameters => if isFinal c then .string else .parameters
    | .string => if holdsTerminator c then .text else .string
    | .title => if c == '\x07' then .text else .title

/-- Whether a terminal shows a character. -/
def Mode.shows (m : Mode) (c : Char) : Bool :=
  match m with
  | .text => isShown c
  | .escape | .intermediate | .controlSequence => isMove c
  | .parameters | .string | .title => false

/-- What is visible of a text that begins in a mode. -/
def visibleFrom (m : Mode) : List Char → List Char
  | [] => []
  | c :: rest =>
    let visible := visibleFrom (m.next c) rest
    if m.shows c then c :: visible else visible

/-- What is visible of a text. -/
def visible (s : String) : String := String.ofList (visibleFrom .text s.toList)

theorem isShown_of_shows {m : Mode} {c : Char} (h : m.shows c) : isShown c := by
  cases m <;> simp_all [Mode.shows, isShown]

theorem isShown_of_mem_visibleFrom {m : Mode} {s : List Char} {c : Char}
    (h : c ∈ visibleFrom m s) : isShown c := by
  induction s generalizing m with
  | nil => simp [visibleFrom] at h
  | cons d rest ih =>
    rw [visibleFrom] at h
    split at h
    · rcases List.mem_cons.1 h with rfl | h
      · exact isShown_of_shows ‹_›
      · exact ih h
    · exact ih h

theorem visibleFrom_text_of_shown {s : List Char} (h : ∀ c ∈ s, isShown c) :
    visibleFrom .text s = s := by
  induction s with
  | nil => rfl
  | cons c rest ih =>
    have shown := h c (List.mem_cons_self ..)
    have stays : Mode.text.next c = .text := by
      have : c ≠ '\x1b' := by rintro rfl; simp [isShown, isMove] at shown
      simp [Mode.next, this]
    rw [visibleFrom, stays, ih fun d m => h d (List.mem_cons_of_mem _ m)]
    simp [Mode.shows, shown]

/-- Nothing is left to leave out of a visible text. -/
theorem visible_visible (s : String) : visible (visible s) = visible s := by
  unfold visible
  rw [String.toList_ofList, visibleFrom_text_of_shown fun _ => isShown_of_mem_visibleFrom]

end Turnstile.Text.Terminal
