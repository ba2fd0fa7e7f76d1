import Turnstile.Text.Alphanumeric
import Turnstile.Text.Numeral

/-!
# Patterns

A value in a filter of the log is a number or a regular expression. As no notice
has values of the kind that filters look at, all that counts is whether a text is
well formed:

* groups are closed, and none looks around;
* a repetition has something before it. One with a count never is well formed, as
  a value ends before the brace that would close the count;
* classes are closed, and their ranges do not run backwards;
* an escape is of a character that has one. Properties of characters, borders of
  words and text in any case need tables and are not to be had.
-/

namespace Turnstile.CommandLine.Pattern

/-! ### Escapes -/

/-- The character of a code given in hexadecimal digits. -/
def charOfHex? (digits : List Char) : Option Char :=
  (Numeral.read? 16 digits).bind fun n => if n.isValidChar then some (.ofNat n) else none

/-- The number of hexadecimal digits after the letter of an escape. -/
def hexWidth? : Char → Option Nat
  | 'x' => some 2
  | 'u' => some 4
  | 'U' => some 8
  | _ => none

/-- The control character that a letter stands for after a backslash. -/
def control? : Char → Option Char
  | 'a' => some '\x07'
  | 'f' => some '\x0c'
  | 't' => some '\t'
  | 'n' => some '\n'
  | 'r' => some '\r'
  | 'v' => some '\x0b'
  | _ => none

/-- Whether a character stands for itself after a backslash. -/
def isEscapable (c : Char) : Bool :=
  c.toNat < 128 && !c.isAlphanum && c != '<' && c != '>'

/-- The character that is written by an escape, from after its backslash, and the
    rest. -/
def escaped? : List Char → Option (Char × List Char)
  | [] => none
  | c :: rest =>
    match hexWidth? c with
    | some width =>
      if width ≤ rest.length then
        (charOfHex? (rest.take width)).map fun x => (x, rest.drop width)
      else none
    | none => ((control? c).or (if isEscapable c then some c else none)).map fun x => (x, rest)

/-! ### Classes -/

/-- The names of the classes that are written between colons. -/
def classNames : List String := [
  "alnum", "alpha", "ascii", "blank", "cntrl", "digit", "graph", "lower", "print", "punct",
  "space", "upper", "word", "xdigit"]

/-- The rest of a text that begins, from after a bracket, with the name of a class
    between colons. -/
def afterClassName? : List Char → Option (List Char)
  | ':' :: rest =>
    let rest := if rest.head? == some '^' then rest.tail else rest
    match rest.dropWhile (· != ':') with
    | ':' :: ']' :: after =>
      if classNames.contains (String.ofList (rest.takeWhile (· != ':'))) then some after else none
    | _ => none
  | _ => none

/-- The rest of a class from after its bracket: less a caret, and less the dashes
    or the bracket that stand for themselves there. -/
def afterOpening (text : List Char) : List Char :=
  let text := if text.head? == some '^' then text.tail else text
  match text with
  | ']' :: rest => rest
  | _ => text.dropWhile (· == '-')

/-- A character of a class, as it stands or escaped, and the rest. -/
def classChar? : List Char → Option (Char × List Char)
  | [] => none
  | '\\' :: rest => escaped? rest
  | c :: rest => some (c, rest)

/-- A character or a range of a class; the rest. -/
def afterRange? (text : List Char) : Option (List Char) := do
  let (first, rest) ← classChar? text
  match rest with
  | '-' :: ']' :: _ | '-' :: '-' :: _ => some rest
  | '-' :: rest =>
    let (last, rest) ← classChar? rest
    if first ≤ last then some rest else none
  | _ => some rest

/-- Whether two equal characters in a class stand between its operands. -/
def isOperator (c : Char) : Bool := c == '&' || c == '-' || c == '~'

/-- The rest of a text after so many classes within each other, which have begun.
    The first argument bounds the length of the text. -/
def afterClasses? : Nat → Nat → List Char → Option (List Char)
  | 0, _, _ => none
  | _ + 1, 0, text => some text
  | n + 1, depth + 1, text =>
    match text with
    | [] => none
    | ']' :: rest => afterClasses? n depth rest
    | '[' :: rest =>
      match afterClassName? rest with
      | some after => afterClasses? n (depth + 1) after
      | none => afterClasses? n (depth + 2) (afterOpening rest)
    | c :: rest =>
      if isOperator c && rest.head? == some c then afterClasses? n (depth + 1) rest.tail
      else (afterRange? text).bind fun after => afterClasses? n (depth + 1) after

/-! ### Groups -/

/-- Whether a text is the name of a group. -/
def isGroupName : List Char → Bool
  | [] => false
  | c :: rest =>
    (c == '_' || (Text.isAlphanumeric c && !c.isDigit)) &&
    rest.all fun d => Text.isAlphanumeric d || d == '_' || d == '.' || d == '[' || d == ']'

/-- Whether a text switches modes of a pattern. -/
def isModes (modes : List Char) : Bool :=
  modes.all "imsUuRx-".toList.contains && modes.Nodup && modes.getLast? != some '-' &&
  !(modes.takeWhile (· != '-')).contains 'i'

/-- The rest of a text from after the parenthesis that opens a group, and whether
    the group has contents. -/
def afterGroup? (text : List Char) : Option (Bool × List Char) :=
  let named (text : List Char) : Option (Bool × List Char) :=
    match text.dropWhile (· != '>') with
    | [] => none
    | _ :: rest => if isGroupName (text.takeWhile (· != '>')) then some (true, rest) else none
  match text with
  | '?' :: 'P' :: '<' :: rest => named rest
  | '?' :: '<' :: rest => named rest
  | '?' :: rest =>
    let inModes (c : Char) : Bool := c != ':' && c != ')'
    let modes := rest.takeWhile inModes
    match rest.dropWhile inModes with
    | ':' :: rest => if isModes modes then some (true, rest) else none
    | ')' :: rest => if isModes modes && !modes.isEmpty then some (false, rest) else none
    | _ => none
  | rest => some (true, rest)

/-! ### Patterns -/

/-- Whether a text, within so many groups, is the rest of a pattern; it may begin
    with a repetition or not. The first argument bounds its length. -/
def isRest : Nat → Nat → Bool → List Char → Bool
  | 0, _, _, _ => false
  | _ + 1, depth, _, [] => depth == 0
  | n + 1, depth, repeatable, c :: rest =>
    match c with
    | '(' =>
      match afterGroup? rest with
      | some (true, rest) => isRest n (depth + 1) false rest
      | some (false, rest) => isRest n depth false rest
      | none => false
    | ')' => depth != 0 && isRest n (depth - 1) true rest
    | '|' => isRest n depth false rest
    | '?' | '*' | '+' =>
      repeatable && isRest n depth true (if rest.head? == some '?' then rest.tail else rest)
    | '\x7b' => false
    | '[' =>
      match afterClasses? (rest.length + 1) 1 (afterOpening rest) with
      | some rest => isRest n depth true rest
      | none => false
    | '\\' =>
      match rest with
      | 'A' :: rest | 'z' :: rest => isRest n depth true rest
      | _ =>
        match escaped? rest with
        | some (_, rest) => isRest n depth true rest
        | none => false
    | _ => isRest n depth true rest

/-- Whether a text is a regular expression. -/
def isRegular (text : List Char) : Bool := isRest (text.length + 1) 0 false text

/-- Whether a text is a decimal number without sign: digits, perhaps with a point
    among them and an exponent after them. -/
def isDecimal (text : List Char) : Bool :=
  let isMantissa (c : Char) : Bool := c.isDigit || c == '.'
  let mantissa := text.takeWhile isMantissa
  let exponent := text.dropWhile isMantissa
  mantissa.any Char.isDigit && mantissa.countP (· == '.') ≤ 1 &&
  match exponent with
  | [] => true
  | e :: '+' :: digits | e :: '-' :: digits => isExponent e digits
  | e :: digits => isExponent e digits
where
  /-- Whether a letter and some digits are an exponent without sign. -/
  isExponent (e : Char) (digits : List Char) : Bool :=
    (e == 'e' || e == 'E') && !digits.isEmpty && digits.all Char.isDigit

/-- Whether a text is a number with a plus sign, which is no regular expression. -/
def isPlusNumber : List Char → Bool
  | '+' :: rest =>
    isDecimal rest ||
    ["inf", "infinity", "nan"].contains (String.ofList (rest.map Char.toLower))
  | _ => false

end Pattern

/-- Whether a text can be the value of a field in a filter. -/
def isValuePattern (text : List Char) : Bool :=
  Pattern.isPlusNumber text || Pattern.isRegular text

end Turnstile.CommandLine
