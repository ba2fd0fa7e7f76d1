import Turnstile.Binary64.Shortest
import Turnstile.Text.Quoted
import Turnstile.Yaml.Document

/-!
# What scalars mean

A plain scalar may stand for nothing, a truth value, an integer or a number of
binary floating point; all others are text. Integers are decimal, without
needless zeros in front, or follow `0x`, `0o` or `0b`; they mean what they say up
to 128 bits. A tag can ask for one of these kinds, in any style, or for plain
text.

What is found where something else was expected is described in error messages
(`Finding.text`).
-/

namespace Turnstile.Yaml

/-! ### Numbers -/

/-- Whether a text begins with a sign. -/
def startsWithSign : List Char → Bool
  | '+' :: _ | '-' :: _ => true
  | _ => false

/-- A text without the plus sign in front of it. -/
def withoutPlus : List Char → List Char
  | '+' :: rest => rest
  | text => text

/-- Whether a text, apart from its sign, is a zero and more digits. -/
def hasNeedlessZero (text : List Char) : Bool :=
  let digits := if startsWithSign text then text.tail else text
  digits.length > 1 && digits.head? == some '0' && digits.all isDigit

/-- The value of a numeral below a limit. -/
def readBelow? (limit base : Nat) (digits : List Char) : Option Nat :=
  (Numeral.read? base digits).filter (· < limit)

/-- The integer that a text without minus sign stands for, below a limit. -/
def unsigned? (limit : Nat) (text : List Char) : Option Nat :=
  match withoutPlus text with
  | '0' :: 'x' :: digits => readBelow? limit 16 digits
  | '0' :: 'o' :: digits => readBelow? limit 8 digits
  | '0' :: 'b' :: digits => readBelow? limit 2 digits
  | digits => if hasNeedlessZero text then none else readBelow? limit 10 digits

/-- The size of the integer that a text with a minus sign stands for, up to a
    limit. -/
def negated? (limit : Nat) (text : List Char) : Option Nat :=
  match text with
  | '-' :: '0' :: 'x' :: digits => readBelow? (limit + 1) 16 digits
  | '-' :: '0' :: 'o' :: digits => readBelow? (limit + 1) 8 digits
  | '-' :: '0' :: 'b' :: digits => readBelow? (limit + 1) 2 digits
  | '-' :: digits => if hasNeedlessZero text then none else readBelow? (limit + 1) 10 digits
  | _ => none

/-- The exponent after the digits of a number; none at all is zero. -/
def exponent? : List Char → Option Int
  | [] => some 0
  | e :: rest =>
    if e == 'e' || e == 'E' then
      let digits := if startsWithSign rest then rest.tail else rest
      (Numeral.read? 10 digits).map fun n => if rest.head? == some '-' then -(n : Int) else n
    else none

/-- The finite number that a decimal with an optional point and exponent stands
    for. -/
def decimal? (text : List Char) : Option Binary64 := do
  let body := if startsWithSign text then text.tail else text
  let whole := body.takeWhile isDigit
  let rest := body.dropWhile isDigit
  let hasPoint := rest.head? == some '.'
  let part := if hasPoint then rest.tail.takeWhile isDigit else []
  let rest := if hasPoint then rest.tail.dropWhile isDigit else rest
  let digits ← Numeral.read? 10 (whole ++ part)
  let exponent ← exponent? rest
  let x := Binary64.ofDecimal (text.head? == some '-') digits (exponent - part.length)
  if x.isFinite then some x else none

/-- The number of binary floating point that a text stands for. -/
def floating? (text : List Char) : Option Binary64 :=
  let body := withoutPlus text
  if text.head? == some '+' && startsWithSign body then none
  else if [".inf", ".Inf", ".INF"].contains (String.ofList body) then some (.infinite false)
  else if ["-.inf", "-.Inf", "-.INF"].contains (String.ofList text) then some (.infinite true)
  else if [".nan", ".NaN", ".NAN"].contains (String.ofList text) then some .notANumber
  else decimal? body

/-! ### Meanings -/

/-- What a scalar means. -/
inductive Meaning
  | nothing
  | boolean (b : Bool)
  /-- An integer of sixty-four bits. -/
  | integer (n : Int)
  /-- A larger one, of 128 bits. -/
  | wideInteger (n : Int)
  | floating (x : Binary64)
  | text (s : List Char)
deriving DecidableEq, Repr

/-- Whether a text stands for nothing. -/
def isNull (text : List Char) : Bool :=
  ["null", "Null", "NULL", "~"].contains (String.ofList text)

/-- The truth value that a text stands for. -/
def boolean? (text : List Char) : Option Bool :=
  if ["true", "True", "TRUE"].contains (String.ofList text) then some true
  else if ["false", "False", "FALSE"].contains (String.ofList text) then some false
  else none

/-- The integer that a text stands for. -/
def integer? (text : List Char) : Option Meaning :=
  match unsigned? UInt64.size text, negated? (UInt64.size / 2) text with
  | some n, _ => some (.integer n)
  | none, some n => some (.integer (-n))
  | none, none =>
    let wide := UInt64.size * UInt64.size
    match unsigned? wide text, negated? (wide / 2) text with
    | some n, _ => some (.wideInteger n)
    | none, some n => some (.wideInteger (-n))
    | none, none => none

/-- What a plain scalar without tag means. -/
def plainMeaning (text : List Char) : Meaning :=
  if text.isEmpty || isNull text then .nothing
  else
    match boolean? text, integer? text with
    | some b, _ => .boolean b
    | none, some meaning => meaning
    | none, none =>
      if hasNeedlessZero text then .text text
      else
        match floating? text with
        | some x => .floating x
        | none => .text text

/-! ### Findings -/

/-- What is found in a document where something else was expected. -/
inductive Finding
  | scalar (meaning : Meaning)
  | sequence
  | mapping
deriving DecidableEq, Repr

/-- The description of what a scalar means. -/
def Meaning.describe : Meaning → String
  | nothing => "unit value"
  | boolean b => "boolean `" ++ (if b then "true" else "false") ++ "`"
  | integer n => "integer `" ++ Numeral.signedText n ++ "`"
  | wideInteger n =>
    "integer `" ++ Numeral.signedText n ++ "` as " ++ (if n < 0 then "i128" else "u128")
  | floating x => "floating point `" ++ x.text ++ "`"
  | text s => "string " ++ Text.quoted (String.ofList s)

/-- The description of what is found. -/
def Finding.describe : Finding → String
  | scalar meaning => meaning.describe
  | sequence => "sequence"
  | mapping => "map"

/-- The tags that ask for a kind of scalar. -/
inductive CoreTag
  | boolean
  | integer
  | floating
  | null
deriving DecidableEq, Repr

/-- The kind that a tag asks for. -/
def coreTag? (tag : List Char) : Option CoreTag :=
  match String.ofList tag with
  | "tag:yaml.org,2002:bool" => some .boolean
  | "tag:yaml.org,2002:int" => some .integer
  | "tag:yaml.org,2002:float" => some .floating
  | "tag:yaml.org,2002:null" => some .null
  | _ => none

/-- What a tag that asks for a kind expects. -/
def CoreTag.expectation : CoreTag → String
  | boolean => "a boolean"
  | integer => "an integer"
  | floating => "a float"
  | null => "null"

/-- What a text means as the kind that a tag asks for. -/
def CoreTag.meaning? (tag : CoreTag) (text : List Char) : Option Meaning :=
  match tag with
  | boolean => (boolean? text).map .boolean
  | integer => integer? text
  | floating => (floating? text).map .floating
  | null => if isNull text then some .nothing else none

/-- What a scalar means; if it does not have the kind that its tag asks for, the
    tag. -/
def Scalar.meaning (s : Scalar) : Except CoreTag Meaning :=
  match s.tag with
  | none => .ok (if s.style = .plain then plainMeaning s.text else .text s.text)
  | some tag =>
    match coreTag? tag with
    | some core =>
      match core.meaning? s.text with
      | some meaning => .ok meaning
      | none => .error core
    | none =>
      if tag.head? == some '!' && s.style = .plain then .ok (plainMeaning s.text)
      else .ok (.text s.text)

/-- The integer of sixty-four bits that a scalar is read as: a plain one whatever
    its tag, a literal block if its tag asks for an integer. -/
def Scalar.word? (s : Scalar) : Option UInt64 :=
  if s.style = .plain || (s.style = .literal && s.tag.bind coreTag? == some .integer) then
    (unsigned? UInt64.size s.text).map UInt64.ofNat
  else none

end Turnstile.Yaml
