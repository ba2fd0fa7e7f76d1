import Turnstile.CommandLine.Pattern
import Turnstile.Notice
import Turnstile.Text.Alphanumeric

/-!
# Log filters

Which notices of a run are logged is said by a list of directives, separated by
commas. A directive concerns the notices from some part of the program, whose
name it begins with, or those that have some field, which it puts into brackets
and braces, and says after an equals sign up to which level they are logged:
`saltlimit::config=debug`, `[{key}]=trace`. Without a level all of them are. A
level alone, as in `info`, concerns all notices.

Several directives may concern a notice. Then the most specific one counts: the
one with the longest name, then the one with a field; of two directives for the
same notices it is the later one. A notice that no directive concerns is not
logged.

Brackets may also hold the name of a stretch of a run, and braces the value of a
field. Such directives are about the notices of a stretch; as a run has none, they
concern no notice.

A list without directives lets errors through. Without a list, and with one that
has a mistake in it, all notices are logged up to the level `info`.
-/

namespace Turnstile.CommandLine

/-! ### Rules -/

/-- How far notices are logged: up to a level, or not at all. -/
abbrev Limit := Option Level

/-- What a directive says of notices. -/
structure Rule where
  /-- How the names of the parts of the program begin that it is about. -/
  source : Option String := none
  /-- The field that it is about. -/
  field : Option String := none
  limit : Limit
deriving DecidableEq, Repr

namespace Rule

/-- Whether a rule is about a notice. -/
def concerns (r : Rule) (n : Notice) : Bool :=
  r.source.all (fun s => s.toList.isPrefixOf n.source.toList) && r.field.all n.fieldNames.contains

/-- Whether a rule lets through the notices that it is about, of a level. -/
def permits (r : Rule) (l : Level) : Bool := r.limit.any fun limit => l.rank ≤ limit.rank

/-- How specific the name of a rule is. -/
def nameRank (r : Rule) : Nat := r.source.elim 0 fun s => s.length + 1

/-- Whether a rule does not count where a later one also concerns a notice. -/
def yieldsTo (r later : Rule) : Bool :=
  r.nameRank < later.nameRank ||
  (r.nameRank == later.nameRank && (compare r.field later.field).isLE)

end Rule

/-- What decides on the notices that are logged. -/
structure LogFilter where
  /-- The rules, in the order in which they were given. -/
  rules : List Rule
deriving DecidableEq, Repr

namespace LogFilter

/-- The rule that counts for a notice. -/
def ruleFor? (f : LogFilter) (n : Notice) : Option Rule :=
  (f.rules.filter (·.concerns n)).foldl
    (fun best r => if best.all (·.yieldsTo r) then some r else best) none

/-- Whether a notice is logged. -/
def allows (f : LogFilter) (n : Notice) : Bool := (f.ruleFor? n).any (·.permits n.level)

/-- The filter that logs all notices up to a level. -/
def upTo (l : Level) : LogFilter := ⟨[{ limit := some l }]⟩

end LogFilter

/-! ### Directives -/

/-- The limit for a number. -/
def Limit.ofNumber? : Nat → Option Limit
  | 0 => some none
  | 1 => some (some .error)
  | 2 => some (some .warn)
  | 3 => some (some .info)
  | 4 => some (some .debug)
  | 5 => some (some .trace)
  | _ => none

/-- The limit for a name in lower case. -/
def Limit.ofName? : String → Option Limit
  | "off" => some none
  | "error" => some (some .error)
  | "warn" => some (some .warn)
  | "info" => some (some .info)
  | "debug" => some (some .debug)
  | "trace" => some (some .trace)
  | _ => none

/-- A numeral without the plus sign that may stand before it. -/
def withoutPlus : List Char → List Char
  | '+' :: digits => digits
  | digits => digits

/-- The limit for a level, given by its number or by its name in any case. -/
def Limit.ofText? (text : List Char) : Option Limit :=
  match (Numeral.read? 10 (withoutPlus text)).bind Limit.ofNumber? with
  | some limit => some limit
  | none => Limit.ofName? (String.ofList (text.map Char.toLower))

/-- What brackets hold. -/
structure Brackets where
  /-- The name of a stretch of a run. -/
  stretch : List Char
  /-- What is in braces. -/
  braces : Option (List Char)
deriving DecidableEq, Repr

/-- A directive, taken apart. -/
structure Directive where
  /-- What it begins with. -/
  name : List Char
  brackets : Option Brackets := none
  /-- What is after the equals sign. -/
  level : Option (List Char) := none
deriving DecidableEq, Repr

namespace Directive

/-- Whether a name may begin with a character. -/
def startsName (c : Char) : Bool := Text.isAlphanumeric c || c == '-' || c == ':' || c == '_'

/-- Take apart what follows an opening bracket: the brackets, and what is after
    them. -/
def brackets? (text : List Char) : Option (Brackets × List Char) :=
  let inStretch (c : Char) : Bool := c != ']' && c != '\x7b'
  let stretch := text.takeWhile inStretch
  match text.dropWhile inStretch with
  | [] => none
  | ']' :: rest => some (⟨stretch, none⟩, rest)
  | _ :: rest =>
    match rest.dropWhile (· != '\x7d') with
    | _ :: ']' :: after => some (⟨stretch, some (rest.takeWhile (· != '\x7d'))⟩, after)
    | _ => none

/-- Take apart what follows the brackets: what is after an equals sign. -/
def levelAfter? : List Char → Option (Option (List Char))
  | '=' :: level => some (some level)
  | rest => if rest.all Text.isWhite then some none else none

/-- Take a directive apart, from its first character that is not white. -/
def ofText? (text : List Char) : Option Directive :=
  let inName (c : Char) : Bool := c != '=' && c != '['
  let name := text.takeWhile inName
  if name.head?.all startsName then
    match text.dropWhile inName with
    | [] => if name.isEmpty then none else some { name }
    | '[' :: rest => do
      let (brackets, rest) ← brackets? rest
      some { name, brackets := some brackets, level := ← levelAfter? rest }
    | _ :: level => if name.isEmpty then none else some { name, level := some level }
  else none

/-- The name of the part of the program that a directive is about. -/
def source? (d : Directive) : Option String :=
  if d.name.isEmpty then none else some (String.ofList d.name)

/-- The limit of a directive, or none if it is a mistake. -/
def limit? (d : Directive) : Option Limit :=
  match d.level with
  | none | some [] => some (some .trace)
  | some level => Limit.ofText? level

/-- The value of a field that braces hold. -/
def value? (braces : List Char) : Option (List Char) :=
  match braces.dropWhile (· != '=') with
  | [] => none
  | _ :: rest => some (rest.takeWhile (· != '='))

/-- What a directive says of notices, if it does; there is no answer if it has a
    mistake in it. -/
def rule? (d : Directive) : Option (Option Rule) := do
  let limit ← d.limit?
  match d.brackets with
  | none =>
    match d.level, Limit.ofText? d.name with
    | none, some limit => some (some { limit })
    | _, _ => some (some { source := d.source?, limit })
  | some ⟨_, none⟩ => some none
  | some ⟨stretch, some braces⟩ =>
    if braces.isEmpty then none
    else
      match value? braces with
      | some value => if isValuePattern value then some none else none
      | none =>
        let field := some (String.ofList braces)
        some (if stretch.isEmpty then some { source := d.source?, field, limit } else none)

/-- What a directive says in a list. White space in front of it counts as the
    beginning of its name, so that it concerns no notice; and its level is then
    read from the wrong place, so that it may not have one. -/
def read? (text : List Char) : Option (Option Rule) := do
  let inner := text.dropWhile Text.isWhite
  let d ← ofText? inner
  let rule ← d.rule?
  if text.head?.any Text.isWhite then (if d.level.isNone then some none else none)
  else some rule

end Directive

/-! ### Lists of directives -/

namespace LogFilter

/-- The texts between the commas. -/
def splitCommas : List Char → List (List Char)
  | [] => [[]]
  | c :: rest =>
    match splitCommas rest with
    | [] => [[c]]
    | first :: more => if c == ',' then [] :: first :: more else (c :: first) :: more

/-- The filter of a list of directives, if it has no mistake in it. -/
def parse? (text : String) : Option LogFilter := do
  let directives := (splitCommas text.toList).filter (!·.isEmpty)
  let rules ← directives.mapM Directive.read?
  some (if directives.isEmpty then .upTo .error else ⟨rules.filterMap id⟩)

/-- The filter that is asked for. -/
def asked (text : Option String) : LogFilter := (text.bind parse?).getD (.upTo .info)

end LogFilter

end Turnstile.CommandLine
