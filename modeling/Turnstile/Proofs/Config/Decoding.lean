import Turnstile.Config.Decode
import Turnstile.Proofs.Yaml.Reading

/-!
# Settings from outlines

The text of an outline gives the settings it says, and settings are read back
from what they are written as (`Settings.ofYaml_faithful`).

Reading a mapping puts what it holds into what was there, one entry after the
other (`decodeEntries_eq`). As names differ, what is there in the end under a
name is what its only holder holds, or else the default (`get_foldl`). Both
sections of the settings consist of numbers: they are read alike, by the
setters of their names (`Setters`).
-/

namespace Turnstile

open Yaml

/-! ### Numbers -/

namespace Numeral

theorem isDigit_of_mem_decimal {n : Nat} {c : Char} (m : c ∈ decimal n) : c.isDigit :=
  Nat.isDigit_of_mem_toDigits (by decide) (by decide) m

/-- No number but zero begins with a zero. -/
theorem head?_decimal_ne {n : Nat} (pos : 0 < n) : (decimal n).head? ≠ some '0' := by
  induction n using Nat.strongRecOn with
  | _ n ih =>
    by_cases small : n < 10
    · have alone : decimal n = [n.digitChar] := Nat.toDigits_of_lt_base small
      have others : ∀ m < 10, 0 < m → m.digitChar ≠ '0' := by decide
      rw [alone, List.head?_cons, ne_eq, Option.some_inj]
      exact others n small pos
    · have parts : decimal n = decimal (n / 10) ++ [(n % 10).digitChar] :=
        Nat.toDigits_of_base_le (by decide) (Nat.not_lt.mp small)
      have filled : decimal (n / 10) ≠ [] := Nat.toDigits_ne_nil
      rw [parts, List.head?_append_of_ne_nil _ filled]
      exact ih (n / 10) (by omega) (by omega)

end Numeral

/-- A number begins with a digit, so with no sign. -/
theorem Yaml.startsWithSign_decimal (n : Nat) : startsWithSign (Numeral.decimal n) = false := by
  refine Bool.eq_false_iff.mpr fun signed => ?_
  have digit : ∀ c ∈ Numeral.decimal n, c.isDigit := fun _ => Numeral.isDigit_of_mem_decimal
  rw [startsWithSign.eq_def] at signed
  split at signed
  · exact absurd (digit '+' (by rw [‹Numeral.decimal n = _›]; simp)) (by decide)
  · exact absurd (digit '-' (by rw [‹Numeral.decimal n = _›]; simp)) (by decide)
  · exact Bool.noConfusion signed

theorem Yaml.hasNeedlessZero_decimal (n : Nat) : hasNeedlessZero (Numeral.decimal n) = false := by
  simp only [hasNeedlessZero, startsWithSign_decimal, Bool.false_eq_true, if_false]
  rcases Nat.eq_zero_or_pos n with rfl | pos
  · rfl
  · have first := Numeral.head?_decimal_ne pos
    simp [first]

/-- A number is read from its digits. -/
theorem Yaml.unsigned?_decimal {n limit : Nat} (h : n < limit) :
    unsigned? limit (Numeral.decimal n) = some n := by
  have digit : ∀ c ∈ Numeral.decimal n, c.isDigit := fun _ => Numeral.isDigit_of_mem_decimal
  have unsigned : withoutPlus (Numeral.decimal n) = Numeral.decimal n := by
    rw [withoutPlus]
    intro rest shape
    exact absurd (digit '+' (by rw [shape]; simp)) (by decide)
  have letter : ∀ {c : Char} {rest : List Char}, Numeral.decimal n = '0' :: c :: rest →
      c.isDigit := fun shape => digit _ (by rw [shape]; simp)
  rw [unsigned?, unsigned]
  split
  · exact absurd (letter ‹_›) (by decide)
  · exact absurd (letter ‹_›) (by decide)
  · exact absurd (letter ‹_›) (by decide)
  · rw [hasNeedlessZero_decimal, if_neg Bool.false_ne_true, readBelow?, Numeral.read?_decimal]
    simp [h]

/-- An item is read as its number. -/
theorem decodeWord_of_holds {e : Item} {node : Node} (h : e.Holds node) (d : Document)
    (path : List String) : decodeWord d path node = .ok e.number := by
  obtain ⟨mark, rfl⟩ := h
  have word : Scalar.word? ⟨e.digits, .plain, none⟩ = some e.number := by
    rw [Scalar.word?, if_pos (by rfl), Item.digits, unsigned?_decimal e.number.toNat_lt_size]
    simp
  simp [decodeWord, Document.target, word]

/-- A name is read as itself. -/
theorem decodeName_of_isText {x : PlainName} {node : Node} (h : node.IsText x.letters)
    (d : Document) (path : List String) : decodeName d path node = .ok x.text := by
  obtain ⟨mark, rfl⟩ := h
  rfl

/-! ### Mappings -/

section Mapping

variable {α σ : Type} {name : α → PlainName} {Holds : α → Node → Prop} {put : α → σ → σ}
  {d : Document} {fields : Fields σ}

/-- Reading fields puts in what a mapping holds, where it is known. -/
structure Fields.Puts (d : Document) (fields : Fields σ) (name : α → PlainName)
    (Holds : α → Node → Prop) (put : α → σ → σ) : Prop where
  known : ∀ a field, fields.lookup (name a).text = some field →
    ∀ node, Holds a node → ∀ path s, field path node s = .ok (put a s)
  unknown : ∀ a, fields.lookup (name a).text = none → ∀ s, put a s = s

/-- The entries of a mapping are put in one after the other. -/
theorem decodeEntries_eq (puts : Fields.Puts d fields name Holds put) (path : List String)
    (mark : Mark) {l : List α} {entries : List (Node × Node)}
    (agree : EntriesHold (fun a => (name a).letters) Holds l entries)
    (distinct : (l.map name).Nodup) (seen : List String)
    (fresh : ∀ a ∈ l, (name a).text ∉ seen) (s : σ) :
    decodeEntries d fields path mark entries seen s = .ok (l.foldl (fun s a => put a s) s) := by
  induction agree generalizing seen s with
  | nil => rfl
  | @cons a entry l entries first rest ih =>
    obtain ⟨key, value⟩ := entry
    obtain ⟨isKey, holds⟩ := first
    obtain ⟨absent, distinct⟩ := List.nodup_cons.mp distinct
    have later : ∀ b ∈ l, (name b).text ≠ (name a).text := fun b m same =>
      absent (List.mem_map.mpr ⟨b, m, PlainName.text_inj.mp same⟩)
    have fresh' : ∀ b ∈ l, (name b).text ∉ seen := fun b m => fresh b (List.mem_cons_of_mem a m)
    rw [decodeEntries, decodeName_of_isText isKey]
    simp only [bind, Except.bind, List.foldl_cons]
    cases look : fields.lookup (name a).text with
    | none =>
      rw [puts.unknown a look]
      exact ih distinct seen fresh' s
    | some field =>
      have unseen : seen.contains (name a).text = false := by
        simpa using fresh a List.mem_cons_self
      simp only [unseen, Bool.false_eq_true, if_false, puts.known a field look value holds]
      refine ih distinct _ (fun b m => ?_) _
      simp [later b m, fresh' b m]

/-- A section is what is put into its defaults. -/
theorem decodeSection_eq (puts : Fields.Puts d fields name Holds put) {l : List α} {node : Node}
    (holds : node.IsMapping (fun a => (name a).letters) Holds l) (distinct : (l.map name).Nodup)
    (title : String) (defaults : σ) (path : List String) :
    decodeSection d fields title defaults path node =
      .ok (l.foldl (fun s a => put a s) defaults) := by
  obtain ⟨mark, entries, rfl, agree⟩ := holds
  exact decodeEntries_eq puts path mark agree distinct [] (by simp) defaults

omit Holds d fields in
/-- What was put in under a name is what its only holder holds. -/
theorem get_foldl {β : Type} (get : σ → β) (value : α → β) (key : String)
    (sets : ∀ a s, get (put a s) = if (name a).text = key then value a else get s)
    {l : List α} (distinct : (l.map name).Nodup) (s : σ) :
    get (l.foldl (fun s a => put a s) s) =
      ((l.find? fun a => (name a).text == key).map value).getD (get s) := by
  induction l generalizing s with
  | nil => rfl
  | cons a l ih =>
    obtain ⟨absent, distinct⟩ := List.nodup_cons.mp distinct
    rw [List.foldl_cons, ih distinct, sets, List.find?_cons]
    by_cases named : (name a).text = key
    · have others : l.find? (fun b => (name b).text == key) = none := by
        refine List.find?_eq_none.mpr fun b m same => absent (List.mem_map.mpr ⟨b, m, ?_⟩)
        exact PlainName.text_inj.mp ((beq_iff_eq.mp same).trans named.symm)
      simp [named, others]
    · simp [named, beq_eq_false_iff_ne.mpr named]

end Mapping

/-! ### Sections of numbers -/

/-- How numbers are put into settings, by name. -/
abbrev Setters (σ : Type) := List (String × (UInt64 → σ → σ))

/-- Read a number and put it in. -/
def setWord {σ : Type} (d : Document) (set : UInt64 → σ → σ) (path : List String) (node : Node)
    (s : σ) : Except DecodeError σ := do
  let n ← decodeWord d path node
  .ok (set n s)

/-- The fields that read numbers. -/
def Setters.fields {σ : Type} (setters : Setters σ) (d : Document) : Fields σ :=
  setters.map fun setter => (setter.1, setWord d setter.2)

/-- Put in an item, if its name is known. -/
def Setters.put {σ : Type} (setters : Setters σ) (e : Item) (s : σ) : σ :=
  match setters.lookup e.name.text with
  | some set => set e.number s
  | none => s

theorem Setters.lookup_fields {σ : Type} (setters : Setters σ) (d : Document) (key : String) :
    (setters.fields d).lookup key = (setters.lookup key).map (setWord d) := by
  induction setters with
  | nil => rfl
  | cons setter setters ih =>
    obtain ⟨name, set⟩ := setter
    rw [fields, List.map_cons, List.lookup_cons, List.lookup_cons]
    cases key == name with
    | true => rfl
    | false => exact ih

theorem Setters.puts {σ : Type} (setters : Setters σ) (d : Document) :
    Fields.Puts d (setters.fields d) Item.name Item.Holds setters.put where
  known a field look node holds path s := by
    rw [lookup_fields, Option.map_eq_some_iff] at look
    obtain ⟨set, look, rfl⟩ := look
    simp only [setWord, decodeWord_of_holds holds, put, look]
    rfl
  unknown a look s := by
    rw [lookup_fields, Option.map_eq_none_iff] at look
    simp only [put, look]

/-- The settings of a limiter that are numbers: all of them. -/
def LimiterSettings.setters : Setters LimiterSettings := [
  ("threshold_ms", fun n s => { s with thresholdMillis := n }),
  ("deadline_ms", fun n s => { s with deadlineMillis := n })]

/-- The settings of a cache that are numbers: all of them. -/
def CacheSettings.setters : Setters CacheSettings := [
  ("sweep_interval_ms", fun n s => { s with sweepIntervalMillis := n })]

theorem LimiterSettings.setters_fields (d : Document) :
    LimiterSettings.setters.fields d = LimiterSettings.fields d := rfl

theorem CacheSettings.setters_fields (d : Document) :
    CacheSettings.setters.fields d = CacheSettings.fields d := rfl

/-! ### The settings of an outline -/

namespace Yaml

/-- The number that a section gives under a name. -/
def Section.given? (s : Section) (key : String) : Option UInt64 :=
  (s.items.find? fun e => e.name.text == key).map Item.number

/-- The number that an outline gives under a name in the section of a name. -/
def Outline.given? (o : Outline) (title key : String) : Option UInt64 :=
  (o.sections.find? fun s => s.name.text == title).bind (·.given? key)

/-- The settings of a limiter that a section gives. -/
def Section.limiter (s : Section) : LimiterSettings where
  thresholdMillis := (s.given? "threshold_ms").getD 1000
  deadlineMillis := (s.given? "deadline_ms").getD 5000

/-- The settings of a cache that a section gives. -/
def Section.cache (s : Section) : CacheSettings where
  sweepIntervalMillis := (s.given? "sweep_interval_ms").getD 60000

/-- The settings that an outline gives: each is the number given for it in its own
    section, or else its default. -/
def Outline.settings (o : Outline) : Settings where
  limiter.thresholdMillis := (o.given? "limiter" "threshold_ms").getD 1000
  limiter.deadlineMillis := (o.given? "limiter" "deadline_ms").getD 5000
  cache.sweepIntervalMillis := (o.given? "cache" "sweep_interval_ms").getD 60000

end Yaml

namespace LimiterSettings

theorem put_thresholdMillis (e : Item) (s : LimiterSettings) :
    (setters.put e s).thresholdMillis =
      if e.name.text = "threshold_ms" then e.number else s.thresholdMillis := by
  simp only [Setters.put, setters, List.lookup_cons, List.lookup_nil]
  grind

theorem put_deadlineMillis (e : Item) (s : LimiterSettings) :
    (setters.put e s).deadlineMillis =
      if e.name.text = "deadline_ms" then e.number else s.deadlineMillis := by
  simp only [Setters.put, setters, List.lookup_cons, List.lookup_nil]
  grind

/-- What the items of a section put into the settings of a limiter. -/
theorem foldl_put (s : Section) :
    s.items.foldl (fun a e => setters.put e a) {} = s.limiter :=
  congrArg₂ LimiterSettings.mk
    (get_foldl _ Item.number "threshold_ms" put_thresholdMillis s.distinct {})
    (get_foldl _ Item.number "deadline_ms" put_deadlineMillis s.distinct {})

end LimiterSettings

namespace CacheSettings

theorem put_sweepIntervalMillis (e : Item) (s : CacheSettings) :
    (setters.put e s).sweepIntervalMillis =
      if e.name.text = "sweep_interval_ms" then e.number else s.sweepIntervalMillis := by
  simp only [Setters.put, setters, List.lookup_cons, List.lookup_nil]
  grind

/-- What the items of a section put into the settings of a cache. -/
theorem foldl_put (s : Section) : s.items.foldl (fun a e => setters.put e a) {} = s.cache :=
  congrArg CacheSettings.mk
    (get_foldl _ Item.number "sweep_interval_ms" put_sweepIntervalMillis s.distinct {})

end CacheSettings

namespace Settings

/-- Put in a section, if its name is known. -/
def putSection (s : Section) (c : Settings) : Settings :=
  if s.name.text = "limiter" then { c with limiter := s.limiter }
  else if s.name.text = "cache" then { c with cache := s.cache }
  else c

theorem decode_limiter (d : Document) {s : Section} {node : Node} (holds : s.Holds node)
    (title : String) (path : List String) :
    decodeSection d (LimiterSettings.fields d) title {} path node = .ok s.limiter := by
  rw [← LimiterSettings.setters_fields, ← LimiterSettings.foldl_put]
  exact decodeSection_eq (LimiterSettings.setters.puts d) holds s.distinct title {} path

theorem decode_cache (d : Document) {s : Section} {node : Node} (holds : s.Holds node)
    (title : String) (path : List String) :
    decodeSection d (CacheSettings.fields d) title {} path node = .ok s.cache := by
  rw [← CacheSettings.setters_fields, ← CacheSettings.foldl_put]
  exact decodeSection_eq (CacheSettings.setters.puts d) holds s.distinct title {} path

theorem puts (d : Document) :
    Fields.Puts d (Settings.fields d) Section.name Section.Holds putSection where
  known s field look node holds path c := by
    by_cases limiter : s.name.text = "limiter"
    · simp only [Settings.fields, List.lookup_cons, limiter, beq_self_eq_true, Option.some_inj] at look
      subst look
      simp only [decode_limiter d holds, putSection, limiter, if_true]
      rfl
    by_cases cache : s.name.text = "cache"
    · have other : ("cache" == "limiter") = false := rfl
      simp only [Settings.fields, List.lookup_cons, cache, other, beq_self_eq_true,
        Option.some_inj] at look
      subst look
      simp only [decode_cache d holds, putSection, cache, String.reduceEq, if_false, if_true]
      rfl
    · simp [Settings.fields, List.lookup_cons, List.lookup_nil, beq_eq_false_iff_ne.mpr limiter,
        beq_eq_false_iff_ne.mpr cache] at look
  unknown s look c := by
    have names := List.lookup_eq_none_iff.mp look
    have limiter : s.name.text ≠ "limiter" := by simpa using names _ List.mem_cons_self
    have cache : s.name.text ≠ "cache" := by
      simpa using names _ (List.mem_cons_of_mem _ List.mem_cons_self)
    rw [putSection, if_neg limiter, if_neg cache]

/-- What the sections of an outline put into the settings. -/
theorem foldl_putSection (o : Outline) :
    o.sections.foldl (fun c s => putSection s c) {} = o.settings := by
  have limiter := get_foldl Settings.limiter Section.limiter "limiter"
    (fun s c => show (putSection s c).limiter = _ by rw [putSection]; grind) o.distinct {}
  have cache := get_foldl Settings.cache Section.cache "cache"
    (fun s c => show (putSection s c).cache = _ by rw [putSection]; grind) o.distinct {}
  refine congrArg₂ Settings.mk (limiter.trans ?_) (cache.trans ?_)
  · simp only [Outline.given?]
    cases o.sections.find? fun s => s.name.text == "limiter" <;> rfl
  · simp only [Outline.given?]
    cases o.sections.find? fun s => s.name.text == "cache" <;> rfl

/-- The settings that the text of an outline holds. -/
theorem decode_of_holds {o : Outline} {d : Document} (holds : o.Holds d) :
    Settings.decode d = .ok o.settings := by
  rw [← foldl_putSection, Settings.decode]
  rw [Outline.Holds] at holds
  split at holds
  · rename_i empty
    rw [holds, List.isEmpty_iff.mp empty]
    rfl
  · obtain ⟨root, present, mapping⟩ := holds
    rw [present]
    exact decodeSection_eq (puts d) mapping o.distinct _ {} []

/-- The text of an outline gives its settings, unless a cache would be swept all
    the time. -/
theorem ofYaml_text (o : Outline) (ended : Bool) :
    Settings.ofYaml (o.text ended) =
      if o.given? "cache" "sweep_interval_ms" = some 0 then .error .zeroSweepInterval
      else .ok o.settings := by
  obtain ⟨d, read, holds⟩ := ofText?_text o ended
  have zero : o.settings.cache.sweepIntervalMillis = 0 ↔
      o.given? "cache" "sweep_interval_ms" = some 0 := by
    simp only [Outline.settings]
    cases o.given? "cache" "sweep_interval_ms" <;> simp
  rw [Settings.ofYaml, read]
  simp only [decode_of_holds holds, zero]

/-! ### Settings as an outline -/

/-- The outline that settings are written as. -/
def outline (s : Settings) : Outline where
  sections := [
    { name := .ofText "limiter" (by decide) (by decide) (by decide)
      items := [
        ⟨.ofText "threshold_ms" (by decide) (by decide) (by decide), s.limiter.thresholdMillis⟩,
        ⟨.ofText "deadline_ms" (by decide) (by decide) (by decide), s.limiter.deadlineMillis⟩]
      nonempty := List.cons_ne_nil _ _
      distinct := by simp [PlainName.ofText] },
    { name := .ofText "cache" (by decide) (by decide) (by decide)
      items := [
        ⟨.ofText "sweep_interval_ms" (by decide) (by decide) (by decide),
          s.cache.sweepIntervalMillis⟩]
      nonempty := List.cons_ne_nil _ _
      distinct := by simp }]
  distinct := by simp [PlainName.ofText]

theorem text_outline (s : Settings) : s.outline.text true = s.yaml := by
  refine String.toList_inj.mp ?_
  -- The equation of so long a text is slow to derive, which `rw` and `simp` would do.
  unfold Settings.yaml
  simp [Settings.digits, Numeral.text, Outline.text, Outline.lines, outline, Section.lines,
    Item.line, Item.digits, PlainName.ofText]

theorem given?_outline (s : Settings) :
    s.outline.given? "cache" "sweep_interval_ms" = some s.cache.sweepIntervalMillis := by
  simp [Outline.given?, outline, Section.given?]

theorem settings_outline (s : Settings) : s.outline.settings = s := by
  simp [Outline.settings, Outline.given?, outline, Section.given?]

/-- What settings are written as gives them again. -/
theorem ofYaml_yaml {s : Settings} (swept : s.cache.sweepIntervalMillis ≠ 0) :
    Settings.ofYaml s.yaml = .ok s := by
  rw [← text_outline, ofYaml_text, given?_outline, if_neg (by simpa using swept),
    settings_outline]

/-- Settings are what their text says. The text of an outline gives the numbers in
    it, each found by its own name in its own section, and the defaults where it
    gives none, whatever else it gives; only a sweep interval of zero is refused.
    What settings are written as gives them again, and the spans they stand for
    are so many milliseconds. -/
theorem ofYaml_faithful :
    (∀ (o : Outline) (ended : Bool), Settings.ofYaml (o.text ended) =
      if o.given? "cache" "sweep_interval_ms" = some 0 then .error .zeroSweepInterval
      else .ok o.settings) ∧
    (∀ s : Settings, s.cache.sweepIntervalMillis ≠ 0 → Settings.ofYaml s.yaml = .ok s) ∧
    ∀ s : Settings,
      s.limiter.threshold.nanos = s.limiter.thresholdMillis.toNat * 1000000 ∧
      s.limiter.deadline.nanos = s.limiter.deadlineMillis.toNat * 1000000 ∧
      s.cache.sweepInterval.nanos = s.cache.sweepIntervalMillis.toNat * 1000000 :=
  ⟨ofYaml_text, fun _ => ofYaml_yaml, fun _ => ⟨rfl, rfl, rfl⟩⟩

/-- An outline with a section that settings do not know, and with one setting. -/
def deadlineOnly : Outline where
  sections := [
    { name := .ofText "storage" (by decide) (by decide) (by decide)
      items := [⟨.ofText "deadline_ms" (by decide) (by decide) (by decide), 7⟩]
      nonempty := List.cons_ne_nil _ _
      distinct := by simp },
    { name := .ofText "limiter" (by decide) (by decide) (by decide)
      items := [⟨.ofText "deadline_ms" (by decide) (by decide) (by decide), 10⟩]
      nonempty := List.cons_ne_nil _ _
      distinct := by simp }]
  distinct := by simp [PlainName.ofText]

/-- The deadline of another section is not taken for that of the limiter; the
    default settings are read back. -/
theorem ofYaml_faithful_deadlineOnly :
    Settings.ofYaml (deadlineOnly.text false) =
      .ok { limiter := { thresholdMillis := 1000, deadlineMillis := 10 } } ∧
    Settings.ofYaml ({} : Settings).yaml = .ok {} := by
  refine ⟨?_, ofYaml_faithful.2.1 {} (by decide)⟩
  rw [ofYaml_faithful.1]
  simp [Outline.settings, Outline.given?, Section.given?, deadlineOnly]

end Settings

end Turnstile
