import Mathlib.Data.List.Forall2
import Turnstile.Yaml.Document
import Turnstile.Proofs.Yaml.Cutting

/-!
# The nodes of an outline

The text of an outline is read as a mapping of its sections, each a mapping of
its items to plain texts (`ofText?_text`), with nothing else in the document.

That some tokens are read as a node, whatever comes after them, is a property of
the tokens (`Reads`). It holds of a plain scalar, and of a mapping whose values
have it (`reads_mapping`), which serves for both levels.
-/

namespace Turnstile.Yaml

/-! ### Nodes -/

/-- A node that is a plain text. -/
def Node.IsText (text : List Char) (node : Node) : Prop :=
  ∃ mark, node = .scalar mark ⟨text, .plain, none⟩

/-- Entries of a mapping with some names and what they hold, in order. -/
def EntriesHold {α : Type} (name : α → List Char) (Holds : α → Node → Prop) :
    List α → List (Node × Node) → Prop :=
  List.Forall₂ fun a entry => entry.1.IsText (name a) ∧ Holds a entry.2

/-- A node that is a mapping with some names and what they hold. -/
def Node.IsMapping {α : Type} (name : α → List Char) (Holds : α → Node → Prop) (l : List α)
    (node : Node) : Prop :=
  ∃ mark entries, node = .mapping mark entries ∧ EntriesHold name Holds l entries

/-! ### Reading -/

theorem Reader.kind_eq {r : Reader} {kind : TokenKind} {kinds : List TokenKind}
    (h : r.tokens.map Token.kind = kind :: kinds) :
    r.kind = kind ∧ r.skip.tokens.map Token.kind = kinds := by
  obtain ⟨t, ts, tokens, rfl, rfl⟩ := List.map_eq_cons_iff.mp h
  simp [Reader.kind, Reader.next, Reader.skip, tokens]

/-- Tokens that are read as a node, whatever comes after them. -/
structure Reads (kinds : List TokenKind) (P : Node → Prop) : Prop where
  begins : ∃ kind more, kinds = kind :: more ∧ endsBlockPart kind = false
  reads : ∀ (n : Nat) (place : Place) (r : Reader) (rest : List TokenKind),
    2 * kinds.length ≤ n → place ≠ .flow → r.tokens.map Token.kind = kinds ++ rest →
    ∃ node r', readNode n place r = some (node, r') ∧ P node ∧
      r'.tokens.map Token.kind = rest ∧ r'.anchored = r.anchored

/-- That a token is neither an anchor nor a tag, and no alias. -/
def TokenKind.IsBare : TokenKind → Prop
  | .alias _ | .anchor _ | .tag _ => False
  | _ => True

/-- What has neither an anchor nor a tag and is no alias is read for its content. -/
theorem readNode_eq {r : Reader} {kind : TokenKind} (h : r.kind = kind) (n : Nat) (place : Place)
    (bare : kind.IsBare) :
    readNode (n + 1) place r = readContent n place r.next.start none false r := by
  have content : readNode (n + 1) place r =
      (readContent n place r.next.start none false r).bind fun read => some (read.1, read.2) := by
    cases kind <;> simp_all [readNode, Reader.readProperties, Reader.complete, TokenKind.IsBare]
  rw [content]
  exact Option.bind_fun_some _

theorem reads_scalar (text : List Char) : Reads [.scalar .plain text] (Node.IsText text) where
  begins := ⟨_, _, rfl, rfl⟩
  reads n place r rest enough _ tokens := by
    obtain ⟨n, rfl⟩ : ∃ m, n = m + 2 := ⟨n - 2, by simp at enough; omega⟩
    obtain ⟨kind, skipped⟩ := Reader.kind_eq tokens
    refine ⟨_, r.skip, ?_, ⟨r.next.start, rfl⟩, skipped, rfl⟩
    rw [readNode_eq kind _ _ trivial, readContent, kind]
    rfl

section Mapping

variable {α : Type} {name : α → List Char} {held : α → List TokenKind} {Holds : α → Node → Prop}

/-- The entries of a mapping are read one after the other. -/
theorem readBlockMapping_eq (l : List α) (each : ∀ a ∈ l, Reads (held a) (Holds a)) (n : Nat)
    (r : Reader) (rest : List TokenKind)
    (enough : 2 * (l.flatMap fun a =>
      .key :: .scalar .plain (name a) :: .value :: held a).length + 1 ≤ n)
    (tokens : r.tokens.map Token.kind =
      (l.flatMap fun a => .key :: .scalar .plain (name a) :: .value :: held a) ++
        .blockEnd :: rest) :
    ∃ entries r', readBlockMapping n r = some (entries, r') ∧
      EntriesHold name Holds l entries ∧
      r'.tokens.map Token.kind = rest ∧ r'.anchored = r.anchored := by
  induction l generalizing n r with
  | nil =>
    obtain ⟨n, rfl⟩ : ∃ m, n = m + 1 := ⟨n - 1, by omega⟩
    obtain ⟨kind, skipped⟩ := Reader.kind_eq tokens
    refine ⟨[], r.skip, ?_, .nil, skipped, rfl⟩
    rw [readBlockMapping, kind]
  | cons a l ih =>
    simp only [List.flatMap_cons, List.length_append, List.length_cons] at enough
    simp only [List.flatMap_cons, List.cons_append, List.append_assoc] at tokens
    obtain ⟨n, rfl⟩ : ∃ m, n = m + 4 := ⟨n - 4, by omega⟩
    have reads := each a List.mem_cons_self
    obtain ⟨first, more, shape, begins⟩ := reads.begins
    obtain ⟨kind, atKey⟩ := Reader.kind_eq tokens
    obtain ⟨keyKind, -⟩ := Reader.kind_eq atKey
    obtain ⟨key, r₁, readKey, isKey, atColon, same₁⟩ :=
      (reads_scalar (name a)).reads (n + 2) .inMapping r.skip _ (by simp) (by decide) atKey
    obtain ⟨colon, atValue⟩ := Reader.kind_eq atColon
    obtain ⟨value, r₂, readValue, isValue, atNext, same₂⟩ :=
      reads.reads (n + 1) .inMapping r₁.skip _ (by omega) (by decide) atValue
    obtain ⟨entries, r', readRest, isRest, left, same⟩ :=
      ih (fun b m => each b (List.mem_cons_of_mem a m)) (n + 3) r₂ (by omega) atNext
    have valueKind : endsBlockPart r₁.skip.kind = false := by
      rw [shape] at atValue
      rw [(Reader.kind_eq atValue).1, begins]
    have keyPart : endsBlockPart r.skip.kind = false := by rw [keyKind]; rfl
    have same' : r'.anchored = r.anchored := same.trans (same₂.trans same₁)
    refine ⟨(key, value) :: entries, r', ?_, .cons ⟨isKey, isValue⟩ isRest, left, same'⟩
    rw [readBlockMapping, kind]
    simp only [keyPart, readPart, Bool.false_eq_true, if_false, readKey, readBlockValue, colon,
      valueKind, readValue, readRest, Option.bind_eq_bind, Option.bind_some]

/-- A mapping of what is read is read. -/
theorem reads_mapping (l : List α) (each : ∀ a ∈ l, Reads (held a) (Holds a)) :
    Reads (mappingKinds name held l) (Node.IsMapping name Holds l) where
  begins := ⟨_, _, rfl, rfl⟩
  reads n place r rest enough block tokens := by
    rw [mappingKinds, List.length_append, List.length_cons, List.length_singleton] at enough
    rw [mappingKinds, List.cons_append, List.cons_append, List.append_assoc] at tokens
    obtain ⟨n, rfl⟩ : ∃ m, n = m + 2 := ⟨n - 2, by omega⟩
    obtain ⟨kind, inside⟩ := Reader.kind_eq tokens
    obtain ⟨entries, r', read, isMapping, left, same⟩ :=
      readBlockMapping_eq l each n r.skip rest (by omega) inside
    refine ⟨.mapping r.next.start entries, r', ?_, ⟨_, _, rfl, isMapping⟩, left, same⟩
    rw [readNode_eq kind _ _ trivial, readContent, kind]
    simp [block, read]

end Mapping

/-! ### The document -/

/-- What an item holds. -/
def Item.Holds (e : Item) : Node → Prop := Node.IsText e.digits

/-- What a section holds. -/
def Section.Holds (s : Section) : Node → Prop :=
  Node.IsMapping (·.name.letters) Item.Holds s.items

/-- What an outline is read as: nothing if it has no sections. -/
def Outline.Holds (o : Outline) (d : Document) : Prop :=
  if o.sections.isEmpty then d.root = none
  else ∃ root, d.root = some root ∧ root.IsMapping (·.name.letters) Section.Holds o.sections

theorem reads_outline (o : Outline) :
    Reads (mappingKinds (·.name.letters) Section.kinds o.sections)
      (Node.IsMapping (·.name.letters) Section.Holds o.sections) :=
  reads_mapping o.sections fun s _ => reads_mapping s.items fun e _ => reads_scalar e.digits

/-- Nothing but the end is left to read. -/
theorem isOver_of_kinds {ts : List Token} (h : ts.map Token.kind = [.endOfStream]) :
    Document.isOver ts := by
  obtain ⟨t, rfl, kind⟩ := List.map_eq_singleton_iff.mp h
  simp [Document.isOver, kind]

/-- The text of an outline is read as the outline. -/
theorem ofText?_text (o : Outline) (ended : Bool) :
    ∃ d, Document.ofText? (o.text ended) = some d ∧ o.Holds d := by
  obtain ⟨ts, cut, kinds⟩ := tokens?_text o ended
  rw [Document.ofText?, cut, Option.bind_some]
  cases empty : o.sections.isEmpty with
  | true =>
    rw [Outline.kinds, empty, if_pos rfl, List.nil_append] at kinds
    obtain ⟨t, rfl, kind⟩ := List.map_eq_singleton_iff.mp kinds
    refine ⟨⟨none, []⟩, ?_, by simp [Outline.Holds, empty]⟩
    simp [Document.ofTokens?, kind]
  | false =>
    rw [Outline.kinds, empty, if_neg Bool.false_ne_true] at kinds
    have size :
        ts.length = (mappingKinds (·.name.letters) Section.kinds o.sections).length + 1 := by
      rw [← List.length_map (f := Token.kind), kinds, List.length_append, List.length_singleton]
    obtain ⟨root, r, read, holds, left, -⟩ :=
      (reads_outline o).reads (Document.depthBound ts) .block
        { tokens := ts, handles := defaultHandles } [.endOfStream]
        (by rw [Document.depthBound]; omega) (by decide) kinds
    have root? : Document.readRoot { tokens := ts, handles := defaultHandles } = some (root, r) :=
      read
    have start : (ts.headD ⟨.endOfStream, {}, {}⟩).kind = .blockMappingStart :=
      (Reader.kind_eq (r := { tokens := ts }) kinds).1
    refine ⟨⟨some root, r.anchored⟩, ?_, ?_⟩
    · rw [Document.ofTokens?, start]
      simp [root?, Document.finish, isOver_of_kinds left]
    · simp only [Outline.Holds, empty, Bool.false_eq_true, if_false]
      exact ⟨root, rfl, holds⟩

end Turnstile.Yaml
