import Turnstile.Yaml.Lexer

/-!
# From tokens to nodes

The content of a document is a tree of nodes: scalars, sequences and mappings,
and *aliases* that stand for a node that was given an *anchor* before. A node is
marked with the place where it starts, its properties included; a node without
text, as between a colon and the end of the line, with the place where it is
missing.

Anchors are told apart by number. A new anchor gets the number of names that are
in use, also when it takes over a name, so that two anchors can have one number.
An alias carries the number that its name has at that point, and stands for the
last node of that number in the whole document (`Document.resolve?`).

Reading is by descent: a function for each kind of collection, which takes the
tokens that belong to it. The first argument bounds the depth of calls; no
document needs more than a multiple of its number of tokens.
-/

namespace Turnstile.Yaml

/-- A scalar, as decoding sees it. -/
structure Scalar where
  text : List Char
  style : ScalarStyle
  /-- The full name of its tag, if it has one. -/
  tag : Option (List Char)
deriving DecidableEq, Repr

/-- A node of a document. -/
inductive Node
  | scalar (mark : Mark) (s : Scalar)
  | sequence (mark : Mark) (items : List Node)
  | mapping (mark : Mark) (entries : List (Node × Node))
  | alias (mark : Mark) (number : Nat)
deriving Repr, Inhabited

/-- Where a node starts. -/
def Node.mark : Node → Mark
  | .scalar mark _ | .sequence mark _ | .mapping mark _ | .alias mark _ => mark

/-- The node that a missing text stands for. -/
def Node.missing (mark : Mark) : Node := .scalar mark ⟨[], .plain, none⟩

/-- A node with an anchor. -/
structure Anchored where
  /-- The number of anchors before it. -/
  order : Nat
  /-- The number of the anchor. -/
  number : Nat
  node : Node

/-- What is left to read, and what aliases may refer to. -/
structure Reader where
  tokens : List Token
  /-- What tag handles stand for. -/
  handles : List (List Char × List Char) := []
  /-- The number that each name of an anchor has. -/
  anchors : List (List Char × Nat) := []
  /-- The number of anchors so far. -/
  order : Nat := 0
  /-- The nodes with anchors that are complete. -/
  anchored : List Anchored := []

namespace Reader

/-- The next token; at the end there is always one. -/
def next (r : Reader) : Token := r.tokens.headD ⟨.endOfStream, {}, {}⟩

/-- The kind of the next token. -/
def kind (r : Reader) : TokenKind := r.next.kind

/-- Past the next token. -/
def skip (r : Reader) : Reader := { r with tokens := r.tokens.tail }

/-- Take up an anchor. -/
def addAnchor (r : Reader) (name : List Char) : Reader :=
  let others := r.anchors.filter (·.1 != name)
  { r with anchors := (name, r.anchors.length) :: others, order := r.order + 1 }

/-- A node is complete; if it has an anchor, aliases may refer to it. -/
def complete (r : Reader) (anchor : Option (Nat × Nat)) (node : Node) : Node × Reader :=
  match anchor with
  | none => (node, r)
  | some (order, number) => (node, { r with anchored := ⟨order, number, node⟩ :: r.anchored })

/-- The full name of a tag. -/
def resolveTag (r : Reader) (tag : RawTag) : Option (List Char) :=
  if tag.handle.isEmpty then some tag.suffix
  else (r.handles.lookup tag.handle).map (· ++ tag.suffix)

/-- What stands before the content of a node. -/
structure Properties where
  anchor : Option (List Char) := none
  tag : Option RawTag := none

/-- Read the properties of a node: an anchor and a tag in either order. -/
def readProperties (r : Reader) : Properties × Reader :=
  match r.kind with
  | .anchor name =>
    match r.skip.kind with
    | .tag tag => (⟨some name, some tag⟩, r.skip.skip)
    | _ => (⟨some name, none⟩, r.skip)
  | .tag tag =>
    match r.skip.kind with
    | .anchor name => (⟨some name, some tag⟩, r.skip.skip)
    | _ => (⟨none, some tag⟩, r.skip)
  | _ => ({}, r)

end Reader

/-- Where a node may be read. -/
inductive Place
  /-- In a flow collection. -/
  | flow
  /-- In a block. -/
  | block
  /-- In a block mapping, where a sequence needs no indentation of its own. -/
  | inMapping
deriving DecidableEq, Repr

/-- The tag of a scalar: the tag `!` is none. -/
def scalarTag (tag : Option (List Char)) : Option (List Char) :=
  if tag = some ['!'] then none else tag

/-- Whether the value of a block mapping is left out before a token. -/
def endsBlockPart (kind : TokenKind) : Bool :=
  kind == .key || kind == .value || kind == .blockEnd

mutual

/-- Read a node. -/
def readNode : Nat → Place → Reader → Option (Node × Reader)
  | 0, _, _ => none
  | n + 1, place, r =>
    match r.kind with
    | .alias name => (r.anchors.lookup name).map fun number => (.alias r.next.start number, r.skip)
    | _ => do
      let mark := r.next.start
      let (properties, r) := r.readProperties
      let tag ← match properties.tag with
        | none => some none
        | some raw => (r.resolveTag raw).map some
      let anchor := properties.anchor.map fun _ => (r.order, r.anchors.length)
      let r := match properties.anchor with
        | none => r
        | some name => r.addAnchor name
      let (node, r) ← readContent n place mark tag (properties.anchor.isSome || tag.isSome) r
      some (r.complete anchor node)

/-- Read the content of a node, which starts at a mark and may have properties. -/
def readContent : Nat → Place → Mark → Option (List Char) → Bool → Reader → Option (Node × Reader)
  | 0, _, _, _, _, _ => none
  | n + 1, place, mark, tag, hasProperties, r =>
    match r.kind with
    | .scalar style text => some (.scalar mark ⟨text, style, scalarTag tag⟩, r.skip)
    | .flowSequenceStart => do
      let (items, r) ← readFlowSequence n true r.skip
      some (.sequence mark items, r)
    | .flowMappingStart => do
      let (entries, r) ← readFlowMapping n true r.skip
      some (.mapping mark entries, r)
    | kind =>
      if place = .inMapping && kind == .blockEntry then do
        let (items, r) ← readUnindented n r
        some (.sequence mark items, r)
      else if place ≠ .flow && kind == .blockSequenceStart then do
        let (items, r) ← readBlockSequence n r.skip
        some (.sequence mark items, r)
      else if place ≠ .flow && kind == .blockMappingStart then do
        let (entries, r) ← readBlockMapping n r.skip
        some (.mapping mark entries, r)
      else if hasProperties then some (.scalar mark ⟨[], .plain, tag⟩, r)
      else none

/-- Read a part of a collection, or find it left out. -/
def readPart : Nat → Place → Bool → Mark → Reader → Option (Node × Reader)
  | 0, _, _, _, _ => none
  | n + 1, place, leftOut, mark, r =>
    if leftOut then some (.missing mark, r) else readNode n place r

/-- Read the items of a block sequence. -/
def readBlockSequence : Nat → Reader → Option (List Node × Reader)
  | 0, _ => none
  | n + 1, r =>
    match r.kind with
    | .blockEntry => do
      let after := r.skip
      let leftOut := after.kind == .blockEntry || after.kind == .blockEnd
      let (item, r) ← readPart n .block leftOut r.next.stop after
      let (items, r) ← readBlockSequence n r
      some (item :: items, r)
    | .blockEnd => some ([], r.skip)
    | _ => none

/-- Read the items of a sequence that has no indentation of its own. -/
def readUnindented : Nat → Reader → Option (List Node × Reader)
  | 0, _ => none
  | n + 1, r =>
    match r.kind with
    | .blockEntry => do
      let after := r.skip
      let leftOut := after.kind == .blockEntry || endsBlockPart after.kind
      let (item, r) ← readPart n .block leftOut r.next.stop after
      let (items, r) ← readUnindented n r
      some (item :: items, r)
    | _ => some ([], r)

/-- Read the value of an entry of a block mapping. -/
def readBlockValue : Nat → Reader → Option (Node × Reader)
  | 0, _ => none
  | n + 1, r =>
    match r.kind with
    | .value => readPart n .inMapping (endsBlockPart r.skip.kind) r.next.stop r.skip
    | _ => some (.missing r.next.start, r)

/-- Read the entries of a block mapping. -/
def readBlockMapping : Nat → Reader → Option (List (Node × Node) × Reader)
  | 0, _ => none
  | n + 1, r =>
    match r.kind with
    | .key => do
      let (key, r) ← readPart n .inMapping (endsBlockPart r.skip.kind) r.next.stop r.skip
      let (value, r) ← readBlockValue n r
      let (entries, r) ← readBlockMapping n r
      some ((key, value) :: entries, r)
    | .blockEnd => some ([], r.skip)
    | _ => none

/-- Read the value of an entry in brackets, which may be left out before a
    closing token. -/
def readFlowValue : Nat → TokenKind → Reader → Option (Node × Reader)
  | 0, _, _ => none
  | n + 1, closing, r =>
    match r.kind with
    | .value =>
      let after := r.skip
      let leftOut := after.kind == .flowEntry || after.kind == closing
      readPart n .flow leftOut after.next.start after
    | _ => some (.missing r.next.start, r)

/-- Read a mapping of one entry in a flow sequence, from its key mark. A key that
    is left out takes the token after the mark with it. -/
def readPair : Nat → Reader → Option (Node × Reader)
  | 0, _ => none
  | n + 1, r => do
    let mark := r.next.start
    let after := r.skip
    let leftOut :=
      after.kind == .value || after.kind == .flowEntry || after.kind == .flowSequenceEnd
    let (key, r) ←
      if leftOut then some (.missing after.next.stop, after.skip) else readNode n .flow after
    let (value, r) ← readFlowValue n .flowSequenceEnd r
    some (.mapping mark [(key, value)], r)

/-- Read the items of a flow sequence. -/
def readFlowSequence : Nat → Bool → Reader → Option (List Node × Reader)
  | 0, _, _ => none
  | n + 1, first, r =>
    if r.kind == .flowSequenceEnd then some ([], r.skip)
    else if !first && r.kind != .flowEntry then none
    else
      let r := if first then r else r.skip
      match r.kind with
      | .flowSequenceEnd => some ([], r.skip)
      | .key => do
        let (item, r) ← readPair n r
        let (items, r) ← readFlowSequence n false r
        some (item :: items, r)
      | _ => do
        let (item, r) ← readNode n .flow r
        let (items, r) ← readFlowSequence n false r
        some (item :: items, r)

/-- Read the entries of a flow mapping. -/
def readFlowMapping : Nat → Bool → Reader → Option (List (Node × Node) × Reader)
  | 0, _, _ => none
  | n + 1, first, r =>
    if r.kind == .flowMappingEnd then some ([], r.skip)
    else if !first && r.kind != .flowEntry then none
    else
      let r := if first then r else r.skip
      match r.kind with
      | .flowMappingEnd => some ([], r.skip)
      | .key => do
        let after := r.skip
        let leftOut :=
          after.kind == .value || after.kind == .flowEntry || after.kind == .flowMappingEnd
        let (key, r) ← readPart n .flow leftOut after.next.start after
        let (value, r) ← readFlowValue n .flowMappingEnd r
        let (entries, r) ← readFlowMapping n false r
        some ((key, value) :: entries, r)
      | _ => do
        let (key, r) ← readNode n .flow r
        let value := Node.missing r.next.start
        let (entries, r) ← readFlowMapping n false r
        some ((key, value) :: entries, r)

end

end Turnstile.Yaml
