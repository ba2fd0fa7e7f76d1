import Turnstile.Yaml.Node

/-!
# Documents

A text is read as one document at most. It may begin with directives, which then
need a marker for the start of the document, and may end with markers for its
end. A text without any content has no document in it; one that only has the
marker of a start holds a missing text.
-/

namespace Turnstile.Yaml

/-- A document. -/
structure Document where
  /-- Its content; none if there is no document in the text. -/
  root : Option Node
  /-- The nodes that aliases may stand for. -/
  anchored : List Anchored := []

/-- What tag handles stand for unless a document says otherwise. -/
def defaultHandles : List (List Char × List Char) :=
  [(['!'], ['!']), (['!', '!'], "tag:yaml.org,2002:".toList)]

/-- Read the directives before a document: what its tag handles stand for. The
    version may be given once, and has to be 1.1 or 1.2; every handle may be given
    once. -/
def readDirectives :
    List Token → Bool → List (List Char × List Char) →
    Option (List (List Char × List Char) × List Token)
  | ⟨.directive (.version major minor), _, _⟩ :: rest, versionSeen, handles =>
    if versionSeen || major != 1 || (minor != 1 && minor != 2) then none
    else readDirectives rest true handles
  | ⟨.directive (.tag handle meaning), _, _⟩ :: rest, versionSeen, handles =>
    if (handles.lookup handle).isSome then none
    else readDirectives rest versionSeen (handles ++ [(handle, meaning)])
  | rest, _, handles => some (handles ++ defaultHandles, rest)

/-- Whether a document without content ends before a token. -/
def endsDocument : TokenKind → Bool
  | .directive _ | .documentStart | .documentEnd | .endOfStream => true
  | _ => false

namespace Document

/-- A bound for the depth of calls in reading some tokens. -/
def depthBound (tokens : List Token) : Nat := 8 * tokens.length + 8

/-- Read the content of a document. -/
def readRoot (r : Reader) : Option (Node × Reader) := readNode (depthBound r.tokens) .block r

/-- Read the content of a document after the marker of its start. -/
def readMarked (r : Reader) : Option (Node × Reader) :=
  if endsDocument r.kind then some (.missing r.next.start, r) else readRoot r

/-- Whether only markers of the end of a document are left. -/
def isOver (tokens : List Token) : Bool :=
  (tokens.dropWhile (·.kind == .documentEnd)).all (·.kind == .endOfStream)

/-- The document of a root that was read, if nothing follows it. -/
def finish : Node × Reader → Option Document
  | (node, r) => if isOver r.tokens then some ⟨some node, r.anchored⟩ else none

/-- The document that some tokens make. -/
def ofTokens? (tokens : List Token) : Option Document :=
  match (tokens.headD ⟨.endOfStream, {}, {}⟩).kind with
  | .endOfStream => some ⟨none, []⟩
  | .directive _ | .documentStart => do
    let (handles, rest) ← readDirectives tokens false []
    let r : Reader := { tokens := rest, handles }
    if r.kind == .documentStart then (readMarked r.skip).bind finish else none
  | _ => (readRoot { tokens, handles := defaultHandles }).bind finish

/-- The document that a text holds. -/
def ofText? (text : String) : Option Document :=
  (tokens? text.toList).bind ofTokens?

/-- The node that an alias with a number stands for. -/
def resolve? (d : Document) (number : Nat) : Option Node :=
  let candidates := d.anchored.filter (·.number == number)
  let last := candidates.foldl (fun best a =>
    match best with
    | none => some a
    | some b => if b.order < a.order then some a else best) (none : Option Anchored)
  last.map Anchored.node

end Document

end Turnstile.Yaml
