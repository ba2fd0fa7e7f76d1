import Turnstile.Yaml.Property
import Turnstile.Yaml.Scalar

/-!
# Tokens

The words that a document consists of. Indentation, which outside of brackets
says what belongs together, shows in tokens of its own: a block collection has a
token where it starts and one where it ends, as a flow collection has its
brackets.
-/

namespace Turnstile.Yaml

/-- What a token is. -/
inductive TokenKind
  | endOfStream
  | directive (d : Directive)
  | documentStart
  | documentEnd
  | blockSequenceStart
  | blockMappingStart
  | blockEnd
  | flowSequenceStart
  | flowSequenceEnd
  | flowMappingStart
  | flowMappingEnd
  /-- The dash before an item of a block sequence. -/
  | blockEntry
  /-- The comma between items of a flow collection. -/
  | flowEntry
  /-- The start of a key, marked or not. -/
  | key
  /-- The colon before a value. -/
  | value
  | alias (name : List Char)
  | anchor (name : List Char)
  | tag (tag : RawTag)
  | scalar (style : ScalarStyle) (text : List Char)
deriving DecidableEq, Repr

/-- A word of a document, from its first place to the place after it. -/
structure Token where
  kind : TokenKind
  start : Mark
  stop : Mark
deriving DecidableEq, Repr

end Turnstile.Yaml
