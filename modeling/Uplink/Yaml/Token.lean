/-!
# Tokens of a document
-/

namespace Uplink
namespace Yaml

/-- How a scalar is written. -/
inductive Style where
  /-- Without any mark. -/
  | plain
  /-- In single or in double quotes. -/
  | quoted
  /-- As a block that keeps its line breaks. -/
  | literal
  /-- As a block whose lines are joined. -/
  | folded
  deriving DecidableEq, Repr, Inhabited

/-- A tag as it is written: the handle and the rest. -/
structure Tag where
  /-- What stands for the first part. -/
  handle : String
  /-- The second part. -/
  suffix : String
  deriving DecidableEq, Repr, Inhabited

/-- A token. -/
inductive Token where
  /-- The version of the language. -/
  | version (major minor : Nat)
  /-- What a handle of tags stands for. -/
  | handle (name meaning : String)
  /-- The mark before a document. -/
  | documentStart
  /-- The mark after a document. -/
  | documentEnd
  /-- A sequence in lines starts. -/
  | blockSequence
  /-- A mapping in lines starts. -/
  | blockMapping
  /-- A sequence or mapping in lines ends. -/
  | blockEnd
  /-- An opening bracket. -/
  | openSequence
  /-- A closing bracket. -/
  | closeSequence
  /-- An opening brace. -/
  | openMapping
  /-- A closing brace. -/
  | closeMapping
  /-- The mark before an item in a line of its own. -/
  | item
  /-- The comma between items. -/
  | comma
  /-- A key follows. -/
  | key
  /-- A value follows. -/
  | value
  /-- The name of a node that occurred before. -/
  | alias (name : String)
  /-- The name of the node that follows. -/
  | anchor (name : String)
  /-- The tag of the node that follows. -/
  | tag (tag : Tag)
  /-- A scalar. -/
  | scalar (text : String) (style : Style)
  deriving DecidableEq, Repr, Inhabited

end Yaml
end Uplink
