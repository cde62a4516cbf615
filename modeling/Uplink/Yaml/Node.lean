import Uplink.Record
import Uplink.Text.Numeral
import Uplink.Yaml.Token

/-!
# Nodes

A document is a node: a scalar, a sequence, a mapping, or the name of a node that occurred before.
Such a name may occur inside the node it stands for, so that the nodes behind names are kept beside
the document, and looked up when they are needed.
-/

namespace Uplink
namespace Yaml

/-- A node. -/
inductive Node where
  /-- A scalar with its tag. -/
  | scalar (text : String) (style : Style) (tag : Option String)
  /-- A sequence. -/
  | sequence (items : List Node)
  /-- A mapping, in the order in which it is written. -/
  | mapping (entries : List (Node × Node))
  /-- A node that has a name. -/
  | alias (id : Nat)
  deriving Inhabited

namespace Node

/-- The scalar that stands where nothing is written. -/
def empty (tag : Option String) : Node :=
  scalar "" .plain tag

end Node

/-- A node with the nodes that have names. -/
structure Value where
  /-- The node. -/
  node : Node
  /-- The named nodes by their numbers. -/
  named : List (Nat × Node) := []
  deriving Inhabited

namespace Value

/-- The node itself, in place of its name. -/
def resolve (value : Value) : Node :=
  match value.node with
  | .alias id => (value.named.lookup id).getD value.node
  | node => node

/-- Another node of the same document. -/
def part (value : Value) (node : Node) : Value :=
  { value with node }

/-- The text of a scalar, however it is written. -/
def text? (value : Value) : Option String :=
  match value.resolve with
  | .scalar text _ _ => some text
  | _ => none

/-- The tag of whole numbers. -/
def intTag : String := "tag:yaml.org,2002:int"

/-- Whether a numeral starts with a sign. -/
def isSigned (cs : List Char) : Bool :=
  cs.head?.any fun c => c = '+' || c = '-'

/-- Digits after a mark for a base.  A second sign is not allowed. -/
def based? (base : Nat) (cs : List Char) : Option Nat :=
  if isSigned cs then none else Text.unsigned? base UInt64.size cs

/-- A numeral of ten digits, which must not start with a zero if it has others. -/
def decimal? (cs : List Char) : Option Nat :=
  if isSigned cs || (1 < cs.length && cs.head? = some '0') then none
  else Text.unsigned? 10 UInt64.size cs

/-- The whole number of 64 bits without sign that a plain text denotes. -/
def countOf? (text : String) : Option Nat :=
  let cs := match text.toList with
    | '+' :: rest => rest
    | cs => cs
  match cs with
  | '0' :: 'x' :: rest => based? 16 rest
  | '0' :: 'o' :: rest => based? 8 rest
  | '0' :: 'b' :: rest => based? 2 rest
  | _ => decimal? cs

/-- The whole number of 64 bits without sign.  Quotes make a text of it. -/
def count? (value : Value) : Option UInt64 :=
  let read := fun text => (countOf? text).map UInt64.ofNat
  match value.resolve with
  | .scalar text .plain _ => read text
  | .scalar text .literal tag => if tag = some intTag then read text else none
  | _ => none

/-- The record of the given fields.  Where nothing is written there are no fields. -/
def record? (fields : List String) (value : Value) : Option (Record Value) :=
  match value.resolve with
  | .scalar text style _ => if text.isEmpty && style = .plain then some ⟨[]⟩ else none
  | .mapping entries =>
    (entries.mapM fun (entry : Node × Node) =>
      (value.part entry.1).text?.map fun name => (name, value.part entry.2)).bind
        (Record.ofMembers? fields)
  | _ => none

instance : Document Value where
  record? := record?
  text? := text?
  count? := count?

end Value
end Yaml
end Uplink
