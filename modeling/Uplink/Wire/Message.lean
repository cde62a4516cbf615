import Uplink.Text.Utf8

/-!
# Messages

A message has a fixed header and a list of tuples.  A tuple carries a value of one of four kinds
under a number of its own, and names the kind of its value by a type code.
-/

namespace Uplink
namespace Wire

/-- The type of an event that is meant for the field device. -/
def mobileTerminatedEvent : UInt8 := 0xcc

/-- The type of the field device's acknowledgement of such an event. -/
def mobileTerminatedAck : UInt8 := 0xcd

/-- What a tuple carries. -/
inductive Value where
  /-- A whole number of 32 bits with sign. -/
  | int (n : Int32)
  /-- A text. -/
  | text (s : String)
  /-- Bytes without further meaning. -/
  | bytes (bs : List UInt8)
  /-- One byte. -/
  | byte (b : UInt8)
  deriving DecidableEq, Repr, Inhabited

/-- The type code of a value. -/
def Value.type : Value → UInt8
  | int _ => 1
  | text _ => 2
  | bytes _ => 3
  | byte _ => 4

/-- A value with its number and the type code it is filed under. -/
structure Tuple where
  /-- The type code that the tuple claims. -/
  type : UInt8
  /-- The number of the tuple. -/
  id : UInt8
  /-- What the tuple carries. -/
  value : Value
  deriving DecidableEq, Repr, Inhabited

namespace Tuple

/-- The tuple whose type code is the one of its value. -/
def of (id : UInt8) (value : Value) : Tuple :=
  ⟨value.type, id, value⟩

/-- The tuple claims the type of its value. -/
def Consistent (tuple : Tuple) : Prop :=
  tuple.type = tuple.value.type

instance (tuple : Tuple) : Decidable tuple.Consistent :=
  inferInstanceAs (Decidable (_ = _))

theorem consistent_of (id : UInt8) (value : Value) : (of id value).Consistent :=
  rfl

/-- A consistent tuple is determined by its number and its value. -/
theorem Consistent.eq_of {tuple : Tuple} (h : tuple.Consistent) :
    tuple = of tuple.id tuple.value := by
  cases tuple
  simp_all [Consistent, of]

end Tuple

/-- A decoded datagram. -/
structure Message where
  /-- The major version of the format. -/
  major : UInt8 := 1
  /-- The minor version of the format. -/
  minor : UInt8 := 0
  /-- What kind of message this is. -/
  type : UInt8
  /-- The code of the event. -/
  event : UInt8 := 0
  /-- The number that ties an acknowledgement to its event. -/
  sequence : UInt16 := 0
  /-- When the message was made, in milliseconds. -/
  timestamp : UInt64 := 0
  /-- The content. -/
  tuples : List Tuple := []
  deriving DecidableEq, Repr, Inhabited

/-- Every tuple claims the type of its value. -/
def Message.Consistent (message : Message) : Prop :=
  ∀ tuple ∈ message.tuples, tuple.Consistent

end Wire
end Uplink
