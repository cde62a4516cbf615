import Uplink.Failure
import Uplink.Wire.Checksum
import Uplink.Wire.Message

/-!
# Datagrams

The bytes of a message: a header of fourteen bytes, the tuples one after another, and the check
byte.  Numbers are written with the most significant byte first, and texts and bytes after their
length in two bytes.

Decoding looks at the check byte before anything else, then reads from the front with a `Cursor`,
which knows how far it has come so that a failure can name the place.
-/

namespace Uplink
namespace Wire

/-! ## Numbers as bytes -/

/-- The lowest `8 * width` bits of a number, most significant byte first. -/
def bigEndian : Nat → Nat → List UInt8
  | 0, _ => []
  | width + 1, n => UInt8.ofNat (n >>> (8 * width)) :: bigEndian width n

/-- The number that some bytes denote, most significant byte first. -/
def ofBigEndian (bytes : List UInt8) : Nat :=
  bytes.foldl (fun n b => n * 256 + b.toNat) 0

@[simp]
theorem length_bigEndian (width n : Nat) : (bigEndian width n).length = width := by
  induction width with
  | zero => rfl
  | succ width ih => simp [bigEndian, ih]

/-! ## Writing -/

/-- Some bytes after their length, which must fit two bytes. -/
def encodeCounted (bytes : List UInt8) : Except Failure (List UInt8) :=
  let length := bytes.length
  if length < 65536 then .ok (bigEndian 2 length ++ bytes)
  else .error (.invalidValue "tuple" (toString length ++ " bytes"))

/-- The bytes of a value. -/
def Value.encode : Value → Except Failure (List UInt8)
  | int n => .ok (bigEndian 4 n.toUInt32.toNat)
  | text s => encodeCounted (Text.utf8 s)
  | bytes bs => encodeCounted bs
  | byte b => .ok [b]

/-- The bytes of a tuple; the type written is the one of its value. -/
def Tuple.encode (tuple : Tuple) : Except Failure (List UInt8) :=
  tuple.value.encode.map fun value => tuple.value.type :: tuple.id :: value

/-- The fourteen bytes before the tuples. -/
def Message.header (message : Message) : List UInt8 :=
  [message.major, message.minor, message.type, message.event] ++
    bigEndian 2 message.sequence.toNat ++ bigEndian 8 message.timestamp.toNat

/-- The datagram of a message. -/
def Message.encode (message : Message) : Except Failure (List UInt8) :=
  (message.tuples.mapM Tuple.encode).map fun tuples => sealed (message.header ++ tuples.flatten)

/-! ## Reading -/

/-- A place in the bytes before the check byte. -/
structure Cursor where
  /-- How many bytes there are in all. -/
  size : Nat
  /-- How many bytes have been read. -/
  offset : Nat
  /-- The bytes that follow. -/
  rest : List UInt8
  deriving DecidableEq, Repr

namespace Cursor

/-- The place before the first byte. -/
def start (bytes : List UInt8) : Cursor :=
  ⟨bytes.length, 0, bytes⟩

/-- Read the given number of bytes. -/
def take (count : Nat) (c : Cursor) : Except Failure (List UInt8 × Cursor) :=
  let bytes := c.rest.take count
  let stop := c.offset + count
  if bytes.length = count then .ok (bytes, ⟨c.size, stop, c.rest.drop count⟩)
  else
    .error (.decode
      ("buffer too short: needed " ++ toString stop ++ " bytes, found " ++ toString c.size))

/-- Read a number of the given width. -/
def number (width : Nat) (c : Cursor) : Except Failure (Nat × Cursor) :=
  (c.take width).map fun (bytes, c) => (ofBigEndian bytes, c)

/-- Read one byte. -/
def byte (c : Cursor) : Except Failure (UInt8 × Cursor) :=
  (c.number 1).map fun (n, c) => (UInt8.ofNat n, c)

/-- Read a length in two bytes and as many bytes. -/
def counted (c : Cursor) : Except Failure (List UInt8 × Cursor) := do
  let (length, c) ← c.number 2
  c.take length

/-- Read a value of the given type; `start` is the place of the type code. -/
def value (start : Nat) (type : UInt8) (c : Cursor) : Except Failure (Value × Cursor) :=
  match type with
  | 1 => (c.number 4).map fun (n, c) => (.int (UInt32.ofNat n).toInt32, c)
  | 2 => do
    let (bytes, next) ← c.counted
    match Text.ofUtf8? bytes with
    | some text => .ok (.text text, next)
    | none => .error (.decode ("invalid UTF-8 string at offset " ++ toString c.offset))
  | 3 => (c.counted).map fun (bytes, c) => (.bytes bytes, c)
  | 4 => (c.byte).map fun (b, c) => (.byte b, c)
  | other =>
    .error (.decode
      ("unknown tuple type " ++ toString other.toNat ++ " at offset " ++ toString start))

/-- Read one tuple. -/
def tuple (c : Cursor) : Except Failure (Tuple × Cursor) := do
  let (type, next) ← c.byte
  let (id, next) ← next.byte
  let (value, next) ← next.value c.offset type
  return (⟨type, id, value⟩, next)

theorem take_rest {count : Nat} {c next : Cursor} {bytes : List UInt8}
    (h : c.take count = .ok (bytes, next)) :
    c.rest = bytes ++ next.rest ∧ bytes.length = count := by
  simp only [take] at h
  split at h
  · rename_i hlength
    cases h
    exact ⟨(List.take_append_drop count c.rest).symm, hlength⟩
  · cases h

theorem number_rest {width n : Nat} {c next : Cursor} (h : c.number width = .ok (n, next)) :
    ∃ bytes, c.take width = .ok (bytes, next) ∧ n = ofBigEndian bytes := by
  obtain ⟨⟨bytes, last⟩, htake, heq⟩ := Failure.ok_of_map h
  cases heq
  exact ⟨bytes, htake, rfl⟩

theorem byte_rest {b : UInt8} {c next : Cursor} (h : c.byte = .ok (b, next)) :
    next.rest.length + 1 = c.rest.length := by
  obtain ⟨⟨n, last⟩, hnumber, heq⟩ := Failure.ok_of_map h
  cases heq
  obtain ⟨bytes, htake, _⟩ := number_rest hnumber
  have hrest := take_rest htake
  rw [hrest.1, List.length_append, hrest.2]
  omega

theorem number_le {width n : Nat} {c next : Cursor} (h : c.number width = .ok (n, next)) :
    next.rest.length ≤ c.rest.length := by
  obtain ⟨bytes, htake, _⟩ := number_rest h
  rw [(take_rest htake).1, List.length_append]
  omega

theorem counted_le {bytes : List UInt8} {c next : Cursor} (h : c.counted = .ok (bytes, next)) :
    next.rest.length ≤ c.rest.length := by
  obtain ⟨⟨length, last⟩, hnumber, htake⟩ := Failure.ok_of_bind h
  have hle := number_le hnumber
  rw [(take_rest htake).1, List.length_append] at hle
  omega

theorem value_le {start : Nat} {type : UInt8} {v : Value} {c next : Cursor}
    (h : c.value start type = .ok (v, next)) : next.rest.length ≤ c.rest.length := by
  unfold value at h
  split at h
  · obtain ⟨⟨n, last⟩, hnumber, heq⟩ := Failure.ok_of_map h
    cases heq
    exact number_le hnumber
  · obtain ⟨⟨bytes, last⟩, hcounted, htext⟩ := Failure.ok_of_bind h
    dsimp only at htext
    split at htext <;> cases htext
    exact counted_le hcounted
  · obtain ⟨⟨bytes, last⟩, hcounted, heq⟩ := Failure.ok_of_map h
    cases heq
    exact counted_le hcounted
  · obtain ⟨⟨b, last⟩, hbyte, heq⟩ := Failure.ok_of_map h
    cases heq
    have hone := byte_rest hbyte
    omega
  · cases h

/-- A tuple takes at least two bytes, so that reading tuples comes to an end. -/
theorem tuple_lt {t : Tuple} {c next : Cursor} (h : c.tuple = .ok (t, next)) :
    next.rest.length < c.rest.length := by
  obtain ⟨⟨type, c₁⟩, htype, h⟩ := Failure.ok_of_bind h
  obtain ⟨⟨id, c₂⟩, hid, h⟩ := Failure.ok_of_bind h
  obtain ⟨⟨v, c₃⟩, hvalue, heq⟩ := Failure.ok_of_bind h
  cases heq
  have hone := byte_rest htype
  have htwo := byte_rest hid
  have hthree := value_le hvalue
  omega

/-- Read tuples up to the end; those read before are in `found`, last first. -/
def tuples (found : List Tuple) (c : Cursor) : Except Failure (List Tuple) :=
  if c.rest.isEmpty then .ok found.reverse
  else
    match h : c.tuple with
    | .error failure => .error failure
    | .ok (tuple, next) =>
      have : next.rest.length < c.rest.length := tuple_lt h
      tuples (tuple :: found) next
  termination_by c.rest.length

end Cursor

/-- The message that some bytes denote, the check byte apart. -/
def Message.decodeBody (bytes : List UInt8) : Except Failure Message := do
  let c := Cursor.start bytes
  let (major, c) ← c.byte
  let (minor, c) ← c.byte
  let (type, c) ← c.byte
  let (event, c) ← c.byte
  let (sequence, c) ← c.number 2
  let (timestamp, c) ← c.number 8
  let tuples ← c.tuples []
  return {
    major, minor, type, event, tuples
    sequence := UInt16.ofNat sequence
    timestamp := UInt64.ofNat timestamp }

/-- The message of a datagram. -/
def Message.decode (data : List UInt8) : Except Failure Message :=
  match data.getLast? with
  | none => .error (.decode "empty message")
  | some found =>
    let body := data.dropLast
    let expected := checksum body
    if found = expected then decodeBody body else .error (.checksum found expected)

end Wire
end Uplink
