/-!
# UTF-8

Strict decoding is the inverse of encoding.  Lossy decoding never fails: each maximal part of an
ill-formed sequence becomes one replacement character, so that received bytes can always be shown.

The lossy decoder is a machine that reads one byte at a time.  Between two characters it is `ready`;
inside a character it knows how many bytes are still `due`, and which bytes may come next.
-/

namespace Uplink
namespace Text

/-- The bytes that encode a text. -/
def utf8 (text : String) : List UInt8 :=
  text.toUTF8.data.toList

/-- The text that some bytes encode, if they encode one. -/
def ofUtf8? (bytes : List UInt8) : Option String :=
  String.fromUTF8? (ByteArray.mk bytes.toArray)

theorem ofUtf8?_utf8 (text : String) : ofUtf8? (utf8 text) = some text := by
  have bytes : ByteArray.mk (utf8 text).toArray = text.toByteArray := by simp [utf8]
  simp only [ofUtf8?, bytes, String.fromUTF8?, dif_pos text.isValidUTF8]
  rfl

namespace Utf8

/-- The character that stands for an ill-formed sequence. -/
def replacement : Char :=
  Char.ofNat 0xfffd

/-- What the lossy decoder remembers between two bytes. -/
inductive State where
  /-- No character has been started. -/
  | ready
  /-- `due` further bytes are missing, the next between `low` and `high`; `value` holds the bits
  read. -/
  | inside (due : Nat) (low high : UInt8) (value : Nat)
  deriving DecidableEq, Repr

/-- Read a byte that cannot continue a character. -/
def start (b : UInt8) : State × List Char :=
  let n := b.toNat
  if n < 0x80 then (.ready, [Char.ofNat n])
  else if n < 0xc2 then (.ready, [replacement])
  else if n < 0xe0 then (.inside 1 0x80 0xbf (n - 0xc0), [])
  else if n = 0xe0 then (.inside 2 0xa0 0xbf 0, [])
  else if n = 0xed then (.inside 2 0x80 0x9f 0xd, [])
  else if n < 0xf0 then (.inside 2 0x80 0xbf (n - 0xe0), [])
  else if n = 0xf0 then (.inside 3 0x90 0xbf 0, [])
  else if n < 0xf4 then (.inside 3 0x80 0xbf (n - 0xf0), [])
  else if n = 0xf4 then (.inside 3 0x80 0x8f 4, [])
  else (.ready, [replacement])

/-- Read one byte: the next state and the characters that it completes. -/
def step : State → UInt8 → State × List Char
  | .ready, b => start b
  | .inside due low high value, b =>
    if low ≤ b ∧ b ≤ high then
      let value := value * 64 + (b.toNat - 0x80)
      if due ≤ 1 then (.ready, [Char.ofNat value]) else (.inside (due - 1) 0x80 0xbf value, [])
    else
      let next := start b
      (next.1, replacement :: next.2)

/-- The characters that remain when the input ends. -/
def finish : State → List Char
  | .ready => []
  | .inside .. => [replacement]

/-- The state and the characters, last first, after some bytes. -/
def run (state : State) (found : List Char) (bytes : List UInt8) : State × List Char :=
  bytes.foldl
    (fun now b =>
      let next := step now.1 b
      (next.1, next.2.reverse ++ now.2))
    (state, found)

end Utf8

/-- The text of some bytes, with a replacement character for each maximal ill-formed part. -/
def lossy (bytes : List UInt8) : String :=
  let last := Utf8.run .ready [] bytes
  String.ofList (last.2.reverse ++ Utf8.finish last.1)

end Text
end Uplink
