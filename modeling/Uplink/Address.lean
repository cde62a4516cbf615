import Uplink.Text.Numeral

/-!
# Internet addresses

The two kinds of addresses and their text.  Every address has one canonical text: numbers without
leading zeros, and in the longer kind the first of the longest runs of zero groups, if it has more
than one group, shown by two colons.
-/

namespace Uplink

/-- An internet address. -/
inductive Address where
  /-- An address of four bytes. -/
  | v4 (a b c d : UInt8)
  /-- An address of eight groups of sixteen bits. -/
  | v6 (groups : Vector UInt16 8)
  deriving DecidableEq, Repr

namespace Address

/-- The address on which all interfaces are reached. -/
def unspecified : Address :=
  v4 0 0 0 0

instance : Inhabited Address :=
  ⟨unspecified⟩

/-- Whether all bytes of an address are zero, so that it stands for every interface. -/
def isUnspecified : Address → Bool
  | v4 a b c d => [a, b, c, d].all fun n => n = 0
  | v6 groups => groups.toList.all fun n => n = 0

/-- The size of the largest datagram that can be sent to an address.  Its length is counted in sixteen
bits, and in version 4 with the header of twenty bytes, which also goes before a datagram to an address
of version 4 that is written as one of version 6. -/
def datagramLimit : Address → Nat
  | v4 .. => 65507
  | v6 groups => if groups.toList.take 6 = [0, 0, 0, 0, 0, 0xffff] then 65507 else 65527

/-! ## Writing -/

/-- Four bytes with points between them. -/
def bytesText (a b c d : UInt8) : String :=
  ".".intercalate ([a, b, c, d].map fun n => toString n.toNat)

/-- Groups with colons between them. -/
def groupsText (groups : List UInt16) : String :=
  ":".intercalate (groups.map fun n => String.ofList (Nat.toDigits 16 n.toNat))

/-- How many zero groups there are from a place on. -/
def zerosFrom (groups : List UInt16) (start : Nat) : Nat :=
  ((groups.drop start).takeWhile fun n => n = 0).length

/-- The place of the first of the longest runs of zero groups. -/
def longestZeros (groups : List UInt16) : Nat :=
  (List.range groups.length).foldl
    (fun best start => if zerosFrom groups best < zerosFrom groups start then start else best) 0

/-- The canonical text of eight groups. -/
def groupsCanonical (groups : List UInt16) : String :=
  let start := longestZeros groups
  let count := zerosFrom groups start
  if 1 < count then
    groupsText (groups.take start) ++ "::" ++ groupsText (groups.drop (start + count))
  else groupsText groups

/-- The canonical text of an address. -/
def text : Address → String
  | v4 a b c d => bytesText a b c d
  | v6 groups =>
    match groups.toList with
    | [0, 0, 0, 0, 0, 0xffff, high, low] =>
      "::ffff:" ++
        bytesText (high >>> 8).toUInt8 high.toUInt8 (low >>> 8).toUInt8 low.toUInt8
    | list => groupsCanonical list

/-! ## Reading -/

/-- Read digits of the given base, as many as there are; there must be one to `most`. -/
def readNumber? (base most : Nat) (cs : List Char) : Option (Nat × List Char × List Char) :=
  let digits := cs.takeWhile fun c => Text.digitValue c < base
  if digits.isEmpty || most < digits.length then none
  else some (Text.ofDigits base digits, digits, cs.dropWhile fun c => Text.digitValue c < base)

/-- Read a byte in decimal digits without leading zeros. -/
def readByte? (cs : List Char) : Option (UInt8 × List Char) :=
  match readNumber? 10 3 cs with
  | some (n, digits, rest) =>
    if (digits.head? = some '0' ∧ digits.length ≠ 1) ∨ 256 ≤ n then none
    else some (UInt8.ofNat n, rest)
  | none => none

/-- Read a mark and then a byte. -/
def readNextByte? : List Char → Option (UInt8 × List Char)
  | '.' :: rest => readByte? rest
  | _ => none

/-- Read four bytes with points between them. -/
def readBytes? (cs : List Char) : Option ((UInt8 × UInt8 × UInt8 × UInt8) × List Char) := do
  let (a, cs) ← readByte? cs
  let (b, cs) ← readNextByte? cs
  let (c, cs) ← readNextByte? cs
  let (d, cs) ← readNextByte? cs
  return ((a, b, c, d), cs)

/-- What stands before a group: nothing before the first, a colon before the others. -/
def readColon? (first : Bool) (cs : List Char) : Option (List Char) :=
  if first then some cs
  else
    match cs with
    | ':' :: rest => some rest
    | _ => none

/-- Read at most `room` groups.  Four bytes with points may stand for the last two groups.  The
result tells whether they do. -/
def readGroups (first : Bool) : Nat → List Char → List UInt16 × Bool × List Char
  | 0, cs => ([], false, cs)
  | room + 1, cs =>
    match if room = 0 then none else (readColon? first cs).bind readBytes? with
    | some ((a, b, c, d), rest) =>
      ([UInt16.ofNat (a.toNat * 256 + b.toNat), UInt16.ofNat (c.toNat * 256 + d.toNat)], true, rest)
    | none =>
      match (readColon? first cs).bind (readNumber? 16 4) with
      | some (n, _, rest) =>
        let (groups, mapped, rest) := readGroups false room rest
        (UInt16.ofNat n :: groups, mapped, rest)
      | none => ([], false, cs)

/-- The address of eight groups. -/
def ofGroups? (groups : List UInt16) : Option Address :=
  if h : groups.length = 8 then some (v6 ⟨groups.toArray, by simpa using h⟩) else none

/-- Read an address of groups. -/
def readV6? (cs : List Char) : Option (Address × List Char) :=
  let (front, mapped, rest) := readGroups true 8 cs
  if front.length = 8 then (ofGroups? front).map fun address => (address, rest)
  else if mapped then none
  else
    match rest with
    | ':' :: ':' :: rest =>
      let (back, _, rest) := readGroups true (7 - front.length) rest
      let zeros := List.replicate (8 - front.length - back.length) 0
      (ofGroups? (front ++ zeros ++ back)).map fun address => (address, rest)
    | _ => none

/-- The address that a text denotes. -/
def ofText? (text : String) : Option Address :=
  match readBytes? text.toList with
  | some ((a, b, c, d), []) => some (v4 a b c d)
  | some _ => none
  | none =>
    match readV6? text.toList with
    | some (address, []) => some address
    | _ => none

end Address
end Uplink
