/-!
# The check byte

A datagram ends with the remainder of its bytes, read as a polynomial over two elements with the
most significant bit first, modulo `x ^ 8 + x ^ 2 + x + 1`.  The register starts at zero, and
neither the input nor the result is reflected.
-/

namespace Uplink
namespace Wire
namespace Checksum

/-- The terms of the modulus below `x ^ 8`. -/
def polynomial : UInt8 :=
  0x07

/-- Multiply the remainder by `x` and reduce it. -/
def shift (r : UInt8) : UInt8 :=
  if r &&& 0x80 = 0 then r <<< 1 else (r <<< 1) ^^^ polynomial

/-- Multiply the remainder by `x ^ 8` and reduce it. -/
def shiftByte (r : UInt8) : UInt8 :=
  shift (shift (shift (shift (shift (shift (shift (shift r)))))))

/-- Take one more byte into the remainder. -/
def step (r b : UInt8) : UInt8 :=
  shiftByte (r ^^^ b)

end Checksum

/-- The check byte of some bytes. -/
def checksum (bytes : List UInt8) : UInt8 :=
  bytes.foldl Checksum.step 0

/-- Some bytes followed by their check byte. -/
def sealed (bytes : List UInt8) : List UInt8 :=
  bytes ++ [checksum bytes]

end Wire
end Uplink
