/-!
# The identity of the modem

The modem is asked for its identity twice and echoes it twice: fifteen digits, a confirmation, the
digits again, a confirmation again.  Lines of other kinds may stand in between.  If the two
numbers agree, the identity is resolved; otherwise it is unknown.
-/

namespace Uplink
namespace Modem

/-- The confirmation after each answer. -/
def confirmation : String := "OK"

/-- The identity of a modem that answered with two different numbers. -/
def unknownIdentity : String := "unknown"

/-- Whether a line consists of fifteen digits. -/
def isIdentity (line : String) : Bool :=
  line.toList.length = 15 && line.toList.all Char.isDigit

/-- The end of the search for the identity. -/
inductive Resolution where
  /-- Both answers were this number. -/
  | resolved (identity : String)
  /-- The answers differ. -/
  | unknown
  deriving DecidableEq, Repr

/-- The identity after a resolution. -/
def Resolution.identity : Resolution → String
  | resolved identity => identity
  | unknown => unknownIdentity

/-- The search for the identity. -/
structure IdentityTracker where
  /-- The lines that were picked, in order. -/
  candidates : List String := []
  /-- The identity, once it is decided. -/
  identity : Option String := none
  deriving DecidableEq, Repr, Inhabited

namespace IdentityTracker

/-- A line fits the next place: a number at first and after each confirmation, a confirmation
else. -/
def fits (tracker : IdentityTracker) (line : String) : Bool :=
  if tracker.candidates.length % 2 = 1 then line = confirmation else isIdentity line

/-- What four picked lines decide. -/
def decide? : List String → Option Resolution
  | [first, _, second, _] => some (if first = second then .resolved first else .unknown)
  | _ => none

/-- Consider a line: the search afterwards, and how it ended if it ended now. -/
def consider (tracker : IdentityTracker) (line : String) : IdentityTracker × Option Resolution :=
  if tracker.identity.isSome || !tracker.fits line then (tracker, none)
  else
    let candidates := tracker.candidates ++ [line]
    let resolution := decide? candidates
    (⟨candidates, resolution.map Resolution.identity⟩, resolution)

end IdentityTracker
end Modem
end Uplink
