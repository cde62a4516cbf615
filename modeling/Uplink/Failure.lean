import Uplink.Text.Quoted

/-!
# Failures

What can go wrong, as causes.  A failure of the surroundings is worth another attempt; a misuse is
the caller's mistake; everything else concerns one datagram, line or value, which is dropped.  The
wording of a failure is in `Failure.message` alone.
-/

namespace Uplink

/-- Why an operation did not succeed. -/
inductive Failure where
  /-- A component was started while it was started. -/
  | alreadyStarted (component : String)
  /-- A component was stopped, or used, while it was not started. -/
  | notStarted (component : String)
  /-- A link is down. -/
  | notReady
  /-- A command is waiting for its response. -/
  | busy
  /-- Input or output failed; `cause` is absent when its wording is the system's own. -/
  | io (context : String) (cause : Option String)
  /-- The check byte of a datagram is not the one its bytes call for. -/
  | checksum (found expected : UInt8)
  /-- Bytes or text do not have the form of a message. -/
  | decode (details : String)
  /-- A value lies outside what its field allows. -/
  | invalidValue (field value : String)
  /-- A command ended with a code other than zero. -/
  | shell (command : String) (code : Int) (output : String)
  /-- The key-value store refused a call. -/
  | store (reason : String)
  /-- A configuration cannot be used. -/
  | config (reason : String)
  /-- A message has a type that is not handled. -/
  | unexpectedType (type : UInt8)
  /-- The other side is gone. -/
  | closed (context : String)
  deriving DecidableEq, Repr, Inhabited

namespace Failure

/-- The context of a failed operation that nobody described. -/
def unknownContext : String := "<unknown>"

/-- The wording of a failure. -/
def message : Failure → String
  | alreadyStarted component => component ++ " already started"
  | notStarted component => component ++ " not started"
  | notReady => "not ready"
  | busy => "busy: a command is already pending"
  | io context none => "I/O error during " ++ context
  | io context (some cause) => "I/O error during " ++ context ++ ": " ++ cause
  | checksum found expected =>
    "CRC found: " ++ toString found.toNat ++ " - CRC expected: " ++ toString expected.toNat
  | decode details => "decode error: " ++ details
  | invalidValue field value => "invalid value for " ++ field ++ ": " ++ Text.quoted value
  | shell command code _ => "command '" ++ command ++ "' exited with " ++ toString code
  | store reason => "store error: " ++ reason
  | config reason => "configuration error: " ++ reason
  | unexpectedType type => "unexpected message type: " ++ toString type.toNat
  | closed context => context ++ " closed"

/-- Whether the surroundings are at fault, so that another attempt may succeed. -/
def isRetryable : Failure → Bool
  | io .. | shell .. | store .. | closed .. | notReady | busy => true
  | _ => false

/-- Whether the caller broke the contract of a component. -/
def isMisuse : Failure → Bool
  | alreadyStarted .. | notStarted .. => true
  | _ => false

/-- No misuse is worth another attempt. -/
theorem not_isRetryable_of_isMisuse {failure : Failure} (h : failure.isMisuse = true) :
    failure.isRetryable = false := by
  cases failure <;> simp_all [isMisuse, isRetryable]

/-- Two operations in a row succeed if the first does, and the second with its result. -/
theorem ok_of_bind {α β : Type} {x : Except Failure α} {f : α → Except Failure β} {b : β}
    (h : x >>= f = .ok b) : ∃ a, x = .ok a ∧ f a = .ok b := by
  cases x with
  | error failure => cases h
  | ok a => exact ⟨a, rfl, h⟩

/-- A result that was changed comes from a result. -/
theorem ok_of_map {α β : Type} {x : Except Failure α} {f : α → β} {b : β} (h : x.map f = .ok b) :
    ∃ a, x = .ok a ∧ f a = b := by
  cases x with
  | error failure => cases h
  | ok a => exact ⟨a, rfl, Except.ok.inj h⟩

end Failure
end Uplink
