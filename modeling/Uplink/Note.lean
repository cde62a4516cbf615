/-!
# Notes

Every supervised component tells its observers what happens to it in short tags.  A note is the
only trace that an internal retry leaves outside the component.
-/

namespace Uplink

/-- A transition or an attempt that a component reports. -/
inductive Note where
  /-- A resource is acquired, or a cycle found everything in place. -/
  | ready
  /-- An acquisition failed and another one is scheduled. -/
  | retry
  /-- A failure was absorbed where it happened. -/
  | error
  /-- Received bytes belong to no response. -/
  | skip
  /-- A response started and is not complete yet. -/
  | begin
  /-- More bytes of an unfinished response arrived. -/
  | middle
  /-- A response is complete. -/
  | response
  /-- The dialer was launched. -/
  | pppd
  /-- A route was added. -/
  | route
  /-- The identity request was written to the modem. -/
  | requestImei
  /-- The signal request was written to the modem. -/
  | requestRssi
  deriving DecidableEq, Repr, Inhabited

namespace Note

/-- How many notes are kept for an observer who does not look. -/
def room : Nat := 64

/-- All notes, in the order of their declaration. -/
def all : List Note :=
  [ready, retry, error, skip, begin, middle, response, pppd, route, requestImei, requestRssi]

/-- The tag under which a note is published. -/
def tag : Note → String
  | ready => "ready"
  | retry => "retry"
  | error => "error"
  | skip => "skip"
  | begin => "begin"
  | middle => "middle"
  | response => "response"
  | pppd => "pppd"
  | route => "route"
  | requestImei => "requestIMEI"
  | requestRssi => "requestRSSI"

/-- The note with the given tag. -/
def ofTag? (text : String) : Option Note :=
  all.find? fun note => note.tag = text

theorem tag_injective {a b : Note} (h : a.tag = b.tag) : a = b := by
  revert h
  cases a <;> cases b <;> decide

end Note
end Uplink
