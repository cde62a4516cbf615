import Uplink.Failure
import Uplink.Keyed
import Uplink.Text.Glob

/-!
# The key-value store

A store keeps a text, a hash or a list under each of its keys.  Every call is noted in a journal
before anything else happens, and may be made to fail.  A call that meets a value of another kind
fails and changes nothing.

`Contents.apply` says what a call does to the contents; `Store.perform` adds journal and failure.
-/

namespace Uplink
namespace Store

/-- What is kept under a key. -/
inductive Entry where
  /-- A text. -/
  | text (s : String)
  /-- Texts under the names of fields. -/
  | hash (fields : Keyed String)
  /-- Texts in a row, from the head on. -/
  | list (items : List String)
  deriving DecidableEq, Repr

/-- A call of the store. -/
inductive Call where
  /-- Read all fields of a hash. -/
  | readHash (key : String)
  /-- Write fields of a hash. -/
  | writeFields (key : String) (fields : List (String × String))
  /-- Remove fields of a hash. -/
  | removeFields (key : String) (fields : List String)
  /-- List the keys that have the form of a pattern. -/
  | listKeys (pattern : String)
  /-- Read a text. -/
  | readText (key : String)
  /-- Write a text. -/
  | writeText (key value : String)
  /-- Write several texts. -/
  | writeTexts (pairs : List (String × String))
  /-- Put a text at the head of a list. -/
  | push (key value : String)
  deriving DecidableEq, Repr

/-- The answer to a call. -/
inductive Reply where
  /-- Nothing but success. -/
  | done
  /-- The fields of a hash. -/
  | hash (fields : Keyed String)
  /-- A text, if there is one. -/
  | text (s : Option String)
  /-- Keys in order. -/
  | keys (names : List String)
  /-- A number of fields or items. -/
  | count (n : Nat)
  deriving DecidableEq, Repr

/-- What is kept under the keys. -/
abbrev Contents := Keyed Entry

/-- A value of another kind is kept under the key. -/
def wrongKind (key : String) : Failure :=
  .store ("WRONGTYPE operation against key " ++ key ++ " holding the wrong kind of value")

/-- Remove fields one after another, counting those that were there. -/
def removeAll (fields : Keyed String) (names : List String) : Nat × Keyed String :=
  names.foldl
    (fun now name => if now.2.has name then (now.1 + 1, now.2.erase name) else now)
    (0, fields)

/-- The answer to a call and the contents after it. -/
def Contents.apply (contents : Contents) : Call → Except Failure (Reply × Contents)
  | .readHash key =>
    match contents.find? key with
    | none => .ok (.hash [], contents)
    | some (.hash fields) => .ok (.hash fields, contents)
    | some _ => .error (wrongKind key)
  | .writeFields key fields =>
    match contents.find? key with
    | none => .ok (.done, contents.insert key (.hash (Keyed.ofList fields)))
    | some (.hash old) => .ok (.done, contents.insert key (.hash (old.insertAll fields)))
    | some _ => .error (wrongKind key)
  | .removeFields key names =>
    match contents.find? key with
    | none => .ok (.count 0, contents)
    | some (.hash fields) =>
      let (n, fields) := removeAll fields names
      .ok (.count n,
        if fields.isEmpty then contents.erase key else contents.insert key (.hash fields))
    | some _ => .error (wrongKind key)
  | .listKeys pattern => .ok (.keys (contents.keys.filter (Text.globMatches pattern)), contents)
  | .readText key =>
    match contents.find? key with
    | none => .ok (.text none, contents)
    | some (.text s) => .ok (.text (some s), contents)
    | some _ => .error (wrongKind key)
  | .writeText key value => .ok (.done, contents.insert key (.text value))
  | .writeTexts pairs =>
    .ok (.done, contents.insertAll (pairs.map fun pair => (pair.1, .text pair.2)))
  | .push key value =>
    match contents.find? key with
    | none => .ok (.count 1, contents.insert key (.list [value]))
    | some (.list items) =>
      .ok (.count (items.length + 1), contents.insert key (.list (value :: items)))
    | some _ => .error (wrongKind key)

end Store

/-- A store with its journal. -/
structure Store where
  /-- What is kept. -/
  contents : Store.Contents := []
  /-- The calls so far, last first. -/
  journal : List Store.Call := []
  /-- Why every call fails, while it does. -/
  failure : Option String := none
  deriving Repr, Inhabited

namespace Store

/-- Make a call: its answer, and the store after it. -/
def perform (store : Store) (call : Call) : Except Failure Reply × Store :=
  let noted := { store with journal := call :: store.journal }
  match store.failure with
  | some reason => (.error (.store reason), noted)
  | none =>
    match store.contents.apply call with
    | .ok (reply, contents) => (.ok reply, { noted with contents })
    | .error failure => (.error failure, noted)

/-- Read all fields of a hash. -/
def readHash (store : Store) (key : String) : Except Failure (Keyed String) × Store :=
  let (reply, store) := store.perform (.readHash key)
  (reply.map fun
    | .hash fields => fields
    | _ => [], store)

/-- Put a text at the head of a list. -/
def push (store : Store) (key value : String) : Except Failure Unit × Store :=
  let (reply, store) := store.perform (.push key value)
  (reply.map fun _ => (), store)

/-- Write a text. -/
def writeText (store : Store) (key value : String) : Except Failure Unit × Store :=
  let (reply, store) := store.perform (.writeText key value)
  (reply.map fun _ => (), store)

/-- Write several texts. -/
def writeTexts (store : Store) (pairs : List (String × String)) : Except Failure Unit × Store :=
  let (reply, store) := store.perform (.writeTexts pairs)
  (reply.map fun _ => (), store)

/-! ## Access beside the calls -/

/-- Replace what is kept under a key by a hash. -/
def seed (store : Store) (key : String) (fields : List (String × String)) : Store :=
  { store with contents := store.contents.insert key (.hash (Keyed.ofList fields)) }

/-- The items of a list. -/
def items (store : Store) (key : String) : List String :=
  match store.contents.find? key with
  | some (.list items) => items
  | _ => []

/-- The text under a key. -/
def text? (store : Store) (key : String) : Option String :=
  match store.contents.find? key with
  | some (.text s) => some s
  | _ => none

/-- Take the calls out of the journal, in their order. -/
def drain (store : Store) : List Call × Store :=
  (store.journal.reverse, { store with journal := [] })

/-! ## Keys of the gateway -/

/-- The hash with the configuration. -/
def configKey : String := "m2m-config"

/-- The list of messages for the field device. -/
def commandQueue : String := "m2m-command:queue"

/-- The list of acknowledged numbers. -/
def ackQueue : String := "m2m-ack:queue"

/-- When a datagram was last relayed. -/
def lastRelayKey : String := "m2m-transmit:last-timestamp"

/-- When a datagram was last relayed over the private path. -/
def lastPrivateRelayKey : String := "m2m-transmit:last-private-timestamp"

end Store
end Uplink
