import Uplink.Link.Exchange

/-!
# Submissions under way

A submission that gets the free place waits for the writer, writes its command, and waits for its
response.  Between these parts other things may happen: a response comes, another submission begins,
the connection is closed.  `Watched.submit` makes all parts but the last at once; here each part is
made by itself.

When a submitter gives up, nothing is done about its command.  When a write fails, the place is
cleared, whichever command has it by then.
-/

namespace Uplink
namespace Link

namespace Exchange

/-- Take the free place for a command. -/
def reserve (x : Exchange) (id : Nat) (command : String) : Exchange :=
  { x with pending := some ⟨id, command, true⟩ }

/-- Clear the place.  If the submitter of the command there still waits, its submission fails. -/
def vacate (x : Exchange) : Exchange :=
  match x.pending with
  | some pending => x.settlePending pending (.error (.closed x.name))
  | none => x

/-- Forget how a submission ended. -/
def forget (x : Exchange) (id : Nat) : Exchange :=
  { x with outcomes := x.outcomes.filter fun outcome => outcome.1 ≠ id }

/-- A write has failed.  This is how the submission ended, even if a response came for it before. -/
def failWrite (x : Exchange) (id : Nat) (failure : Failure) : Exchange :=
  (x.vacate.forget id).conclude id (.error failure)

/-- A submitter gives up.  Nobody looks at the end of its submission; if its command has the place,
it keeps it. -/
def leave (x : Exchange) (id : Nat) : Exchange :=
  forget { x with pending := x.pending.map fun pending =>
    if pending.id = id then { pending with awaited := false } else pending } id

end Exchange

/-- How far a submission is. -/
inductive Phase where
  /-- It waits for the writer. -/
  | queued
  /-- It writes. -/
  | writing
  /-- It waits for the response. -/
  | waiting
  deriving DecidableEq, Repr

/-- A submission whose submitter waits for its end. -/
structure Submission where
  /-- The number of the submission. -/
  id : Nat
  /-- How far it is. -/
  phase : Phase
  deriving DecidableEq, Repr

/-- A link with the submissions that are under way. -/
structure Desk where
  /-- The link. -/
  link : Watched
  /-- The submissions under way, in the order of their beginnings. -/
  underway : List Submission := []

namespace Desk

/-- The state of the link beside that of its watcher. -/
def exchange (d : Desk) : Exchange :=
  d.link.resource

/-- The numbers of the submissions under way. -/
def ids (d : Desk) : List Nat :=
  d.underway.map Submission.id

/-- Nobody writes. -/
def WriterFree (d : Desk) : Prop :=
  ∀ submission ∈ d.underway, submission.phase ≠ .writing

instance (d : Desk) : Decidable d.WriterFree :=
  inferInstanceAs (Decidable (∀ submission ∈ d.underway, submission.phase ≠ .writing))

/-- The desk with the exchange in another state. -/
def withExchange (d : Desk) (x : Exchange) : Desk :=
  { d with link := d.link.withResource x }

/-- Let a submission enter another phase. -/
def toPhase (d : Desk) (id : Nat) (phase : Phase) : Desk :=
  { d with underway := d.underway.map fun submission =>
    if submission.id = id then { submission with phase } else submission }

/-- A submission is not under way any longer. -/
def dismiss (d : Desk) (id : Nat) : Desk :=
  { d with underway := d.underway.filter fun submission => submission.id ≠ id }

/-- Begin a submission.  It fails at once if the link is not ready or the place is taken. -/
def submit (d : Desk) (command : String) : Desk :=
  let id := d.exchange.submissions
  let x := { d.exchange with submissions := id + 1 }
  if !d.link.ready then d.withExchange (x.conclude id (.error .notReady))
  else if x.pending.isSome then d.withExchange (x.conclude id (.error .busy))
  else
    { link := d.link.withResource (x.reserve id command)
      underway := d.underway ++ [⟨id, .queued⟩] }

/-- The write of a submission has failed. -/
def fail (d : Desk) (id : Nat) (failure : Failure) : Desk :=
  (d.withExchange (d.exchange.failWrite id failure)).dismiss id

/-- The submitter gives up. -/
def abandon (d : Desk) (id : Nat) : Desk :=
  (d.withExchange (d.exchange.leave id)).dismiss id

variable (d : Desk) (x : Exchange) (id : Nat) (phase : Phase)

@[simp] theorem exchange_withExchange : (d.withExchange x).exchange = x := rfl
@[simp] theorem underway_withExchange : (d.withExchange x).underway = d.underway := rfl
@[simp] theorem ids_withExchange : (d.withExchange x).ids = d.ids := rfl
@[simp] theorem link_toPhase : (d.toPhase id phase).link = d.link := rfl
@[simp] theorem exchange_toPhase : (d.toPhase id phase).exchange = d.exchange := rfl
@[simp] theorem link_dismiss : (d.dismiss id).link = d.link := rfl
@[simp] theorem exchange_dismiss : (d.dismiss id).exchange = d.exchange := rfl

@[simp] theorem ids_toPhase : (d.toPhase id phase).ids = d.ids := by
  simp only [ids, toPhase, List.map_map]
  refine List.map_congr_left fun submission _ => ?_
  simp only [Function.comp_apply]
  split <;> rfl

@[simp] theorem ids_dismiss : (d.dismiss id).ids = d.ids.filter (· ≠ id) := by
  simp only [ids, dismiss, List.filter_map]
  rfl

end Desk
end Link
end Uplink
