import Mathlib.Data.List.Basic
import Uplink.Link.Exchange
import Uplink.Proofs.Watcher.Run

/-!
# Runs of a link

A link works with a transport that changes by itself: bytes arrive, files come and go, a peer hangs
up.  Otherwise the exchange changes when a command is submitted, when the submitters give up, and in
the moves of the watcher.  Each of the moves deals with the exchange in one of five ways.
-/

namespace Uplink
namespace Link

/-- What happens to a link: a command is submitted, the submitters give up waiting, the transport
changes, or something happens to the watcher. -/
inductive Label where
  | submit (command : String)
  | abandon
  | transport
  | watcher (label : Watcher.Label Unit)

/-- One thing that may happen to a link. -/
inductive Step : Watched → Label → Watched → Prop where
  | submit (w : Watched) (command : String) : Step w (.submit command) (w.submit command)
  | abandon (w : Watched) : Step w .abandon w.abandon
  | transport (w : Watched) (transport : Transport) :
      Step w .transport (w.withResource { w.resource with transport })
  | watcher {w next : Watched} {label : Watcher.Label Unit} :
      Watcher.Step Exchange.resource w label next → label ≠ .surroundings →
        Step w (.watcher label) next

/-- A link, and what happens to it next. -/
structure Moment where
  link : Watched
  label : Label

/-- A row of things that happen to a link. -/
inductive Run : Watched → List Moment → Watched → Prop where
  | nil (w : Watched) : Run w [] w
  | snoc {first last next : Watched} {moments : List Moment} {label : Label} :
      Run first moments last → Step last label next → Run first (moments ++ [⟨last, label⟩]) next

/-- A link that was never started. -/
structure Fresh (w : Watched) : Prop where
  watcher : Watcher.Fresh w
  exchange : ∃ name framing transport, w.resource = Exchange.of name framing transport

/-! ## What the watcher does to the exchange -/

/-- The exchange after its transport is closed. -/
def Exchange.shut (x : Exchange) : Exchange :=
  let x := { x with transport := x.transport.disconnect }
  match x.pending with
  | some pending => x.settlePending pending (.error (.closed x.name))
  | none => x

/-- The watcher leaves the exchange alone. -/
def Idle : Watcher.Label Unit → Prop
  | .surroundings => False
  | .move (.acquired _) => False
  | .move (.refused _) => False
  | .move (.worked _) => False
  | .move (.ended _ ending) => ending = .interrupted
  | .move (.released _ _) => False
  | _ => True

/-- What the exchange is after a step of the watcher. -/
inductive Touch (x : Exchange) : Watcher.Label Unit → Exchange → Prop where
  | idle {label : Watcher.Label Unit} : Idle label → Touch x label x
  | acquire {run : ℕ} {transport : Transport} : x.transport.connect = (.ok (), transport) →
      Touch x (.move (.acquired run)) { x with transport, framer := x.framer.reset }
  | refuse {run : ℕ} {failure : Failure} {transport : Transport} :
      x.transport.connect = (.error failure, transport) →
        Touch x (.move (.refused run)) { x with transport }
  | read {run : ℕ} {chunk : List UInt8} {transport : Transport} :
      x.transport.read readLimit = (.data chunk, transport) →
        Touch x (.move (.worked run)) ({ x with transport }.receive chunk).1
  | lose {run : ℕ} {transport : Transport} : x.transport.read readLimit = (.ended, transport) →
      Touch x (.move (.ended run .failed)) { x with transport }
  | shut {run : ℕ} {ending : Watcher.Ending} : Touch x (.move (.released run ending)) x.shut

section

variable {x next : Exchange} {task : Watcher.Task} {args : Unit} {now : ℕ} {permit success : Bool}
  {deed : Watcher.Deed}

/-- The only work is to read. -/
theorem act_eq_work (h : Exchange.resource.act task args now permit x = .work next deed) :
    ∃ chunk transport, x.transport.read readLimit = (.data chunk, transport) ∧
      next = ({ x with transport }.receive chunk).1 := by
  cases task with
  | acquire =>
      simp only [Exchange.resource, Exchange.act, Exchange.acquire] at h
      split at h <;> cases h
  | drive =>
      simp only [Exchange.resource, Exchange.act, Exchange.drive] at h
      split at h
      · cases h
      · cases h
      · rename_i chunk transport hread
        cases h
        exact ⟨chunk, transport, hread, rfl⟩
  | release =>
      simp only [Exchange.resource, Exchange.act, Exchange.release] at h
      split at h <;> cases h

theorem acquire_eq_finish
    (h : Exchange.resource.act .acquire args now permit x = .finish next success) :
    (success = true ∧ ∃ transport, x.transport.connect = (.ok (), transport) ∧
      next = { x with transport, framer := x.framer.reset }) ∨
    (success = false ∧ ∃ failure transport, x.transport.connect = (.error failure, transport) ∧
      next = { x with transport }) := by
  simp only [Exchange.resource, Exchange.act, Exchange.acquire] at h
  split at h
  · rename_i transport hconnect
    cases h
    exact .inl ⟨rfl, transport, hconnect, rfl⟩
  · rename_i failure transport hconnect
    cases h
    exact .inr ⟨rfl, failure, transport, hconnect, rfl⟩

/-- The drive ends with the stream. -/
theorem drive_eq_finish
    (h : Exchange.resource.act .drive args now permit x = .finish next success) :
    success = false ∧ ∃ transport, x.transport.read readLimit = (.ended, transport) ∧
      next = { x with transport } := by
  simp only [Exchange.resource, Exchange.act, Exchange.drive] at h
  split at h
  · cases h
  · rename_i transport hread
    cases h
    exact ⟨rfl, transport, hread, rfl⟩
  · cases h

theorem release_eq_finish
    (h : Exchange.resource.act .release args now permit x = .finish next success) :
    next = x.shut := by
  simp only [Exchange.resource, Exchange.act, Exchange.release] at h
  unfold Exchange.shut
  split at h
  · rename_i hpending
    cases h
    simp only [hpending]
  · rename_i hpending
    cases h
    simp only [hpending]

end

section

variable {w next : Watched} {holder : Watcher.Holder Unit} {event : Watcher.Event}
  {label : Watcher.Label Unit}

theorem resource_afterAcquire (holder : Watcher.Holder Unit) (w : Watched) (success : Bool) :
    (Watcher.afterAcquire Exchange.resource holder w success).2.resource = w.resource := by
  cases success with
  | true => exact Watcher.setState_resource ..
  | false => exact Watcher.setState_resource ..

theorem resource_afterRelease (holder : Watcher.Holder Unit) (ending : Watcher.Ending)
    (w : Watched) : (Watcher.afterRelease holder ending w).2.resource = w.resource := by
  cases ending with
  | interrupted => rfl
  | finished => exact Watcher.setState_resource ..
  | failed => exact Watcher.setState_resource ..

theorem touch_of_holderStep
    (h : Watcher.HolderStep Exchange.resource w holder event next) :
    Touch w.resource (.move event) next.resource := by
  cases h with
  | leave | retry => exact .idle trivial
  | interrupt => exact .idle rfl
  | work _ _ hact =>
      obtain ⟨chunk, transport, hread, rfl⟩ := act_eq_work hact
      rw [Watcher.display_resource]
      exact .read hread
  | acquire _ _ hact =>
      rcases acquire_eq_finish hact with ⟨-, transport, hconnect, rfl⟩ | ⟨hsuccess, -⟩
      · rw [resource_afterAcquire]
        exact .acquire hconnect
      · cases hsuccess
  | refuse _ _ hact =>
      rcases acquire_eq_finish hact with ⟨hsuccess, -⟩ | ⟨-, failure, transport, hconnect, rfl⟩
      · cases hsuccess
      · rw [resource_afterAcquire]
        exact .refuse hconnect
  | finish _ _ hact =>
      obtain ⟨rfl, transport, hread, rfl⟩ := drive_eq_finish hact
      exact .lose hread
  | release _ hact =>
      rw [resource_afterRelease]
      obtain rfl := release_eq_finish hact
      exact .shut

/-- Each step of the watcher deals with the exchange in one of the listed ways. -/
theorem touch_of_step (h : Watcher.Step Exchange.resource w label next)
    (hlabel : label ≠ .surroundings) : Touch w.resource label next.resource := by
  cases h with
  | start args =>
      have hresource : (w.start args).2.resource = w.resource := by
        unfold Watcher.start
        split <;> rfl
      rw [hresource]
      exact .idle trivial
  | stop =>
      have hresource : w.stop.2.resource = w.resource := by
        unfold Watcher.stop
        split <;> rfl
      rw [hresource]
      exact .idle trivial
  | say run ready =>
      rw [Watcher.setReady, Watcher.setState_resource]
      exact .idle trivial
  | surroundings => exact absurd rfl hlabel
  | holder _ hmove => exact touch_of_holderStep (Watcher.holderStep_of_holderMove? hmove)
  | _ => exact .idle trivial

end

/-! ## Parts of a run, and moments of rest -/

theorem Run.trans {first middle last : Watched} {moments moments' : List Moment}
    (h : Run first moments middle) (h' : Run middle moments' last) :
    Run first (moments ++ moments') last := by
  induction h' with
  | nil => rwa [List.append_nil]
  | snoc _ hstep ih =>
      rw [← List.append_assoc]
      exact .snoc ih hstep

theorem Run.single {w next : Watched} {label : Label} (h : Step w label next) :
    Run w [⟨w, label⟩] next :=
  .snoc (.nil w) h

/-- Up to each of its moments, a run is a run. -/
theorem Run.upTo {first last : Watched} {moments earlier later : List Moment} {moment : Moment}
    (h : Run first moments last) (hmoments : moments = earlier ++ moment :: later) :
    Run first earlier moment.link := by
  induction h generalizing later with
  | nil => exact absurd hmoments (by simp)
  | snoc hrun _ ih =>
      -- the moment is the last one, or it is one of those before
      rcases later.eq_nil_or_concat' with rfl | ⟨later, final, rfl⟩
      · obtain ⟨rfl, hmoment⟩ := List.append_inj' hmoments rfl
        cases hmoment
        exact hrun
      · rw [← List.cons_append, ← List.append_assoc] at hmoments
        exact ih (List.append_inj' hmoments rfl).1

/-- What a link does until it is settled is a run, in which only the watcher moves. -/
theorem exists_run_settle (w : Watched) :
    ∃ moments, Run w moments (w.settle Exchange.resource) ∧
      ∀ moment ∈ moments, ∃ event, moment.label = .watcher (.move event) := by
  have hstep : ∀ {w : Watched} {move}, w.move? Exchange.resource = some move →
      Step w (.watcher (.move move.1)) move.2 :=
    fun h => .watcher (Watcher.step_of_move? h) (by simp)
  fun_induction Watcher.settle Exchange.resource w with
  | case1 w move h _ _ ih =>
      obtain ⟨moments, hrun, hmoves⟩ := ih
      refine ⟨_, (Run.single (hstep h)).trans hrun, ?_⟩
      intro moment hmem
      rcases List.mem_append.mp hmem with hmem | hmem
      · cases List.mem_singleton.mp hmem
        exact ⟨move.1, rfl⟩
      · exact hmoves moment hmem
  | case2 w move h _ => exact ⟨_, Run.single (hstep h), by simp⟩
  | case3 w h => exact ⟨[], .nil w, by simp⟩

end Link
end Uplink
