import Uplink.Proofs.Store.TypedMap

/-!
# Rows of operations

Beside its calls a store can be seeded, looked at, and made to fail.  A typed store is a typed map
with a journal in which every call stands in its order; it is what the documentation of a store
describes.  A new store cannot be told from an empty typed store, whatever row of operations is made.
-/

namespace Uplink
namespace Store

/-- What can be done with a store. -/
inductive Operation where
  | call (call : Call)
  | seed (key : String) (fields : List (String × String))
  | items (key : String)
  | text (key : String)
  | drain
  | fail (reason : Option String)

namespace Operation

/-- The call that is made. -/
def call? : Operation → Option Call
  | .call made => some made
  | _ => none

/-- The keys under which an operation may change what is kept. -/
def writes : Operation → List String
  | .call made => made.writes
  | .seed key _ => [key]
  | _ => []

end Operation

/-- What an operation shows, where calls have answers `ρ`. -/
inductive Outcome (ρ : Type) where
  | done
  | answer (result : Except Failure ρ)
  | items (row : List String)
  | text (s : Option String)
  | calls (row : List Call)

namespace Outcome

variable {ρ ρ' : Type}

def map (f : ρ → ρ') : Outcome ρ → Outcome ρ'
  | .done => .done
  | .answer result => .answer (result.map f)
  | .items row => .items row
  | .text s => .text s
  | .calls row => .calls row

/-- The calls that are shown. -/
def shown : Outcome ρ → List Call
  | .calls row => row
  | _ => []

end Outcome

/-- What is done with a store, and the store afterwards. -/
def next (store : Store) : Operation → Outcome Reply × Store
  | .call call => ((.answer (store.perform call).1), (store.perform call).2)
  | .seed key fields => (.done, store.seed key fields)
  | .items key => (.items (store.items key), store)
  | .text key => (.text (store.text? key), store)
  | .drain => (.calls store.drain.1, store.drain.2)
  | .fail reason => (.done, { store with failure := reason })

/-- A typed map with the calls so far, in their order, and the reason for which calls fail. -/
structure TypedStore where
  map : TypedMap := ∅
  journal : List Call := []
  failure : Option String := none

namespace TypedStore

/-- A call is noted; if calls fail, nothing else happens. -/
def perform (typed : TypedStore) (call : Call) : Except Failure Answer × TypedStore :=
  let noted := { typed with journal := typed.journal ++ [call] }
  match typed.failure with
  | some reason => (.error (.store reason), noted)
  | none =>
    match typed.map.respond call with
    | .ok (answer, map) => (.ok answer, { noted with map })
    | .error failure => (.error failure, noted)

def next (typed : TypedStore) : Operation → Outcome Answer × TypedStore
  | .call call => ((.answer (typed.perform call).1), (typed.perform call).2)
  | .seed key fields =>
    (.done, { typed with map := typed.map.insert key (.hash (NamedMap.override ∅ fields)) })
  | .items key => (.items ((typed.map.list key).toOption.getD []), typed)
  | .text key => (.text ((typed.map.text key).toOption.getD none), typed)
  | .drain => (.calls typed.journal, { typed with journal := [] })
  | .fail reason => (.done, { typed with failure := reason })

end TypedStore

/-- What a row of operations shows, and what comes after it. -/
def follow {σ ω : Type} (next : σ → Operation → ω × σ) (state : σ) :
    List Operation → List ω × σ
  | [] => ([], state)
  | op :: ops =>
    let (outcome, state) := next state op
    let (outcomes, state) := follow next state ops
    (outcome :: outcomes, state)

/-- The store without how it keeps things. -/
def typed (store : Store) : TypedStore where
  map := Contents.view store.contents
  journal := store.journal.reverse
  failure := store.failure

section

variable {store : Store}

theorem perform_typed (h : Reached store) (call : Call) :
    ((store.perform call).1.map Reply.view, (store.perform call).2.typed) =
      store.typed.perform call := by
  have hview := Contents.view_apply h.sorted call
  rw [perform, TypedStore.perform]
  cases hfailure : store.failure with
  | some reason => simp [typed, hfailure, Except.map]
  | none =>
      cases happly : store.contents.apply call with
      | error failure =>
          rw [happly] at hview
          simp [typed, hfailure, ← hview, Except.map]
      | ok after =>
          rw [happly] at hview
          simp [typed, hfailure, ← hview, Except.map]

theorem items_eq_list (key : String) :
    store.items key = ((Contents.view store.contents).list key).toOption.getD [] := by
  rw [items, list_view]
  cases store.contents.find? key with
  | none => rfl
  | some entry => cases entry <;> rfl

theorem text?_eq_text (key : String) :
    store.text? key = ((Contents.view store.contents).text key).toOption.getD none := by
  rw [text?, text_view]
  cases store.contents.find? key with
  | none => rfl
  | some entry => cases entry <;> rfl

/-- An operation shows the same, and does the same, to a store and to its typed store. -/
theorem next_typed (h : Reached store) (op : Operation) :
    ((store.next op).1.map Reply.view, (store.next op).2.typed) = store.typed.next op := by
  cases op with
  | call call =>
      have hcall := perform_typed h call
      rw [TypedStore.next, ← hcall]
      rfl
  | seed key fields =>
      have hseeded : Contents.view (store.seed key fields).contents =
          (Contents.view store.contents).insert key (.hash (NamedMap.override ∅ fields)) := by
        rw [seed, view_insert, Entry.view, Keyed.ofList, Keyed.toMap_insertAll_id]
        rfl
      rw [next, TypedStore.next, typed, hseeded]
      rfl
  | items key => simp [next, TypedStore.next, Outcome.map, typed, items_eq_list]
  | text key => simp [next, TypedStore.next, Outcome.map, typed, text?_eq_text]
  | drain => rfl
  | fail reason => rfl

theorem Reached.next (h : Reached store) (op : Operation) : Reached (store.next op).2 := by
  cases op with
  | call call => exact h.perform call
  | seed key fields => exact h.seed key fields
  | items | text => exact h
  | drain => exact h.drain
  | fail reason => exact h.fail reason

theorem follow_typed (h : Reached store) (ops : List Operation) :
    ((follow next store ops).1.map (Outcome.map Reply.view), (follow next store ops).2.typed) =
      follow TypedStore.next store.typed ops := by
  induction ops generalizing store with
  | nil => rfl
  | cons op ops ih =>
      have hnext := next_typed h op
      have hrest := ih (h.next op)
      rw [follow, follow, ← hnext]
      simp only [List.map_cons, ← hrest]

/-! ## Failing operations, other keys, and the journal -/

theorem contents_of_perform_error {call : Call} {failure : Failure}
    (h : (store.perform call).1 = .error failure) :
    (store.perform call).2.contents = store.contents := by
  unfold perform at h ⊢
  split
  · rfl
  · split
    · rename_i hok
      simp_all
    · rfl

theorem next_frame {op : Operation} {key : String} (h : key ∉ op.writes) :
    (store.next op).2.contents.find? key = store.contents.find? key := by
  cases op with
  | call call => exact perform_frame store h
  | seed other fields =>
      have hne : key ≠ other := by simpa [Operation.writes] using h
      exact Keyed.find?_insert_of_ne hne _ store.contents
  | items | text | drain | fail => rfl

/-- The calls that an operation shows and those that stay in the journal are the ones that were there
before, and the one that the operation makes. -/
theorem journal_next (op : Operation) :
    (store.next op).1.shown ++ (store.next op).2.journal.reverse =
      store.journal.reverse ++ op.call?.toList := by
  cases op with
  | call call => simp [next, Outcome.shown, journal_perform, Operation.call?]
  | drain => simp [next, Outcome.shown, drain, Operation.call?]
  | seed | items | text | fail => simp [next, Outcome.shown, seed, Operation.call?]

theorem journal_follow (ops : List Operation) :
    (follow next store ops).1.flatMap Outcome.shown ++ (follow next store ops).2.journal.reverse =
      store.journal.reverse ++ ops.filterMap Operation.call? := by
  induction ops generalizing store with
  | nil => simp [follow]
  | cons op ops ih =>
      have hcalls : (op :: ops).filterMap Operation.call? =
          op.call?.toList ++ ops.filterMap Operation.call? := by
        cases hcall : op.call? <;> simp [hcall]
      rw [follow, hcalls, List.flatMap_cons, List.append_assoc, ih, ← List.append_assoc,
        journal_next, List.append_assoc]

end

/-- Whatever row of operations is made with a new store, it shows the same as an empty typed store
and becomes the same.  An operation that follows changes nothing that is kept if it is a call that
fails, and nothing under the keys it does not write.  The calls that were shown and those in the
journal are all calls that were made, in their order. -/
theorem follow_refines (ops : List Operation) (op : Operation) :
    let run := follow next {} ops
    let after := run.2.next op
    (run.1.map (Outcome.map Reply.view), run.2.typed) = follow TypedStore.next {} ops ∧
      (∀ failure, after.1 = .answer (.error failure) → after.2.contents = run.2.contents) ∧
      (∀ key ∉ op.writes, after.2.contents.find? key = run.2.contents.find? key) ∧
      run.1.flatMap Outcome.shown ++ run.2.journal.reverse = ops.filterMap Operation.call? := by
  intro run after
  refine ⟨follow_typed .empty ops, ?_, fun key hkey => next_frame hkey, journal_follow ops⟩
  intro failure hfailure
  cases op with
  | call call => exact contents_of_perform_error (Outcome.answer.inj hfailure)
  | seed | items | text | drain | fail => cases hfailure

/-- Fields are written twice and removed twice, a text is pushed onto as if it were a list, and the
store fails for a while. -/
def mixedOperations : List Operation :=
  [.call (.writeFields "h" [("a", "1"), ("b", "2"), ("a", "3")]), .call (.writeText "t" "x"),
    .fail (some "down"), .call (.writeText "t" "y"), .fail none,
    .call (.removeFields "h" ["b", "b", "c"])]

theorem follow_refines_mixed :
    let run := follow next {} mixedOperations
    let after := run.2.next (.call (.push "t" "z"))
    after.1 = .answer (.error (wrongKind "t")) ∧ after.2.contents = run.2.contents ∧
      "h" ∉ (Operation.call (.push "t" "z")).writes ∧
      after.2.contents.find? "h" = run.2.contents.find? "h" := by
  obtain ⟨-, herror, hframe, -⟩ := follow_refines mixedOperations (.call (.push "t" "z"))
  have hrefused : ((follow next {} mixedOperations).2.next (.call (.push "t" "z"))).1 =
      .answer (.error (wrongKind "t")) := by
    rfl
  have hother : "h" ∉ (Operation.call (.push "t" "z")).writes := by decide
  exact ⟨hrefused, herror _ hrefused, hother, hframe "h" hother⟩

end Store
end Uplink
