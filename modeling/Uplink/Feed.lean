/-!
# Feeds

What a component publishes is kept for its observer until the observer looks.  A feed has room for a
number of items; when more are published between two looks, the oldest are lost, and the observer is
told how many.
-/

namespace Uplink

/-- The items published since the observer last looked, last first. -/
structure Feed (α : Type) where
  /-- The items, last first. -/
  items : List α := []
  deriving Repr, Inhabited

namespace Feed

variable {α : Type}

/-- Publish an item. -/
def publish (feed : Feed α) (item : α) : Feed α :=
  ⟨item :: feed.items⟩

/-- Publish several items, the first one first. -/
def publishAll (feed : Feed α) (items : List α) : Feed α :=
  items.foldl publish feed

theorem items_publishAll (feed : Feed α) (items : List α) :
    (feed.publishAll items).items = items.reverse ++ feed.items := by
  induction items generalizing feed with
  | nil => rfl
  | cons item items ih =>
    have hrest := ih (feed.publish item)
    simpa [publishAll, publish] using hrest

/-- What an observer sees of a feed with the given room: how many items are lost, and the others. -/
def observe (room : Nat) (feed : Feed α) : Nat × List α :=
  (feed.items.length - room, (feed.items.take room).reverse)

end Feed
end Uplink
