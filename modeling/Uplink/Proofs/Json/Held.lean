import Uplink.Proofs.Json.Value

/-!
# Values as they are held

A value that is held, other than one that is merely denoted by a text, has no part without a value,
and the members of an object stand under different keys in their order.  Such a value is kept as it
is, provided that its brackets are not nested too deep.
-/

namespace Uplink
namespace Json

/-- A value that can be held. -/
inductive Held : Json → Prop where
  | null : Held null
  | bool (b : Bool) : Held (bool b)
  | int {n : ℤ} : -(UInt64.size : ℤ) ≤ 2 * n → n < UInt64.size → Held (number (.int n))
  | float {x : Binary64} : x.isFinite = true → Held (number (.float x))
  | string (s : String) : Held (string s)
  | array {items : List Json} : (∀ item ∈ items, Held item) → Held (array items)
  | object {members : List (String × Json)} :
      Keyed.Sorted members → (∀ member ∈ members, Held member.2) → Held (object members)

/-- No number of the value is a floating-point number. -/
inductive Floatless : Json → Prop where
  | null : Floatless null
  | bool (b : Bool) : Floatless (bool b)
  | int (n : ℤ) : Floatless (number (.int n))
  | string (s : String) : Floatless (string s)
  | array {items : List Json} : (∀ item ∈ items, Floatless item) → Floatless (array items)
  | object {members : List (String × Json)} :
      (∀ member ∈ members, Floatless member.2) → Floatless (object members)

variable {json : Json}

/-- Only floating-point numbers are written with a loss. -/
theorem Held.plain (h : json.Held) (hfloat : json.Floatless) : json.Plain := by
  induction h with
  | null => exact .null
  | bool b => exact .bool b
  | int hlow hhigh => exact .int hlow hhigh
  | float _ => cases hfloat
  | string s => exact .string s
  | array _ ih =>
      cases hfloat with
      | array hitems => exact .array fun item hitem => ih item hitem (hitems item hitem)
  | object _ _ ih =>
      cases hfloat with
      | object hmembers =>
          exact .object fun member hmember => ih member hmember (hmembers member hmember)

/-! ## Nesting -/

mutual

/-- How many levels of brackets a value has. -/
def levels : Json → ℕ
  | array items => itemLevels items + 1
  | object members => memberLevels members + 1
  | _ => 0

/-- The levels of the deepest item. -/
def itemLevels : List Json → ℕ
  | [] => 0
  | item :: items => max (levels item) (itemLevels items)

/-- The levels of the value under a key. -/
def valueLevels : String × Json → ℕ
  | (_, value) => levels value

/-- The levels of the deepest member. -/
def memberLevels : List (String × Json) → ℕ
  | [] => 0
  | member :: members => max (valueLevels member) (memberLevels members)

end

variable {n : ℕ}

theorem itemLevels_le_iff {items : List Json} :
    itemLevels items ≤ n ↔ ∀ item ∈ items, item.levels ≤ n := by
  induction items with
  | nil => simp [itemLevels]
  | cons item items ih => rw [itemLevels, Nat.max_le, ih, List.forall_mem_cons]

theorem memberLevels_le_iff {members : List (String × Json)} :
    memberLevels members ≤ n ↔ ∀ member ∈ members, member.2.levels ≤ n := by
  induction members with
  | nil => simp [memberLevels]
  | cons member members ih =>
      rw [memberLevels, Nat.max_le, ih, List.forall_mem_cons, valueLevels]

theorem levels_array_le_iff {items : List Json} :
    (array items).levels ≤ n + 1 ↔ ∀ item ∈ items, item.levels ≤ n := by
  rw [levels, Nat.succ_le_succ_iff, itemLevels_le_iff]

theorem levels_object_le_iff {members : List (String × Json)} :
    (object members).levels ≤ n + 1 ↔ ∀ member ∈ members, member.2.levels ≤ n := by
  rw [levels, Nat.succ_le_succ_iff, memberLevels_le_iff]

/-- Where each item is taken or refused, so is the whole row. -/
theorem mapM_if {α β : Type} {read : α → Option β} {result : α → β} {p : α → Prop}
    [DecidablePred p] {l : List α} (h : ∀ a ∈ l, read a = if p a then some (result a) else none) :
    l.mapM read = if ∀ a ∈ l, p a then some (l.map result) else none := by
  induction l with
  | nil => rfl
  | cons a l ih =>
      have hrest := ih fun b hb => h b (List.mem_cons_of_mem a hb)
      rw [List.mapM_cons, h a List.mem_cons_self, hrest]
      by_cases ha : p a
      · by_cases hl : ∀ b ∈ l, p b
        · rw [if_pos ha, if_pos hl, if_pos (List.forall_mem_cons.mpr ⟨ha, hl⟩)]
          rfl
        · rw [if_pos ha, if_neg hl, if_neg fun hall => hl (List.forall_mem_cons.mp hall).2]
          rfl
      · rw [if_neg ha, if_neg fun hall => ha (List.forall_mem_cons.mp hall).1]
        rfl

/-- A value that is held is kept as it is, unless it is nested too deep. -/
theorem Held.kept? (h : json.Held) (n : ℕ) :
    Json.kept? n json = if json.levels ≤ n then some json else none := by
  induction h generalizing n with
  | null => cases n <;> rfl
  | bool b => cases n <;> rfl
  | int _ _ => cases n <;> rfl
  | float _ => cases n <;> rfl
  | string s => cases n <;> rfl
  | @array items _ ih =>
      cases n with
      | zero => simp [Json.kept?, levels]
      | succ n =>
          have hitem : ∀ item ∈ items,
              Json.kept? n item = if item.levels ≤ n then some (id item) else none :=
            fun item hitem => ih item hitem n
          rw [Json.kept?, mapM_if hitem, List.map_id]
          simp only [levels_array_le_iff]
          split <;> rfl
  | @object members hsorted _ ih =>
      cases n with
      | zero => simp [Json.kept?, levels]
      | succ n =>
          have hmember : ∀ member ∈ members,
              ((Json.kept? n member.2).map fun value => (member.1, value)) =
                if member.2.levels ≤ n then some (id member) else none := by
            intro member hmember
            rw [ih member hmember n]
            split <;> rfl
          rw [Json.kept?, mapM_if hmember, List.map_id]
          simp only [levels_object_le_iff]
          split
          · rw [Option.map_some, Keyed.ofList_of_sorted hsorted]
          · rfl

end Json
end Uplink
