import Mathlib.Data.List.TakeWhile
import Uplink.Address
import Uplink.Proofs.Text.Numeral

/-!
# The text of an address read back

The text of an address is read as this address.  Of the groups that are left out it does not matter
which they are, only that they are zero: the two colons say where they were, and their number is what
the others leave of eight.
-/

namespace Uplink
namespace Address

open Text

variable {base most n room : ℕ} {first : Bool} {cs rest : List Char} {groups : List UInt16}

/-! ## Numbers -/

/-- What comes next is no digit. -/
def Stops (base : ℕ) (rest : List Char) : Prop :=
  ∀ c ∈ rest.head?, base ≤ digitValue c

theorem stops_nil : Stops base [] := by
  intro c hc
  cases hc

theorem stops_cons {c : Char} (h : base ≤ digitValue c) (rest : List Char) :
    Stops base (c :: rest) := by
  intro c' hc
  cases hc
  exact h

theorem Stops.not_digit (h : Stops base rest) :
    ∀ c ∈ rest.head?, decide (digitValue c < base) = false := by
  intro c hc
  exact decide_eq_false (Nat.not_lt.mpr (h c hc))

theorem readNumber?_of_stops (h : Stops base cs) : readNumber? base most cs = none := by
  obtain ⟨htake, -⟩ := split_append (List.forall_mem_nil _) h.not_digit
  rw [List.nil_append] at htake
  simp [readNumber?, htake]

theorem readNumber?_toDigits (hone : 1 < base) (hbase : base ≤ 16)
    (hlength : (Nat.toDigits base n).length ≤ most) (hrest : Stops base rest) :
    readNumber? base most (Nat.toDigits base n ++ rest) =
      some (n, Nat.toDigits base n, rest) := by
  have hdigits : ∀ c ∈ Nat.toDigits base n, decide (digitValue c < base) = true :=
    fun c hc => decide_eq_true (digitValue_lt_of_mem_toDigits hone hbase hc)
  obtain ⟨htake, hdrop⟩ := split_append hdigits hrest.not_digit
  simp [readNumber?, htake, hdrop, hlength, ofDigits_toDigits hone hbase]

/-! ## Bytes -/

theorem readByte?_toDigits (a : UInt8) (hrest : Stops 10 rest) :
    readByte? (Nat.toDigits 10 a.toNat ++ rest) = some (a, rest) := by
  have hsize : a.toNat < 256 := a.toNat_lt
  have hlength : (Nat.toDigits 10 a.toNat).length ≤ 3 :=
    (Nat.length_toDigits_le_iff (by decide) (by decide)).mpr (by omega)
  have hzero : ¬ (((Nat.toDigits 10 a.toNat).head? = some '0' ∧
      (Nat.toDigits 10 a.toNat).length ≠ 1) ∨ 256 ≤ a.toNat) := by
    rintro (⟨hhead, hone⟩ | hlarge)
    · exact head?_toDigits_of_length hone hhead
    · omega
  rw [readByte?, readNumber?_toDigits (by decide) (by decide) hlength hrest]
  simp only [if_neg hzero, UInt8.ofNat_toNat]

/-- Four bytes that were written are read. -/
theorem readBytes?_bytesText (a b c d : UInt8) (hrest : Stops 10 rest) :
    readBytes? ((bytesText a b c d).toList ++ rest) = some ((a, b, c, d), rest) := by
  have hpoint : ∀ tail, Stops 10 ('.' :: tail) := stops_cons (by decide)
  have htext : (bytesText a b c d).toList ++ rest =
      Nat.toDigits 10 a.toNat ++ '.' :: (Nat.toDigits 10 b.toNat ++ '.' ::
        (Nat.toDigits 10 c.toNat ++ '.' :: (Nat.toDigits 10 d.toNat ++ rest))) := by
    simp [bytesText]
  rw [htext, readBytes?, readByte?_toDigits a (hpoint _)]
  simp [readNextByte?, readByte?_toDigits b (hpoint _), readByte?_toDigits c (hpoint _),
    readByte?_toDigits d hrest]

theorem suffix_of_readByte? {a : UInt8} (h : readByte? cs = some (a, rest)) : rest <:+ cs := by
  unfold readByte? at h
  split at h
  · rename_i n digits tail hnumber
    split at h
    · cases h
    · cases h
      unfold readNumber? at hnumber
      dsimp only at hnumber
      split at hnumber
      · cases hnumber
      · cases hnumber
        exact List.dropWhile_suffix _
  · cases h

theorem readBytes?_of_stops (h : Stops 10 cs) : readBytes? cs = none := by
  rw [readBytes?, readByte?, readNumber?_of_stops h]
  rfl

/-- Without a point there are no four bytes. -/
theorem readBytes?_of_not_mem (h : '.' ∉ cs) : readBytes? cs = none := by
  cases hfirst : readByte? cs with
  | none => rw [readBytes?, hfirst]; rfl
  | some found =>
      obtain ⟨a, rest⟩ := found
      have hnext : readNextByte? rest = none := by
        unfold readNextByte?
        split
        · exact absurd ((suffix_of_readByte? hfirst).subset List.mem_cons_self) h
        · rfl
      rw [readBytes?, hfirst]
      simp [hnext]

theorem bind_readBytes?_of_not_mem (h : '.' ∉ cs) :
    (readColon? first cs).bind readBytes? = none := by
  rw [Option.bind_eq_none_iff]
  intro tail htail
  apply readBytes?_of_not_mem
  unfold readColon? at htail
  split at htail
  · cases htail
    exact h
  · split at htail
    · cases htail
      exact fun hmem => h (List.mem_cons_of_mem _ hmem)
    · cases htail

/-! ## Groups -/

/-- Groups with a colon before each. -/
def tailChars (groups : List UInt16) : List Char :=
  groups.flatMap fun n => ':' :: Nat.toDigits 16 n.toNat

/-- Groups with colons between them. -/
def groupsChars : List UInt16 → List Char
  | [] => []
  | n :: groups => Nat.toDigits 16 n.toNat ++ tailChars groups

theorem toList_groupsText (groups : List UInt16) :
    (groupsText groups).toList = groupsChars groups := by
  rw [groupsText, String.toList_intercalate, List.map_map]
  cases groups with
  | nil => rfl
  | cons n groups =>
      induction groups generalizing n with
      | nil => simp [groupsChars, tailChars]
      | cons m groups ih =>
          have htail := ih m
          rw [List.map_cons] at htail
          rw [List.map_cons, List.map_cons, List.intercalate_cons_cons, htail]
          simp [groupsChars, tailChars]

theorem point_not_mem_toDigits (n : ℕ) : '.' ∉ Nat.toDigits 16 n := by
  intro hmem
  have hlt := digitValue_lt_of_mem_toDigits (by decide) (by decide) hmem
  exact absurd hlt (by decide)

theorem point_not_mem_tailChars (groups : List UInt16) : '.' ∉ tailChars groups := by
  intro hmem
  obtain ⟨n, -, hmem⟩ := List.mem_flatMap.mp hmem
  rcases List.mem_cons.mp hmem with heq | hmem
  · exact absurd heq (by decide)
  · exact point_not_mem_toDigits _ hmem

theorem point_not_mem_groupsChars (groups : List UInt16) : '.' ∉ groupsChars groups := by
  cases groups with
  | nil => exact List.not_mem_nil
  | cons n groups =>
      intro hmem
      rcases List.mem_append.mp hmem with hmem | hmem
      · exact point_not_mem_toDigits _ hmem
      · exact point_not_mem_tailChars _ hmem

/-! ### One group -/

theorem readGroups_of_none (hbytes : (readColon? first cs).bind readBytes? = none)
    (hnumber : (readColon? first cs).bind (readNumber? 16 4) = none) (room : ℕ) :
    readGroups first room cs = ([], false, cs) := by
  cases room with
  | zero => rfl
  | succ room => simp [readGroups, hbytes, hnumber]

theorem readGroups_of_number {digits last : List Char} {mapped : Bool}
    (hbytes : (readColon? first cs).bind readBytes? = none)
    (hnumber : (readColon? first cs).bind (readNumber? 16 4) = some (n, digits, rest))
    (hrest : readGroups false room rest = (groups, mapped, last)) :
    readGroups first (room + 1) cs = (UInt16.ofNat n :: groups, mapped, last) := by
  simp [readGroups, hbytes, hnumber, hrest]

theorem readGroups_of_bytes {a b c d : UInt8} (hroom : room ≠ 0)
    (hbytes : (readColon? first cs).bind readBytes? = some ((a, b, c, d), rest)) :
    readGroups first (room + 1) cs =
      ([UInt16.ofNat (a.toNat * 256 + b.toNat), UInt16.ofNat (c.toNat * 256 + d.toNat)], true,
        rest) := by
  simp [readGroups, hbytes, hroom]

theorem readNumber?_group (g : UInt16) (hrest : Stops 16 rest) :
    readNumber? 16 4 (Nat.toDigits 16 g.toNat ++ rest) =
      some (g.toNat, Nat.toDigits 16 g.toNat, rest) := by
  have hsize : g.toNat < 65536 := g.toNat_lt
  apply readNumber?_toDigits (by decide) (by decide) _ hrest
  exact (Nat.length_toDigits_le_iff (by decide) (by decide)).mpr (by omega)

/-! ### All groups -/

/-- What comes after the groups: nothing, or the two colons. -/
def Ends (rest : List Char) : Prop :=
  rest = [] ∨ ∃ tail, rest = ':' :: ':' :: tail

theorem Ends.stops (h : Ends rest) : Stops 16 rest := by
  rcases h with rfl | ⟨tail, rfl⟩
  · exact stops_nil
  · exact stops_cons (by decide) _

theorem Ends.readNumber? (h : Ends rest) :
    (readColon? first rest).bind (readNumber? 16 4) = none := by
  have hcolon : ∀ tail, Address.readNumber? 16 4 (':' :: tail) = none :=
    fun tail => readNumber?_of_stops (stops_cons (by decide) tail)
  rcases h with rfl | ⟨tail, rfl⟩
  · cases first <;> rfl
  · cases first
    · exact hcolon tail
    · exact hcolon (':' :: tail)

theorem stops_tailChars (h : Ends rest) (groups : List UInt16) :
    Stops 16 (tailChars groups ++ rest) := by
  cases groups with
  | nil => exact h.stops
  | cons n groups => exact stops_cons (by decide) _

theorem readGroups_tailChars (hrest : Ends rest) (hpoint : '.' ∉ rest)
    (hroom : groups.length ≤ room) :
    readGroups false room (tailChars groups ++ rest) = (groups, false, rest) := by
  induction groups generalizing room with
  | nil => exact readGroups_of_none (bind_readBytes?_of_not_mem hpoint) hrest.readNumber? room
  | cons g groups ih =>
      obtain ⟨room, rfl⟩ : ∃ less, room = less + 1 := ⟨room - 1, by simp at hroom; omega⟩
      have hbytes : (readColon? false (tailChars (g :: groups) ++ rest)).bind readBytes? = none := by
        apply bind_readBytes?_of_not_mem
        simp [point_not_mem_tailChars, hpoint]
      have hnumber := readNumber?_group g (stops_tailChars hrest groups)
      rw [← List.append_assoc] at hnumber
      have hread := readGroups_of_number hbytes hnumber (ih (by simpa using hroom))
      rwa [UInt16.ofNat_toNat] at hread

/-- Groups that were written are read, as far as there is room. -/
theorem readGroups_groupsChars (hrest : Ends rest) (hpoint : '.' ∉ rest)
    (hroom : groups.length ≤ room) :
    readGroups true room (groupsChars groups ++ rest) = (groups, false, rest) := by
  cases groups with
  | nil => exact readGroups_of_none (bind_readBytes?_of_not_mem hpoint) hrest.readNumber? room
  | cons g groups =>
      obtain ⟨room, rfl⟩ : ∃ less, room = less + 1 := ⟨room - 1, by simp at hroom; omega⟩
      have hbytes : (readColon? true (groupsChars (g :: groups) ++ rest)).bind readBytes? = none := by
        apply bind_readBytes?_of_not_mem
        simp [point_not_mem_groupsChars, hpoint]
      have hnumber := readNumber?_group g (stops_tailChars hrest groups)
      rw [← List.append_assoc] at hnumber
      have hread := readGroups_of_number hbytes hnumber
        (readGroups_tailChars hrest hpoint (by simpa using hroom))
      rwa [UInt16.ofNat_toNat] at hread

/-! ## Addresses -/

theorem ofGroups?_toList {groups : Vector UInt16 8} {list : List UInt16}
    (h : groups.toList = list) : ofGroups? list = some (v6 groups) := by
  subst h
  have hlength : groups.toList.length = 8 := by simp
  exact dif_pos hlength

/-- A text that starts with two colons or has no point is not one of four bytes. -/
theorem ofText?_of_readV6? {text : String} {address : Address}
    (hbytes : readBytes? text.toList = none)
    (hread : readV6? text.toList = some (address, [])) : ofText? text = some address := by
  rw [ofText?, hbytes]
  simp [hread]

/-- Groups that are all written. -/
theorem readV6?_groupsChars {groups : Vector UInt16 8} :
    readV6? (groupsChars groups.toList) = some (v6 groups, []) := by
  have hread : readGroups true 8 (groupsChars groups.toList ++ []) = (groups.toList, false, []) :=
    readGroups_groupsChars (.inl rfl) List.not_mem_nil (by simp)
  rw [List.append_nil] at hread
  have hlength : groups.toList.length = 8 := by simp
  simp only [readV6?, hread, if_pos hlength, ofGroups?_toList rfl, Option.map_some]

/-- Groups of which some are left out. -/
theorem readV6?_compressed {groups : Vector UInt16 8} {front back : List UInt16} {count : ℕ}
    (hcount : 0 < count) (hgroups : groups.toList = front ++ List.replicate count 0 ++ back) :
    readV6? (groupsChars front ++ ':' :: ':' :: groupsChars back) = some (v6 groups, []) := by
  have hlength : front.length + count + back.length = 8 := by
    have hall := congrArg List.length hgroups
    simp at hall
    omega
  have hfront : readGroups true 8 (groupsChars front ++ ':' :: ':' :: groupsChars back) =
      (front, false, ':' :: ':' :: groupsChars back) :=
    readGroups_groupsChars (.inr ⟨_, rfl⟩) (by simp [point_not_mem_groupsChars]) (by omega)
  have hback : readGroups true (7 - front.length) (groupsChars back ++ []) = (back, false, []) :=
    readGroups_groupsChars (.inl rfl) List.not_mem_nil (by omega)
  rw [List.append_nil] at hback
  have hzeros : 8 - front.length - back.length = count := by omega
  have hfew : front.length ≠ 8 := by omega
  simp only [readV6?, hfront, if_neg hfew, Bool.false_eq_true, if_false, hback, hzeros,
    ofGroups?_toList hgroups, Option.map_some]

theorem ofNat_bytes (n : UInt16) :
    UInt16.ofNat ((n >>> 8).toUInt8.toNat * 256 + n.toUInt8.toNat) = n := by
  have hsize : n.toNat < 65536 := n.toNat_lt
  apply UInt16.toNat_inj.mp
  simp [Nat.shiftRight_eq_div_pow]
  omega

/-- The last two groups as four bytes, behind the mark of an address of the other kind. -/
theorem readV6?_mapped {groups : Vector UInt16 8} {high low : UInt16}
    (hgroups : groups.toList = [0, 0, 0, 0, 0, 0xffff, high, low]) :
    readV6? (':' :: ':' :: 'f' :: 'f' :: 'f' :: 'f' :: ':' ::
      (bytesText (high >>> 8).toUInt8 high.toUInt8 (low >>> 8).toUInt8 low.toUInt8).toList) =
        some (v6 groups, []) := by
  generalize hbytes : (bytesText (high >>> 8).toUInt8 high.toUInt8 (low >>> 8).toUInt8
    low.toUInt8).toList = bytes
  have hlast : readGroups false 6 (':' :: bytes) = ([high, low], true, []) := by
    have hread := readBytes?_bytesText (high >>> 8).toUInt8 high.toUInt8 (low >>> 8).toUInt8
      low.toUInt8 stops_nil
    rw [List.append_nil, hbytes] at hread
    have hcolon : (readColon? false (':' :: bytes)).bind readBytes? = _ := hread
    rw [readGroups_of_bytes (by decide : 5 ≠ 0) hcolon, ofNat_bytes, ofNat_bytes]
  have hmark : readGroups true 7 ('f' :: 'f' :: 'f' :: 'f' :: ':' :: bytes) =
      ([0xffff, high, low], true, []) := by
    have hstops : Stops 16 (':' :: bytes) := stops_cons (by decide) bytes
    have hnumber := readNumber?_group 0xffff hstops
    exact readGroups_of_number (readBytes?_of_stops (stops_cons (by decide) _)) hnumber hlast
  have hcolon : ∀ tail, readGroups true 8 (':' :: tail) = ([], false, ':' :: tail) := by
    intro tail
    have hbytes : readBytes? (':' :: tail) = none := readBytes?_of_stops (stops_cons (by decide) _)
    have hnumber : readNumber? 16 4 (':' :: tail) = none :=
      readNumber?_of_stops (stops_cons (by decide) _)
    apply readGroups_of_none
    · exact hbytes
    · exact hnumber
  simp [readV6?, hcolon, hmark, ofGroups?_toList hgroups, List.replicate]

/-- The run of zeros that is left out. -/
theorem eq_append_zeros (groups : List UInt16) (start : ℕ) :
    groups = groups.take start ++ List.replicate (zerosFrom groups start) 0 ++
      groups.drop (start + zerosFrom groups start) := by
  have hzeros : (groups.drop start).takeWhile (fun n => n = 0) =
      List.replicate (zerosFrom groups start) 0 := by
    apply List.eq_replicate_iff.mpr
    refine ⟨rfl, ?_⟩
    intro n hn
    simpa using List.mem_takeWhile_imp hn
  have hrest : (groups.drop start).dropWhile (fun n => n = 0) =
      groups.drop (start + zerosFrom groups start) := by
    calc
      (groups.drop start).dropWhile (fun n => n = 0) =
          ((groups.drop start).takeWhile (fun n => n = 0) ++
            (groups.drop start).dropWhile (fun n => n = 0)).drop (zerosFrom groups start) :=
        (List.drop_left' rfl).symm
      _ = groups.drop (start + zerosFrom groups start) := by
        rw [List.takeWhile_append_dropWhile, List.drop_drop]
  calc
    groups = groups.take start ++ groups.drop start := (List.take_append_drop start groups).symm
    _ = _ := by
      rw [← hzeros, ← hrest, List.append_assoc, List.takeWhile_append_dropWhile]

/-- The canonical text shows all groups, or leaves out zeros. -/
theorem groupsCanonical_cases (groups : List UInt16) :
    (groupsCanonical groups).toList = groupsChars groups ∨
      ∃ front back count, 0 < count ∧ groups = front ++ List.replicate count 0 ++ back ∧
        (groupsCanonical groups).toList =
          groupsChars front ++ ':' :: ':' :: groupsChars back := by
  unfold groupsCanonical
  dsimp only
  by_cases hcount : 1 < zerosFrom groups (longestZeros groups)
  · rw [if_pos hcount]
    refine Or.inr ⟨_, _, _, Nat.lt_of_succ_lt hcount, eq_append_zeros groups _, ?_⟩
    simp [toList_groupsText]
  · rw [if_neg hcount]
    exact Or.inl (toList_groupsText groups)

theorem text_of_mapped {groups : Vector UInt16 8} {high low : UInt16}
    (hgroups : groups.toList = [0, 0, 0, 0, 0, 0xffff, high, low]) :
    (v6 groups).text = "::ffff:" ++ bytesText (high >>> 8).toUInt8 high.toUInt8 (low >>> 8).toUInt8
      low.toUInt8 := by
  simp only [text, hgroups]

theorem text_of_not_mapped {groups : Vector UInt16 8}
    (h : ∀ high low, groups.toList ≠ [0, 0, 0, 0, 0, 0xffff, high, low]) :
    (v6 groups).text = groupsCanonical groups.toList := by
  simp only [text]

/-- The text of an address is read as this address. -/
theorem ofText?_text (address : Address) : ofText? address.text = some address := by
  cases address with
  | v4 a b c d =>
      have hread := readBytes?_bytesText a b c d stops_nil
      rw [List.append_nil] at hread
      rw [ofText?, text, hread]
  | v6 groups =>
      by_cases hmapped : ∃ high low, groups.toList = [0, 0, 0, 0, 0, 0xffff, high, low]
      · obtain ⟨high, low, hgroups⟩ := hmapped
        have htext : (v6 groups).text.toList = ':' :: ':' :: 'f' :: 'f' :: 'f' :: 'f' :: ':' ::
            (bytesText (high >>> 8).toUInt8 high.toUInt8 (low >>> 8).toUInt8 low.toUInt8).toList := by
          rw [text_of_mapped hgroups, String.toList_append]
          rfl
        apply ofText?_of_readV6?
        · rw [htext]
          exact readBytes?_of_stops (stops_cons (by decide) _)
        · rw [htext]
          exact readV6?_mapped hgroups
      · have htext : (v6 groups).text = groupsCanonical groups.toList :=
          text_of_not_mapped (by simpa using hmapped)
        rw [htext]
        apply ofText?_of_readV6?
        · apply readBytes?_of_not_mem
          rcases groupsCanonical_cases groups.toList with hall | ⟨front, back, count, -, -, hsome⟩
          · rw [hall]
            exact point_not_mem_groupsChars _
          · rw [hsome]
            simp [point_not_mem_groupsChars]
        · rcases groupsCanonical_cases groups.toList with
            hall | ⟨front, back, count, hcount, hgroups, hsome⟩
          · rw [hall]
            exact readV6?_groupsChars
          · rw [hsome]
            exact readV6?_compressed hcount hgroups

end Address
end Uplink
