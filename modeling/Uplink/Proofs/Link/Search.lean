import Mathlib.Data.List.Infix
import Mathlib.Data.Nat.Find
import Uplink.Link.Framer

/-!
# Searching a stream

The framer searches for its delimiters in what is left of a stream.  Here occurrences are counted by
their places in the whole stream, which do not change when the framer drops bytes, and what occurs
in a stream still occurs there when the stream goes on.
-/

namespace Uplink
namespace Link

/-! ## Occurrences -/

/-- `spot` is the first place, not before `pos`, at which the needle occurs. -/
structure Leftmost (needle bytes : List UInt8) (pos spot : ℕ) : Prop where
  le : pos ≤ spot
  occurs : needle <+: bytes.drop spot
  first : ∀ k, pos ≤ k → k < spot → ¬ needle <+: bytes.drop k

theorem Leftmost.unique {needle bytes : List UInt8} {pos a b : ℕ}
    (ha : Leftmost needle bytes pos a) (hb : Leftmost needle bytes pos b) : a = b := by
  rcases lt_trichotomy a b with hlt | heq | hgt
  · exact absurd ha.occurs (hb.first a ha.le hlt)
  · exact heq
  · exact absurd hb.occurs (ha.first b hb.le hgt)

/-- What occurs ends within the bytes. -/
theorem occurs_le {needle bytes : List UInt8} {k : ℕ} (hne : needle ≠ [])
    (h : needle <+: bytes.drop k) : k + needle.length ≤ bytes.length := by
  have hle := h.length_le
  have hpos := List.length_pos_iff.mpr hne
  rw [List.length_drop] at hle
  omega

/-- Bytes that arrive later do not change what occurs before them. -/
theorem occurs_append_iff {needle bytes more : List UInt8} {k : ℕ}
    (h : k + needle.length ≤ bytes.length) :
    needle <+: (bytes ++ more).drop k ↔ needle <+: bytes.drop k := by
  rw [List.drop_append_of_le_length (by omega)]
  constructor
  · intro hocc
    refine List.prefix_of_prefix_length_le hocc (List.prefix_append _ _) ?_
    rw [List.length_drop]
    omega
  · intro hocc
    exact hocc.trans (List.prefix_append _ _)

theorem Leftmost.append {needle bytes : List UInt8} {pos spot : ℕ} (hne : needle ≠ [])
    (h : Leftmost needle bytes pos spot) (more : List UInt8) :
    Leftmost needle (bytes ++ more) pos spot := by
  have hspot := occurs_le hne h.occurs
  refine ⟨h.le, (occurs_append_iff hspot).mpr h.occurs, ?_⟩
  intro k hpos hk hocc
  exact h.first k hpos hk ((occurs_append_iff (by omega)).mp hocc)

theorem Leftmost.of_append {needle bytes more : List UInt8} {pos spot : ℕ}
    (h : Leftmost needle (bytes ++ more) pos spot) (hspot : spot + needle.length ≤ bytes.length) :
    Leftmost needle bytes pos spot := by
  refine ⟨h.le, (occurs_append_iff hspot).mp h.occurs, ?_⟩
  intro k hpos hk hocc
  exact h.first k hpos hk ((occurs_append_iff (by omega)).mpr hocc)

/-- The end of a stream may grow into the needle only if it is an initial part of it. -/
theorem not_occurs_append {needle bytes : List UInt8} (more : List UInt8) {k : ℕ}
    (hk : k ≤ bytes.length) (hocc : ¬ needle <+: bytes.drop k)
    (hpart : ¬ bytes.drop k <+: needle) : ¬ needle <+: (bytes ++ more).drop k := by
  rw [List.drop_append_of_le_length hk]
  intro h
  rcases List.prefix_or_prefix_of_prefix h (List.prefix_append (bytes.drop k) more) with h' | h'
  · exact hocc h'
  · exact hpart h'

theorem not_part_append {needle bytes : List UInt8} (more : List UInt8) {k : ℕ}
    (hk : k ≤ bytes.length) (hpart : ¬ bytes.drop k <+: needle) :
    ¬ (bytes ++ more).drop k <+: needle := by
  rw [List.drop_append_of_le_length hk]
  intro h
  exact hpart ((List.prefix_append _ _).trans h)

/-! ## What the framer's search finds -/

theorem leftmost_zero {needle bytes : List UInt8} {spot : ℕ} (hocc : needle <+: bytes) :
    Leftmost needle bytes 0 spot ↔ spot = 0 := by
  constructor
  · intro h
    by_contra hne
    exact h.first 0 le_rfl (Nat.pos_of_ne_zero hne) hocc
  · rintro rfl
    exact ⟨le_rfl, hocc, fun k _ hk => absurd hk (Nat.not_lt_zero k)⟩

theorem leftmost_cons {needle rest : List UInt8} {b : UInt8} {spot : ℕ}
    (hnot : ¬ needle <+: b :: rest) :
    Leftmost needle (b :: rest) 0 (spot + 1) ↔ Leftmost needle rest 0 spot := by
  constructor
  · rintro ⟨-, hocc, hfirst⟩
    exact ⟨Nat.zero_le _, hocc, fun k _ hk => hfirst (k + 1) (Nat.zero_le _) (by omega)⟩
  · rintro ⟨-, hocc, hfirst⟩
    refine ⟨Nat.zero_le _, hocc, ?_⟩
    intro k _ hk
    cases k with
    | zero => exact hnot
    | succ k => exact hfirst k (Nat.zero_le _) (by omega)

theorem findFirst?_eq_some_iff {needle bytes : List UInt8} {spot : ℕ} :
    findFirst? needle bytes = some spot ↔ Leftmost needle bytes 0 spot := by
  induction bytes generalizing spot with
  | nil =>
      by_cases hne : needle = []
      · rw [leftmost_zero (by simp [hne])]
        simp only [findFirst?, hne, List.isEmpty_nil, if_true, Option.some.injEq]
        exact eq_comm
      · simp only [findFirst?, List.isEmpty_iff, hne, if_false, reduceCtorEq, false_iff]
        intro h
        have hocc := h.occurs
        rw [List.drop_nil, List.prefix_nil] at hocc
        exact hne hocc
  | cons b rest ih =>
      by_cases hocc : needle <+: b :: rest
      · rw [leftmost_zero hocc]
        simp only [findFirst?, List.isPrefixOf_iff_prefix, hocc, if_true, Option.some.injEq]
        exact eq_comm
      · cases spot with
        | zero =>
            simp only [findFirst?, List.isPrefixOf_iff_prefix, hocc, if_false,
              Option.map_eq_some_iff, Nat.succ_ne_zero, and_false, exists_false, false_iff]
            exact fun h => hocc h.occurs
        | succ spot =>
            rw [leftmost_cons hocc, ← ih]
            simp [findFirst?, hocc]

theorem findFirst?_eq_none_iff {needle bytes : List UInt8} :
    findFirst? needle bytes = none ↔ ∀ k, ¬ needle <+: bytes.drop k := by
  constructor
  · intro h k hocc
    classical
    have hex : ∃ k, needle <+: bytes.drop k := ⟨k, hocc⟩
    have hleft : Leftmost needle bytes 0 (Nat.find hex) :=
      ⟨Nat.zero_le _, Nat.find_spec hex, fun k _ hk => Nat.find_min hex hk⟩
    rw [findFirst?_eq_some_iff.mpr hleft] at h
    cases h
  · intro h
    cases hfind : findFirst? needle bytes with
    | none => rfl
    | some spot => exact absurd (findFirst?_eq_some_iff.mp hfind).occurs (h spot)

/-- A search in the rest of a stream finds the first place in the stream from there on. -/
theorem findFirst?_drop_eq_some_iff {needle bytes : List UInt8} {pos offset : ℕ} :
    findFirst? needle (bytes.drop pos) = some offset ↔
      Leftmost needle bytes pos (pos + offset) := by
  rw [findFirst?_eq_some_iff]
  constructor
  · rintro ⟨-, hocc, hfirst⟩
    rw [List.drop_drop] at hocc
    refine ⟨Nat.le_add_right _ _, hocc, ?_⟩
    intro k hpos hk
    have hnot := hfirst (k - pos) (Nat.zero_le _) (by omega)
    rwa [List.drop_drop, Nat.add_sub_cancel' hpos] at hnot
  · rintro ⟨-, hocc, hfirst⟩
    refine ⟨Nat.zero_le _, by rwa [List.drop_drop], ?_⟩
    intro k _ hk
    rw [List.drop_drop]
    exact hfirst (pos + k) (Nat.le_add_right _ _) (by omega)

theorem findFirst?_drop_eq_none_iff {needle bytes : List UInt8} {pos : ℕ} :
    findFirst? needle (bytes.drop pos) = none ↔ ∀ k, pos ≤ k → ¬ needle <+: bytes.drop k := by
  rw [findFirst?_eq_none_iff]
  constructor
  · intro h k hk
    have hnot := h (k - pos)
    rwa [List.drop_drop, Nat.add_sub_cancel' hk] at hnot
  · intro h k
    rw [List.drop_drop]
    exact h (pos + k) (Nat.le_add_right _ _)

/-! ## The tail that is kept -/

theorem find?_reverse_range_max {p : ℕ → Bool} {n k : ℕ} (hk : k < n) (hp : p k = true) :
    ∃ m, (List.range n).reverse.find? p = some m ∧ k ≤ m := by
  induction n with
  | zero => exact absurd hk (Nat.not_lt_zero k)
  | succ n ih =>
      rw [List.range_succ, List.reverse_append, List.reverse_singleton, List.singleton_append,
        List.find?_cons]
      cases hn : p n with
      | true => exact ⟨n, rfl, Nat.le_of_lt_succ hk⟩
      | false =>
          have hne : k ≠ n := fun heq => by simp [heq, hn] at hp
          exact ih (by omega)

theorem partialLength_spec {opening : List UInt8} (hne : opening ≠ []) (bytes : List UInt8) :
    partialLength opening bytes < opening.length ∧
      opening.take (partialLength opening bytes) <:+ bytes := by
  have hzero : (opening.take 0).isSuffixOf bytes = true := by simp
  obtain ⟨m, hm, -⟩ := find?_reverse_range_max
    (p := fun n => (opening.take n).isSuffixOf bytes) (List.length_pos_iff.mpr hne) hzero
  have hmem := List.mem_of_find?_eq_some hm
  have hsuffix := List.find?_some hm
  rw [partialLength, hm, Option.getD_some]
  exact ⟨by simpa using hmem, by simpa using hsuffix⟩

/-- No longer tail is a proper initial part of the opening. -/
theorem le_partialLength {opening : List UInt8} {n : ℕ} (hn : n < opening.length)
    (bytes : List UInt8) (hsuffix : opening.take n <:+ bytes) : n ≤ partialLength opening bytes := by
  obtain ⟨m, hm, hle⟩ := find?_reverse_range_max
    (p := fun n => (opening.take n).isSuffixOf bytes) hn (by simpa using hsuffix)
  rw [partialLength, hm, Option.getD_some]
  exact hle

/-- The place from which a stream is kept: its end from there on may grow into the needle, and from
no earlier place may it do so. -/
structure Tail (needle bytes : List UInt8) (pos spot : ℕ) : Prop where
  le : pos ≤ spot
  le_length : spot ≤ bytes.length
  part : bytes.drop spot <+: needle
  first : ∀ k, pos ≤ k → k < spot → ¬ bytes.drop k <+: needle

theorem Tail.unique {needle bytes : List UInt8} {pos a b : ℕ}
    (ha : Tail needle bytes pos a) (hb : Tail needle bytes pos b) : a = b := by
  rcases lt_trichotomy a b with hlt | heq | hgt
  · exact absurd ha.part (hb.first a ha.le hlt)
  · exact heq
  · exact absurd hb.part (ha.first b hb.le hgt)

/-- The framer keeps the right tail where the opening does not occur. -/
theorem tail_partialLength {opening bytes : List UInt8} {pos : ℕ} (hne : opening ≠ [])
    (hpos : pos ≤ bytes.length) (hnone : ∀ k, pos ≤ k → ¬ opening <+: bytes.drop k) :
    Tail opening bytes pos
      (pos + ((bytes.drop pos).length - partialLength opening (bytes.drop pos))) := by
  obtain ⟨hlt, hsuffix⟩ := partialLength_spec hne (bytes.drop pos)
  have hle := hsuffix.length_le
  rw [List.length_take_of_le hlt.le] at hle
  refine ⟨Nat.le_add_right _ _, ?_, ?_, ?_⟩
  · rw [List.length_drop]
    omega
  · have hdrop := List.suffix_iff_eq_drop.mp hsuffix
    rw [List.length_take_of_le hlt.le, List.drop_drop] at hdrop
    rw [← hdrop]
    exact List.take_prefix _ _
  · intro k hk hlast hpart
    rw [List.length_drop] at hlast
    have hproper : (bytes.drop k).length < opening.length := by
      refine lt_of_le_of_ne hpart.length_le fun heq => hnone k hk ?_
      rw [hpart.eq_of_length heq]
    have htake : opening.take (bytes.drop k).length = bytes.drop k :=
      (List.prefix_iff_eq_take.mp hpart).symm
    have hlong := le_partialLength hproper (bytes.drop pos)
      (by rw [htake]; exact List.drop_suffix_drop_left bytes hk)
    rw [List.length_drop] at hlong
    omega

end Link
end Uplink
