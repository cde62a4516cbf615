import Uplink.Proofs.Wire.Refusal
import Uplink.Proofs.Wire.Size

/-!
# Tuples one after another

The bytes of a tuple tell where they end, whatever stands behind them.  Rows of tuples can therefore
be put together and cut apart: behind a row that is accepted another one is read as if it stood
alone, and a row that is cut short is accepted exactly where a tuple ends.
-/

namespace Uplink
namespace Wire

namespace Cursor

variable {α : Type} {c : Cursor} {read : Cursor → Except Failure (α × Cursor)} {out out' : α}
  {rest rest' : List UInt8}

theorem Reads.unique (h : c.Reads read out rest) (h' : c.Reads read out' rest') :
    out = out' ∧ rest = rest' := by
  obtain ⟨next, hread, rfl⟩ := h
  obtain ⟨next', hread', rfl⟩ := h'
  rw [hread] at hread'
  cases hread'
  exact ⟨rfl, rfl⟩

end Cursor

/-- No bytes begin with two tuples. -/
theorem Tuple.encode_append_inj {t u : Tuple} {coded coded' rest rest' : List UInt8}
    (ht : t.Consistent) (hu : u.Consistent) (hcoded : t.encode = .ok coded)
    (hcoded' : u.encode = .ok coded') (h : coded ++ rest = coded' ++ rest') :
    t = u ∧ rest = rest' := by
  let c := Cursor.start (coded ++ rest)
  have hreads : c.Reads Cursor.tuple t rest :=
    Cursor.reads_tuple.mpr ⟨ht, coded, hcoded, rfl⟩
  have hreads' : c.Reads Cursor.tuple u rest' :=
    Cursor.reads_tuple.mpr ⟨hu, coded', hcoded', h⟩
  exact hreads.unique hreads'

section

variable {ts us : List Tuple} {a b bytes : List UInt8}

theorem TupleSection.append (hts : TupleSection ts a) (hus : TupleSection us b) :
    TupleSection (ts ++ us) (a ++ b) := by
  induction ts generalizing a with
  | nil =>
      rw [tupleSection_nil.mp hts]
      exact hus
  | cons t ts ih =>
      obtain ⟨ht, coded, rest, hcoded, rfl, hrest⟩ := tupleSection_cons.mp hts
      rw [List.append_assoc, List.cons_append]
      exact tupleSection_cons.mpr ⟨ht, coded, rest ++ b, hcoded, rfl, ih hrest⟩

theorem TupleSection.exists_of_append (h : TupleSection (ts ++ us) bytes) :
    ∃ a b, bytes = a ++ b ∧ TupleSection ts a ∧ TupleSection us b := by
  induction ts generalizing bytes with
  | nil => exact ⟨[], bytes, rfl, tupleSection_nil.mpr rfl, h⟩
  | cons t ts ih =>
      obtain ⟨ht, coded, rest, hcoded, rfl, hrest⟩ := tupleSection_cons.mp h
      obtain ⟨a, b, rfl, ha, hb⟩ := ih hrest
      refine ⟨coded ++ a, b, (List.append_assoc coded a b).symm, ?_, hb⟩
      exact tupleSection_cons.mpr ⟨ht, coded, a, hcoded, rfl, ha⟩

/-- Behind some tuples others are read as if they stood alone. -/
theorem tupleSection_append_iff (h : TupleSection ts a) :
    TupleSection us (a ++ b) ↔ ∃ more, us = ts ++ more ∧ TupleSection more b := by
  constructor
  · intro hus
    induction ts generalizing us a with
    | nil =>
        rw [tupleSection_nil.mp h] at hus
        exact ⟨us, rfl, hus⟩
    | cons t ts ih =>
        obtain ⟨ht, coded, rest, hcoded, rfl, hrest⟩ := tupleSection_cons.mp h
        cases us with
        | nil =>
            -- the first tuple takes some bytes
            have hnone := tupleSection_nil.mp hus
            rw [List.append_assoc] at hnone
            exact absurd (List.append_eq_nil_iff.mp hnone).1 (Tuple.encode_ne_nil hcoded)
        | cons u us =>
            obtain ⟨hu, coded', rest', hcoded', heq, hrest'⟩ := tupleSection_cons.mp hus
            rw [List.append_assoc] at heq
            obtain ⟨rfl, rfl⟩ := Tuple.encode_append_inj ht hu hcoded hcoded' heq
            obtain ⟨more, rfl, hmore⟩ := ih hrest hrest'
            exact ⟨more, rfl, hmore⟩
  · rintro ⟨more, rfl, hmore⟩
    exact h.append hmore

/-- Tuples that are cut short are tuples exactly where one of them ends. -/
theorem tupleSection_take_iff {k : ℕ} (h : TupleSection ts bytes) (hk : k ≤ bytes.length) :
    TupleSection us (bytes.take k) ↔
      ∃ n ≤ ts.length, k = ((ts.take n).map Tuple.size).sum ∧ us = ts.take n := by
  constructor
  · intro hus
    rw [← List.take_append_drop k bytes] at h
    obtain ⟨more, rfl, -⟩ := (tupleSection_append_iff hus).mp h
    have htake : (us ++ more).take us.length = us := List.take_left
    have hlength := hus.length
    rw [List.length_take_of_le hk] at hlength
    refine ⟨us.length, ?_, ?_, htake.symm⟩
    · rw [List.length_append]
      exact Nat.le_add_right _ _
    · rw [htake, hlength]
  · rintro ⟨n, -, rfl, rfl⟩
    rw [← List.take_append_drop n ts] at h
    obtain ⟨a, b, rfl, ha, -⟩ := h.exists_of_append
    rw [← ha.length, List.take_left]
    exact ha

end

/-! ## Whole datagrams -/

namespace Message

variable {m m' : Message} {header bytes : List UInt8}

theorem length_header (m : Message) : m.header.length = 14 := by
  simp [Message.header]

/-- The header tells all of a message but its tuples. -/
theorem eq_of_header (h : m.header = m'.header) : m' = { m with tuples := m'.tuples } := by
  have hread : ∀ m : Message, decodeBody m.header = .ok { m with tuples := [] } := by
    intro m
    apply decodeBody_eq_ok_iff.mpr
    exact ⟨[], tupleSection_nil.mpr rfl, (List.append_nil _).symm⟩
  have hbare := hread m
  rw [h, hread m'] at hbare
  cases m
  cases m'
  cases hbare
  rfl

theorem decode_sealed_eq_ok_iff (hheader : header.length = 14) :
    decode (sealed (header ++ bytes)) = .ok m ↔
      m.header = header ∧ TupleSection m.tuples bytes := by
  rw [decode_sealed, decodeBody_eq_ok_iff]
  constructor
  · rintro ⟨tuples, htuples, heq⟩
    obtain ⟨rfl, rfl⟩ := List.append_inj heq (hheader.trans m.length_header.symm)
    exact ⟨rfl, htuples⟩
  · rintro ⟨rfl, htuples⟩
    exact ⟨bytes, htuples, rfl⟩

/-- Behind an accepted row of tuples another row is accepted exactly if it is accepted by itself, and
a row that is cut short is accepted exactly where a tuple ends. -/
theorem decode_of_concatenated {a b : List UInt8} (hheader : header.length = 14)
    (hm : decode (sealed (header ++ a)) = .ok m) :
    (∀ whole, decode (sealed (header ++ a ++ b)) = .ok whole ↔
      ∃ tail, decode (sealed (header ++ b)) = .ok tail ∧
        whole = { m with tuples := m.tuples ++ tail.tuples }) ∧
    (∀ failure, decode (sealed (header ++ a ++ b)) = .error failure →
      ∃ details, failure = .decode details) ∧
    ∀ k ≤ a.length, ∀ short, decode (sealed (header ++ a.take k)) = .ok short ↔
      ∃ n ≤ m.tuples.length, k = ((m.tuples.take n).map Tuple.size).sum ∧
        short = { m with tuples := m.tuples.take n } := by
  obtain ⟨rfl, htuples⟩ := (decode_sealed_eq_ok_iff hheader).mp hm
  refine ⟨?_, ?_, ?_⟩
  · intro whole
    rw [List.append_assoc, decode_sealed_eq_ok_iff hheader, tupleSection_append_iff htuples]
    constructor
    · rintro ⟨hwhole, more, hmore, hsection⟩
      refine ⟨{ m with tuples := more }, (decode_sealed_eq_ok_iff hheader).mpr ⟨rfl, hsection⟩, ?_⟩
      rw [← hmore]
      exact eq_of_header hwhole.symm
    · rintro ⟨tail, htail, rfl⟩
      exact ⟨rfl, tail.tuples, rfl, ((decode_sealed_eq_ok_iff hheader).mp htail).2⟩
  · rw [decode_sealed]
    exact failsForForm_decodeBody _
  · intro k hk short
    rw [decode_sealed_eq_ok_iff hheader, tupleSection_take_iff htuples hk]
    constructor
    · rintro ⟨hshort, n, hn, hsize, htake⟩
      refine ⟨n, hn, hsize, ?_⟩
      rw [← htake]
      exact eq_of_header hshort.symm
    · rintro ⟨n, hn, hsize, rfl⟩
      exact ⟨rfl, n, hn, hsize, rfl⟩

/-- A byte and a text, a number behind them, and a cut in the text. -/
theorem decode_of_concatenated_cut :
    let header : List UInt8 := [1, 0, 0xaa, 7, 2, 1, 0, 0, 0, 0, 0, 0, 0, 9]
    let a : List UInt8 := [4, 3, 9, 2, 1, 0, 1, 0x61]
    let b : List UInt8 := [1, 2, 0, 0, 0, 5]
    let m : Message := {
      type := 0xaa, event := 7, sequence := 513, timestamp := 9
      tuples := [.of 3 (.byte 9), .of 1 (.text "a")] }
    header.length = 14 ∧ decode (sealed (header ++ a)) = .ok m ∧
      decode (sealed (header ++ a ++ b)) =
        .ok { m with tuples := m.tuples ++ [.of 2 (.int 5)] } ∧
      decode (sealed (header ++ a.take 3)) = .ok { m with tuples := [.of 3 (.byte 9)] } ∧
      ∀ short, decode (sealed (header ++ a.take 4)) ≠ .ok short := by
  intro header a b m
  have hm : decode (sealed (header ++ a)) = .ok m :=
    (decode_sealed_eq_ok_iff rfl).mpr
      ⟨by decide, by decide, [[4, 3, 9], [2, 1, 0, 1, 0x61]], by decide, rfl⟩
  have htail : decode (sealed (header ++ b)) = .ok { m with tuples := [.of 2 (.int 5)] } :=
    (decode_sealed_eq_ok_iff rfl).mpr ⟨by decide, by decide, [[1, 2, 0, 0, 0, 5]], by decide, rfl⟩
  obtain ⟨hwhole, -, hcut⟩ := decode_of_concatenated (b := b) rfl hm
  refine ⟨rfl, hm, (hwhole _).mpr ⟨_, htail, rfl⟩, ?_, ?_⟩
  · exact (hcut 3 (by decide) _).mpr ⟨1, by decide, by decide, rfl⟩
  · intro short hshort
    obtain ⟨n, hn, hsize, -⟩ := (hcut 4 (by decide) short).mp hshort
    revert hsize
    have hsizes : ∀ n ≤ m.tuples.length, 4 ≠ ((m.tuples.take n).map Tuple.size).sum := by decide
    exact hsizes n hn

end Message

end Wire
end Uplink
