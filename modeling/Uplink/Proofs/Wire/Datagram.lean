import Uplink.Proofs.Wire.Bytes

/-!
# Datagrams and messages

Decoding and encoding are two descriptions of one correspondence between datagrams and consistent
messages.  Each part of a message has a lemma which says that it is read from some bytes exactly
when these bytes begin with its encoding.  The place of a cursor enters the wording of failures
only, and therefore none of the lemmas.
-/

namespace Uplink
namespace Wire

/-! ## Reading from the front -/

namespace Cursor

variable {α β : Type}

/-- At the place `c`, `read` finds `out` and leaves the bytes `rest`. -/
def Reads (c : Cursor) (read : Cursor → Except Failure (α × Cursor)) (out : α)
    (rest : List UInt8) : Prop :=
  ∃ next, read c = .ok (out, next) ∧ next.rest = rest

theorem reads_bind {c : Cursor} {read : Cursor → Except Failure (α × Cursor)}
    {more : α × Cursor → Except Failure (β × Cursor)} {out : β} {rest : List UInt8} :
    c.Reads (fun c => read c >>= more) out rest ↔
      ∃ a next, read c = .ok (a, next) ∧ next.Reads (fun next => more (a, next)) out rest := by
  constructor
  · rintro ⟨last, h, hrest⟩
    obtain ⟨⟨a, next⟩, hread, hmore⟩ := Failure.ok_of_bind h
    exact ⟨a, next, hread, last, hmore, hrest⟩
  · rintro ⟨a, next, hread, last, hmore, hrest⟩
    refine ⟨last, ?_, hrest⟩
    simp only [hread]
    exact hmore

theorem reads_map {c : Cursor} {read : Cursor → Except Failure (α × Cursor)} {f : α → β}
    {out : β} {rest : List UInt8} :
    c.Reads (fun c => (read c).map fun found => (f found.1, found.2)) out rest ↔
      ∃ a, c.Reads read a rest ∧ f a = out := by
  constructor
  · rintro ⟨last, h, hrest⟩
    obtain ⟨⟨a, next⟩, hread, heq⟩ := Failure.ok_of_map h
    cases heq
    exact ⟨a, ⟨next, hread, hrest⟩, rfl⟩
  · rintro ⟨a, ⟨next, hread, hrest⟩, rfl⟩
    exact ⟨next, by simp [hread, Except.map], hrest⟩

theorem reads_take {c : Cursor} {count : ℕ} {bytes rest : List UInt8} :
    c.Reads (take count) bytes rest ↔ bytes.length = count ∧ c.rest = bytes ++ rest := by
  constructor
  · rintro ⟨next, h, rfl⟩
    exact ⟨(take_rest h).2, (take_rest h).1⟩
  · rintro ⟨rfl, hrest⟩
    refine ⟨⟨c.size, c.offset + bytes.length, c.rest.drop bytes.length⟩, ?_, ?_⟩
    · simp [take, hrest]
    · simp [hrest]

/-- A number is read where its written form stands. -/
theorem reads_number (width : ℕ) {c : Cursor} {n : ℕ} {rest : List UInt8} :
    c.Reads (number width) n rest ↔ n < 256 ^ width ∧ c.rest = bigEndian width n ++ rest := by
  refine reads_map.trans ⟨?_, ?_⟩
  · rintro ⟨bytes, htake, rfl⟩
    obtain ⟨rfl, hrest⟩ := reads_take.mp htake
    exact ⟨ofBigEndian_lt bytes, by rw [hrest, bigEndian_ofBigEndian]⟩
  · rintro ⟨hn, hrest⟩
    refine ⟨bigEndian width n, reads_take.mpr ⟨length_bigEndian width n, hrest⟩, ?_⟩
    rw [ofBigEndian_bigEndian, Nat.mod_eq_of_lt hn]

theorem reads_byte {c : Cursor} {b : UInt8} {rest : List UInt8} :
    c.Reads byte b rest ↔ c.rest = b :: rest := by
  refine reads_map.trans ⟨?_, ?_⟩
  · rintro ⟨n, hnumber, rfl⟩
    obtain ⟨-, hrest⟩ := (reads_number _).mp hnumber
    rw [hrest, bigEndian_one, List.singleton_append]
  · intro hrest
    refine ⟨b.toNat, (reads_number _).mpr ⟨b.toNat_lt, ?_⟩, UInt8.ofNat_toNat⟩
    rw [hrest, bigEndian_one, UInt8.ofNat_toNat, List.singleton_append]

theorem encodeCounted_eq_ok_iff {bytes coded : List UInt8} :
    encodeCounted bytes = .ok coded ↔
      bytes.length < 65536 ∧ coded = bigEndian 2 bytes.length ++ bytes := by
  by_cases h : bytes.length < 65536
  · simp [encodeCounted, h, eq_comm]
  · simp [encodeCounted, h]

theorem reads_counted {c : Cursor} {bytes rest : List UInt8} :
    c.Reads counted bytes rest ↔
      ∃ coded, encodeCounted bytes = .ok coded ∧ c.rest = coded ++ rest := by
  refine reads_bind.trans ⟨?_, ?_⟩
  · rintro ⟨length, next, hnumber, htake⟩
    obtain ⟨hlength, hrest⟩ := (reads_number _).mp ⟨next, hnumber, rfl⟩
    obtain ⟨rfl, hnext⟩ := reads_take.mp htake
    refine ⟨_, encodeCounted_eq_ok_iff.mpr ⟨hlength, rfl⟩, ?_⟩
    rw [hrest, hnext, List.append_assoc]
  · rintro ⟨coded, hcoded, hrest⟩
    obtain ⟨hlength, rfl⟩ := encodeCounted_eq_ok_iff.mp hcoded
    rw [List.append_assoc] at hrest
    obtain ⟨next, hnumber, hnext⟩ := (reads_number _).mpr ⟨hlength, hrest⟩
    exact ⟨bytes.length, next, hnumber, reads_take.mpr ⟨rfl, hnext⟩⟩

theorem reads_int {c : Cursor} {v : Value} {rest : List UInt8} :
    c.Reads (fun c => (c.number 4).map fun (n, c) => (.int (UInt32.ofNat n).toInt32, c)) v rest ↔
      ∃ n, v = .int n ∧ c.rest = bigEndian 4 n.toUInt32.toNat ++ rest := by
  refine (reads_map (f := fun n => Value.int (UInt32.ofNat n).toInt32)).trans ⟨?_, ?_⟩
  · rintro ⟨k, hnumber, rfl⟩
    obtain ⟨hk, hrest⟩ := (reads_number _).mp hnumber
    refine ⟨(UInt32.ofNat k).toInt32, rfl, ?_⟩
    rw [UInt32.toUInt32_toInt32, UInt32.toNat_ofNat', hrest]
    exact congrArg (bigEndian 4 · ++ rest) (Nat.mod_eq_of_lt hk).symm
  · rintro ⟨n, rfl, hrest⟩
    refine ⟨n.toUInt32.toNat, (reads_number _).mpr ⟨n.toUInt32.toNat_lt, hrest⟩, ?_⟩
    rw [UInt32.ofNat_toNat, Int32.toInt32_toUInt32]

theorem reads_text {c : Cursor} {v : Value} {rest : List UInt8} :
    c.Reads (fun c => do
        let (bytes, next) ← c.counted
        match Text.ofUtf8? bytes with
        | some text => .ok (.text text, next)
        | none => .error (.decode ("invalid UTF-8 string at offset " ++ toString c.offset)))
        v rest ↔
      ∃ s coded, v = .text s ∧ encodeCounted (Text.utf8 s) = .ok coded ∧ c.rest = coded ++ rest := by
  constructor
  · rintro ⟨last, h, hlast⟩
    obtain ⟨⟨bytes, next⟩, hcounted, htext⟩ := Failure.ok_of_bind h
    dsimp only at htext
    split at htext
    · rename_i s hs
      cases htext
      obtain rfl := Text.ofUtf8?_eq_some_iff.mp hs
      obtain ⟨coded, hcoded, hrest⟩ := reads_counted.mp ⟨last, hcounted, hlast⟩
      exact ⟨s, coded, rfl, hcoded, hrest⟩
    · cases htext
  · rintro ⟨s, coded, rfl, hcoded, hrest⟩
    obtain ⟨next, hcounted, hnext⟩ := reads_counted.mpr ⟨coded, hcoded, hrest⟩
    refine ⟨next, ?_, hnext⟩
    simp only [hcounted, bind, Except.bind, Text.ofUtf8?_utf8]

theorem reads_bytes {c : Cursor} {v : Value} {rest : List UInt8} :
    c.Reads (fun c => c.counted.map fun (bytes, c) => (.bytes bytes, c)) v rest ↔
      ∃ bs coded, v = .bytes bs ∧ encodeCounted bs = .ok coded ∧ c.rest = coded ++ rest := by
  refine reads_map.trans ⟨?_, ?_⟩
  · rintro ⟨bs, hcounted, rfl⟩
    obtain ⟨coded, hcoded, hrest⟩ := reads_counted.mp hcounted
    exact ⟨bs, coded, rfl, hcoded, hrest⟩
  · rintro ⟨bs, coded, rfl, hcoded, hrest⟩
    exact ⟨bs, reads_counted.mpr ⟨coded, hcoded, hrest⟩, rfl⟩

theorem reads_single {c : Cursor} {v : Value} {rest : List UInt8} :
    c.Reads (fun c => c.byte.map fun (b, c) => (.byte b, c)) v rest ↔
      ∃ b, v = .byte b ∧ c.rest = b :: rest := by
  refine reads_map.trans ⟨?_, ?_⟩
  · rintro ⟨b, hbyte, rfl⟩
    exact ⟨b, rfl, reads_byte.mp hbyte⟩
  · rintro ⟨b, rfl, hrest⟩
    exact ⟨b, reads_byte.mpr hrest, rfl⟩

/-- A value is read under the type code of its kind, and only there. -/
theorem reads_value (start : ℕ) {type : UInt8} {c : Cursor} {v : Value} {rest : List UInt8} :
    c.Reads (value start type) v rest ↔
      type = v.type ∧ ∃ coded, v.encode = .ok coded ∧ c.rest = coded ++ rest := by
  constructor
  · intro h
    unfold value at h
    split at h
    · obtain ⟨n, rfl, hrest⟩ := reads_int.mp h
      exact ⟨rfl, _, rfl, hrest⟩
    · obtain ⟨s, coded, rfl, hcoded, hrest⟩ := reads_text.mp h
      exact ⟨rfl, coded, hcoded, hrest⟩
    · obtain ⟨bs, coded, rfl, hcoded, hrest⟩ := reads_bytes.mp h
      exact ⟨rfl, coded, hcoded, hrest⟩
    · obtain ⟨b, rfl, hrest⟩ := reads_single.mp h
      exact ⟨rfl, [b], rfl, hrest⟩
    · obtain ⟨next, h, -⟩ := h
      cases h
  · rintro ⟨rfl, coded, hcoded, hrest⟩
    cases v with
    | int n =>
        cases hcoded
        exact reads_int.mpr ⟨n, rfl, hrest⟩
    | text s => exact reads_text.mpr ⟨s, coded, rfl, hcoded, hrest⟩
    | bytes bs => exact reads_bytes.mpr ⟨bs, coded, rfl, hcoded, hrest⟩
    | byte b =>
        cases hcoded
        exact reads_single.mpr ⟨b, rfl, hrest⟩

end Cursor

theorem Tuple.encode_eq_ok_iff {t : Tuple} {coded : List UInt8} :
    t.encode = .ok coded ↔
      ∃ value, t.value.encode = .ok value ∧ coded = t.value.type :: t.id :: value := by
  constructor
  · intro h
    obtain ⟨value, hvalue, heq⟩ := Failure.ok_of_map h
    exact ⟨value, hvalue, heq.symm⟩
  · rintro ⟨value, hvalue, rfl⟩
    simp [Tuple.encode, hvalue, Except.map]

namespace Cursor

/-- A tuple is read where the encoding of a consistent tuple stands. -/
theorem reads_tuple {c : Cursor} {t : Tuple} {rest : List UInt8} :
    c.Reads tuple t rest ↔
      t.Consistent ∧ ∃ coded, t.encode = .ok coded ∧ c.rest = coded ++ rest := by
  constructor
  · rintro ⟨last, h, hlast⟩
    obtain ⟨⟨type, c₁⟩, htype, h⟩ := Failure.ok_of_bind h
    obtain ⟨⟨id, c₂⟩, hid, h⟩ := Failure.ok_of_bind h
    obtain ⟨⟨v, c₃⟩, hvalue, heq⟩ := Failure.ok_of_bind h
    cases heq
    have hc := reads_byte.mp ⟨c₁, htype, rfl⟩
    have hc₁ := reads_byte.mp ⟨c₂, hid, rfl⟩
    obtain ⟨rfl, coded, hcoded, hc₂⟩ := (reads_value _).mp ⟨last, hvalue, hlast⟩
    refine ⟨rfl, _, Tuple.encode_eq_ok_iff.mpr ⟨coded, hcoded, rfl⟩, ?_⟩
    rw [hc, hc₁, hc₂, List.cons_append, List.cons_append]
  · rintro ⟨hconsistent, coded, hcoded, hrest⟩
    obtain ⟨value, hvalue, rfl⟩ := Tuple.encode_eq_ok_iff.mp hcoded
    obtain ⟨c₁, htype, hc₁⟩ := reads_byte.mpr hrest
    obtain ⟨c₂, hid, hc₂⟩ := reads_byte.mpr hc₁
    obtain ⟨c₃, hread, hc₃⟩ := (reads_value c.offset).mpr ⟨rfl, value, hvalue, hc₂⟩
    refine ⟨c₃, ?_, hc₃⟩
    rw [hconsistent.eq_of]
    simp only [tuple, htype, hid, hread, bind, Except.bind]
    rfl

end Cursor

/-! ## Tuples one after another -/

/-- The bytes are the encodings of consistent tuples, one after another. -/
def TupleSection (ts : List Tuple) (bytes : List UInt8) : Prop :=
  (∀ t ∈ ts, t.Consistent) ∧ ∃ coded, ts.mapM Tuple.encode = .ok coded ∧ bytes = coded.flatten

theorem tupleSection_nil {bytes : List UInt8} : TupleSection [] bytes ↔ bytes = [] := by
  simp [TupleSection, pure, Except.pure]

theorem tupleSection_cons {t : Tuple} {ts : List Tuple} {bytes : List UInt8} :
    TupleSection (t :: ts) bytes ↔
      t.Consistent ∧ ∃ coded rest, t.encode = .ok coded ∧ bytes = coded ++ rest ∧
        TupleSection ts rest := by
  constructor
  · rintro ⟨hall, all, hmap, rfl⟩
    rw [List.mapM_cons] at hmap
    obtain ⟨coded, hcoded, hmap⟩ := Failure.ok_of_bind hmap
    obtain ⟨others, hothers, heq⟩ := Failure.ok_of_bind hmap
    cases heq
    exact ⟨hall t List.mem_cons_self, coded, others.flatten, hcoded, rfl,
      fun t' ht' => hall t' (List.mem_cons_of_mem _ ht'), others, hothers, rfl⟩
  · rintro ⟨ht, coded, rest, hcoded, rfl, hall, others, hothers, rfl⟩
    refine ⟨List.forall_mem_cons.mpr ⟨ht, hall⟩, coded :: others, ?_, rfl⟩
    rw [List.mapM_cons, hcoded, hothers]
    rfl

theorem Tuple.encode_ne_nil {t : Tuple} {coded : List UInt8} (h : t.encode = .ok coded) :
    coded ≠ [] := by
  obtain ⟨value, -, rfl⟩ := Tuple.encode_eq_ok_iff.mp h
  exact List.cons_ne_nil _ _

/-- Tuples are read to the end exactly where their encodings stand one after another. -/
theorem Cursor.tuples_eq_ok_iff {c : Cursor} {found ts : List Tuple} :
    c.tuples found = .ok ts ↔ ∃ more, ts = found.reverse ++ more ∧ TupleSection more c.rest := by
  fun_induction Cursor.tuples found c with
  | case1 found c hempty =>
      have hrest : c.rest = [] := List.isEmpty_iff.mp hempty
      constructor
      · intro h
        cases h
        exact ⟨[], (List.append_nil _).symm, tupleSection_nil.mpr hrest⟩
      · rintro ⟨more, rfl, hmore⟩
        cases more with
        | nil => rw [List.append_nil]
        | cons t more =>
            obtain ⟨-, coded, rest, hcoded, heq, -⟩ := tupleSection_cons.mp hmore
            rw [hrest] at heq
            exact absurd (List.append_eq_nil_iff.mp heq.symm).1 (Tuple.encode_ne_nil hcoded)
  | case2 found c hempty failure hfailure =>
      constructor
      · intro h
        cases h
      · rintro ⟨more, rfl, hmore⟩
        cases more with
        | nil => exact absurd (List.isEmpty_iff.mpr (tupleSection_nil.mp hmore)) hempty
        | cons t more =>
            obtain ⟨ht, coded, rest, hcoded, heq, -⟩ := tupleSection_cons.mp hmore
            obtain ⟨next, hread, -⟩ := reads_tuple.mpr ⟨ht, coded, hcoded, heq⟩
            rw [hfailure] at hread
            cases hread
  | case3 found c hempty tuple next hread _ ih =>
      obtain ⟨ht, coded, hcoded, hrest⟩ := reads_tuple.mp ⟨next, hread, rfl⟩
      rw [ih]
      constructor
      · rintro ⟨more, rfl, hmore⟩
        refine ⟨tuple :: more, by simp, ?_⟩
        exact tupleSection_cons.mpr ⟨ht, coded, next.rest, hcoded, hrest, hmore⟩
      · rintro ⟨more, rfl, hmore⟩
        cases more with
        | nil => exact absurd (List.isEmpty_iff.mpr (tupleSection_nil.mp hmore)) hempty
        | cons t more =>
            obtain ⟨ht', coded', rest, hcoded', hrest', hothers⟩ := tupleSection_cons.mp hmore
            obtain ⟨next', hread', rfl⟩ := reads_tuple.mpr ⟨ht', coded', hcoded', hrest'⟩
            rw [hread] at hread'
            cases hread'
            exact ⟨more, by simp, hothers⟩

/-! ## Whole datagrams -/

theorem Message.encode_consistent_iff {m : Message} {data : List UInt8} :
    m.encode = .ok data ∧ m.Consistent ↔
      ∃ tuples, TupleSection m.tuples tuples ∧ data = sealed (m.header ++ tuples) := by
  constructor
  · rintro ⟨hencode, hconsistent⟩
    obtain ⟨coded, hcoded, rfl⟩ := Failure.ok_of_map hencode
    exact ⟨coded.flatten, ⟨hconsistent, coded, hcoded, rfl⟩, rfl⟩
  · rintro ⟨tuples, ⟨hconsistent, coded, hcoded, rfl⟩, rfl⟩
    refine ⟨?_, hconsistent⟩
    simp only [Message.encode, hcoded, Except.map]

theorem Message.decodeBody_eq_ok_iff {m : Message} {body : List UInt8} :
    Message.decodeBody body = .ok m ↔
      ∃ tuples, TupleSection m.tuples tuples ∧ body = m.header ++ tuples := by
  constructor
  · intro h
    obtain ⟨⟨major, c₁⟩, hmajor, h⟩ := Failure.ok_of_bind h
    obtain ⟨⟨minor, c₂⟩, hminor, h⟩ := Failure.ok_of_bind h
    obtain ⟨⟨type, c₃⟩, htype, h⟩ := Failure.ok_of_bind h
    obtain ⟨⟨event, c₄⟩, hevent, h⟩ := Failure.ok_of_bind h
    obtain ⟨⟨sequence, c₅⟩, hsequence, h⟩ := Failure.ok_of_bind h
    obtain ⟨⟨timestamp, c₆⟩, htimestamp, h⟩ := Failure.ok_of_bind h
    obtain ⟨tuples, htuples, heq⟩ := Failure.ok_of_bind h
    cases heq
    have hbody : body = major :: c₁.rest := Cursor.reads_byte.mp ⟨c₁, hmajor, rfl⟩
    have h₁ := Cursor.reads_byte.mp ⟨c₂, hminor, rfl⟩
    have h₂ := Cursor.reads_byte.mp ⟨c₃, htype, rfl⟩
    have h₃ := Cursor.reads_byte.mp ⟨c₄, hevent, rfl⟩
    obtain ⟨hsequence', h₄⟩ := (Cursor.reads_number _).mp ⟨c₅, hsequence, rfl⟩
    obtain ⟨htimestamp', h₅⟩ := (Cursor.reads_number _).mp ⟨c₆, htimestamp, rfl⟩
    obtain ⟨more, rfl, hmore⟩ := Cursor.tuples_eq_ok_iff.mp htuples
    refine ⟨c₆.rest, hmore, ?_⟩
    have hback : (UInt16.ofNat sequence).toNat = sequence :=
      UInt16.toNat_ofNat'.trans (Nat.mod_eq_of_lt hsequence')
    have hback' : (UInt64.ofNat timestamp).toNat = timestamp :=
      UInt64.toNat_ofNat'.trans (Nat.mod_eq_of_lt htimestamp')
    rw [hbody, h₁, h₂, h₃, h₄, h₅, Message.header, hback, hback']
    simp only [List.cons_append, List.append_assoc, List.nil_append]
  · rintro ⟨tuples, htuples, rfl⟩
    obtain ⟨c₁, hmajor, h₁⟩ :=
      (Cursor.reads_byte (c := Cursor.start (m.header ++ tuples))).mpr rfl
    obtain ⟨c₂, hminor, h₂⟩ := Cursor.reads_byte.mpr h₁
    obtain ⟨c₃, htype, h₃⟩ := Cursor.reads_byte.mpr h₂
    obtain ⟨c₄, hevent, h₄⟩ := Cursor.reads_byte.mpr h₃
    obtain ⟨c₅, hsequence, h₅⟩ :=
      (Cursor.reads_number 2).mpr ⟨m.sequence.toNat_lt, h₄⟩
    obtain ⟨c₆, htimestamp, h₆⟩ :=
      (Cursor.reads_number 8).mpr ⟨m.timestamp.toNat_lt, h₅⟩
    have hread : c₆.tuples [] = .ok m.tuples :=
      Cursor.tuples_eq_ok_iff.mpr ⟨m.tuples, rfl, h₆ ▸ htuples⟩
    simp only [decodeBody, hmajor, hminor, htype, hevent, hsequence, htimestamp, hread, bind,
      Except.bind, pure, Except.pure, UInt16.ofNat_toNat, UInt64.ofNat_toNat]

/-- Only the check byte stands between a datagram and its body. -/
theorem Message.decode_eq_ok_iff_sealed {m : Message} {data : List UInt8} :
    Message.decode data = .ok m ↔ ∃ body, decodeBody body = .ok m ∧ data = sealed body := by
  constructor
  · intro h
    unfold Message.decode at h
    split at h
    · cases h
    · rename_i found hfound
      by_cases hcheck : found = checksum data.dropLast
      · simp only [hcheck, if_true] at h
        refine ⟨data.dropLast, h, ?_⟩
        rw [sealed, ← hcheck]
        exact (List.dropLast_append_getLast? found hfound).symm
      · simp [hcheck] at h
  · rintro ⟨body, hbody, rfl⟩
    simp [Message.decode, sealed, hbody]

theorem Message.decode_eq_ok_iff_section {m : Message} {data : List UInt8} :
    Message.decode data = .ok m ↔
      ∃ tuples, TupleSection m.tuples tuples ∧ data = sealed (m.header ++ tuples) := by
  rw [Message.decode_eq_ok_iff_sealed]
  constructor
  · rintro ⟨body, hbody, rfl⟩
    obtain ⟨tuples, htuples, rfl⟩ := Message.decodeBody_eq_ok_iff.mp hbody
    exact ⟨tuples, htuples, rfl⟩
  · rintro ⟨tuples, htuples, rfl⟩
    exact ⟨m.header ++ tuples, Message.decodeBody_eq_ok_iff.mpr ⟨tuples, htuples, rfl⟩, rfl⟩

theorem Message.encode_consistent_of_decode {m : Message} {data : List UInt8}
    (h : Message.decode data = .ok m) : m.encode = .ok data ∧ m.Consistent :=
  Message.encode_consistent_iff.mpr (Message.decode_eq_ok_iff_section.mp h)

/-- A datagram decodes to a message exactly when the message is consistent and the datagram is its
encoding: nothing else is accepted, and no two datagrams denote one message. -/
theorem Message.decode_eq_ok_iff (data : List UInt8) (m : Message) :
    Message.decode data = .ok m ↔ m.encode = .ok data ∧ m.Consistent :=
  Message.decode_eq_ok_iff_section.trans Message.encode_consistent_iff.symm

end Wire
end Uplink
