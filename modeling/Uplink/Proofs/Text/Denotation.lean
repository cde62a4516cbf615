import Uplink.Proofs.Text.Blank

/-!
# What a text denotes

A row of digits denotes a number: the last digit counts once, and what stands before it counts as many
times as the base says.  A sign may stand before the digits.  Beside numerals this module says what it
is for a text to be trimmed, and to be cut into parts at a mark.
-/

namespace Uplink
namespace Text

variable {base n : ℕ} {c mark : Char} {cs text : List Char}

/-! ## Digits -/

/-- A digit of a base up to sixteen, with its value.  Letters, in either case, stand for ten and
more. -/
def IsDigit (base : ℕ) (c : Char) (n : ℕ) : Prop :=
  n < base ∧ (c = Nat.digitChar n ∨ c = (Nat.digitChar n).toUpper)

/-- A row of digits, with the number that it denotes. -/
inductive Denotes (base : ℕ) : List Char → ℕ → Prop where
  | single {c : Char} {n : ℕ} : IsDigit base c n → Denotes base [c] n
  | snoc {cs : List Char} {c : Char} {m n : ℕ} :
      Denotes base cs m → IsDigit base c n → Denotes base (cs ++ [c]) (m * base + n)

/-- A row of digits, and perhaps a plus sign before it. -/
inductive Unsigned (base : ℕ) : List Char → ℕ → Prop where
  | plain {cs : List Char} {n : ℕ} : Denotes base cs n → Unsigned base cs n
  | plus {cs : List Char} {n : ℕ} : Denotes base cs n → Unsigned base ('+' :: cs) n

/-- A row of digits, and perhaps a sign before it. -/
inductive Signed (base : ℕ) : List Char → ℤ → Prop where
  | unsigned {cs : List Char} {n : ℕ} : Unsigned base cs n → Signed base cs n
  | minus {cs : List Char} {n : ℕ} : Denotes base cs n → Signed base ('-' :: cs) (-n)

theorem digitValue_of_le (h : 128 ≤ c.toNat) : digitValue c = 36 := by
  have hle : ∀ last : Char, last.toNat < 128 → ¬ c ≤ last := by
    intro last hlast hle
    have : c.toNat ≤ last.toNat := hle
    omega
  have hdigit : c.isDigit = false := by
    have hnot := hle '9' (by decide)
    simp only [Char.isDigit, ge_iff_le, Bool.and_eq_false_iff, decide_eq_false_iff_not]
    exact .inr hnot
  simp [digitValue, hdigit, hle 'z' (by decide), hle 'Z' (by decide)]

theorem digitValue_eq_iff (h : n < 16) :
    digitValue c = n ↔ c = Nat.digitChar n ∨ c = (Nat.digitChar n).toUpper := by
  constructor
  · intro hvalue
    have hlt : c.toNat < 128 := by
      by_contra hge
      rw [digitValue_of_le (Nat.le_of_not_lt hge)] at hvalue
      omega
    -- every character below 128 is looked at
    have hall : ∀ k < 128, digitValue (Char.ofNat k) < 16 →
        Char.ofNat k = Nat.digitChar (digitValue (Char.ofNat k)) ∨
          Char.ofNat k = (Nat.digitChar (digitValue (Char.ofNat k))).toUpper := by
      decide
    have hthis := hall c.toNat hlt
    rw [Char.ofNat_toNat, hvalue] at hthis
    exact hthis h
  · rintro (rfl | rfl)
    · exact digitValue_digitChar h
    · have hall : ∀ k < 16, digitValue (Nat.digitChar k).toUpper = k := by decide
      exact hall n h

section

variable (hbase : base ≤ 16)

include hbase

theorem isDigit_iff : IsDigit base c n ↔ digitValue c < base ∧ digitValue c = n := by
  constructor
  · rintro ⟨hlt, hchar⟩
    have hvalue := (digitValue_eq_iff (Nat.lt_of_lt_of_le hlt hbase)).mpr hchar
    exact ⟨hvalue ▸ hlt, hvalue⟩
  · rintro ⟨hlt, rfl⟩
    exact ⟨hlt, (digitValue_eq_iff (Nat.lt_of_lt_of_le hlt hbase)).mp rfl⟩

theorem denotes_iff :
    Denotes base cs n ↔ cs ≠ [] ∧ (∀ c ∈ cs, digitValue c < base) ∧ ofDigits base cs = n := by
  constructor
  · intro h
    induction h with
    | single hdigit =>
        obtain ⟨hlt, hvalue⟩ := (isDigit_iff hbase).mp hdigit
        simpa [ofDigits] using ⟨hlt, hvalue⟩
    | snoc _ hdigit ih =>
        obtain ⟨-, hall, rfl⟩ := ih
        obtain ⟨hlt, rfl⟩ := (isDigit_iff hbase).mp hdigit
        refine ⟨by simp, ?_, ?_⟩
        · rw [List.forall_mem_append, List.forall_mem_singleton]
          exact ⟨hall, hlt⟩
        · simp [ofDigits]
  · rintro ⟨hne, hall, hvalue⟩
    induction cs using List.reverseRecOn generalizing n with
    | nil => exact absurd rfl hne
    | append_singleton front last ih =>
        rw [List.forall_mem_append, List.forall_mem_singleton] at hall
        obtain ⟨hfront, hlast⟩ := hall
        have hdigit : IsDigit base last (digitValue last) :=
          (isDigit_iff hbase).mpr ⟨hlast, rfl⟩
        by_cases hempty : front = []
        · subst hempty
          have hsingle : digitValue last = n := by simpa [ofDigits] using hvalue
          exact .single (hsingle ▸ hdigit)
        · have hsnoc : ofDigits base front * base + digitValue last = n := by
            simpa [ofDigits] using hvalue
          rw [← hsnoc]
          exact .snoc (ih hempty hfront rfl) hdigit

theorem natural?_eq_some_iff : natural? base cs = some n ↔ Denotes base cs n := by
  rw [denotes_iff hbase, natural?]
  simp [and_assoc]

/-- What denotes a number does not begin with a sign. -/
theorem Denotes.head_ne {sign : Char} (hsign : sign = '+' ∨ sign = '-')
    (h : Denotes base (sign :: cs) n) : False := by
  obtain ⟨-, hall, -⟩ := (denotes_iff hbase).mp h
  have hlt := hall sign List.mem_cons_self
  have hvalue : digitValue sign = 36 := by rcases hsign with rfl | rfl <;> decide
  omega

theorem unsigned?_eq_some_iff {bound : ℕ} :
    unsigned? base bound cs = some n ↔ Unsigned base cs n ∧ n < bound := by
  have hdigits : ∀ digits, (natural? base digits).filter (fun n => n < bound) = some n ↔
      Denotes base digits n ∧ n < bound := by
    intro digits
    rw [Option.filter_eq_some_iff, natural?_eq_some_iff hbase, decide_eq_true_iff]
  unfold unsigned?
  dsimp only
  rw [hdigits]
  refine and_congr_left fun _ => ?_
  constructor
  · intro h
    split at h
    · exact .plus h
    · exact .plain h
  · intro h
    cases h with
    | plus hdenotes => exact hdenotes
    | plain hdenotes =>
        split
        · exact (hdenotes.head_ne hbase (.inl rfl)).elim
        · exact hdenotes

theorem signed?_eq_some_iff {m : ℤ} : signed? base cs = some m ↔ Signed base cs m := by
  have hnatural : ∀ digits (f : ℤ → ℤ),
      (do let n ← natural? base digits; pure (n : ℤ) : Option ℤ).map f = some m ↔
        ∃ n : ℕ, Denotes base digits n ∧ f n = m := by
    intro digits f
    simp [Option.bind_eq_some_iff, natural?_eq_some_iff hbase]
  unfold signed?
  constructor
  · intro h
    split at h
    · obtain ⟨n, hdenotes, rfl⟩ := (hnatural _ _).mp h
      exact .minus hdenotes
    · obtain ⟨n, hdenotes, rfl⟩ := (hnatural _ _).mp h
      exact .unsigned (.plus hdenotes)
    · obtain ⟨n, hdenotes, rfl⟩ := (hnatural _ _).mp h
      exact .unsigned (.plain hdenotes)
  · intro h
    cases h with
    | minus hdenotes => exact (hnatural _ fun n => -n).mpr ⟨_, hdenotes, rfl⟩
    | unsigned hunsigned =>
        cases hunsigned with
        | plus hdenotes => exact (hnatural _ fun n => n).mpr ⟨_, hdenotes, rfl⟩
        | plain hdenotes =>
            split
            · exact (hdenotes.head_ne hbase (.inr rfl)).elim
            · exact (hdenotes.head_ne hbase (.inl rfl)).elim
            · exact (hnatural _ fun n => n).mpr ⟨_, hdenotes, rfl⟩

theorem integer?_eq_some_iff {low high m : ℤ} :
    integer? base low high cs = some m ↔ Signed base cs m ∧ low ≤ m ∧ m ≤ high := by
  rw [integer?, Option.filter_eq_some_iff, signed?_eq_some_iff hbase, Bool.and_eq_true,
    decide_eq_true_iff, decide_eq_true_iff]

end

/-! ## Trimmed texts -/

/-- A text without the blanks around it: only blanks stand before and after, and it neither begins nor
ends with one. -/
structure Trimmed (cs text : List Char) : Prop where
  around : ∃ before after, cs = before ++ text ++ after ∧ (∀ c ∈ before, isBlank c = true) ∧
    ∀ c ∈ after, isBlank c = true
  head : ∀ c ∈ text.head?, isBlank c = false
  last : ∀ c ∈ text.getLast?, isBlank c = false

theorem trimFront_append {before : List Char} (hbefore : ∀ c ∈ before, isBlank c = true)
    (hhead : ∀ c ∈ text.head?, isBlank c = false) : trimFront (before ++ text) = text :=
  (split_append hbefore hhead).2

theorem exists_trimFront (cs : List Char) :
    (∃ before, cs = before ++ trimFront cs ∧ ∀ c ∈ before, isBlank c = true) ∧
      ∀ c ∈ (trimFront cs).head?, isBlank c = false := by
  refine ⟨⟨cs.takeWhile isBlank, List.takeWhile_append_dropWhile.symm, ?_⟩, ?_⟩
  · exact fun c hc => List.mem_takeWhile_imp hc
  · intro c hc
    have hhead := List.head?_dropWhile_not isBlank cs
    rw [trimFront] at hc
    rw [Option.mem_def.mp hc] at hhead
    simpa using hhead

theorem trimmed_trimChars (cs : List Char) : Trimmed cs (trimChars cs) := by
  obtain ⟨⟨before, hcs, hbefore⟩, hhead⟩ := exists_trimFront cs
  obtain ⟨⟨after, hrest, hafter⟩, hlast⟩ := exists_trimFront (trimFront cs).reverse
  have hfront : trimFront cs = trimChars cs ++ after.reverse := by
    rw [trimChars, ← List.reverse_append, ← hrest, List.reverse_reverse]
  refine ⟨⟨before, after.reverse, ?_, hbefore, ?_⟩, ?_, ?_⟩
  · rw [List.append_assoc, ← hfront, ← hcs]
  · exact fun c hc => hafter c (List.mem_reverse.mp hc)
  · intro c hc
    apply hhead
    rw [hfront, List.head?_append, Option.mem_def.mp hc]
    rfl
  · rw [trimChars, List.getLast?_reverse]
    exact hlast

theorem trimChars_eq_iff : trimChars cs = text ↔ Trimmed cs text := by
  constructor
  · rintro rfl
    exact trimmed_trimChars cs
  · rintro ⟨⟨before, after, rfl, hbefore, hafter⟩, hhead, hlast⟩
    have hreverse : ∀ c ∈ after.reverse, isBlank c = true :=
      fun c hc => hafter c (List.mem_reverse.mp hc)
    by_cases hempty : text = []
    · -- then there are only blanks
      subst hempty
      have hblank : ∀ c ∈ before ++ [] ++ after, isBlank c = true := by
        rw [List.append_nil, List.forall_mem_append]
        exact ⟨hbefore, hafter⟩
      have hnothing : trimFront (before ++ [] ++ after) = [] := by
        rw [trimFront, List.dropWhile_eq_nil_iff]
        exact hblank
      rw [trimChars, hnothing]
      rfl
    · have hstart : ∀ c ∈ (text ++ after).head?, isBlank c = false := by
        rw [List.head?_append_of_ne_nil text hempty]
        exact hhead
      have hend : ∀ c ∈ text.reverse.head?, isBlank c = false := by
        rw [List.head?_reverse]
        exact hlast
      rw [trimChars, List.append_assoc, trimFront_append hbefore hstart, List.reverse_append,
        trimFront_append hreverse hend, List.reverse_reverse]

/-! ## Parts of a text -/

/-- The parts of a text between its marks.  A text without a mark is one part. -/
structure Separated (mark : Char) (cs : List Char) (parts : List (List Char)) : Prop where
  joined : [mark].intercalate parts = cs
  nonempty : parts ≠ []
  plain : ∀ part ∈ parts, mark ∉ part

theorem not_mem_of_mem_splitOn {part : List Char} (h : part ∈ cs.splitOn mark) : mark ∉ part := by
  induction cs generalizing part with
  | nil =>
      rw [List.splitOn_nil, List.mem_singleton] at h
      rw [h]
      exact List.not_mem_nil
  | cons c cs ih =>
      rw [List.splitOn_cons_eq_if_modifyHead] at h
      split at h
      · rcases List.mem_cons.mp h with rfl | h
        · exact List.not_mem_nil
        · exact ih h
      · rename_i hne
        cases hparts : cs.splitOn mark with
        | nil => exact absurd hparts (List.splitOn_ne_nil mark cs)
        | cons first rest =>
            rw [hparts, List.modifyHead_cons] at h
            rw [hparts] at ih
            rcases List.mem_cons.mp h with rfl | h
            · rw [List.mem_cons, not_or]
              refine ⟨?_, ih List.mem_cons_self⟩
              rintro rfl
              exact hne (beq_self_eq_true mark)
            · exact ih (List.mem_cons_of_mem first h)

theorem splitOn_eq_iff {parts : List (List Char)} :
    cs.splitOn mark = parts ↔ Separated mark cs parts := by
  constructor
  · rintro rfl
    exact ⟨List.intercalate_splitOn mark, List.splitOn_ne_nil mark cs,
      fun _ => not_mem_of_mem_splitOn⟩
  · rintro ⟨rfl, hne, hplain⟩
    exact List.splitOn_intercalate mark hplain hne

end Text
end Uplink
