import Uplink.Proofs.Binary64
import Uplink.Proofs.Text.Denotation

/-!
# Decimal numbers

A decimal number is written with digits, of which some may stand behind a point, perhaps with a sign
before them and a power of ten after them.  Its text is read as the number of 64 bits to which its
value is rounded, if there is a finite one.
-/

namespace Uplink
namespace Text

variable {c : Char} {cs : List Char} {n places : ℕ} {e : ℤ}

/-- Digits with a point, or without one: the number that they denote if the point is left out, and how
many of them stand behind it. -/
inductive Mantissa : List Char → ℕ → ℕ → Prop where
  | whole {cs : List Char} {n : ℕ} : Denotes 10 cs n → Mantissa cs n 0
  | point {front back : List Char} {n : ℕ} : Denotes 10 (front ++ back) n →
      Mantissa (front ++ '.' :: back) n back.length

/-- A power of ten, or nothing. -/
inductive Power : List Char → ℤ → Prop where
  | none : Power [] 0
  | mark {mark : Char} {cs : List Char} {e : ℤ} : mark = 'e' ∨ mark = 'E' → Signed 10 cs e →
      Power (mark :: cs) e

/-- A decimal number without a sign: it denotes the first number times so many powers of ten. -/
inductive Magnitude : List Char → ℕ → ℤ → Prop where
  | intro {digits power : List Char} {n places : ℕ} {e : ℤ} : Mantissa digits n places →
      Power power e → Magnitude (digits ++ power) n (e - places)

/-- A decimal number, with a sign or without one. -/
inductive Decimal : List Char → Bool → ℕ → ℤ → Prop where
  | plain {cs : List Char} {n : ℕ} {e : ℤ} : Magnitude cs n e → Decimal cs false n e
  | plus {cs : List Char} {n : ℕ} {e : ℤ} : Magnitude cs n e → Decimal ('+' :: cs) false n e
  | minus {cs : List Char} {n : ℕ} {e : ℤ} : Magnitude cs n e → Decimal ('-' :: cs) true n e

theorem isDigit_iff_lt : c.isDigit = true ↔ digitValue c < 10 := by
  constructor
  · intro h
    have hrange := h
    rw [Char.isDigit, Bool.and_eq_true, decide_eq_true_iff, decide_eq_true_iff] at hrange
    have hhigh : c.toNat ≤ '9'.toNat := hrange.2
    have hnine : '9'.toNat = '0'.toNat + 9 := rfl
    rw [digitValue, if_pos h]
    omega
  · intro h
    by_contra hnot
    rw [digitValue, if_neg hnot] at h
    split at h
    · omega
    · split at h <;> omega

theorem exponent?_eq_some_iff : exponent? cs = some e ↔ Power cs e := by
  cases cs with
  | nil =>
      rw [exponent?, Option.some_inj]
      constructor
      · rintro rfl
        exact .none
      · rintro ⟨⟩
        rfl
  | cons mark cs =>
      rw [exponent?]
      constructor
      · intro h
        split at h
        · rename_i hmark
          exact .mark hmark ((signed?_eq_some_iff (by decide)).mp h)
        · cases h
      · rintro (_ | ⟨hmark, hsigned⟩)
        rw [if_pos hmark]
        exact (signed?_eq_some_iff (by decide)).mpr hsigned

/-- Where a power may stand there is no digit and no point. -/
theorem Power.head {power : List Char} (h : Power power e) :
    ∀ c ∈ power.head?, c.isDigit = false ∧ c ≠ '.' := by
  cases h with
  | none => simp
  | mark hmark =>
      rintro c hc
      obtain rfl := Option.some.inj hc
      rcases hmark with rfl | rfl <;> decide

theorem denotes_ten_iff :
    Denotes 10 cs n ↔ cs ≠ [] ∧ (∀ c ∈ cs, c.isDigit = true) ∧ ofDigits 10 cs = n := by
  simp only [denotes_iff (by decide : 10 ≤ 16), isDigit_iff_lt]

theorem takeWhile_isDigit (cs : List Char) : ∀ c ∈ cs.takeWhile Char.isDigit, c.isDigit = true :=
  fun _ => List.mem_takeWhile_imp

theorem magnitude?_of_power {negative : Bool} {digits power : List Char}
    (hmantissa : Mantissa digits n places) (hpower : Power power e) :
    magnitude? negative (digits ++ power) =
      some (Binary64.ofDecimal negative n (e - places)) := by
  have hexponent := exponent?_eq_some_iff.mpr hpower
  have hhead := hpower.head
  unfold magnitude?
  cases hmantissa with
  | whole hdenotes =>
      obtain ⟨hne, hdigits, rfl⟩ := denotes_ten_iff.mp hdenotes
      obtain ⟨htake, hdrop⟩ := split_append hdigits fun c hc => (hhead c hc).1
      have hnonempty : ¬ (digits.isEmpty && true) = true := by simpa using hne
      dsimp only
      rw [htake, hdrop]
      split
      · rename_i more
        exact absurd rfl (hhead '.' rfl).2
      · rw [List.isEmpty_nil, if_neg hnonempty, hexponent, List.append_nil]
        rfl
  | @point front back _ hdenotes =>
      obtain ⟨hne, hdigits, rfl⟩ := denotes_ten_iff.mp hdenotes
      rw [List.forall_mem_append] at hdigits
      obtain ⟨hfront, hback⟩ := hdigits
      have hpoint : ∀ c ∈ ('.' :: (back ++ power)).head?, c.isDigit = false := by simp
      obtain ⟨htake, hdrop⟩ := split_append hfront hpoint
      obtain ⟨htake', hdrop'⟩ := split_append hback fun c hc => (hhead c hc).1
      have hnonempty : ¬ (front.isEmpty && back.isEmpty) = true := by simpa using hne
      dsimp only
      rw [List.append_assoc, List.cons_append, htake, hdrop]
      split
      · rename_i more hmore
        obtain rfl := (List.cons.inj hmore).2
        rw [htake', hdrop', if_neg hnonempty, hexponent]
        rfl
      · rename_i hnot
        exact absurd rfl (hnot (back ++ power))

theorem magnitude?_eq_some_iff {negative : Bool} {x : Binary64} :
    magnitude? negative cs = some x ↔
      ∃ n e, Magnitude cs n e ∧ x = Binary64.ofDecimal negative n e := by
  constructor
  · intro h
    have hsplit : cs.takeWhile Char.isDigit ++ cs.dropWhile Char.isDigit = cs :=
      List.takeWhile_append_dropWhile
    have hwhole := takeWhile_isDigit cs
    unfold magnitude? at h
    dsimp only at h
    split at h
    · rename_i more hmore
      obtain ⟨hnonempty, hvalue⟩ := Option.ite_none_left_eq_some.mp h
      obtain ⟨e, hexponent, rfl⟩ := Option.map_eq_some_iff.mp hvalue
      have hplaces := takeWhile_isDigit more
      have hrest : more.takeWhile Char.isDigit ++ more.dropWhile Char.isDigit = more :=
        List.takeWhile_append_dropWhile
      have hdenotes : Denotes 10 (cs.takeWhile Char.isDigit ++ more.takeWhile Char.isDigit) _ :=
        denotes_ten_iff.mpr ⟨by simpa using hnonempty,
          List.forall_mem_append.mpr ⟨hwhole, hplaces⟩, rfl⟩
      have hmagnitude := Magnitude.intro (.point hdenotes) (exponent?_eq_some_iff.mp hexponent)
      rw [List.append_assoc, List.cons_append, hrest, ← hmore, hsplit] at hmagnitude
      exact ⟨_, _, hmagnitude, rfl⟩
    · obtain ⟨hnonempty, hvalue⟩ := Option.ite_none_left_eq_some.mp h
      obtain ⟨e, hexponent, rfl⟩ := Option.map_eq_some_iff.mp hvalue
      have hdenotes : Denotes 10 (cs.takeWhile Char.isDigit) _ :=
        denotes_ten_iff.mpr ⟨by simpa using hnonempty, hwhole, rfl⟩
      have hmagnitude := Magnitude.intro (.whole hdenotes) (exponent?_eq_some_iff.mp hexponent)
      rw [hsplit] at hmagnitude
      exact ⟨_, _, hmagnitude, by rw [List.append_nil]; rfl⟩
  · rintro ⟨n, e, ⟨hmantissa, hpower⟩, rfl⟩
    exact magnitude?_of_power hmantissa hpower

theorem Mantissa.exists_head {digits : List Char} (h : Mantissa digits n places) :
    ∃ c rest, digits = c :: rest ∧ (c.isDigit = true ∨ c = '.') := by
  cases h with
  | whole hdenotes =>
      obtain ⟨hne, hdigits, -⟩ := denotes_ten_iff.mp hdenotes
      obtain ⟨c, rest, rfl⟩ := List.exists_cons_of_ne_nil hne
      exact ⟨c, rest, rfl, .inl (hdigits c List.mem_cons_self)⟩
  | @point front back _ hdenotes =>
      obtain ⟨-, hdigits, -⟩ := denotes_ten_iff.mp hdenotes
      cases front with
      | nil => exact ⟨'.', back, rfl, .inr rfl⟩
      | cons c front => exact ⟨c, _, rfl, .inl (hdigits c List.mem_cons_self)⟩

/-- A number without a sign does not begin with one. -/
theorem Magnitude.head_ne {sign : Char} (hsign : sign = '+' ∨ sign = '-')
    (h : Magnitude (sign :: cs) n e) : False := by
  generalize htext : sign :: cs = text at h
  obtain ⟨hmantissa, -⟩ := h
  obtain ⟨c, rest, rfl, hc⟩ := hmantissa.exists_head
  obtain rfl := (List.cons.inj htext).1
  rcases hsign with rfl | rfl <;> revert hc <;> decide

theorem decimal?_eq_some_iff_ofDecimal {x : Binary64} : decimal? cs = some x ↔
    ∃ negative n e, Decimal cs negative n e ∧ x = Binary64.ofDecimal negative n e ∧
      x.isFinite = true := by
  unfold decimal?
  dsimp only
  rw [Option.filter_eq_some_iff]
  constructor
  · rintro ⟨h, hfinite⟩
    split at h
    · obtain ⟨n, e, hmagnitude, hx⟩ := magnitude?_eq_some_iff.mp h
      exact ⟨true, n, e, .minus hmagnitude, hx, hfinite⟩
    · obtain ⟨n, e, hmagnitude, hx⟩ := magnitude?_eq_some_iff.mp h
      exact ⟨false, n, e, .plus hmagnitude, hx, hfinite⟩
    · obtain ⟨n, e, hmagnitude, hx⟩ := magnitude?_eq_some_iff.mp h
      exact ⟨false, n, e, .plain hmagnitude, hx, hfinite⟩
  · rintro ⟨negative, n, e, hdecimal, hx, hfinite⟩
    refine ⟨?_, hfinite⟩
    cases hdecimal with
    | minus hmagnitude => exact magnitude?_eq_some_iff.mpr ⟨n, e, hmagnitude, hx⟩
    | plus hmagnitude => exact magnitude?_eq_some_iff.mpr ⟨n, e, hmagnitude, hx⟩
    | plain hmagnitude =>
        split
        · exact (hmagnitude.head_ne (.inr rfl)).elim
        · exact (hmagnitude.head_ne (.inl rfl)).elim
        · exact magnitude?_eq_some_iff.mpr ⟨n, e, hmagnitude, hx⟩

/-- A text is read as a finite number exactly if it is a decimal number that is rounded to it. -/
theorem decimal?_eq_some_iff {x : Binary64} : decimal? cs = some x ↔
    ∃ n e, Decimal cs x.isNegative n e ∧ n * (10 : ℚ) ^ e < Binary64.limit ∧
      Binary64.Rounds (n * 10 ^ e) x := by
  rw [decimal?_eq_some_iff_ofDecimal]
  constructor
  · rintro ⟨negative, n, e, hdecimal, rfl, hfinite⟩
    have hrounds := Binary64.rounds_ofDecimal negative n e
    rw [Binary64.isNegative_ofDecimal]
    exact ⟨n, e, hdecimal, hrounds.finite_iff.mp hfinite, hrounds⟩
  · rintro ⟨n, e, hdecimal, hlimit, hrounds⟩
    have hfinite := hrounds.finite_iff.mpr hlimit
    have hsign := (Binary64.isNegative_ofDecimal x.isNegative n e).symm
    exact ⟨x.isNegative, n, e, hdecimal,
      hrounds.unique (Binary64.rounds_ofDecimal x.isNegative n e) hfinite hsign, hfinite⟩

/-- Which texts are read as finite numbers. -/
theorem exists_decimal?_iff : (∃ x, decimal? cs = some x) ↔
    ∃ negative n e, Decimal cs negative n e ∧ n * (10 : ℚ) ^ e < Binary64.limit := by
  constructor
  · rintro ⟨x, hx⟩
    obtain ⟨n, e, hdecimal, hlimit, -⟩ := decimal?_eq_some_iff.mp hx
    exact ⟨x.isNegative, n, e, hdecimal, hlimit⟩
  · rintro ⟨negative, n, e, hdecimal, hlimit⟩
    have hfinite := (Binary64.rounds_ofDecimal negative n e).finite_iff.mpr hlimit
    exact ⟨_, decimal?_eq_some_iff_ofDecimal.mpr ⟨negative, n, e, hdecimal, rfl, hfinite⟩⟩

/-! ## Whole numbers -/

theorem Denotes.magnitude (h : Denotes 10 cs n) : Magnitude cs n 0 := by
  have hmagnitude := Magnitude.intro (.whole h) .none
  rwa [List.append_nil] at hmagnitude

/-- The numeral of a whole number is a decimal number. -/
theorem Signed.exists_decimal {m : ℤ} (h : Signed 10 cs m) :
    ∃ negative n, Decimal cs negative n 0 := by
  cases h with
  | minus hdenotes => exact ⟨true, _, .minus hdenotes.magnitude⟩
  | unsigned hunsigned =>
      cases hunsigned with
      | plus hdenotes => exact ⟨false, _, .plus hdenotes.magnitude⟩
      | plain hdenotes => exact ⟨false, _, .plain hdenotes.magnitude⟩

/-- The only digits of a whole number without a sign are its own. -/
theorem Denotes.eq_of_magnitude {m : ℕ} (h : Denotes 10 cs m) (hmagnitude : Magnitude cs n e) :
    n = m ∧ e = 0 := by
  obtain ⟨-, hdigits, rfl⟩ := denotes_ten_iff.mp h
  obtain ⟨hmantissa, hpower⟩ := hmagnitude
  rw [List.forall_mem_append] at hdigits
  cases hmantissa with
  | point => exact absurd (hdigits.1 '.' (by simp)) (by decide)
  | whole hdenotes =>
      have hhead := hpower.head
      cases hpower with
      | none =>
          obtain ⟨-, -, rfl⟩ := denotes_ten_iff.mp hdenotes
          rw [List.append_nil]
          exact ⟨rfl, rfl⟩
      | mark =>
          obtain ⟨hnot, -⟩ := hhead _ rfl
          rw [hdigits.2 _ List.mem_cons_self] at hnot
          cases hnot

/-- As a decimal number the numeral of a whole number has the same value: no exponent, and nothing
behind a point. -/
theorem Decimal.eq_of_signed {negative : Bool} {m : ℤ} (h : Decimal cs negative n e)
    (hsigned : Signed 10 cs m) : m = (if negative then -(n : ℤ) else n) ∧ e = 0 := by
  cases h with
  | plain hmagnitude =>
      rcases hsigned with (hdenotes | _) | _
      · obtain ⟨rfl, he⟩ := hdenotes.eq_of_magnitude hmagnitude
        exact ⟨rfl, he⟩
      · exact (hmagnitude.head_ne (.inl rfl)).elim
      · exact (hmagnitude.head_ne (.inr rfl)).elim
  | plus hmagnitude =>
      rcases hsigned with (hdenotes | hdenotes) | _
      · exact (hdenotes.head_ne (by decide) (.inl rfl)).elim
      · obtain ⟨rfl, he⟩ := hdenotes.eq_of_magnitude hmagnitude
        exact ⟨rfl, he⟩
  | minus hmagnitude =>
      rcases hsigned with (hdenotes | _) | hdenotes
      · exact (hdenotes.head_ne (by decide) (.inr rfl)).elim
      · obtain ⟨rfl, he⟩ := hdenotes.eq_of_magnitude hmagnitude
        exact ⟨rfl, he⟩

end Text
end Uplink
