import Mathlib.Data.List.Basic
import Mathlib.Tactic.SplitIfs
import Uplink.Proofs.Json.Document

/-!
# The contents of a string

Which characters may stand between the marks of a string, and which text they denote, is a matter of
a small grammar: characters that stand for themselves, short escapes, and escapes with the number of a
code unit, of which two make a pair.  The reader works in two steps, first cutting the characters into
elements and then pairing the code units; together the steps accept the contents of the grammar and
nothing else.
-/

namespace Uplink
namespace Json

/-! ## The grammar -/

/-- The letters after a backslash that stand for a character by themselves. -/
def shortEscapes : List (Char × Char) :=
  [('"', '"'), ('\\', '\\'), ('/', '/'), ('b', '\x08'), ('f', '\x0c'), ('n', '\n'), ('r', '\r'),
    ('t', '\t')]

/-- A hexadecimal digit in either case, with its value. -/
def HexDigit (c : Char) (n : ℕ) : Prop :=
  n < 16 ∧ (c = Nat.digitChar n ∨ c = (Nat.digitChar n).toUpper)

/-- Four hexadecimal digits, with their value. -/
def Hex4 (a b c d : Char) (n : ℕ) : Prop :=
  ∃ w x y z, HexDigit a w ∧ HexDigit b x ∧ HexDigit c y ∧ HexDigit d z ∧
    n = w * 16 ^ 3 + x * 16 ^ 2 + y * 16 + z

/-- The contents of a string, with the characters that they denote.  A character is never a half of a
pair, so a single code unit that denotes one is no half either. -/
inductive Contents : List Char → List Char → Prop where
  | nil : Contents [] []
  | plain {c : Char} {cs text : List Char} : c ≠ '"' → c ≠ '\\' → 0x20 ≤ c.toNat →
      Contents cs text → Contents (c :: cs) (c :: text)
  | short {letter c : Char} {cs text : List Char} : (letter, c) ∈ shortEscapes →
      Contents cs text → Contents ('\\' :: letter :: cs) (c :: text)
  | unit {a b c d e : Char} {cs text : List Char} : Hex4 a b c d e.toNat →
      Contents cs text → Contents ('\\' :: 'u' :: a :: b :: c :: d :: cs) (e :: text)
  | pair {a b c d a' b' c' d' e : Char} {high low : ℕ} {cs text : List Char} :
      Hex4 a b c d high → 0xd800 ≤ high → high < 0xdc00 →
      Hex4 a' b' c' d' low → 0xdc00 ≤ low → low < 0xe000 →
      e.toNat = 0x10000 + (high - 0xd800) * 0x400 + (low - 0xdc00) → Contents cs text →
        Contents ('\\' :: 'u' :: a :: b :: c :: d :: '\\' :: 'u' :: a' :: b' :: c' :: d' :: cs)
          (e :: text)

namespace Literal

/-! ## Digits and letters -/

theorem hexValue?_eq_none {c : Char} (h : 128 ≤ c.toNat) : hexValue? c = none := by
  have hdigit : c.isDigit = false := by
    rw [Bool.eq_false_iff]
    intro hdigit
    have hle : c.toNat ≤ 57 := (Char.isDigit_iff_toNat.mp hdigit).2
    omega
  have hle : ∀ last : Char, last.toNat < 128 → ¬ c ≤ last := by
    intro last hlast hle
    have : c.toNat ≤ last.toNat := hle
    omega
  simp [hexValue?, hdigit, hle 'f' (by decide), hle 'F' (by decide)]

theorem hexValue?_eq_some_iff {c : Char} {n : ℕ} : hexValue? c = some n ↔ HexDigit c n := by
  constructor
  · intro h
    have hlt : c.toNat < 128 := by
      by_contra hge
      rw [hexValue?_eq_none (Nat.le_of_not_lt hge)] at h
      cases h
    -- every character below 128 is looked at
    have hall : ∀ k < 128, ∀ v ∈ hexValue? (Char.ofNat k), v < 16 ∧
        (Char.ofNat k = Nat.digitChar v ∨ Char.ofNat k = (Nat.digitChar v).toUpper) := by
      decide
    have hthis := hall c.toNat hlt n
    rw [Char.ofNat_toNat] at hthis
    exact hthis h
  · rintro ⟨hlt, rfl | rfl⟩
    · exact hexValue?_digitChar hlt
    · have hall : ∀ k < 16, hexValue? (Nat.digitChar k).toUpper = some k := by decide
      exact hall n hlt

theorem codeUnit?_eq_some_iff {a b c d : Char} {n : ℕ} :
    codeUnit? a b c d = some n ↔ Hex4 a b c d n := by
  constructor
  · intro h
    simp only [codeUnit?, Option.bind_eq_bind, Option.bind_eq_some_iff, Option.pure_def,
      Option.some.injEq] at h
    obtain ⟨w, hw, x, hx, y, hy, z, hz, rfl⟩ := h
    refine ⟨w, x, y, z, hexValue?_eq_some_iff.mp hw, hexValue?_eq_some_iff.mp hx,
      hexValue?_eq_some_iff.mp hy, hexValue?_eq_some_iff.mp hz, by omega⟩
  · rintro ⟨w, x, y, z, hw, hx, hy, hz, rfl⟩
    simp only [codeUnit?, hexValue?_eq_some_iff.mpr hw, hexValue?_eq_some_iff.mpr hx,
      hexValue?_eq_some_iff.mpr hy, hexValue?_eq_some_iff.mpr hz, Option.bind_eq_bind,
      Option.bind_some, Option.pure_def, Option.some.injEq]
    omega

theorem shortEscape?_eq_some_iff {letter c : Char} :
    shortEscape? letter = some c ↔ (letter, c) ∈ shortEscapes := by
  constructor
  · intro h
    unfold shortEscape? at h
    split at h
    · rename_i hsame
      cases h
      rcases hsame with rfl | rfl | rfl <;> decide
    · split_ifs at h with hb hf hn hr ht <;> cases h <;> subst letter <;> decide
  · intro h
    have hall : ∀ entry ∈ shortEscapes, shortEscape? entry.1 = some entry.2 := by decide
    exact hall _ h

/-! ## The first step: elements -/

/-- The characters between the marks, cut into elements. -/
inductive Spells : List Char → List Element → Prop where
  | nil : Spells [] []
  | plain {c : Char} {cs : List Char} {elements : List Element} : c ≠ '"' → c ≠ '\\' →
      0x20 ≤ c.toNat → Spells cs elements → Spells (c :: cs) (.plain c :: elements)
  | short {letter c : Char} {cs : List Char} {elements : List Element} :
      (letter, c) ∈ shortEscapes → Spells cs elements →
        Spells ('\\' :: letter :: cs) (.plain c :: elements)
  | unit {a b c d : Char} {n : ℕ} {cs : List Char} {elements : List Element} : Hex4 a b c d n →
      Spells cs elements → Spells ('\\' :: 'u' :: a :: b :: c :: d :: cs) (.unit n :: elements)

/-- After a backslash any letter but the one that announces a number is looked up. -/
theorem read_short {letter : Char} (hletter : letter ≠ 'u') (found : List Element)
    (rest : List Char) :
    read found ('\\' :: letter :: rest) =
      (shortEscape? letter).bind fun c => read (.plain c :: found) rest := by
  rw [read.eq_def]
  split
  · rename_i heq
    cases heq
  · rename_i heq
    cases heq
  · rename_i heq
    cases heq
    exact absurd rfl hletter
  · rename_i heq
    cases heq
    cases shortEscape? letter <;> rfl
  · rename_i hback heq
    cases heq
    exact absurd rfl (hback _ _ rfl)

section

variable {cs rest text : List Char} {elements found : List Element}

theorem read_of_spells (h : Spells cs elements) (found : List Element) (rest : List Char) :
    read found (cs ++ '"' :: rest) = some (found.reverse ++ elements, rest) := by
  induction h generalizing found with
  | nil => simp [read]
  | plain hquote hback hspace _ ih =>
      have hcontrol : ¬ _ < ' ' := fun hlt => Nat.not_lt.mpr hspace (toNat_lt_of_lt_space hlt)
      rw [List.cons_append, read_plain hquote hback hcontrol, ih]
      simp
  | @short letter c cs elements hletter _ ih =>
      have hescape := shortEscape?_eq_some_iff.mpr hletter
      have hu : letter ≠ 'u' := by
        rintro rfl
        revert hletter
        simp [shortEscapes]
      rw [List.cons_append, List.cons_append, read_short hu, hescape]
      simp [ih]
  | unit hdigits _ ih =>
      simp only [List.cons_append, read, codeUnit?_eq_some_iff.mpr hdigits]
      rw [ih]
      simp

theorem spells_of_read (h : read found cs = some (elements, rest)) :
    ∃ before new, cs = before ++ '"' :: rest ∧ Spells before new ∧
      elements = found.reverse ++ new := by
  fun_induction read found cs with
  | case1 => cases h
  | case2 found rest' =>
      cases h
      exact ⟨[], [], rfl, .nil, (List.append_nil _).symm⟩
  | case3 found a b c d tail n hn ih =>
      obtain ⟨before, new, rfl, hspells, rfl⟩ := ih h
      exact ⟨_, _, rfl, .unit (codeUnit?_eq_some_iff.mp hn) hspells, by simp⟩
  | case4 => cases h
  | case5 found letter tail _ c hc ih =>
      obtain ⟨before, new, rfl, hspells, rfl⟩ := ih h
      exact ⟨_, _, rfl, .short (shortEscape?_eq_some_iff.mp hc) hspells, by simp⟩
  | case6 => cases h
  | case7 => cases h
  | case8 found c tail hquote hnumber hescape hspace ih =>
      obtain ⟨before, new, rfl, hspells, rfl⟩ := ih h
      have hback : c ≠ '\\' := by
        rintro rfl
        cases before with
        | nil => exact hescape _ _ rfl rfl
        | cons letter before => exact hescape _ _ rfl rfl
      refine ⟨_, _, rfl, .plain (fun hmark => hquote hmark) hback ?_ hspells, by simp⟩
      exact Nat.le_of_not_lt fun hlt => hspace hlt

end

/-! ## The second step: pairs -/

section

variable {cs text all : List Char} {elements : List Element} {found : List Char}

theorem toNat_ofNat_of_isValidChar {n : ℕ} (h : n.isValidChar) : (Char.ofNat n).toNat = n := by
  rw [Char.ofNat, dif_pos h]
  rfl

/-- A character is never a half of a pair. -/
theorem toNat_not_half (e : Char) : isHigh e.toNat = false ∧ isLow e.toNat = false := by
  have hvalid : e.toNat < 0xd800 ∨ 0xdfff < e.toNat ∧ e.toNat < 0x110000 := e.valid
  simp only [isHigh, isLow, Bool.and_eq_false_iff, decide_eq_false_iff_not]
  omega

theorem isHigh_iff {n : ℕ} : isHigh n = true ↔ 0xd800 ≤ n ∧ n < 0xdc00 := by
  simp only [isHigh, Bool.and_eq_true, decide_eq_true_eq]
  omega

theorem isLow_iff {n : ℕ} : isLow n = true ↔ 0xdc00 ≤ n ∧ n < 0xe000 := by
  simp only [isLow, Bool.and_eq_true, decide_eq_true_eq]
  omega

/-- A number that is no half of a pair and has four digits is that of a character. -/
theorem toNat_ofNat_of_not_half {n : ℕ} (hlt : n < 0x10000) (hhigh : isHigh n = false)
    (hlow : isLow n = false) : (Char.ofNat n).toNat = n := by
  have hvalid : n.isValidChar := by
    have hnot : ¬ (0xd800 ≤ n ∧ n < 0xdc00) := fun h => by simp [isHigh_iff.mpr h] at hhigh
    have hnot' : ¬ (0xdc00 ≤ n ∧ n < 0xe000) := fun h => by simp [isLow_iff.mpr h] at hlow
    unfold Nat.isValidChar
    omega
  exact toNat_ofNat_of_isValidChar hvalid

theorem toNat_paired {high low : ℕ} (hhigh : isHigh high = true) (hlow : isLow low = true) :
    (paired high low).toNat = 0x10000 + (high - 0xd800) * 0x400 + (low - 0xdc00) := by
  rw [isHigh_iff] at hhigh
  rw [isLow_iff] at hlow
  have hvalid : (0x10000 + (high - 0xd800) * 0x400 + (low - 0xdc00)).isValidChar := by
    unfold Nat.isValidChar
    omega
  exact toNat_ofNat_of_isValidChar hvalid

theorem lt_of_hex4 {a b c d : Char} {n : ℕ} (h : Hex4 a b c d n) : n < 0x10000 := by
  obtain ⟨w, x, y, z, ⟨hw, -⟩, ⟨hx, -⟩, ⟨hy, -⟩, ⟨hz, -⟩, rfl⟩ := h
  omega

/-- A code unit that is no half of a pair denotes its character, whatever follows it. -/
theorem denoted?_single {n : ℕ} (hhigh : isHigh n = false) (hlow : isLow n = false)
    (found : List Char) (rest : List Element) :
    denoted? found (.unit n :: rest) = denoted? (Char.ofNat n :: found) rest := by
  rcases rest with _ | ⟨c | low, rest⟩ <;> simp [denoted?, hhigh, hlow]

/-- Contents are cut into elements that denote their text. -/
theorem exists_spells_of_contents (h : Contents cs text) :
    ∃ elements, Spells cs elements ∧
      ∀ found, denoted? found elements = some (found.reverse ++ text) := by
  induction h with
  | nil => exact ⟨[], .nil, fun found => by simp [denoted?]⟩
  | plain hquote hback hspace _ ih =>
      obtain ⟨elements, hspells, hdenoted⟩ := ih
      refine ⟨_, .plain hquote hback hspace hspells, fun found => ?_⟩
      rw [denoted?, hdenoted]
      simp
  | short hletter _ ih =>
      obtain ⟨elements, hspells, hdenoted⟩ := ih
      refine ⟨_, .short hletter hspells, fun found => ?_⟩
      rw [denoted?, hdenoted]
      simp
  | @unit _ _ _ _ e _ _ hdigits _ ih =>
      obtain ⟨elements, hspells, hdenoted⟩ := ih
      obtain ⟨hhigh, hlow⟩ := toNat_not_half e
      refine ⟨_, .unit hdigits hspells, fun found => ?_⟩
      rw [denoted?_single hhigh hlow, hdenoted, Char.ofNat_toNat]
      simp
  | @pair _ _ _ _ _ _ _ _ e high low _ _ hdigits hge hlt hdigits' hge' hlt' hnumber _ ih =>
      obtain ⟨elements, hspells, hdenoted⟩ := ih
      have hhigh := isHigh_iff.mpr ⟨hge, hlt⟩
      have hlow := isLow_iff.mpr ⟨hge', hlt'⟩
      have he : paired high low = e := Char.toNat_inj.mp ((toNat_paired hhigh hlow).trans hnumber.symm)
      refine ⟨_, .unit hdigits (.unit hdigits' hspells), fun found => ?_⟩
      rw [denoted?, if_pos hhigh, if_pos hlow, hdenoted, he]
      simp

/-- Elements that denote a text are those of its contents. -/
theorem contents_of_spells (hspells : Spells cs elements)
    (hdenoted : denoted? found elements = some all) :
    ∃ text, Contents cs text ∧ all = found.reverse ++ text := by
  fun_induction denoted? found elements generalizing cs with
  | case1 found =>
      cases hspells
      cases hdenoted
      exact ⟨[], .nil, (List.append_nil _).symm⟩
  | case2 found c rest ih =>
      cases hspells with
      | plain hquote hback hspace hrest =>
          obtain ⟨text, hcontents, rfl⟩ := ih hrest hdenoted
          exact ⟨_, .plain hquote hback hspace hcontents, by simp⟩
      | short hletter hrest =>
          obtain ⟨text, hcontents, rfl⟩ := ih hrest hdenoted
          exact ⟨_, .short hletter hcontents, by simp⟩
  | case3 found high low rest hhigh hlow ih =>
      cases hspells with
      | unit hdigits hspells =>
          cases hspells with
          | unit hdigits' hrest =>
              obtain ⟨text, hcontents, rfl⟩ := ih hrest hdenoted
              obtain ⟨hge, hlt⟩ := isHigh_iff.mp hhigh
              obtain ⟨hge', hlt'⟩ := isLow_iff.mp hlow
              exact ⟨_, .pair hdigits hge hlt hdigits' hge' hlt' (toNat_paired hhigh hlow) hcontents,
                by simp⟩
  | case4 => cases hdenoted
  | case5 => cases hdenoted
  | case6 found n low rest hhigh hlow ih =>
      cases hspells with
      | unit hdigits hrest =>
          obtain ⟨text, hcontents, rfl⟩ := ih hrest hdenoted
          have hnumber := toNat_ofNat_of_not_half (lt_of_hex4 hdigits) (eq_false_of_ne_true hhigh)
            (eq_false_of_ne_true hlow)
          exact ⟨_, .unit (hnumber.symm ▸ hdigits) hcontents, by simp⟩
  | case7 => cases hdenoted
  | case8 found n rest _ hhalf ih =>
      cases hspells with
      | unit hdigits hrest =>
          obtain ⟨text, hcontents, rfl⟩ := ih hrest hdenoted
          simp only [Bool.or_eq_true, not_or, Bool.not_eq_true] at hhalf
          have hnumber := toNat_ofNat_of_not_half (lt_of_hex4 hdigits) hhalf.1 hhalf.2
          exact ⟨_, .unit (hnumber.symm ▸ hdigits) hcontents, by simp⟩

/-- What stands before a mark is read as a text if and only if it is the contents of that text; and
what is left is what follows the mark. -/
theorem read_eq_some_iff {rest : List Char} {s : String} :
    (∃ elements, read [] cs = some (elements, rest) ∧ text? elements = some s) ↔
      ∃ before, cs = before ++ '"' :: rest ∧ Contents before s.toList := by
  constructor
  · rintro ⟨elements, hread, htext⟩
    obtain ⟨before, new, rfl, hspells, rfl⟩ := spells_of_read hread
    obtain ⟨all, hdenoted, rfl⟩ := Option.map_eq_some_iff.mp htext
    obtain ⟨text, hcontents, rfl⟩ := contents_of_spells hspells hdenoted
    exact ⟨before, rfl, by simpa using hcontents⟩
  · rintro ⟨before, rfl, hcontents⟩
    obtain ⟨elements, hspells, hdenoted⟩ := exists_spells_of_contents hcontents
    refine ⟨_, read_of_spells hspells [] rest, ?_⟩
    rw [text?, List.reverse_nil, List.nil_append, hdenoted]
    simp

end

end Literal

/-- A mark behind some contents ends them, so it is part of no contents. -/
theorem Contents.not_append {before text text' : List Char} (h : Contents before text)
    (after : List Char) : ¬ Contents (before ++ '"' :: after) text' := by
  intro h'
  obtain ⟨elements, hspells, -⟩ := Literal.exists_spells_of_contents h
  obtain ⟨elements', hspells', -⟩ := Literal.exists_spells_of_contents h'
  have hread := Literal.read_of_spells hspells [] (after ++ ['"'])
  have hread' := Literal.read_of_spells hspells' [] []
  rw [List.append_assoc, List.cons_append, hread] at hread'
  simp at hread'

/-- Half of a pair that stands alone denotes nothing. -/
theorem Contents.not_half {a b c d : Char} {n : ℕ} {text : List Char} (hdigits : Hex4 a b c d n)
    (hhalf : Literal.isHigh n = true ∨ Literal.isLow n = true) :
    ¬ Contents ['\\', 'u', a, b, c, d] text := by
  intro h
  cases h with
  | plain _ hback => exact hback rfl
  | short hletter => simp [shortEscapes] at hletter
  | @unit _ _ _ _ e _ _ hdigits' =>
      have hnumber : n = e.toNat := Option.some.inj
        ((Literal.codeUnit?_eq_some_iff.mpr hdigits).symm.trans
          (Literal.codeUnit?_eq_some_iff.mpr hdigits'))
      obtain ⟨hhigh, hlow⟩ := Literal.toNat_not_half e
      rw [hnumber, hhigh, hlow] at hhalf
      simp at hhalf

/-! ## A document that is a string -/

namespace Token

theorem scan_of_next?_none {c : Char} {cs : List Char} (hspace : isSpace c = false)
    (hnext : next? (c :: cs) = none) (found : List Token) : scan found (c :: cs) = none := by
  rw [scan, hspace]
  simp only [Bool.false_eq_true, if_false]
  split
  · rfl
  · rename_i hsome
    rw [hnext] at hsome
    cases hsome

/-- A text that is not all blank has a token. -/
theorem exists_token_of_scan {found tokens : List Token} {cs : List Char}
    (h : scan found cs = some tokens) :
    ∃ more, tokens = found.reverse ++ more ∧ (more = [] → ∀ c ∈ cs, isSpace c = true) := by
  fun_induction scan found cs with
  | case1 found =>
      cases h
      exact ⟨[], (List.append_nil _).symm, by simp⟩
  | case2 found c tail hspace ih =>
      obtain ⟨more, htokens, hblank⟩ := ih h
      refine ⟨more, htokens, fun hnil => List.forall_mem_cons.mpr ⟨hspace, hblank hnil⟩⟩
  | case3 => cases h
  | case4 found c tail hspace token rest hnext _ ih =>
      obtain ⟨more, htokens, -⟩ := ih h
      exact ⟨token :: more, by simpa using htokens, by simp⟩

end Token

/-- Nothing may follow a value that stands by itself. -/
theorem foldlM_step_afterValue {value : Json} {tokens : List Token} (h : tokens ≠ []) :
    tokens.foldlM Parser.step (.afterValue value []) = none := by
  cases tokens with
  | nil => exact absurd rfl h
  | cons token tokens => rfl

theorem ofTokens?_string (text : Option String) (tokens : List Token) (s : String) :
    ofTokens? (.string text :: tokens) = some (.string s) ↔ tokens = [] ∧ text = some s := by
  by_cases htokens : tokens = []
  · subst htokens
    cases text <;> simp [ofTokens?, Parser.step, Parser.stepValue, Parser.finish?]
  · have hnone : ∀ value, tokens.foldlM Parser.step (.afterValue value []) = none :=
      fun _ => foldlM_step_afterValue htokens
    cases text <;> simp [ofTokens?, Parser.step, Parser.stepValue, hnone, htokens]

/-- A text between two marks is a document with the value of a string if and only if it is the
contents of that string. -/
theorem parse?_marked_iff {contents s : String} :
    parse? ("\"" ++ contents ++ "\"") = some (.string s) ↔ Contents contents.toList s.toList := by
  have hchars : ("\"" ++ contents ++ "\"").toList = '"' :: (contents.toList ++ ['"']) := by simp
  have hnext : Token.next? ('"' :: (contents.toList ++ ['"'])) =
      (Literal.read [] (contents.toList ++ ['"'])).map fun found =>
        (.string (Literal.text? found.1), found.2) := by
    rw [Token.next?]
  constructor
  · intro h
    obtain ⟨tokens, hscan, hvalue⟩ := Option.bind_eq_some_iff.mp h
    rw [Token.ofText?, hchars] at hscan
    cases hread : Literal.read [] (contents.toList ++ ['"']) with
    | none =>
        rw [hread, Option.map_none] at hnext
        rw [Token.scan_of_next?_none rfl hnext] at hscan
        cases hscan
    | some found =>
        obtain ⟨elements, rest⟩ := found
        rw [hread, Option.map_some] at hnext
        rw [Token.scan_of_next? rfl hnext] at hscan
        obtain ⟨more, rfl, hblank⟩ := Token.exists_token_of_scan hscan
        obtain ⟨hmore, htext⟩ := (ofTokens?_string _ _ _).mp hvalue
        obtain ⟨before, hbefore, hcontents⟩ := Literal.read_eq_some_iff.mp ⟨_, hread, htext⟩
        -- what is left would end with the closing mark, which is no blank
        rcases rest.eq_nil_or_concat' with rfl | ⟨rest, last, rfl⟩
        · obtain ⟨rfl, -⟩ := List.append_inj' hbefore rfl
          exact hcontents
        · rw [← List.cons_append, ← List.append_assoc] at hbefore
          obtain ⟨-, hlast⟩ := List.append_inj' hbefore rfl
          cases hlast
          exact absurd (hblank hmore '"' (by simp)) (by decide)
  · intro h
    obtain ⟨elements, hread, htext⟩ := Literal.read_eq_some_iff.mpr
      ⟨contents.toList, rfl, h⟩
    rw [hread, Option.map_some] at hnext
    rw [parse?, Token.ofText?, hchars, Token.scan_of_next? rfl hnext, Token.scan]
    exact (ofTokens?_string _ _ _).mpr ⟨rfl, htext⟩

end Json
end Uplink
