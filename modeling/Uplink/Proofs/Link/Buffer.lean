import Uplink.Proofs.Link.Turns

/-!
# What a framer keeps

Between two chunks a framer keeps what matters of the bytes that it has received since the last
response, or since it was reset: in a response, all from the opening on, and otherwise no more than may
still grow into the opening.  Each chunk and each reset keeps it so, whatever the delimiters are.

As the opening of a response is never lost, every chunk is worked through without fail, and each turn
but the last takes at least as many bytes as the opening has.
-/

namespace Uplink
namespace Link

/-! ## The bytes since the last response -/

/-- What may be done to a framer. -/
inductive Operation where
  | push (chunk : List UInt8)
  | reset
  deriving DecidableEq, Repr

section

variable (opening closing : List UInt8)

/-- The first response of some bytes is complete.  There is none without opening bytes, and without
closing bytes it takes all that there is. -/
def Completes (bytes : List UInt8) (span : Span) : Prop :=
  opening ≠ [] ∧
    if closing = [] then Leftmost opening bytes 0 span.start ∧ span.stop = bytes.length
    else IsNext opening closing bytes 0 span

/-- The responses of some bytes, and what is left after them. -/
inductive Unanswered : List UInt8 → List String → List UInt8 → Prop where
  | nil {bytes : List UInt8} : (∀ span, ¬ Completes opening closing bytes span) →
      Unanswered bytes [] bytes
  | cons {bytes rest : List UInt8} {span : Span} {texts : List String} :
      Completes opening closing bytes span → Unanswered (bytes.drop span.stop) texts rest →
        Unanswered bytes (span.text bytes :: texts) rest

/-- The bytes received since the last response or reset, before and after some operations. -/
inductive Since : List UInt8 → List Operation → List UInt8 → Prop where
  | nil (since : List UInt8) : Since since [] since
  | push {since chunk rest last : List UInt8} {texts : List String} {operations : List Operation} :
      Unanswered opening closing (since ++ chunk) texts rest → Since rest operations last →
        Since since (.push chunk :: operations) last
  | reset {since last : List UInt8} {operations : List Operation} : Since [] operations last →
      Since since (.reset :: operations) last

/-- How a framer represents the bytes received since the last response or reset. -/
structure Represents (since : List UInt8) (framer : Framer) : Prop where
  delimiters : framer.opening = opening ∧ framer.closing = closing
  inside : framer.inResponse = true → opening ≠ [] ∧ closing ≠ [] ∧ opening <+: framer.buffer ∧
    ¬ closing <:+: framer.buffer.drop opening.length
  outside : framer.inResponse = false → opening ≠ [] → framer.buffer.length < opening.length ∧
    framer.buffer <+: opening ∧ framer.buffer <:+ since ∧
      ∀ tail, tail.length < opening.length → tail <+: opening → tail <:+ since →
        tail.length ≤ framer.buffer.length
  idle : opening = [] → framer.buffer = [] ∧ framer.inResponse = false

/-- What a framer keeps of the bytes received since the last response or reset. -/
structure Keeps (since : List UInt8) (framer : Framer) : Prop where
  opening_eq : framer.opening = opening
  closing_eq : framer.closing = closing
  retained : opening ≠ [] → Retained opening closing since 0 framer.inResponse framer.buffer
  idle : opening = [] → framer.buffer = [] ∧ framer.inResponse = false

end

section

variable {opening closing bytes since : List UInt8} {framer : Framer}

theorem Completes.unique {span span' : Span} (h : Completes opening closing bytes span)
    (h' : Completes opening closing bytes span') : span = span' := by
  obtain ⟨-, h⟩ := h
  obtain ⟨-, h'⟩ := h'
  by_cases hclosing : closing = []
  · rw [if_pos hclosing] at h h'
    cases span
    cases span'
    exact congr (congrArg Span.mk (h.1.unique h'.1)) (h.2.trans h'.2.symm)
  · rw [if_neg hclosing] at h h'
    exact h.unique h'

theorem Unanswered.unique {texts texts' : List String} {rest rest' : List UInt8}
    (h : Unanswered opening closing bytes texts rest)
    (h' : Unanswered opening closing bytes texts' rest') : texts = texts' ∧ rest = rest' := by
  induction h generalizing texts' with
  | nil hnone =>
      cases h' with
      | nil => exact ⟨rfl, rfl⟩
      | cons hcompletes => exact absurd hcompletes (hnone _)
  | cons hcompletes _ ih =>
      cases h' with
      | nil hnone => exact absurd hcompletes (hnone _)
      | cons hcompletes' hrest =>
          obtain rfl := hcompletes.unique hcompletes'
          obtain ⟨rfl, rfl⟩ := ih hrest
          exact ⟨rfl, rfl⟩

theorem Since.unique {operations : List Operation} {last last' : List UInt8}
    (h : Since opening closing since operations last)
    (h' : Since opening closing since operations last') : last = last' := by
  induction h with
  | nil =>
      cases h'
      rfl
  | push hanswered _ ih =>
      cases h' with
      | push hanswered' hrest =>
          obtain ⟨-, rfl⟩ := hanswered.unique hanswered'
          exact ih hrest
  | reset _ ih =>
      cases h' with
      | reset hrest => exact ih hrest

/-! ## What is kept represents these bytes -/

/-- A response that goes on has an end, if there ever is one. -/
theorem Retained.closing_ne_nil {pos : ℕ} {buffer : List UInt8}
    (h : Retained opening closing bytes pos true buffer) : closing ≠ [] := by
  rintro rfl
  cases h with
  | inside hstart hnone => exact hnone _ le_rfl List.nil_prefix

theorem Retained.not_completes {inside : Bool} {buffer : List UInt8}
    (h : Retained opening closing bytes 0 inside buffer) (span : Span) :
    ¬ Completes opening closing bytes span := by
  rintro ⟨-, hcompletes⟩
  by_cases hclosing : closing = []
  · rw [if_pos hclosing] at hcompletes
    cases h with
    | outside htail hnone => exact hnone _ (Nat.zero_le _) hcompletes.1.occurs
    | inside hstart hnone => exact hnone _ le_rfl (hclosing ▸ List.nil_prefix)
  · rw [if_neg hclosing] at hcompletes
    exact h.not_isNext span hcompletes

/-- In a response the opening is kept, and no closing after it. -/
theorem Retained.starts {pos : ℕ} {buffer : List UInt8}
    (h : Retained opening closing bytes pos true buffer) :
    opening <+: buffer ∧ ¬ closing <:+: buffer.drop opening.length := by
  cases h with
  | @inside start hstart hnone =>
      refine ⟨hstart.occurs, fun hinfix => ?_⟩
      obtain ⟨tail, hprefix, hsuffix⟩ := List.infix_iff_prefix_suffix.mp hinfix
      rw [List.suffix_iff_eq_drop.mp hsuffix, List.drop_drop, List.drop_drop] at hprefix
      exact hnone _ (by omega) hprefix

/-- Outside a response the longest tail is kept that is a proper initial part of the opening. -/
theorem Retained.longest {buffer : List UInt8}
    (h : Retained opening closing bytes 0 false buffer) :
    buffer.length < opening.length ∧ buffer <+: opening ∧ buffer <:+ bytes ∧
      ∀ tail, tail <+: opening → tail <:+ bytes → tail.length ≤ buffer.length := by
  cases h with
  | @outside spot htail hnone =>
      refine ⟨?_, htail.part, List.drop_suffix _ _, fun tail hpart hsuffix => ?_⟩
      · refine lt_of_le_of_ne htail.part.length_le fun heq => ?_
        have hall := htail.part.eq_of_length heq
        exact hnone spot (Nat.zero_le _) (hall ▸ List.prefix_rfl)
      · by_contra hlong
        rw [List.length_drop] at hlong
        have hle := hsuffix.length_le
        rw [List.suffix_iff_eq_drop.mp hsuffix] at hpart
        exact htail.first _ (Nat.zero_le _) (by omega) hpart

theorem Keeps.represents (h : Keeps opening closing since framer) :
    Represents opening closing since framer where
  delimiters := ⟨h.opening_eq, h.closing_eq⟩
  inside hinside := by
    have hopening : opening ≠ [] := fun hnil => by simp [h.idle hnil] at hinside
    have hretained := h.retained hopening
    rw [hinside] at hretained
    exact ⟨hopening, hretained.closing_ne_nil, hretained.starts⟩
  outside houtside hopening := by
    have hretained := h.retained hopening
    rw [houtside] at hretained
    obtain ⟨hlt, hpart, hsuffix, hlongest⟩ := hretained.longest
    exact ⟨hlt, hpart, hsuffix, fun tail _ => hlongest tail⟩
  idle := h.idle

end

namespace Framer

variable {framer : Framer} {opening closing bytes since : List UInt8}

/-- Do something to a framer. -/
def perform (framer : Framer) : Operation → Framer
  | .push chunk => (framer.push chunk).1
  | .reset => framer.reset

/-- A framer after some operations. -/
def after (framer : Framer) (operations : List Operation) : Framer :=
  operations.foldl perform framer

/-! ## What a chunk leaves -/

theorem completes_of_endOf? {start stop : ℕ} (hopening : framer.opening ≠ [])
    (hstart : Leftmost framer.opening bytes 0 start)
    (h : framer.endOf? (bytes.drop start) = some stop) :
    Completes framer.opening framer.closing bytes ⟨start, start + stop⟩ := by
  refine ⟨hopening, ?_⟩
  by_cases hclosing : framer.closing = []
  · have hle := occurs_le hopening hstart.occurs
    simp only [endOf?, hclosing, List.isEmpty_nil, if_true, Option.some.injEq,
      List.length_drop] at h
    rw [if_pos hclosing]
    exact ⟨hstart, by dsimp only; omega⟩
  · rw [if_neg hclosing]
    exact isNext_of_endOf? hclosing hstart h

/-- What is cut out are the responses of the bytes, and what is kept is what is to be kept of those
after them. -/
theorem cut_unanswered {inside : Bool} {rest : List UInt8} (hopening : framer.opening ≠ [])
    (began : Bool) (found : List FrameEvent) (h : Reading framer.opening bytes 0 inside rest) :
    ∃ texts last, Unanswered framer.opening framer.closing bytes texts last ∧
      Retained framer.opening framer.closing last 0
        (framer.cut hopening began found inside rest).2.1
        (framer.cut hopening began found inside rest).2.2 ∧
      responses (framer.cut hopening began found inside rest).1.reverse =
        responses found.reverse ++ texts := by
  fun_induction Framer.cut framer hopening began found inside rest generalizing bytes with
  | case1 began found rest hend =>
      -- no closing has arrived
      have hclosing : framer.closing ≠ [] := fun hnil => by simp [endOf?, hnil] at hend
      cases h with
      | inside hstart =>
          have hretained := Retained.inside hstart (endOf?_eq_none hclosing hend)
          refine ⟨[], bytes, .nil hretained.not_completes, hretained, ?_⟩
          cases began <;> simp [responses, FrameEvent.response?]
  | case2 began found rest stop hend found' =>
      -- the response ends with the chunk
      rename_i hempty
      cases h with
      | inside hstart =>
          have hretained : Retained framer.opening framer.closing [] 0 false [] := .nil hopening
          have hrest := Unanswered.nil hretained.not_completes
          rw [List.drop_drop] at hempty
          rw [← hempty] at hrest
          refine ⟨_, _, .cons (completes_of_endOf? hopening hstart hend) hrest, ?_, ?_⟩
          · rw [hempty]
            exact hretained
          · simp [responses, FrameEvent.response?, found', Span.text]
  | case3 began found rest stop hend found' =>
      -- the response ends, and more has arrived
      rename_i ih
      cases h with
      | inside hstart =>
          rw [List.drop_drop] at ih ⊢
          obtain ⟨texts, last, hrest, hretained, htexts⟩ := ih .start
          refine ⟨_, last, .cons (completes_of_endOf? hopening hstart hend) hrest, hretained, ?_⟩
          rw [htexts]
          simp [responses, FrameEvent.response?, found', Span.text]
  | case4 began found inside rest hinside start hfind _ ih =>
      -- an opening is found
      rw [Bool.not_eq_true] at hinside
      subst hinside
      exact ih (h.found hfind)
  | case5 began found inside rest hinside hfind skipped =>
      -- no opening is found
      rw [Bool.not_eq_true] at hinside
      subst hinside
      have hretained : Retained framer.opening framer.closing bytes 0 false _ :=
        h.retained hopening hfind
      refine ⟨[], bytes, .nil hretained.not_completes, hretained, ?_⟩
      dsimp only
      split <;> simp [responses, FrameEvent.response?]

end Framer

/-! ## Runs -/

section

variable {opening closing since : List UInt8} {framer : Framer}

theorem keeps_fresh : Keeps opening closing [] { opening, closing } where
  opening_eq := rfl
  closing_eq := rfl
  retained := Retained.nil
  idle _ := ⟨rfl, rfl⟩

theorem Keeps.reset (h : Keeps opening closing since framer) :
    Keeps opening closing [] framer.reset where
  opening_eq := h.opening_eq
  closing_eq := h.closing_eq
  retained := Retained.nil
  idle _ := ⟨rfl, rfl⟩

/-- A chunk makes the framer tell the responses that it completes, and keep what is left. -/
theorem Keeps.push (h : Keeps opening closing since framer) (chunk : List UInt8) :
    ∃ rest, Unanswered opening closing (since ++ chunk) (responses (framer.push chunk).2) rest ∧
      Keeps opening closing rest (framer.push chunk).1 := by
  obtain ⟨rfl, rfl, hretained, hidle⟩ := h
  by_cases hopening : framer.opening = []
  · have hnone : ∀ span, ¬ Completes framer.opening framer.closing (since ++ chunk) span :=
      fun _ hcompletes => hcompletes.1 hopening
    have hresponses : responses (framer.push chunk).2 = [] := by
      rw [Framer.push, dif_pos hopening]
      dsimp only
      split <;> rfl
    have hframer : (framer.push chunk).1 = framer := by rw [Framer.push, dif_pos hopening]
    rw [hresponses, hframer]
    exact ⟨_, .nil hnone, rfl, rfl, fun hne => absurd hopening hne, hidle⟩
  · obtain ⟨texts, last, hanswered, hlast, htexts⟩ := Framer.cut_unanswered hopening false []
      ((hretained hopening).reading hopening chunk)
    rw [List.reverse_nil, responses_nil, List.nil_append] at htexts
    rw [← htexts] at hanswered
    rw [Framer.push, dif_neg hopening]
    exact ⟨last, hanswered, rfl, rfl, fun _ => hlast, fun hnil => absurd hnil hopening⟩

theorem Keeps.after (h : Keeps opening closing since framer) (operations : List Operation) :
    ∃ last, Since opening closing since operations last ∧
      Keeps opening closing last (framer.after operations) := by
  induction operations generalizing since framer with
  | nil => exact ⟨since, .nil since, h⟩
  | cons operation operations ih =>
      cases operation with
      | push chunk =>
          obtain ⟨rest, hanswered, hrest⟩ := h.push chunk
          obtain ⟨last, hsince, hlast⟩ := ih hrest
          exact ⟨last, .push hanswered hsince, hlast⟩
      | reset =>
          obtain ⟨last, hsince, hlast⟩ := ih h.reset
          exact ⟨last, .reset hsince, hlast⟩

/-- A chunk that comes in a response comes after its opening. -/
theorem Keeps.starts (h : Keeps opening closing since framer) (chunk : List UInt8) :
    (framer.work chunk).Starts framer.opening := by
  intro hinside
  obtain ⟨-, -, hstarts, -⟩ := h.represents.inside hinside
  rw [h.opening_eq]
  exact hstarts.trans (List.prefix_append _ _)

end

/-- Whatever chunks and resets come, a framer represents the bytes received since the last response or
reset.  In a response neither delimiter is empty, its buffer starts with the opening, and the closing
does not occur after it.  Otherwise its buffer is the longest end of these bytes that is a proper
initial part of the opening.  Without opening bytes it stores nothing and is in no response.

So it takes each further chunk without fail, and tells the responses that these bytes complete together
with the chunk.  Each turn that leads to another has cut out one response, and each response takes no
fewer bytes than the opening has; so there is an end to the turns. -/
theorem Framer.after_represents (opening closing : List UInt8) (operations : List Operation) :
    let framer := Framer.after { opening, closing } operations
    ∃ since, (∀ other, Since opening closing [] operations other ↔ other = since) ∧
      Represents opening closing since framer ∧
      ∀ chunk, framer.Takes chunk (framer.push chunk) ∧
        (∃ rest, Unanswered opening closing (since ++ chunk) (responses (framer.push chunk).2) rest) ∧
        (responses (framer.push chunk).2).length * opening.length +
          (framer.push chunk).1.buffer.length ≤ (framer.buffer ++ chunk).length ∧
        (opening ≠ [] → ∀ n work, Loop.Turns framer.turn (framer.work chunk) n work →
          framer.turn work ≠ none ∧
          (∃ texts : List String, texts.length = n ∧ work.found = texts.map FrameEvent.response) ∧
          work.rest.length + n * opening.length ≤ (framer.buffer ++ chunk).length) := by
  intro framer
  obtain ⟨since, hsince, hkeeps⟩ := keeps_fresh.after operations
  refine ⟨since, fun other => ?_, hkeeps.represents, fun chunk => ?_⟩
  · constructor
    · intro hother
      exact hother.unique hsince
    · rintro rfl
      exact hsince
  · have hstarts := hkeeps.starts chunk
    have hconsumes := Framer.push_consumes hstarts
    obtain ⟨rest, hanswered, -⟩ := hkeeps.push chunk
    rw [hkeeps.opening_eq] at hconsumes
    refine ⟨Framer.takes_push hstarts, ⟨rest, hanswered⟩, hconsumes, ?_⟩
    intro hopening n work hturns
    rw [← hkeeps.opening_eq] at hopening
    have hsteady := Framer.steady_turn hopening
    have hlowers := hsteady.lowers_turns hstarts hturns
    obtain ⟨texts, hlength, hfound⟩ := Framer.found_of_turns hopening hstarts hturns
    rw [hkeeps.opening_eq] at hlowers
    refine ⟨hsteady.safe work (hsteady.keeps_turns hstarts hturns), ⟨texts, hlength, ?_⟩, hlowers⟩
    rw [hfound]
    exact List.append_nil _

/-- An opening that overlaps itself, and no closing.  Of three bytes the last two are kept, and a fourth
one completes the opening with them. -/
theorem Framer.after_represents_overlap :
    let framer := Framer.after { opening := [60, 60, 97], closing := [] } [.push [60, 60, 60]]
    framer.inResponse = false ∧ framer.buffer = [60, 60] ∧
      responses (framer.push [97]).2 = [Span.text [60, 60, 60, 97] ⟨1, 4⟩] := by
  intro framer
  obtain ⟨since, hsince, hrepresents, hpush⟩ :=
    Framer.after_represents [60, 60, 97] [] [.push [60, 60, 60]]
  have hnone : ∀ bytes, findFirst? [60, 60, 97] bytes = none →
      ∀ span, ¬ Completes [60, 60, 97] [] bytes span := fun bytes hfind span hcompletes =>
    findFirst?_eq_none_iff.mp hfind _ hcompletes.2.1.occurs
  obtain rfl : [60, 60, 60] = since :=
    (hsince _).mp (.push (.nil (hnone _ (by decide))) (.nil _))
  have houtside : framer.inResponse = false := by
    by_contra hinside
    exact (hrepresents.inside ((Bool.not_eq_false _).mp hinside)).2.1 rfl
  refine ⟨houtside, ?_, ?_⟩
  · obtain ⟨hlt, -, hsuffix, hlongest⟩ := hrepresents.outside houtside (by decide)
    have hle := hlongest [60, 60] (by decide) (by decide) (by decide)
    have hlength : framer.buffer.length = 2 := le_antisymm (Nat.le_of_lt_succ hlt) hle
    refine (List.suffix_iff_eq_drop.mp hsuffix).trans ?_
    rw [hlength]
    rfl
  · obtain ⟨-, ⟨rest, hanswered⟩, -⟩ := hpush [97]
    have hcompletes : Completes [60, 60, 97] [] [60, 60, 60, 97] ⟨1, 4⟩ :=
      ⟨by decide, findFirst?_eq_some_iff.mp (by decide), rfl⟩
    exact (hanswered.unique (.cons hcompletes (.nil (hnone _ (by decide))))).1

end Link
end Uplink
