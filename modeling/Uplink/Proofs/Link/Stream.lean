import Uplink.Proofs.Link.Search

/-!
# Responses of a stream

Which responses a stream holds is a matter of the stream alone: from some place on, the next one
starts at the first opening and ends with the first closing after it.  The framer, which receives
the stream in chunks and drops what it does not need, finds the same ones.  What it keeps between
two chunks is determined by the bytes received so far, and this is what makes the chunks irrelevant.
-/

namespace Uplink
namespace Link

/-! ## The responses of a stream -/

/-- The place of a response in a stream. -/
structure Span where
  start : ℕ
  stop : ℕ
  deriving DecidableEq, Repr

/-- The text of a response. -/
def Span.text (bytes : List UInt8) (span : Span) : String :=
  Text.lossy ((bytes.drop span.start).take (span.stop - span.start))

section

variable (opening closing bytes : List UInt8)

/-- The first response from `pos` on. -/
def IsNext (pos : ℕ) (span : Span) : Prop :=
  Leftmost opening bytes pos span.start ∧
    ∃ spot, Leftmost closing bytes (span.start + opening.length) spot ∧
      span.stop = spot + closing.length

/-- Responses one after another: each is the first one from the end of the one before. -/
inductive Spans : ℕ → List Span → ℕ → Prop where
  | nil (pos : ℕ) : Spans pos [] pos
  | cons {pos last : ℕ} {span : Span} {spans : List Span} :
      IsNext opening closing bytes pos span → Spans span.stop spans last →
        Spans pos (span :: spans) last

/-- All responses of a stream. -/
def Scan (spans : List Span) : Prop :=
  ∃ last, Spans opening closing bytes 0 spans last ∧
    ∀ span, ¬ IsNext opening closing bytes last span

/-- What a framer keeps of a stream whose last response ended at `pos`. -/
inductive Retained (pos : ℕ) : Bool → List UInt8 → Prop where
  | outside {spot : ℕ} : Tail opening bytes pos spot →
      (∀ k, pos ≤ k → ¬ opening <+: bytes.drop k) → Retained pos false (bytes.drop spot)
  | inside {start : ℕ} : Leftmost opening bytes pos start →
      (∀ k, start + opening.length ≤ k → ¬ closing <+: bytes.drop k) →
        Retained pos true (bytes.drop start)

/-- What a framer has before it while it cuts a stream: from `pos` to the place where it looks,
nothing is or may become an opening. -/
inductive Reading (pos : ℕ) : Bool → List UInt8 → Prop where
  | outside {spot : ℕ} : pos ≤ spot → spot ≤ bytes.length →
      (∀ k, pos ≤ k → k < spot → ¬ opening <+: bytes.drop k ∧ ¬ bytes.drop k <+: opening) →
        Reading pos false (bytes.drop spot)
  | inside {start : ℕ} : Leftmost opening bytes pos start → Reading pos true (bytes.drop start)

end

section

variable {opening closing bytes : List UInt8}

theorem IsNext.unique {pos : ℕ} {a b : Span} (ha : IsNext opening closing bytes pos a)
    (hb : IsNext opening closing bytes pos b) : a = b := by
  obtain ⟨hstart, spot, hspot, hstop⟩ := ha
  obtain ⟨hstart', spot', hspot', hstop'⟩ := hb
  have hs : a.start = b.start := hstart.unique hstart'
  rw [hs] at hspot
  have hstops : a.stop = b.stop := by rw [hstop, hstop', hspot.unique hspot']
  cases a
  cases b
  exact congr (congrArg Span.mk hs) hstops

theorem IsNext.lt_stop {pos : ℕ} {span : Span} (hopening : opening ≠ [])
    (h : IsNext opening closing bytes pos span) : pos < span.stop := by
  obtain ⟨hstart, spot, hspot, hstop⟩ := h
  have hle := hstart.le
  have hle' := hspot.le
  have hpos := List.length_pos_iff.mpr hopening
  omega

theorem IsNext.stop_le {pos : ℕ} {span : Span} (hclosing : closing ≠ [])
    (h : IsNext opening closing bytes pos span) : span.stop ≤ bytes.length := by
  obtain ⟨-, spot, hspot, hstop⟩ := h
  rw [hstop]
  exact occurs_le hclosing hspot.occurs

theorem IsNext.append {pos : ℕ} {span : Span} (hopening : opening ≠ []) (hclosing : closing ≠ [])
    (h : IsNext opening closing bytes pos span) (more : List UInt8) :
    IsNext opening closing (bytes ++ more) pos span := by
  obtain ⟨hstart, spot, hspot, hstop⟩ := h
  exact ⟨hstart.append hopening more, spot, hspot.append hclosing more, hstop⟩

theorem IsNext.of_append {pos : ℕ} {span : Span} {more : List UInt8}
    (h : IsNext opening closing (bytes ++ more) pos span) (hle : span.stop ≤ bytes.length) :
    IsNext opening closing bytes pos span := by
  obtain ⟨hstart, spot, hspot, hstop⟩ := h
  have hfrom := hspot.le
  exact ⟨hstart.of_append (by omega), spot, hspot.of_append (by omega), hstop⟩

/-- The text of a response is settled when its last byte has arrived. -/
theorem Span.text_append {span : Span} (h : span.stop ≤ bytes.length) (more : List UInt8) :
    span.text (bytes ++ more) = span.text bytes := by
  rcases le_total span.start span.stop with hle | hle
  · rw [Span.text, Span.text, List.drop_append_of_le_length (hle.trans h),
      List.take_append_of_le_length]
    rw [List.length_drop]
    omega
  · simp [Span.text, Nat.sub_eq_zero_of_le hle]

theorem Spans.append {a b c : ℕ} {first second : List Span}
    (h : Spans opening closing bytes a first b) (h' : Spans opening closing bytes b second c) :
    Spans opening closing bytes a (first ++ second) c := by
  induction h with
  | nil => exact h'
  | cons hnext _ ih => exact .cons hnext (ih h')

theorem Spans.append_stream {a b : ℕ} {spans : List Span} (hopening : opening ≠ [])
    (hclosing : closing ≠ []) (h : Spans opening closing bytes a spans b) (more : List UInt8) :
    Spans opening closing (bytes ++ more) a spans b := by
  induction h with
  | nil pos => exact .nil pos
  | cons hnext _ ih => exact .cons (hnext.append hopening hclosing more) ih

theorem Spans.stop_le {a b : ℕ} {spans : List Span} (hclosing : closing ≠ [])
    (h : Spans opening closing bytes a spans b) : ∀ span ∈ spans, span.stop ≤ bytes.length := by
  induction h with
  | nil => simp
  | cons hnext _ ih => exact List.forall_mem_cons.mpr ⟨hnext.stop_le hclosing, ih⟩

/-- If the next response ends beyond a place, then so do all that follow. -/
theorem Spans.lt_stop {a b n : ℕ} {spans : List Span} (hopening : opening ≠ [])
    (h : Spans opening closing bytes a spans b)
    (hn : ∀ span, IsNext opening closing bytes a span → n < span.stop) :
    ∀ span ∈ spans, n < span.stop := by
  induction h with
  | nil => simp
  | cons hnext _ ih =>
      refine List.forall_mem_cons.mpr ⟨hn _ hnext, ih fun span hspan => ?_⟩
      exact (hn _ hnext).trans (hspan.lt_stop hopening)

theorem Spans.unique {a b b' : ℕ} {spans spans' : List Span}
    (h : Spans opening closing bytes a spans b)
    (hlast : ∀ span, ¬ IsNext opening closing bytes b span)
    (h' : Spans opening closing bytes a spans' b')
    (hlast' : ∀ span, ¬ IsNext opening closing bytes b' span) : spans = spans' ∧ b = b' := by
  induction h generalizing spans' with
  | nil =>
      cases h' with
      | nil => exact ⟨rfl, rfl⟩
      | cons hnext => exact absurd hnext (hlast _)
  | cons hnext _ ih =>
      cases h' with
      | nil => exact absurd hnext (hlast' _)
      | cons hnext' hrest =>
          obtain rfl := hnext.unique hnext'
          obtain ⟨rfl, rfl⟩ := ih hlast hrest
          exact ⟨rfl, rfl⟩

/-- A stream has one list of responses. -/
theorem Scan.unique {spans spans' : List Span} (h : Scan opening closing bytes spans)
    (h' : Scan opening closing bytes spans') : spans = spans' := by
  obtain ⟨last, hspans, hlast⟩ := h
  obtain ⟨last', hspans', hlast'⟩ := h'
  exact (hspans.unique hlast hspans' hlast').1

/-! ## What is kept between two chunks -/

theorem Retained.unique {pos : ℕ} {inside inside' : Bool} {buffer buffer' : List UInt8}
    (h : Retained opening closing bytes pos inside buffer)
    (h' : Retained opening closing bytes pos inside' buffer') :
    inside = inside' ∧ buffer = buffer' := by
  cases h with
  | outside htail hnone =>
      cases h' with
      | outside htail' => exact ⟨rfl, by rw [htail.unique htail']⟩
      | inside hstart => exact absurd hstart.occurs (hnone _ hstart.le)
  | inside hstart =>
      cases h' with
      | outside _ hnone => exact absurd hstart.occurs (hnone _ hstart.le)
      | inside hstart' => exact ⟨rfl, by rw [hstart.unique hstart']⟩

/-- What is kept holds no complete response. -/
theorem Retained.not_isNext {pos : ℕ} {inside : Bool} {buffer : List UInt8}
    (h : Retained opening closing bytes pos inside buffer) (span : Span) :
    ¬ IsNext opening closing bytes pos span := by
  rintro ⟨hstart, spot, hspot, -⟩
  cases h with
  | outside _ hnone => exact hnone _ hstart.le hstart.occurs
  | inside hstart' hnone =>
      rw [hstart'.unique hstart] at hnone
      exact hnone spot hspot.le hspot.occurs

/-- Nothing is kept after a response that ends with the chunk. -/
theorem Retained.nil (hopening : opening ≠ []) :
    Retained opening closing bytes bytes.length false [] := by
  have hnil : bytes.drop bytes.length = [] := List.drop_length
  have htail : Tail opening bytes bytes.length bytes.length :=
    ⟨le_rfl, le_rfl, hnil ▸ List.nil_prefix, fun k hle hlt => absurd hle (by omega)⟩
  rw [← hnil]
  refine .outside htail fun k hk hocc => ?_
  have hle := occurs_le hopening hocc
  have hpos := List.length_pos_iff.mpr hopening
  omega

/-- What is kept, with the next chunk after it, stands before the framer as if nothing had been
dropped. -/
theorem Retained.reading {pos : ℕ} {inside : Bool} {buffer : List UInt8} (hopening : opening ≠ [])
    (h : Retained opening closing bytes pos inside buffer) (more : List UInt8) :
    Reading opening (bytes ++ more) pos inside (buffer ++ more) := by
  cases h with
  | outside htail hnone =>
      rw [← List.drop_append_of_le_length htail.le_length]
      refine .outside htail.le ?_ ?_
      · rw [List.length_append]
        exact htail.le_length.trans (Nat.le_add_right _ _)
      · intro k hpos hk
        have hle : k ≤ bytes.length := hk.le.trans htail.le_length
        exact ⟨not_occurs_append more hle (hnone k hpos) (htail.first k hpos hk),
          not_part_append more hle (htail.first k hpos hk)⟩
  | inside hstart =>
      have hle := occurs_le hopening hstart.occurs
      rw [← List.drop_append_of_le_length (by omega)]
      exact .inside (hstart.append hopening more)

theorem Reading.start : Reading opening bytes 0 false bytes :=
  .outside le_rfl (Nat.zero_le _) fun k _ hk => absurd hk (Nat.not_lt_zero k)

/-- The first opening after the place where the framer looks is the first one at all. -/
theorem Reading.found {pos start : ℕ} {rest : List UInt8} (h : Reading opening bytes pos false rest)
    (hfind : findFirst? opening rest = some start) :
    Reading opening bytes pos true (rest.drop start) := by
  cases h with
  | @outside spot hspot hlength hpassed =>
      have hleft := findFirst?_drop_eq_some_iff.mp hfind
      rw [List.drop_drop]
      refine .inside ⟨hspot.trans hleft.le, hleft.occurs, fun k hpos hk => ?_⟩
      rcases lt_or_ge k spot with hlt | hge
      · exact (hpassed k hpos hlt).1
      · exact hleft.first k hge hk

/-- If there is no opening, the tail is what is to be kept. -/
theorem Reading.retained {pos : ℕ} {rest : List UInt8} (hopening : opening ≠ [])
    (h : Reading opening bytes pos false rest) (hfind : findFirst? opening rest = none) :
    Retained opening closing bytes pos false
      (rest.drop (rest.length - partialLength opening rest)) := by
  cases h with
  | @outside spot hspot hlength hpassed =>
      have hnone := findFirst?_drop_eq_none_iff.mp hfind
      have htail := tail_partialLength hopening hlength hnone
      rw [List.drop_drop]
      refine .outside ⟨hspot.trans htail.le, htail.le_length, htail.part, ?_⟩ ?_
      · intro k hpos hk
        rcases lt_or_ge k spot with hlt | hge
        · exact (hpassed k hpos hlt).2
        · exact htail.first k hge hk
      · intro k hpos
        rcases lt_or_ge k spot with hlt | hge
        · exact (hpassed k hpos hlt).1
        · exact hnone k hge

end

/-! ## Cutting one chunk -/

/-- The response that an event tells about. -/
def FrameEvent.response? : FrameEvent → Option String
  | .response text => some text
  | _ => none

/-- The responses among some events. -/
def responses (events : List FrameEvent) : List String :=
  events.filterMap FrameEvent.response?

@[simp]
theorem responses_nil : responses [] = [] :=
  rfl

@[simp]
theorem responses_append (events more : List FrameEvent) :
    responses (events ++ more) = responses events ++ responses more :=
  List.filterMap_append

namespace Framer

variable {framer : Framer} {bytes : List UInt8}

theorem endOf?_eq_some {start stop : ℕ} (hclosing : framer.closing ≠ [])
    (h : framer.endOf? (bytes.drop start) = some stop) :
    ∃ spot, Leftmost framer.closing bytes (start + framer.opening.length) spot ∧
      start + stop = spot + framer.closing.length := by
  simp only [endOf?, List.isEmpty_iff, hclosing, if_false, List.drop_drop,
    Option.map_eq_some_iff] at h
  obtain ⟨offset, hfind, rfl⟩ := h
  exact ⟨_, findFirst?_drop_eq_some_iff.mp hfind, by omega⟩

theorem endOf?_eq_none {start : ℕ} (hclosing : framer.closing ≠ [])
    (h : framer.endOf? (bytes.drop start) = none) :
    ∀ k, start + framer.opening.length ≤ k → ¬ framer.closing <+: bytes.drop k := by
  simp only [endOf?, List.isEmpty_iff, hclosing, if_false, List.drop_drop,
    Option.map_eq_none_iff] at h
  exact findFirst?_drop_eq_none_iff.mp h

theorem isNext_of_endOf? {pos start stop : ℕ} (hclosing : framer.closing ≠ [])
    (hstart : Leftmost framer.opening bytes pos start)
    (h : framer.endOf? (bytes.drop start) = some stop) :
    IsNext framer.opening framer.closing bytes pos ⟨start, start + stop⟩ :=
  ⟨hstart, endOf?_eq_some hclosing h⟩

/-- What is cut out of a chunk are the next responses of the stream, and what is kept is what is
to be kept after them. -/
theorem cut_spec {pos : ℕ} {inside : Bool} {rest : List UInt8}
    (hopening : framer.opening ≠ []) (hclosing : framer.closing ≠ []) (began : Bool)
    (found : List FrameEvent) (h : Reading framer.opening bytes pos inside rest) :
    ∃ spans last, Spans framer.opening framer.closing bytes pos spans last ∧
      Retained framer.opening framer.closing bytes last
        (framer.cut hopening began found inside rest).2.1
        (framer.cut hopening began found inside rest).2.2 ∧
      responses (framer.cut hopening began found inside rest).1.reverse =
        responses found.reverse ++ spans.map (Span.text bytes) := by
  fun_induction Framer.cut framer hopening began found inside rest generalizing pos with
  | case1 began found rest hend =>
      -- no closing has arrived
      cases h with
      | inside hstart =>
          refine ⟨[], pos, .nil pos, .inside hstart (endOf?_eq_none hclosing hend), ?_⟩
          cases began <;> simp [responses, FrameEvent.response?]
  | case2 began found rest stop hend found' =>
      -- the response ends with the chunk
      rename_i hempty
      cases h with
      | inside hstart =>
          have hnext := isNext_of_endOf? hclosing hstart hend
          rw [List.drop_drop, List.drop_eq_nil_iff] at hempty
          have hstop := le_antisymm (hnext.stop_le hclosing) hempty
          refine ⟨_, _, .cons hnext (.nil _), ?_, ?_⟩
          · dsimp only at hstop ⊢
            rw [hstop]
            exact .nil hopening
          · simp [responses, FrameEvent.response?, found', Span.text]
  | case3 began found rest stop hend found' hrest =>
      -- the response ends, and more has arrived
      rename_i ih
      cases h with
      | inside hstart =>
          have hnext := isNext_of_endOf? hclosing hstart hend
          rw [List.drop_drop] at ih ⊢
          obtain ⟨spans, last, hspans, hretained, htexts⟩ :=
            ih (.outside le_rfl (hnext.stop_le hclosing) fun k hle hlt => absurd hle (by omega))
          refine ⟨_, last, .cons hnext hspans, hretained, ?_⟩
          rw [htexts]
          simp [responses, FrameEvent.response?, found', Span.text]
  | case4 began found inside rest hinside start hfind _ ih =>
      -- an opening is found
      rw [Bool.not_eq_true] at hinside
      subst hinside
      exact ih (h.found hfind)
  | case5 began found inside rest hinside hfind skipped =>
      -- no opening is found
      rw [Bool.not_eq_true] at hinside
      subst hinside
      refine ⟨[], pos, .nil pos, h.retained hopening hfind, ?_⟩
      dsimp only
      split <;> simp [responses, FrameEvent.response?]

/-! ## Runs -/

/-- Take chunks one after another: the framer afterwards and all that it tells. -/
def pushAll (framer : Framer) : List (List UInt8) → Framer × List FrameEvent
  | [] => (framer, [])
  | chunk :: chunks =>
    let next := framer.push chunk
    let last := next.1.pushAll chunks
    (last.1, next.2 ++ last.2)

/-- The framer has received the bytes and told about the given responses of them. -/
structure Followed (opening closing bytes : List UInt8) (spans : List Span) (framer : Framer) :
    Prop where
  opening_eq : framer.opening = opening
  closing_eq : framer.closing = closing
  retained : ∃ last, Spans opening closing bytes 0 spans last ∧
    Retained opening closing bytes last framer.inResponse framer.buffer

variable {opening closing : List UInt8} {spans spans' : List Span} {framer' : Framer}

theorem followed_fresh (hopening : opening ≠ []) :
    Followed opening closing [] [] { opening, closing } :=
  ⟨rfl, rfl, 0, .nil 0, Retained.nil hopening⟩

theorem Followed.scan (h : Followed opening closing bytes spans framer) :
    Scan opening closing bytes spans := by
  obtain ⟨last, hspans, hretained⟩ := h.retained
  exact ⟨last, hspans, hretained.not_isNext⟩

/-- The bytes received determine the framer. -/
theorem Followed.unique (h : Followed opening closing bytes spans framer)
    (h' : Followed opening closing bytes spans' framer') : framer = framer' := by
  obtain ⟨last, hspans, hretained⟩ := h.retained
  obtain ⟨last', hspans', hretained'⟩ := h'.retained
  obtain ⟨-, rfl⟩ := hspans.unique hretained.not_isNext hspans' hretained'.not_isNext
  obtain ⟨hinside, hbuffer⟩ := hretained.unique hretained'
  have hopening := h.opening_eq.trans h'.opening_eq.symm
  have hclosing := h.closing_eq.trans h'.closing_eq.symm
  cases framer
  cases framer'
  simp_all

/-- A chunk completes exactly the responses whose last byte it holds. -/
theorem Followed.push (hopening : opening ≠ []) (hclosing : closing ≠ [])
    (h : Followed opening closing bytes spans framer) (chunk : List UInt8) :
    ∃ new, Followed opening closing (bytes ++ chunk) (spans ++ new) (framer.push chunk).1 ∧
      responses (framer.push chunk).2 = new.map (Span.text (bytes ++ chunk)) ∧
      ∀ span ∈ new, bytes.length < span.stop ∧ span.stop ≤ (bytes ++ chunk).length := by
  obtain ⟨rfl, rfl, pos, hspans, hretained⟩ := h
  obtain ⟨new, last, hnew, hretained', htexts⟩ :=
    cut_spec hopening hclosing false [] (hretained.reading hopening chunk)
  have hpush : framer.push chunk =
      ({ framer with
          buffer := (framer.cut hopening false [] framer.inResponse (framer.buffer ++ chunk)).2.2
          inResponse :=
            (framer.cut hopening false [] framer.inResponse (framer.buffer ++ chunk)).2.1 },
        (framer.cut hopening false [] framer.inResponse (framer.buffer ++ chunk)).1.reverse) := by
    rw [Framer.push, dif_neg hopening]
  -- a response that ends before the chunk would have been told before
  have hlate : ∀ span, IsNext framer.opening framer.closing (bytes ++ chunk) pos span →
      bytes.length < span.stop := by
    intro span hnext
    by_contra hle
    exact hretained.not_isNext span (hnext.of_append (Nat.le_of_not_lt hle))
  rw [hpush]
  refine ⟨new, ⟨rfl, rfl, last, ?_, hretained'⟩, by simpa using htexts, ?_⟩
  · exact (hspans.append_stream hopening hclosing chunk).append hnew
  · intro span hspan
    exact ⟨hnew.lt_stop hopening hlate span hspan, hnew.stop_le hclosing span hspan⟩

theorem map_text_append {bytes more : List UInt8} {spans : List Span}
    (h : ∀ span ∈ spans, span.stop ≤ bytes.length) :
    spans.map (Span.text (bytes ++ more)) = spans.map (Span.text bytes) :=
  List.map_congr_left fun span hspan => Span.text_append (h span hspan) more

theorem Followed.pushAll (hopening : opening ≠ []) (hclosing : closing ≠ [])
    (h : Followed opening closing bytes spans framer) (chunks : List (List UInt8)) :
    ∃ new, Followed opening closing (bytes ++ chunks.flatten) (spans ++ new)
        (framer.pushAll chunks).1 ∧
      responses (framer.pushAll chunks).2 = new.map (Span.text (bytes ++ chunks.flatten)) ∧
      ∀ span ∈ new, bytes.length < span.stop ∧ span.stop ≤ (bytes ++ chunks.flatten).length := by
  induction chunks generalizing bytes spans framer with
  | nil => exact ⟨[], by simpa [Framer.pushAll] using h, rfl, by simp⟩
  | cons chunk chunks ih =>
      obtain ⟨first, hfirst, htexts, hstops⟩ := h.push hopening hclosing chunk
      obtain ⟨others, hothers, htexts', hstops'⟩ := ih hfirst
      rw [List.append_assoc, List.append_assoc] at hothers
      rw [List.append_assoc] at htexts' hstops'
      refine ⟨first ++ others, hothers, ?_, ?_⟩
      · have hfirst' : first.map (Span.text (bytes ++ (chunk ++ chunks.flatten))) =
            first.map (Span.text (bytes ++ chunk)) := by
          rw [← List.append_assoc]
          exact map_text_append fun span hspan => (hstops span hspan).2
        rw [Framer.pushAll, responses_append, List.map_append, List.flatten_cons, hfirst', htexts,
          htexts']
      · intro span hspan
        simp only [List.flatten_cons, List.length_append] at hstops hstops' ⊢
        rcases List.mem_append.mp hspan with hmem | hmem
        · have hstop := hstops span hmem
          omega
        · have hstop := hstops' span hmem
          omega

/-- The responses whose last byte is among those from `low` on and before `high`. -/
theorem filter_stop_eq {before new after : List Span} {low high : ℕ}
    (hbefore : ∀ span ∈ before, span.stop ≤ low)
    (hnew : ∀ span ∈ new, low < span.stop ∧ span.stop ≤ high)
    (hafter : ∀ span ∈ after, high < span.stop) :
    (before ++ new ++ after).filter (fun span => low < span.stop ∧ span.stop ≤ high) = new := by
  have hnil : before.filter (fun span => low < span.stop ∧ span.stop ≤ high) = [] := by
    rw [List.filter_eq_nil_iff]
    intro span hspan
    have hstop := hbefore span hspan
    simp only [decide_eq_true_eq]
    omega
  have hall : new.filter (fun span => low < span.stop ∧ span.stop ≤ high) = new := by
    rw [List.filter_eq_self]
    intro span hspan
    simpa using hnew span hspan
  have hnil' : after.filter (fun span => low < span.stop ∧ span.stop ≤ high) = [] := by
    rw [List.filter_eq_nil_iff]
    intro span hspan
    have hstop := hafter span hspan
    simp only [decide_eq_true_eq]
    omega
  rw [List.filter_append, List.filter_append, hnil, hall, hnil', List.nil_append, List.append_nil]

/-- However a stream is cut into chunks, the framer ends as after the whole stream at once and tells
about the same responses, namely those of the stream; and each chunk makes it tell about the
responses whose last byte is in the chunk. -/
theorem pushAll_eq_scan (hopening : opening ≠ []) (hclosing : closing ≠ [])
    (chunks : List (List UInt8)) :
    let fresh : Framer := { opening, closing }
    let bytes := chunks.flatten
    ∃ spans, (∀ other, Scan opening closing bytes other ↔ other = spans) ∧
      (fresh.pushAll chunks).1 = (fresh.push bytes).1 ∧
      responses (fresh.pushAll chunks).2 = responses (fresh.push bytes).2 ∧
      responses (fresh.pushAll chunks).2 = spans.map (Span.text bytes) ∧
      ∀ before chunk after, chunks = before ++ chunk :: after →
        responses ((fresh.pushAll before).1.push chunk).2 =
          (spans.filter fun span => before.flatten.length < span.stop ∧
            span.stop ≤ before.flatten.length + chunk.length).map (Span.text bytes) := by
  intro fresh bytes
  have hfresh : Followed opening closing [] [] fresh := followed_fresh hopening
  obtain ⟨spans, hall, htexts, -⟩ := hfresh.pushAll hopening hclosing chunks
  obtain ⟨spans', honce, htexts', -⟩ := hfresh.push hopening hclosing bytes
  rw [List.nil_append] at hall htexts honce htexts'
  rw [List.nil_append] at hall honce
  obtain rfl : spans' = spans := honce.scan.unique hall.scan
  refine ⟨spans', ?_, hall.unique honce, htexts.trans htexts'.symm, htexts, ?_⟩
  · intro other
    constructor
    · intro hother
      exact hother.unique hall.scan
    · rintro rfl
      exact hall.scan
  · intro before chunk after hchunks
    obtain ⟨told, hbefore, -, hstops⟩ := hfresh.pushAll hopening hclosing before
    rw [List.nil_append] at hbefore hstops
    obtain ⟨new, hchunk, htext, hstops'⟩ := hbefore.push hopening hclosing chunk
    obtain ⟨later, hafter, -, hstops''⟩ := hchunk.pushAll hopening hclosing after
    have hflat : before.flatten ++ chunk ++ after.flatten = bytes := by
      simp [bytes, hchunks]
    rw [hflat] at hafter
    obtain rfl : spans' = told ++ new ++ later := honce.scan.unique hafter.scan
    rw [← List.length_append, filter_stop_eq (fun span hspan => (hstops span hspan).2) hstops'
      (fun span hspan => (hstops'' span hspan).1), ← hflat,
      map_text_append fun span hspan => (hstops' span hspan).2]
    exact htext

/-- An opening that overlaps itself, cut in the middle: the response starts at the second byte. -/
theorem pushAll_eq_scan_overlap :
    ∃ spans, (∀ other, Scan [97, 97, 98] [62] [97, 97, 97, 98, 62] other ↔ other = spans) ∧
      responses (pushAll { opening := [97, 97, 98], closing := [62] } [[97, 97], [97], [98, 62]]).2 =
        spans.map (Span.text [97, 97, 97, 98, 62]) := by
  have hopening : ([97, 97, 98] : List UInt8) ≠ [] := by decide
  have hclosing : ([62] : List UInt8) ≠ [] := by decide
  obtain ⟨spans, hscan, -, -, htexts, -⟩ :=
    pushAll_eq_scan hopening hclosing [[97, 97], [97], [98, 62]]
  exact ⟨spans, hscan, htexts⟩

end Framer
end Link
end Uplink
