import Uplink.Proofs.Link.Stream

/-!
# What a framer tells about a chunk

A chunk makes the framer tell about the responses that are complete, and at most about one thing more.
Whether this is a response that has begun or one that goes on does not depend on how the framer works
through the chunk: it depends on which response of the stream is under way before the chunk and after
it.  So a response that is received in several chunks is announced by the first one, goes on in those
between, and is told by the last one.
-/

namespace Uplink
namespace Link

section

variable (opening closing bytes : List UInt8)

/-- Some responses of a stream are complete, and the next one has started and has no end yet. -/
def Underway (spans : List Span) (start : ℕ) : Prop :=
  ∃ last, Spans opening closing bytes 0 spans last ∧ Leftmost opening bytes last start ∧
    ∀ k, start + opening.length ≤ k → ¬ closing <+: bytes.drop k

end

/-- The framers for some opening and closing, each with the bytes that it has received since it was
made or reset. -/
inductive Reached (opening closing : List UInt8) : List UInt8 → Framer → Prop where
  | fresh : Reached opening closing [] { opening, closing }
  | push {bytes : List UInt8} {framer : Framer} (chunk : List UInt8) :
      Reached opening closing bytes framer →
        Reached opening closing (bytes ++ chunk) (framer.push chunk).1
  | reset {bytes : List UInt8} {framer : Framer} : Reached opening closing bytes framer →
      Reached opening closing [] framer.reset

/-! ## The shape of the events -/

/-- Some events tell about complete responses, and then about at most one thing that is none. -/
structure Told (events : List FrameEvent) (texts : List String) (rest : Option FrameEvent) :
    Prop where
  events_eq : events = texts.map FrameEvent.response ++ rest.toList
  rest_not : ∀ event ∈ rest, event.response? = none

namespace Told

variable {events : List FrameEvent} {texts : List String} {rest : Option FrameEvent}
  {event : FrameEvent}

theorem nil : Told [] [] none :=
  ⟨rfl, by simp⟩

theorem single (h : event.response? = none) : Told [event] [] (some event) :=
  ⟨rfl, by simpa using h⟩

theorem cons (text : String) (h : Told events texts rest) :
    Told (.response text :: events) (text :: texts) rest :=
  ⟨by rw [h.events_eq, List.map_cons, List.cons_append], h.rest_not⟩

theorem responses_eq (h : Told events texts rest) : responses events = texts := by
  have hmap : responses (texts.map FrameEvent.response) = texts := by
    simp [responses, List.filterMap_map, Function.comp_def, FrameEvent.response?]
  rw [h.events_eq, responses_append, hmap]
  cases rest with
  | none => simp
  | some event => simp [responses, h.rest_not event rfl]

/-- An event that is no response can only be the last one. -/
theorem mem_iff (h : Told events texts rest) (hevent : event.response? = none) :
    event ∈ events ↔ rest = some event := by
  have hnot : event ∉ texts.map FrameEvent.response := by
    intro hmem
    obtain ⟨text, -, rfl⟩ := List.mem_map.mp hmem
    cases hevent
  rw [h.events_eq, List.mem_append, Option.mem_toList, or_iff_right hnot]

theorem getLast?_iff (h : Told events texts rest) (hevent : event.response? = none) :
    events.getLast? = some event ↔ rest = some event := by
  constructor
  · intro hlast
    exact (h.mem_iff hevent).mp (List.mem_of_getLast? hlast)
  · rintro rfl
    simp [h.events_eq]

end Told

namespace Framer

/-- What a chunk makes the framer tell, by the way it is cut.  A response goes on only if it did so
before and nothing is complete. -/
theorem cut_told {framer : Framer} (hopening : framer.opening ≠ []) (began : Bool)
    (found : List FrameEvent) (inside : Bool) (bytes : List UInt8) :
    ∃ events texts rest,
      (framer.cut hopening began found inside bytes).1.reverse = found.reverse ++ events ∧
      Told events texts rest ∧
      ((framer.cut hopening began found inside bytes).2.1 = true ↔
        rest = some .begin ∨ rest = some .middle) ∧
      (rest = some .middle ↔ (framer.cut hopening began found inside bytes).2.1 = true ∧
        inside = true ∧ began = false ∧ texts = []) := by
  fun_induction Framer.cut framer hopening began found inside bytes with
  | case1 began found bytes hend =>
      -- no closing has arrived
      cases began with
      | false => exact ⟨[.middle], [], some .middle, by simp, .single rfl, by simp, by simp⟩
      | true => exact ⟨[.begin], [], some .begin, by simp, .single rfl, by simp, by simp⟩
  | case2 began found bytes stop hend found' =>
      -- the response ends with the chunk
      exact ⟨_, _, none, List.reverse_cons, Told.nil.cons _, by simp, by simp⟩
  | case3 began found bytes stop hend found' hrest hlt ih =>
      -- the response ends, and what follows does not belong to it
      obtain ⟨events, texts, rest, hevents, htold, hinside, hmiddle⟩ := ih
      refine ⟨_, _, rest, ?_, htold.cons (Text.lossy (bytes.take stop)), hinside, ?_⟩
      · rw [hevents, List.reverse_cons, List.append_assoc, List.singleton_append]
      · rw [hmiddle]
        simp
  | case4 began found inside bytes hinside start hfind hlt ih =>
      -- an opening is found, by this chunk
      obtain ⟨events, texts, rest, hevents, htold, hinside', hmiddle⟩ := ih
      refine ⟨events, texts, rest, hevents, htold, hinside', ?_⟩
      rw [hmiddle]
      simp [hinside]
  | case5 began found inside bytes hinside hfind skipped =>
      -- no opening is found
      dsimp only
      split
      · exact ⟨[], [], none, by simp, .nil, by simp, by simp⟩
      · exact ⟨[_], [], some (.skip (Text.lossy skipped)), by simp, .single rfl, by simp, by simp⟩

/-- What a chunk makes the framer tell. -/
theorem push_told {framer : Framer} (hopening : framer.opening ≠ []) (chunk : List UInt8) :
    ∃ texts rest, Told (framer.push chunk).2 texts rest ∧
      ((framer.push chunk).1.inResponse = true ↔ rest = some .begin ∨ rest = some .middle) ∧
      (rest = some .middle ↔
        (framer.push chunk).1.inResponse = true ∧ framer.inResponse = true ∧ texts = []) := by
  obtain ⟨events, texts, rest, hevents, htold, hinside, hmiddle⟩ :=
    cut_told hopening false [] framer.inResponse (framer.buffer ++ chunk)
  rw [List.reverse_nil, List.nil_append] at hevents
  rw [Framer.push, dif_neg hopening]
  refine ⟨texts, rest, ?_, hinside, ?_⟩
  · dsimp only
    rwa [hevents]
  · rw [hmiddle]
    simp

/-- Without closing bytes every response ends in the chunk that completes its opening. -/
theorem cut_of_closing_nil {framer : Framer} (hopening : framer.opening ≠ [])
    (hclosing : framer.closing = []) (began : Bool) (found : List FrameEvent) (inside : Bool)
    (bytes : List UInt8) : (framer.cut hopening began found inside bytes).2.1 = false := by
  fun_induction Framer.cut framer hopening began found inside bytes with
  | case1 began found bytes hend => simp [endOf?, hclosing] at hend
  | case2 => rfl
  | case3 began found bytes stop hend found' hrest hlt ih => exact ih
  | case4 began found inside bytes hinside start hfind hlt ih => exact ih
  | case5 => rfl

end Framer

/-! ## Which response is under way -/

section

variable {opening closing bytes more : List UInt8} {spans spans' : List Span} {start start' : ℕ}

theorem Spans.end_unique {a b b' : ℕ} (h : Spans opening closing bytes a spans b)
    (h' : Spans opening closing bytes a spans b') : b = b' := by
  induction h with
  | nil =>
      cases h'
      rfl
  | cons _ _ ih =>
      cases h' with
      | cons _ hrest => exact ih hrest

theorem Spans.exists_between {a c : ℕ} {first second : List Span}
    (h : Spans opening closing bytes a (first ++ second) c) :
    ∃ b, Spans opening closing bytes a first b ∧ Spans opening closing bytes b second c := by
  induction first generalizing a with
  | nil => exact ⟨a, .nil a, h⟩
  | cons span first ih =>
      cases h with
      | cons hnext hrest =>
          obtain ⟨b, hfirst, hsecond⟩ := ih hrest
          exact ⟨b, .cons hnext hfirst, hsecond⟩

theorem Spans.le {a b : ℕ} (hopening : opening ≠ []) (h : Spans opening closing bytes a spans b) :
    a ≤ b := by
  induction h with
  | nil => exact le_rfl
  | cons hnext _ ih => exact (hnext.lt_stop hopening).le.trans ih

/-- Responses that end before some bytes arrive do not depend on them. -/
theorem Spans.of_append {a b : ℕ} (hopening : opening ≠ [])
    (h : Spans opening closing (bytes ++ more) a spans b) (hle : b ≤ bytes.length) :
    Spans opening closing bytes a spans b := by
  induction h with
  | nil pos => exact .nil pos
  | cons hnext hrest ih => exact .cons (hnext.of_append ((hrest.le hopening).trans hle)) (ih hle)

/-- Without closing bytes no response is under way. -/
theorem not_underway_nil : ¬ Underway opening [] bytes spans start := by
  rintro ⟨last, -, -, hnone⟩
  exact hnone _ le_rfl (List.nil_prefix)

theorem Underway.scan (h : Underway opening closing bytes spans start) :
    Scan opening closing bytes spans := by
  obtain ⟨last, hspans, hstart, hnone⟩ := h
  refine ⟨last, hspans, ?_⟩
  rintro span ⟨hstart', spot, hspot, -⟩
  rw [hstart.unique hstart'] at hnone
  exact hnone spot hspot.le hspot.occurs

theorem Underway.unique (h : Underway opening closing bytes spans start)
    (h' : Underway opening closing bytes spans' start') : spans = spans' ∧ start = start' := by
  obtain rfl := h.scan.unique h'.scan
  obtain ⟨last, hspans, hstart, -⟩ := h
  obtain ⟨last', hspans', hstart', -⟩ := h'
  obtain rfl := hspans.end_unique hspans'
  exact ⟨rfl, hstart.unique hstart'⟩

theorem Underway.le_length (hopening : opening ≠ [])
    (h : Underway opening closing bytes spans start) : start + opening.length ≤ bytes.length := by
  obtain ⟨last, -, hstart, -⟩ := h
  exact occurs_le hopening hstart.occurs

/-- A response that is under way was so since its opening was complete. -/
theorem Underway.of_append (hopening : opening ≠ []) (hclosing : closing ≠ [])
    (h : Underway opening closing (bytes ++ more) spans start)
    (hle : start + opening.length ≤ bytes.length) :
    Underway opening closing bytes spans start := by
  obtain ⟨last, hspans, hstart, hnone⟩ := h
  have hlast : last ≤ bytes.length := hstart.le.trans (by omega)
  refine ⟨last, hspans.of_append hopening hlast, hstart.of_append hle, ?_⟩
  intro k hk hocc
  exact hnone k hk ((occurs_append_iff (occurs_le hclosing hocc)).mpr hocc)

/-- If the same responses are complete, then the response that was under way still is so. -/
theorem Underway.start_eq (hopening : opening ≠ []) (hclosing : closing ≠ [])
    (h : Underway opening closing bytes spans start)
    (h' : Underway opening closing (bytes ++ more) spans start') : start = start' := by
  obtain ⟨last, hspans, hstart, -⟩ := h
  obtain ⟨last', hspans', hstart', -⟩ := h'
  obtain rfl := (hspans.append_stream hopening hclosing more).end_unique hspans'
  exact (hstart.append hopening more).unique hstart'

/-- Between its opening and its end a response is under way. -/
theorem underway_of_isNext {last : ℕ} {span : Span} (hopening : opening ≠ [])
    (hclosing : closing ≠ []) (hspans : Spans opening closing (bytes ++ more) 0 spans last)
    (hnext : IsNext opening closing (bytes ++ more) last span)
    (hstart : span.start + opening.length ≤ bytes.length) (hstop : bytes.length < span.stop) :
    Underway opening closing bytes spans span.start := by
  obtain ⟨hleft, spot, hspot, hend⟩ := hnext
  have hlast : last ≤ bytes.length := hleft.le.trans (by omega)
  refine ⟨last, hspans.of_append hopening hlast, hleft.of_append hstart, ?_⟩
  intro k hk hocc
  have hle := occurs_le hclosing hocc
  exact hspot.first k hk (by omega) ((occurs_append_iff hle).mpr hocc)

/-- Without closing bytes a response ends with its opening. -/
theorem IsNext.closing_ne_nil {pos : ℕ} {span : Span} (h : IsNext opening closing bytes pos span)
    (hlt : span.start + opening.length < span.stop) : closing ≠ [] := by
  rintro rfl
  obtain ⟨-, spot, hspot, hend⟩ := h
  have hle : spot ≤ span.start + opening.length := by
    by_contra hlt
    exact hspot.first _ le_rfl (Nat.lt_of_not_le hlt) List.nil_prefix
  rw [hend, List.length_nil] at hlt
  omega

namespace Framer

variable {framer : Framer}

theorem Followed.inResponse_iff (h : Followed opening closing bytes spans framer) :
    framer.inResponse = true ↔ ∃ start, Underway opening closing bytes spans start := by
  obtain ⟨last, hspans, hretained⟩ := h.retained
  generalize framer.inResponse = inside at hretained
  generalize framer.buffer = buffer at hretained
  cases hretained with
  | inside hstart hnone => exact iff_of_true rfl ⟨_, last, hspans, hstart, hnone⟩
  | outside _ hnone =>
      refine iff_of_false Bool.false_ne_true ?_
      rintro ⟨start, last', hspans', hstart, -⟩
      obtain rfl := hspans.end_unique hspans'
      exact hnone start hstart.le hstart.occurs

end Framer

namespace Reached

variable {framer : Framer}

theorem opening_eq (h : Reached opening closing bytes framer) : framer.opening = opening := by
  induction h with
  | fresh => rfl
  | @push _ framer chunk _ ih =>
      rw [← ih, Framer.push]
      split <;> rfl
  | reset _ ih => exact ih

theorem closing_eq (h : Reached opening closing bytes framer) : framer.closing = closing := by
  induction h with
  | fresh => rfl
  | @push _ framer chunk _ ih =>
      rw [← ih, Framer.push]
      split <;> rfl
  | reset _ ih => exact ih

theorem pushAll (h : Reached opening closing bytes framer) (chunks : List (List UInt8)) :
    Reached opening closing (bytes ++ chunks.flatten) (framer.pushAll chunks).1 := by
  induction chunks generalizing bytes framer with
  | nil => simpa [Framer.pushAll] using h
  | cons chunk chunks ih =>
      have hrest := ih (h.push chunk)
      rwa [List.append_assoc] at hrest

theorem pushAll_chunks (h : Reached opening closing [] framer) (chunks : List (List UInt8)) :
    Reached opening closing chunks.flatten (framer.pushAll chunks).1 := by
  have hall := h.pushAll chunks
  rwa [List.nil_append] at hall

theorem inResponse_of_closing_nil (hopening : opening ≠ [])
    (h : Reached opening [] bytes framer) : framer.inResponse = false := by
  cases h with
  | fresh => rfl
  | @push _ framer chunk h =>
      have hopening' : framer.opening ≠ [] := h.opening_eq ▸ hopening
      rw [Framer.push, dif_neg hopening']
      exact Framer.cut_of_closing_nil hopening' h.closing_eq _ _ _ _
  | reset => rfl

theorem followed (hopening : opening ≠ []) (hclosing : closing ≠ [])
    (h : Reached opening closing bytes framer) :
    ∃ spans, Framer.Followed opening closing bytes spans framer := by
  induction h with
  | fresh => exact ⟨[], Framer.followed_fresh hopening⟩
  | push chunk _ ih =>
      obtain ⟨spans, hfollowed⟩ := ih
      obtain ⟨new, hnext, -⟩ := hfollowed.push hopening hclosing chunk
      exact ⟨_, hnext⟩
  | reset h _ =>
      have hfresh : Framer.Followed opening closing [] [] { opening, closing } :=
        Framer.followed_fresh hopening
      exact ⟨[], h.opening_eq, h.closing_eq, hfresh.retained⟩

/-- A framer is in a response if and only if one is under way in what it has received. -/
theorem inResponse_iff (hopening : opening ≠ []) (h : Reached opening closing bytes framer) :
    framer.inResponse = true ↔ ∃ spans start, Underway opening closing bytes spans start := by
  by_cases hclosing : closing = []
  · subst hclosing
    rw [h.inResponse_of_closing_nil hopening]
    exact iff_of_false Bool.false_ne_true fun ⟨_, _, hunderway⟩ => not_underway_nil hunderway
  · obtain ⟨spans, hfollowed⟩ := h.followed hopening hclosing
    rw [hfollowed.inResponse_iff]
    constructor
    · rintro ⟨start, hunderway⟩
      exact ⟨spans, start, hunderway⟩
    · rintro ⟨spans', start, hunderway⟩
      obtain rfl := hfollowed.scan.unique hunderway.scan
      exact ⟨start, hunderway⟩

/-- A response goes on if and only if it is under way before the chunk and after it. -/
theorem middle_iff (hopening : opening ≠ []) (h : Reached opening closing bytes framer)
    (chunk : List UInt8) {texts : List String} {rest : Option FrameEvent}
    (htold : Told (framer.push chunk).2 texts rest) :
    ((framer.push chunk).1.inResponse = true ∧ framer.inResponse = true ∧ texts = []) ↔
      ∃ spans start, Underway opening closing bytes spans start ∧
        Underway opening closing (bytes ++ chunk) spans start := by
  by_cases hclosing : closing = []
  · subst hclosing
    rw [h.inResponse_of_closing_nil hopening]
    refine iff_of_false (by simp) ?_
    rintro ⟨spans, start, hunderway, -⟩
    exact not_underway_nil hunderway
  · obtain ⟨spans, hfollowed⟩ := h.followed hopening hclosing
    obtain ⟨new, hnext, htexts, -⟩ := hfollowed.push hopening hclosing chunk
    rw [htold.responses_eq] at htexts
    rw [hnext.inResponse_iff, hfollowed.inResponse_iff, htexts, List.map_eq_nil_iff]
    constructor
    · rintro ⟨⟨start', hafter⟩, ⟨start, hbefore⟩, rfl⟩
      rw [List.append_nil] at hafter
      obtain rfl := hbefore.start_eq hopening hclosing hafter
      exact ⟨spans, start, hbefore, hafter⟩
    · rintro ⟨spans', start, hbefore, hafter⟩
      obtain rfl := hfollowed.scan.unique hbefore.scan
      have hsame := hafter.scan.unique hnext.scan
      obtain rfl : new = [] := List.self_eq_append_right.mp hsame
      rw [List.append_nil]
      exact ⟨⟨start, hafter⟩, ⟨start, hbefore⟩, rfl⟩

/-- What a reached framer tells about a chunk. -/
theorem push_told (hopening : opening ≠ []) (h : Reached opening closing bytes framer)
    (chunk : List UInt8) :
    ∃ texts rest, Told (framer.push chunk).2 texts rest ∧
      ((framer.push chunk).1.inResponse = true ↔ rest = some .begin ∨ rest = some .middle) ∧
      (rest = some .middle → texts = []) ∧
      (rest = some .middle ↔ ∃ spans start, Underway opening closing bytes spans start ∧
        Underway opening closing (bytes ++ chunk) spans start) ∧
      (rest = some .begin ↔ ∃ spans start, Underway opening closing (bytes ++ chunk) spans start ∧
        bytes.length < start + opening.length) := by
  obtain ⟨texts, rest, htold, hinside, hmiddle⟩ :=
    Framer.push_told (h.opening_eq ▸ hopening) chunk
  have hgoes := hmiddle.trans (h.middle_iff hopening chunk htold)
  have hafter := (h.push chunk).inResponse_iff hopening
  refine ⟨texts, rest, htold, hinside, fun hrest => (hmiddle.mp hrest).2.2, hgoes, ?_⟩
  constructor
  · intro hrest
    obtain ⟨spans, start, hunderway⟩ := hafter.mp (hinside.mpr (.inl hrest))
    refine ⟨spans, start, hunderway, ?_⟩
    by_contra hle
    -- the response would have been under way before
    have hclosing : closing ≠ [] := by
      rintro rfl
      exact not_underway_nil hunderway
    have hbefore := hunderway.of_append hopening hclosing (Nat.le_of_not_lt hle)
    have hrest' := hgoes.mpr ⟨spans, start, hbefore, hunderway⟩
    rw [hrest] at hrest'
    cases hrest'
  · rintro ⟨spans, start, hunderway, hlt⟩
    refine (hinside.mp (hafter.mpr ⟨spans, start, hunderway⟩)).resolve_right fun hrest => ?_
    obtain ⟨spans', start', hbefore, hunderway'⟩ := hgoes.mp hrest
    obtain ⟨-, rfl⟩ := hunderway.unique hunderway'
    have hle := hbefore.le_length hopening
    omega

/-- The chunk that completes the opening of a response, but not the response, makes the framer tell
last that it begins. -/
theorem push_begins (hopening : opening ≠ []) (h : Reached opening closing bytes framer)
    (chunk : List UInt8) (hafter : Underway opening closing (bytes ++ chunk) spans start)
    (hlt : bytes.length < start + opening.length) :
    ∃ texts : List String, (framer.push chunk).2 = texts.map FrameEvent.response ++ [.begin] := by
  obtain ⟨texts, rest, htold, -, -, -, hbegin⟩ := h.push_told hopening chunk
  obtain rfl := hbegin.mpr ⟨spans, start, hafter, hlt⟩
  exact ⟨texts, htold.events_eq⟩

/-- While a response is under way the framer tells nothing but that it goes on. -/
theorem push_goes_on (hopening : opening ≠ []) (h : Reached opening closing bytes framer)
    (chunk : List UInt8) (hbefore : Underway opening closing bytes spans start)
    (hafter : Underway opening closing (bytes ++ chunk) spans start) :
    (framer.push chunk).2 = [.middle] := by
  obtain ⟨texts, rest, htold, -, halone, hmiddle, -⟩ := h.push_told hopening chunk
  obtain rfl := hmiddle.mpr ⟨spans, start, hbefore, hafter⟩
  rw [htold.events_eq, halone rfl]
  rfl

/-- The chunk that completes the response that is under way makes the framer tell it first. -/
theorem push_completes (hopening : opening ≠ []) (hclosing : closing ≠ []) {last : ℕ} {span : Span}
    (h : Reached opening closing bytes framer) (chunk : List UInt8)
    (hunderway : Underway opening closing bytes spans start)
    (hspans : Spans opening closing (bytes ++ chunk) 0 spans last)
    (hnext : IsNext opening closing (bytes ++ chunk) last span) :
    ∃ others, (framer.push chunk).2 = .response (span.text (bytes ++ chunk)) :: others := by
  obtain ⟨texts, rest, htold, -⟩ := Framer.push_told (h.opening_eq ▸ hopening) chunk
  obtain ⟨told, hfollowed⟩ := h.followed hopening hclosing
  obtain rfl := hfollowed.scan.unique hunderway.scan
  obtain ⟨new, hafter, htexts, -⟩ := hfollowed.push hopening hclosing chunk
  obtain ⟨last', hall, hnone⟩ := hafter.scan
  obtain ⟨b, hbefore, hnew⟩ := hall.exists_between
  obtain rfl := hspans.end_unique hbefore
  cases hnew with
  | nil => exact absurd hnext (hnone span)
  | cons hfirst _ =>
      obtain rfl := hnext.unique hfirst
      rw [htold.responses_eq, List.map_cons] at htexts
      rw [htold.events_eq, htexts, List.map_cons, List.cons_append]
      exact ⟨_, rfl⟩

end Reached

/-! ## A response that is cut -/

/-- A response whose opening and end come with different chunks: the opening is complete with `first`, the
end with `last`. -/
structure Straddle (opening closing : List UInt8) (before : List (List UInt8)) (first : List UInt8)
    (between : List (List UInt8)) (last : List UInt8) (after : List (List UInt8)) (done : List Span)
    (pos : ℕ) (span : Span) : Prop where
  done : Spans opening closing (before ++ first :: between ++ last :: after).flatten 0 done pos
  next : IsNext opening closing (before ++ first :: between ++ last :: after).flatten pos span
  begins : before.flatten.length < span.start + opening.length
  begun : span.start + opening.length ≤ before.flatten.length + first.length
  goesOn : (before ++ first :: between).flatten.length < span.stop
  ends : span.stop ≤ (before ++ first :: between).flatten.length + last.length

namespace Straddle

variable {framer : Framer} {before between after : List (List UInt8)} {first last : List UInt8}
  {done : List Span} {pos : ℕ} {span : Span}

theorem length_flatten (before chunks : List (List UInt8)) (first : List UInt8) :
    (before ++ first :: chunks).flatten.length =
      before.flatten.length + first.length + chunks.flatten.length := by
  simp [Nat.add_assoc]

theorem closing_ne_nil (h : Straddle opening closing before first between last after done pos span) :
    closing ≠ [] := by
  have hlength := length_flatten before between first
  have hbegun := h.begun
  have hgoesOn := h.goesOn
  exact h.next.closing_ne_nil (by omega)

/-- From its opening to its end the response is under way, wherever the stream is cut. -/
theorem underway (h : Straddle opening closing before first between last after done pos span)
    (hopening : opening ≠ []) {some : List UInt8} (more : List UInt8)
    (hsome : some ++ more = (before ++ first :: between ++ last :: after).flatten)
    (hbegun : span.start + opening.length ≤ some.length) (hgoesOn : some.length < span.stop) :
    Underway opening closing some done span.start := by
  have hdone := h.done
  have hnext := h.next
  rw [← hsome] at hdone hnext
  exact underway_of_isNext hopening h.closing_ne_nil hdone hnext hbegun hgoesOn

theorem begins_told (h : Straddle opening closing before first between last after done pos span)
    (hopening : opening ≠ []) (hframer : Reached opening closing [] framer) :
    ∃ texts : List String, ((framer.pushAll before).1.push first).2 =
      texts.map FrameEvent.response ++ [.begin] := by
  have hlength := length_flatten before between first
  have hbegun := h.begun
  have hgoesOn := h.goesOn
  refine (hframer.pushAll_chunks before).push_begins hopening first
    (h.underway hopening (between.flatten ++ last ++ after.flatten) ?_ ?_ ?_) h.begins
  · simp
  · rwa [List.length_append]
  · rw [List.length_append]
    omega

theorem goes_on_told (h : Straddle opening closing before first between last after done pos span)
    (hopening : opening ≠ []) (hframer : Reached opening closing [] framer)
    {earlier later : List (List UInt8)} {chunk : List UInt8}
    (hbetween : between = earlier ++ chunk :: later) :
    ((framer.pushAll (before ++ first :: earlier)).1.push chunk).2 = [.middle] := by
  subst hbetween
  have hearlier := length_flatten before earlier first
  have hlength := length_flatten before (earlier ++ chunk :: later) first
  have hbegun := h.begun
  have hgoesOn := h.goesOn
  have hbetween := length_flatten earlier later chunk
  refine (hframer.pushAll_chunks _).push_goes_on hopening chunk
    (h.underway hopening (chunk ++ later.flatten ++ last ++ after.flatten) ?_ ?_ ?_)
    (h.underway hopening (later.flatten ++ last ++ after.flatten) ?_ ?_ ?_)
  · simp
  · omega
  · omega
  · simp
  · rw [List.length_append]
    omega
  · rw [List.length_append]
    omega

theorem completes_told (h : Straddle opening closing before first between last after done pos span)
    (hopening : opening ≠ []) (hframer : Reached opening closing [] framer) :
    ∃ others, ((framer.pushAll (before ++ first :: between)).1.push last).2 =
      .response (span.text (before ++ first :: between ++ last :: after).flatten) :: others := by
  have hlength := length_flatten before between first
  have hbegun := h.begun
  have hbytes : (before ++ first :: between ++ last :: after).flatten =
      (before ++ first :: between).flatten ++ last ++ after.flatten := by simp
  have hstop : span.stop ≤ ((before ++ first :: between).flatten ++ last).length := by
    rw [List.length_append]
    exact h.ends
  have hpos : pos ≤ ((before ++ first :: between).flatten ++ last).length :=
    (h.next.lt_stop hopening).le.trans hstop
  have hunderway := h.underway hopening (last ++ after.flatten)
    (by rw [hbytes, List.append_assoc]) (by omega) h.goesOn
  have hdone := h.done
  have hnext := h.next
  rw [hbytes] at hdone hnext
  rw [hbytes, Span.text_append hstop]
  exact (hframer.pushAll_chunks _).push_completes hopening h.closing_ne_nil last hunderway
    (hdone.of_append hopening hpos) (hnext.of_append hstop)

end Straddle

/-- Each chunk makes a framer tell about the responses that are complete, and then of at most one
thing more: that some bytes were skipped, or that a response begins, or that one goes on.  The framer
is then in a response if and only if the last event is one of the latter two.  A response goes on if
and only if it is under way before the chunk and after it, and then nothing else is told.  A response
begins if and only if it is under way after the chunk, and its opening was not complete before.
Without closing bytes neither happens.

So, whatever chunks follow one another, a response whose opening and end come with different chunks is
told as a beginning by the one, as a whole by the other, and by each chunk between them only as going
on. -/
theorem Framer.push_grammar {opening : List UInt8} (closing : List UInt8) (hopening : opening ≠ []) :
    (∀ bytes framer, Reached opening closing bytes framer →
      (framer.inResponse = true ↔ ∃ spans start, Underway opening closing bytes spans start) ∧
      ∀ chunk,
        let events := (framer.push chunk).2
        (∃ texts rest, Told events texts rest) ∧
        ((framer.push chunk).1.inResponse = true ↔
          events.getLast? = some .begin ∨ events.getLast? = some .middle) ∧
        (.middle ∈ events ↔ ∃ spans start, Underway opening closing bytes spans start ∧
          Underway opening closing (bytes ++ chunk) spans start) ∧
        (.middle ∈ events → events = [.middle]) ∧
        (.begin ∈ events ↔ ∃ spans start,
          Underway opening closing (bytes ++ chunk) spans start ∧
            bytes.length < start + opening.length) ∧
        (closing = [] → .begin ∉ events ∧ .middle ∉ events)) ∧
    ∀ framer, Reached opening closing [] framer → ∀ before first between last after spans,
      let received := (before ++ first :: between).flatten
      let bytes := (before ++ first :: between ++ last :: after).flatten
      Scan opening closing bytes spans → ∀ span ∈ spans,
        before.flatten.length < span.start + opening.length →
        span.start + opening.length ≤ before.flatten.length + first.length →
        received.length < span.stop → span.stop ≤ received.length + last.length →
          (∃ texts : List String, ((framer.pushAll before).1.push first).2 =
            texts.map FrameEvent.response ++ [.begin]) ∧
          (∀ earlier chunk later, between = earlier ++ chunk :: later →
            ((framer.pushAll (before ++ first :: earlier)).1.push chunk).2 = [.middle]) ∧
          ∃ others, ((framer.pushAll (before ++ first :: between)).1.push last).2 =
            .response (span.text bytes) :: others := by
  constructor
  · intro bytes framer h
    refine ⟨h.inResponse_iff hopening, fun chunk => ?_⟩
    obtain ⟨texts, rest, htold, hinside, -, hmiddle, hbegin⟩ := h.push_told hopening chunk
    refine ⟨⟨texts, rest, htold⟩, ?_, ?_, ?_, ?_, ?_⟩
    · rw [htold.getLast?_iff rfl, htold.getLast?_iff rfl]
      exact hinside
    · rw [htold.mem_iff rfl]
      exact hmiddle
    · intro hmem
      obtain ⟨spans, start, hbefore, hafter⟩ := hmiddle.mp ((htold.mem_iff rfl).mp hmem)
      exact h.push_goes_on hopening chunk hbefore hafter
    · rw [htold.mem_iff rfl]
      exact hbegin
    · rintro rfl
      rw [htold.mem_iff rfl, htold.mem_iff rfl, hmiddle, hbegin]
      exact ⟨fun ⟨_, _, hunderway, _⟩ => not_underway_nil hunderway,
        fun ⟨_, _, hunderway, _⟩ => not_underway_nil hunderway⟩
  · intro framer hframer before first between last after spans received bytes hscan span hspan
      hbefore hfirst hreceived hlast
    obtain ⟨done, later, rfl⟩ := List.append_of_mem hspan
    obtain ⟨stop, hspans, -⟩ := hscan
    obtain ⟨pos, hdone, hrest⟩ := hspans.exists_between
    cases hrest with
    | cons hnext _ =>
        have hcut : Straddle opening closing before first between last after done pos span :=
          ⟨hdone, hnext, hbefore, hfirst, hreceived, hlast⟩
        exact ⟨hcut.begins_told hopening hframer,
          fun earlier chunk later => hcut.goes_on_told hopening hframer,
          hcut.completes_told hopening hframer⟩

/-- An opening that is cut in two: the response begins with the second half, goes on with the next
chunk, and is told with the last one. -/
theorem Framer.push_grammar_cut :
    let fresh : Framer := { opening := [60, 97], closing := [62] }
    let bytes : List UInt8 := [120, 60, 97, 98, 62, 121]
    (∃ texts : List String, ((fresh.pushAll [[120, 60]]).1.push [97]).2 =
      texts.map FrameEvent.response ++ [.begin]) ∧
    ((fresh.pushAll [[120, 60], [97]]).1.push [98]).2 = [.middle] ∧
    ∃ others, ((fresh.pushAll [[120, 60], [97], [98]]).1.push [62, 121]).2 =
      .response (Span.text bytes ⟨1, 5⟩) :: others := by
  intro fresh bytes
  have hopening : ([60, 97] : List UInt8) ≠ [] := by decide
  have hstart : Leftmost [60, 97] bytes 0 (0 + 1) :=
    findFirst?_drop_eq_some_iff.mp (by decide)
  have hstop : Leftmost [62] bytes 3 (3 + 1) := findFirst?_drop_eq_some_iff.mp (by decide)
  have hnext : IsNext [60, 97] [62] bytes 0 ⟨1, 5⟩ := ⟨hstart, 4, hstop, rfl⟩
  have hscan : Scan [60, 97] [62] bytes [⟨1, 5⟩] := by
    refine ⟨5, .cons hnext (.nil 5), fun span hspan => ?_⟩
    exact findFirst?_drop_eq_none_iff.mp (by decide) _ hspan.1.le hspan.1.occurs
  obtain ⟨-, hrun⟩ := Framer.push_grammar [62] hopening
  obtain ⟨hbegin, hmiddle, hend⟩ := hrun fresh .fresh [[120, 60]] [97] [[98]] [62, 121] []
    [⟨1, 5⟩] hscan ⟨1, 5⟩ (by simp) (by decide) (by decide) (by decide) (by decide)
  exact ⟨hbegin, hmiddle [] [98] [] rfl, hend⟩

end

end Link
end Uplink
