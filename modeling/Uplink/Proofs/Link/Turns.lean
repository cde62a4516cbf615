import Uplink.Proofs.Link.Stream
import Uplink.Proofs.Loop

/-!
# The turns of a framer

A framer works through what it has received in turns.  A turn looks for an opening, unless the framer
is in a response, and then for the end of the response; it cuts the response out, and there is another
turn if something is left.

Here a turn may fail: it takes bytes by their places, and it fails at a place that is not there, as it
does if it is to search for nothing.  In a response it does not fail because the opening is still
there.  There is an end to the turns because each one that leads to another cuts out a response, which
is no shorter than the opening.
-/

namespace Uplink
namespace Link

/-! ## Places that may not be there -/

/-- The bytes from one place to another. -/
def slice? (bytes : List UInt8) (start stop : ℕ) : Option (List UInt8) :=
  if start ≤ stop ∧ stop ≤ bytes.length then some ((bytes.drop start).take (stop - start)) else none

/-- What is left without so many bytes. -/
def drain? (bytes : List UInt8) (n : ℕ) : Option (List UInt8) :=
  if n ≤ bytes.length then some (bytes.drop n) else none

/-- How many are left without so many. -/
def minus? (n m : ℕ) : Option ℕ :=
  if m ≤ n then some (n - m) else none

/-- Where the needle occurs first.  There is no search for nothing. -/
def search? (needle bytes : List UInt8) : Option (Option ℕ) :=
  if needle = [] then none else some (findFirst? needle bytes)

/-- The length of the longest proper initial part of `opening` with which some bytes end, where each
part is taken by its place. -/
def partialLength? (opening bytes : List UInt8) : Option ℕ := do
  let longest ← (List.range opening.length).reverse.findM? fun n => do
    return (← slice? opening 0 n).isSuffixOf bytes
  return longest.getD 0

section

variable {bytes needle : List UInt8} {n : ℕ}

theorem slice?_zero (h : n ≤ bytes.length) : slice? bytes 0 n = some (bytes.take n) := by
  simp [slice?, h]

theorem slice?_length (h : n ≤ bytes.length) :
    slice? bytes n bytes.length = some (bytes.drop n) := by
  have hall : (bytes.drop n).take (bytes.length - n) = bytes.drop n :=
    List.take_of_length_le (by rw [List.length_drop])
  simp [slice?, h, hall]

theorem drain?_of_le (h : n ≤ bytes.length) : drain? bytes n = some (bytes.drop n) :=
  if_pos h

theorem search?_of_ne_nil (h : needle ≠ []) : search? needle bytes = some (findFirst? needle bytes) :=
  if_neg h

/-- A search that looks at each place without failing is the plain search. -/
theorem findM?_eq_some_find? {α : Type} {test? : α → Option Bool} {test : α → Bool} {places : List α}
    (h : ∀ place ∈ places, test? place = some (test place)) :
    places.findM? test? = some (places.find? test) := by
  induction places with
  | nil => rfl
  | cons place places ih =>
      have hrest := ih fun other hother => h other (List.mem_cons_of_mem place hother)
      rw [List.findM?, h place List.mem_cons_self, List.find?_cons]
      cases test place with
      | true => rfl
      | false => exact hrest

theorem partialLength?_eq (opening bytes : List UInt8) :
    partialLength? opening bytes = some (partialLength opening bytes) := by
  have hparts : ∀ n ∈ (List.range opening.length).reverse,
      (do return (← slice? opening 0 n).isSuffixOf bytes) =
        some ((opening.take n).isSuffixOf bytes) := by
    intro n hn
    have hle : n ≤ opening.length := (List.mem_range.mp (List.mem_reverse.mp hn)).le
    rw [slice?_zero hle]
    rfl
  rw [partialLength?, findM?_eq_some_find? hparts]
  rfl

end

/-! ## One turn -/

/-- What a framer has before it: whether it is in a response, whether one began in this chunk, the
events so far, last first, and the bytes that are left. -/
structure Work where
  inside : Bool
  began : Bool
  found : List FrameEvent
  rest : List UInt8
  deriving DecidableEq, Repr

/-- In a response, what is left starts with the opening. -/
def Work.Starts (opening : List UInt8) (work : Work) : Prop :=
  work.inside = true → opening <+: work.rest

namespace Framer

/-- Where the response ends with which some bytes start. -/
def stop? (framer : Framer) (bytes : List UInt8) : Option (Option ℕ) :=
  if framer.closing = [] then some (some bytes.length)
  else do
    let body ← slice? bytes framer.opening.length bytes.length
    let spot ← search? framer.closing body
    return spot.map (framer.opening.length + · + framer.closing.length)

/-- The part of a turn in a response. -/
def finish (framer : Framer) (began : Bool) (found : List FrameEvent) (bytes : List UInt8) :
    Option (Loop.Outcome Work (List FrameEvent × Bool × List UInt8)) := do
  match ← framer.stop? bytes with
  | none => return .done ((if began then .begin else .middle) :: found, true, bytes)
  | some stop =>
    let text ← slice? bytes 0 stop
    let rest ← drain? bytes stop
    let found := .response (Text.lossy text) :: found
    if rest.isEmpty then return .done (found, false, rest)
    return .next ⟨false, began, found, rest⟩

/-- One turn. -/
def turn (framer : Framer) : Loop Work (List FrameEvent × Bool × List UInt8) := fun work => do
  if work.inside then framer.finish work.began work.found work.rest
  else
    match ← search? framer.opening work.rest with
    | some start => framer.finish true work.found (← drain? work.rest start)
    | none =>
      let keep ← partialLength? framer.opening work.rest
      let discard ← minus? work.rest.length keep
      if 0 < discard then
        let skipped ← slice? work.rest 0 discard
        let kept ← drain? work.rest discard
        return .done (.skip (Text.lossy skipped) :: work.found, false, kept)
      return .done (work.found, false, work.rest)

/-- What a framer has before it when a chunk has come. -/
def work (framer : Framer) (chunk : List UInt8) : Work :=
  ⟨framer.inResponse, false, [], framer.buffer ++ chunk⟩

/-- A chunk is taken in turns, or skipped if nothing is a response: the framer afterwards and what it
tells. -/
inductive Takes (framer : Framer) (chunk : List UInt8) : Framer × List FrameEvent → Prop where
  | skips : framer.opening = [] →
      Takes framer chunk (framer, if chunk.isEmpty then [] else [.skip (Text.lossy chunk)])
  | turns {found : List FrameEvent} {inResponse : Bool} {buffer : List UInt8} :
      framer.opening ≠ [] → Loop.Ends framer.turn (framer.work chunk) (found, inResponse, buffer) →
        Takes framer chunk ({ framer with buffer, inResponse }, found.reverse)

variable {framer : Framer} {began inside : Bool} {found : List FrameEvent}
  {bytes rest chunk : List UInt8} {start stop : ℕ} {work next : Work}

/-- A response is no shorter than its opening, and is there as a whole. -/
theorem endOf?_bounds (hstarts : framer.opening <+: bytes) (hend : framer.endOf? bytes = some stop) :
    framer.opening.length ≤ stop ∧ stop ≤ bytes.length := by
  have hlength := hstarts.length_le
  by_cases hclosing : framer.closing = []
  · simp only [endOf?, hclosing, List.isEmpty_nil, if_true, Option.some.injEq] at hend
    omega
  · rw [← List.drop_zero (l := bytes)] at hend
    obtain ⟨spot, hspot, hstop⟩ := endOf?_eq_some hclosing hend
    have hfrom := hspot.le
    have hto := occurs_le hclosing hspot.occurs
    omega

theorem stop?_eq (hstarts : framer.opening <+: bytes) :
    framer.stop? bytes = some (framer.endOf? bytes) := by
  by_cases hclosing : framer.closing = []
  · simp [stop?, endOf?, hclosing]
  · simp only [stop?, endOf?, hclosing, if_false, List.isEmpty_iff, slice?_length hstarts.length_le,
      search?_of_ne_nil hclosing, bind, Option.bind_some]
    rfl

theorem finish_of_none (hstarts : framer.opening <+: bytes) (hend : framer.endOf? bytes = none) :
    framer.finish began found bytes =
      some (.done ((if began then .begin else .middle) :: found, true, bytes)) := by
  simp only [finish, stop?_eq hstarts, hend, bind, Option.bind_some]
  rfl

theorem finish_of_some (hstarts : framer.opening <+: bytes)
    (hend : framer.endOf? bytes = some stop) :
    framer.finish began found bytes = some (if bytes.drop stop = []
      then .done (.response (Text.lossy (bytes.take stop)) :: found, false, [])
      else .next ⟨false, began, .response (Text.lossy (bytes.take stop)) :: found,
        bytes.drop stop⟩) := by
  obtain ⟨-, hstop⟩ := endOf?_bounds hstarts hend
  simp only [finish, stop?_eq hstarts, hend, slice?_zero hstop, drain?_of_le hstop, bind,
    Option.bind_some]
  by_cases hempty : bytes.drop stop = []
  · rw [hempty]
    rfl
  · rw [if_neg hempty, if_neg (by rwa [List.isEmpty_iff])]
    rfl

theorem turn_inside : framer.turn ⟨true, began, found, rest⟩ = framer.finish began found rest :=
  rfl

theorem turn_of_found (hopening : framer.opening ≠ []) (hinside : ¬ inside = true)
    (hfind : findFirst? framer.opening rest = some start) :
    framer.turn ⟨inside, began, found, rest⟩ =
      framer.turn ⟨true, true, found, rest.drop start⟩ := by
  have hle : start ≤ rest.length := by
    have hocc := occurs_le hopening (findFirst?_eq_some_iff.mp hfind).occurs
    omega
  simp only [turn, hinside, search?_of_ne_nil hopening, hfind, drain?_of_le hle, bind,
    Option.bind_some]
  rfl

theorem turn_of_not_found (hopening : framer.opening ≠ []) (hinside : ¬ inside = true)
    (hfind : findFirst? framer.opening rest = none) :
    let skipped := rest.take (rest.length - partialLength framer.opening rest)
    let kept := rest.drop (rest.length - partialLength framer.opening rest)
    framer.turn ⟨inside, began, found, rest⟩ = some (.done
      (if skipped.isEmpty then found else .skip (Text.lossy skipped) :: found, false, kept)) := by
  intro skipped kept
  have hkeep : partialLength framer.opening rest ≤ rest.length := by
    obtain ⟨hlt, hsuffix⟩ := partialLength_spec hopening rest
    have hlength := hsuffix.length_le
    rwa [List.length_take_of_le hlt.le] at hlength
  have hdiscard := Nat.sub_le rest.length (partialLength framer.opening rest)
  simp only [turn, hinside, search?_of_ne_nil hopening, hfind, partialLength?_eq, minus?, hkeep,
    slice?_zero hdiscard, drain?_of_le hdiscard, bind, Option.bind_some, if_true, if_false,
    Bool.false_eq_true]
  by_cases hpos : 0 < rest.length - partialLength framer.opening rest
  · have hskipped : ¬ skipped.isEmpty = true := by
      rw [List.isEmpty_iff, ← List.length_eq_zero_iff, List.length_take_of_le hdiscard]
      exact hpos.ne'
    rw [if_pos hpos, if_neg hskipped]
    rfl
  · -- nothing is discarded, and all is kept
    have hzero := Nat.eq_zero_of_not_pos hpos
    simp only [skipped, kept, hzero]
    rfl

/-- A turn that leads to another one has cut out a response. -/
theorem finish_next (hstarts : framer.opening <+: bytes)
    (hturn : framer.finish began found bytes = some (.next next)) :
    next.inside = false ∧ (∃ text, next.found = .response text :: found) ∧
      next.rest.length + framer.opening.length ≤ bytes.length := by
  cases hend : framer.endOf? bytes with
  | none =>
      rw [finish_of_none hstarts hend] at hturn
      cases hturn
  | some stop =>
      obtain ⟨hfrom, hto⟩ := endOf?_bounds hstarts hend
      rw [finish_of_some hstarts hend] at hturn
      split at hturn
      · cases hturn
      · cases hturn
        refine ⟨rfl, ⟨_, rfl⟩, ?_⟩
        rw [List.length_drop]
        omega

theorem finish_ne_none (hstarts : framer.opening <+: bytes) :
    framer.finish began found bytes ≠ none := by
  cases hend : framer.endOf? bytes with
  | none =>
      rw [finish_of_none hstarts hend]
      exact Option.some_ne_none _
  | some stop =>
      rw [finish_of_some hstarts hend]
      exact Option.some_ne_none _

/-- A turn is the part in a response, or the last one. -/
theorem turn_cases (hopening : framer.opening ≠ []) (hstarts : work.Starts framer.opening) :
    (∃ began start, framer.opening <+: work.rest.drop start ∧
      framer.turn work = framer.finish began work.found (work.rest.drop start)) ∨
    ∃ result, framer.turn work = some (.done result) := by
  obtain ⟨inside, began, found, rest⟩ := work
  cases inside with
  | true => exact .inl ⟨began, 0, hstarts rfl, turn_inside⟩
  | false =>
      cases hfind : findFirst? framer.opening rest with
      | none => exact .inr ⟨_, turn_of_not_found hopening Bool.false_ne_true hfind⟩
      | some start =>
          have hleft := findFirst?_eq_some_iff.mp hfind
          exact .inl ⟨true, start, hleft.occurs,
            (turn_of_found hopening Bool.false_ne_true hfind).trans turn_inside⟩

theorem turn_next (hopening : framer.opening ≠ []) (hstarts : work.Starts framer.opening)
    (hturn : framer.turn work = some (.next next)) :
    next.inside = false ∧ (∃ text, next.found = .response text :: work.found) ∧
      next.rest.length + framer.opening.length ≤ work.rest.length := by
  obtain ⟨began, start, hocc, hfinish⟩ | ⟨result, hdone⟩ := turn_cases hopening hstarts
  · rw [hfinish] at hturn
    obtain ⟨hinside, hfound, hle⟩ := finish_next hocc hturn
    rw [List.length_drop] at hle
    exact ⟨hinside, hfound, by omega⟩
  · rw [hdone] at hturn
    cases hturn

/-! ## All turns -/

theorem steady_turn (hopening : framer.opening ≠ []) :
    Loop.Steady framer.turn (Work.Starts framer.opening) (·.rest.length) framer.opening.length where
  safe work hstarts := by
    obtain ⟨began, start, hocc, hfinish⟩ | ⟨result, hdone⟩ := turn_cases hopening hstarts
    · rw [hfinish]
      exact finish_ne_none hocc
    · rw [hdone]
      exact Option.some_ne_none _
  keeps work next hstarts hturn hinside := by
    obtain ⟨houtside, -⟩ := turn_next hopening hstarts hturn
    rw [houtside] at hinside
    cases hinside
  lowers work next hstarts hturn := (turn_next hopening hstarts hturn).2.2

/-- Each turn that has led to another one has cut out a response. -/
theorem found_of_turns {first : Work} {n : ℕ} (hopening : framer.opening ≠ [])
    (hstarts : first.Starts framer.opening) (hturns : Loop.Turns framer.turn first n work) :
    ∃ texts : List String, texts.length = n ∧
      work.found = texts.map FrameEvent.response ++ first.found := by
  induction hturns with
  | zero => exact ⟨[], rfl, rfl⟩
  | succ hturns hturn ih =>
      obtain ⟨texts, rfl, hfound⟩ := ih
      have hstarts' := (steady_turn hopening).keeps_turns hstarts hturns
      obtain ⟨-, ⟨text, htext⟩, -⟩ := turn_next hopening hstarts' hturn
      exact ⟨text :: texts, rfl, by rw [htext, hfound, List.map_cons, List.cons_append]⟩

/-- The turns come to what the chunk is cut into. -/
theorem ends_cut (hopening : framer.opening ≠ []) (began : Bool) (found : List FrameEvent)
    (inside : Bool) (rest : List UInt8) (hstarts : inside = true → framer.opening <+: rest) :
    Loop.Ends framer.turn ⟨inside, began, found, rest⟩
      (framer.cut hopening began found inside rest) := by
  fun_induction Framer.cut framer hopening began found inside rest with
  | case1 began found rest hend => exact .done (finish_of_none (hstarts rfl) hend)
  | case2 began found rest stop hend found' =>
      -- the response ends with the chunk
      rename_i hempty
      exact .done ((finish_of_some (hstarts rfl) hend).trans (by rw [if_pos hempty]))
  | case3 began found rest stop hend found' =>
      -- the response ends, and more has arrived
      rename_i hrest _ ih
      refine .next ((finish_of_some (hstarts rfl) hend).trans (by rw [if_neg hrest])) (ih ?_)
      exact fun hinside => absurd hinside Bool.false_ne_true
  | case4 began found inside rest hinside start hfind _ ih =>
      -- an opening is found, and the same turn goes on in the response
      have hleft := findFirst?_eq_some_iff.mp hfind
      exact (ih fun _ => hleft.occurs).of_eq (turn_of_found hopening hinside hfind)
  | case5 began found inside rest hinside hfind skipped =>
      exact .done (turn_of_not_found hopening hinside hfind)

/-- A chunk is taken without fail if the framer keeps the opening of the response in which it is. -/
theorem takes_push (hstarts : (framer.work chunk).Starts framer.opening) :
    framer.Takes chunk (framer.push chunk) := by
  by_cases hopening : framer.opening = []
  · rw [push, dif_pos hopening]
    exact .skips hopening
  · rw [push, dif_neg hopening]
    exact .turns hopening (ends_cut hopening _ _ _ _ hstarts)

/-- Each response takes as many bytes as its opening has, or more. -/
theorem cut_consumes (hopening : framer.opening ≠ []) (began : Bool) (found : List FrameEvent)
    (inside : Bool) (rest : List UInt8) (hstarts : inside = true → framer.opening <+: rest) :
    (responses (framer.cut hopening began found inside rest).1).length * framer.opening.length +
        (framer.cut hopening began found inside rest).2.2.length ≤
      (responses found).length * framer.opening.length + rest.length := by
  fun_induction Framer.cut framer hopening began found inside rest with
  | case1 began found rest hend =>
      have hresponse : (if began then FrameEvent.begin else .middle).response? = none := by
        cases began <;> rfl
      dsimp only
      rw [responses, List.filterMap_cons_none hresponse, responses]
  | case2 began found rest stop hend found' =>
      have hbounds := endOf?_bounds (hstarts rfl) hend
      have hfound : responses found' = Text.lossy (rest.take stop) :: responses found := rfl
      dsimp only
      rw [hfound, List.length_cons, Nat.succ_mul, List.length_nil]
      omega
  | case3 began found rest stop hend found' =>
      rename_i ih
      have hbounds := endOf?_bounds (hstarts rfl) hend
      have hrest := ih fun hinside => absurd hinside Bool.false_ne_true
      have hfound : responses found' = Text.lossy (rest.take stop) :: responses found := rfl
      rw [hfound, List.length_cons, Nat.succ_mul, List.length_drop] at hrest
      omega
  | case4 began found inside rest hinside start hfind _ ih =>
      have hrest := ih fun _ => (findFirst?_eq_some_iff.mp hfind).occurs
      rw [List.length_drop] at hrest
      omega
  | case5 began found inside rest hinside hfind skipped =>
      have hresponses : responses (if skipped.isEmpty then found
          else .skip (Text.lossy skipped) :: found) = responses found := by
        split
        · rfl
        · exact List.filterMap_cons_none rfl
      dsimp only
      rw [hresponses, List.length_drop]
      omega

theorem push_consumes (hstarts : (framer.work chunk).Starts framer.opening) :
    (responses (framer.push chunk).2).length * framer.opening.length +
      (framer.push chunk).1.buffer.length ≤ (framer.buffer ++ chunk).length := by
  by_cases hopening : framer.opening = []
  · simp [push, hopening]
  · have hcut := cut_consumes hopening false [] _ _ hstarts
    rw [push, dif_neg hopening]
    simpa [responses, work] using hcut

end Framer
end Link
end Uplink
