import Mathlib.Data.List.Forall2
import Mathlib.Data.List.Infix
import Uplink.Proofs.Link.Mail

/-!
# What a stream takes

Letters wait behind each other, so of all that are not over only the first may have been written in
part.  Whatever the order of things, what a stream has taken are the written parts of its letters, one
letter after another, and the letters are those of the commands that were admitted on the connection.
-/

namespace Uplink
namespace Link

namespace Letter

variable {letter letter' : Letter} {before after letters : List Letter} {label : Desk.Label}
  {stage : Letter.Stage}

/-- Nothing of the letter was ever written, and it is not being written. -/
def Untouched (letter : Letter) : Prop :=
  letter.put = [] ∧ (letter.stage = .queued ∨ letter.stage = .broken)

/-- While a letter is not over, a later one is untouched. -/
def InTurn (earlier later : Letter) : Prop :=
  earlier.IsOpen → later.Untouched

/-- How much of a letter is written, by its stage. -/
structure Sound (letter : Letter) : Prop where
  part : letter.put <+: letter.text
  queued : letter.stage = .queued → letter.put = []
  written : letter.stage = .written → letter.put = letter.text

theorem not_untouched_of_writing (h : letter.stage = .writing) : ¬ letter.Untouched := by
  simp [Untouched, h]

theorem written_of_over (hover : ¬ letter.IsOpen) (hunbroken : letter.stage ≠ .broken) :
    letter.stage = .written := by
  cases hstage : letter.stage with
  | queued => exact absurd (.inl hstage) hover
  | writing => exact absurd (.inr hstage) hover
  | written => rfl
  | broken => exact absurd hstage hunbroken

/-- Whoever has the writer comes after letters that are over. -/
theorem first_of_writing (horder : (before ++ letter :: after).Pairwise InTurn)
    (hwriting : letter.stage = .writing) : ∀ other ∈ before, ¬ other.IsOpen := by
  intro other hother hopen
  have hturn := (List.pairwise_append.mp horder).2.2 other hother letter List.mem_cons_self
  exact not_untouched_of_writing hwriting (hturn hopen)

theorem Turn.first (h : Turn before letter label stage)
    (horder : (before ++ letter :: after).Pairwise InTurn) : ∀ other ∈ before, ¬ other.IsOpen := by
  cases h with
  | take first => exact first
  | written writing => exact first_of_writing horder writing
  | failed writing => exact first_of_writing horder writing

theorem Turn.isOpen (h : Turn before letter label stage) : letter.IsOpen := by
  cases h with
  | take _ queued => exact .inl queued
  | written writing => exact .inr writing
  | failed writing => exact .inr writing

theorem forall_mem_replace {P : Letter → Prop} (h : ∀ other ∈ before ++ letter :: after, P other)
    (hletter : P letter') : ∀ other ∈ before ++ letter' :: after, P other := by
  obtain ⟨hbefore, hcons⟩ := List.forall_mem_append.mp h
  exact List.forall_mem_append.mpr
    ⟨hbefore, List.forall_mem_cons.mpr ⟨hletter, (List.forall_mem_cons.mp hcons).2⟩⟩

/-- The first letter that is not over may change in any way. -/
theorem pairwise_replace (horder : (before ++ letter :: after).Pairwise InTurn)
    (hfirst : ∀ other ∈ before, ¬ other.IsOpen) (hopen : letter.IsOpen) :
    (before ++ letter' :: after).Pairwise InTurn := by
  obtain ⟨hbefore, hcons, -⟩ := List.pairwise_append.mp horder
  obtain ⟨hafter, hrest⟩ := List.pairwise_cons.mp hcons
  refine List.pairwise_append.mpr ⟨hbefore, List.pairwise_cons.mpr ⟨?_, hrest⟩, ?_⟩
  · exact fun other hother _ => hafter other hother hopen
  · exact fun other hother _ _ hbefore => absurd hbefore (hfirst other hother)

/-- Nothing is written of the letters after one that is not over. -/
theorem put_after (horder : (before ++ letter :: after).Pairwise InTurn) (hopen : letter.IsOpen) :
    (after.map put).flatten = [] := by
  obtain ⟨-, hcons, -⟩ := List.pairwise_append.mp horder
  obtain ⟨hafter, -⟩ := List.pairwise_cons.mp hcons
  refine List.flatten_eq_nil_iff.mpr fun bytes hbytes => ?_
  obtain ⟨other, hother, rfl⟩ := List.mem_map.mp hbytes
  exact (hafter other hother hopen).1

theorem Sound.breakOff (h : letter.Sound) : letter.breakOff.Sound where
  part := by simpa using h.part
  queued hqueued := absurd (.inl hqueued) letter.not_isOpen_breakOff
  written hwritten := by
    rcases letter.stage_breakOff with hstage | ⟨-, hstage⟩
    · simpa using h.written (hstage.symm.trans hwritten)
    · cases hstage.symm.trans hwritten

theorem Untouched.breakOff (h : letter.Untouched) : letter.breakOff.Untouched := by
  refine ⟨by simpa using h.1, ?_⟩
  rcases letter.stage_breakOff with hstage | ⟨-, hstage⟩
  · rw [hstage]
    exact h.2
  · exact .inr hstage

end Letter

/-- What a stream has taken, in terms of its letters. -/
structure Filed (letters : List Letter) (received : List UInt8) : Prop where
  received : received = (letters.map Letter.put).flatten
  sound : ∀ letter ∈ letters, letter.Sound
  order : letters.Pairwise Letter.InTurn

namespace Filed

variable {letter letter' : Letter} {before after letters : List Letter}
  {received piece : List UInt8}

theorem nil : Filed [] [] :=
  ⟨rfl, by simp, List.Pairwise.nil⟩

/-- A new letter waits behind all others. -/
theorem concat (h : Filed letters received) (hput : letter.put = [])
    (hqueued : letter.stage = .queued) : Filed (letters ++ [letter]) received where
  received := by
    rw [h.received]
    simp [hput]
  sound other hother := by
    rcases List.mem_append.mp hother with hother | hother
    · exact h.sound other hother
    · cases List.mem_singleton.mp hother
      exact ⟨hput ▸ List.nil_prefix, fun _ => hput, fun hwritten => by simp [hqueued] at hwritten⟩
  order := by
    refine List.pairwise_append.mpr ⟨h.order, List.pairwise_singleton _ _, ?_⟩
    intro earlier _ later hlater _
    cases List.mem_singleton.mp hlater
    exact ⟨hput, .inl hqueued⟩

/-- The first letter that is not over goes on, perhaps with another piece. -/
theorem replace (h : Filed (before ++ letter :: after) received)
    (hfirst : ∀ other ∈ before, ¬ other.IsOpen) (hopen : letter.IsOpen) (hsound : letter'.Sound)
    (hput : letter'.put = letter.put ++ piece) :
    Filed (before ++ letter' :: after) (received ++ piece) where
  received := by
    have hafter := Letter.put_after h.order hopen
    rw [h.received]
    simp [hput, hafter]
  sound := Letter.forall_mem_replace h.sound hsound
  order := Letter.pairwise_replace h.order hfirst hopen

theorem turn {label : Desk.Label} {stage : Letter.Stage}
    (h : Filed (before ++ letter :: after) received) (hturn : letter.Turn before label stage) :
    Filed (before ++ { letter with stage } :: after) received := by
  have hletter : letter.Sound := h.sound letter (by simp)
  have hsound : Letter.Sound { letter with stage } := by
    cases hturn with
    | take => exact ⟨hletter.part, by simp, by simp⟩
    | written _ whole => exact ⟨hletter.part, by simp, fun _ => whole⟩
    | failed => exact ⟨hletter.part, by simp, by simp⟩
  have hnext := h.replace (hturn.first h.order) hturn.isOpen hsound
    (show _ = letter.put ++ [] from (List.append_nil _).symm)
  rwa [List.append_nil] at hnext

theorem breakOff (h : Filed letters received) (id : ℕ) :
    Filed (letters.map fun letter => if letter.id = id then letter.breakOff else letter)
      received where
  received := by
    rw [h.received, List.map_map]
    congr 1
    refine List.map_congr_left fun letter _ => ?_
    simp only [Function.comp_apply]
    split <;> simp
  sound other hother := by
    obtain ⟨letter, hletter, rfl⟩ := List.mem_map.mp hother
    split
    · exact (h.sound letter hletter).breakOff
    · exact h.sound letter hletter
  order := by
    refine h.order.map _ fun earlier later hturn hopen => ?_
    have hlater : later.Untouched := by
      refine hturn ?_
      split at hopen
      · exact absurd hopen earlier.not_isOpen_breakOff
      · exact hopen
    split
    · exact hlater.breakOff
    · exact hlater

/-- Of each letter a stream has taken a beginning. -/
theorem exists_parts (h : Filed letters received) :
    ∃ parts, List.Forall₂ (· <+: ·) parts (letters.map Letter.text) ∧ received = parts.flatten := by
  refine ⟨letters.map Letter.put, ?_, h.received⟩
  rw [List.forall₂_map_left_iff, List.forall₂_map_right_iff, List.forall₂_same]
  exact fun letter hletter => (h.sound letter hletter).part

/-- While nothing breaks, a stream has taken a beginning of all its letters, one after another. -/
theorem received_prefix (h : Filed letters received)
    (hunbroken : ∀ letter ∈ letters, letter.stage ≠ .broken) :
    received <+: (letters.map Letter.text).flatten := by
  obtain ⟨rfl, hsound, horder⟩ := h
  induction letters with
  | nil => exact List.nil_prefix
  | cons letter letters ih =>
      obtain ⟨hletter, hletters⟩ := List.forall_mem_cons.mp hsound
      obtain ⟨hstage, hstages⟩ := List.forall_mem_cons.mp hunbroken
      rw [List.map_cons, List.map_cons, List.flatten_cons, List.flatten_cons]
      by_cases hopen : letter.IsOpen
      · -- nothing is written of the letters behind
        have horder' : ([] ++ letter :: letters).Pairwise Letter.InTurn := horder
        rw [Letter.put_after horder' hopen, List.append_nil]
        exact hletter.part.trans (List.prefix_append _ _)
      · rw [hletter.written (Letter.written_of_over hopen hstage), List.prefix_append_right_inj]
        exact ih hstages hletters (List.pairwise_cons.mp horder).2

/-- When all are over and nothing is broken, it has taken them all. -/
theorem received_eq (h : Filed letters received)
    (hunbroken : ∀ letter ∈ letters, letter.stage ≠ .broken)
    (hover : ∀ letter ∈ letters, ¬ letter.IsOpen) :
    received = (letters.map Letter.text).flatten := by
  rw [h.received]
  congr 1
  refine List.map_congr_left fun letter hletter => (h.sound letter hletter).written ?_
  exact Letter.written_of_over (hover letter hletter) (hunbroken letter hletter)

end Filed

namespace Mail

/-! ## What was admitted on a connection -/

/-- A connection is opened. -/
def Moment.opens (moment : Moment) : Bool :=
  match moment.label with
  | .desk (.watcher (.move (.acquired _))) => true
  | _ => false

/-- The command that takes the place at a moment. -/
def Moment.admitted? (moment : Moment) : Option String :=
  match moment.label with
  | .desk (.submit command) => if moment.mail.Accepts then some command else none
  | _ => none

/-- The write of a letter breaks off: it fails, or its submitter gives up before it is over. -/
def Moment.Breaks (moment : Moment) (id : ℕ) : Prop :=
  (∃ failure, moment.label = .desk (.failed id failure)) ∨
    moment.label = .desk (.abandon id) ∧
      ∃ letter ∈ moment.mail.letters, letter.id = id ∧ letter.IsOpen

/-- The moments since the last connection was opened. -/
def connection (moments : List Moment) : List Moment :=
  moments.foldl (fun since moment => if moment.opens then [] else since ++ [moment]) []

/-- The commands that were admitted on the last connection, in this order. -/
def admitted (moments : List Moment) : List String :=
  (connection moments).filterMap Moment.admitted?

section

variable {m next : Mail} {label : Label} {moments : List Moment} {moment : Moment}

theorem connection_concat : connection (moments ++ [moment]) =
    if moment.opens then [] else connection moments ++ [moment] := by
  simp only [connection, List.foldl_append, List.foldl_cons, List.foldl_nil]

theorem Step.filed (h : Step m label next) (hfiled : Filed m.letters m.received) :
    Filed next.letters next.received := by
  cases h with
  | submit command =>
      unfold Mail.submit
      dsimp only
      split
      · exact hfiled.concat rfl rfl
      · exact hfiled
  | turn letters turn _ =>
      rw [letters] at hfiled
      exact hfiled.turn turn
  | put letters writing part _ =>
      rw [letters] at hfiled
      refine hfiled.replace (Letter.first_of_writing hfiled.order writing) (.inr writing) ?_ rfl
      exact ⟨part, by simp [writing], by simp [writing]⟩
  | abandon _ => exact hfiled.breakOff _
  | look | transport | aside => exact hfiled
  | acquired => exact .nil

theorem admitted_concat : admitted (moments ++ [moment]) =
    if moment.opens then [] else admitted moments ++ moment.admitted?.toList := by
  unfold admitted
  rw [connection_concat]
  split
  · rfl
  · rw [List.filterMap_append]
    cases hadmitted : moment.admitted? with
    | none => simp [hadmitted]
    | some command => simp [hadmitted]

/-- Nothing is admitted and no connection is opened. -/
theorem admitted_of_quiet (hopens : moment.opens = false) (hadmitted : moment.admitted? = none) :
    admitted (moments ++ [moment]) = admitted moments := by
  simp [admitted_concat, hopens, hadmitted]

theorem opens_of_aside {label : Desk.Label} (h : label.Aside) :
    (Moment.mk m (.desk label)).opens = false := by
  unfold Moment.opens
  split
  · rename_i hlabel
    cases hlabel
    exact absurd h id
  · rfl

theorem admitted?_of_aside {label : Desk.Label} (h : label.Aside) :
    (Moment.mk m (.desk label)).admitted? = none := by
  unfold Moment.admitted?
  split
  · rename_i hlabel
    cases hlabel
    exact absurd h id
  · rfl

/-- The letters are those of the commands that were admitted. -/
theorem Step.texts {framing : Framing} (h : Step m label next)
    (hframing : m.desk.exchange.framing = framing)
    (htexts : m.letters.map Letter.text =
      (admitted moments).map fun command => Text.utf8 (framing.wrap command)) :
    next.letters.map Letter.text =
      (admitted (moments ++ [⟨m, label⟩])).map fun command => Text.utf8 (framing.wrap command) := by
  cases h with
  | submit command =>
      rw [admitted_concat]
      by_cases haccepts : m.Accepts
      · simp [Mail.submit, Moment.opens, Moment.admitted?, haccepts, htexts, Mail.letter, hframing]
      · simp [Mail.submit, Moment.opens, Moment.admitted?, haccepts, htexts]
  | turn letters turn _ =>
      rw [letters] at htexts
      cases turn with
      | _ =>
        rw [admitted_of_quiet rfl rfl, ← htexts]
        simp
  | put letters _ _ _ =>
      rw [admitted_of_quiet rfl rfl, ← htexts, letters]
      simp
  | @abandon id _ =>
      have hbroken : (m.abandon id).letters.map Letter.text = m.letters.map Letter.text := by
        simp only [Mail.abandon, List.map_map]
        refine List.map_congr_left fun letter _ => ?_
        simp only [Function.comp_apply]
        split <;> simp
      rw [admitted_of_quiet rfl rfl, ← htexts, hbroken]
  | look | transport =>
      rw [admitted_of_quiet rfl rfl]
      exact htexts
  | aside _ aside =>
      rw [admitted_of_quiet (opens_of_aside aside) (admitted?_of_aside aside)]
      exact htexts
  | acquired => rw [admitted_concat, Moment.opens]; rfl

/-- The letters of a new connection are still to come. -/
theorem Step.letters_of_opens (h : Step m label next) (hopens : (Moment.mk m label).opens = true) :
    next.letters = [] := by
  cases h with
  | acquired => rfl
  | turn _ turn _ => cases turn <;> cases hopens
  | aside _ aside => cases (opens_of_aside aside).symm.trans hopens
  | _ => cases hopens

/-- A letter is broken where its write breaks off. -/
theorem Step.unbroken (h : Step m label next) (hbreaks : ∀ id, ¬ (Moment.mk m label).Breaks id)
    (hunbroken : ∀ letter ∈ m.letters, letter.stage ≠ .broken) :
    ∀ letter ∈ next.letters, letter.stage ≠ .broken := by
  cases h with
  | submit command =>
      intro letter hletter
      simp only [Mail.submit] at hletter
      split at hletter
      · rcases List.mem_append.mp hletter with hletter | hletter
        · exact hunbroken letter hletter
        · cases List.mem_singleton.mp hletter
          simp [Mail.letter]
      · exact hunbroken letter hletter
  | @turn before after letter stage label _ letters turn _ =>
      have hstage : stage ≠ .broken := by
        cases turn with
        | take | written => simp
        | failed => exact absurd (.inl ⟨_, rfl⟩) (hbreaks letter.id)
      rw [letters] at hunbroken
      exact Letter.forall_mem_replace hunbroken hstage
  | put letters writing _ _ =>
      rw [letters] at hunbroken
      exact Letter.forall_mem_replace hunbroken (by simp [writing])
  | @abandon id _ =>
      intro other hother
      obtain ⟨letter, hletter, rfl⟩ := List.mem_map.mp hother
      split
      · rename_i hid
        rcases letter.stage_breakOff with hstage | ⟨hopen, -⟩
        · rw [hstage]
          exact hunbroken letter hletter
        · exact absurd (.inr ⟨rfl, letter, hletter, hid, hopen⟩) (hbreaks id)
      · exact hunbroken letter hletter
  | look | transport | aside => exact hunbroken
  | acquired => simp

/-- The peer of a pipe gets what the stream has taken. -/
theorem Step.carries (h : Step m label next) (hcarries : m.transport.Carries m.looked m.received) :
    next.transport.Carries next.looked next.received := by
  cases h with
  | submit command => exact (Desk.Step.submit m.desk command).carries (by simp) (by simp) hcarries
  | turn _ turn step =>
      cases turn with
      | _ => exact step.carries (by simp) (by simp) hcarries
  | put _ _ _ write => exact hcarries.of_write write
  | abandon underway => exact (Desk.Step.abandon underway).carries (by simp) (by simp) hcarries
  | look => exact hcarries.takeSent
  | transport stirred => exact hcarries.of_stirred stirred
  | aside step aside =>
      refine step.carries ?_ ?_ hcarries
      · rintro rfl
        exact aside
      · rintro run rfl
        exact aside
  | acquired step _ => exact step.carries_of_acquired

end

/-! ## Runs -/

/-- The writes on the last connection went well: none failed, and no submitter gave up before its write
was over. -/
def Unbroken (moments : List Moment) : Prop :=
  ∀ moment ∈ connection moments, ∀ id, ¬ moment.Breaks id

/-- What a run leaves of the letters of its last connection. -/
structure Posted (framing : Framing) (moments : List Moment) (m : Mail) : Prop where
  texts : m.letters.map Letter.text =
    (admitted moments).map fun command => Text.utf8 (framing.wrap command)
  filed : Filed m.letters m.received
  unbroken : Unbroken moments → ∀ letter ∈ m.letters, letter.stage ≠ .broken
  carries : m.transport.Carries m.looked m.received

section

variable {first last : Mail} {framing : Framing} {moments : List Moment}

theorem Run.unbroken (hletters : first.letters = []) (hrun : Run first moments last)
    (hunbroken : Unbroken moments) : ∀ letter ∈ last.letters, letter.stage ≠ .broken := by
  induction hrun with
  | nil => simp [hletters]
  | @snoc last next moments label _ hstep ih =>
      unfold Unbroken at hunbroken
      rw [connection_concat] at hunbroken
      cases hopens : (Moment.mk last label).opens with
      | true => simp [hstep.letters_of_opens hopens]
      | false =>
          rw [hopens] at hunbroken
          obtain ⟨hbefore, hnow⟩ := List.forall_mem_append.mp hunbroken
          exact hstep.unbroken (hnow _ List.mem_cons_self) (ih hbefore)

theorem Run.texts (hfresh : Fresh framing first) (hrun : Run first moments last) :
    last.letters.map Letter.text =
      (admitted moments).map fun command => Text.utf8 (framing.decoded.wrap command) := by
  induction hrun with
  | nil =>
      rw [hfresh.letters]
      rfl
  | snoc hrun hstep ih => exact hstep.texts (hrun.framing_eq.trans hfresh.framing) ih

theorem Run.posted (hfresh : Fresh framing first) (hrun : Run first moments last) :
    Posted framing.decoded moments last := by
  refine ⟨hrun.texts hfresh, ?_, hrun.unbroken hfresh.letters, ?_⟩
  · induction hrun with
    | nil =>
        rw [hfresh.letters, hfresh.received]
        exact .nil
    | snoc _ hstep ih => exact hstep.filed ih
  · induction hrun with
    | nil =>
        intro hstream
        rw [hfresh.stream] at hstream
        cases hstream
    | snoc _ hstep ih => exact hstep.carries ih

end

end Mail
end Link
end Uplink
