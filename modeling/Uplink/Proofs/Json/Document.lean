import Mathlib.Tactic.ByContra
import Uplink.Json.Parser
import Uplink.Proofs.Json.Literal
import Uplink.Proofs.Json.Numeral

/-!
# A document read back

A value is written as a row of characters and read as a row of tokens.  Both rows are given here by
recursion on the value, so that cutting and parsing are separate matters: the characters are cut
into the tokens, and the tokens lead the parser to the value.

Floating-point numbers are written with all their digits and read with a rounding of their own;
values with such a number are left out, and so are whole numbers of more than 64 bits.
-/

namespace Uplink
namespace Json

/-- A value that is written without loss. -/
inductive Plain : Json → Prop where
  | null : Plain null
  | bool (b : Bool) : Plain (bool b)
  | int {n : ℤ} : -(UInt64.size : ℤ) ≤ 2 * n → n < UInt64.size → Plain (number (.int n))
  | string (s : String) : Plain (string s)
  | array {items : List Json} : (∀ item ∈ items, Plain item) → Plain (array items)
  | object {members : List (String × Json)} :
      (∀ member ∈ members, Plain member.2) → Plain (object members)

/-! ## What is written -/

/-- The characters of a string. -/
def spelledString (s : String) : List Char :=
  '"' :: (s.toList.flatMap escape ++ ['"'])

mutual

/-- The characters of a value. -/
def spelled : Json → List Char
  | null => "null".toList
  | bool true => "true".toList
  | bool false => "false".toList
  | number n => n.text.toList
  | string s => spelledString s
  | array [] => ['[', ']']
  | array (item :: items) => '[' :: (spelled item ++ spelledItems items)
  | object [] => ['\x7b', '\x7d']
  | object (member :: members) => '\x7b' :: (spelledMember member ++ spelledMembers members)
  | void => "null".toList

/-- The characters after the first item of an array. -/
def spelledItems : List Json → List Char
  | [] => [']']
  | item :: items => ',' :: (spelled item ++ spelledItems items)

/-- The characters of a key and its value. -/
def spelledMember : String × Json → List Char
  | (key, value) => spelledString key ++ ':' :: spelled value

/-- The characters after the first member of an object. -/
def spelledMembers : List (String × Json) → List Char
  | [] => ['\x7d']
  | member :: members => ',' :: (spelledMember member ++ spelledMembers members)

end

theorem toList_foldl_push (cs : List Char) (out : String) :
    (cs.foldl String.push out).toList = out.toList ++ cs := by
  induction cs generalizing out with
  | nil => simp
  | cons c cs ih => simp [ih]

theorem toList_writeString (out s : String) :
    (writeString out s).toList = out.toList ++ spelledString s := by
  have hbody : ∀ (cs : List Char) (out : String),
      (cs.foldl (fun out c => (escape c).foldl String.push out) out).toList =
        out.toList ++ cs.flatMap escape := by
    intro cs
    induction cs with
    | nil => simp
    | cons c cs ih =>
        intro out
        rw [List.foldl_cons, ih, toList_foldl_push]
        simp
  simp [writeString, spelledString, hbody]

mutual

/-- Writing adds the characters of the value. -/
theorem toList_write (out : String) : ∀ json : Json,
    (write out json).toList = out.toList ++ spelled json
  | null => by simp [write, spelled]
  | bool true => by simp [write, spelled]
  | bool false => by simp [write, spelled]
  | number n => by simp [write, spelled]
  | string s => toList_writeString out s
  | array [] => by simp [write, spelled]
  | array (item :: items) => by
      rw [write, toList_writeItems, toList_write, spelled]
      simp
  | object [] => by simp [write, spelled]
  | object (member :: members) => by
      rw [write, toList_writeMembers, toList_writeMember, spelled]
      simp
  | void => by simp [write, spelled]

theorem toList_writeItems (out : String) : ∀ items : List Json,
    ((writeItems out items).push ']').toList = out.toList ++ spelledItems items
  | [] => by simp [writeItems, spelledItems]
  | item :: items => by
      rw [writeItems, toList_writeItems, toList_write, spelledItems]
      simp

theorem toList_writeMember (out : String) : ∀ member : String × Json,
    (writeMember out member).toList = out.toList ++ spelledMember member
  | (key, value) => by
      rw [writeMember, toList_write, spelledMember]
      simp [toList_writeString]

theorem toList_writeMembers (out : String) : ∀ members : List (String × Json),
    ((writeMembers out members).push '\x7d').toList = out.toList ++ spelledMembers members
  | [] => by simp [writeMembers, spelledMembers]
  | member :: members => by
      rw [writeMembers, toList_writeMembers, toList_writeMember, spelledMembers]
      simp

end

theorem toList_render (json : Json) : json.render.toList = spelled json := by
  simp [render, toList_write]

/-! ## What is read -/

mutual

/-- The tokens of a value. -/
def tokens : Json → List Token
  | null => [.null]
  | bool b => [.bool b]
  | number n => [.number (some n)]
  | string s => [.string (some s)]
  | array [] => [.openArray, .closeArray]
  | array (item :: items) => .openArray :: (tokens item ++ itemTokens items)
  | object [] => [.openObject, .closeObject]
  | object (member :: members) => .openObject :: (memberTokens member ++ membersTokens members)
  | void => [.null]

/-- The tokens after the first item of an array. -/
def itemTokens : List Json → List Token
  | [] => [.closeArray]
  | item :: items => .comma :: (tokens item ++ itemTokens items)

/-- The tokens of a key and its value. -/
def memberTokens : String × Json → List Token
  | (key, value) => .string (some key) :: .colon :: tokens value

/-- The tokens after the first member of an object. -/
def membersTokens : List (String × Json) → List Token
  | [] => [.closeObject]
  | member :: members => .comma :: (memberTokens member ++ membersTokens members)

end

namespace Token

open Numeral (Ends ends_nil ends_cons)

/-- The characters are cut into the tokens, whatever follows that does not continue a numeral. -/
def Cuts (cs : List Char) (tokens : List Token) : Prop :=
  ∀ found rest, Ends rest → scan found (cs ++ rest) = scan (tokens.reverse ++ found) rest

theorem scan_of_next? {c : Char} {cs rest : List Char} {token : Token} (hspace : isSpace c = false)
    (hnext : next? (c :: cs) = some (token, rest)) (found : List Token) :
    scan found (c :: cs) = scan (token :: found) rest := by
  rw [scan, hspace]
  simp only [Bool.false_eq_true, if_false]
  split
  · rename_i hnone
    rw [hnext] at hnone
    cases hnone
  · rename_i token' rest' hsome
    rw [hnext] at hsome
    cases hsome
    rfl

/-- A mark is one of six characters. -/
theorem eq_of_mark? {c : Char} {token : Token} (h : mark? c = some token) :
    c = '[' ∨ c = ']' ∨ c = '\x7b' ∨ c = '\x7d' ∨ c = ',' ∨ c = ':' := by
  by_contra hnot
  simp only [not_or] at hnot
  simp [mark?, hnot] at h

theorem ends_of_mark? {c : Char} {token : Token} (h : mark? c = some token) (rest : List Char) :
    Ends (c :: rest) := by
  refine ends_cons ?_ rest
  rcases eq_of_mark? h with rfl | rfl | rfl | rfl | rfl | rfl <;> decide

/-- A mark is cut off by itself. -/
theorem scan_mark {c : Char} {token : Token} (h : mark? c = some token) (found : List Token)
    (rest : List Char) : scan found (c :: rest) = scan (token :: found) rest := by
  have hnext : next? (c :: rest) = some (token, rest) := by
    rcases eq_of_mark? h with rfl | rfl | rfl | rfl | rfl | rfl <;> simp [next?, h]
  have hspace : isSpace c = false := by
    rcases eq_of_mark? h with rfl | rfl | rfl | rfl | rfl | rfl <;> decide
  exact scan_of_next? hspace hnext found

/-- A character that starts a numeral starts nothing else. -/
theorem next?_numeral {c : Char} (h : c.isDigit = true ∨ c = '-') (rest : List Char) :
    next? (c :: rest) =
      (Numeral.read? (c :: rest)).map fun found => (number found.1.number?, found.2) := by
  have hletter : c ≠ 'n' ∧ c ≠ 't' ∧ c ≠ 'f' ∧ c ≠ '"' := by
    refine ⟨?_, ?_, ?_, ?_⟩ <;>
    · rintro rfl
      revert h
      decide
  have hmark : mark? c = none := by
    cases hmark : mark? c with
    | none => rfl
    | some token =>
        rcases eq_of_mark? hmark with rfl | rfl | rfl | rfl | rfl | rfl <;> exact absurd h (by decide)
  simp [next?, hletter, hmark]

theorem isSpace_numeral {c : Char} (h : c.isDigit = true ∨ c = '-') : isSpace c = false := by
  simp only [isSpace, Bool.or_eq_false_iff, decide_eq_false_iff_not]
  refine ⟨⟨⟨?_, ?_⟩, ?_⟩, ?_⟩ <;>
  · rintro rfl
    revert h
    decide

theorem cuts_null : Cuts "null".toList [.null] := by
  intro found rest _
  exact scan_of_next? (by decide) rfl found

theorem cuts_bool (b : Bool) : Cuts (spelled (.bool b)) [.bool b] := by
  intro found rest _
  cases b with
  | true => exact scan_of_next? (by decide) rfl found
  | false => exact scan_of_next? (by decide) rfl found

theorem cuts_string (s : String) : Cuts (spelledString s) [.string (some s)] := by
  intro found rest _
  refine scan_of_next? (by decide) ?_ found
  simp only [List.append_eq, List.append_assoc, List.singleton_append, next?,
    Literal.read_flatMap_escape, Option.map_some, List.reverse_nil, List.nil_append,
    Literal.text?_map_elementOf]

theorem cuts_int {n : ℤ} (hlow : -(UInt64.size : ℤ) ≤ 2 * n) (hhigh : n < UInt64.size) :
    Cuts (spelled (.number (.int n))) [.number (some (.int n))] := by
  intro found rest hends
  obtain ⟨c, tail, hdigits, hfirst⟩ := Numeral.head_toString n
  have hread := Numeral.read?_toString n hends
  rw [hdigits, List.cons_append] at hread
  have hspelled : spelled (.number (.int n)) = c :: tail := by
    rw [spelled, Number.text, hdigits]
  rw [hspelled, List.cons_append]
  refine scan_of_next? (isSpace_numeral hfirst) ?_ found
  rw [next?_numeral hfirst, hread, Option.map_some, Numeral.number?_ofInt hlow hhigh]

section

variable {c : Char} {cs cs' : List Char} {token : Token} {ts ts' : List Token}

theorem Cuts.mark_cons (hmark : mark? c = some token) (h : Cuts cs ts) :
    Cuts (c :: cs) (token :: ts) := by
  intro found rest hends
  rw [List.cons_append, scan_mark hmark, h (token :: found) rest hends]
  simp

theorem cuts_mark (hmark : mark? c = some token) : Cuts [c] [token] := by
  intro found rest _
  exact scan_mark hmark found rest

/-- Two parts may be joined where the second one starts with a mark. -/
theorem Cuts.append (h : Cuts cs ts) (hmark : mark? c = some token) (h' : Cuts (c :: cs') ts') :
    Cuts (cs ++ c :: cs') (ts ++ ts') := by
  intro found rest hends
  have hnext := h found (c :: (cs' ++ rest)) (ends_of_mark? hmark _)
  have hrest := h' (ts.reverse ++ found) rest hends
  rw [List.cons_append] at hrest
  rw [List.append_assoc, List.cons_append, hnext, hrest]
  simp

end

/-- The items are cut one by one, since a mark stands behind each of them. -/
theorem cuts_items {item : Json} {items : List Json} (hitem : Cuts (spelled item) (tokens item))
    (hitems : ∀ item ∈ items, Cuts (spelled item) (tokens item)) :
    Cuts (spelled item ++ spelledItems items) (tokens item ++ itemTokens items) := by
  induction items generalizing item with
  | nil =>
      rw [spelledItems, itemTokens]
      exact hitem.append rfl (cuts_mark rfl)
  | cons next items ih =>
      rw [spelledItems, itemTokens]
      have hrest := ih (hitems next List.mem_cons_self)
        (fun item h => hitems item (List.mem_cons_of_mem next h))
      exact hitem.append rfl (hrest.mark_cons rfl)

theorem cuts_member {member : String × Json} (h : Cuts (spelled member.2) (tokens member.2)) :
    Cuts (spelledMember member) (memberTokens member) := by
  rw [spelledMember, memberTokens]
  exact (cuts_string member.1).append rfl (h.mark_cons rfl)

theorem cuts_members {member : String × Json} {members : List (String × Json)}
    (hmember : Cuts (spelled member.2) (tokens member.2))
    (hmembers : ∀ member ∈ members, Cuts (spelled member.2) (tokens member.2)) :
    Cuts (spelledMember member ++ spelledMembers members)
      (memberTokens member ++ membersTokens members) := by
  induction members generalizing member with
  | nil =>
      rw [spelledMembers, membersTokens]
      exact (cuts_member hmember).append rfl (cuts_mark rfl)
  | cons next members ih =>
      rw [spelledMembers, membersTokens]
      have hrest := ih (hmembers next List.mem_cons_self)
        (fun member h => hmembers member (List.mem_cons_of_mem next h))
      exact (cuts_member hmember).append rfl (hrest.mark_cons rfl)

/-- The characters of a plain value are cut into its tokens. -/
theorem cuts_spelled {json : Json} (h : Plain json) : Cuts (spelled json) (tokens json) := by
  induction h with
  | null =>
      rw [spelled, tokens]
      exact cuts_null
  | bool b =>
      rw [tokens]
      exact cuts_bool b
  | int hlow hhigh =>
      rw [tokens]
      exact cuts_int hlow hhigh
  | string s =>
      rw [spelled, tokens]
      exact cuts_string s
  | @array items _ ih =>
      cases items with
      | nil =>
          rw [spelled, tokens]
          exact (cuts_mark rfl).mark_cons rfl
      | cons item items =>
          rw [spelled, tokens]
          have hrest := cuts_items (ih item List.mem_cons_self)
            (fun next h => ih next (List.mem_cons_of_mem item h))
          exact hrest.mark_cons rfl
  | @object members _ ih =>
      cases members with
      | nil =>
          rw [spelled, tokens]
          exact (cuts_mark rfl).mark_cons rfl
      | cons member members =>
          rw [spelled, tokens]
          have hrest := cuts_members (ih member List.mem_cons_self)
            (fun next h => ih next (List.mem_cons_of_mem member h))
          exact hrest.mark_cons rfl

/-- A plain value that was written is cut into its tokens. -/
theorem ofText?_render {json : Json} (h : Plain json) : ofText? json.render = some (tokens json) := by
  have hcut := cuts_spelled h [] [] ends_nil
  rw [List.append_nil, List.append_nil] at hcut
  rw [ofText?, toList_render, hcut, scan, List.reverse_reverse]

end Token

namespace Parser

/-- The tokens lead the parser from a state to another one. -/
def Leads (tokens : List Token) (before after : Parser) : Prop :=
  tokens.foldlM step before = some after

theorem Leads.cons {token : Token} {tokens : List Token} {before next after : Parser}
    (hstep : step before token = some next) (h : Leads tokens next after) :
    Leads (token :: tokens) before after := by
  rw [Leads, List.foldlM_cons, hstep]
  exact h

theorem Leads.append {ts ts' : List Token} {before next after : Parser}
    (h : Leads ts before next) (h' : Leads ts' next after) : Leads (ts ++ ts') before after := by
  rw [Leads, List.foldlM_append, h]
  exact h'

theorem leads_single {token : Token} {before after : Parser}
    (hstep : step before token = some after) : Leads [token] before after :=
  Leads.cons hstep rfl

/-- Where a value is expected, every token but the end of an array is taken for a value. -/
theorem step_beforeValue {token : Token} (h : token ≠ .closeArray) (orClose : Bool)
    (stack : List Frame) : step (beforeValue orClose stack) token = stepValue stack token := by
  unfold step
  split <;> simp_all

/-- The parser reads a value wherever one is expected. -/
def Read (json : Json) : Prop :=
  ∀ orClose stack, Leads (tokens json) (beforeValue orClose stack) (afterValue json stack)

/-- The remaining items are added to those that were read. -/
theorem leads_items {items : List Json} (h : ∀ item ∈ items, Read item) (item : Json)
    (found : List Json) (stack : List Frame) :
    Leads (itemTokens items) (afterValue item (.array found :: stack))
      (afterValue (array (found.reverse ++ item :: items)) stack) := by
  induction items generalizing item found with
  | nil =>
      rw [itemTokens]
      exact leads_single (by simp [step, stepAfter])
  | cons next items ih =>
      have hnext := h next List.mem_cons_self false (.array (item :: found) :: stack)
      have hrest := ih (fun other hmem => h other (List.mem_cons_of_mem next hmem)) next
        (item :: found)
      rw [List.reverse_cons, List.append_assoc] at hrest
      rw [itemTokens]
      exact Leads.cons rfl (hnext.append hrest)

theorem leads_member {member : String × Json} (h : Read member.2) (orClose : Bool)
    (members : Option (List (String × Json))) (stack : List Frame) :
    Leads (memberTokens member) (beforeKey orClose members stack)
      (afterValue member.2 (.object members (some member.1) :: stack)) := by
  rw [memberTokens]
  have hkey : step (beforeKey orClose members stack) (.string (some member.1)) =
      some (beforeColon (.object members (some member.1) :: stack)) := by
    cases orClose <;> rfl
  exact Leads.cons hkey (Leads.cons rfl (h false _))

/-- The remaining members are added to those that were read. -/
theorem leads_members {members : List (String × Json)} (h : ∀ member ∈ members, Read member.2)
    (member : String × Json) (found : List (String × Json)) (stack : List Frame) :
    Leads (membersTokens members)
      (afterValue member.2 (.object (some found) (some member.1) :: stack))
      (afterValue (object (found.reverse ++ member :: members)) stack) := by
  induction members generalizing member found with
  | nil =>
      rw [membersTokens]
      exact leads_single (by simp [step, stepAfter, addMember, objectOf])
  | cons next members ih =>
      have hnext := leads_member (h next List.mem_cons_self) false (some (member :: found))
        stack
      have hrest := ih (fun other hmem => h other (List.mem_cons_of_mem next hmem)) next
        (member :: found)
      rw [List.reverse_cons, List.append_assoc] at hrest
      rw [membersTokens]
      exact Leads.cons rfl (hnext.append hrest)

/-- The tokens of a plain value lead the parser over the value. -/
theorem read_of_plain {json : Json} (h : Plain json) : Read json := by
  induction h with
  | null | bool | int | string =>
      intro orClose stack
      rw [tokens]
      exact leads_single (step_beforeValue (by simp) orClose stack)
  | @array items _ ih =>
      intro orClose stack
      have hopen : step (beforeValue orClose stack) .openArray =
          some (beforeValue true (.array [] :: stack)) :=
        step_beforeValue (by simp) orClose stack
      cases items with
      | nil =>
          rw [tokens]
          exact Leads.cons hopen (leads_single rfl)
      | cons item items =>
          rw [tokens]
          have hitem := ih item List.mem_cons_self true (.array [] :: stack)
          have hitems := leads_items (fun next hmem => ih next (List.mem_cons_of_mem item hmem))
            item [] stack
          exact Leads.cons hopen (hitem.append hitems)
  | @object members _ ih =>
      intro orClose stack
      have hopen : step (beforeValue orClose stack) .openObject =
          some (beforeKey true (some []) stack) :=
        step_beforeValue (by simp) orClose stack
      -- as for arrays, with the key of the first member in front
      cases members with
      | nil =>
          rw [tokens]
          exact Leads.cons hopen (leads_single rfl)
      | cons member members =>
          rw [tokens]
          have hmember := leads_member (ih member List.mem_cons_self) true (some []) stack
          have hmembers := leads_members
            (fun next hmem => ih next (List.mem_cons_of_mem member hmem)) member [] stack
          exact Leads.cons hopen (hmember.append hmembers)

end Parser

/-- A plain value that was written is read back. -/
theorem parse?_render {json : Json} (h : Plain json) : parse? json.render = some json := by
  have hread := Parser.read_of_plain h false []
  rw [parse?, Token.ofText?_render h, Option.bind_some, ofTokens?, hread]
  rfl

end Json
end Uplink
