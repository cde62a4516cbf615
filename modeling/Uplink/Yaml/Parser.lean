import Uplink.Yaml.Node
import Uplink.Yaml.Scanner

/-!
# From tokens to a document

Each function reads one kind of node from a list of tokens, and yields the node and the tokens after
it.  Names are given to nodes where they start, so that a node can contain its own name.  Every
call is paid for with a unit of fuel; a text of `n` tokens needs at most four units for each of
them.
-/

namespace Uplink
namespace Yaml

/-- What is known when a token is read. -/
structure Parser where
  /-- The tokens that are not read yet. -/
  tokens : List Token
  /-- What the handles of tags stand for. -/
  handles : List (String × String) := []
  /-- The number of the node that has a name. -/
  names : List (String × Nat) := []
  /-- The nodes that have names. -/
  named : List (Nat × Node) := []
  deriving Inhabited

namespace Parser

/-- The next token. -/
def next? (p : Parser) : Option Token :=
  p.tokens.head?

/-- Pass over a token. -/
def skip (p : Parser) : Parser :=
  { p with tokens := p.tokens.tail }

/-- Whether the next token is one of some. -/
def sees (p : Parser) (tokens : List Token) : Bool :=
  p.next?.any tokens.contains

/-- What the handles of tags stand for if nothing else is said. -/
def defaultHandles : List (String × String) :=
  [("!", "!"), ("!!", "tag:yaml.org,2002:")]

/-- The meaning of a tag. -/
def meaning? (p : Parser) (tag : Tag) : Option String :=
  if tag.handle.isEmpty then some tag.suffix
  else ((p.handles ++ defaultHandles).lookup tag.handle).map (· ++ tag.suffix)

/-- The number of names. -/
def nameCount (p : Parser) : Nat :=
  (p.names.map Prod.fst).eraseDups.length

/-- Give a name to the node that starts here: the number of the node, if it has a name. -/
def register (p : Parser) (name : Option String) : Option Nat × Parser :=
  match name with
  | some name => (some p.nameCount, { p with names := (name, p.nameCount) :: p.names })
  | none => (none, p)

/-- Keep a node that has a name. -/
def keep (p : Parser) (id : Option Nat) (node : Node) : Node × Parser :=
  (node, { p with named := id.toList.map (fun id => (id, node)) ++ p.named })

/-- What may be said about a node before it. -/
structure Properties where
  /-- Its name. -/
  anchor : Option String := none
  /-- Its tag. -/
  tag : Option Tag := none

/-- Read a name and a tag, in any order, each at most once. -/
def properties (p : Parser) : Properties × Parser :=
  match p.tokens with
  | .anchor name :: .tag tag :: rest => (⟨some name, some tag⟩, { p with tokens := rest })
  | .tag tag :: .anchor name :: rest => (⟨some name, some tag⟩, { p with tokens := rest })
  | .anchor name :: rest => (⟨some name, none⟩, { p with tokens := rest })
  | .tag tag :: rest => (⟨none, some tag⟩, { p with tokens := rest })
  | _ => ({}, p)

/-- Nothing is written where a node is expected. -/
def nothing (p : Parser) : Node × Parser :=
  (.empty none, p)

mutual

/-- Read a node.  `inLines` says whether sequences and mappings in lines may start here, and `flat`
whether a sequence may start without a column of its own. -/
def node (inLines flat : Bool) : Nat → Parser → Option (Node × Parser)
  | 0, _ => none
  | fuel + 1, p =>
    match p.next? with
    | some (.alias name) => (p.names.lookup name).map fun id => (.alias id, p.skip)
    | _ => do
      let (properties, p) := p.properties
      let tag ← match properties.tag with
        | none => some none
        | some tag => (p.meaning? tag).map some
      let (id, p) := p.register properties.anchor
      let bare := properties.anchor.isNone && properties.tag.isNone
      let (node, p) ← content inLines flat bare tag fuel p
      return p.keep id node

/-- Read what comes after the properties of a node. -/
def content (inLines flat bare : Bool) (tag : Option String) : Nat → Parser → Option (Node × Parser)
  | 0, _ => none
  | fuel + 1, p =>
    match p.next? with
    | some .item =>
      if flat then (flatItems fuel p []).map fun (items, p) => (.sequence items, p)
      else if bare then none
      else some (.empty tag, p)
    | some (.scalar text style) => some (.scalar text style tag, p.skip)
    | some .openSequence =>
      (flowItems true fuel p.skip []).map fun (items, p) => (.sequence items, p)
    | some .openMapping =>
      (flowEntries true fuel p.skip []).map fun (entries, p) => (.mapping entries, p)
    | some .blockSequence =>
      if inLines then (blockItems fuel p.skip []).map fun (items, p) => (.sequence items, p)
      else if bare then none
      else some (.empty tag, p)
    | some .blockMapping =>
      if inLines then (blockEntries fuel p.skip []).map fun (entries, p) => (.mapping entries, p)
      else if bare then none
      else some (.empty tag, p)
    | _ => if bare then none else some (.empty tag, p)

/-- Read a node, or nothing if one of some tokens follows. -/
def nodeUnless (tokens : List Token) (inLines flat : Bool) : Nat → Parser → Option (Node × Parser)
  | 0, _ => none
  | fuel + 1, p => if p.sees tokens then some p.nothing else node inLines flat fuel p

/-- Read the items of a sequence in lines. -/
def blockItems : Nat → Parser → List Node → Option (List Node × Parser)
  | 0, _, _ => none
  | fuel + 1, p, items =>
    match p.next? with
    | some .item => do
      let (item, p) ← nodeUnless [.item, .blockEnd] true false fuel p.skip
      blockItems fuel p (item :: items)
    | some .blockEnd => some (items.reverse, p.skip)
    | _ => none

/-- Read the items of a sequence without a column of its own. -/
def flatItems : Nat → Parser → List Node → Option (List Node × Parser)
  | 0, _, _ => none
  | fuel + 1, p, items =>
    match p.next? with
    | some .item => do
      let (item, p) ← nodeUnless [.item, .key, .value, .blockEnd] true false fuel p.skip
      flatItems fuel p (item :: items)
    | _ => some (items.reverse, p)

/-- Read a value in lines, after its key. -/
def blockValue : Nat → Parser → Option (Node × Parser)
  | 0, _ => none
  | fuel + 1, p =>
    if p.sees [.value] then nodeUnless [.key, .value, .blockEnd] true true fuel p.skip
    else some p.nothing

/-- Read the entries of a mapping in lines. -/
def blockEntries : Nat → Parser → List (Node × Node) → Option (List (Node × Node) × Parser)
  | 0, _, _ => none
  | fuel + 1, p, entries =>
    match p.next? with
    | some .key => do
      let (key, p) ← nodeUnless [.key, .value, .blockEnd] true true fuel p.skip
      let (value, p) ← blockValue fuel p
      blockEntries fuel p ((key, value) :: entries)
    | some .blockEnd => some (entries.reverse, p.skip)
    | _ => none

/-- Read a mapping of one entry inside the brackets of a sequence. -/
def pair : Nat → Parser → Option (Node × Parser)
  | 0, _ => none
  | fuel + 1, p => do
    let (key, p) ←
      if p.next?.isNone || p.sees [.value, .comma, .closeSequence] then some (p.skip.nothing)
      else node false false fuel p
    let (value, p) ←
      if p.sees [.value] then nodeUnless [.comma, .closeSequence] false false fuel p.skip
      else some p.nothing
    return (.mapping [(key, value)], p)

/-- Read the items of a sequence in brackets. -/
def flowItems (first : Bool) : Nat → Parser → List Node → Option (List Node × Parser)
  | 0, _, _ => none
  | fuel + 1, p, items =>
    if p.sees [.closeSequence] then some (items.reverse, p.skip)
    else if !first && !p.sees [.comma] then none
    else
      let p := if first then p else p.skip
      if p.sees [.closeSequence] then some (items.reverse, p.skip)
      else do
        let (item, p) ← if p.sees [.key] then pair fuel p.skip else node false false fuel p
        flowItems false fuel p (item :: items)

/-- Read the entries of a mapping in braces. -/
def flowEntries (first : Bool) :
    Nat → Parser → List (Node × Node) → Option (List (Node × Node) × Parser)
  | 0, _, _ => none
  | fuel + 1, p, entries =>
    if p.sees [.closeMapping] then some (entries.reverse, p.skip)
    else if !first && !p.sees [.comma] then none
    else
      let p := if first then p else p.skip
      if p.sees [.closeMapping] then some (entries.reverse, p.skip)
      else if p.sees [.key] then do
        let (key, p) ← nodeUnless [.value, .comma, .closeMapping] false false fuel p.skip
        let (value, p) ←
          if p.sees [.value] then nodeUnless [.comma, .closeMapping] false false fuel p.skip
          else some p.nothing
        flowEntries false fuel p ((key, value) :: entries)
      else do
        let (key, p) ← node false false fuel p
        flowEntries false fuel p ((key, .empty none) :: entries)

end

/-! ## Documents -/

/-- Read the directives before a document. -/
def directives (versioned : Bool) (handles : List (String × String)) :
    List Token → Option (List (String × String) × Bool × List Token)
  | .version major minor :: rest =>
    if versioned || major ≠ 1 || (minor ≠ 1 && minor ≠ 2) then none
    else directives true handles rest
  | .handle name meaning :: rest =>
    if (handles.lookup name).isSome then none
    else directives versioned ((name, meaning) :: handles) rest
  | tokens => some (handles, versioned, tokens)

/-- Read the content of a document, or nothing where the document ends at once. -/
def documentContent (p : Parser) : Option (Node × Parser) :=
  match p.next? with
  | none => some p.nothing
  | some (.version ..) | some (.handle ..) => some p.nothing
  | some .documentStart | some .documentEnd => some p.nothing
  | some _ => node true false (4 * p.tokens.length + 4) p

/-- Read a document.  Only a document without directives may lack the mark before it. -/
def document (tokens : List Token) : Option (Node × Parser) :=
  match directives false [] tokens with
  | none => none
  | some (handles, versioned, rest) =>
    match rest with
    | .documentStart :: rest => documentContent { tokens := rest, handles }
    | _ =>
      if versioned || !handles.isEmpty then none
      else node true false (4 * rest.length + 4) { tokens := rest }

/-- Whether nothing but marks that end a document follows. -/
def isFinished (p : Parser) : Bool :=
  p.tokens.all fun token => token = .documentEnd

end Parser

/-- The document in a text, which may be empty, and must be the only one. -/
def parse? (text : String) : Option Value := do
  let tokens ← tokens? text
  if tokens.isEmpty then return { node := .empty none }
  else
    let (node, p) ← Parser.document tokens
    if p.isFinished then return { node, named := p.named } else none

end Yaml
end Uplink
