import PresetWorkspace.Yaml.Token

/-!
# Nodes

A YAML document as a tree. An alias keeps the number of the node that it stands
for, so a node may even hold an alias of itself. A value that is left out is an
empty plain scalar.
-/

namespace PresetWorkspace.Yaml

inductive Node where
  | scalar (tag : Option String) (plain : Bool) (text : String)
  | sequence (items : List Node)
  | mapping (entries : List (Node × Node))
  | alias (number : Nat)

def Node.empty : Node := .scalar none true ""

structure Document where
  root : Node
  anchored : List (Nat × Node)

def Document.resolve (doc : Document) : Node → Option Node
  | .alias number => doc.anchored.lookup number
  | node => some node

/-! ## Reading a document's nodes -/

/-- How far a document is read: what is ahead, the handles of tags, the numbers of the anchors' names,
    and the nodes behind them. -/
structure Progress where
  tokens : List Token
  handles : List (String × String)
  names : List (String × Nat) := []
  anchored : List (Nat × Node) := []

abbrev Parsing := StateT Progress Option

namespace Parsing

def peek : Parsing (Option Token) := do return (← get).tokens.head?

def advance : Parsing Unit := modify fun p => { p with tokens := p.tokens.tail }

def nextIn (stops : List Token) : Parsing Bool := do return (← peek).any stops.contains

def passed (t : Token) : Parsing Bool := do
  if ← nextIn [t] then
    advance
    return true
  else return false

def nodeUnless (stops : List Token) (node : Parsing Node) : Parsing Node := do
  if ← nextIn stops then return .empty else node

def orPassed (stops : List Token) (node : Parsing Node) : Parsing Node := do
  if ← nextIn stops then
    advance
    return .empty
  else node

def valueUnless (stops : List Token) (node : Parsing Node) : Parsing Node := do
  if ← passed .value then nodeUnless stops node else return .empty

/-! ### Anchors and tags -/

def properties : Parsing (Option String × Option (String × String)) := do
  match ← peek with
  | some (.anchor name) =>
    advance
    match ← peek with
    | some (.tag handle suffix) =>
      advance
      return (some name, some (handle, suffix))
    | _ => return (some name, none)
  | some (.tag handle suffix) =>
    advance
    match ← peek with
    | some (.anchor name) =>
      advance
      return (some name, some (handle, suffix))
    | _ => return (none, some (handle, suffix))
  | _ => return (none, none)

def fullTag (handle suffix : String) : Parsing String := do
  if handle.isEmpty then return suffix
  else
    match (← get).handles.lookup handle with
    | some uri => return uri ++ suffix
    | none => failure

/-- Numbers an anchor: names that are known before it come first. -/
def nameAnchor (name : String) : Parsing Nat :=
  modifyGet fun p => (p.names.length, { p with names := (name, p.names.length) :: p.names.filter (·.1 ≠ name) })

/-- Keeps the node of an anchor once it is read; the anchor is known while it is being read. -/
def anchoring (anchor : Option String) (node : Parsing Node) : Parsing Node := do
  match anchor with
  | none => node
  | some name =>
    let number ← nameAnchor name
    let node ← node
    modify fun p => { p with anchored := (number, node) :: p.anchored }
    return node

/-! ### Nodes -/

mutual

/-- A node. Block collections stand in a block only, and a sequence without indentation in a mapping. -/
def node (block bare : Bool) : (fuel : Nat) → Parsing Node
  | 0 => failure
  | fuel + 1 => do
    match ← peek with
    | some (.alias name) =>
      advance
      match (← get).names.lookup name with
      | some number => return .alias number
      | none => failure
    | _ =>
      let (anchor, tag) ← properties
      let tag ← tag.mapM fun (handle, suffix) => fullTag handle suffix
      anchoring anchor (content block bare anchor.isSome tag fuel)

def content (block bare anchored : Bool) (tag : Option String) : (fuel : Nat) → Parsing Node
  | 0 => failure
  | fuel + 1 => do
    match ← peek, block, bare with
    | some .blockEntry, _, true => return .sequence (← bareItems fuel)
    | some (.scalar plain text), _, _ =>
      advance
      return .scalar (tag.filter (· ≠ "!")) plain text
    | some .flowSequence, _, _ =>
      advance
      return .sequence (← flowItems true fuel)
    | some .flowMapping, _, _ =>
      advance
      return .mapping (← flowEntries true fuel)
    | some .blockSequence, true, _ =>
      advance
      return .sequence (← blockItems fuel)
    | some .blockMapping, true, _ =>
      advance
      return .mapping (← blockEntries fuel)
    | _, _, _ => if anchored || tag.isSome then return .scalar tag true "" else failure

def blockItems : (fuel : Nat) → Parsing (List Node)
  | 0 => failure
  | fuel + 1 => do
    if ← passed .blockEntry then
      let item ← nodeUnless [.blockEntry, .blockEnd] (node true false fuel)
      return item :: (← blockItems fuel)
    else if ← passed .blockEnd then return []
    else failure

def bareItems : (fuel : Nat) → Parsing (List Node)
  | 0 => failure
  | fuel + 1 => do
    if ← passed .blockEntry then
      let item ← nodeUnless [.blockEntry, .key, .value, .blockEnd] (node true false fuel)
      return item :: (← bareItems fuel)
    else return []

def blockEntries : (fuel : Nat) → Parsing (List (Node × Node))
  | 0 => failure
  | fuel + 1 => do
    if ← passed .key then
      let key ← nodeUnless [.key, .value, .blockEnd] (node true true fuel)
      let value ← valueUnless [.key, .value, .blockEnd] (node true true fuel)
      return (key, value) :: (← blockEntries fuel)
    else if ← passed .blockEnd then return []
    else failure

/-- The items of a flow sequence up to its end; a key starts a mapping of one entry. Where that key is
    left out, the token that shows it is passed with it. -/
def flowItems (first : Bool) : (fuel : Nat) → Parsing (List Node)
  | 0 => failure
  | fuel + 1 => do
    if ← passed .flowSequenceEnd then return []
    else if first || (← passed .flowEntry) then
      if ← passed .key then
        let key ← orPassed [.value, .flowEntry, .flowSequenceEnd] (node false false fuel)
        let value ← valueUnless [.flowEntry, .flowSequenceEnd] (node false false fuel)
        return .mapping [(key, value)] :: (← flowItems false fuel)
      else if ← passed .flowSequenceEnd then return []
      else
        let item ← node false false fuel
        return item :: (← flowItems false fuel)
    else failure

/-- The entries of a flow mapping up to its end; a node without a colon is a key with no value. -/
def flowEntries (first : Bool) : (fuel : Nat) → Parsing (List (Node × Node))
  | 0 => failure
  | fuel + 1 => do
    if ← passed .flowMappingEnd then return []
    else if first || (← passed .flowEntry) then
      if ← passed .key then
        let key ← nodeUnless [.value, .flowEntry, .flowMappingEnd] (node false false fuel)
        let value ← valueUnless [.flowEntry, .flowMappingEnd] (node false false fuel)
        return (key, value) :: (← flowEntries false fuel)
      else if ← passed .flowMappingEnd then return []
      else
        let key ← node false false fuel
        return (key, .empty) :: (← flowEntries false fuel)
    else failure

end

/-! ### Documents -/

def directives : (tokens : List Token) → (version : Bool) → (handles : List (String × String)) →
    Option (List (String × String) × List Token)
  | .version major minor :: rest, seen, handles =>
    if seen ∨ major ≠ 1 ∨ (minor ≠ 1 ∧ minor ≠ 2) then none else directives rest true handles
  | .tagHandle handle uri :: rest, seen, handles =>
    if (handles.lookup handle).isSome then none else directives rest seen ((handle, uri) :: handles)
  | rest, _, handles => some (handles, rest)

def knownHandles : List (String × String) := [("!", "!"), ("!!", "tag:yaml.org,2002:")]

def marked (tokens : List Token) : Option (List (String × String) × List Token × Bool) :=
  (directives tokens false []).bind fun (handles, rest) =>
    match rest with
    | .documentStart :: rest =>
      let bare := match rest with
        | [] | .version .. :: _ | .tagHandle .. :: _ | .documentStart :: _ | .documentEnd :: _ => true
        | _ => false
      some (handles ++ knownHandles, rest, bare)
    | _ => none

end Parsing

def Document.ofTokens? (tokens : List Token) : Option (Option Document) :=
  let start := match tokens with
    | .version .. :: _ | .tagHandle .. :: _ | .documentStart :: _ => Parsing.marked tokens
    | _ => some (Parsing.knownHandles, tokens, false)
  if tokens.isEmpty then some none
  else
    start.bind fun (handles, rest, bare) =>
      let root := if bare then pure Node.empty else Parsing.node true false (4 * rest.length + 8)
      (root.run { tokens := rest, handles }).bind fun (root, after) =>
        if (after.tokens.dropWhile (· == .documentEnd)).isEmpty then some (some ⟨root, after.anchored⟩) else none

def Document.ofText? (text : String) : Option (Option Document) := (tokens? text).bind Document.ofTokens?

end PresetWorkspace.Yaml
