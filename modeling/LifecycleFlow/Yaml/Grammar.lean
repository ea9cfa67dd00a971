import LifecycleFlow.Yaml.Lexer
import LifecycleFlow.Yaml.Node

/-!
# From tokens to trees

Reading tokens as the tree they make up. What is left out is an empty node: a value without text, a
key without value, an item after its hyphen. An alias must name an anchor met before it.
-/
namespace LifecycleFlow.Yaml

/-- The tokens still to be read, the short forms of tags, and the anchors met. -/
structure Reading where
  tokens : List Token
  tags : List (String × Address) := []
  anchors : List (String × Nat) := []

abbrev Reader := StateT Reading Option

namespace Reader

def peek : Reader (Option Token) := do
  return (← get).tokens.head?

def advance : Reader Unit :=
  modify fun r => { r with tokens := r.tokens.drop 1 }

/-- Gives a name to the node that begins here. Its number is the count of names met so far; a name
met again takes a new number as well. -/
def declare (name : String) : Reader Nat := do
  let r ← get
  let n := r.anchors.length
  let others := r.anchors.filter fun a => a.1 ≠ name
  set { r with anchors := (name, n) :: others }
  return n

def lookup (name : String) : Reader Nat := do
  match (← get).anchors.find? fun a => a.1 = name with
  | some a => return a.2
  | none => failure

def expandTag (handle : String) (suffix : Address) : Reader Address := do
  if handle = "" then return suffix
  match (← get).tags.find? fun t => t.1 = handle with
  | some t => return t.2 ++ suffix
  | none => failure

def properties : Reader Properties := do
  match ← peek with
  | some (.anchor name) => do
    advance
    match ← peek with
    | some (.tag handle suffix) => do
      advance
      let tag ← expandTag handle suffix
      return { anchor := ← declare name, tag }
    | _ => return { anchor := ← declare name }
  | some (.tag handle suffix) => do
    advance
    match ← peek with
    | some (.anchor name) => do
      advance
      let tag ← expandTag handle suffix
      return { anchor := ← declare name, tag }
    | _ => return { tag := ← expandTag handle suffix }
  | _ => return {}

/-- Whether a token shows that the node before it was left out. -/
def endsNode (ends : List Token) : Reader Bool := do
  match ← peek with
  | some t => return ends.contains t
  | none => return false

mutual

/-- Reads a node. Block collections are read only where `block` allows them, and a sequence without
indentation of its own only where `indentless` does. -/
def node (fuel : Nat) (block indentless : Bool) : Reader Node := do
  match fuel with
  | 0 => failure
  | fuel + 1 =>
    match ← peek with
    | some (.reference name) => do
      advance
      return .reference (← lookup name)
    | _ => do
      let p ← properties
      match ← peek with
      | some .blockEntry =>
        if indentless then return .sequence p (← indentlessItems fuel)
        else if p = {} then failure
        else return .scalar p "" true
      | some (.scalar text plain) => do
        advance
        return .scalar p text plain
      | some .flowSequenceStart => do
        advance
        return .sequence p (← flowItems fuel true)
      | some .flowMappingStart => do
        advance
        return .mapping p (← flowEntries fuel true)
      | some .blockSequenceStart =>
        if block then do
          advance
          return .sequence p (← blockItems fuel)
        else if p = {} then failure
        else return .scalar p "" true
      | some .blockMappingStart =>
        if block then do
          advance
          return .mapping p (← blockEntries fuel)
        else if p = {} then failure
        else return .scalar p "" true
      | _ => if p = {} then failure else return .scalar p "" true

def nodeUnless (fuel : Nat) (ends : List Token) (block indentless : Bool) : Reader Node := do
  match fuel with
  | 0 => failure
  | fuel + 1 => if ← endsNode ends then return .empty else node fuel block indentless

def blockItems (fuel : Nat) : Reader (List Node) := do
  match fuel with
  | 0 => failure
  | fuel + 1 =>
    match ← peek with
    | some .blockEntry => do
      advance
      let n ← nodeUnless fuel [.blockEntry, .blockEnd] true false
      return n :: (← blockItems fuel)
    | some .blockEnd => do
      advance
      return []
    | _ => failure

/-- Reads the items of a sequence that is not indented further than the mapping around it. -/
def indentlessItems (fuel : Nat) : Reader (List Node) := do
  match fuel with
  | 0 => failure
  | fuel + 1 =>
    match ← peek with
    | some .blockEntry => do
      advance
      let n ← nodeUnless fuel [.blockEntry, .key, .value, .blockEnd] true false
      return n :: (← indentlessItems fuel)
    | _ => return []

def blockEntries (fuel : Nat) : Reader (List (Node × Node)) := do
  match fuel with
  | 0 => failure
  | fuel + 1 =>
    match ← peek with
    | some .key => do
      advance
      let k ← nodeUnless fuel [.key, .value, .blockEnd] true true
      let v ←
        match ← peek with
        | some .value => do
          advance
          nodeUnless fuel [.key, .value, .blockEnd] true true
        | _ => pure .empty
      return (k, v) :: (← blockEntries fuel)
    | some .blockEnd => do
      advance
      return []
    | _ => failure

/-- Reads the items between square brackets. A key with its value is a mapping of its own. -/
def flowItems (fuel : Nat) (first : Bool) : Reader (List Node) := do
  match fuel with
  | 0 => failure
  | fuel + 1 =>
    match ← peek with
    | some .flowSequenceEnd => do
      advance
      return []
    | t => do
      if !first then
        if t = some .flowEntry then advance else failure
      match ← peek with
      | some .flowSequenceEnd => do
        advance
        return []
      | some .key => do
        advance
        let n ← flowPair fuel
        return n :: (← flowItems fuel false)
      | _ => do
        let n ← node fuel false false
        return n :: (← flowItems fuel false)

/-- Reads a key with its value between square brackets. A key that is left out takes the token after
it along. -/
def flowPair (fuel : Nat) : Reader Node := do
  match fuel with
  | 0 => failure
  | fuel + 1 => do
    let k ←
      if ← endsNode [.value, .flowEntry, .flowSequenceEnd] then do
        advance
        pure .empty
      else node fuel false false
    let v ←
      match ← peek with
      | some .value => do
        advance
        nodeUnless fuel [.flowEntry, .flowSequenceEnd] false false
      | _ => pure .empty
    return .mapping {} [(k, v)]

def flowEntries (fuel : Nat) (first : Bool) : Reader (List (Node × Node)) := do
  match fuel with
  | 0 => failure
  | fuel + 1 =>
    match ← peek with
    | some .flowMappingEnd => do
      advance
      return []
    | t => do
      if !first then
        if t = some .flowEntry then advance else failure
      match ← peek with
      | some .flowMappingEnd => do
        advance
        return []
      | some .key => do
        advance
        let k ← nodeUnless fuel [.value, .flowEntry, .flowMappingEnd] false false
        let v ←
          match ← peek with
          | some .value => do
            advance
            nodeUnless fuel [.flowEntry, .flowMappingEnd] false false
          | _ => pure .empty
        return (k, v) :: (← flowEntries fuel false)
      | _ => do
        let k ← node fuel false false
        return (k, .empty) :: (← flowEntries fuel false)

end

/-- Reads the directives before a document: at most one version, 1.1 or 1.2, and each short form of
a tag once. The two short forms that every document has may be given another meaning. -/
def directives (fuel : Nat) (versionMet : Bool) : Reader Unit := do
  match fuel with
  | 0 => failure
  | fuel + 1 =>
    match ← peek with
    | some (.version major minor) => do
      if versionMet ∨ major ≠ 1 ∨ (minor ≠ 1 ∧ minor ≠ 2) then failure
      advance
      directives fuel true
    | some (.tagDirective handle expansion) => do
      let r ← get
      if r.tags.any fun t => t.1 = handle then failure
      set { r with tokens := r.tokens.drop 1, tags := (handle, expansion) :: r.tags }
      directives fuel versionMet
    | _ =>
      modify fun r =>
        { r with tags := r.tags ++ [("!", Address.ofChars ['!']), ("!!", Address.ofType "")] }

/-- Reads the node of a document. Directives need the marker after them, and after a marker the node
may be missing. -/
def root (fuel : Nat) : Reader Node := do
  let explicit := match ← peek with
    | some (.version _ _) => true
    | some (.tagDirective _ _) => true
    | some .documentStart => true
    | _ => false
  directives fuel false
  if explicit then
    if (← peek) ≠ some .documentStart then failure
    advance
    match ← peek with
    | some (.version _ _) => return .empty
    | some (.tagDirective _ _) => return .empty
    | some .documentStart => return .empty
    | some .documentEnd => return .empty
    | none => return .empty
    | _ => node fuel true false
  else node fuel true false

end Reader

/-- The one document that tokens make up. Nothing but end markers may follow it. -/
def Document.ofTokens? (tokens : List Token) : Option Document :=
  if tokens.isEmpty then some (.ofNode none)
  else do
    let (n, r) ← (Reader.root (4 * tokens.length + 8)).run { tokens }
    if r.tokens.all (· == .documentEnd) then some (.ofNode (some n)) else none

def Document.ofText? (s : String) : Option Document :=
  (Token.ofText? s.toList).bind Document.ofTokens?

end LifecycleFlow.Yaml
