import LifecycleFlow.Decoding.Definition
import LifecycleFlow.Yaml.Grammar
import LifecycleFlow.Yaml.Scalar

/-!
# Definitions from YAML

Definitions from YAML documents. The outermost fields are read as they are: a name is the text of
its scalar, whatever it looks like. Steps are turned into content first, with aliases replaced by
what they refer to. Collections may be nested 128 deep, and each alias costs: together they may be
followed a hundred times as often as the document has parts.
-/
namespace LifecycleFlow.Yaml

/-- Decoding with a count of the aliases followed. -/
abbrev Expansion := StateT Nat Decoded

namespace Document

def deepest : Nat :=
  128

/-- The node that a node stands for: itself, unless it is an alias. -/
def follow (d : Document) : Node → Expansion Node
  | .reference a => do
    let n := (← get) + 1
    set n
    if 100 * d.size < n then throw .repetitionLimit
    return (d.find? a).getD .empty
  | n => pure n

/-- Refuses a node with a local tag. A tag that is no text is passed over. -/
def requireNoLocalTag (p : Properties) (e : DecodeError) : Expansion Unit :=
  if p.tag.any fun t => t.isLocal && t.isText then throw e else pure ()

/-- A node as content. A local tag is refused. -/
def expand (d : Document) (depth : Nat) (n : Node) : Expansion Content := do
  let n ← d.follow n
  requireNoLocalTag n.properties .tagInside
  match n with
  | .reference _ => return .null
  | .scalar p s plain =>
    match ← Scalar.meaning p.tag s plain with
    | .value c => return c
    | .wide i => throw (.invalidType (.wide i) .anyValue)
  | .sequence _ items =>
    match depth with
    | 0 => throw .nestingLimit
    | depth + 1 => return .sequence (← items.mapM (expand d depth))
  | .mapping _ entries =>
    match depth with
    | 0 => throw .nestingLimit
    | depth + 1 =>
      return .mapping (← entries.mapM fun e => do
        let k ← expand d depth e.1
        return (k, ← expand d depth e.2))

def text (d : Document) (expected : Expected) (n : Node) : Expansion String := do
  match ← d.follow n with
  | .scalar _ s _ => return s
  | .mapping _ _ => throw (.invalidType .mapping expected)
  | _ => throw (.invalidType .sequence expected)

def optionalText (d : Document) (n : Node) : Expansion (Option String) := do
  match ← d.follow n with
  | .scalar p s plain => return if ← Scalar.isAbsent p.tag s plain then none else some s
  | n => some <$> d.text .string n

def stepKind (d : Document) (n : Node) : Expansion StepKind := do
  StepKind.ofLabel (← d.text .variant n)

/-- The entries of a step as content, without the one that says its kind. -/
def stepEntries (d : Document) (depth : Nat) (kind : Option StepKind) :
    List (Node × Node) → Expansion (Option StepKind × List (Content × Content))
  | [] => return (kind, [])
  | (k, v) :: r => do
    match ← d.expand depth k with
    | .string s =>
      if s = StepKind.key then
        if kind.isSome then throw (.duplicateField s)
        d.stepEntries depth (some (← d.stepKind v)) r
      else
        let v ← d.expand depth v
        let (kind, entries) ← d.stepEntries depth kind r
        return (kind, (.string s, v) :: entries)
    | k =>
      let v ← d.expand depth v
      let (kind, entries) ← d.stepEntries depth kind r
      return (kind, (k, v) :: entries)

def step (d : Document) (depth : Nat) (n : Node) : Expansion Step := do
  let n ← d.follow n
  requireNoLocalTag n.properties (.invalidType .tagged .step)
  match n with
  | .sequence _ items =>
    match depth with
    | 0 => throw .nestingLimit
    | depth + 1 =>
      match items with
      | [] => throw (.missingField StepKind.key)
      | k :: r => do
        let kind ← d.stepKind k
        Step.ofItems kind (← r.mapM (d.expand depth))
  | .mapping _ entries =>
    match depth with
    | 0 => throw .nestingLimit
    | depth + 1 => do
      match ← d.stepEntries depth none entries with
      | (some kind, entries) => Step.ofEntries kind entries
      | (none, _) => throw (.missingField StepKind.key)
  | .scalar p s plain => throw (Scalar.refuse p.tag s plain .step)
  | .reference _ => throw (.invalidType .null .step)

def branch (d : Document) (depth : Nat) (n : Node) : Expansion (Option (List Step)) := do
  match ← d.follow n with
  | .sequence _ items =>
    match depth with
    | 0 => throw .nestingLimit
    | depth + 1 => some <$> items.mapM (d.step depth)
  | .scalar p s plain =>
    if ← Scalar.isAbsent p.tag s plain then return none
    else if plain ∧ s = "" then return some []
    else throw (Scalar.refuse p.tag s plain .sequence)
  | _ => throw (.invalidType .mapping .sequence)

def setField (d : Document) (depth : Nat) (draft : DefinitionDraft) (field : String) (v : Node) :
    Expansion DefinitionDraft := do
  let set {α : Type} (old : Option α) (read : Expansion α) : Expansion (Option α) :=
    match old with
    | some _ => throw (.duplicateField field)
    | none => some <$> read
  match field with
  | "name" => return { draft with name := ← set draft.name (d.text .string v) }
  | "comment" => return { draft with comment := ← set draft.comment (d.optionalText v) }
  | "prefix" => return { draft with namePrefix := ← set draft.namePrefix (d.optionalText v) }
  | "on_create" => return { draft with onCreate := ← set draft.onCreate (d.branch depth v) }
  | "on_update" => return { draft with onUpdate := ← set draft.onUpdate (d.branch depth v) }
  | "on_delete" => return { draft with onDelete := ← set draft.onDelete (d.branch depth v) }
  | _ => return draft

/-- The fields of a definition. An empty document has none. -/
def definitionDraft (d : Document) : Expansion DefinitionDraft := do
  match d.root with
  | none => return {}
  | some n =>
    match ← d.follow n with
    | .mapping _ entries =>
      entries.foldlM (fun draft e => do
        d.setField (deepest - 1) draft (← d.text .field e.1) e.2) {}
    | .scalar p s plain =>
      if plain ∧ s = "" then return {}
      else throw (Scalar.refuse p.tag s plain (.record .definition))
    | _ => throw (.invalidType .sequence (.record .definition))

def toDefinition (d : Document) : Decoded FlowDefinition := do
  let (draft, _) ← d.definitionDraft.run 0
  draft.toDefinition .missingField

end Document

end LifecycleFlow.Yaml
