import LifecycleFlow.Decoding.Step

/-!
# Decoding definitions

Definitions from JSON values.
-/
namespace LifecycleFlow

structure DefinitionDraft where
  name : Option String := none
  comment : Option (Option String) := none
  namePrefix : Option (Option String) := none
  onCreate : Option (Option (List Step)) := none
  onUpdate : Option (Option (List Step)) := none
  onDelete : Option (Option (List Step)) := none

def DefinitionDraft.toDefinition (d : DefinitionDraft) (missing : String → DecodeError) :
    Decoded FlowDefinition := do
  let name ← Draft.required missing "name" d.name
  return {
    name
    comment := d.comment.getD none
    namePrefix := d.namePrefix.getD none
    onCreate := d.onCreate.getD none
    onUpdate := d.onUpdate.getD none
    onDelete := d.onDelete.getD none }

namespace FlowDefinition

/-- A step of a branch. Unlike a step inside another one it says its kind by its word only. -/
def stepOfContent (c : Content) : Decoded Step :=
  let kind : Option Content :=
    match c with
    | .sequence items => items.head?
    | .mapping entries =>
      (entries.find? fun e =>
        match e.1 with
        | .string s => s == StepKind.key
        | _ => false).map Prod.snd
    | _ => none
  match kind with
  | some (.natural n) => .error (.invalidType (.whole n) .variant)
  | _ => Step.ofContent c

def branchOfContent : Content → Decoded (Option (List Step))
  | .null => .ok none
  | .sequence items => some <$> items.mapM stepOfContent
  | c => .error (.invalidType c.found .sequence)

def setField (d : DefinitionDraft) (field : String) (v : Content) : Decoded DefinitionDraft :=
  match field with
  | "name" => return { d with name := ← Draft.once field d.name v.asString }
  | "comment" => return { d with comment := ← Draft.once field d.comment v.asOptionalString }
  | "prefix" => return { d with namePrefix := ← Draft.once field d.namePrefix v.asOptionalString }
  | "on_create" => return { d with onCreate := ← Draft.once field d.onCreate (branchOfContent v) }
  | "on_update" => return { d with onUpdate := ← Draft.once field d.onUpdate (branchOfContent v) }
  | "on_delete" => return { d with onDelete := ← Draft.once field d.onDelete (branchOfContent v) }
  | _ => .ok d

/-- A definition from content: a mapping, or the sequence of its fields in order. -/
def ofContent : Content → Decoded FlowDefinition
  | .mapping entries => do
    let d ← entries.foldlM (fun d e => do
      match ← e.1.asField .definition with
      | some field => setField d field e.2
      | none => .ok d) {}
    d.toDefinition .missingField
  | .sequence items => do
    let fields := Record.fields .definition
    let draft ← (fields.zip items).foldlM (fun d e => setField d e.1 e.2) {}
    let d ← draft.toDefinition (Draft.tooShort .definition)
    if fields.length < items.length then .error (.invalidLength items.length .fewer)
    return d
  | c => .error (.invalidType c.found (.record .definition))

def ofJson (v : Json) : Decoded FlowDefinition :=
  ofContent (.ofJson v)

end FlowDefinition

end LifecycleFlow
