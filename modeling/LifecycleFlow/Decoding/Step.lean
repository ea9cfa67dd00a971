import LifecycleFlow.Decoding.Content
import LifecycleFlow.Flow.Definition

/-!
# Decoding steps

Steps from content. A record is a mapping from field names, or the sequence of its fields in order;
a step also says which kind it is, under the key `type` or as the first item.
-/
namespace LifecycleFlow

inductive StepKind
  | pass
  | task
  | fail
  deriving DecidableEq

namespace StepKind

def all : List StepKind :=
  [pass, task, fail]

def label : StepKind → String
  | pass => "pass"
  | task => "task"
  | fail => "fail"

/-- The key under which a step says its kind. -/
def key : String :=
  "type"

def ofLabel (s : String) : Decoded StepKind :=
  match all.find? fun k => k.label = s with
  | some k => .ok k
  | none => .error (.unknownVariant s)

/-- A kind inside content: by its word, or by its number. -/
def ofContent : Content → Decoded StepKind
  | .string s => ofLabel s
  | .natural n =>
    match all[n]? with
    | some k => .ok k
    | none => .error (.invalidValue (.whole n) .variantIndex)
  | c => .error (.invalidType c.found .variant)

/-- The kind that a mapping names; it is named once. -/
def ofEntries (kind : Option StepKind) : List (Content × Content) → Decoded StepKind
  | [] =>
    match kind with
    | some k => .ok k
    | none => .error (.missingField key)
  | (.string s, v) :: r =>
    if s = key then
      if kind.isSome then .error (.duplicateField key)
      else do ofEntries (some (← ofContent v)) r
    else ofEntries kind r
  | _ :: r => ofEntries kind r

end StepKind

namespace Draft

/-- Sets a field that was not set before. -/
def once {α : Type} (name : String) (old : Option α) (value : Decoded α) : Decoded (Option α) :=
  match old with
  | some _ => .error (.duplicateField name)
  | none => some <$> value

/-- The value of a field that must be there. -/
def required {α : Type} (missing : String → DecodeError) (name : String) :
    Option α → Decoded α
  | some a => .ok a
  | none => .error (missing name)

/-- The error for a field missing at the end of a sequence: how many fields come before it. -/
def tooShort (r : Record) (name : String) : DecodeError :=
  .invalidLength (r.fields.idxOf name) (.fields r)

/-- Refuses a sequence with more items than the record has fields. -/
def requireLength (r : Record) (n : Nat) : Decoded Unit :=
  if r.fields.length < n then .error (.invalidLength n (.inSequence r.fields.length))
  else .ok ()

end Draft

open Draft

structure PassDraft where
  name : Option String := none
  assign : Option Json.Object := none
  outputs : Option (Option Json) := none
  comment : Option (Option String) := none

structure FailDraft where
  name : Option String := none
  error : Option (Option String) := none
  cause : Option (Option String) := none
  comment : Option (Option String) := none

structure TaskDraft where
  name : Option String := none
  service : Option String := none
  action : Option String := none
  parameters : Option (Option Json) := none
  assign : Option Json.Object := none
  outputs : Option (Option Json) := none
  comment : Option (Option String) := none
  handlers : Option (List Handler) := none

structure HandlerDraft where
  errors : Option (List String) := none
  outputs : Option (Option Json) := none
  steps : Option (List Step) := none
  target : Option (Option String) := none

namespace PassDraft

def set (d : PassDraft) (field : String) (v : Content) : Decoded PassDraft :=
  match field with
  | "name" => return { d with name := ← once field d.name v.asString }
  | "assign" => return { d with assign := ← once field d.assign v.asObject }
  | "outputs" => return { d with outputs := ← once field d.outputs v.asOptionalJson }
  | "comment" => return { d with comment := ← once field d.comment v.asOptionalString }
  | _ => .ok d

def setEntries (d : PassDraft) (entries : List (Content × Content)) : Decoded PassDraft :=
  entries.foldlM (fun d e => do
    match ← e.1.asField .pass with
    | some field => d.set field e.2
    | none => .ok d) d

def setItems (d : PassDraft) (items : List Content) : Decoded PassDraft :=
  (Record.fields .pass |>.zip items).foldlM (fun d e => d.set e.1 e.2) d

def toStep (d : PassDraft) (missing : String → DecodeError) : Decoded Step := do
  let name ← required missing "name" d.name
  return .pass name
    { assign := d.assign.getD []
      outputs := d.outputs.getD none
      comment := d.comment.getD none }

end PassDraft

namespace FailDraft

def set (d : FailDraft) (field : String) (v : Content) : Decoded FailDraft :=
  match field with
  | "name" => return { d with name := ← once field d.name v.asString }
  | "error" => return { d with error := ← once field d.error v.asOptionalString }
  | "cause" => return { d with cause := ← once field d.cause v.asOptionalString }
  | "comment" => return { d with comment := ← once field d.comment v.asOptionalString }
  | _ => .ok d

def setEntries (d : FailDraft) (entries : List (Content × Content)) : Decoded FailDraft :=
  entries.foldlM (fun d e => do
    match ← e.1.asField .fail with
    | some field => d.set field e.2
    | none => .ok d) d

def setItems (d : FailDraft) (items : List Content) : Decoded FailDraft :=
  (Record.fields .fail |>.zip items).foldlM (fun d e => d.set e.1 e.2) d

def toStep (d : FailDraft) (missing : String → DecodeError) : Decoded Step := do
  let name ← required missing "name" d.name
  return .fail name
    { error := d.error.getD none
      cause := d.cause.getD none
      comment := d.comment.getD none }

end FailDraft

def TaskDraft.toStep (d : TaskDraft) (missing : String → DecodeError) : Decoded Step := do
  let name ← required missing "name" d.name
  let service ← required missing "service" d.service
  let action ← required missing "action" d.action
  return .task name
    { service, action
      parameters := d.parameters.getD none
      assign := d.assign.getD []
      outputs := d.outputs.getD none
      comment := d.comment.getD none }
    (d.handlers.getD [])

/-- The handler with the fields met; without named errors it catches all. -/
def HandlerDraft.toHandler (d : HandlerDraft) (missing : String → DecodeError) :
    Decoded Handler := do
  let steps ← required missing "steps" d.steps
  return .mk (d.errors.getD [allErrors]) (d.outputs.getD none) steps (d.target.getD none)

namespace Step

/-- A step of a known kind from its fields by name; `task` are the fields met if it is a task. -/
def finishEntries (kind : StepKind) (entries : List (Content × Content))
    (task : Decoded TaskDraft) : Decoded Step :=
  match kind with
  | .pass => do (← PassDraft.setEntries {} entries).toStep .missingField
  | .fail => do (← FailDraft.setEntries {} entries).toStep .missingField
  | .task => do (← task).toStep .missingField

/-- A step of a known kind from its fields in order; `task` are the fields met if it is a task. -/
def finishItems (kind : StepKind) (items : List Content) (task : Decoded TaskDraft) :
    Decoded Step :=
  match kind with
  | .pass => do
    let step ← (← PassDraft.setItems {} items).toStep (tooShort .pass)
    requireLength .pass items.length
    return step
  | .fail => do
    let step ← (← FailDraft.setItems {} items).toStep (tooShort .fail)
    requireLength .fail items.length
    return step
  | .task => do
    let step ← (← task).toStep (tooShort .task)
    requireLength .task items.length
    return step

mutual

/-- A step inside content. The entry that says the kind is no field, whatever the kind. -/
def ofContent : Content → Decoded Step
  | .sequence [] => .error (.missingField StepKind.key)
  | .sequence (kind :: items) => do
    finishItems (← StepKind.ofContent kind) items (taskItems {} (Record.fields .task) items)
  | .mapping entries => do
    finishEntries (← StepKind.ofEntries none entries) entries (taskEntries {} entries)
  | c => .error (.invalidType c.found .step)

def setTask (d : TaskDraft) (field : String) (v : Content) : Decoded TaskDraft :=
  match field with
  | "name" => return { d with name := ← once field d.name v.asString }
  | "service" => return { d with service := ← once field d.service v.asString }
  | "action" => return { d with action := ← once field d.action v.asString }
  | "parameters" => return { d with parameters := ← once field d.parameters v.asOptionalJson }
  | "assign" => return { d with assign := ← once field d.assign v.asObject }
  | "outputs" => return { d with outputs := ← once field d.outputs v.asOptionalJson }
  | "comment" => return { d with comment := ← once field d.comment v.asOptionalString }
  | "catch" =>
    let handlers :=
      match v with
      | .sequence items => handlerList items
      | c => .error (.invalidType c.found .sequence)
    return { d with handlers := ← once field d.handlers handlers }
  | _ => .ok d

def taskEntries (d : TaskDraft) : List (Content × Content) → Decoded TaskDraft
  | [] => .ok d
  | (k, v) :: r => do
    match ← k.asField .task with
    | some field => taskEntries (← setTask d field v) r
    | none => taskEntries d r

def taskItems (d : TaskDraft) (fields : List String) : List Content → Decoded TaskDraft
  | [] => .ok d
  | v :: r =>
    match fields with
    | [] => .ok d
    | field :: fields => do taskItems (← setTask d field v) fields r

def handlerList : List Content → Decoded (List Handler)
  | [] => .ok []
  | c :: r => do
    let h ← handlerOf c
    return h :: (← handlerList r)

def handlerOf : Content → Decoded Handler
  | .mapping entries => do (← handlerEntries {} entries).toHandler .missingField
  | .sequence items => do
    let h ← (← handlerItems {} (Record.fields .handler) items).toHandler (tooShort .handler)
    requireLength .handler items.length
    return h
  | c => .error (.invalidType c.found (.record .handler))

def setHandler (d : HandlerDraft) (field : String) (v : Content) : Decoded HandlerDraft :=
  match field with
  | "errors" => return { d with errors := ← once field d.errors v.asStrings }
  | "outputs" => return { d with outputs := ← once field d.outputs v.asOptionalJson }
  | "steps" =>
    let steps :=
      match v with
      | .sequence items => stepList items
      | c => .error (.invalidType c.found .sequence)
    return { d with steps := ← once field d.steps steps }
  | "then" => return { d with target := ← once field d.target v.asOptionalString }
  | _ => .ok d

def handlerEntries (d : HandlerDraft) : List (Content × Content) → Decoded HandlerDraft
  | [] => .ok d
  | (k, v) :: r => do
    match ← k.asField .handler with
    | some field => handlerEntries (← setHandler d field v) r
    | none => handlerEntries d r

def handlerItems (d : HandlerDraft) (fields : List String) :
    List Content → Decoded HandlerDraft
  | [] => .ok d
  | v :: r =>
    match fields with
    | [] => .ok d
    | field :: fields => do handlerItems (← setHandler d field v) fields r

def stepList : List Content → Decoded (List Step)
  | [] => .ok []
  | c :: r => do
    let s ← ofContent c
    return s :: (← stepList r)

end

def ofEntries (kind : StepKind) (entries : List (Content × Content)) : Decoded Step :=
  finishEntries kind entries (taskEntries {} entries)

def ofItems (kind : StepKind) (items : List Content) : Decoded Step :=
  finishItems kind items (taskItems {} (Record.fields .task) items)

end Step

end LifecycleFlow
