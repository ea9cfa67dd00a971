import LifecycleFlow.Condition
import LifecycleFlow.Expression
import LifecycleFlow.Graph.Reachability
import LifecycleFlow.Graph.Basic

/-!
# Assembling a lifecycle workflow

The three requests in the life of a custom resource, and the front of a workflow that serves them: a
pass state that captures the fields of the request in variables, and a choice that leads to the
branch for the type of the request. A missing branch is replaced: create falls back on update, and
whatever is still missing does nothing.
-/
namespace LifecycleFlow

/-- What a custom resource is asked to do. -/
inductive RequestType
  | create
  | update
  | delete
  deriving DecidableEq

namespace RequestType

def text : RequestType → String
  | create => "Create"
  | update => "Update"
  | delete => "Delete"

def all : List RequestType :=
  [create, update, delete]

def ofText? (s : String) : Option RequestType :=
  all.find? fun t => t.text = s

def variableName : String :=
  "RequestType"

def condition (t : RequestType) : Condition :=
  .compare ("$" ++ variableName) .equal (.string t.text)

end RequestType

inductive ConfigurationError
  | noBranch
  | noSteps (label : String)
  | failNotLast (step label : String)
  | noContinuation (label target : String)
  | unknownTarget (target : String)
  deriving DecidableEq

def ConfigurationError.message : ConfigurationError → String
  | noBranch => "At least one of on_create, on_update or on_delete must be specified"
  | noSteps label => "'" ++ label ++ "' has no steps"
  | failNotLast step label =>
    "Fail step '" ++ step ++ "' in '" ++ label ++ "' must be the last step"
  | noContinuation label target =>
    "'" ++ label ++ "' cannot continue with '" ++ target ++ "' because its last step is a fail"
  | unknownTarget target => "Catch handler continues with unknown state '" ++ target ++ "'"

inductive FlowError
  | configuration (e : ConfigurationError)
  | graph (e : GraphError)
  deriving DecidableEq

def FlowError.message : FlowError → String
  | configuration e => "Configuration error: " ++ e.message
  | graph e => "Graph error: " ++ e.message

/-- An operation on a graph that may also find the parts themselves wrong. -/
abbrev FlowOp := ExceptT FlowError (StateM Graph)

def GraphOp.lift {α : Type} (op : GraphOp α) : FlowOp α :=
  ExceptT.mk do
    match ← op.run with
    | .ok a => return .ok a
    | .error e => return .error (.graph e)

structure Branches where
  onCreate : Option Fragment := none
  onUpdate : Option Fragment := none
  onDelete : Option Fragment := none
  deriving DecidableEq

/-- An assembled workflow: its first state, its choice, the branch for each type of request, and
the states in which it ends. -/
structure Flow where
  entry : StateId
  dispatch : StateId
  onCreate : Fragment
  onUpdate : Fragment
  onDelete : Fragment
  ends : List StateId
  deriving DecidableEq

namespace Flow

def fragment (f : Flow) : Fragment :=
  ⟨f.entry, f.ends⟩

def branch (f : Flow) : RequestType → Fragment
  | .create => f.onCreate
  | .update => f.onUpdate
  | .delete => f.onDelete

def entryName : String :=
  "Initialize"

def dispatchName : String :=
  "Which Request Type?"

/-- The fields of a request that are captured, with whether they may be missing. -/
def capturedFields : List (String × Bool) :=
  [("RequestType", false), ("StackId", false), ("RequestId", false), ("ResourceType", false),
    ("LogicalResourceId", false), ("PhysicalResourceId", true), ("ResourceProperties", false),
    ("OldResourceProperties", true)]

/-- The expression that captures a field; a field that may be missing is then null. -/
def capture (field : String) (mayBeMissing : Bool) : String :=
  let source := (Catalog.input.path.field field).text
  Expression.template (if mayBeMissing then Expression.orNull source else source)

/-- The first state: it captures the fields of the request. -/
def entryPass : Pass where
  assign := .ofList (capturedFields.map fun f => (f.1, .string (capture f.1 f.2)))

/-- The names of the states that an assembly adds, in the order in which they are looked at. -/
def neededNames (b : Branches) : List String :=
  [entryName, dispatchName] ++
    (if b.onCreate.isNone && b.onUpdate.isNone then [RequestType.create.text] else []) ++
    (if b.onUpdate.isNone then [RequestType.update.text] else []) ++
    (if b.onDelete.isNone then [RequestType.delete.text] else [])

/-- The states that the given branches name: of each branch its start and then its ends. -/
def mentioned (b : Branches) : List StateId :=
  [b.onCreate, b.onUpdate, b.onDelete].flatMap fun f =>
    f.elim [] fun f => f.start :: f.ends

def addIdle (t : RequestType) : GraphOp Fragment := do
  let id ← Graph.addPass t.text {}
  (← get).fragment id

/-- Appends the numbers that a list does not hold yet. -/
def appendNew (into ids : List StateId) : List StateId :=
  ids.foldl (fun l id => if l.contains id then l else l ++ [id]) into

def connect (b : Branches) : GraphOp Flow := do
  let onCreate ← match b.onCreate.or b.onUpdate with
    | some f => pure f
    | none => addIdle .create
  let onUpdate ← match b.onUpdate with
    | some f => pure f
    | none => addIdle .update
  let onDelete ← match b.onDelete with
    | some f => pure f
    | none => addIdle .delete
  let dispatch ← Graph.addChoice dispatchName
  Graph.addRule dispatch RequestType.create.condition onCreate.start
  Graph.addRule dispatch RequestType.update.condition onUpdate.start
  Graph.addRule dispatch RequestType.delete.condition onDelete.start
  let entry ← Graph.addPass entryName entryPass
  Graph.setNext entry dispatch
  let ends := [onCreate, onUpdate, onDelete].foldl (fun l f => appendNew l f.ends) []
  return { entry, dispatch, onCreate, onUpdate, onDelete, ends }

/-- Assembles a workflow around its branches. Names and branches are looked at before the graph is
changed. -/
def assemble (b : Branches) : FlowOp Flow := do
  if b.onCreate.isNone && b.onUpdate.isNone && b.onDelete.isNone then
    throw (.configuration .noBranch)
  let g ← get
  match (neededNames b).find? fun n => !g.isAvailable n with
  | some taken => throw (.graph (.duplicateStateName taken))
  | none => pure ()
  match (mentioned b).find? fun id => decide (g.size ≤ id) with
  | some id => throw (.graph (.unknownState id))
  | none => pure ()
  (connect b).lift

end Flow

end LifecycleFlow
