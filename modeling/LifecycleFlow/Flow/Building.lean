import LifecycleFlow.Dispatch
import LifecycleFlow.Flow.Definition
import LifecycleFlow.Graph.Document
import LifecycleFlow.Graph.Reachability

/-!
# Building a definition

Building the graph of a definition. Steps become states that follow one another; the handlers of a
task are built right after it. A handler that continues with a named state is joined to it once all
branches are built, so it may name any step.
-/
namespace LifecycleFlow

/-- A handler that is still to be joined to a named state. -/
structure Join where
  handler : Fragment
  target : String
  deriving DecidableEq

/-- A graph with the workflow assembled in it. -/
structure BuiltFlow where
  name : String
  comment : Option String
  graph : Graph
  flow : Flow

namespace Step

/-- Refuses a list of steps that is empty or has a fail step before its end. -/
def requireRunnable (label : String) (steps : List Step) : Except ConfigurationError Unit :=
  if steps.isEmpty then .error (.noSteps label)
  else match steps.dropLast.find? Step.isFail with
    | some s => .error (.failNotLast s.name label)
    | none => .ok ()

def require {α : Type} (r : Except ConfigurationError α) : FlowOp α :=
  match r with
  | .ok a => pure a
  | .error e => throw (.configuration e)

def joinOf (label : String) (handler : Fragment) : Option String → FlowOp (List Join)
  | none => pure []
  | some target =>
    if handler.ends.isEmpty then throw (.configuration (.noContinuation label target))
    else pure [⟨handler, target⟩]

def handlerLabel (task : String) (index : Nat) : String :=
  task ++ " catch #" ++ toString index

mutual

/-- Adds the state of a step with its handlers. The answer holds the joins found on the way, in
order. -/
def build : Step → FlowOp (StateId × List Join)
  | .pass name p => do
    return (← GraphOp.lift (Graph.addPass name p), [])
  | .fail name f => do
    return (← GraphOp.lift (Graph.addFail name f), [])
  | .task name call handlers => do
    let id ← GraphOp.lift (Graph.addTask name call)
    return (id, ← buildHandlers name id 0 handlers)

def buildHandlers (task : String) (id : StateId) (index : Nat) :
    List Handler → FlowOp (List Join)
  | [] => pure []
  | .mk errors outputs steps target :: rest => do
    let label := handlerLabel task index
    require (requireRunnable label steps)
    let (handler, inner) ← buildChain none steps
    let handler ← match handler with
      | some f => pure f
      | none => throw (.configuration (.noSteps label))
    GraphOp.lift (Graph.addCatcher id handler.start errors outputs)
    let join ← joinOf label handler target
    let later ← buildHandlers task id (index + 1) rest
    return (inner ++ join ++ later)

/-- Adds the states of steps, each one following the one before. -/
def buildChain (before : Option Fragment) : List Step → FlowOp (Option Fragment × List Join)
  | [] => pure (before, [])
  | s :: rest => do
    let (id, joins) ← s.build
    let fragment ← GraphOp.lift do
      let f ← (← get).fragment id
      match before with
      | some b => Graph.chain b f
      | none => pure f
    let (last, later) ← buildChain (some fragment) rest
    return (last, joins ++ later)

end

def buildAll (label : String) (steps : List Step) : FlowOp (Fragment × List Join) := do
  require (requireRunnable label steps)
  match ← buildChain none steps with
  | (some f, joins) => return (f, joins)
  | (none, _) => throw (.configuration (.noSteps label))

end Step

def Join.connect (j : Join) : FlowOp Unit := do
  match (← get).find? j.target with
  | some target => j.handler.ends.forM fun id => GraphOp.lift (Graph.setNext id target)
  | none => throw (.configuration (.unknownTarget j.target))

namespace FlowDefinition

def buildBranch (label : String) : Option (List Step) → FlowOp (Option Fragment × List Join)
  | some steps => do
    let (f, joins) ← Step.buildAll label steps
    return (some f, joins)
  | none => pure (none, [])

def buildBranches (d : FlowDefinition) : FlowOp Branches := do
  let (onCreate, createJoins) ← buildBranch "on_create" d.onCreate
  let (onUpdate, updateJoins) ← buildBranch "on_update" d.onUpdate
  let (onDelete, deleteJoins) ← buildBranch "on_delete" d.onDelete
  (createJoins ++ updateJoins ++ deleteJoins).forM Join.connect
  return { onCreate, onUpdate, onDelete }

/-- Adds all states of a definition and assembles the workflow, under the names of the steps. -/
def assembleFlow (d : FlowDefinition) : FlowOp Flow := do
  Flow.assemble (← d.buildBranches)

/-- Adds all states of a definition, assembles the workflow and renames its states. -/
def buildFlow (d : FlowDefinition) : FlowOp Flow := do
  let flow ← d.assembleFlow
  match d.namePrefix with
  | some front => GraphOp.lift (Graph.addPrefix flow.entry front)
  | none => pure ()
  return flow

def build (d : FlowDefinition) : Except FlowError BuiltFlow :=
  match d.buildFlow.run.run Graph.empty with
  | (.ok flow, graph) => .ok { name := d.name, comment := d.comment, graph, flow }
  | (.error e, _) => .error e

end FlowDefinition

def BuiltFlow.document (b : BuiltFlow) : Except GraphError Json :=
  b.graph.document b.flow.entry b.comment

end LifecycleFlow
