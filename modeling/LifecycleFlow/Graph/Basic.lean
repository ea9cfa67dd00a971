import LifecycleFlow.Condition
import Std.Data.ExtTreeMap

/-!
# Graphs of states

The graph of a workflow under construction: its states, numbered from zero, and an index that finds
a state by its name. Each kind of state carries data of its own and may lead to other states: by the
next state of a pass or task, the catchers of a task, and the rules and the default of a choice.
Operations answer or fail, and in either case leave a graph behind.
-/
namespace LifecycleFlow

/-- States are numbered in the order in which they were added. -/
abbrev StateId := Nat

structure Pass where
  assign : Json.Object := []
  outputs : Option Json := none
  comment : Option String := none

/-- What a task state carries: the service action called, and what is done with its result. -/
structure ServiceCall where
  service : String
  action : String
  parameters : Option Json := none
  assign : Json.Object := []
  outputs : Option Json := none
  comment : Option String := none

structure Failure where
  error : Option String := none
  cause : Option String := none
  comment : Option String := none
  deriving DecidableEq

structure Rule where
  condition : Condition
  next : StateId
  deriving DecidableEq

structure Catcher where
  errors : List String
  next : StateId
  outputs : Option Json

inductive StateKind
  | pass (pass : Pass)
  | task (call : ServiceCall) (catchers : List Catcher)
  | choice (rules : List Rule) (otherwise : Option StateId)
  | fail (failure : Failure)

structure State where
  name : String
  kind : StateKind
  next : Option StateId := none

def ServiceCall.resource (c : ServiceCall) : String :=
  "arn:aws:states:::aws-sdk:" ++ c.service ++ ":" ++ c.action

/-- The error name that matches every failure. -/
def allErrors : String :=
  "States.ALL"

namespace StateKind

def label : StateKind → String
  | pass _ => "Pass"
  | task _ _ => "Task"
  | choice _ _ => "Choice"
  | fail _ => "Fail"

def isNextable : StateKind → Bool
  | pass _ => true
  | task _ _ => true
  | choice _ _ => false
  | fail _ => false

/-- The states to which the kind itself leads. -/
def targets : StateKind → List StateId
  | pass _ => []
  | task _ catchers => catchers.map Catcher.next
  | choice rules otherwise => rules.map Rule.next ++ otherwise.toList
  | fail _ => []

end StateKind

namespace State

def isNextable (s : State) : Bool :=
  s.kind.isNextable

/-- Whether a next state may still be set. -/
def isOpen (s : State) : Bool :=
  s.isNextable && s.next.isNone

/-- All states to which a state leads: the next one first, then those of its kind. -/
def successors (s : State) : List StateId :=
  s.next.toList ++ s.kind.targets

end State

/-- Why an operation on a graph is refused. -/
inductive GraphError
  | duplicateStateName (name : String)
  | alreadyHasNext (name : String)
  | notNextable (name : String)
  | notAChoice (name : String)
  | notCatchable (name : String)
  | unknownState (id : StateId)
  deriving DecidableEq

def GraphError.message : GraphError → String
  | duplicateStateName name => "State name '" ++ name ++ "' is already in use"
  | alreadyHasNext name => "State '" ++ name ++ "' already has a next state"
  | notNextable name => "State '" ++ name ++ "' cannot have a next state"
  | notAChoice name => "State '" ++ name ++ "' is not a Choice state"
  | notCatchable name => "State '" ++ name ++ "' does not support error catchers"
  | unknownState id => "Unknown state id: " ++ toString id

abbrev NameIndex := Std.ExtTreeMap String StateId

structure Graph where
  states : List State
  names : NameIndex

/-- A part of a graph with one state to enter it and some states to leave it. -/
structure Fragment where
  start : StateId
  ends : List StateId
  deriving DecidableEq

abbrev GraphOp := ExceptT GraphError (StateM Graph)

namespace Graph

def empty : Graph :=
  ⟨[], ∅⟩

def size (g : Graph) : Nat :=
  g.states.length

/-- The state that the index gives for a name. -/
def find? (g : Graph) (name : String) : Option StateId :=
  g.names[name]?

def isAvailable (g : Graph) (name : String) : Bool :=
  !g.names.contains name

def state (g : Graph) (id : StateId) : Except GraphError State :=
  match g.states[id]? with
  | some s => .ok s
  | none => .error (.unknownState id)

/-- The graph with one state changed, but for its name. -/
def modify (g : Graph) (id : StateId) (f : State → State) : Graph :=
  { g with states := g.states.modify id f }

def push (g : Graph) (s : State) : Graph :=
  ⟨g.states ++ [s], g.names.insert s.name g.size⟩

/-- Adds a state; its name must not be in use. -/
def add (name : String) (kind : StateKind) : GraphOp StateId := do
  let g ← get
  if g.isAvailable name then
    set (g.push ⟨name, kind, none⟩)
    return g.size
  else throw (.duplicateStateName name)

def addPass (name : String) (pass : Pass) : GraphOp StateId :=
  add name (.pass pass)

def addTask (name : String) (call : ServiceCall) : GraphOp StateId :=
  add name (.task call [])

def addChoice (name : String) : GraphOp StateId :=
  add name (.choice [] none)

def addFail (name : String) (failure : Failure) : GraphOp StateId :=
  add name (.fail failure)

/-- Refuses to continue a state that cannot have a next state, or has one. -/
def requireOpen (s : State) : Except GraphError Unit :=
  if !s.isNextable then .error (.notNextable s.name)
  else if s.next.isSome then .error (.alreadyHasNext s.name)
  else .ok ()

def setNext (source target : StateId) : GraphOp Unit := do
  let g ← get
  discard (g.state target)
  let s ← g.state source
  requireOpen s
  set (g.modify source fun s => { s with next := some target })

/-- Continues every end of the first fragment with the start of the second one. All ends are looked
at before the first one is continued. -/
def chain (first second : Fragment) : GraphOp Fragment := do
  let g ← get
  if first.ends.isEmpty then
    let s ← g.state first.start
    throw (.notNextable s.name)
  discard (g.state second.start)
  first.ends.forM fun id => do
    let s ← g.state id
    requireOpen s
  first.ends.forM fun id => setNext id second.start
  return ⟨first.start, second.ends⟩

def addRule (choice : StateId) (condition : Condition) (target : StateId) : GraphOp Unit := do
  let g ← get
  discard (g.state target)
  let s ← g.state choice
  match s.kind with
  | .choice rules otherwise =>
    let kind := .choice (rules ++ [⟨condition, target⟩]) otherwise
    set (g.modify choice fun s => { s with kind })
  | _ => throw (.notAChoice s.name)

def setOtherwise (choice target : StateId) : GraphOp Unit := do
  let g ← get
  discard (g.state target)
  let s ← g.state choice
  match s.kind with
  | .choice rules _ =>
    set (g.modify choice fun s => { s with kind := .choice rules (some target) })
  | _ => throw (.notAChoice s.name)

def addCatcher (task handler : StateId) (errors : List String) (outputs : Option Json) :
    GraphOp Unit := do
  let g ← get
  discard (g.state handler)
  let s ← g.state task
  match s.kind with
  | .task call catchers =>
    let kind := .task call (catchers ++ [⟨errors, handler, outputs⟩])
    set (g.modify task fun s => { s with kind })
  | _ => throw (.notCatchable s.name)

end Graph

end LifecycleFlow
