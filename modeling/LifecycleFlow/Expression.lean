/-!
# Expressions

The texts of expressions: paths into data that exists only when a workflow runs, expressions made of
other ones, and the `$states` tree that every state can refer to. Main statements: taking a field
appends it to the text after a point, and leaves the path it was taken from unchanged, since paths
are values.
-/
namespace LifecycleFlow

/-- A path: where it starts, and the fields taken one after the other. -/
structure Path where
  anchor : String
  segments : List String
  deriving DecidableEq

namespace Path

def ofAnchor (anchor : String) : Path :=
  ⟨anchor, []⟩

def field (p : Path) (name : String) : Path :=
  { p with segments := p.segments ++ [name] }

def fields (p : Path) (names : List String) : Path :=
  names.foldl field p

/-- The text of a path: its anchor, and each field after a point. -/
def text (p : Path) : String :=
  p.segments.foldl (fun s name => s ++ "." ++ name) p.anchor

@[simp] theorem text_ofAnchor (anchor : String) : (ofAnchor anchor).text = anchor := rfl

@[simp] theorem text_field (p : Path) (name : String) :
    (p.field name).text = p.text ++ "." ++ name := by
  simp [text, field]

end Path

namespace Expression

/-- The form in which a field of a state holds an expression. -/
def template (e : String) : String :=
  "\x7b% " ++ e ++ " %\x7d"

def map (array function : String) : String :=
  "$map(" ++ array ++ ", " ++ function ++ ")"

def isPresent (e : String) : String :=
  "$exists(" ++ e ++ ")"

/-- The value of an expression, or null where it has none. -/
def orNull (e : String) : String :=
  isPresent e ++ " ? " ++ e ++ " : null"

end Expression

inductive Catalog
  | states
  | input
  | result
  | errorOutput
  | error
  | cause
  | context
  | execution
  | executionId
  | executionInput
  | executionName
  | executionRoleArn
  | executionStartTime
  | executionRedriveCount
  | executionRedriveTime
  | state
  | stateEnteredTime
  | stateName
  | stateRetryCount
  | stateMachine
  | stateMachineId
  | stateMachineName
  | task
  | taskToken
  deriving DecidableEq

namespace Catalog

/-- All nodes below the root, parents before their children. -/
def all : List Catalog :=
  [input, result, errorOutput, error, cause, context, execution, executionId, executionInput,
    executionName, executionRoleArn, executionStartTime, executionRedriveCount,
    executionRedriveTime, state, stateEnteredTime, stateName, stateRetryCount, stateMachine,
    stateMachineId, stateMachineName, task, taskToken]

/-- The nodes with parts of their own. -/
def containers : List Catalog :=
  [states, errorOutput, context, execution, state, stateMachine, task]

def key : Catalog → String
  | states => "states"
  | input => "input"
  | result => "result"
  | errorOutput => "error_output"
  | error => "error_output.error"
  | cause => "error_output.cause"
  | context => "context"
  | execution => "context.execution"
  | executionId => "context.execution.id"
  | executionInput => "context.execution.input"
  | executionName => "context.execution.name"
  | executionRoleArn => "context.execution.role_arn"
  | executionStartTime => "context.execution.start_time"
  | executionRedriveCount => "context.execution.redrive_count"
  | executionRedriveTime => "context.execution.redrive_time"
  | state => "context.state"
  | stateEnteredTime => "context.state.entered_time"
  | stateName => "context.state.name"
  | stateRetryCount => "context.state.retry_count"
  | stateMachine => "context.state_machine"
  | stateMachineId => "context.state_machine.id"
  | stateMachineName => "context.state_machine.name"
  | task => "context.task"
  | taskToken => "context.task.token"

/-- The fields that lead from the root to a node. -/
def segments : Catalog → List String
  | states => []
  | input => ["input"]
  | result => ["result"]
  | errorOutput => ["errorOutput"]
  | error => ["errorOutput", "Error"]
  | cause => ["errorOutput", "Cause"]
  | context => ["context"]
  | execution => ["context", "Execution"]
  | executionId => ["context", "Execution", "Id"]
  | executionInput => ["context", "Execution", "Input"]
  | executionName => ["context", "Execution", "Name"]
  | executionRoleArn => ["context", "Execution", "RoleArn"]
  | executionStartTime => ["context", "Execution", "StartTime"]
  | executionRedriveCount => ["context", "Execution", "RedriveCount"]
  | executionRedriveTime => ["context", "Execution", "RedriveTime"]
  | state => ["context", "State"]
  | stateEnteredTime => ["context", "State", "EnteredTime"]
  | stateName => ["context", "State", "Name"]
  | stateRetryCount => ["context", "State", "RetryCount"]
  | stateMachine => ["context", "StateMachine"]
  | stateMachineId => ["context", "StateMachine", "Id"]
  | stateMachineName => ["context", "StateMachine", "Name"]
  | task => ["context", "Task"]
  | taskToken => ["context", "Task", "Token"]

def text (c : Catalog) : String :=
  ((Path.ofAnchor "$states").fields c.segments).text

def path (c : Catalog) : Path :=
  Path.ofAnchor c.text

def ofKey? (key : String) : Option Catalog :=
  (states :: all).find? fun c => c.key = key

/-- One line of the listing: the name, filled up with blanks to 34 characters, and the
expression. -/
def line (c : Catalog) : String :=
  c.key ++ String.ofList (List.replicate (34 - c.key.length) ' ') ++ " " ++ c.text

end Catalog

end LifecycleFlow
