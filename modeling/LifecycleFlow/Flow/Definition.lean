import LifecycleFlow.Graph.Basic

/-!
# Workflow definitions

Definitions of lifecycle workflows as their authors write them: for each type of request a list of
steps, where a task may catch errors with steps of its own.
-/
namespace LifecycleFlow

mutual

inductive Step
  | pass (name : String) (pass : Pass)
  | task (name : String) (call : ServiceCall) (handlers : List Handler)
  | fail (name : String) (failure : Failure)

/-- What is done about some errors of a task: steps, and the name of the state that follows them. -/
inductive Handler
  | mk (errors : List String) (outputs : Option Json) (steps : List Step) (target : Option String)

end

def Step.name : Step → String
  | pass name _ => name
  | task name _ _ => name
  | fail name _ => name

/-- Whether a step ends the workflow with a failure. -/
def Step.isFail : Step → Bool
  | fail _ _ => true
  | _ => false

namespace Handler

def errors : Handler → List String
  | mk errors _ _ _ => errors

def outputs : Handler → Option Json
  | mk _ outputs _ _ => outputs

def steps : Handler → List Step
  | mk _ _ steps _ => steps

def target : Handler → Option String
  | mk _ _ _ target => target

end Handler

/-- A definition: a name, a comment, a text put before all state names, and the three branches. -/
structure FlowDefinition where
  name : String
  comment : Option String := none
  namePrefix : Option String := none
  onCreate : Option (List Step) := none
  onUpdate : Option (List Step) := none
  onDelete : Option (List Step) := none

end LifecycleFlow
