import LifecycleFlow.Condition
import LifecycleFlow.Graph.Reachability

/-!
# State machine documents

The state machine document of a graph: the states reachable from a start, in depth-first order, each
under its name.
-/
namespace LifecycleFlow.Graph

/-- A field that is written only if there is a value. -/
def optionalField (key : String) (value : Option Json) : List (String × Json) :=
  (value.map fun v => (key, v)).toList

def optionalText (key : String) (value : Option String) : List (String × Json) :=
  optionalField key (value.map .string)

def assignField (assign : Json.Object) : List (String × Json) :=
  if assign.isEmpty then [] else [("Assign", .object assign)]

/-- The name of a state, as a document refers to it. -/
def nameOf (g : Graph) (id : StateId) : Except GraphError Json := do
  let s ← g.state id
  return .string s.name

def catcherDocument (g : Graph) (c : Catcher) : Except GraphError Json := do
  let next ← g.nameOf c.next
  return .object ([("ErrorEquals", .array (c.errors.map .string)), ("Next", next)] ++
    optionalField "Output" c.outputs)

def ruleDocument (g : Graph) (r : Rule) : Except GraphError Json := do
  let next ← g.nameOf r.next
  return .object [("Condition", .string r.condition.template), ("Next", next)]

def kindFields (g : Graph) : StateKind → Except GraphError (List (String × Json))
  | .pass p =>
    return optionalText "Comment" p.comment ++ assignField p.assign ++
      optionalField "Output" p.outputs
  | .task c catchers => do
    let documents ← catchers.mapM g.catcherDocument
    return optionalText "Comment" c.comment ++ [("Resource", .string c.resource)] ++
      optionalField "Arguments" c.parameters ++ assignField c.assign ++
      optionalField "Output" c.outputs ++
      if documents.isEmpty then [] else [("Catch", .array documents)]
  | .choice rules otherwise => do
    let documents ← rules.mapM g.ruleDocument
    let target ← otherwise.mapM g.nameOf
    return [("Choices", .array documents)] ++ optionalField "Default" target
  | .fail f =>
    return optionalText "Comment" f.comment ++ optionalText "Error" f.error ++
      optionalText "Cause" f.cause

/-- Where a pass or task state goes on, or that it ends. -/
def nextFields (g : Graph) (s : State) : Except GraphError (List (String × Json)) :=
  if s.isNextable then
    match s.next with
    | some next => do return [("Next", ← g.nameOf next)]
    | none => return [("End", .bool true)]
  else return []

def stateDocument (g : Graph) (s : State) : Except GraphError Json := do
  let kind ← g.kindFields s.kind
  let next ← g.nextFields s
  return .object ([("Type", .string s.kind.label)] ++ kind ++ next)

def stateEntry (g : Graph) (id : StateId) : Except GraphError (String × Json) := do
  let s ← g.state id
  return (s.name, ← g.stateDocument s)

def document (g : Graph) (start : StateId) (comment : Option String) : Except GraphError Json := do
  let ids ← g.reachable start
  let entries ← ids.mapM g.stateEntry
  let name ← g.nameOf start
  return .object (optionalText "Comment" comment ++
    [("QueryLanguage", .string "JSONata"), ("StartAt", name),
      ("States", .object (Json.Object.ofList entries))])

end LifecycleFlow.Graph
