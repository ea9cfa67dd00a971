import LifecycleFlow.Flow.Definition

/-!
# Encoding definitions

Definitions as JSON values: every field in its order, absent ones as null, and each step with its
kind first.
-/
namespace LifecycleFlow

def optionalJson (v : Option Json) : Json :=
  v.getD .null

def optionalString (s : Option String) : Json :=
  (s.map .string).getD .null

mutual

def Step.toJson : Step → Json
  | .pass name p => .object
    [("type", .string "pass"), ("name", .string name), ("assign", .object p.assign),
      ("outputs", optionalJson p.outputs), ("comment", optionalString p.comment)]
  | .task name c handlers => .object
    [("type", .string "task"), ("name", .string name), ("service", .string c.service),
      ("action", .string c.action), ("parameters", optionalJson c.parameters),
      ("assign", .object c.assign), ("outputs", optionalJson c.outputs),
      ("comment", optionalString c.comment), ("catch", .array (Handler.toJsonItems handlers))]
  | .fail name f => .object
    [("type", .string "fail"), ("name", .string name), ("error", optionalString f.error),
      ("cause", optionalString f.cause), ("comment", optionalString f.comment)]

def Step.toJsonItems : List Step → List Json
  | [] => []
  | s :: r => s.toJson :: Step.toJsonItems r

def Handler.toJson : Handler → Json
  | .mk errors outputs steps target => .object
    [("errors", .array (errors.map .string)), ("outputs", optionalJson outputs),
      ("steps", .array (Step.toJsonItems steps)), ("then", optionalString target)]

def Handler.toJsonItems : List Handler → List Json
  | [] => []
  | h :: r => h.toJson :: Handler.toJsonItems r

end

def FlowDefinition.toJson (d : FlowDefinition) : Json :=
  let branch (steps : Option (List Step)) : Json :=
    (steps.map fun l => .array (Step.toJsonItems l)).getD .null
  .object
    [("name", .string d.name), ("comment", optionalString d.comment),
      ("prefix", optionalString d.namePrefix), ("on_create", branch d.onCreate),
      ("on_update", branch d.onUpdate), ("on_delete", branch d.onDelete)]

end LifecycleFlow
