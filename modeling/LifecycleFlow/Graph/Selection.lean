import LifecycleFlow.Condition
import LifecycleFlow.Graph.Basic

/-!
# Branch selection

Which branch a choice takes for known variables: the first rule that holds, else the default. A rule
that the variables do not settle, met before any rule that holds, leaves the choice undecided.
-/
namespace LifecycleFlow

inductive Selection
  | rule (index : Nat) (target : StateId)
  | otherwise (target : StateId)
  | noMatch
  | undecidable (index : Nat)
  deriving DecidableEq

/-- The branch taken when the rules are tried from the given index on. -/
def Selection.ofRules (known : Json.Object) (index : Nat) (rules : List Rule)
    (otherwise : Option StateId) : Selection :=
  match rules with
  | [] =>
    match otherwise with
    | some target => .otherwise target
    | none => .noMatch
  | r :: rest =>
    match r.condition.evaluate known with
    | some true => .rule index r.next
    | some false => ofRules known (index + 1) rest otherwise
    | none => .undecidable index

def Graph.select (g : Graph) (choice : StateId) (known : Json.Object) :
    Except GraphError Selection := do
  let s ← g.state choice
  match s.kind with
  | .choice rules otherwise => return .ofRules known 0 rules otherwise
  | _ => throw (.notAChoice s.name)

end LifecycleFlow
