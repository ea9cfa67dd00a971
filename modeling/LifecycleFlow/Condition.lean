import LifecycleFlow.Expression
import LifecycleFlow.Json.Printer
import LifecycleFlow.Text.Character

/-!
# Conditions

Conditions of choice rules: comparisons of a reference with a literal, combined by and, or and not,
and expressions that are only passed on. A raw condition may come with or without the template
delimiters; it is written without them, so that a template never stands inside another one. When
conditions are evaluated against known variables, only references such as `$Name.field` are
understood; what depends on anything else is undecided, unless the decided parts settle it.
-/
namespace LifecycleFlow

inductive Comparison
  | equal
  | notEqual
  | greater
  | greaterOrEqual
  | less
  | lessOrEqual
  | contains
  deriving DecidableEq

inductive Literal
  | string (s : String)
  | number (x : Double)
  | bool (b : Bool)
  | null
  deriving DecidableEq

inductive Condition
  | compare (left : String) (op : Comparison) (right : Literal)
  | and (left right : Condition)
  | or (left right : Condition)
  | not (inner : Condition)
  | always
  | never
  | raw (text : String)
  deriving DecidableEq

/-- The operator as it stands between its sides, or as a function name. -/
def Comparison.text : Comparison → String
  | .equal => "="
  | .notEqual => "!="
  | .greater => ">"
  | .greaterOrEqual => ">="
  | .less => "<"
  | .lessOrEqual => "<="
  | .contains => "$contains"

namespace Literal

/-- Equality of literals as values: both zeros are equal, and what is not a number differs from
itself. -/
def same : Literal → Literal → Bool
  | .string s, .string t => s == t
  | .number x, .number y => x.eq y
  | .bool a, .bool b => a == b
  | .null, .null => true
  | _, _ => false

/-- Numbers in conditions: never an exponent, and no fraction for whole numbers. -/
def numberLayout : Decimal.Layout where
  positional _ := true
  wholeFraction := false
  tie := .up

def text : Literal → String
  | .string s => Json.quote s
  | .number x => numberLayout.textOf x
  | .bool b => if b then "true" else "false"
  | .null => "null"

end Literal

namespace Condition

/-- Equality of conditions as trees, with literals compared as values. -/
def same : Condition → Condition → Bool
  | .compare l op r, .compare l' op' r' => l == l' && op == op' && r.same r'
  | .and a b, .and a' b' => a.same a' && b.same b'
  | .or a b, .or a' b' => a.same a' && b.same b'
  | .not a, .not a' => a.same a'
  | .always, .always => true
  | .never, .never => true
  | .raw s, .raw t => s == t
  | _, _ => false

/-- The characters between the template delimiters, if a text begins with the opening one and ends
with the closing one and the two do not overlap. -/
def withoutDelimiters? (cs : List Char) : Option (List Char) :=
  match cs with
  | '{' :: '%' :: r =>
    match r.reverse with
    | '}' :: '%' :: q => some q.reverse
    | _ => none
  | _ => none

def strip (s : String) : String :=
  let cs := Text.trim s.toList
  String.ofList (((withoutDelimiters? cs).map Text.trim).getD cs)

def expression : Condition → String
  | .compare left .contains right => "$contains(" ++ left ++ ", " ++ right.text ++ ")"
  | .compare left op right => left ++ " " ++ op.text ++ " " ++ right.text
  | .and a b => "(" ++ a.expression ++ ") and (" ++ b.expression ++ ")"
  | .or a b => "(" ++ a.expression ++ ") or (" ++ b.expression ++ ")"
  | .not a => "$not(" ++ a.expression ++ ")"
  | .always => "true"
  | .never => "false"
  | .raw s => strip s

def template (c : Condition) : String :=
  Expression.template c.expression

end Condition

namespace Reference

def isNameChar (c : Char) : Bool :=
  Text.isAlphanumeric c || c == '_'

/-- A name in a reference: at least one character, each a letter, a digit or an underscore. -/
def isName (cs : List Char) : Bool :=
  !cs.isEmpty && cs.all isNameChar

/-- The pieces of a text between its points; there is always one more piece than points. -/
def pieces : List Char → List (List Char)
  | [] => [[]]
  | c :: r =>
    if c = '.' then [] :: pieces r
    else match pieces r with
      | [] => [[c]]
      | p :: ps => (c :: p) :: ps

/-- The names of a reference, the variable first. -/
def ofText? (s : String) : Option (List String) :=
  match Text.trim s.toList with
  | '$' :: body =>
    let names := pieces body
    if names.all isName then some (names.map String.ofList) else none
  | _ => none

def lookup (known : Json.Object) : List String → Option Json
  | [] => none
  | name :: fields =>
    fields.foldl (fun v field => v.bind (Json.field? field)) (Json.Object.find? name known)

end Reference

namespace Comparison

def occursIn (part : List Char) : List Char → Bool
  | [] => part.isEmpty
  | c :: r => part.isPrefixOf (c :: r) || occursIn part r

/-- Whether a value equals a literal. An absent value equals null only. -/
def equals : Option Json → Literal → Bool
  | none, .null => true
  | some .null, .null => true
  | some (.string s), .string t => s == t
  | some (.number n), .number x => n.toDouble.near x
  | some (.bool a), .bool b => a == b
  | _, _ => false

def ordered (order : Double → Double → Bool) : Option Json → Literal → Bool
  | some (.number n), .number x => order n.toDouble x
  | _, _ => false

def holds (op : Comparison) (value : Option Json) (right : Literal) : Bool :=
  match op with
  | .equal => equals value right
  | .notEqual => !equals value right
  | .greater => ordered (fun a b => b.lt a) value right
  | .greaterOrEqual => ordered (fun a b => b.le a) value right
  | .less => ordered Double.lt value right
  | .lessOrEqual => ordered Double.le value right
  | .contains =>
    match value, right with
    | some (.string s), .string t => occursIn t.toList s.toList
    | _, _ => false

end Comparison

namespace Condition

/-- The outcome of a condition, if the variables settle it. -/
def evaluate (known : Json.Object) : Condition → Option Bool
  | .compare left op right =>
    (Reference.ofText? left).map fun names =>
      op.holds (Reference.lookup known names) right
  | .and a b =>
    match a.evaluate known, b.evaluate known with
    | some false, _ => some false
    | _, some false => some false
    | some true, some true => some true
    | _, _ => none
  | .or a b =>
    match a.evaluate known, b.evaluate known with
    | some true, _ => some true
    | _, some true => some true
    | some false, some false => some false
    | _, _ => none
  | .not a => (a.evaluate known).map (!·)
  | .always => some true
  | .never => some false
  | .raw _ => none

end Condition

end LifecycleFlow
