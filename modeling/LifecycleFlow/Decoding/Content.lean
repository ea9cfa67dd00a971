import LifecycleFlow.Decoding.Error

/-!
# Values of unknown meaning

Values of either notation before it is known what they stand for. Keys of mappings may be any value;
a whole number remembers whether it was written without a sign, since only then it can number a
field.
-/
namespace LifecycleFlow

/-- A value of either notation. -/
inductive Content
  | null
  | bool (b : Bool)
  | natural (n : Nat)
  | integer (n : Int)
  | double (x : Double)
  | string (s : String)
  | sequence (items : List Content)
  | mapping (entries : List (Content × Content))

abbrev Decoded := Except DecodeError

namespace Content

def found : Content → Found
  | null => .null
  | bool b => .bool b
  | natural n => .whole n
  | integer n => .whole n
  | double x => .double x
  | string s => .string s
  | sequence _ => .sequence
  | mapping _ => .mapping

mutual

def ofJson : Json → Content
  | .null => null
  | .bool b => bool b
  | .number (.whole n) => if 0 ≤ n then natural n.toNat else integer n
  | .number (.double x) => double (.finite x)
  | .string s => string s
  | .array items => sequence (ofItems items)
  | .object fields => mapping (ofFields fields)

def ofItems : List Json → List Content
  | [] => []
  | v :: r => ofJson v :: ofItems r

def ofFields : List (String × Json) → List (Content × Content)
  | [] => []
  | (k, v) :: r => (string k, ofJson v) :: ofFields r

end

def keyText (expected : Expected) : Content → Decoded String
  | string s => .ok s
  | c => .error (.invalidType c.found expected)

mutual

/-- Content as a JSON value. Numbers that JSON lacks become null. -/
def toJson : Content → Decoded Json
  | null => .ok .null
  | bool b => .ok (.bool b)
  | natural n => .ok (.number (.whole n))
  | integer n => .ok (.number (.whole n))
  | double (.finite x) => .ok (.number (.double x))
  | double _ => .ok .null
  | string s => .ok (.string s)
  | sequence items => return .array (← toItems items)
  | mapping entries => return .object (← toFields .key [] entries)

def toItems : List Content → Decoded (List Json)
  | [] => .ok []
  | c :: r => do
    let v ← toJson c
    return v :: (← toItems r)

/-- Entries as fields, added to an object; the first key names its kind in its own way. -/
def toFields (expected : Expected) (object : Json.Object) :
    List (Content × Content) → Decoded Json.Object
  | [] => .ok object
  | (k, v) :: r => do
    let key ← keyText expected k
    let value ← toJson v
    toFields .string (object.insert key value) r

end

def asString : Content → Decoded String
  | string s => .ok s
  | c => .error (.invalidType c.found .string)

def asOptionalString : Content → Decoded (Option String)
  | null => .ok none
  | c => some <$> c.asString

def asOptionalJson : Content → Decoded (Option Json)
  | null => .ok none
  | c => some <$> c.toJson

def asObject : Content → Decoded Json.Object
  | mapping entries => toFields .string [] entries
  | c => .error (.invalidType c.found .mapping)

def asStrings : Content → Decoded (List String)
  | sequence items => items.mapM asString
  | c => .error (.invalidType c.found .sequence)

/-- The field of a record that a key names: by its text, or by its number. Other texts and numbers
name no field. -/
def asField (r : Record) : Content → Decoded (Option String)
  | string s => .ok (if s ∈ r.fields then some s else none)
  | natural n => .ok r.fields[n]?
  | c => .error (.invalidType c.found .field)

end Content

end LifecycleFlow
