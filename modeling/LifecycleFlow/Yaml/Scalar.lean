import LifecycleFlow.Decimal
import LifecycleFlow.Decoding.Content
import LifecycleFlow.Text.Character
import LifecycleFlow.Yaml.Tag

/-!
# The meaning of scalars

What the text of a scalar stands for. A plain scalar is null, a truth value or a number if its text
is written like one, and a text otherwise; quoted and block scalars are texts; a tag of the YAML
types decides by itself.
-/
namespace LifecycleFlow.Yaml.Scalar

/-- The meaning of a scalar. Numbers of more than 64 bits are told apart, since no value takes
them. -/
inductive Meaning
  | value (c : Content)
  | wide (n : Int)

def isNull (s : String) : Bool :=
  s == "null" || s == "Null" || s == "NULL" || s == "~"

def truth? (s : String) : Option Bool :=
  if s = "true" ∨ s = "True" ∨ s = "TRUE" then some true
  else if s = "false" ∨ s = "False" ∨ s = "FALSE" then some false
  else none

def digits? (base : Nat) (cs : List Char) : Option Nat :=
  if cs.isEmpty then none else Text.number? base cs

/-- The base and the digits of a number that names its base. -/
def based? : List Char → Option (Nat × List Char)
  | '0' :: 'x' :: r => some (16, r)
  | '0' :: 'o' :: r => some (8, r)
  | '0' :: 'b' :: r => some (2, r)
  | _ => none

/-- Whether a text is digits after a zero, perhaps signed: then it is no number. -/
def hasLeadingZero (cs : List Char) : Bool :=
  let body := match cs with
    | '-' :: r => r
    | '+' :: r => r
    | r => r
  match body with
  | '0' :: c :: r => (c :: r).all Char.isDigit
  | _ => false

def natural? (cs : List Char) : Option Nat :=
  let body := match cs with
    | '+' :: r => r
    | r => r
  let named := (based? body).bind fun (base, r) => digits? base r
  named.or (if hasLeadingZero cs then none else digits? 10 body)

def negated? : List Char → Option Nat
  | '-' :: body =>
    let named := (based? body).bind fun (base, r) => digits? base r
    named.or (if hasLeadingZero body then none else digits? 10 body)
  | _ => none

/-- The whole number that a text spells, if it fits 128 bits. -/
def whole? (s : String) : Option Meaning :=
  let cs := s.toList
  match natural? cs, negated? cs with
  | some n, _ =>
    if n < Nat.pow 2 64 then some (.value (.natural n))
    else if n < Nat.pow 2 128 then some (.wide n)
    else none
  | none, some n =>
    if n ≤ Nat.pow 2 63 then some (.value (.integer (-n)))
    else if n ≤ Nat.pow 2 127 then some (.wide (-n))
    else none
  | none, none => none

/-- The double that a text spells: a finite decimal, or a word with a point for infinity or for what
is not a number. -/
def double? (s : String) : Option Double :=
  if s = "-.inf" ∨ s = "-.Inf" ∨ s = "-.INF" then some (.infinite true)
  else if s = ".nan" ∨ s = ".NaN" ∨ s = ".NAN" then some .nan
  else
    let (signed, body) := match s.toList with
      | '+' :: r => (true, r)
      | r => (false, r)
    let word := String.ofList body
    if word = ".inf" ∨ word = ".Inf" ∨ word = ".INF" then some (.infinite false)
    else if signed && (body.head?).any (fun c => c == '+' || c == '-') then none
    else
      match Decimal.read? body with
      | some (.finite x) => some (.finite x)
      | _ => none

def plainMeaning (s : String) : Meaning :=
  if s = "" ∨ isNull s then .value .null
  else match truth? s with
    | some b => .value (.bool b)
    | none =>
      match whole? s with
      | some m => m
      | none =>
        match if hasLeadingZero s.toList then none else double? s with
        | some x => .value (.double x)
        | none => .value (.string s)

def meaning (tag : Option Address) (s : String) (plain : Bool) : Decoded Meaning :=
  let forced (m : Option Meaning) (expected : Expected) : Decoded Meaning :=
    match m with
    | some m => .ok m
    | none => .error (.invalidValue (.string s) expected)
  match tag with
  | none => .ok (if plain then plainMeaning s else .value (.string s))
  | some t =>
    if t = Address.ofType "bool" then forced ((truth? s).map fun b => .value (.bool b)) .truth
    else if t = Address.ofType "int" then forced (whole? s) .whole
    else if t = Address.ofType "float" then
      forced ((double? s).map fun x => .value (.double x)) .decimal
    else if t = Address.ofType "null" then
      forced (if isNull s then some (.value .null) else none) .nothing
    else .ok (if t.isLocal && plain then plainMeaning s else .value (.string s))

def refuse (tag : Option Address) (s : String) (plain : Bool) (expected : Expected) :
    DecodeError :=
  match meaning tag s plain with
  | .ok (.value c) => .invalidType c.found expected
  | .ok (.wide n) => .invalidType (.wide n) expected
  | .error e => e

/-- Whether a scalar stands for an absent value: it is plain, and empty or a word for null. A tag
keeps it, except the tag of null. -/
def isAbsent (tag : Option Address) (s : String) (plain : Bool) : Decoded Bool :=
  if !plain then .ok false
  else match tag with
    | none => .ok (s == "" || isNull s)
    | some t =>
      if t = Address.ofType "null" then
        if isNull s then .ok true else .error (.invalidValue (.string s) .nothing)
      else .ok false

end LifecycleFlow.Yaml.Scalar
