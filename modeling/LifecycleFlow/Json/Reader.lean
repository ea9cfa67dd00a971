import LifecycleFlow.Decimal
import LifecycleFlow.Json.Basic
import LifecycleFlow.Text.Character

/-!
# Reading JSON text

Reading JSON text. Objects keep the order of their keys; a repeated key keeps its place and takes
the last value.
-/
namespace LifecycleFlow.Json

def skipBlanks (cs : List Char) : List Char :=
  cs.dropWhile fun c => c = ' ' || c = '\t' || c = '\n' || c = '\r'

def fourHex? : List Char → Option (Nat × List Char)
  | a :: b :: c :: d :: r =>
    (Text.number? 16 [a, b, c, d]).map (·, r)
  | _ => none

def shortEscape? : Char → Option Char
  | '\x22' => some '\x22'
  | '\\' => some '\\'
  | '/' => some '/'
  | 'b' => some '\x08'
  | 'f' => some '\x0c'
  | 'n' => some '\n'
  | 'r' => some '\r'
  | 't' => some '\t'
  | _ => none

/-- The rest of a string after its opening quote. Characters outside the basic plane are two
escapes, a high surrogate and a low one; a surrogate alone is no character. -/
def stringChars? (fuel : Nat) (cs : List Char) : Option (List Char × List Char) :=
  match fuel, cs with
  | _, '\x22' :: r => some ([], r)
  | fuel + 1, '\\' :: 'u' :: r => do
    let (n, r) ← fourHex? r
    if 0xd800 ≤ n ∧ n < 0xdc00 then
      match r with
      | '\\' :: 'u' :: r => do
        let (m, r) ← fourHex? r
        if 0xdc00 ≤ m ∧ m < 0xe000 then
          let (s, r) ← stringChars? fuel r
          some (Char.ofNat (0x10000 + (n - 0xd800) * 0x400 + (m - 0xdc00)) :: s, r)
        else none
      | _ => none
    else if 0xdc00 ≤ n ∧ n < 0xe000 then none
    else do
      let (s, r) ← stringChars? fuel r
      some (Char.ofNat n :: s, r)
  | fuel + 1, '\\' :: c :: r => do
    let c ← shortEscape? c
    let (s, r) ← stringChars? fuel r
    some (c :: s, r)
  | fuel + 1, c :: r =>
    if c.toNat < 32 ∨ c = '\\' then none
    else do
      let (s, r) ← stringChars? fuel r
      some (c :: s, r)
  | _, _ => none

/-- Multiplies by a power of ten in steps of at most `10 ^ 308`, rounding the power and each
result. -/
def scaleByTen (x : FiniteDouble) (exponent : Int) : Option FiniteDouble :=
  let step (x : FiniteDouble) (e : Int) : Option FiniteDouble :=
    match Double.ofInt (Nat.pow 10 e.natAbs) with
    | .finite pow =>
      match if 0 ≤ e then Double.mul x pow else Double.div x pow with
      | .finite y => some y
      | _ => none
    | _ => none
  if x.significand = 0 then some x
  else if exponent < -308 then
    if exponent < -700 then some (.zero x.negative)
    else (step x (-308)).bind fun y =>
      if exponent < -616 then (step y (-308)).bind (step · (exponent + 616))
      else step y (exponent + 308)
  else if 308 < exponent then none
  else step x exponent

/-- Digits after a number, as long as the number then fits 64 bits; also how many are left out. -/
def appendDigits (start : Nat) (digits : List Char) : Nat × Nat :=
  digits.foldl
    (fun (n, dropped) c =>
      let m := 10 * n + Decimal.digitValue c
      if dropped = 0 ∧ m < Nat.pow 2 64 then (m, 0) else (n, dropped + 1))
    (start, 0)

/-- A number from its sign, its digits before and after the point, and its power of ten. Whole
numbers of 64 bits are kept as they are. All else is rounded in steps: the leading digits on either
side of the point first, then their product with the power of ten. -/
def number? (negative : Bool) (whole fraction : List Char) (exponent : Option Int) :
    Option JsonNumber :=
  let n := Decimal.ofDigits 0 whole
  if fraction = [] ∧ exponent = none ∧
      (if negative then 0 < n ∧ n ≤ Nat.pow 2 63 else n < Nat.pow 2 64) then
    some (.whole (if negative then -(n : Int) else n))
  else
    let (m, above) := appendDigits 0 whole
    let (m, below) := appendDigits m fraction
    match Double.ofRatio negative m 1 with
    | .finite x =>
      (scaleByTen x (exponent.getD 0 - fraction.length + above + below)).map .double
    | _ => none

def readNumber? (cs : List Char) : Option (JsonNumber × List Char) :=
  let (negative, cs) := match cs with
    | '-' :: r => (true, r)
    | r => (false, r)
  let whole := cs.takeWhile Char.isDigit
  let r := cs.dropWhile Char.isDigit
  if whole = [] ∨ (whole.head? = some '0' ∧ whole.length ≠ 1) then none
  else
    let (point, fraction, r) := match r with
      | '.' :: r => (true, r.takeWhile Char.isDigit, r.dropWhile Char.isDigit)
      | r => (false, [], r)
    if point ∧ fraction = [] then none
    else
      let scaled := match r with
        | c :: _ => c = 'e' || c = 'E'
        | [] => false
      if scaled then
        let signed := match r.drop 1 with
          | '-' :: _ => true
          | '+' :: _ => true
          | _ => false
        let sign := r.take (if signed then 2 else 1)
        let digits := (r.drop sign.length).takeWhile Char.isDigit
        let r := (r.drop sign.length).dropWhile Char.isDigit
        (Decimal.exponent? (sign ++ digits)).bind fun e =>
          (number? negative whole fraction (some e)).map (·, r)
      else (number? negative whole fraction none).map (·, r)

mutual

/-- Reads a value; the fuel bounds the number of characters. -/
def readValue? (fuel : Nat) (cs : List Char) : Option (Json × List Char) :=
  match fuel with
  | 0 => none
  | fuel + 1 =>
    match skipBlanks cs with
    | 'n' :: 'u' :: 'l' :: 'l' :: r => some (.null, r)
    | 't' :: 'r' :: 'u' :: 'e' :: r => some (.bool true, r)
    | 'f' :: 'a' :: 'l' :: 's' :: 'e' :: r => some (.bool false, r)
    | '\x22' :: r => (stringChars? r.length r).map fun (s, r) => (.string (String.ofList s), r)
    | '[' :: r =>
      match skipBlanks r with
      | ']' :: r => some (.array [], r)
      | _ => (readItems? fuel r).map fun (items, r) => (.array items, r)
    | '{' :: r =>
      match skipBlanks r with
      | '}' :: r => some (.object [], r)
      | _ => (readFields? fuel r).map fun (fields, r) => (.object (Object.ofList fields), r)
    | cs => (readNumber? cs).map fun (n, r) => (.number n, r)

def readItems? (fuel : Nat) (cs : List Char) : Option (List Json × List Char) :=
  match fuel with
  | 0 => none
  | fuel + 1 => do
    let (v, r) ← readValue? fuel cs
    match skipBlanks r with
    | ']' :: r => some ([v], r)
    | ',' :: r => do
      let (items, r) ← readItems? fuel r
      some (v :: items, r)
    | _ => none

def readFields? (fuel : Nat) (cs : List Char) : Option (List (String × Json) × List Char) :=
  match fuel with
  | 0 => none
  | fuel + 1 =>
    match skipBlanks cs with
    | '\x22' :: r => do
      let (k, r) ← stringChars? r.length r
      match skipBlanks r with
      | ':' :: r => do
        let (v, r) ← readValue? fuel r
        match skipBlanks r with
        | '}' :: r => some ([(String.ofList k, v)], r)
        | ',' :: r => do
          let (fields, r) ← readFields? fuel r
          some ((String.ofList k, v) :: fields, r)
        | _ => none
      | _ => none
    | _ => none

end

def read? (s : String) : Option Json :=
  match readValue? (s.length + 1) s.toList with
  | some (v, r) => if skipBlanks r = [] then some v else none
  | none => none

end LifecycleFlow.Json
