import LifecycleFlow.Double

/-!
# Decimals

Doubles written as decimals and read from them. A double is written with the fewest digits that read
back as it: the numbers that round to it form an interval; of the grids of multiples of a power of
ten the coarsest one that meets this interval is taken, and on it the point nearest to the double. A
layout then says where the point stands and when an exponent is used. What is read is an optional
sign, digits with at most one point and an optional power of ten, or a word for infinity or for what
is not a number; it is rounded to the nearest double.
-/
namespace LifecycleFlow.Decimal

/-- A decimal `coefficient · 10 ^ exponent`. -/
structure Digits where
  coefficient : Nat
  exponent : Int
  deriving DecidableEq

inductive Tie
  | up
  | even
  deriving DecidableEq

/-- The interval of numbers that round to a double: the double and both ends, as numerators over
one denominator, and whether the ends belong to it. -/
structure Interval where
  lower : Nat
  value : Nat
  upper : Nat
  den : Nat
  closed : Bool

/-- The interval of a finite double other than zero. Below a power of two the doubles lie twice as
dense, so there the lower end is nearer. -/
def Interval.ofDouble (x : FiniteDouble) : Interval :=
  let below := if x.significand = Nat.pow 2 52 ∧ x.exponent ≠ -1074 then 1 else 2
  let shift := x.exponent - 2
  let scale := Nat.pow 2 shift.toNat
  { lower := (4 * x.significand - below) * scale
    value := 4 * x.significand * scale
    upper := (4 * x.significand + 2) * scale
    den := Nat.pow 2 (-shift).toNat
    closed := x.significand % 2 = 0 }

/-- The nearest multiple of `10 ^ k` in the interval, if one of the two multiples around the value
lies in it. -/
def Interval.onGrid (i : Interval) (tie : Tie) (k : Int) : Option Nat :=
  let up := Nat.pow 10 (-k).toNat
  let step := i.den * Nat.pow 10 k.toNat
  let value := i.value * up
  let c := value / step
  let inside (a b : Nat) : Bool := decide (a < b) || (i.closed && a == b)
  let low := inside (i.lower * up) (c * step)
  let high := inside ((c + 1) * step) (i.upper * up)
  match low, high with
  | true, false => some c
  | false, true => some (c + 1)
  | false, false => none
  | true, true =>
    let r := 2 * (value % step)
    if r < step then some c
    else if step < r then some (c + 1)
    else match tie with
      | .up => some (c + 1)
      | .even => if c % 2 = 0 then some c else some (c + 1)

def grids (i : Interval) : List Int :=
  let coarsest := (Nat.toDigits 10 (i.upper / i.den)).length
  (List.range (coarsest + 400)).map fun (n : Nat) => (coarsest : Int) - n

def shortest (tie : Tie) (x : FiniteDouble) : Digits :=
  let i := Interval.ofDouble x
  ((grids i).findSome? fun k => (i.onGrid tie k).map (Digits.mk · k)).getD ⟨0, 0⟩

structure Layout where
  /-- For which places of the point, counted from the first digit, no exponent is used. -/
  positional : Int → Bool
  /-- Whether a whole number is written with the fraction `.0`. -/
  wholeFraction : Bool
  tie : Tie

/-- Digits with the point after the first `point` of them, filled up with zeros where needed. -/
def Layout.positionalText (l : Layout) (digits : List Char) (point : Int) : List Char :=
  if point ≤ 0 then
    '0' :: '.' :: (List.replicate (-point).toNat '0' ++ digits)
  else if (digits.length : Int) ≤ point then
    digits ++ List.replicate (point.toNat - digits.length) '0' ++
      if l.wholeFraction then ['.', '0'] else []
  else
    digits.take point.toNat ++ '.' :: digits.drop point.toNat

def exponentText (digits : List Char) (point : Int) : List Char :=
  let e := point - 1
  digits.take 1 ++ (if digits.length ≤ 1 then [] else '.' :: digits.drop 1) ++
    'e' :: (if e < 0 then '-' else '+') :: Nat.toDigits 10 e.natAbs

def Layout.magnitudeText (l : Layout) (x : FiniteDouble) : List Char :=
  if x.significand = 0 then '0' :: if l.wholeFraction then ['.', '0'] else []
  else
    let d := shortest l.tie x
    let digits := Nat.toDigits 10 d.coefficient
    let point := (digits.length : Int) + d.exponent
    if l.positional point then l.positionalText digits point else exponentText digits point

def Layout.text (l : Layout) (x : FiniteDouble) : String :=
  String.ofList ((if x.negative then ['-'] else []) ++ l.magnitudeText x)

def Layout.textOf (l : Layout) : Double → String
  | .finite x => l.text x
  | .infinite negative => if negative then "-inf" else "inf"
  | .nan => "NaN"

def digitValue (c : Char) : Nat :=
  c.toNat - 48

def ofDigits (start : Nat) (digits : List Char) : Nat :=
  digits.foldl (fun n c => 10 * n + digitValue c) start

/-- The double nearest to `± coefficient · 10 ^ exponent`. Far outside the range of doubles the
answer is known without the power of ten. -/
def toDouble (negative : Bool) (coefficient : Nat) (exponent : Int) : Double :=
  let magnitude := ((Nat.toDigits 10 coefficient).length : Int) + exponent
  if coefficient = 0 then .finite (.zero negative)
  else if 310 < magnitude then .infinite negative
  else if magnitude < -330 then .finite (.zero negative)
  else .ofRatio negative (coefficient * Nat.pow 10 exponent.toNat) (Nat.pow 10 (-exponent).toNat)

/-- The power of ten after a number: nothing, or `e` with a signed whole number. -/
def exponent? : List Char → Option Int
  | [] => some 0
  | c :: r =>
    if c = 'e' ∨ c = 'E' then
      let (negative, digits) := match r with
        | '-' :: r => (true, r)
        | '+' :: r => (false, r)
        | r => (false, r)
      if digits ≠ [] ∧ digits.all Char.isDigit then
        let n : Int := ofDigits 0 digits
        some (if negative then -n else n)
      else none
    else none

def unsigned? (negative : Bool) (cs : List Char) : Option Double :=
  let whole := cs.takeWhile Char.isDigit
  let rest := cs.dropWhile Char.isDigit
  let (fraction, rest) := match rest with
    | '.' :: r => (r.takeWhile Char.isDigit, r.dropWhile Char.isDigit)
    | r => ([], r)
  if whole = [] ∧ fraction = [] then none
  else (exponent? rest).map fun e =>
    toDouble negative (ofDigits (ofDigits 0 whole) fraction) (e - fraction.length)

/-- A word for infinity or for what is not a number, in any case. -/
def special? (negative : Bool) (cs : List Char) : Option Double :=
  let word := String.ofList (cs.map Char.toLower)
  if word = "inf" ∨ word = "infinity" then some (.infinite negative)
  else if word = "nan" then some .nan
  else none

def read? (cs : List Char) : Option Double :=
  let (negative, body) := match cs with
    | '-' :: r => (true, r)
    | '+' :: r => (false, r)
    | r => (false, r)
  (special? negative body).or (unsigned? negative body)

end LifecycleFlow.Decimal
