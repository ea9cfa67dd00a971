import LifecycleFlow.Decimal
import LifecycleFlow.Json.Basic

/-!
# JSON text

JSON text, on one line or indented.
-/
namespace LifecycleFlow.Json

/-- Doubles in JSON text: no exponent while the point stands at most four places before the first
digit and at most sixteen after it; whole numbers keep `.0`; a tie takes the even digit. -/
def doubleLayout : Decimal.Layout where
  positional point := decide (-5 < point) && decide (point ≤ 16)
  wholeFraction := true
  tie := .even

def hexPair (n : Nat) : List Char :=
  [Nat.digitChar (n / 16), Nat.digitChar (n % 16)]

/-- One character inside a JSON string: quotes, backslashes and controls are escaped. -/
def escapeChar (c : Char) : List Char :=
  if c = '\x22' then ['\\', '\x22']
  else if c = '\\' then ['\\', '\\']
  else if c = '\x08' then ['\\', 'b']
  else if c = '\x0c' then ['\\', 'f']
  else if c = '\n' then ['\\', 'n']
  else if c = '\r' then ['\\', 'r']
  else if c = '\t' then ['\\', 't']
  else if c.toNat < 32 then ['\\', 'u', '0', '0'] ++ hexPair c.toNat
  else [c]

def quotedChars (cs : List Char) : List Char :=
  '\x22' :: cs.flatMap escapeChar ++ ['\x22']

def quote (s : String) : String :=
  String.ofList (quotedChars s.toList)

def numberText : JsonNumber → String
  | .whole n => toString n
  | .double x => doubleLayout.text x

def atomText : Json → String
  | .null => "null"
  | .bool b => if b then "true" else "false"
  | .number n => numberText n
  | .string s => quote s
  | .array _ => "[]"
  | .object _ => "\x7b\x7d"

mutual

/-- The text of a value on one line, without spaces. -/
def compact : Json → String
  | .array items => "[" ++ compactItems items ++ "]"
  | .object fields => "\x7b" ++ compactFields fields ++ "\x7d"
  | v => atomText v

def compactItems : List Json → String
  | [] => ""
  | [v] => compact v
  | v :: w :: r => compact v ++ "," ++ compactItems (w :: r)

def compactFields : List (String × Json) → String
  | [] => ""
  | [(k, v)] => quote k ++ ":" ++ compact v
  | (k, v) :: f :: r => quote k ++ ":" ++ compact v ++ "," ++ compactFields (f :: r)

end

/-- A line break and two spaces for each level. -/
def newline (level : Nat) : String :=
  String.ofList ('\n' :: List.replicate (2 * level) ' ')

mutual

/-- The text of a value with each item and field on its own line; the first line is not indented. -/
def pretty (level : Nat) : Json → String
  | .array (v :: r) => "[" ++ prettyItems (level + 1) (v :: r) ++ newline level ++ "]"
  | .object (f :: r) => "\x7b" ++ prettyFields (level + 1) (f :: r) ++ newline level ++ "\x7d"
  | v => atomText v

def prettyItems (level : Nat) : List Json → String
  | [] => ""
  | [v] => newline level ++ pretty level v
  | v :: w :: r => newline level ++ pretty level v ++ "," ++ prettyItems level (w :: r)

def prettyFields (level : Nat) : List (String × Json) → String
  | [] => ""
  | [(k, v)] => newline level ++ quote k ++ ": " ++ pretty level v
  | (k, v) :: f :: r =>
    newline level ++ quote k ++ ": " ++ pretty level v ++ "," ++ prettyFields level (f :: r)

end

end LifecycleFlow.Json
