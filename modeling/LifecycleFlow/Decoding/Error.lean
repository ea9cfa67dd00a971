import LifecycleFlow.Json.Printer
import LifecycleFlow.Text.Quoted

/-!
# Decoding errors

Why a well-formed text is not a definition: what was found where something else was expected. The
two notations name what they found in their own words.
-/
namespace LifecycleFlow

/-- The notation in which a definition is written. -/
inductive Notation
  | json
  | yaml
  deriving DecidableEq

inductive Found
  | null
  | bool (b : Bool)
  | whole (n : Int)
  /-- A whole number of more than 64 and at most 128 bits. -/
  | wide (n : Int)
  | double (x : Double)
  | string (s : String)
  | sequence
  | mapping
  | tagged
  deriving DecidableEq

/-- The records of a definition. -/
inductive Record
  | definition
  | pass
  | task
  | fail
  | handler
  deriving DecidableEq

inductive Expected
  | record (r : Record)
  | step
  | variant
  | variantIndex
  | field
  | string
  | key
  | sequence
  | mapping
  | anyValue
  | whole
  | decimal
  | truth
  | nothing
  deriving DecidableEq

inductive ExpectedLength
  | fields (r : Record)
  | inSequence (n : Nat)
  | fewer
  deriving DecidableEq

inductive DecodeError
  | invalidType (found : Found) (expected : Expected)
  | invalidValue (found : Found) (expected : Expected)
  | invalidLength (n : Nat) (expected : ExpectedLength)
  | missingField (name : String)
  | duplicateField (name : String)
  | unknownVariant (name : String)
  | tagInside
  | nestingLimit
  | repetitionLimit
  deriving DecidableEq

namespace Record

def label : Record → String
  | definition => "struct FlowDefinition"
  | pass => "struct PassStep"
  | task => "struct TaskStep"
  | fail => "struct FailStep"
  | handler => "struct CatchDefinition"

def fields : Record → List String
  | definition => ["name", "comment", "prefix", "on_create", "on_update", "on_delete"]
  | pass => ["name", "assign", "outputs", "comment"]
  | task =>
    ["name", "service", "action", "parameters", "assign", "outputs", "comment", "catch"]
  | fail => ["name", "error", "cause", "comment"]
  | handler => ["errors", "outputs", "steps", "then"]

end Record

/-- Doubles in messages about YAML: never an exponent, always a fraction. -/
def plainDoubleLayout : Decimal.Layout where
  positional _ := true
  wholeFraction := true
  tie := .up

namespace Found

def text (n : Notation) : Found → String
  | null =>
    match n with
    | .json => "null"
    | .yaml => "unit value"
  | bool b => "boolean `" ++ (if b then "true" else "false") ++ "`"
  | whole i => "integer `" ++ toString i ++ "`"
  | wide i => "integer `" ++ toString i ++ "` as " ++ if 0 ≤ i then "u128" else "i128"
  | double x =>
    match n with
    | .json => "floating point `" ++ Json.doubleLayout.textOf x ++ "`"
    | .yaml => "floating point `" ++ plainDoubleLayout.textOf x ++ "`"
  | string s => "string " ++ Text.quoted s
  | sequence => "sequence"
  | mapping => "map"
  | tagged => "enum"

end Found

def Expected.text : Expected → String
  | record r => r.label
  | step => "internally tagged enum StepDefinition"
  | variant => "variant identifier"
  | variantIndex => "variant index 0 <= i < 3"
  | field => "field identifier"
  | string => "a string"
  | key => "a string key"
  | sequence => "a sequence"
  | mapping => "a map"
  | anyValue => "any value"
  | whole => "an integer"
  | decimal => "a float"
  | truth => "a boolean"
  | nothing => "null"

def ExpectedLength.text : ExpectedLength → String
  | fields r => r.label ++ " with " ++ toString r.fields.length ++ " elements"
  | inSequence n => toString n ++ (if n = 1 then " element" else " elements") ++ " in sequence"
  | fewer => "fewer elements in array"

def DecodeError.message (n : Notation) : DecodeError → String
  | invalidType f e => "invalid type: " ++ f.text n ++ ", expected " ++ e.text
  | invalidValue f e => "invalid value: " ++ f.text n ++ ", expected " ++ e.text
  | invalidLength k e => "invalid length " ++ toString k ++ ", expected " ++ e.text
  | missingField name => "missing field `" ++ name ++ "`"
  | duplicateField name => "duplicate field `" ++ name ++ "`"
  | unknownVariant name =>
    "unknown variant `" ++ name ++ "`, expected one of `pass`, `task`, `fail`"
  | tagInside => "untagged and internally tagged enums do not support enum input"
  | nestingLimit => "recursion limit exceeded"
  | repetitionLimit => "repetition limit exceeded"

end LifecycleFlow
