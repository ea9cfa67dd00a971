import LifecycleFlow.Flow.Building
import LifecycleFlow.Yaml.Definition

/-!
# Loading workflows

Workflows from files. A file may be missing or hold no text, the text may be no YAML, the YAML no
definition, and the definition may not build.
-/
namespace LifecycleFlow

/-- Why the text of a file cannot be had. -/
inductive FileError
  | missing
  | forbidden
  | notDirectory
  | directory
  | nameTooLong
  | notText
  deriving DecidableEq

def FileError.message : FileError → String
  | missing => "No such file or directory (os error 2)"
  | forbidden => "Permission denied (os error 13)"
  | notDirectory => "Not a directory (os error 20)"
  | directory => "Is a directory (os error 21)"
  | nameTooLong => "File name too long (os error 36)"
  | notText => "stream did not contain valid UTF-8"

inductive LoadError
  | file (e : FileError)
  | malformed
  | data (e : DecodeError)
  | flow (e : FlowError)
  deriving DecidableEq

/-- The texts of an error and of the errors that led to it, the outermost first. -/
def LoadError.causes : LoadError → List String
  | file e => [e.message]
  | malformed => ["not well-formed YAML"]
  | data e => [e.message .yaml]
  | flow (.configuration e) => [(FlowError.configuration e).message]
  | flow (.graph e) => [(FlowError.graph e).message, e.message]

abbrev FileContent := Except FileError ByteArray

namespace FlowDefinition

def ofYaml (s : String) : Except LoadError FlowDefinition :=
  match Yaml.Document.ofText? s with
  | some d => d.toDefinition.mapError .data
  | none => .error .malformed

def ofFile (content : FileContent) : Except LoadError FlowDefinition :=
  match content with
  | .ok bytes =>
    match String.fromUTF8? bytes with
    | some s => ofYaml s
    | none => .error (.file .notText)
  | .error e => .error (.file e)

def buildFile (content : FileContent) : Except LoadError BuiltFlow := do
  let d ← ofFile content
  d.build.mapError .flow

end FlowDefinition

end LifecycleFlow
