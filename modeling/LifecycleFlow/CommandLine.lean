import LifecycleFlow.Flow.Loading

/-!
# The command line

The command line: rendering the document of a definition file, and listing the expressions that
every state can refer to.
-/
namespace LifecycleFlow

inductive Command
  | render (file : String) (compact : Bool)
  | states
  deriving DecidableEq

structure Outcome where
  exit : Nat
  output : String
  errors : String
  deriving DecidableEq

namespace Command

/-- Whether an argument can be the value of an option: it does not look like an option. -/
def isValue (s : String) : Bool :=
  match s.toList with
  | '-' :: _ :: _ => false
  | _ => true

/-- The value of the file option, where it is written together with the option. -/
def attachedFile? (s : String) : Option String :=
  match s.toList with
  | '-' :: '-' :: 'f' :: 'i' :: 'l' :: 'e' :: '=' :: v => some (String.ofList v)
  | '-' :: 'f' :: '=' :: v => some (String.ofList v)
  | '-' :: 'f' :: c :: v => some (String.ofList (c :: v))
  | _ => none

/-- The options of the render command. Each is given at most once, and the file is needed. -/
def renderOfArgs? (file : Option String) (compact : Bool) : List String → Option Command
  | [] => file.map (render · compact)
  | "--" :: r => if r.isEmpty then file.map (render · compact) else none
  | "--compact" :: r => if compact then none else renderOfArgs? file true r
  | "--file" :: v :: r =>
    if file.isNone && isValue v then renderOfArgs? (some v) compact r else none
  | "-f" :: v :: r =>
    if file.isNone && isValue v then renderOfArgs? (some v) compact r else none
  | s :: r =>
    match attachedFile? s with
    | some v => if file.isNone then renderOfArgs? (some v) compact r else none
    | none => none

def ofArgs? : List String → Option Command
  | "render" :: r => renderOfArgs? none false r
  | ["states"] => some states
  | ["states", "--"] => some states
  | _ => none

def file? : Command → Option String
  | render file _ => some file
  | states => none

def indentLines (blanks : String) (s : String) : String :=
  String.ofList (s.toList.flatMap fun c => if c = '\n' then '\n' :: blanks.toList else [c])

/-- The causes of an error, numbered if there are several. -/
def causeLines (causes : List String) : String :=
  if causes.length ≤ 1 then
    String.join (causes.map fun c => "\n    " ++ indentLines "    " c)
  else
    String.join (causes.mapIdx fun i c =>
      let number := toString i
      "\n" ++ String.ofList (List.replicate (5 - number.length) ' ') ++ number ++ ": " ++
        indentLines "       " c)

def report (context : String) (causes : List String) : String :=
  "Error: " ++ context ++ "\n\nCaused by:" ++ causeLines causes ++ "\n"

def failure (context : String) (causes : List String) : Outcome :=
  { exit := 1, output := "", errors := report context causes }

def run (content : FileContent) : Command → Outcome
  | render file compact =>
    match FlowDefinition.buildFile content with
    | .ok built =>
      match built.document with
      | .ok document =>
        let text := if compact then document.compact else document.pretty 0
        { exit := 0, output := text ++ "\n", errors := "" }
      | .error e => failure (FlowError.graph e).message [e.message]
    | .error e => failure ("Failed to build flow from " ++ file) e.causes
  | states =>
    { exit := 0, output := String.join (Catalog.all.map fun c => c.line ++ "\n"), errors := "" }

/-- Runs the command that arguments ask for; arguments that ask for none are a usage error. -/
def runArgs (content : String → FileContent) (args : List String) : Outcome :=
  match ofArgs? args with
  | some c => c.run ((c.file?.map content).getD (.error .missing))
  | none =>
    { exit := 2, output := "", errors := "usage: render --file FILE [--compact] | states\n" }

end Command

end LifecycleFlow
