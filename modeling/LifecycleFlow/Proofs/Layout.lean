import LifecycleFlow.Flow.Building
import LifecycleFlow.Proofs.Nesting

/-!
# Where steps are placed

The states of steps as one list, from the number of the first of them on: each step's own state is
followed by the states of its handlers. What handlers continue with is given by a function, so that
the same list describes the states before and after the handlers are joined.
-/
namespace LifecycleFlow

/-- The catchers of a task whose handlers are placed one after the other. -/
def Handler.catchersOf (base : StateId) : List Handler → List Catcher
  | [] => []
  | .mk errors outputs steps _ :: rest =>
    ⟨errors, base, outputs⟩ :: catchersOf (base + (Step.allOf steps).length) rest

/-- What the state of a step does, if it has a given number. -/
def Step.kind (base : StateId) : Step → StateKind
  | .pass _ p => .pass p
  | .task _ call handlers => .task call (Handler.catchersOf (base + 1) handlers)
  | .fail _ f => .fail f

/-- The ends of the fragment that a step is. -/
def Step.ends (base : StateId) (s : Step) : List StateId :=
  if s.isFail then [] else [base]

def Step.endsOf (base : StateId) : List Step → List StateId
  | [] => []
  | s :: rest => if rest.isEmpty then s.ends base else endsOf (base + s.all.length) rest

mutual

/-- The states of a step and of its handlers. -/
def Step.states (exits : String → Option StateId) (base : StateId) (next : Option StateId) :
    Step → List State
  | .pass name p => [⟨name, .pass p, next⟩]
  | .task name call handlers =>
    ⟨name, .task call (Handler.catchersOf (base + 1) handlers), next⟩ ::
      Handler.statesOf exits (base + 1) handlers
  | .fail name f => [⟨name, .fail f, next⟩]

def Handler.statesOf (exits : String → Option StateId) (base : StateId) :
    List Handler → List State
  | [] => []
  | .mk _ _ steps target :: rest =>
    Step.statesOf exits base (target.bind exits) steps ++
      Handler.statesOf exits (base + (Step.allOf steps).length) rest

/-- The states of steps, each one followed by the next and the last one by a given state. -/
def Step.statesOf (exits : String → Option StateId) (base : StateId) (last : Option StateId) :
    List Step → List State
  | [] => []
  | s :: rest =>
    s.states exits base (if rest.isEmpty then last else some (base + s.all.length)) ++
      Step.statesOf exits (base + s.all.length) last rest

end

mutual

/-- The handlers of a step that are to be joined. -/
def Step.joins (base : StateId) : Step → List Join
  | .pass _ _ => []
  | .task _ _ handlers => Handler.joinsOf (base + 1) handlers
  | .fail _ _ => []

/-- The handlers among the given ones, and in them, that are to be joined. -/
def Handler.joinsOf (base : StateId) : List Handler → List Join
  | [] => []
  | .mk _ _ steps target :: rest =>
    Step.joinsOf base steps ++ (target.map (⟨⟨base, Step.endsOf base steps⟩, ·⟩)).toList ++
      Handler.joinsOf (base + (Step.allOf steps).length) rest

def Step.joinsOf (base : StateId) : List Step → List Join
  | [] => []
  | s :: rest => s.joins base ++ Step.joinsOf (base + s.all.length) rest

end

variable {exits : String → Option StateId} {base : StateId} {next last : Option StateId}

namespace Step

theorem states_eq (s : Step) : s.states exits base next =
    ⟨s.name, s.kind base, next⟩ :: Handler.statesOf exits (base + 1) s.handlers := by
  cases s <;> simp [states, name, kind, handlers, Handler.statesOf]

theorem joins_eq (s : Step) : s.joins base = Handler.joinsOf (base + 1) s.handlers := by
  cases s <;> simp [joins, handlers, Handler.joinsOf]

@[simp] theorem isNextable_kind (s : Step) : (s.kind base).isNextable = !s.isFail := by
  cases s <;> rfl

end Step

mutual

theorem Step.names_states (exits : String → Option StateId) (s : Step) (base : StateId)
    (next : Option StateId) :
    (s.states exits base next).map State.name = s.all.map Step.name := by
  cases s with
  | pass name p => simp [Step.states, Step.all, Step.name]
  | task name call handlers =>
    have hhandlers := Handler.names_statesOf exits handlers (base + 1)
    simp [Step.states, Step.all, Step.name, hhandlers]
  | fail name f => simp [Step.states, Step.all, Step.name]

theorem Handler.names_statesOf (exits : String → Option StateId) (hs : List Handler)
    (base : StateId) :
    (Handler.statesOf exits base hs).map State.name = (Handler.allOf hs).map Step.name := by
  match hs with
  | [] => simp [Handler.statesOf, Handler.allOf]
  | .mk errors outputs steps target :: rest =>
    have hsteps := Step.names_statesOf exits steps base (target.bind exits)
    have hrest := Handler.names_statesOf exits rest (base + (Step.allOf steps).length)
    simp [Handler.statesOf, Handler.allOf, hsteps, hrest]

theorem Step.names_statesOf (exits : String → Option StateId) (l : List Step) (base : StateId)
    (last : Option StateId) :
    (Step.statesOf exits base last l).map State.name = (Step.allOf l).map Step.name := by
  match l with
  | [] => simp [Step.statesOf, Step.allOf]
  | s :: rest =>
    have hs := Step.names_states exits s base
      (if rest.isEmpty then last else some (base + s.all.length))
    have hrest := Step.names_statesOf exits rest (base + s.all.length) last
    simp only [Step.statesOf, Step.allOf, List.map_append, hs, hrest]

end

@[simp] theorem Step.length_states (s : Step) :
    (s.states exits base next).length = s.all.length := by
  simpa using congrArg List.length (s.names_states exits base next)

@[simp] theorem Handler.length_statesOf (hs : List Handler) :
    (Handler.statesOf exits base hs).length = (Handler.allOf hs).length := by
  simpa using congrArg List.length (Handler.names_statesOf exits hs base)

@[simp] theorem Step.length_statesOf (l : List Step) :
    (Step.statesOf exits base last l).length = (Step.allOf l).length := by
  simpa using congrArg List.length (Step.names_statesOf exits l base last)

end LifecycleFlow
