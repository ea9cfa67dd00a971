import LifecycleFlow.Proofs.Acceptance

/-!
# Values that building does not look at

Parameters and outputs are carried from a definition into its graph, and nothing on the way depends
on what they are. Main statement: if these values are replaced in a definition, it is built as
before, with the same errors and the same states under the same names, and the values of the states
are replaced in the same way.
-/
namespace LifecycleFlow

open LifecycleFlow.Graph

variable (f : Json → Option Json)

def Pass.mapValues (p : Pass) : Pass :=
  { p with outputs := p.outputs.bind f }

def ServiceCall.mapValues (c : ServiceCall) : ServiceCall :=
  { c with parameters := c.parameters.bind f, outputs := c.outputs.bind f }

def Catcher.mapValues (c : Catcher) : Catcher :=
  { c with outputs := c.outputs.bind f }

def StateKind.mapValues : StateKind → StateKind
  | .pass p => .pass (p.mapValues f)
  | .task call catchers => .task (call.mapValues f) (catchers.map (Catcher.mapValues f))
  | .choice rules otherwise => .choice rules otherwise
  | .fail failure => .fail failure

def State.mapValues (s : State) : State :=
  { s with kind := s.kind.mapValues f }

/-- The graph with the values of its states replaced. -/
def Graph.mapValues (g : Graph) : Graph :=
  { g with states := g.states.map (State.mapValues f) }

mutual

def Step.mapValues : Step → Step
  | .pass name p => .pass name (p.mapValues f)
  | .task name call handlers => .task name (call.mapValues f) (Handler.mapValuesOf handlers)
  | .fail name failure => .fail name failure

def Handler.mapValuesOf : List Handler → List Handler
  | [] => []
  | .mk errors outputs steps target :: rest =>
    .mk errors (outputs.bind f) (Step.mapValuesOf steps) target :: Handler.mapValuesOf rest

def Step.mapValuesOf : List Step → List Step
  | [] => []
  | s :: rest => s.mapValues :: Step.mapValuesOf rest

end

/-- The definition with the values of its steps replaced, at any depth. -/
def FlowDefinition.mapValues (d : FlowDefinition) : FlowDefinition :=
  { d with
    onCreate := d.onCreate.map (Step.mapValuesOf f)
    onUpdate := d.onUpdate.map (Step.mapValuesOf f)
    onDelete := d.onDelete.map (Step.mapValuesOf f) }

variable {f} {g : Graph} {s : State} {kind : StateKind} {i : StateId} {name : String}

@[simp] theorem StateKind.isNextable_mapValues :
    (kind.mapValues f).isNextable = kind.isNextable := by
  cases kind <;> rfl

@[simp] theorem StateKind.targets_mapValues : (kind.mapValues f).targets = kind.targets := by
  cases kind <;> simp [mapValues, targets, Function.comp_def, Catcher.mapValues]

@[simp] theorem State.successors_mapValues : (s.mapValues f).successors = s.successors := by
  simp [mapValues, successors]

@[simp] theorem State.isNextable_mapValues : (s.mapValues f).isNextable = s.isNextable :=
  StateKind.isNextable_mapValues

@[simp] theorem State.isOpen_mapValues : (s.mapValues f).isOpen = s.isOpen := by
  rw [isOpen, isOpen, isNextable_mapValues]
  rfl

namespace Graph

theorem getElem?_mapValues :
    (g.mapValues f).states[i]? = (g.states[i]?).map (State.mapValues f) := by
  rw [mapValues, List.getElem?_map]

@[simp] theorem size_mapValues : (g.mapValues f).size = g.size := by
  simp [mapValues, size]

@[simp] theorem find?_mapValues : (g.mapValues f).find? name = g.find? name := rfl

@[simp] theorem isAvailable_mapValues : (g.mapValues f).isAvailable name = g.isAvailable name := rfl

theorem state_mapValues : (g.mapValues f).state i = (g.state i).map (State.mapValues f) := by
  rw [state, state, getElem?_mapValues]
  cases g.states[i]? <;> rfl

theorem push_mapValues : (g.push s).mapValues f = (g.mapValues f).push (s.mapValues f) := by
  simp [push, mapValues, State.mapValues, size]

theorem modify_mapValues {change change' : State → State}
    (h : ∀ s, (change s).mapValues f = change' (s.mapValues f)) :
    (g.modify i change).mapValues f = (g.mapValues f).modify i change' := by
  refine eq_of_getElem? rfl fun j => ?_
  simp only [getElem?_mapValues, modify, List.getElem?_modify, Option.map_eq_map]
  split <;> cases g.states[j]? <;> simp [h]

theorem requireOpen_mapValues : requireOpen (s.mapValues f) = requireOpen s := by
  obtain ⟨name, kind, next⟩ := s
  cases kind <;> rfl

theorem reachable_mapValues : (g.mapValues f).reachable i = g.reachable i := by
  refine visit_congr fun j => ?_
  rw [getElem?_mapValues, Option.map_map]
  exact congrArg (Option.map · _) (funext fun s => s.successors_mapValues)

theorem reachableEnds_mapValues : (g.mapValues f).reachableEnds i = g.reachableEnds i := by
  have hopen : (g.mapValues f).isOpen = g.isOpen := by
    funext j
    rw [isOpen, isOpen, getElem?_mapValues]
    cases g.states[j]? <;> simp
  rw [reachableEnds, reachableEnds, reachable_mapValues, hopen]

theorem fragment_mapValues : (g.mapValues f).fragment i = g.fragment i := by
  rw [fragment, fragment, state_mapValues]
  cases g.state i with
  | error e => rfl
  | ok s =>
    obtain ⟨name, kind, next⟩ := s
    cases kind with
    | choice rules otherwise =>
      simp [Except.map, bind, Except.bind, State.mapValues, StateKind.mapValues,
        reachableEnds_mapValues]
    | _ => rfl

end Graph

section

variable {ε α β γ δ : Type} {m : α → β} {n : γ → δ} {x : ExceptT ε (StateM Graph) α}
  {x' : ExceptT ε (StateM Graph) β}

/-- On a graph with its values replaced the second operation does what the first one does on the
graph: it fails with the same error or answers what corresponds, and leaves the graph that the first
one leaves with its values replaced. -/
def Mirrors (f : Json → Option Json) (m : α → β) (x : ExceptT ε (StateM Graph) α)
    (x' : ExceptT ε (StateM Graph) β) : Prop :=
  ∀ g, outcome x' (g.mapValues f) = ((outcome x g).1.map m, (outcome x g).2.mapValues f)

theorem mirrors_pure {a : α} {b : β} (h : m a = b) :
    Mirrors f m (pure a : ExceptT ε (StateM Graph) α) (pure b) :=
  fun _ => h ▸ rfl

theorem mirrors_throw (e : ε) :
    Mirrors f m (throw e : ExceptT ε (StateM Graph) α) (throw e) :=
  fun _ => rfl

theorem mirrors_get :
    Mirrors f (Graph.mapValues f) (get : ExceptT ε (StateM Graph) Graph) get :=
  fun _ => rfl

theorem mirrors_set {g g' : Graph} (h : g.mapValues f = g') :
    Mirrors f id (set g : ExceptT ε (StateM Graph) PUnit) (set g') :=
  fun _ => h ▸ rfl

/-- A check that does not look at the graph. -/
theorem mirrors_check {r : Except ε α} {r' : Except ε β} (h : r' = r.map m) :
    Mirrors f m (liftM r : ExceptT ε (StateM Graph) α) (liftM r') :=
  fun _ => h ▸ rfl

theorem Mirrors.bind {k : α → ExceptT ε (StateM Graph) γ} {k' : β → ExceptT ε (StateM Graph) δ}
    (h : Mirrors f m x x') (hk : ∀ a, Mirrors f n (k a) (k' (m a))) :
    Mirrors f n (x >>= k) (x' >>= k') := by
  intro g
  rw [outcome_bind, outcome_bind, h g]
  rcases outcome x g with ⟨e | a, g'⟩
  · rfl
  · exact hk a g'

theorem Mirrors.discard (h : Mirrors f m x x') :
    Mirrors f id (discard x) (discard x') := by
  intro g
  rw [outcome_discard, outcome_discard, h g]
  rcases outcome x g with ⟨e | a, g'⟩ <;> rfl

theorem mirrors_forM {k k' : α → ExceptT ε (StateM Graph) PUnit} {l : List α}
    (h : ∀ a, Mirrors f id (k a) (k' a)) : Mirrors f id (l.forM k) (l.forM k') := by
  induction l with
  | nil => exact mirrors_pure rfl
  | cons a rest ih =>
    simp only [List.forM_eq_forM, List.forM_cons] at ih ⊢
    exact (h a).bind fun _ => ih

theorem Mirrors.lift {x : GraphOp α} {x' : GraphOp β} (h : Mirrors f m x x') :
    Mirrors f m x.lift x'.lift := by
  intro g
  rw [outcome_lift, outcome_lift, h g]
  rcases outcome x g with ⟨e | a, g'⟩ <;> rfl

end

namespace Graph

variable {target : StateId}

theorem mirrors_add : Mirrors f id (add name kind) (add name (kind.mapValues f)) := by
  refine mirrors_get.bind fun g => ?_
  rw [isAvailable_mapValues, size_mapValues]
  split
  · exact (mirrors_set push_mapValues).bind fun _ => mirrors_pure rfl
  · exact mirrors_throw _

theorem mirrors_setNext {source : StateId} :
    Mirrors f id (setNext source target) (setNext source target) := by
  refine mirrors_get.bind fun g => ?_
  refine (mirrors_check state_mapValues).discard.bind fun _ => ?_
  refine (mirrors_check state_mapValues).bind fun s => ?_
  refine (mirrors_check (m := id) (by simp [requireOpen_mapValues])).bind fun _ => ?_
  exact mirrors_set (modify_mapValues fun s => rfl)

theorem mirrors_chain {first second : Fragment} :
    Mirrors f id (chain first second) (chain first second) := by
  refine mirrors_get.bind fun g => ?_
  split
  · refine (mirrors_check state_mapValues).bind fun s => ?_
    exact mirrors_throw _
  · refine (mirrors_check state_mapValues).discard.bind fun _ => ?_
    refine Mirrors.bind (m := id) (mirrors_forM fun i => ?_) fun _ => ?_
    · refine (mirrors_check state_mapValues).bind fun s => ?_
      exact mirrors_check (by simp [requireOpen_mapValues])
    · exact (mirrors_forM fun i => mirrors_setNext).bind fun _ => mirrors_pure rfl

theorem mirrors_addRule {choice : StateId} {condition : Condition} :
    Mirrors f id (addRule choice condition target) (addRule choice condition target) := by
  refine mirrors_get.bind fun g => ?_
  refine (mirrors_check state_mapValues).discard.bind fun _ => ?_
  refine (mirrors_check state_mapValues).bind fun s => ?_
  obtain ⟨name, kind, next⟩ := s
  cases kind with
  | choice rules otherwise => exact mirrors_set (modify_mapValues fun s => rfl)
  | _ => exact mirrors_throw _

theorem mirrors_addCatcher {task handler : StateId} {errors : List String}
    {outputs : Option Json} : Mirrors f id (addCatcher task handler errors outputs)
      (addCatcher task handler errors (outputs.bind f)) := by
  refine mirrors_get.bind fun g => ?_
  refine (mirrors_check state_mapValues).discard.bind fun _ => ?_
  refine (mirrors_check state_mapValues).bind fun s => ?_
  obtain ⟨name, kind, next⟩ := s
  cases kind with
  | task call catchers =>
    refine mirrors_set (modify_mapValues fun s => ?_)
    simp [State.mapValues, StateKind.mapValues, Catcher.mapValues]
  | _ => exact mirrors_throw _

theorem withoutNames_mapValues {ids : List StateId} :
    (g.mapValues f).withoutNames ids = g.withoutNames ids := by
  have hstates : ids.filterMap ((g.mapValues f).states[·]?) =
      (ids.filterMap (g.states[·]?)).map (State.mapValues f) := by
    simp only [getElem?_mapValues, List.map_filterMap]
  rw [withoutNames, withoutNames, hstates, List.foldl_map]
  rfl

theorem withNames_mapValues {ids : List StateId} {front : String} {names : NameIndex} :
    (g.mapValues f).withNames ids front names = g.withNames ids front names := by
  rw [withNames, withNames]
  congr 1
  funext names i
  rw [getElem?_mapValues]
  cases g.states[i]? <;> rfl

theorem withPrefixed_mapValues {ids : List StateId} {front : String} :
    (g.withPrefixed ids front).mapValues f = (g.mapValues f).withPrefixed ids front := by
  refine eq_of_getElem? ?_ fun i => ?_
  · rw [withPrefixed, withPrefixed, withoutNames_mapValues, withNames_mapValues]
    rfl
  · rw [getElem?_mapValues, getElem?_withPrefixed, getElem?_withPrefixed, getElem?_mapValues]
    cases g.states[i]? with
    | none => rfl
    | some s => by_cases hi : i ∈ ids <;> simp [hi, State.mapValues]

theorem mirrors_addPrefix {start : StateId} {front : String} :
    Mirrors f id (addPrefix start front) (addPrefix start front) := by
  refine mirrors_get.bind fun g => ?_
  refine Mirrors.bind (m := id) (mirrors_check (by simp [reachable_mapValues])) fun ids => ?_
  refine Mirrors.bind (m := id) (mirrors_forM fun i => ?_) fun _ => ?_
  · refine (mirrors_check state_mapValues).bind fun s => ?_
    exact mirrors_check (by simp [requireFree, State.mapValues])
  · exact mirrors_set withPrefixed_mapValues

end Graph

namespace Flow

variable {α β : Type} {m : α → β} {b : Branches} {t : RequestType}

theorem mirrors_addIdle : Mirrors f id (addIdle t) (addIdle t) := by
  refine Mirrors.bind (m := id) mirrors_add fun i => ?_
  refine mirrors_get.bind fun g => ?_
  exact mirrors_check (by simp [fragment_mapValues])

private theorem mirrors_orIdle {o : Option Fragment} {next : Fragment → GraphOp α}
    {next' : Fragment → GraphOp β} (hnext : ∀ x, Mirrors f m (next x) (next' x)) :
    Mirrors f m (match o with
      | some f => do let f ← pure f; next f
      | none => do let f ← addIdle t; next f)
      (match o with
      | some f => do let f ← pure f; next' f
      | none => do let f ← addIdle t; next' f) := by
  cases o with
  | some x => exact hnext x
  | none => exact mirrors_addIdle.bind hnext

theorem mirrors_connect : Mirrors f id (connect b) (connect b) := by
  rw [connect]
  refine mirrors_orIdle fun onCreate => ?_
  refine mirrors_orIdle fun onUpdate => ?_
  refine mirrors_orIdle fun onDelete => ?_
  refine Mirrors.bind (m := id) mirrors_add fun dispatch => ?_
  refine mirrors_addRule.bind fun _ => ?_
  refine mirrors_addRule.bind fun _ => ?_
  refine mirrors_addRule.bind fun _ => ?_
  refine Mirrors.bind (m := id) mirrors_add fun entry => ?_
  exact mirrors_setNext.bind fun _ => mirrors_pure rfl

theorem mirrors_assemble : Mirrors f id (assemble b) (assemble b) := by
  rw [assemble]
  split
  · exact mirrors_throw _
  · refine mirrors_get.bind fun g => ?_
    simp only [isAvailable_mapValues, size_mapValues]
    split
    · exact mirrors_throw _
    · split
      · exact mirrors_throw _
      · exact mirrors_connect.lift

end Flow

namespace Step

theorem name_mapValues (s : Step) : (s.mapValues f).name = s.name := by
  cases s <;> rfl

theorem isFail_mapValues (s : Step) : (s.mapValues f).isFail = s.isFail := by
  cases s <;> rfl

theorem mapValuesOf_eq_map (l : List Step) : mapValuesOf f l = l.map (Step.mapValues f) := by
  induction l with
  | nil => rfl
  | cons s rest ih => rw [mapValuesOf, ih, List.map_cons]

theorem requireRunnable_mapValuesOf (label : String) (l : List Step) :
    requireRunnable label (mapValuesOf f l) = requireRunnable label l := by
  have hfind : (l.dropLast.map (Step.mapValues f)).find? isFail =
      (l.dropLast.find? isFail).map (Step.mapValues f) := by
    rw [List.find?_map]
    congr 2
    exact funext isFail_mapValues
  rw [requireRunnable, requireRunnable, mapValuesOf_eq_map, List.isEmpty_map, ← List.map_dropLast,
    hfind]
  cases l.dropLast.find? isFail <;> simp [name_mapValues]

theorem mirrors_require {r r' : Except ConfigurationError PUnit} (h : r' = r) :
    Mirrors f id (require r) (require r') := by
  subst h
  cases r' with
  | ok u => exact mirrors_pure rfl
  | error e => exact mirrors_throw _

theorem mirrors_joinOf {label : String} {handler : Fragment} {target : Option String} :
    Mirrors f id (joinOf label handler target) (joinOf label handler target) := by
  cases target with
  | none => exact mirrors_pure rfl
  | some t =>
    rw [joinOf]
    split
    · exact mirrors_throw _
    · exact mirrors_pure rfl

mutual

theorem mirrors_build (s : Step) : Mirrors f id s.build (s.mapValues f).build := by
  match s with
  | .pass name p =>
    rw [build, mapValues, build]
    exact Mirrors.bind (m := id) mirrors_add.lift fun _ => mirrors_pure rfl
  | .fail name x =>
    rw [build, mapValues, build]
    exact Mirrors.bind (m := id) mirrors_add.lift fun _ => mirrors_pure rfl
  | .task name call handlers =>
    rw [build, mapValues, build]
    refine Mirrors.bind (m := id) mirrors_add.lift fun i => ?_
    exact Mirrors.bind (m := id) (mirrors_buildHandlers handlers) fun _ => mirrors_pure rfl

theorem mirrors_buildHandlers (hs : List Handler) {task : String} {i : StateId} {index : Nat} :
    Mirrors f id (buildHandlers task i index hs)
      (buildHandlers task i index (Handler.mapValuesOf f hs)) := by
  match hs with
  | [] => exact mirrors_pure rfl
  | .mk errors outputs steps target :: rest =>
    rw [buildHandlers, Handler.mapValuesOf, buildHandlers]
    refine (mirrors_require (requireRunnable_mapValuesOf _ steps)).bind fun _ => ?_
    refine Mirrors.bind (m := id) (mirrors_buildChain steps) fun r => ?_
    obtain ⟨_ | handler, inner⟩ := r
    · exact fun _ => rfl
    · refine mirrors_addCatcher.lift.bind fun _ => ?_
      refine Mirrors.bind (m := id) mirrors_joinOf fun join => ?_
      exact Mirrors.bind (m := id) (mirrors_buildHandlers rest) fun _ => mirrors_pure rfl

theorem mirrors_buildChain (l : List Step) {before : Option Fragment} :
    Mirrors f id (buildChain before l) (buildChain before (mapValuesOf f l)) := by
  match l with
  | [] => exact mirrors_pure rfl
  | s :: rest =>
    rw [buildChain, mapValuesOf, buildChain]
    refine Mirrors.bind (m := id) (mirrors_build s) fun r => ?_
    refine Mirrors.bind (m := id) (Mirrors.lift ?_) fun fragment => ?_
    · refine mirrors_get.bind fun g => ?_
      refine Mirrors.bind (m := id) (mirrors_check (by simp [fragment_mapValues])) fun x => ?_
      cases before with
      | some b => exact mirrors_chain
      | none => exact mirrors_pure rfl
    · exact Mirrors.bind (m := id) (mirrors_buildChain rest) fun _ => mirrors_pure rfl

end

end Step

theorem Step.mirrors_buildAll {label : String} {l : List Step} :
    Mirrors f id (buildAll label l) (buildAll label (mapValuesOf f l)) := by
  refine (mirrors_require (requireRunnable_mapValuesOf _ l)).bind fun _ => ?_
  refine Mirrors.bind (m := id) (mirrors_buildChain l) fun r => ?_
  obtain ⟨_ | fragment, joins⟩ := r
  · exact mirrors_throw _
  · exact mirrors_pure rfl

theorem Join.mirrors_connect {j : Join} : Mirrors f id j.connect j.connect := by
  refine mirrors_get.bind fun g => ?_
  rw [find?_mapValues]
  cases g.find? j.target with
  | some target => exact mirrors_forM fun i => mirrors_setNext.lift
  | none => exact mirrors_throw _

namespace FlowDefinition

variable {d : FlowDefinition}

theorem mirrors_buildBranch {label : String} {branch : Option (List Step)} :
    Mirrors f id (buildBranch label branch)
      (buildBranch label (branch.map (Step.mapValuesOf f))) := by
  cases branch with
  | none => exact mirrors_pure rfl
  | some l => exact Mirrors.bind (m := id) Step.mirrors_buildAll fun _ => mirrors_pure rfl

theorem mirrors_buildBranches : Mirrors f id d.buildBranches (d.mapValues f).buildBranches := by
  refine Mirrors.bind (m := id) mirrors_buildBranch fun c => ?_
  refine Mirrors.bind (m := id) mirrors_buildBranch fun u => ?_
  refine Mirrors.bind (m := id) mirrors_buildBranch fun e => ?_
  exact (mirrors_forM fun j => Join.mirrors_connect).bind fun _ => mirrors_pure rfl

theorem mirrors_buildFlow : Mirrors f id d.buildFlow (d.mapValues f).buildFlow := by
  refine Mirrors.bind (m := id)
    (Mirrors.bind (m := id) mirrors_buildBranches fun b => Flow.mirrors_assemble) fun flow => ?_
  dsimp only [mapValues]
  cases d.namePrefix with
  | some front => exact mirrors_addPrefix.lift.bind fun _ => mirrors_pure rfl
  | none => exact mirrors_pure rfl

end FlowDefinition

/-- The built workflow with the values of its states replaced. -/
def BuiltFlow.mapValues (f : Json → Option Json) (b : BuiltFlow) : BuiltFlow :=
  { b with graph := b.graph.mapValues f }

/-- A definition with its values replaced is built as the definition, with the same error if it is
refused, and else with the values of its states replaced. -/
theorem FlowDefinition.build_mapValues (d : FlowDefinition) (f : Json → Option Json) :
    (d.mapValues f).build = d.build.map (BuiltFlow.mapValues f) := by
  have hout : outcome (d.mapValues f).buildFlow Graph.empty = _ := mirrors_buildFlow Graph.empty
  rw [build_eq, build_eq, hout]
  rcases outcome d.buildFlow Graph.empty with ⟨e | flow, g⟩ <;> rfl

end LifecycleFlow
