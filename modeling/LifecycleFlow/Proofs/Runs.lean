import LifecycleFlow.Graph.Selection
import LifecycleFlow.Proofs.Assembly
import LifecycleFlow.Proofs.Chaining
import LifecycleFlow.Proofs.Renaming
import LifecycleFlow.Proofs.Rendering

/-!
# Runs of operations

The operations on graphs and the queries as data, so that one statement speaks of every run. Main
statement: whatever operations are performed on the empty graph, with whatever arguments and whether
they succeed or not, the graph stays well-formed, and then only a handle that was given and does not
exist is ever reported as unknown.
-/
namespace LifecycleFlow.Graph

variable {g : Graph} {id start : StateId} {e : GraphError}

theorem reachableEnds_eq_error (hg : g.WellFormed) (h : g.reachableEnds start = .error e) :
    e = .unknownState start ∧ g.size ≤ start := by
  rw [reachableEnds] at h
  cases hr : g.reachable start with
  | ok ids => simp [hr, Except.map] at h
  | error e' =>
    rw [hr] at h
    exact Except.error.inj h ▸ reachable_eq_error hg hr

theorem fragment_eq_error (hg : g.WellFormed) (h : g.fragment id = .error e) :
    e = .unknownState id ∧ g.size ≤ id := by
  rw [fragment] at h
  cases hs : g.state id with
  | error e' =>
    rw [hs] at h
    exact Except.error.inj h ▸ eq_unknownState_of_state_eq_error hs
  | ok s =>
    simp only [hs, bind, Except.bind] at h
    split at h
    · cases h
    · cases h
    · cases h
    · cases hr : g.reachableEnds id with
      | ok ids => simp [hr, pure, Except.pure] at h
      | error e' =>
        rw [hr] at h
        exact Except.error.inj h ▸ reachableEnds_eq_error hg hr

theorem select_eq_unknownState {known : Json.Object} {n : StateId}
    (h : g.select id known = .error (.unknownState n)) : n = id ∧ g.size ≤ n := by
  rw [select] at h
  cases hs : g.state id with
  | error e' =>
    obtain ⟨rfl, hle⟩ := eq_unknownState_of_state_eq_error hs
    rw [hs] at h
    obtain rfl := GraphError.unknownState.inj (Except.error.inj h)
    exact ⟨rfl, hle⟩
  | ok s =>
    simp only [hs, bind, Except.bind] at h
    split at h <;> cases h

theorem document_eq_error (hg : g.WellFormed) {comment : Option String}
    (h : g.document start comment = .error e) : e = .unknownState start ∧ g.size ≤ start := by
  cases hr : g.reachable start with
  | error e' =>
    rw [document, hr] at h
    exact Except.error.inj h ▸ reachable_eq_error hg hr
  | ok ids =>
    rw [document_eq hg hr] at h
    cases h

end LifecycleFlow.Graph

namespace LifecycleFlow

/-- An operation on a graph, with its arguments. -/
inductive Operation
  | addPass (name : String) (pass : Pass)
  | addTask (name : String) (call : ServiceCall)
  | addChoice (name : String)
  | addFail (name : String) (failure : Failure)
  | setNext (source target : StateId)
  | chain (first second : Fragment)
  | addRule (choice : StateId) (condition : Condition) (target : StateId)
  | setOtherwise (choice target : StateId)
  | addCatcher (task handler : StateId) (errors : List String) (outputs : Option Json)
  | addPrefix (start : StateId) (front : String)
  | assemble (branches : Branches)

inductive Query
  | fragment (id : StateId)
  | reachable (start : StateId)
  | reachableEnds (start : StateId)
  | document (start : StateId) (comment : Option String)
  | select (choice : StateId) (known : Json.Object)

namespace Operation

/-- What an operation does to a graph; its answer is left out. -/
def perform : Operation → FlowOp Unit
  | addPass name pass => discard (Graph.addPass name pass).lift
  | addTask name call => discard (Graph.addTask name call).lift
  | addChoice name => discard (Graph.addChoice name).lift
  | addFail name failure => discard (Graph.addFail name failure).lift
  | setNext source target => (Graph.setNext source target).lift
  | chain first second => discard (Graph.chain first second).lift
  | addRule choice condition target => (Graph.addRule choice condition target).lift
  | setOtherwise choice target => (Graph.setOtherwise choice target).lift
  | addCatcher task handler errors outputs =>
    (Graph.addCatcher task handler errors outputs).lift
  | addPrefix start front => (Graph.addPrefix start front).lift
  | assemble branches => discard (Flow.assemble branches)

/-- The states that an operation is given. -/
def handles : Operation → List StateId
  | addPass _ _ | addTask _ _ | addChoice _ | addFail _ _ => []
  | setNext source target => [source, target]
  | chain first second => first.start :: second.start :: first.ends
  | addRule choice _ target => [choice, target]
  | setOtherwise choice target => [choice, target]
  | addCatcher task handler _ _ => [task, handler]
  | addPrefix start _ => [start]
  | assemble branches => Flow.mentioned branches

end Operation

namespace Query

def answer (g : Graph) : Query → Except GraphError Unit
  | fragment id => discard (g.fragment id)
  | reachable start => discard (g.reachable start)
  | reachableEnds start => discard (g.reachableEnds start)
  | document start comment => discard (g.document start comment)
  | select choice known => discard (g.select choice known)

def handle : Query → StateId
  | fragment id => id
  | reachable start => start
  | reachableEnds start => start
  | document start _ => start
  | select choice _ => choice

end Query

/-- The graph after some operations, each performed on what the one before leaves, also if that one
failed. -/
def Graph.after (g : Graph) (ops : List Operation) : Graph :=
  ops.foldl (fun g op => (outcome op.perform g).2) g

variable {ε α : Type} {g : Graph} {n : StateId}

theorem Operation.preserves_perform (op : Operation) : Preserves Graph.WellFormed op.perform := by
  cases op with
  | addPass name pass => exact preserves_discard (preserves_lift (Graph.preserves_add rfl))
  | addTask name call => exact preserves_discard (preserves_lift (Graph.preserves_add rfl))
  | addChoice name => exact preserves_discard (preserves_lift (Graph.preserves_add rfl))
  | addFail name failure => exact preserves_discard (preserves_lift (Graph.preserves_add rfl))
  | setNext source target => exact preserves_lift Graph.preserves_setNext
  | chain first second =>
    have h : Preserves Graph.WellFormed (Graph.chain first second) :=
      Graph.preserves_chain fun _ => Graph.preserves_setNext
    exact preserves_discard (preserves_lift h)
  | addRule choice condition target => exact preserves_lift Graph.preserves_addRule
  | setOtherwise choice target => exact preserves_lift Graph.preserves_setOtherwise
  | addCatcher task handler errors outputs => exact preserves_lift Graph.preserves_addCatcher
  | addPrefix start front => exact preserves_lift fun _ hg => hg.addPrefix
  | assemble branches => exact preserves_discard Flow.preserves_assemble

private theorem unknownState_of_lift {op : GraphOp α}
    (h : (outcome op.lift g).1 = .error (.graph (.unknownState n))) :
    (outcome op g).1 = .error (.unknownState n) := by
  rw [outcome_lift] at h
  cases hop : (outcome op g).1 with
  | ok a => simp [hop, Except.mapError] at h
  | error e =>
    simp only [hop, Except.mapError, Except.error.injEq, FlowError.graph.injEq] at h
    rw [h]

private theorem error_of_discard {x : ExceptT ε (StateM Graph) α} {e : ε}
    (h : (outcome (discard x) g).1 = .error e) : (outcome x g).1 = .error e := by
  rw [outcome_discard] at h
  cases hx : (outcome x g).1 with
  | ok a => simp [hx, Except.map] at h
  | error e' => simpa [hx, Except.map] using h

private theorem ne_unknownState_of_add {name : String} {kind : StateKind} :
    (outcome (Graph.add name kind) g).1 ≠ .error (.unknownState n) := by
  rw [Graph.outcome_add]
  split <;> simp

/-- On a well-formed graph an operation reports as unknown only a state that it was given and that
does not exist. -/
theorem Operation.mem_handles_of_unknownState (hg : g.WellFormed) (op : Operation)
    (h : (outcome op.perform g).1 = .error (.graph (.unknownState n))) :
    n ∈ op.handles ∧ g.size ≤ n := by
  cases op with
  | addPass name pass =>
    exact absurd (unknownState_of_lift (error_of_discard h)) ne_unknownState_of_add
  | addTask name call =>
    exact absurd (unknownState_of_lift (error_of_discard h)) ne_unknownState_of_add
  | addChoice name =>
    exact absurd (unknownState_of_lift (error_of_discard h)) ne_unknownState_of_add
  | addFail name failure =>
    exact absurd (unknownState_of_lift (error_of_discard h)) ne_unknownState_of_add
  | setNext source target =>
    have h := unknownState_of_lift h
    rw [Graph.outcome_setNext] at h
    simpa [handles] using Graph.eq_or_eq_of_connected_eq_unknownState State.connects_followedBy h
  | chain first second =>
    exact Graph.mem_of_chain_eq_unknownState (unknownState_of_lift (error_of_discard h))
  | addRule choice condition target =>
    have h := unknownState_of_lift h
    rw [Graph.outcome_addRule] at h
    simpa [handles] using Graph.eq_or_eq_of_connected_eq_unknownState State.connects_withRule h
  | setOtherwise choice target =>
    have h := unknownState_of_lift h
    rw [Graph.outcome_setOtherwise] at h
    simpa [handles] using Graph.eq_or_eq_of_connected_eq_unknownState State.connects_withOtherwise h
  | addCatcher task handler errors outputs =>
    have h := unknownState_of_lift h
    rw [Graph.outcome_addCatcher] at h
    simpa [handles] using Graph.eq_or_eq_of_connected_eq_unknownState State.connects_withCatcher h
  | addPrefix start front =>
    simpa [handles] using Graph.eq_of_addPrefix_eq_unknownState hg (unknownState_of_lift h)
  | assemble branches =>
    exact Flow.mem_mentioned_of_assemble_eq_unknownState (error_of_discard h)

private theorem error_of_discard_answer {x : Except GraphError α} {e : GraphError}
    (h : (discard x : Except GraphError PUnit) = .error e) : x = .error e := by
  cases x with
  | ok a => cases h
  | error e' => exact congrArg Except.error (Except.error.inj h)

/-- On a well-formed graph a query reports as unknown only the state that it was given, if that does
not exist. -/
theorem Query.eq_handle_of_unknownState (hg : g.WellFormed) (q : Query)
    (h : q.answer g = .error (.unknownState n)) : n = q.handle ∧ g.size ≤ n := by
  have hgiven (start : StateId) (h : GraphError.unknownState n = .unknownState start ∧
      g.size ≤ start) : n = start ∧ g.size ≤ n := by
    obtain ⟨heq, hle⟩ := h
    obtain rfl := GraphError.unknownState.inj heq
    exact ⟨rfl, hle⟩
  cases q with
  | fragment id => exact hgiven id (Graph.fragment_eq_error hg (error_of_discard_answer h))
  | reachable start =>
    exact hgiven start (Graph.reachable_eq_error hg (error_of_discard_answer h))
  | reachableEnds start =>
    exact hgiven start (Graph.reachableEnds_eq_error hg (error_of_discard_answer h))
  | document start comment =>
    exact hgiven start (Graph.document_eq_error hg (error_of_discard_answer h))
  | select choice known => exact Graph.select_eq_unknownState (error_of_discard_answer h)

/-- Whatever is done to a well-formed graph, it stays well-formed. -/
theorem Graph.WellFormed.after (hg : g.WellFormed) (ops : List Operation) :
    (g.after ops).WellFormed := by
  induction ops generalizing g with
  | nil => exact hg
  | cons op ops ih => exact ih (op.preserves_perform g hg)

/-- After any operations on the empty graph, with any arguments, failed ones among them: the index
finds exactly the names of the states, so no two states share a name; no state leads out of the
graph; only pass and task states have a next state. So a query or an operation reports as unknown
only a state that it was given itself and that does not exist. -/
theorem after_empty_arena (ops : List Operation) :
    (Graph.empty.after ops).WellFormed ∧
    ((Graph.empty.after ops).states.map State.name).Nodup ∧
    (∀ (q : Query) (n : StateId), q.answer (Graph.empty.after ops) = .error (.unknownState n) →
      n = q.handle ∧ (Graph.empty.after ops).size ≤ n) ∧
    ∀ (op : Operation) (n : StateId),
      (outcome op.perform (Graph.empty.after ops)).1 = .error (.graph (.unknownState n)) →
        n ∈ op.handles ∧ (Graph.empty.after ops).size ≤ n := by
  have hg := Graph.wellFormed_empty.after ops
  exact ⟨hg, hg.indexed.nodup_names, fun q _ => q.eq_handle_of_unknownState hg,
    fun op _ => op.mem_handles_of_unknownState hg⟩

end LifecycleFlow
