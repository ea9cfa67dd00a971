import LifecycleFlow.Proofs.Layout
import LifecycleFlow.Proofs.Reachability

/-!
# Graphs that hold a layout

What holds of a graph in which the states of steps are placed from a number on: each step has its
state, each handler its catcher, and every state placed can be reached from the first one.
-/
namespace LifecycleFlow

open LifecycleFlow.Graph

/-- A graph has some states, numbered from a number on. -/
def Graph.Has (g : Graph) (n : Nat) (M : List State) : Prop :=
  ∀ i s, M[i]? = some s → g.states[n + i]? = some s

variable {g : Graph} {n m id : Nat} {A B : List State} {s : State}
  {exits : String → Option StateId} {next last : Option StateId}

theorem Graph.has_nil : g.Has n [] := by
  intro i s hs
  simp at hs

theorem Graph.has_cons : g.Has n (s :: B) ↔ g.states[n]? = some s ∧ g.Has (n + 1) B := by
  constructor
  · intro h
    refine ⟨h 0 s rfl, fun i t ht => ?_⟩
    rw [Nat.add_assoc, Nat.add_comm 1 i]
    exact h (i + 1) t ht
  · rintro ⟨hs, hB⟩ i t ht
    cases i with
    | zero => exact hs.trans ht
    | succ i =>
      have hstate := hB i t ht
      rwa [Nat.add_assoc, Nat.add_comm 1 i] at hstate

theorem Graph.has_append : g.Has n (A ++ B) ↔ g.Has n A ∧ g.Has (n + A.length) B := by
  induction A generalizing n with
  | nil => simp [has_nil]
  | cons s A ih =>
    rw [List.cons_append, has_cons, has_cons, ih, and_assoc, List.length_cons, Nat.add_right_comm,
      Nat.add_assoc]

theorem Graph.has_of_states (h : g.states = A ++ B) : g.Has 0 A := by
  intro i s hs
  rw [Nat.zero_add, h, List.getElem?_append_left (List.getElem?_eq_some_iff.1 hs).1]
  exact hs

/-- The state of a step, and the states of its handlers after it. -/
theorem Step.has_states {s : Step} : g.Has n (s.states exits n next) ↔
    g.states[n]? = some ⟨s.name, s.kind n, next⟩ ∧
      g.Has (n + 1) (Handler.statesOf exits (n + 1) s.handlers) := by
  rw [Step.states_eq, has_cons]

/-- Each catcher leads to where the steps of its handler are placed. -/
theorem Handler.forall₂_catchersOf {hs : List Handler} (h : g.Has n (Handler.statesOf exits n hs)) :
    List.Forall₂ (fun x c => c.errors = x.errors ∧ c.outputs = x.outputs ∧
      g.Has c.next (Step.statesOf exits c.next (x.target.bind exits) x.steps))
      hs (Handler.catchersOf n hs) := by
  induction hs generalizing n with
  | nil => exact .nil
  | cons x rest ih =>
    obtain ⟨errors, outputs, steps, target⟩ := x
    rw [Handler.statesOf, has_append, Step.length_statesOf] at h
    exact .cons ⟨rfl, rfl, h.1⟩ (ih h.2)

/-- Each of some steps is placed, followed by the next one or, the last one, by what follows all. -/
theorem Step.exists_has_of_getElem? {l : List Step} {i : Nat} {s : Step}
    (h : g.Has n (Step.statesOf exits n last l)) (hs : l[i]? = some s) :
    ∃ m next, g.Has m (s.states exits m next) ∧ (l[i + 1]? = none → next = last) ∧
      ∀ t, l[i + 1]? = some t → ∃ id, next = some id ∧ g.Named id t.name := by
  induction l generalizing n i with
  | nil => simp at hs
  | cons t rest ih =>
    rw [Step.statesOf, has_append, Step.length_states] at h
    cases i with
    | succ i => exact ih h.2 hs
    | zero =>
      obtain rfl := Option.some.inj hs
      refine ⟨n, _, h.1, fun hnone => ?_, fun r hr => ?_⟩
      · simp only [List.getElem?_cons_succ, List.getElem?_eq_none_iff, List.length_eq_zero_iff,
          Nat.le_zero] at hnone
        simp [hnone]
      · cases rest with
        | nil => simp at hr
        | cons u rest =>
          obtain rfl := Option.some.inj hr
          have hrest := h.2
          rw [Step.statesOf, has_append] at hrest
          exact ⟨_, rfl, _, (Step.has_states.1 hrest.1).1, rfl⟩

mutual

theorem Step.exists_has (s : Step) {n : Nat} {next : Option StateId}
    (h : g.Has n (s.states exits n next)) :
    ∀ t ∈ s.all, ∃ m next, g.Has m (t.states exits m next) := by
  match s with
  | .pass name p =>
    intro t ht
    rw [Step.all, List.mem_singleton] at ht
    exact ⟨n, next, ht ▸ h⟩
  | .fail name f =>
    intro t ht
    rw [Step.all, List.mem_singleton] at ht
    exact ⟨n, next, ht ▸ h⟩
  | .task name call handlers =>
    intro t ht
    rw [Step.all, List.mem_cons] at ht
    rcases ht with rfl | ht
    · exact ⟨n, next, h⟩
    · rw [Step.states, has_cons] at h
      exact Handler.exists_has handlers h.2 t ht

theorem Handler.exists_has (hs : List Handler) {n : Nat}
    (h : g.Has n (Handler.statesOf exits n hs)) :
    ∀ t ∈ Handler.allOf hs, ∃ m next, g.Has m (t.states exits m next) := by
  match hs with
  | [] => simp [Handler.allOf]
  | .mk errors outputs steps target :: rest =>
    rw [Handler.statesOf, has_append, Step.length_statesOf] at h
    rw [Handler.allOf, List.forall_mem_append]
    exact ⟨Step.exists_hasOf steps h.1, Handler.exists_has rest h.2⟩

theorem Step.exists_hasOf (l : List Step) {n : Nat} {last : Option StateId}
    (h : g.Has n (Step.statesOf exits n last l)) :
    ∀ t ∈ Step.allOf l, ∃ m next, g.Has m (t.states exits m next) := by
  match l with
  | [] => simp [Step.allOf]
  | s :: rest =>
    rw [Step.statesOf, has_append, Step.length_states] at h
    rw [Step.allOf, List.forall_mem_append]
    exact ⟨Step.exists_has s h.1, Step.exists_hasOf rest h.2⟩

end

mutual

/-- From the state of a step all states of its handlers are reached. -/
theorem Step.reaches (s : Step) {n : Nat} {next : Option StateId}
    (h : g.Has n (s.states exits n next)) {i : Nat} (hle : n ≤ i) (hlt : i < n + s.all.length) :
    g.Reaches n i := by
  match s with
  | .pass name p =>
    have hsame : n = i := by
      simp only [Step.all, List.length_singleton] at hlt
      omega
    rw [hsame]
  | .fail name f =>
    have hsame : n = i := by
      simp only [Step.all, List.length_singleton] at hlt
      omega
    rw [hsame]
  | .task name call handlers =>
    rcases Nat.eq_or_lt_of_le hle with rfl | hle
    · exact .refl
    · rw [Step.states, has_cons] at h
      refine Handler.reaches handlers h.2 (fun c hc => ⟨_, h.1, ?_⟩) hle ?_
      · exact List.mem_append_right _ (List.mem_map_of_mem hc)
      · simp only [Step.all, List.length_cons] at hlt
        omega

/-- From a state that leads to the handlers all their states are reached. -/
theorem Handler.reaches (hs : List Handler) {n a : Nat}
    (h : g.Has n (Handler.statesOf exits n hs))
    (hleads : ∀ c ∈ Handler.catchersOf n hs, g.Leads a c.next) {i : Nat} (hle : n ≤ i)
    (hlt : i < n + (Handler.allOf hs).length) : g.Reaches a i := by
  match hs with
  | [] =>
    simp only [Handler.allOf, List.length_nil] at hlt
    omega
  | .mk errors outputs steps target :: rest =>
    rw [Handler.statesOf, has_append, Step.length_statesOf] at h
    rw [Handler.catchersOf, List.forall_mem_cons] at hleads
    rcases Nat.lt_or_ge i (n + (Step.allOf steps).length) with hi | hi
    · exact .head hleads.1 (Step.reachesOf steps h.1 hle hi)
    · refine Handler.reaches rest h.2 hleads.2 hi ?_
      simp only [Handler.allOf, List.length_append] at hlt
      omega

/-- From the first of some steps the states of all of them are reached. -/
theorem Step.reachesOf (l : List Step) {n : Nat} {last : Option StateId}
    (h : g.Has n (Step.statesOf exits n last l)) {i : Nat} (hle : n ≤ i)
    (hlt : i < n + (Step.allOf l).length) : g.Reaches n i := by
  match l with
  | [] =>
    simp only [Step.allOf, List.length_nil] at hlt
    omega
  | s :: rest =>
    rw [Step.statesOf, has_append, Step.length_states] at h
    rcases Nat.lt_or_ge i (n + s.all.length) with hi | hi
    · exact Step.reaches s h.1 hle hi
    · simp only [Step.allOf, List.length_append] at hlt
      have hrest : g.Reaches (n + s.all.length) i := Step.reachesOf rest h.2 hi (by omega)
      have hne : rest.isEmpty = false := by
        cases rest with
        | nil =>
          simp only [Step.allOf, List.length_nil] at hlt
          omega
        | cons t r => rfl
      rw [hne] at h
      exact .head ⟨_, (Step.has_states.1 h.1).1, by simp [State.successors]⟩ hrest

end

end LifecycleFlow
