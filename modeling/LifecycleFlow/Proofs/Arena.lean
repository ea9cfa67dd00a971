import LifecycleFlow.Graph.Basic
import Mathlib.Data.List.Nodup

/-!
# The arena invariant

A graph is well-formed if its index finds exactly the names of its states, if no state leads out of
the graph, and if only pass and task states have a next state. The changes that operations are made
of, a state added at the end and a state replaced by one of its name, keep this.
-/
namespace LifecycleFlow.Graph

variable {g : Graph} {s t : State} {id id' : StateId} {name : String}

/-- The state with a number has a name. -/
def Named (g : Graph) (id : StateId) (name : String) : Prop :=
  ∃ s, g.states[id]? = some s ∧ s.name = name

/-- The index finds exactly the names of the states. -/
def Indexed (g : Graph) : Prop :=
  ∀ name id, g.find? name = some id ↔ g.Named id name

/-- What holds of every graph that operations bring about. -/
structure WellFormed (g : Graph) : Prop where
  indexed : g.Indexed
  closed : ∀ s ∈ g.states, ∀ t ∈ s.successors, t < g.size
  nextable : ∀ s ∈ g.states, s.next.isSome → s.isNextable

theorem Named.lt_size (h : g.Named id name) : id < g.size := by
  obtain ⟨s, hs, -⟩ := h
  exact (List.getElem?_eq_some_iff.1 hs).1

theorem named_iff_map : g.Named id name ↔ (g.states.map State.name)[id]? = some name := by
  simp [Named]

theorem state_eq_ok_iff : g.state id = .ok s ↔ g.states[id]? = some s := by
  rw [state]
  split <;> simp_all

theorem eq_unknownState_of_state_eq_error {e : GraphError} (h : g.state id = .error e) :
    e = .unknownState id ∧ g.size ≤ id := by
  rw [state] at h
  split at h
  · cases h
  · rename_i hnone
    exact ⟨(Except.error.inj h).symm, List.getElem?_eq_none_iff.1 hnone⟩

theorem eq_of_getElem? {g' : Graph} (hnames : g'.names = g.names)
    (hstates : ∀ i : StateId, g'.states[i]? = g.states[i]?) : g' = g := by
  obtain ⟨states, names⟩ := g
  obtain ⟨states', names'⟩ := g'
  rw [Graph.mk.injEq]
  exact ⟨List.ext_getElem? hstates, hnames⟩

theorem exists_state_of_lt (h : id < g.size) : ∃ s, g.states[id]? = some s :=
  ⟨_, List.getElem?_eq_getElem h⟩

theorem isAvailable_iff_find? : g.isAvailable name ↔ g.find? name = none := by
  rw [isAvailable, find?, Std.ExtTreeMap.contains_eq_isSome_getElem?]
  cases g.names[name]? <;> simp

theorem Indexed.id_eq (h : g.Indexed) (h₁ : g.Named id name) (h₂ : g.Named id' name) : id = id' :=
  Option.some.inj (((h name id).2 h₁).symm.trans ((h name id').2 h₂))

theorem Indexed.isAvailable_iff (h : g.Indexed) : g.isAvailable name ↔ ∀ id, ¬ g.Named id name := by
  simp only [isAvailable_iff_find?, Option.eq_none_iff_forall_ne_some, ne_eq, h name]

theorem Indexed.isAvailable_iff_notMem (h : g.Indexed) :
    g.isAvailable name ↔ name ∉ g.states.map State.name := by
  simp only [h.isAvailable_iff, named_iff_map, List.mem_iff_getElem?, not_exists]

theorem Indexed.nodup_names (h : g.Indexed) : (g.states.map State.name).Nodup := by
  rw [List.nodup_iff_getElem?_ne_getElem?]
  intro i j hij hj heq
  obtain ⟨name, hname⟩ : ∃ name, (g.states.map State.name)[j]? = some name :=
    ⟨_, List.getElem?_eq_getElem hj⟩
  have hi : g.Named i name := named_iff_map.2 (heq.trans hname)
  exact Nat.ne_of_lt hij (h.id_eq hi (named_iff_map.2 hname))

theorem indexed_empty : Graph.empty.Indexed := by
  intro name id
  simp [find?, empty, Named]

@[simp] theorem states_push : (g.push s).states = g.states ++ [s] := rfl

@[simp] theorem size_push : (g.push s).size = g.size + 1 := by
  simp [size]

theorem find?_push :
    (g.push s).find? name = if s.name = name then some g.size else g.find? name := by
  simp [find?, push, Std.ExtTreeMap.getElem?_insert]

theorem isAvailable_push : (g.push s).isAvailable name ↔ s.name ≠ name ∧ g.isAvailable name := by
  by_cases h : s.name = name <;> simp [isAvailable_iff_find?, find?_push, h]

@[simp] theorem getElem?_push_size : (g.push s).states[g.size]? = some s := by
  simp [size]

theorem named_push : (g.push s).Named id name ↔ g.Named id name ∨ id = g.size ∧ s.name = name := by
  rw [named_iff_map, named_iff_map, states_push, List.map_append]
  rcases Nat.lt_trichotomy id g.size with h | h | h
  · rw [List.getElem?_append_left (by simpa [size] using h)]
    simp [Nat.ne_of_lt h]
  · simp [h, size]
  · rw [size] at h
    rw [List.getElem?_eq_none (by simp; omega), List.getElem?_eq_none (by simp; omega)]
    simp [size, Nat.ne_of_gt h]

theorem Indexed.push (h : g.Indexed) (hs : g.isAvailable s.name) : (g.push s).Indexed := by
  intro name id
  rw [find?_push, named_push, ← h name id]
  split
  · rename_i heq
    rw [isAvailable_iff_find?, heq] at hs
    simp [hs, heq, eq_comm]
  · rename_i hne
    simp [hne]

theorem WellFormed.push (h : g.WellFormed) (hs : g.isAvailable s.name)
    (hclosed : ∀ t ∈ s.successors, t ≤ g.size) (hnext : s.next.isSome → s.isNextable) :
    (g.push s).WellFormed where
  indexed := h.indexed.push hs
  closed := by
    intro r hr t ht
    rw [size_push]
    rcases List.mem_append.1 hr with hr | hr
    · exact Nat.lt_succ_of_lt (h.closed r hr t ht)
    · rw [List.mem_singleton.1 hr] at ht
      exact Nat.lt_succ_of_le (hclosed t ht)
  nextable := by
    intro r hr
    rcases List.mem_append.1 hr with hr | hr
    · exact h.nextable r hr
    · rw [List.mem_singleton.1 hr]
      exact hnext

theorem wellFormed_empty : Graph.empty.WellFormed where
  indexed := indexed_empty
  closed := by simp [empty]
  nextable := by simp [empty]

/-- The graph with another state in the place of one, of the same name. -/
def put (g : Graph) (id : StateId) (s : State) : Graph :=
  { g with states := g.states.set id s }

theorem modify_eq_put {f : State → State} (h : g.states[id]? = some s) :
    g.modify id f = g.put id (f s) := by
  simp [modify, put, List.modify_eq_set_getElem?, h]

@[simp] theorem states_put : (g.put id s).states = g.states.set id s := rfl

@[simp] theorem size_put : (g.put id s).size = g.size := by
  simp [size]

@[simp] theorem find?_put : (g.put id s).find? name = g.find? name := rfl

theorem getElem?_put (h : g.states[id]? = some s) :
    (g.put id t).states[id']? = if id' = id then some t else g.states[id']? := by
  rw [states_put, List.getElem?_set]
  by_cases hid : id = id'
  · subst hid
    simp [(List.getElem?_eq_some_iff.1 h).1]
  · simp [hid, Ne.symm hid]

theorem named_put (h : g.states[id]? = some s) (hname : t.name = s.name) :
    (g.put id t).Named id' name ↔ g.Named id' name := by
  simp only [Named, getElem?_put h]
  by_cases hid : id' = id <;> simp [hid, h, hname]

theorem Indexed.put (hg : g.Indexed) (h : g.states[id]? = some s) (hname : t.name = s.name) :
    (g.put id t).Indexed := by
  intro name id'
  rw [find?_put, named_put h hname]
  exact hg name id'

theorem WellFormed.put (hg : g.WellFormed) (h : g.states[id]? = some s) (hname : t.name = s.name)
    (hclosed : ∀ u ∈ t.successors, u < g.size) (hnext : t.next.isSome → t.isNextable) :
    (g.put id t).WellFormed where
  indexed := hg.indexed.put h hname
  closed := by
    intro r hr u hu
    rw [size_put]
    rcases List.mem_or_eq_of_mem_set hr with hr | rfl
    · exact hg.closed r hr u hu
    · exact hclosed u hu
  nextable := by
    intro r hr
    rcases List.mem_or_eq_of_mem_set hr with hr | rfl
    · exact hg.nextable r hr
    · exact hnext

/-- Replacing the state added last is adding another one. -/
theorem put_push (hname : t.name = s.name) : (g.push s).put g.size t = g.push t := by
  simp [put, push, size, hname]

end LifecycleFlow.Graph
