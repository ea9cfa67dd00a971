import LifecycleFlow.Graph.Document
import LifecycleFlow.Proofs.Lists
import LifecycleFlow.Proofs.Reachability

/-!
# What a document says of a state

In a graph whose states lead nowhere outside, writing a document cannot fail. What it says of a
state depends on the state itself and on the names of the states to which it leads, and every field
of it can be looked up.
-/
namespace LifecycleFlow

open LifecycleFlow.Graph (optionalField optionalText assignField)
open Json (Object)

def Catcher.written (name : StateId → String) (c : Catcher) : Json :=
  .object ([("ErrorEquals", .array (c.errors.map .string)), ("Next", .string (name c.next))] ++
    optionalField "Output" c.outputs)

def Rule.written (name : StateId → String) (r : Rule) : Json :=
  .object [("Condition", .string r.condition.template), ("Next", .string (name r.next))]

/-- The catchers of a task, written only if there are any. -/
def catchField (catchers : List Json) : Object :=
  if catchers.isEmpty then [] else [("Catch", .array catchers)]

/-- The fields that a state has by its kind. -/
def StateKind.fields (name : StateId → String) : StateKind → Object
  | .pass p =>
    optionalText "Comment" p.comment ++ assignField p.assign ++ optionalField "Output" p.outputs
  | .task c catchers =>
    optionalText "Comment" c.comment ++ [("Resource", .string c.resource)] ++
      optionalField "Arguments" c.parameters ++ assignField c.assign ++
      optionalField "Output" c.outputs ++ catchField (catchers.map (Catcher.written name))
  | .choice rules otherwise =>
    [("Choices", .array (rules.map (Rule.written name)))] ++
      optionalText "Default" (otherwise.map name)
  | .fail f =>
    optionalText "Comment" f.comment ++ optionalText "Error" f.error ++
      optionalText "Cause" f.cause

/-- The fields that say how a state goes on. -/
def State.continuation (name : StateId → String) (s : State) : Object :=
  if s.isNextable then
    match s.next with
    | some next => [("Next", .string (name next))]
    | none => [("End", .bool true)]
  else []

/-- The fields of the entry of a state. -/
def State.fields (name : StateId → String) (s : State) : Object :=
  [("Type", .string s.kind.label)] ++ s.kind.fields name ++ s.continuation name

namespace Graph

/-- The name of a state; without such a state no name. -/
def nameAt (g : Graph) (id : StateId) : String :=
  (g.states[id]?).elim "" State.name

/-- The entry of a state in a document. -/
def entryAt (g : Graph) (id : StateId) : String × Json :=
  (g.nameAt id, (g.states[id]?).elim .null fun s => .object (s.fields g.nameAt))

variable {ε α β : Type} {g : Graph} {id start : StateId} {name : String}

theorem Named.nameAt_eq (h : g.Named id name) : g.nameAt id = name := by
  obtain ⟨s, hs, rfl⟩ := h
  simp [nameAt, hs]

theorem named_nameAt (h : id < g.size) : g.Named id (g.nameAt id) := by
  obtain ⟨s, hs⟩ := exists_state_of_lt h
  exact ⟨s, hs, by simp [nameAt, hs]⟩

theorem nameAt_eq {s : State} (h : g.states[id]? = some s) : g.nameAt id = s.name :=
  Named.nameAt_eq ⟨s, h, rfl⟩

theorem entryAt_eq {s : State} (h : g.states[id]? = some s) :
    g.entryAt id = (s.name, .object (s.fields g.nameAt)) := by
  rw [entryAt, nameAt_eq h, h]
  rfl

/-- Different states have different names. -/
theorem Indexed.nameAt_inj (hg : g.Indexed) {i j : StateId} (hi : i < g.size) (hj : j < g.size)
    (h : g.nameAt i = g.nameAt j) : i = j :=
  hg.id_eq (named_nameAt hi) (h ▸ named_nameAt hj)

theorem nameOf_eq (h : id < g.size) : g.nameOf id = .ok (.string (g.nameAt id)) := by
  obtain ⟨s, hs⟩ := exists_state_of_lt h
  simp [nameOf, state_eq_ok_iff.2 hs, nameAt, hs, bind, Except.bind, pure, Except.pure]

theorem kindFields_eq {k : StateKind} (h : ∀ t ∈ k.targets, t < g.size) :
    g.kindFields k = .ok (k.fields g.nameAt) := by
  cases k with
  | pass p => rfl
  | fail f => rfl
  | task call catchers =>
    have hcatchers : catchers.mapM g.catcherDocument =
        .ok (catchers.map (Catcher.written g.nameAt)) :=
      List.mapM_eq_ok fun c hc => by
        rw [catcherDocument, nameOf_eq (h c.next (List.mem_map_of_mem hc))]
        rfl
    rw [kindFields, hcatchers]
    rfl
  | choice rules otherwise =>
    have hrules : rules.mapM g.ruleDocument = .ok (rules.map (Rule.written g.nameAt)) :=
      List.mapM_eq_ok fun r hr => by
        have hlt : r.next < g.size := h r.next (List.mem_append_left _ (List.mem_map_of_mem hr))
        rw [ruleDocument, nameOf_eq hlt]
        rfl
    have hdefault : otherwise.mapM g.nameOf =
        .ok (otherwise.map fun t => .string (g.nameAt t)) := by
      cases otherwise with
      | none => rfl
      | some t =>
        have hsome : (some t).mapM g.nameOf = some <$> g.nameOf t := rfl
        rw [hsome, nameOf_eq (h t (by simp [StateKind.targets]))]
        rfl
    simp only [kindFields, hrules, hdefault, StateKind.fields, optionalText, Option.map_map]
    rfl

theorem nextFields_eq {s : State} (h : ∀ t, s.next = some t → t < g.size) :
    g.nextFields s = .ok (s.continuation g.nameAt) := by
  rw [nextFields, State.continuation]
  split
  · cases hn : s.next with
    | none => rfl
    | some t =>
      dsimp only
      rw [nameOf_eq (h t hn)]
      rfl
  · rfl

theorem stateEntry_eq (hg : g.WellFormed) (h : id < g.size) :
    g.stateEntry id = .ok (g.entryAt id) := by
  obtain ⟨s, hs⟩ := exists_state_of_lt h
  have hclosed := hg.closed s (List.mem_of_getElem? hs)
  have hkind : g.kindFields s.kind = .ok (s.kind.fields g.nameAt) :=
    kindFields_eq fun t ht => hclosed t (List.mem_append_right _ ht)
  have hnext : g.nextFields s = .ok (s.continuation g.nameAt) :=
    nextFields_eq fun t ht => hclosed t (by simp [State.successors, ht])
  rw [stateEntry, state_eq_ok_iff.2 hs, entryAt_eq hs]
  simp only [stateDocument, hkind, hnext, bind, Except.bind]
  rfl

theorem keys_map_entryAt (ids : List StateId) :
    Object.keys (ids.map g.entryAt) = ids.map g.nameAt := by
  simp [Object.keys, entryAt]

/-- The names of the states that the search finds are all different. -/
theorem nodup_map_nameAt (hg : g.WellFormed) {ids : List StateId}
    (h : g.reachable start = .ok ids) : (ids.map g.nameAt).Nodup :=
  List.Nodup.map_on (fun i hi j hj heq => hg.indexed.nameAt_inj (lt_size_of_mem_reachable h i hi)
    (lt_size_of_mem_reachable h j hj) heq) (nodup_of_reachable h)

/-- The document of a start holds one entry for each state that the search finds, in the order in
which it finds them. -/
theorem document_eq (hg : g.WellFormed) {ids : List StateId} (h : g.reachable start = .ok ids)
    (comment : Option String) :
    g.document start comment = .ok (.object (optionalText "Comment" comment ++
      [("QueryLanguage", .string "JSONata"), ("StartAt", .string (g.nameAt start)),
        ("States", .object (ids.map g.entryAt))])) := by
  have hlt := lt_size_of_mem_reachable h
  have hentries : ids.mapM g.stateEntry = .ok (ids.map g.entryAt) :=
    List.mapM_eq_ok fun id hid => stateEntry_eq hg (hlt id hid)
  have hname : g.nameOf start = .ok (.string (g.nameAt start)) :=
    nameOf_eq (hlt start ((mem_reachable_iff h).2 .refl))
  have hkeys : (Object.keys (ids.map g.entryAt)).Nodup := by
    rw [keys_map_entryAt]
    exact nodup_map_nameAt hg h
  simp only [document, h, hentries, hname, bind, Except.bind, Object.ofList_eq_self hkeys]
  rfl

end Graph

section Lookup

variable {key other : String} {name : StateId → String}

@[simp] theorem find?_optionalField {value : Option Json} :
    Object.find? key (optionalField other value) = if other = key then value else none := by
  cases value <;> simp [optionalField, Object.find?]

@[simp] theorem find?_optionalText {value : Option String} :
    Object.find? key (optionalText other value) =
      if other = key then value.map .string else none :=
  find?_optionalField

@[simp] theorem find?_assignField {assign : Object} : Object.find? key (assignField assign) =
    if "Assign" = key ∧ assign ≠ [] then some (.object assign) else none := by
  cases assign <;> simp [assignField, Object.find?]

@[simp] theorem find?_catchField {catchers : List Json} : Object.find? key (catchField catchers) =
    if "Catch" = key ∧ catchers ≠ [] then some (.array catchers) else none := by
  cases catchers <;> simp [catchField, Object.find?]

/-- The type of a state, and how it goes on, stand in no other field. -/
theorem StateKind.find?_fields (kind : StateKind) (h : key ∈ ["Type", "Next", "End"]) :
    Object.find? key (kind.fields name) = none := by
  simp only [List.mem_cons, List.not_mem_nil, or_false] at h
  rcases h with rfl | rfl | rfl <;> cases kind <;> simp [fields, Object.find?_append, Object.find?]

namespace State

theorem find?_continuation (s : State) : Object.find? key (s.continuation name) =
    if "Next" = key ∧ s.isNextable then s.next.map fun t => .string (name t)
    else if "End" = key ∧ s.isOpen then some (.bool true) else none := by
  cases hn : s.isNextable with
  | false => simp [continuation, isOpen, hn, Object.find?]
  | true =>
    by_cases hkey : "Next" = key
    · subst hkey
      cases hnext : s.next <;> simp [continuation, hn, hnext, Object.find?]
    · cases hnext : s.next <;> simp [continuation, isOpen, hn, hnext, hkey, Object.find?]

/-- A field of a state is its type, or a field of its kind, or says how it goes on. -/
theorem find?_fields (s : State) : Object.find? key (s.fields name) =
    if "Type" = key then some (.string s.kind.label)
    else (Object.find? key (s.kind.fields name)).or (Object.find? key (s.continuation name)) := by
  rw [fields, Object.find?_append, Object.find?_append]
  by_cases h : "Type" = key <;> simp [Object.find?, h]

theorem find?_type (s : State) :
    Object.find? "Type" (s.fields name) = some (.string s.kind.label) := by
  rw [find?_fields, if_pos rfl]

theorem find?_next (s : State) : Object.find? "Next" (s.fields name) =
    if s.isNextable then s.next.map fun t => .string (name t) else none := by
  rw [find?_fields, s.kind.find?_fields (by simp), find?_continuation]
  simp

theorem find?_end (s : State) : Object.find? "End" (s.fields name) =
    if s.isOpen then some (.bool true) else none := by
  rw [find?_fields, s.kind.find?_fields (by simp), find?_continuation]
  simp

theorem find?_of_kind (s : State) (h : key ∉ ["Type", "Next", "End"]) :
    Object.find? key (s.fields name) = Object.find? key (s.kind.fields name) := by
  simp only [List.mem_cons, List.not_mem_nil, or_false, not_or] at h
  rw [find?_fields, find?_continuation]
  simp [Ne.symm h.1, Ne.symm h.2.1, Ne.symm h.2.2]

end State

end Lookup

end LifecycleFlow
