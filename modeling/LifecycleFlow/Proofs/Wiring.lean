import LifecycleFlow.Proofs.Arena
import LifecycleFlow.Proofs.Outcome

/-!
# What connecting states does

Setting a next state, adding a rule, a default or a catcher are one operation with four ways to
change a state: the target is looked up, then the source, then the source is changed or refuses. So
what holds of all of them is shown once. Chaining two fragments repeats the first of the four.
-/
namespace LifecycleFlow

namespace State

/-- The state followed by another one. -/
def followedBy (target : StateId) (s : State) : Except GraphError State := do
  Graph.requireOpen s
  return { s with next := some target }

def withRule (condition : Condition) (target : StateId) (s : State) : Except GraphError State :=
  match s.kind with
  | .choice rules otherwise =>
    .ok { s with kind := .choice (rules ++ [⟨condition, target⟩]) otherwise }
  | _ => .error (.notAChoice s.name)

def withOtherwise (target : StateId) (s : State) : Except GraphError State :=
  match s.kind with
  | .choice rules _ => .ok { s with kind := .choice rules (some target) }
  | _ => .error (.notAChoice s.name)

def withCatcher (errors : List String) (outputs : Option Json) (target : StateId) (s : State) :
    Except GraphError State :=
  match s.kind with
  | .task call catchers =>
    .ok { s with kind := .task call (catchers ++ [⟨errors, target, outputs⟩]) }
  | _ => .error (.notCatchable s.name)

/-- A change that connects a state with a target leads nowhere else, and refuses in the name of the
state or keeps it. -/
structure Connects (target : StateId) (change : State → Except GraphError State) : Prop where
  name : ∀ {s s'}, change s = .ok s' → s'.name = s.name
  successors : ∀ {s s'}, change s = .ok s' → ∀ t ∈ s'.successors, t = target ∨ t ∈ s.successors
  nextable : ∀ {s s'}, change s = .ok s' → (s.next.isSome → s.isNextable) →
    s'.next.isSome → s'.isNextable
  refuses : ∀ {s e}, change s = .error e → ∀ id, e ≠ .unknownState id

end State

namespace Graph

variable {g g' : Graph} {source target : StateId} {change : State → Except GraphError State}

/-- The outcome of connecting a source with a target. -/
def connected (g : Graph) (source target : StateId) (change : State → Except GraphError State) :
    Except GraphError Unit × Graph :=
  match g.state target, g.state source with
  | .error e, _ => (.error e, g)
  | .ok _, .error e => (.error e, g)
  | .ok _, .ok s =>
    match change s with
    | .ok s' => (.ok (), g.put source s')
    | .error e => (.error e, g)

private theorem outcome_lookups {rest : State → GraphOp Unit}
    (h : ∀ s, g.states[source]? = some s → outcome (rest s) g =
      match change s with
      | .ok s' => (.ok (), g.put source s')
      | .error e => (.error e, g)) :
    outcome (do discard (liftM (g.state target)); let s ← liftM (g.state source); rest s) g =
      g.connected source target change := by
  rw [connected]
  cases ht : g.state target with
  | error e => simp [outcome_bind, Except.map]
  | ok t =>
    cases hs : g.state source with
    | error e => simp [outcome_bind, Except.map]
    | ok s => simp [outcome_bind, Except.map, h s (state_eq_ok_iff.1 hs)]

theorem outcome_setNext : outcome (setNext source target) g =
    g.connected source target (State.followedBy target) := by
  rw [setNext]
  rw [outcome_bind_ok (outcome_get g)]
  refine outcome_lookups fun s hs => ?_
  rw [outcome_bind, outcome_check, modify_eq_put hs]
  rw [State.followedBy]
  cases requireOpen s <;> rfl

theorem outcome_addRule {condition : Condition} : outcome (addRule source condition target) g =
    g.connected source target (State.withRule condition target) := by
  rw [addRule]
  rw [outcome_bind_ok (outcome_get g)]
  refine outcome_lookups fun s hs => ?_
  rw [State.withRule]
  cases s.kind <;> simp [modify_eq_put hs]

theorem outcome_setOtherwise : outcome (setOtherwise source target) g =
    g.connected source target (State.withOtherwise target) := by
  rw [setOtherwise]
  rw [outcome_bind_ok (outcome_get g)]
  refine outcome_lookups fun s hs => ?_
  rw [State.withOtherwise]
  cases s.kind <;> simp [modify_eq_put hs]

theorem outcome_addCatcher {errors : List String} {outputs : Option Json} :
    outcome (addCatcher source target errors outputs) g =
      g.connected source target (State.withCatcher errors outputs target) := by
  rw [addCatcher]
  rw [outcome_bind_ok (outcome_get g)]
  refine outcome_lookups fun s hs => ?_
  rw [State.withCatcher]
  cases s.kind <;> simp [modify_eq_put hs]

theorem outcome_add {name : String} {kind : StateKind} : outcome (add name kind) g =
    if g.isAvailable name then (.ok g.size, g.push ⟨name, kind, none⟩)
    else (.error (.duplicateStateName name), g) := by
  rw [add]
  rw [outcome_bind_ok (outcome_get g)]
  split <;> simp [Except.map]

theorem connected_eq_ok_iff : g.connected source target change = (.ok (), g') ↔
    target < g.size ∧ ∃ s s', g.states[source]? = some s ∧ change s = .ok s' ∧
      g' = g.put source s' := by
  rw [connected]
  cases ht : g.state target with
  | error e =>
    have hnone : ¬ target < g.size := fun h => by
      obtain ⟨t, h⟩ := exists_state_of_lt h
      rw [state_eq_ok_iff.2 h] at ht
      cases ht
    simp [hnone]
  | ok t =>
    have hlt : target < g.size := (List.getElem?_eq_some_iff.1 (state_eq_ok_iff.1 ht)).1
    cases hs : g.state source with
    | error e =>
      simp only [Prod.mk.injEq, reduceCtorEq, false_and, false_iff]
      rintro ⟨-, s, s', h, -⟩
      rw [state_eq_ok_iff.2 h] at hs
      cases hs
    | ok s =>
      have hs := state_eq_ok_iff.1 hs
      cases hc : change s <;> simp [hs, hc, hlt, eq_comm]

/-- A refused connection leaves the graph as it was. -/
theorem eq_of_connected_eq_error {e : GraphError}
    (h : g.connected source target change = (.error e, g')) : g' = g := by
  revert h
  rw [connected]
  cases g.state target with
  | error e => simp +contextual
  | ok t =>
    cases g.state source with
    | error e => simp +contextual
    | ok s => cases hc : change s <;> simp +contextual [hc]

theorem add_failsCleanly {name : String} {kind : StateKind} :
    FailsCleanly (Graph.add name kind) g := by
  intro e g' hout
  rw [outcome_add] at hout
  split at hout
  · cases hout
  · exact (congrArg Prod.snd hout).symm

theorem failsCleanly_of_connected {op : GraphOp Unit} {source target : StateId}
    {change : State → Except GraphError State}
    (h : outcome op g = g.connected source target change) : FailsCleanly op g :=
  fun _ _ hout => eq_of_connected_eq_error (h.symm.trans hout)

/-- A graph well-formed before is well-formed after, connected or not. -/
theorem WellFormed.connected (hg : g.WellFormed) (hc : State.Connects target change) :
    (g.connected source target change).2.WellFormed := by
  rcases h : g.connected source target change with ⟨e | u, g'⟩
  · rw [eq_of_connected_eq_error h]
    exact hg
  · obtain ⟨hlt, s, s', hs, hch, rfl⟩ := connected_eq_ok_iff.1 h
    have hmem := List.mem_of_getElem? hs
    refine hg.put hs (hc.name hch) (fun u hu => ?_) (hc.nextable hch (hg.nextable s hmem))
    rcases hc.successors hch u hu with rfl | hu
    · exact hlt
    · exact hg.closed s hmem u hu

/-- Only a handle that was given and does not exist is reported as unknown. -/
theorem eq_or_eq_of_connected_eq_unknownState (hc : State.Connects target change) {id : StateId}
    (h : (g.connected source target change).1 = .error (.unknownState id)) :
    (id = source ∨ id = target) ∧ g.size ≤ id := by
  rw [connected] at h
  cases ht : g.state target with
  | error e =>
    obtain ⟨rfl, hle⟩ := eq_unknownState_of_state_eq_error ht
    simp only [ht, Except.error.injEq, GraphError.unknownState.injEq] at h
    exact h ▸ ⟨.inr rfl, hle⟩
  | ok t =>
    cases hs : g.state source with
    | error e =>
      obtain ⟨rfl, hle⟩ := eq_unknownState_of_state_eq_error hs
      simp only [ht, hs, Except.error.injEq, GraphError.unknownState.injEq] at h
      exact h ▸ ⟨.inl rfl, hle⟩
    | ok s =>
      cases hch : change s with
      | error e =>
        simp only [ht, hs, hch, Except.error.injEq] at h
        exact absurd h (hc.refuses hch id)
      | ok s' => simp [ht, hs, hch] at h

end Graph

namespace State

variable {s s' : State} {target : StateId} {condition : Condition} {errors : List String}
  {outputs : Option Json}

theorem requireOpen_eq_ok_iff : Graph.requireOpen s = .ok () ↔ s.isOpen := by
  rw [Graph.requireOpen, isOpen]
  cases s.isNextable <;> cases s.next <;> simp

theorem followedBy_eq_ok_iff :
    s.followedBy target = .ok s' ↔ s.isOpen ∧ s' = { s with next := some target } := by
  rw [followedBy]
  rw [← requireOpen_eq_ok_iff]
  cases Graph.requireOpen s <;> simp [bind, Except.bind, pure, Except.pure, eq_comm]

theorem withRule_eq_ok_iff : s.withRule condition target = .ok s' ↔
    ∃ rules otherwise, s.kind = .choice rules otherwise ∧
      s' = { s with kind := .choice (rules ++ [⟨condition, target⟩]) otherwise } := by
  rw [withRule]
  cases s.kind <;> simp [eq_comm]

theorem withOtherwise_eq_ok_iff : s.withOtherwise target = .ok s' ↔
    ∃ rules otherwise, s.kind = .choice rules otherwise ∧
      s' = { s with kind := .choice rules (some target) } := by
  rw [withOtherwise]
  cases s.kind <;> simp [eq_comm]

theorem withCatcher_eq_ok_iff : s.withCatcher errors outputs target = .ok s' ↔
    ∃ call catchers, s.kind = .task call catchers ∧
      s' = { s with kind := .task call (catchers ++ [⟨errors, target, outputs⟩]) } := by
  rw [withCatcher]
  cases s.kind <;> simp [eq_comm]

theorem connects_followedBy : Connects target (followedBy target) where
  name h := by
    obtain ⟨-, rfl⟩ := followedBy_eq_ok_iff.1 h
    rfl
  successors h t ht := by
    obtain ⟨-, rfl⟩ := followedBy_eq_ok_iff.1 h
    simp only [State.successors, Option.toList_some, List.mem_append, List.mem_singleton] at ht ⊢
    exact ht.imp id .inr
  nextable h _ _ := by
    obtain ⟨hopen, rfl⟩ := followedBy_eq_ok_iff.1 h
    exact (Bool.and_eq_true_iff.1 hopen).1
  refuses {s e} h id := by
    rw [followedBy, Graph.requireOpen] at h
    split_ifs at h <;> cases h <;> simp

/-- A change of the kind alone connects if the new kind may be followed by a state as the old one
may, and leads to the target or where the old one leads. -/
theorem connects_of_kind {change : State → Except GraphError State}
    (hkind : ∀ {s s'}, change s = .ok s' → ∃ kind, s' = { s with kind } ∧
      kind.isNextable = s.kind.isNextable ∧ ∀ t ∈ kind.targets, t = target ∨ t ∈ s.kind.targets)
    (hrefuses : ∀ {s e}, change s = .error e → ∀ id, e ≠ .unknownState id) :
    Connects target change where
  name h := by
    obtain ⟨kind, rfl, -, -⟩ := hkind h
    rfl
  successors h t ht := by
    obtain ⟨kind, rfl, -, htargets⟩ := hkind h
    rcases List.mem_append.1 ht with ht | ht
    · exact .inr (List.mem_append_left _ ht)
    · exact (htargets t ht).imp id (List.mem_append_right _)
  nextable h hn hs := by
    obtain ⟨kind, rfl, hnext, -⟩ := hkind h
    exact hnext.trans (hn hs)
  refuses := hrefuses

theorem connects_withRule : Connects target (withRule condition target) := by
  refine connects_of_kind (fun {s s'} h => ?_) (fun {s e} h id => ?_)
  · obtain ⟨rules, otherwise, hk, rfl⟩ := withRule_eq_ok_iff.1 h
    refine ⟨_, rfl, by rw [hk]; rfl, fun t ht => ?_⟩
    simp only [StateKind.targets, hk, List.map_append, List.map_cons, List.map_nil,
      List.mem_append, List.mem_singleton] at ht ⊢
    tauto
  · rw [withRule] at h
    split at h <;> cases h
    simp

theorem connects_withOtherwise : Connects target (withOtherwise target) := by
  refine connects_of_kind (fun {s s'} h => ?_) (fun {s e} h id => ?_)
  · obtain ⟨rules, otherwise, hk, rfl⟩ := withOtherwise_eq_ok_iff.1 h
    refine ⟨_, rfl, by rw [hk]; rfl, fun t ht => ?_⟩
    simp only [StateKind.targets, hk, Option.toList_some, List.mem_append,
      List.mem_singleton] at ht ⊢
    tauto
  · rw [withOtherwise] at h
    split at h <;> cases h
    simp

theorem connects_withCatcher : Connects target (withCatcher errors outputs target) := by
  refine connects_of_kind (fun {s s'} h => ?_) (fun {s e} h id => ?_)
  · obtain ⟨call, catchers, hk, rfl⟩ := withCatcher_eq_ok_iff.1 h
    refine ⟨_, rfl, by rw [hk]; rfl, fun t ht => ?_⟩
    simp only [StateKind.targets, hk, List.map_append, List.map_cons, List.map_nil,
      List.mem_append, List.mem_singleton] at ht ⊢
    tauto
  · rw [withCatcher] at h
    split at h <;> cases h
    simp

end State

namespace Graph

variable {source target : StateId} {name : String}

theorem preserves_setNext : Preserves WellFormed (setNext source target) := by
  intro g hg
  rw [outcome_setNext]
  exact hg.connected State.connects_followedBy

theorem preserves_addRule {condition : Condition} :
    Preserves WellFormed (addRule source condition target) := by
  intro g hg
  rw [outcome_addRule]
  exact hg.connected State.connects_withRule

theorem preserves_setOtherwise : Preserves WellFormed (setOtherwise source target) := by
  intro g hg
  rw [outcome_setOtherwise]
  exact hg.connected State.connects_withOtherwise

theorem preserves_addCatcher {errors : List String} {outputs : Option Json} :
    Preserves WellFormed (addCatcher source target errors outputs) := by
  intro g hg
  rw [outcome_addCatcher]
  exact hg.connected State.connects_withCatcher

/-- A state that leads nowhere may be added. -/
theorem preserves_add {kind : StateKind} (h : kind.targets = []) :
    Preserves WellFormed (add name kind) := by
  intro g hg
  rw [outcome_add]
  split
  · rename_i hfree
    exact hg.push hfree (by simp [State.successors, h]) (by simp)
  · exact hg

end Graph

end LifecycleFlow
