import LifecycleFlow.Graph.Reachability
import LifecycleFlow.Proofs.Lists
import LifecycleFlow.Proofs.Wiring

/-!
# What chaining does

Chaining looks at each end of the first fragment by itself, then continues one end after the other.
If every end may be continued, a chain of distinct ends continues all of them; if an end is named
twice, the chain fails at the repetition and the ends before it stay continued.
-/
namespace LifecycleFlow.Graph

variable {g : Graph} {first second : Fragment} {ids : List StateId} {id target : StateId}

/-- The check that a state exists and may be continued. -/
def checkEnd (g : Graph) (id : StateId) : Except GraphError Unit := do
  requireOpen (← g.state id)

/-- What is looked at before the first end is continued. -/
def checkChain (g : Graph) (first second : Fragment) : Except GraphError Unit := do
  discard (g.state second.start)
  first.ends.forM g.checkEnd

/-- The graph with some states followed by another one. -/
def withNext (g : Graph) (ids : List StateId) (target : StateId) : Graph :=
  { g with states := g.states.mapIdx fun id s =>
      if id ∈ ids then { s with next := some target } else s }

theorem outcome_chain : outcome (chain first second) g =
    if first.ends = [] then
      (do let s ← g.state first.start; throw (.notNextable s.name), g)
    else match g.checkChain first second with
      | .error e => (.error e, g)
      | .ok _ =>
        ((outcome (first.ends.forM (setNext · second.start)) g).1.map fun _ =>
            ⟨first.start, second.ends⟩,
          (outcome (first.ends.forM (setNext · second.start)) g).2) := by
  rw [chain]
  rw [outcome_bind_ok (outcome_get g)]
  by_cases hends : first.ends = []
  · simp only [hends, List.isEmpty_nil, if_true]
    cases g.state first.start <;> rfl
  · have hcheck (id : StateId) (g' : Graph) :
        outcome (do let s ← liftM (g.state id); liftM (requireOpen s)) g' =
          (g.checkEnd id, g') := by
      rw [outcome_bind, outcome_check]
      rw [checkEnd]
      cases g.state id <;> rfl
    have hempty : first.ends.isEmpty = false := by simpa using hends
    simp only [hempty, Bool.false_eq_true, if_false, hends]
    rw [outcome_bind, outcome_discard, outcome_check]
    cases ht : g.state second.start with
    | error e =>
      rw [checkChain, ht]
      rfl
    | ok t =>
      have hchain : g.checkChain first second = first.ends.forM g.checkEnd := by
        rw [checkChain, ht]
        rfl
      dsimp only [Except.map]
      rw [hchain, outcome_bind, outcome_forM_check hcheck]
      cases first.ends.forM g.checkEnd with
      | error e => rfl
      | ok u => simp [Except.map]

theorem getElem?_withNext : (g.withNext ids target).states[id]? =
    (g.states[id]?).map fun s => if id ∈ ids then { s with next := some target } else s := by
  simp [withNext, List.getElem?_mapIdx]

@[simp] theorem size_withNext : (g.withNext ids target).size = g.size := by
  simp [withNext, size]

@[simp] theorem withNext_nil : g.withNext [] target = g := by
  refine eq_of_getElem? rfl fun i => ?_
  simp [getElem?_withNext]

theorem withNext_append {ids' : List StateId} :
    (g.withNext ids target).withNext ids' target = g.withNext (ids ++ ids') target := by
  refine eq_of_getElem? rfl fun i => ?_
  simp only [getElem?_withNext, Option.map_map, List.mem_append]
  congr 1
  funext s
  by_cases h : i ∈ ids <;> by_cases h' : i ∈ ids' <;> simp [h, h']

theorem isOpen_iff : g.isOpen id ↔ ∃ s, g.states[id]? = some s ∧ s.isOpen := by
  simp [isOpen, Option.any_eq_true]

/-- A state that was continued is not open any more. -/
theorem isOpen_withNext : (g.withNext ids target).isOpen id ↔ g.isOpen id ∧ id ∉ ids := by
  simp only [isOpen_iff, getElem?_withNext]
  by_cases h : id ∈ ids
  · simp [h, State.isOpen]
  · simp [h]

theorem checkEnd_eq_ok_iff : g.checkEnd id = .ok () ↔ g.isOpen id := by
  rw [checkEnd]
  rw [isOpen_iff]
  cases hs : g.state id with
  | error e =>
    have hnone := List.getElem?_eq_none (eq_unknownState_of_state_eq_error hs).2
    simp [hnone, bind, Except.bind]
  | ok s =>
    simp [state_eq_ok_iff.1 hs, bind, Except.bind, State.requireOpen_eq_ok_iff]

theorem checkChain_eq_ok_iff : g.checkChain first second = .ok () ↔
    second.start < g.size ∧ ∀ id ∈ first.ends, g.isOpen id := by
  have hends : first.ends.forM g.checkEnd = .ok () ↔ ∀ id ∈ first.ends, g.isOpen id :=
    List.forM_eq_ok_iff.trans (forall₂_congr fun id _ => checkEnd_eq_ok_iff)
  rw [← hends]
  rw [checkChain]
  cases ht : g.state second.start with
  | error e =>
    have hle := (eq_unknownState_of_state_eq_error ht).2
    simp only [Nat.not_lt.2 hle, false_and, iff_false]
    exact nofun
  | ok t =>
    have hlt : second.start < g.size :=
      (List.getElem?_eq_some_iff.1 (state_eq_ok_iff.1 ht)).1
    simp only [hlt, true_and]
    exact Iff.rfl

theorem withNext_singleton {s : State} (hs : g.states[id]? = some s) :
    g.withNext [id] target = g.put id { s with next := some target } := by
  refine eq_of_getElem? rfl fun i => ?_
  rw [getElem?_withNext, getElem?_put hs]
  by_cases hi : i = id <;> simp [hi, hs]

theorem outcome_setNext_of_isOpen (h : g.isOpen id) (ht : target < g.size) :
    outcome (setNext id target) g = (.ok (), g.withNext [id] target) := by
  obtain ⟨s, hs, hopen⟩ := isOpen_iff.1 h
  rw [outcome_setNext, connected_eq_ok_iff]
  exact ⟨ht, s, _, hs, State.followedBy_eq_ok_iff.2 ⟨hopen, rfl⟩, withNext_singleton hs⟩

theorem outcome_forM_setNext (hopen : ∀ id ∈ ids, g.isOpen id) (ht : target < g.size)
    (hnodup : ids.Nodup) :
    outcome (ids.forM (setNext · target)) g = (.ok (), g.withNext ids target) := by
  induction ids generalizing g with
  | nil => simp
  | cons a r ih =>
    obtain ⟨ha, hr⟩ := List.nodup_cons.1 hnodup
    have hrest : ∀ id ∈ r, (g.withNext [a] target).isOpen id := fun id hid =>
      isOpen_withNext.2 ⟨hopen id (List.mem_cons_of_mem _ hid), by
        rintro h
        exact ha (List.mem_singleton.1 h ▸ hid)⟩
    have hstep := outcome_setNext_of_isOpen (hopen a List.mem_cons_self) ht
    have hothers := ih hrest (by rwa [size_withNext]) hr
    rw [withNext_append] at hothers
    simp only [List.forM_eq_forM, List.forM_cons] at hothers ⊢
    rw [outcome_bind_ok hstep]
    exact hothers

/-- The first repetition stops the continuing; the states before it stay continued. -/
theorem outcome_forM_setNext_of_repeated {done rest : List StateId} {s : State}
    (hopen : ∀ i ∈ done, g.isOpen i) (ht : target < g.size) (hnodup : done.Nodup)
    (hmem : id ∈ done) (hs : g.states[id]? = some s) :
    outcome ((done ++ id :: rest).forM (setNext · target)) g =
      (.error (.alreadyHasNext s.name), g.withNext done target) := by
  have hdone := outcome_forM_setNext hopen ht hnodup
  obtain ⟨s', hs', hopen'⟩ := isOpen_iff.1 (hopen id hmem)
  obtain rfl := Option.some.inj (hs.symm.trans hs')
  have hnext : (g.withNext done target).states[id]? = some { s with next := some target } := by
    simp [getElem?_withNext, hs, hmem]
  obtain ⟨t, ht⟩ := exists_state_of_lt (g := g.withNext done target) (by rwa [size_withNext])
  have hstep : outcome (setNext id target) (g.withNext done target) =
      (.error (.alreadyHasNext s.name), g.withNext done target) := by
    have hnextable : s.kind.isNextable := (Bool.and_eq_true_iff.1 hopen').1
    rw [outcome_setNext, connected, state_eq_ok_iff.2 ht, state_eq_ok_iff.2 hnext]
    simp [State.followedBy, requireOpen, State.isNextable, hnextable, bind, Except.bind]
  simp only [List.forM_eq_forM, List.forM_append, List.forM_cons] at hdone ⊢
  rw [outcome_bind_ok hdone]
  exact outcome_bind_error hstep _

theorem outcome_chain_of_nodup (hends : first.ends ≠ [])
    (hcheck : g.checkChain first second = .ok ()) (hnodup : first.ends.Nodup) :
    outcome (chain first second) g =
      (.ok ⟨first.start, second.ends⟩, g.withNext first.ends second.start) := by
  obtain ⟨ht, hopen⟩ := checkChain_eq_ok_iff.1 hcheck
  rw [outcome_chain, if_neg hends, hcheck]
  simp only [outcome_forM_setNext hopen ht hnodup, Except.map]

theorem outcome_chain_of_repeated {done rest : List StateId}
    (hcheck : g.checkChain first second = .ok ()) (hends : first.ends = done ++ id :: rest)
    (hnodup : done.Nodup) (hmem : id ∈ done) :
    ∃ name, outcome (chain first second) g =
      (.error (.alreadyHasNext name), g.withNext done second.start) := by
  obtain ⟨ht, hopen⟩ := checkChain_eq_ok_iff.1 hcheck
  rw [hends] at hopen
  obtain ⟨s, hs, -⟩ := isOpen_iff.1 (hopen id (by simp))
  have hdone : ∀ i ∈ done, g.isOpen i := fun i hi => hopen i (List.mem_append_left _ hi)
  have hne : first.ends ≠ [] := by simp [hends]
  refine ⟨s.name, ?_⟩
  rw [outcome_chain, if_neg hne, hcheck, hends]
  simp only [outcome_forM_setNext_of_repeated hdone ht hnodup hmem hs, Except.map]

theorem outcome_chain_of_refused {e : GraphError} (hends : first.ends ≠ [])
    (hcheck : g.checkChain first second = .error e) :
    outcome (chain first second) g = (.error e, g) := by
  rw [outcome_chain, if_neg hends, hcheck]

/-- A chain succeeds if no check of an end fails and no end comes twice, and in no other case. -/
theorem chain_eq_ok_iff {f : Fragment} {g' : Graph} : outcome (chain first second) g = (.ok f, g') ↔
    (first.ends ≠ [] ∧ second.start < g.size ∧ first.ends.Nodup ∧
      ∀ id ∈ first.ends, g.isOpen id) ∧
    f = ⟨first.start, second.ends⟩ ∧ g' = g.withNext first.ends second.start := by
  constructor
  · intro hout
    have hends : first.ends ≠ [] := by
      intro hends
      rw [outcome_chain, if_pos hends] at hout
      cases hs : g.state first.start <;>
        simp [hs, bind, Except.bind, throw, throwThe, MonadExceptOf.throw] at hout
    cases hcheck : g.checkChain first second with
    | error e =>
      rw [outcome_chain_of_refused hends hcheck] at hout
      cases hout
    | ok u =>
      have hnodup : first.ends.Nodup := by
        by_contra hdup
        obtain ⟨done, id, rest, hsplit, hdone, hmem⟩ := List.exists_repeated hdup
        obtain ⟨name, hrepeated⟩ := outcome_chain_of_repeated hcheck hsplit hdone hmem
        cases hrepeated.symm.trans hout
      obtain ⟨ht, hopen⟩ := checkChain_eq_ok_iff.1 hcheck
      rw [outcome_chain_of_nodup hends hcheck hnodup] at hout
      cases hout
      exact ⟨⟨hends, ht, hnodup, hopen⟩, rfl, rfl⟩
  · rintro ⟨⟨hends, ht, hnodup, hopen⟩, rfl, rfl⟩
    exact outcome_chain_of_nodup hends (checkChain_eq_ok_iff.2 ⟨ht, hopen⟩) hnodup

theorem exists_chain_eq_ok_iff : (∃ f g', outcome (chain first second) g = (.ok f, g')) ↔
    first.ends ≠ [] ∧ second.start < g.size ∧ first.ends.Nodup ∧
      ∀ id ∈ first.ends, g.isOpen id := by
  simp only [chain_eq_ok_iff]
  exact ⟨fun ⟨_, _, hgood, _⟩ => hgood, fun hgood => ⟨_, _, hgood, rfl, rfl⟩⟩

/-- A chain keeps what each of its connections keeps. -/
theorem preserves_chain {P : Graph → Prop} (h : ∀ id, Preserves P (setNext id second.start)) :
    Preserves P (chain first second) := by
  intro g hg
  rw [outcome_chain]
  split
  · exact hg
  · cases g.checkChain first second with
    | error e => exact hg
    | ok u => exact preserves_forM h first.ends g hg

private theorem eq_of_checkEnd_eq_unknownState {i : StateId}
    (h : g.checkEnd i = .error (.unknownState id)) : id = i ∧ g.size ≤ id := by
  rw [checkEnd] at h
  cases hs : g.state i with
  | error e =>
    rw [hs] at h
    obtain ⟨rfl, hle⟩ := eq_unknownState_of_state_eq_error hs
    obtain rfl := GraphError.unknownState.inj (Except.error.inj h)
    exact ⟨rfl, hle⟩
  | ok s =>
    rw [hs] at h
    simp only [bind, Except.bind, requireOpen] at h
    split_ifs at h <;> cases h

private theorem mem_of_checkChain_eq_unknownState
    (h : g.checkChain first second = .error (.unknownState id)) :
    id ∈ second.start :: first.ends ∧ g.size ≤ id := by
  rw [checkChain] at h
  cases ht : g.state second.start with
  | error e =>
    rw [ht] at h
    obtain ⟨rfl, hle⟩ := eq_unknownState_of_state_eq_error ht
    obtain rfl := GraphError.unknownState.inj (Except.error.inj h)
    exact ⟨List.mem_cons_self, hle⟩
  | ok t =>
    rw [ht] at h
    obtain ⟨i, hi, he⟩ := List.exists_of_forM_eq_error h
    obtain ⟨rfl, hle⟩ := eq_of_checkEnd_eq_unknownState he
    exact ⟨List.mem_cons_of_mem _ hi, hle⟩

/-- Only a start or an end that does not exist is reported as unknown. -/
theorem mem_of_chain_eq_unknownState
    (h : (outcome (chain first second) g).1 = .error (.unknownState id)) :
    id ∈ first.start :: second.start :: first.ends ∧ g.size ≤ id := by
  by_cases hends : first.ends = []
  · rw [outcome_chain, if_pos hends] at h
    cases hs : g.state first.start with
    | error e =>
      obtain ⟨rfl, hle⟩ := eq_unknownState_of_state_eq_error hs
      simp only [hs, bind, Except.bind, Except.error.injEq, GraphError.unknownState.injEq] at h
      exact h ▸ ⟨List.mem_cons_self, hle⟩
    | ok s => simp [hs, bind, Except.bind, throw, throwThe, MonadExceptOf.throw] at h
  · cases hcheck : g.checkChain first second with
    | ok u =>
      by_cases hnodup : first.ends.Nodup
      · simp [outcome_chain_of_nodup hends hcheck hnodup] at h
      · obtain ⟨done, i, rest, heq, hdone, hmem⟩ := List.exists_repeated hnodup
        obtain ⟨name, hout⟩ := outcome_chain_of_repeated hcheck heq hdone hmem
        simp [hout] at h
    | error e =>
      rw [outcome_chain_of_refused hends hcheck] at h
      obtain rfl := Except.error.inj h
      obtain ⟨hmem, hle⟩ := mem_of_checkChain_eq_unknownState hcheck
      exact ⟨List.mem_cons_of_mem _ hmem, hle⟩

end LifecycleFlow.Graph
