import LifecycleFlow.Proofs.Acceptance
import LifecycleFlow.Proofs.Lists

/-!
# What definitions are built to

A built graph says what its definition says: each step is a state of its own, followed by the step
after it, and the last step of a handler by the state that the handler names; each handler is a
catcher; the choice leads to the branches. Main statement: these are all states and all transitions.
-/
namespace LifecycleFlow

open LifecycleFlow.Graph LifecycleFlow.Flow

namespace FlowDefinition

/-- The name of the first step for a type of request, or of the state in its place. -/
def firstName (d : FlowDefinition) (t : RequestType) : String :=
  match (d.branchSteps t).bind List.head? with
  | some s => s.name
  | none => t.text

/-- What the state of a step does: what the step says, and for a task a catcher for each handler, in
order, that leads to the first step of the handler. -/
def KindOf (d : FlowDefinition) (g : Graph) : Step → StateKind → Prop
  | .pass _ p, .pass p' => p' = p
  | .task _ call handlers, .task call' catchers =>
    call' = call ∧ List.Forall₂ (fun h c => c.errors = h.errors ∧ c.outputs = h.outputs ∧
      ∃ s, h.steps.head? = some s ∧ g.find? (d.stateName s.name) = some c.next) handlers catchers
  | .fail _ f, .fail f' => f' = f
  | _, _ => False

/-- The transitions that a definition asks for, between names of states. -/
inductive Transition (d : FlowDefinition) : String → String → Prop
  | follow {q i s n} (hq : q ∈ d.sequences) (hs : q.steps[i]? = some s)
      (hn : q.follower i = some n) : Transition d s.name n
  | handle {s h f} (hs : s ∈ d.steps) (hh : h ∈ s.handlers) (hf : h.steps.head? = some f) :
      Transition d s.name f.name
  | enter : Transition d entryName dispatchName
  | dispatch (t : RequestType) : Transition d dispatchName (d.firstName t)

/-- The states that a definition asks for, and no others. -/
structure Realizes (d : FlowDefinition) (g : Graph) (flow : Flow) : Prop where
  step : ∀ q ∈ d.sequences, ∀ i s, q.steps[i]? = some s → ∃ id kind next,
    g.find? (d.stateName s.name) = some id ∧
    g.states[id]? = some ⟨d.stateName s.name, kind, next⟩ ∧ d.KindOf g s kind ∧
    Option.Rel (fun id n => g.find? (d.stateName n) = some id) next (q.follower i)
  distinct : (d.steps.map fun s => g.find? (d.stateName s.name)).Nodup
  entry : g.find? (d.stateName entryName) = some flow.entry ∧
    g.states[flow.entry]? = some ⟨d.stateName entryName, .pass entryPass, some flow.dispatch⟩
  dispatch : g.find? (d.stateName dispatchName) = some flow.dispatch ∧
    g.states[flow.dispatch]? = some ⟨d.stateName dispatchName, .choice
      (RequestType.all.map fun t => ⟨t.condition, (flow.branch t).start⟩) none, none⟩
  first : ∀ t, g.find? (d.stateName (d.firstName t)) = some (flow.branch t).start
  idle : ∀ t, d.branchSteps t = none → g.states[(flow.branch t).start]? =
    some ⟨d.stateName t.text, .pass {}, none⟩
  names : g.states.map State.name = (d.steps.map Step.name ++ d.idleTypes.map RequestType.text ++
    [dispatchName, entryName]).map d.stateName
  size : g.size = d.steps.length + 2 + d.idleTypes.length

/-- The graph leads from state to state exactly as the definition says. -/
def HasTransitions (d : FlowDefinition) (g : Graph) : Prop :=
  ∀ a b, g.Leads a b ↔ ∃ n m, d.Transition n m ∧ g.find? (d.stateName n) = some a ∧
    g.find? (d.stateName m) = some b

variable {d : FlowDefinition} {g g' : Graph} {flow : Flow} {exits : String → Option StateId}
  {n : String} {id : StateId}

structure Renamed (d : FlowDefinition) (g g' : Graph) : Prop where
  indexed : g'.Indexed
  states : g'.states = g.states.map fun s => { s with name := d.stateName s.name }

theorem stateName_inj {m : String} : d.stateName n = d.stateName m ↔ n = m :=
  String.append_right_inj _

theorem Renamed.getElem? (h : d.Renamed g g') {name : String} {kind : StateKind}
    {next : Option StateId} (hs : g.states[id]? = some ⟨name, kind, next⟩) :
    g'.states[id]? = some ⟨d.stateName name, kind, next⟩ := by
  rw [h.states, List.getElem?_map, hs]
  rfl

theorem Renamed.find?_iff (h : d.Renamed g g') :
    g'.find? (d.stateName n) = some id ↔ g.Named id n := by
  rw [h.indexed]
  simp only [Named, h.states, List.getElem?_map, Option.map_eq_some_iff]
  constructor
  · rintro ⟨_, ⟨s, hs, rfl⟩, hname⟩
    exact ⟨s, hs, stateName_inj.1 hname⟩
  · rintro ⟨s, hs, rfl⟩
    exact ⟨_, ⟨s, hs, rfl⟩, rfl⟩

namespace Assembled

theorem has_branchHandlers (h : d.Assembled exits flow g) :
    g.Has 0 (Handler.statesOf exits 0 d.branchHandlers) :=
  has_of_states (by rw [h.states, List.append_assoc])

theorem exists_has_of_mem_steps (h : d.Assembled exits flow g) {s : Step} (hs : s ∈ d.steps) :
    ∃ m next, g.Has m (s.states exits m next) := by
  rw [← allOf_branchHandlers] at hs
  exact Handler.exists_has d.branchHandlers h.has_branchHandlers s hs

/-- The steps of each sequence are placed, followed by what the sequence is continued with. -/
theorem exists_has_of_mem_sequences (h : d.Assembled exits flow g) {q : Sequence}
    (hq : q ∈ d.sequences) :
    ∃ m, g.Has m (Step.statesOf exits m (q.target.bind exits) q.steps) := by
  rcases mem_sequences_iff.1 hq with ⟨l, hl, rfl⟩ | ⟨s, hs, x, hx, rfl⟩
  · obtain ⟨t, ht⟩ := exists_branchSteps hl
    exact ⟨_, h.given ht⟩
  · obtain ⟨m, next, hm⟩ := h.exists_has_of_mem_steps hs
    have hcatchers := Handler.forall₂_catchersOf (Step.has_states.1 hm).2
    obtain ⟨c, -, -, -, hhas⟩ := hcatchers.exists_of_mem hx
    exact ⟨c.next, hhas⟩

theorem sound_of_mem_handlers (h : d.Assembled exits flow g) {s : Step} (hs : s ∈ d.steps) :
    s.Sound := fun x hx =>
  h.definition.sound x.sequence (mem_sequences_iff.2 (.inr ⟨s, hs, x, hx, rfl⟩))

/-- Where the steps of a handler are placed, the first of them is found. -/
private theorem exists_head (hr : d.Renamed g g') {l : List Step} {m : Nat} {last : Option StateId}
    (hne : l ≠ []) (hm : g.Has m (Step.statesOf exits m last l)) :
    ∃ s, l.head? = some s ∧ g'.find? (d.stateName s.name) = some m := by
  cases l with
  | nil => exact absurd rfl hne
  | cons s rest =>
    rw [Step.statesOf, has_append, Step.has_states] at hm
    exact ⟨s, rfl, hr.find?_iff.2 ⟨_, hm.1.1, rfl⟩⟩

theorem kindOf (h : d.Assembled exits flow g) (hr : d.Renamed g g') {s : Step} (hs : s ∈ d.steps)
    {m : Nat} {next : Option StateId} (hm : g.Has m (s.states exits m next)) :
    d.KindOf g' s (s.kind m) := by
  have hsound := h.sound_of_mem_handlers hs
  have hcatchers := Handler.forall₂_catchersOf (Step.has_states.1 hm).2
  cases s with
  | pass name p => exact rfl
  | fail name f => exact rfl
  | task name call handlers =>
    refine ⟨rfl, ?_⟩
    have hall := (List.forall₂_and_left _ _).2 ⟨fun x hx => (hsound x hx).nonempty, hcatchers⟩
    refine hall.imp fun x c hx => ?_
    obtain ⟨hne, herrors, houtputs, hhas⟩ := hx
    exact ⟨herrors, houtputs, exists_head hr hne hhas⟩

theorem rel_target (h : d.Assembled exits flow g) (hr : d.Renamed g g') {q : Sequence}
    (hq : q ∈ d.sequences) : Option.Rel (fun id n => g'.find? (d.stateName n) = some id)
      (q.target.bind exits) q.target := by
  cases ht : q.target with
  | none => exact .none
  | some n =>
    obtain ⟨id, hid⟩ := Option.isSome_iff_exists.1 (h.known (h.definition.known q hq n ht))
    rw [Option.bind_some, hid]
    exact .some (hr.find?_iff.2 (h.named hid))

theorem realizes_step (h : d.Assembled exits flow g) (hr : d.Renamed g g') {q : Sequence}
    (hq : q ∈ d.sequences) {i : Nat} {s : Step} (hs : q.steps[i]? = some s) :
    ∃ id kind next, g'.find? (d.stateName s.name) = some id ∧
      g'.states[id]? = some ⟨d.stateName s.name, kind, next⟩ ∧ d.KindOf g' s kind ∧
      Option.Rel (fun id n => g'.find? (d.stateName n) = some id) next (q.follower i) := by
  obtain ⟨m, hm⟩ := h.exists_has_of_mem_sequences hq
  obtain ⟨id, next, hid, hlast, hfollowed⟩ := Step.exists_has_of_getElem? hm hs
  have hstate := (Step.has_states.1 hid).1
  have hmem : s ∈ d.steps := mem_steps_of_mem_sequence hq (List.mem_of_getElem? hs)
  refine ⟨id, s.kind id, next, hr.find?_iff.2 ⟨_, hstate, rfl⟩, hr.getElem? hstate,
    h.kindOf hr hmem hid, ?_⟩
  rw [Sequence.follower]
  cases hnext : q.steps[i + 1]? with
  | none =>
    rw [hlast hnext]
    exact h.rel_target hr hq
  | some t =>
    obtain ⟨k, rfl, hk⟩ := hfollowed t hnext
    exact .some (hr.find?_iff.2 hk)

theorem ne_nil_of_branchSteps (h : d.Assembled exits flow g) {t : RequestType} {l : List Step}
    (ht : d.branchSteps t = some l) : l ≠ [] := by
  have hl : l ∈ d.branches := by
    cases t with
    | create =>
      rcases Option.or_eq_some_iff.1 ht with hc | ⟨-, hu⟩
      · simp [branches, hc]
      · simp [branches, hu]
    | update => simp [branches, show d.onUpdate = some l from ht]
    | delete => simp [branches, show d.onDelete = some l from ht]
  exact (h.definition.sound ⟨l, none⟩ (mem_sequences_iff.2 (.inl ⟨l, hl, rfl⟩))).nonempty

theorem find?_firstName (h : d.Assembled exits flow g) (hr : d.Renamed g g') (t : RequestType) :
    g'.find? (d.stateName (d.firstName t)) = some (flow.branch t).start := by
  rw [firstName]
  cases ht : d.branchSteps t with
  | none => exact hr.find?_iff.2 ⟨_, h.missing ht, rfl⟩
  | some l =>
    obtain ⟨s, hs, hfind⟩ := exists_head hr (h.ne_nil_of_branchSteps ht) (h.given ht)
    rw [Option.bind_some, hs]
    exact hfind

theorem nodup_find? (h : d.Assembled exits flow g) (hr : d.Renamed g g') :
    (d.steps.map fun s => g'.find? (d.stateName s.name)).Nodup := by
  have hmap : d.steps.map (fun s => g'.find? (d.stateName s.name)) =
      (d.steps.map Step.name).map fun n => g'.find? (d.stateName n) := by simp
  rw [hmap]
  refine List.Nodup.map_on (fun n hn m _ heq => ?_) h.definition.distinct
  obtain ⟨id, hid⟩ := Option.isSome_iff_exists.1 (h.known hn)
  have hfind : g'.find? (d.stateName n) = some id := hr.find?_iff.2 (h.named hid)
  obtain ⟨s, hs, rfl⟩ := hr.find?_iff.1 hfind
  rw [heq] at hfind
  obtain ⟨t, ht, rfl⟩ := hr.find?_iff.1 hfind
  rw [Option.some.inj (hs.symm.trans ht)]

theorem realizes (h : d.Assembled exits flow g) (hr : d.Renamed g g') : d.Realizes g' flow where
  step _ hq _ _ hs := h.realizes_step hr hq hs
  distinct := h.nodup_find? hr
  entry := ⟨hr.find?_iff.2 ⟨_, h.entryState_eq, rfl⟩, hr.getElem? h.entryState_eq⟩
  dispatch := ⟨hr.find?_iff.2 ⟨_, h.dispatchState_eq, rfl⟩, hr.getElem? h.dispatchState_eq⟩
  first := h.find?_firstName hr
  idle _ ht := hr.getElem? (h.missing ht)
  names := by
    rw [← h.names, hr.states, List.map_map, List.map_map]
    rfl
  size := by
    have hsize : g'.size = g.size := by simp [Graph.size, hr.states]
    rw [hsize, h.size_eq, Nat.add_right_comm]

end Assembled

/-- The state of a step leads, but for what follows it, to the first steps of its handlers. -/
theorem mem_targets_iff {s : Step} {kind : StateKind} (hk : d.KindOf g s kind) :
    id ∈ kind.targets ↔ ∃ x ∈ s.handlers, ∃ f, x.steps.head? = some f ∧
      g.find? (d.stateName f.name) = some id := by
  cases s with
  | pass name p =>
    cases kind <;> simp_all [KindOf, StateKind.targets, Step.handlers]
  | fail name f =>
    cases kind <;> simp_all [KindOf, StateKind.targets, Step.handlers]
  | task name call handlers =>
    cases kind with
    | pass p => exact hk.elim
    | fail f => exact hk.elim
    | choice rules otherwise => exact hk.elim
    | task call' catchers =>
      obtain ⟨-, hcatchers⟩ := hk
      simp only [StateKind.targets, List.mem_map, Step.handlers]
      constructor
      · rintro ⟨c, hc, rfl⟩
        obtain ⟨x, hx, -, -, hfirst⟩ := hcatchers.flip.exists_of_mem hc
        exact ⟨x, hx, hfirst⟩
      · rintro ⟨x, hx, f, hf, hfind⟩
        obtain ⟨c, hc, -, -, f', hf', hfind'⟩ := hcatchers.exists_of_mem hx
        obtain rfl := Option.some.inj (hf.symm.trans hf')
        exact ⟨c, hc, Option.some.inj (hfind'.symm.trans hfind)⟩

namespace Realizes

variable {a b : StateId} {s : State}

theorem eq_of_find? (hg : g.Indexed) {t : State} (hfind : g.find? n = some id)
    (hid : g.states[id]? = some t) (ha : g.states[a]? = some s) (hname : s.name = n) :
    a = id ∧ s = t := by
  have hsame : a = id := Option.some.inj (((hg n a).2 ⟨s, ha, hname⟩).symm.trans hfind)
  subst hsame
  exact ⟨rfl, Option.some.inj (ha.symm.trans hid)⟩

theorem cases_name (h : d.Realizes g flow) (ha : g.states[a]? = some s) :
    (∃ q ∈ d.sequences, ∃ (i : Nat) (t : Step),
      q.steps[i]? = some t ∧ s.name = d.stateName t.name) ∨
    (∃ t : RequestType, d.branchSteps t = none ∧ s.name = d.stateName (d.firstName t)) ∨
    s.name = d.stateName dispatchName ∨ s.name = d.stateName entryName := by
  have hmem : s.name ∈ g.states.map State.name := List.mem_map_of_mem (List.mem_of_getElem? ha)
  rw [h.names] at hmem
  obtain ⟨n, hn, hname⟩ := List.mem_map.1 hmem
  rw [List.mem_append, List.mem_append] at hn
  rcases hn with (hn | hn) | hn
  · obtain ⟨t, ht, rfl⟩ := List.mem_map.1 hn
    obtain ⟨q, hq, htq⟩ := exists_sequence_of_mem_steps ht
    obtain ⟨i, hi⟩ := List.mem_iff_getElem?.1 htq
    exact .inl ⟨q, hq, i, t, hi, hname.symm⟩
  · obtain ⟨t, ht, rfl⟩ := List.mem_map.1 hn
    have hnone : d.branchSteps t = none := by simpa [idleTypes] using (List.mem_filter.1 ht).2
    refine .inr (.inl ⟨t, hnone, ?_⟩)
    rw [firstName, hnone]
    exact hname.symm
  · simp only [List.mem_cons, List.not_mem_nil, or_false] at hn
    rcases hn with rfl | rfl
    · exact .inr (.inr (.inl hname.symm))
    · exact .inr (.inr (.inr hname.symm))

theorem transition_of_leads (h : d.Realizes g flow) (hg : g.Indexed) (hlead : g.Leads a b) :
    ∃ n m, d.Transition n m ∧ g.find? (d.stateName n) = some a ∧
      g.find? (d.stateName m) = some b := by
  obtain ⟨s, ha, hb⟩ := hlead
  rcases h.cases_name ha with ⟨q, hq, i, t, ht, hname⟩ | ⟨t, ht, hname⟩ | hname | hname
  · obtain ⟨id, kind, next, hfind, hstate, hkind, hrel⟩ := h.step q hq i t ht
    obtain ⟨rfl, rfl⟩ := eq_of_find? hg hfind hstate ha hname
    rcases List.mem_append.1 hb with hb | hb
    · obtain rfl : next = some b := Option.mem_toList.1 hb
      cases hfollower : q.follower i with
      | none =>
        rw [hfollower] at hrel
        cases hrel
      | some m =>
        rw [hfollower] at hrel
        cases hrel with
        | some hm => exact ⟨_, m, .follow hq ht hfollower, hfind, hm⟩
    · obtain ⟨x, hx, f, hf, hm⟩ := (mem_targets_iff hkind).1 hb
      have hmem : t ∈ d.steps := mem_steps_of_mem_sequence hq (List.mem_of_getElem? ht)
      exact ⟨_, _, .handle hmem hx hf, hfind, hm⟩
  · obtain ⟨rfl, rfl⟩ := eq_of_find? hg (h.first t) (h.idle t ht) ha hname
    simp [State.successors, StateKind.targets] at hb
  · obtain ⟨rfl, rfl⟩ := eq_of_find? hg h.dispatch.1 h.dispatch.2 ha hname
    simp only [State.successors, StateKind.targets, List.map_map, Option.toList_none,
      List.nil_append, List.append_nil, List.mem_map] at hb
    obtain ⟨t, -, rfl⟩ := hb
    exact ⟨_, _, .dispatch t, h.dispatch.1, h.first t⟩
  · obtain ⟨rfl, rfl⟩ := eq_of_find? hg h.entry.1 h.entry.2 ha hname
    obtain rfl : b = flow.dispatch := by simpa [State.successors, StateKind.targets] using hb
    exact ⟨_, _, .enter, h.entry.1, h.dispatch.1⟩

theorem leads_of_transition (h : d.Realizes g flow) {m : String} (htr : d.Transition n m)
    (ha : g.find? (d.stateName n) = some a) (hb : g.find? (d.stateName m) = some b) :
    g.Leads a b := by
  cases htr with
  | @follow q i t _ hq ht hn =>
    obtain ⟨id, kind, next, hfind, hstate, -, hrel⟩ := h.step q hq i t ht
    obtain rfl := Option.some.inj (hfind.symm.trans ha)
    rw [hn] at hrel
    cases hrel with
    | some hm =>
      obtain rfl := Option.some.inj (hm.symm.trans hb)
      exact ⟨_, hstate, by simp [State.successors]⟩
  | @handle t x f ht hx hf =>
    obtain ⟨q, hq, htq⟩ := exists_sequence_of_mem_steps ht
    obtain ⟨i, hi⟩ := List.mem_iff_getElem?.1 htq
    obtain ⟨id, kind, next, hfind, hstate, hkind, -⟩ := h.step q hq i t hi
    obtain rfl := Option.some.inj (hfind.symm.trans ha)
    exact ⟨_, hstate, List.mem_append_right _ ((mem_targets_iff hkind).2 ⟨x, hx, f, hf, hb⟩)⟩
  | enter =>
    obtain rfl := Option.some.inj (h.entry.1.symm.trans ha)
    obtain rfl := Option.some.inj (h.dispatch.1.symm.trans hb)
    exact ⟨_, h.entry.2, by simp [State.successors]⟩
  | dispatch t =>
    obtain rfl := Option.some.inj (h.dispatch.1.symm.trans ha)
    obtain rfl := Option.some.inj ((h.first t).symm.trans hb)
    refine ⟨_, h.dispatch.2, ?_⟩
    cases t <;> simp [State.successors, StateKind.targets, RequestType.all]

end Realizes

/-- A built graph holds the states that its definition asks for, and leads from state to state
exactly as the definition says. -/
theorem build_realizes (d : FlowDefinition) (b : BuiltFlow) (h : d.build = .ok b) :
    d.Realizes b.graph b.flow ∧ d.HasTransitions b.graph := by
  obtain ⟨-, exits, g, hassembled, hwell, hstates⟩ := built_of_build h
  have hrenamed : d.Renamed g b.graph := ⟨hwell.indexed, hstates⟩
  have hrealizes := hassembled.realizes hrenamed
  refine ⟨hrealizes, fun x y => ⟨hrealizes.transition_of_leads hwell.indexed, ?_⟩⟩
  rintro ⟨n, m, htr, hx, hy⟩
  exact hrealizes.leads_of_transition htr hx hy

/-- Tagging a bucket: a missing bucket is created, which may fail for good, and the report follows;
a conflict is noted, and the tagging is tried again. -/
def tagging : FlowDefinition where
  name := "Tagging"
  namePrefix := some "Bucket: "
  onUpdate := some
    [.task "Tag" { service := "s3", action := "putBucketTagging" }
      [.mk ["S3.NoSuchBucket"] none
        [.pass "Note missing" {},
          .task "Make" { service := "s3", action := "createBucket" }
            [.mk [allErrors] none [.fail "Give up" {}] none]]
        (some "Report"),
        .mk ["S3.Conflict"] none [.pass "Note conflict" {}] (some "Tag")],
      .pass "Report" {}]

theorem build_realizes_tagging : ∃ b, tagging.build = .ok b ∧
    tagging.Realizes b.graph b.flow ∧ tagging.HasTransitions b.graph := by
  obtain ⟨b, hb⟩ : ∃ b, tagging.build = .ok b := exists_build_of_wellFormed (by decide +kernel)
  exact ⟨b, hb, build_realizes tagging b hb⟩

end FlowDefinition

end LifecycleFlow
