import LifecycleFlow.Proofs.Assembly
import LifecycleFlow.Proofs.Branches
import LifecycleFlow.Proofs.Placement
import LifecycleFlow.Proofs.Renaming

/-!
# Which definitions are accepted

A definition is built exactly if it is well-formed, and otherwise refused with an error that names
what is wrong with it. Renaming never fails: every state is reached from the first one, so no state
keeps its old name.
-/
namespace LifecycleFlow

open LifecycleFlow.Graph LifecycleFlow.Flow

namespace FlowDefinition

variable {d : FlowDefinition} {g : Graph} {flow : Flow} {n id : Nat}

private theorem lt_of_mem_endsOf {l : List Step} (h : id ∈ Step.endsOf n l) :
    id < n + (Step.allOf l).length := by
  induction l generalizing n with
  | nil => simp [Step.endsOf] at h
  | cons s rest ih =>
    have hpos : 0 < s.all.length := List.length_pos_of_mem s.mem_all_self
    have hlength : (Step.allOf (s :: rest)).length = s.all.length + (Step.allOf rest).length := by
      simp [Step.allOf]
    rw [Step.endsOf] at h
    split at h
    · rw [Step.ends] at h
      split at h
      · simp at h
      · rw [List.mem_singleton.1 h]
        omega
    · have hrest := ih h
      omega

private theorem lt_of_mem_fragmentAt {branch : Option (List Step)}
    (hne : ∀ l, branch = some l → l ≠ [])
    (h : id ∈ (branch.map (Step.fragmentAt n)).elim [] fun f => f.start :: f.ends) :
    id < n + (Handler.allOf (Handler.ofBranch? branch)).length := by
  cases branch with
  | none => simp at h
  | some l =>
    rw [Handler.allOf_ofBranch?_some]
    rcases List.mem_cons.1 h with h | h
    · rw [h]
      exact Nat.lt_add_of_pos_right (Step.length_allOf_pos (hne l rfl))
    · exact lt_of_mem_endsOf h

/-- The branches mention only states of their steps. -/
theorem lt_of_mem_mentioned (h : d.StepsWellFormed) (hid : id ∈ mentioned d.placedBranches) :
    id < d.steps.length := by
  have hne : ∀ l ∈ d.branches, l ≠ [] := fun l hl =>
    (h.sound ⟨l, none⟩ (List.mem_append_left _ (List.mem_map_of_mem hl))).nonempty
  rw [← allOf_branchHandlers, branchHandlers]
  simp only [Handler.allOf_append, List.length_append]
  simp only [mentioned, placedBranches, List.flatMap_cons, List.flatMap_nil, List.append_nil,
    List.mem_append] at hid
  rcases hid with hid | hid | hid
  · have hlt := lt_of_mem_fragmentAt (fun l hl => hne l (by simp [branches, hl])) hid
    omega
  · have hlt := lt_of_mem_fragmentAt (fun l hl => hne l (by simp [branches, hl])) hid
    omega
  · have hlt := lt_of_mem_fragmentAt (fun l hl => hne l (by simp [branches, hl])) hid
    omega

/-- A branch is given, and no step has the name of a state that the assembly adds. -/
structure FrontWellFormed (d : FlowDefinition) : Prop where
  hasBranch : d.onCreate.isSome ∨ d.onUpdate.isSome ∨ d.onDelete.isSome
  reserved : ∀ n ∈ neededNames d.placedBranches, n ∉ d.steps.map Step.name

theorem wellFormed_iff : d.WellFormed ↔ d.StepsWellFormed ∧ d.FrontWellFormed := by
  have hreserved : (∀ n ∈ neededNames d.placedBranches, n ∉ d.steps.map Step.name) ↔
      ∀ s ∈ d.steps, s.name ≠ "Initialize" ∧ s.name ≠ "Which Request Type?" ∧
        (d.onCreate = none → d.onUpdate = none → s.name ≠ "Create") ∧
        (d.onUpdate = none → s.name ≠ "Update") ∧ (d.onDelete = none → s.name ≠ "Delete") := by
    have hmissing : d.placedBranches.onCreate.or d.placedBranches.onUpdate = none ↔
        d.onCreate = none ∧ d.onUpdate = none := by simp [placedBranches]
    have hupdate : d.placedBranches.onUpdate = none ↔ d.onUpdate = none := by
      simp [placedBranches]
    have hdelete : d.placedBranches.onDelete = none ↔ d.onDelete = none := by
      simp [placedBranches]
    simp only [mem_neededNames, hmissing, hupdate, hdelete, List.mem_map, not_exists, not_and]
    constructor
    · intro h s hs
      refine ⟨fun hn => ?_, fun hn => ?_, fun hc hu hn => ?_, fun hu hn => ?_, fun hd hn => ?_⟩
      · exact h _ (.inl rfl) s hs hn
      · exact h _ (.inr (.inl rfl)) s hs hn
      · exact h _ (.inr (.inr (.inl ⟨⟨hc, hu⟩, rfl⟩))) s hs hn
      · exact h _ (.inr (.inr (.inr (.inl ⟨hu, rfl⟩)))) s hs hn
      · exact h _ (.inr (.inr (.inr (.inr ⟨hd, rfl⟩)))) s hs hn
    · rintro h n (rfl | rfl | ⟨⟨hc, hu⟩, rfl⟩ | ⟨hu, rfl⟩ | ⟨hd, rfl⟩) s hs hn
      · exact (h s hs).1 hn
      · exact (h s hs).2.1 hn
      · exact (h s hs).2.2.1 hc hu hn
      · exact (h s hs).2.2.2.1 hu hn
      · exact (h s hs).2.2.2.2 hd hn
  constructor
  · rintro ⟨hbranch, hsound, hdistinct, hknown, hres⟩
    exact ⟨⟨hsound, hdistinct, hknown⟩, hbranch, hreserved.2 hres⟩
  · rintro ⟨⟨hsound, hdistinct, hknown⟩, hbranch, hres⟩
    exact ⟨hbranch, hsound, hdistinct, hknown, hreserved.1 hres⟩

theorem assemble_decides (b : Branches) (hg : g.WellFormed)
    (hids : ∀ id ∈ mentioned b, id < g.size) :
    Decides (assemble b) g
      ((b.onCreate.isSome ∨ b.onUpdate.isSome ∨ b.onDelete.isSome) ∧
        ∀ n ∈ neededNames b, g.isAvailable n)
      fun flow g' => flow = assembledFlow b g ∧ g' = assembledGraph b g ∧ g'.WellFormed := by
  have hkeeps : (outcome (assemble b) g).2.WellFormed := preserves_assemble g hg
  have hout : outcome (assemble b) g = _ := outcome_assemble
  split at hout
  · rename_i hnone
    refine .inr ⟨_, g, hout, fun h => ?_, .inl ⟨_, rfl⟩⟩
    simp only [Bool.and_eq_true, Option.isNone_iff_eq_none] at hnone
    simp [hnone] at h
  · rename_i hsome
    split at hout
    · rename_i taken htaken
      refine .inr ⟨_, g, hout, fun h => ?_, .inr ⟨_, rfl⟩⟩
      have hused := List.find?_some htaken
      rw [h.2 taken (List.mem_of_find?_eq_some htaken)] at hused
      cases hused
    · rename_i hfree
      split at hout
      · rename_i n hn
        have hlt := hids n (List.mem_of_find?_eq_some hn)
        have hle := List.find?_some hn
        exact absurd hlt (Nat.not_lt.2 (of_decide_eq_true hle))
      · rw [hout] at hkeeps
        refine .inl ⟨_, _, hout, ⟨?_, by simpa using hfree⟩, rfl, rfl, hkeeps⟩
        revert hsome
        cases b.onCreate <;> cases b.onUpdate <;> cases b.onDelete <;> simp

/-- What an assembly leaves: the states of the steps, then a state for each type of request without
steps, then the choice and the first state. -/
structure Assembled (d : FlowDefinition) (exits : String → Option StateId) (flow : Flow)
    (g : Graph) : Prop where
  definition : d.WellFormed
  graph : g.WellFormed
  named : ∀ {n id}, exits n = some id → g.Named id n
  known : ∀ {n}, n ∈ d.steps.map Step.name → (exits n).isSome
  states : g.states = Handler.statesOf exits 0 d.branchHandlers ++ d.idleTypes.map idleState ++
    [dispatchState (flow.branch .create).start (flow.branch .update).start
      (flow.branch .delete).start, entryState flow.dispatch]
  dispatch : flow.dispatch = d.steps.length + d.idleTypes.length
  entry : flow.entry = flow.dispatch + 1
  given : ∀ {t l}, d.branchSteps t = some l →
    g.Has (flow.branch t).start (Step.statesOf exits (flow.branch t).start none l)
  missing : ∀ {t}, d.branchSteps t = none →
    g.states[(flow.branch t).start]? = some (idleState t)

private theorem given_eq_none_iff (t : RequestType) :
    d.placedBranches.given t = none ↔ d.branchSteps t = none := by
  cases t <;> simp [Branches.given, branchSteps, placedBranches]

theorem idleTypes_placedBranches : Flow.idleTypes d.placedBranches = d.idleTypes := by
  rw [Flow.idleTypes, idleTypes]
  congr 1
  funext t
  rw [Bool.eq_iff_iff, Option.isNone_iff_eq_none, Option.isNone_iff_eq_none, given_eq_none_iff]

private theorem has_ofBranch? {exits : String → Option StateId} {l : List Step}
    {branch : Option (List Step)} (hl : branch = some l)
    (h : g.Has n (Handler.statesOf exits n (Handler.ofBranch? branch))) :
    g.Has n (Step.statesOf exits n none l) := by
  subst hl
  rwa [Handler.statesOf_ofBranch?_some] at h

theorem exists_given {exits : String → Option StateId} {t : RequestType} {l : List Step}
    (h : g.Has 0 (Handler.statesOf exits 0 d.branchHandlers)) (hl : d.branchSteps t = some l) :
    ∃ n, d.placedBranches.given t = some (Step.fragmentAt n l) ∧
      g.Has n (Step.statesOf exits n none l) := by
  rw [branchHandlers, Handler.statesOf_append, Handler.statesOf_append, has_append, has_append,
    List.length_append, Handler.length_statesOf, Handler.length_statesOf, Handler.allOf_append,
    List.length_append, Nat.zero_add, Nat.zero_add] at h
  obtain ⟨⟨hcreate, hupdate⟩, hdelete⟩ := h
  cases t with
  | create =>
    rcases Option.or_eq_some_iff.1 hl with hc | ⟨hc, hu⟩
    · exact ⟨_, by simp [Branches.given, placedBranches, hc], has_ofBranch? hc hcreate⟩
    · exact ⟨_, by simp [Branches.given, placedBranches, hc, hu], has_ofBranch? hu hupdate⟩
  | update =>
    have hu : d.onUpdate = some l := hl
    exact ⟨_, by simp [Branches.given, placedBranches, hu], has_ofBranch? hu hupdate⟩
  | delete =>
    have he : d.onDelete = some l := hl
    exact ⟨_, by simp [Branches.given, placedBranches, he], has_ofBranch? he hdelete⟩

theorem assembled_of_holds (hd : d.WellFormed)
    (h : g.Holds (Handler.statesOf g.find? 0 d.branchHandlers))
    (hg : (assembledGraph d.placedBranches g).WellFormed) :
    d.Assembled g.find? (assembledFlow d.placedBranches g) (assembledGraph d.placedBranches g) := by
  have hstates := states_assembledGraph (g := g) (b := d.placedBranches)
  have hidles := states_withIdles (g := g) (b := d.placedBranches)
  rw [idleTypes_placedBranches, h.states] at hidles
  have hsize : g.size = d.steps.length := by
    rw [h.size, Handler.length_statesOf, allOf_branchHandlers]
  have hplaced : (assembledGraph d.placedBranches g).Has 0
      (Handler.statesOf g.find? 0 d.branchHandlers) :=
    has_of_states (by rw [hstates, hidles, List.append_assoc])
  refine ⟨hd, hg, fun {n id} hn => ?_, fun {n} hn => ?_, ?_, ?_, rfl, fun {t l} hl => ?_,
    fun {t} ht => ?_⟩
  · obtain ⟨s, hs, hname⟩ := (h.wellFormed.indexed n id).1 hn
    rw [h.states] at hs
    have hid := hplaced id s hs
    rw [Nat.zero_add] at hid
    exact ⟨s, hid, hname⟩
  · rw [isSome_find?_iff h, Handler.names_statesOf, allOf_branchHandlers]
    exact hn
  · rw [hstates, hidles]
  · have hlength : (withIdles d.placedBranches g).size = _ := congrArg List.length hidles
    rw [List.length_append, Handler.length_statesOf, allOf_branchHandlers, List.length_map]
      at hlength
    exact hlength
  · obtain ⟨n, hgiven, hhas⟩ := exists_given hplaced hl
    rw [(branch_assembledFlow t).1 _ hgiven]
    exact hhas
  · have hidle := (branch_assembledFlow (g := g) t).2 ((given_eq_none_iff t).2 ht)
    rw [hstates, List.getElem?_append_left (List.getElem?_eq_some_iff.1 hidle).1]
    exact hidle

/-- Building and assembling succeeds exactly for the well-formed definitions. -/
theorem assembleFlow_decides : Decides d.assembleFlow Graph.empty d.WellFormed
    fun flow g => ∃ exits, d.Assembled exits flow g := by
  refine decides_iff (d.StepsWellFormed ∧ d.FrontWellFormed) wellFormed_iff.symm ?_
  rw [assembleFlow]
  refine d.buildBranches_decides.bind fun b g hsteps hp => ?_
  obtain ⟨rfl, h⟩ := hp
  have hnames : (Handler.statesOf g.find? 0 d.branchHandlers).map State.name =
      d.steps.map Step.name := by rw [Handler.names_statesOf, allOf_branchHandlers]
  have hsize : g.size = d.steps.length := by
    rw [h.size, Handler.length_statesOf, allOf_branchHandlers]
  have hids : ∀ id ∈ mentioned d.placedBranches, id < g.size := fun id hid =>
    hsize ▸ lt_of_mem_mentioned hsteps hid
  have hfront : ((d.placedBranches.onCreate.isSome ∨ d.placedBranches.onUpdate.isSome ∨
      d.placedBranches.onDelete.isSome) ∧ ∀ n ∈ neededNames d.placedBranches, g.isAvailable n) ↔
      d.FrontWellFormed := by
    simp only [h.isAvailable_iff, hnames]
    simp only [placedBranches, Option.isSome_map]
    exact ⟨fun hf => ⟨hf.1, hf.2⟩, fun hf => ⟨hf.1, hf.2⟩⟩
  refine (assemble_decides d.placedBranches h.wellFormed hids).congr hfront fun flow g' hf hp => ?_
  obtain ⟨rfl, rfl, hg'⟩ := hp
  exact ⟨g.find?, assembled_of_holds (wellFormed_iff.2 ⟨hsteps, hfront.1 hf⟩) h hg'⟩

namespace Assembled

variable {exits : String → Option StateId}

theorem names (h : d.Assembled exits flow g) : g.states.map State.name =
    d.steps.map Step.name ++ d.idleTypes.map RequestType.text ++ [dispatchName, entryName] := by
  rw [h.states]
  simp [Handler.names_statesOf, allOf_branchHandlers, idleState, dispatchState, entryState]

theorem size_eq (h : d.Assembled exits flow g) :
    g.size = d.steps.length + d.idleTypes.length + 2 := by
  have hlength := congrArg List.length h.names
  simpa [size, Nat.add_assoc] using hlength

theorem length_before (h : d.Assembled exits flow g) :
    (Handler.statesOf exits 0 d.branchHandlers ++ d.idleTypes.map idleState).length =
      flow.dispatch := by
  simp [h.dispatch, allOf_branchHandlers]

theorem dispatchState_eq (h : d.Assembled exits flow g) : g.states[flow.dispatch]? =
    some (dispatchState (flow.branch .create).start (flow.branch .update).start
      (flow.branch .delete).start) := by
  rw [h.states, ← h.length_before, List.getElem?_append_right (Nat.le_refl _), Nat.sub_self]
  rfl

theorem entryState_eq (h : d.Assembled exits flow g) :
    g.states[flow.entry]? = some (entryState flow.dispatch) := by
  rw [h.states, h.entry, ← h.length_before, List.getElem?_append_right (Nat.le_succ _),
    Nat.succ_eq_add_one, Nat.add_sub_cancel_left]
  rfl

theorem reaches_branch (h : d.Assembled exits flow g) (t : RequestType) :
    g.Reaches flow.entry (flow.branch t).start := by
  have hentry : g.Leads flow.entry flow.dispatch :=
    ⟨_, h.entryState_eq, by simp [State.successors, entryState]⟩
  have hdispatch : g.Leads flow.dispatch (flow.branch t).start :=
    ⟨_, h.dispatchState_eq, by
      cases t <;> simp [State.successors, dispatchState, StateKind.targets]⟩
  exact .tail (.single hentry) hdispatch

theorem exists_branchSteps {l : List Step} (hl : l ∈ d.branches) :
    ∃ t, d.branchSteps t = some l := by
  simp only [branches, List.mem_append, Option.mem_toList] at hl
  rcases hl with (hl | hl) | hl
  · exact ⟨.create, by simp [branchSteps, hl]⟩
  · exact ⟨.update, hl⟩
  · exact ⟨.delete, hl⟩

/-- Every state is reached from the first one. -/
theorem reaches (h : d.Assembled exits flow g) (hid : id < g.size) : g.Reaches flow.entry id := by
  obtain ⟨s, hs⟩ := exists_state_of_lt hid
  have hnamed : g.Named id s.name := ⟨s, hs, rfl⟩
  have hmem : s.name ∈ g.states.map State.name := List.mem_map_of_mem (List.mem_of_getElem? hs)
  rw [h.names, List.mem_append, List.mem_append] at hmem
  rcases hmem with (hmem | hmem) | hmem
  · obtain ⟨t, ht, hname⟩ := List.mem_map.1 hmem
    obtain ⟨l, hl, ht⟩ := List.mem_flatMap.1 ht
    obtain ⟨r, hr⟩ := exists_branchSteps hl
    have hhas := h.given hr
    have hplaced : t.name ∈ (Step.statesOf exits (flow.branch r).start none l).map State.name := by
      rw [Step.names_statesOf]
      exact List.mem_map_of_mem ht
    obtain ⟨u, hu, huname⟩ := List.mem_map.1 hplaced
    obtain ⟨i, hi⟩ := List.mem_iff_getElem?.1 hu
    have hlt : i < (Step.allOf l).length := by
      simpa using (List.getElem?_eq_some_iff.1 hi).1
    have hsame : id = (flow.branch r).start + i :=
      h.graph.indexed.id_eq hnamed ⟨u, hhas i u hi, huname.trans hname⟩
    rw [hsame]
    exact .trans (h.reaches_branch r)
      (Step.reachesOf l hhas (Nat.le_add_right _ _) (Nat.add_lt_add_left hlt _))
  · obtain ⟨t, ht, hname⟩ := List.mem_map.1 hmem
    have hmissing : d.branchSteps t = none := by simpa [idleTypes] using (List.mem_filter.1 ht).2
    have hsame : id = (flow.branch t).start :=
      h.graph.indexed.id_eq hnamed ⟨_, h.missing hmissing, hname⟩
    rw [hsame]
    exact h.reaches_branch t
  · simp only [List.mem_cons, List.not_mem_nil, or_false] at hmem
    rcases hmem with hname | hname
    · have hsame : id = flow.dispatch :=
        h.graph.indexed.id_eq hnamed ⟨_, h.dispatchState_eq, hname.symm⟩
      rw [hsame]
      exact .single ⟨_, h.entryState_eq, by simp [State.successors, entryState]⟩
    · have hsame : id = flow.entry :=
        h.graph.indexed.id_eq hnamed ⟨_, h.entryState_eq, hname.symm⟩
      rw [hsame]

theorem addPrefix_eq_ok (h : d.Assembled exits flow g) (front : String) :
    ∃ g', outcome (Graph.addPrefix flow.entry front) g = (.ok (), g') ∧ g'.WellFormed ∧
      g'.states = g.states.map fun s => { s with name := front ++ s.name } := by
  have hlt : flow.entry < g.size := by
    rw [h.size_eq, h.entry, h.dispatch]
    exact Nat.lt_succ_self _
  obtain ⟨ids, hids⟩ := exists_reachable_of_lt h.graph hlt
  have hall : ∀ id, id < g.size → id ∈ ids := fun id hid =>
    (mem_reachable_iff hids).2 (h.reaches hid)
  have hfresh : g.FreshPrefix ids front := fun _ _ _ _ owner howner => hall owner howner.lt_size
  have hout := Graph.addPrefix_eq_ok h.graph hids hfresh
  refine ⟨_, hout, h.graph.withPrefixed hfresh, ?_⟩
  apply List.ext_getElem?
  intro i
  rw [getElem?_withPrefixed, List.getElem?_map]
  cases hi : g.states[i]? with
  | none => rfl
  | some s =>
    have hmem : i ∈ ids := hall i (List.getElem?_eq_some_iff.1 hi).1
    simp [hmem]

end Assembled

/-- What a definition is built to: an assembled workflow, its states renamed. -/
def Built (d : FlowDefinition) (flow : Flow) (g' : Graph) : Prop :=
  ∃ exits g, d.Assembled exits flow g ∧ g'.WellFormed ∧
    g'.states = g.states.map fun s => { s with name := d.stateName s.name }

theorem buildFlow_decides : Decides d.buildFlow Graph.empty d.WellFormed d.Built := by
  refine decides_iff (d.WellFormed ∧ True) (by simp) ?_
  rw [buildFlow]
  refine assembleFlow_decides.bind fun flow g _ hp => ?_
  obtain ⟨exits, h⟩ := hp
  cases hprefix : d.namePrefix with
  | none =>
    refine decides_pure trivial ⟨exits, g, h, h.graph, ?_⟩
    simp [stateName, hprefix]
  | some front =>
    obtain ⟨g', hout, hg', hstates⟩ := h.addPrefix_eq_ok front
    have hlift : outcome (GraphOp.lift (Graph.addPrefix flow.entry front)) g = (.ok (), g') := by
      rw [outcome_lift, hout]
      rfl
    refine decides_bind_of_outcome hlift (decides_pure trivial ⟨exits, g, h, hg', ?_⟩)
    simpa [stateName, hprefix] using hstates

theorem build_eq : d.build = match outcome d.buildFlow Graph.empty with
    | (.ok flow, graph) => .ok { name := d.name, comment := d.comment, graph, flow }
    | (.error e, _) => .error e := rfl

theorem build_eq_ok_iff {b : BuiltFlow} : d.build = .ok b ↔
    outcome d.buildFlow Graph.empty = (.ok b.flow, b.graph) ∧ b.name = d.name ∧
      b.comment = d.comment := by
  rw [build_eq]
  rcases outcome d.buildFlow Graph.empty with ⟨e | flow, g⟩
  · simp
  · obtain ⟨name, comment, graph, flow'⟩ := b
    simp only [Except.ok.injEq, BuiltFlow.mk.injEq, Prod.mk.injEq, eq_comm (a := d.name),
      eq_comm (a := d.comment)]
    tauto

theorem build_eq_error_iff {e : FlowError} :
    d.build = .error e ↔ ∃ g, outcome d.buildFlow Graph.empty = (.error e, g) := by
  rw [build_eq]
  rcases outcome d.buildFlow Graph.empty with ⟨e' | flow, g⟩ <;> simp

theorem built_of_build {b : BuiltFlow} (h : d.build = .ok b) :
    d.WellFormed ∧ d.Built b.flow b.graph :=
  buildFlow_decides.of_ok (build_eq_ok_iff.1 h).1

theorem exists_build_of_wellFormed (hd : d.WellFormed) : ∃ b, d.build = .ok b := by
  obtain ⟨flow, g, hout, -⟩ := buildFlow_decides.exists_ok hd
  exact ⟨⟨d.name, d.comment, g, flow⟩, build_eq_ok_iff.2 ⟨hout, rfl, rfl⟩⟩

theorem isRefusal_of_build {e : FlowError} (h : d.build = .error e) : e.IsRefusal := by
  obtain ⟨g, hout⟩ := build_eq_error_iff.1 h
  exact (buildFlow_decides.of_error hout).2

/-- A definition is built exactly if it is well-formed. Otherwise the error is one of configuration
or of a name used twice. Once a workflow is assembled, whatever text may be put before the names of
its states. -/
theorem build_ok_iff_wellFormed (d : FlowDefinition) :
    ((∃ b, d.build = .ok b) ↔ d.WellFormed) ∧
    (∀ e, d.build = .error e →
      (∃ c, e = .configuration c) ∨ ∃ name, e = .graph (.duplicateStateName name)) ∧
    ∀ flow g, outcome d.assembleFlow Graph.empty = (.ok flow, g) →
      ∀ front, ∃ g', outcome (Graph.addPrefix flow.entry front) g = (.ok (), g') := by
  refine ⟨⟨?_, exists_build_of_wellFormed⟩, fun e he => isRefusal_of_build he, ?_⟩
  · rintro ⟨b, hb⟩
    exact (built_of_build hb).1
  · intro flow g hout front
    obtain ⟨-, exits, h⟩ := assembleFlow_decides.of_ok hout
    obtain ⟨g', hrenamed, -⟩ := h.addPrefix_eq_ok front
    exact ⟨g', hrenamed⟩

end FlowDefinition

end LifecycleFlow
