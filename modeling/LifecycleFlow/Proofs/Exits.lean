import LifecycleFlow.Proofs.Compilation
import LifecycleFlow.Proofs.Continuation
import LifecycleFlow.Proofs.Lists
import LifecycleFlow.Proofs.Session
import LifecycleFlow.Proofs.WorkflowFront

/-!
# Where built workflows end

A built workflow ends where its branches do: in the last step of each branch, unless this step is a
fail, and in the state that stands for a missing branch. No handler is ever joined to these states,
and a branch that serves two types of request ends once. Main statement: the ends are these states,
in the order of the requests and each one once, and none of them is followed by a state; so a built
workflow can be continued with any state of its graph, unless all its branches end with a fail.
-/
namespace LifecycleFlow

open LifecycleFlow.Graph LifecycleFlow.Flow

namespace Graph

/-- The state with a number can be continued, and has a name. -/
def ExitNamed (g : Graph) (id : StateId) (name : String) : Prop :=
  ∃ kind, kind.isNextable = true ∧ g.states[id]? = some ⟨name, kind, none⟩

variable {g : Graph} {id : StateId} {name : String}

theorem ExitNamed.named (h : g.ExitNamed id name) : g.Named id name := by
  obtain ⟨kind, -, hs⟩ := h
  exact ⟨_, hs, rfl⟩

theorem ExitNamed.isOpen (h : g.ExitNamed id name) : g.isOpen id := by
  obtain ⟨kind, hkind, hs⟩ := h
  exact isOpen_iff.2 ⟨_, hs, by simp [State.isOpen, State.isNextable, hkind]⟩

end Graph

namespace FlowDefinition

def EndsInFail (d : FlowDefinition) (t : RequestType) : Prop :=
  ∃ l s, d.branchSteps t = some l ∧ l.getLast? = some s ∧ s.isFail = true

/-- The name of the step with which a branch ends, unless it is a fail, or of the state in place of
the branch. -/
def exitName? (d : FlowDefinition) (t : RequestType) : Option String :=
  match d.branchSteps t with
  | some l => (l.getLast?.filter fun s => !s.isFail).map Step.name
  | none => some t.text

/-- The names of the states in which a workflow ends, in the order of the requests, each once. -/
def exitNames (d : FlowDefinition) : List String :=
  (RequestType.all.filterMap d.exitName?).eraseDups

variable {d : FlowDefinition} {g g₀ g' : Graph} {flow : Flow} {exits : String → Option StateId}

theorem Renamed.exitNamed (hr : d.Renamed g g') {id : StateId} {n : String}
    (h : g.ExitNamed id n) : g'.ExitNamed id (d.stateName n) := by
  obtain ⟨kind, hkind, hs⟩ := h
  exact ⟨kind, hkind, hr.getElem? hs⟩

/-- A branch that is placed has one end, which can be continued and has the name of the last step,
and no end after a fail. -/
theorem rel_exit_of_has {l : List Step} {n : StateId} (hne : l ≠ [])
    (h : g.Has n (Step.statesOf exits n none l)) :
    ∃ o : Option StateId, Step.endsOf n l = o.toList ∧
      Option.Rel g.ExitNamed o ((l.getLast?.filter fun s => !s.isFail).map Step.name) := by
  obtain ⟨s, hs⟩ : ∃ s, l.getLast? = some s := ⟨_, List.getLast?_eq_some_getLast hne⟩
  obtain ⟨A, hends, hstates⟩ := Step.exists_last exits l n hs
  rw [hends, hs, Step.ends, Option.filter_some]
  cases hfail : s.isFail with
  | true => exact ⟨none, rfl, .none⟩
  | false =>
    rw [hstates, has_append] at h
    have hstate := (Step.has_states.1 h.2).1
    exact ⟨some (n + A.length), rfl, .some ⟨_, by simp [hfail], hstate⟩⟩

namespace Assembled

theorem rel_exit (h : d.Assembled exits flow g)
    (hfrom : AssembledFrom d.placedBranches g₀ flow g) (t : RequestType) :
    ∃ o : Option StateId, (flow.branch t).ends = o.toList ∧
      Option.Rel g.ExitNamed o (d.exitName? t) := by
  rw [exitName?]
  cases ht : d.branchSteps t with
  | some l =>
    obtain ⟨n, hgiven, hhas⟩ := exists_given h.has_branchHandlers ht
    rw [hfrom.given t _ hgiven]
    exact rel_exit_of_has (h.ne_nil_of_branchSteps ht) hhas
  | none =>
    have hmem : t ∈ Flow.idleTypes d.placedBranches := by
      rw [idleTypes_placedBranches]
      cases t <;> simp [idleTypes, RequestType.all, ht]
    obtain ⟨i, hi⟩ := List.mem_iff_getElem?.1 hmem
    have hidle := h.missing ht
    rw [hfrom.idle i t hi] at hidle ⊢
    exact ⟨some _, rfl, .some ⟨_, rfl, hidle⟩⟩

theorem ends_of_branches (h : d.Assembled exits flow g)
    (hfrom : AssembledFrom d.placedBranches g₀ flow g) (hr : d.Renamed g g')
    (ts : List RequestType) :
    (ts.flatMap fun t => (flow.branch t).ends).map some =
        (ts.filterMap d.exitName?).map (fun n => g'.find? (d.stateName n)) ∧
      ∀ id ∈ ts.flatMap fun t => (flow.branch t).ends, g'.isOpen id := by
  induction ts with
  | nil => simp
  | cons t rest ih =>
    obtain ⟨o, hends, hexit⟩ := h.rel_exit hfrom t
    rw [List.flatMap_cons, List.map_append, List.forall_mem_append, ih.1, hends]
    cases hname : d.exitName? t with
    | none =>
      rw [hname] at hexit
      cases hexit
      simpa [hname] using ih.2
    | some n =>
      rw [hname] at hexit
      cases hexit with
      | @some id _ hid =>
        refine ⟨by simp [hname, hr.find?_iff.2 hid.named], ?_, ih.2⟩
        simpa using (hr.exitNamed hid).isOpen

/-- The ends of a workflow are the states found under the names of its exits, in their order. -/
theorem ends_eq (h : d.Assembled exits flow g)
    (hfrom : AssembledFrom d.placedBranches g₀ flow g) (hr : d.Renamed g g') :
    flow.ends.map some = d.exitNames.map fun n => g'.find? (d.stateName n) := by
  obtain ⟨hends, -⟩ := h.ends_of_branches hfrom hr RequestType.all
  have hinj : ∀ n ∈ RequestType.all.filterMap d.exitName?,
      ∀ m ∈ RequestType.all.filterMap d.exitName?,
      g'.find? (d.stateName n) = g'.find? (d.stateName m) → n = m := by
    intro n hn m _ hsame
    obtain ⟨id, -, hid⟩ := List.mem_map.1 (hends ▸ List.mem_map_of_mem hn)
    obtain ⟨s, hs, rfl⟩ := hr.find?_iff.1 hid.symm
    obtain ⟨t, ht, rfl⟩ := hr.find?_iff.1 (hsame.symm.trans hid.symm)
    rw [Option.some.inj (hs.symm.trans ht)]
  rw [hfrom.ends, exitNames, List.map_eraseDups _ hinj, ← hends,
    List.map_eraseDups _ fun _ _ _ _ => Option.some.inj]

theorem isOpen_of_mem_ends (h : d.Assembled exits flow g)
    (hfrom : AssembledFrom d.placedBranches g₀ flow g) (hr : d.Renamed g g') {id : StateId}
    (hid : id ∈ flow.ends) : g'.isOpen id := by
  rw [hfrom.ends, List.mem_eraseDups] at hid
  exact (h.ends_of_branches hfrom hr RequestType.all).2 id hid

theorem exitName?_eq_none_iff (h : d.Assembled exits flow g) (t : RequestType) :
    d.exitName? t = none ↔ d.EndsInFail t := by
  rw [exitName?, EndsInFail]
  cases ht : d.branchSteps t with
  | none => simp
  | some l =>
    have hlast := List.getLast?_eq_some_getLast (h.ne_nil_of_branchSteps ht)
    simp [hlast]

/-- A workflow ends nowhere exactly if all its branches end with a fail. -/
theorem ends_eq_nil_iff (h : d.Assembled exits flow g)
    (hfrom : AssembledFrom d.placedBranches g₀ flow g) (hr : d.Renamed g g') :
    flow.ends = [] ↔ ∀ t, d.EndsInFail t := by
  have hnames : flow.ends = [] ↔ d.exitNames = [] := by
    rw [← List.map_eq_nil_iff (f := some), h.ends_eq hfrom hr, List.map_eq_nil_iff]
  have hdups (l : List String) : l.eraseDups = [] ↔ l = [] := by
    cases l <;> simp [List.eraseDups_cons]
  simp only [hnames, exitNames, hdups, List.filterMap_eq_nil_iff, h.exitName?_eq_none_iff]
  exact ⟨fun hall t => hall t (by cases t <;> simp [RequestType.all]), fun hall t _ => hall t⟩

end Assembled

theorem exists_assembledFrom (h : outcome d.assembleFlow Graph.empty = (.ok flow, g)) :
    ∃ g₀, AssembledFrom d.placedBranches g₀ flow g := by
  rw [assembleFlow] at h
  rcases hbranches : outcome d.buildBranches Graph.empty with ⟨e | b, g₀⟩
  · rw [outcome_bind_error hbranches] at h
    cases h
  · rw [outcome_bind_ok hbranches] at h
    obtain ⟨-, rfl, hholds⟩ := d.buildBranches_decides.of_ok hbranches
    exact ⟨g₀, assembledFrom hholds.wellFormed h⟩

theorem exists_assembledFrom_of_build {b : BuiltFlow} (h : d.build = .ok b) :
    ∃ exits g₀ g, d.Assembled exits b.flow g ∧ AssembledFrom d.placedBranches g₀ b.flow g ∧
      d.Renamed g b.graph := by
  obtain ⟨hout, -⟩ := build_eq_ok_iff.1 h
  rw [buildFlow] at hout
  rcases hassemble : outcome d.assembleFlow Graph.empty with ⟨e | flow, g⟩
  · rw [outcome_bind_error hassemble] at hout
    cases hout
  · rw [outcome_bind_ok hassemble] at hout
    obtain ⟨-, exits, hassembled⟩ := assembleFlow_decides.of_ok hassemble
    obtain ⟨g₀, hfrom⟩ := exists_assembledFrom hassemble
    cases hfront : d.namePrefix with
    | none =>
      rw [hfront] at hout
      cases hout
      refine ⟨exits, g₀, b.graph, hassembled, hfrom, hassembled.graph.indexed, ?_⟩
      simp [stateName, hfront]
    | some front =>
      obtain ⟨g', hrename, hg', hstates⟩ := hassembled.addPrefix_eq_ok front
      have hlift : outcome (GraphOp.lift (Graph.addPrefix flow.entry front)) g = (.ok (), g') := by
        rw [outcome_lift, hrename]
        rfl
      rw [hfront, outcome_bind_ok hlift] at hout
      cases hout
      refine ⟨exits, g₀, g, hassembled, hfrom, hg'.indexed, ?_⟩
      simpa [stateName, hfront] using hstates

/-- A built workflow ends, each time once, in the last steps of its branches that are no fails and
in the states in place of missing branches, in the order of the requests. These are pass and task
states without a next state. So the workflow can be continued with any state of its graph, and this
sets the next state of its ends and nothing else; only if all branches end with a fail, it cannot be
continued, which is reported in the name of its first state. -/
theorem build_ends_in_exits (d : FlowDefinition) (b : BuiltFlow) (h : d.build = .ok b) :
    b.flow.ends.Nodup ∧
    b.flow.ends.map some = d.exitNames.map (fun n => b.graph.find? (d.stateName n)) ∧
    (∀ id ∈ b.flow.ends, b.graph.OpenAt id) ∧
    ∀ second : Fragment, second.start < b.graph.size →
      ((∀ t, d.EndsInFail t) → outcome (Graph.chain b.flow.fragment second) b.graph =
        (.error (.notNextable (d.stateName entryName)), b.graph)) ∧
      ((¬ ∀ t, d.EndsInFail t) → ∃ g',
        outcome (Graph.chain b.flow.fragment second) b.graph =
          (.ok ⟨b.flow.entry, second.ends⟩, g') ∧
        b.graph.Continued g' b.flow.ends second.start) := by
  obtain ⟨exits, g₀, g, hassembled, hfrom, hr⟩ := exists_assembledFrom_of_build h
  have hnodup : b.flow.ends.Nodup := hfrom.ends ▸ List.nodup_eraseDups _
  have hopen : ∀ id ∈ b.flow.ends, b.graph.isOpen id := fun id hid =>
    hassembled.isOpen_of_mem_ends hfrom hr hid
  have hfails := hassembled.ends_eq_nil_iff hfrom hr
  refine ⟨hnodup, hassembled.ends_eq hfrom hr, fun id hid => isOpen_iff_openAt.1 (hopen id hid),
    fun second hsecond => ⟨fun hall => ?_, fun hnot => ?_⟩⟩
  · have hends : b.flow.fragment.ends = [] := hfails.2 hall
    have hentry : b.graph.states[b.flow.fragment.start]? = _ :=
      hr.getElem? hassembled.entryState_eq
    rw [outcome_chain, if_pos hends, state_eq_ok_iff.2 hentry]
    rfl
  · have hchain : outcome (Graph.chain b.flow.fragment second) b.graph =
        (.ok ⟨b.flow.entry, second.ends⟩, b.graph.withNext b.flow.ends second.start) :=
      chain_eq_ok_iff.2 ⟨⟨mt hfails.1 hnot, hsecond, hnodup, hopen⟩, rfl, rfl⟩
    exact ⟨_, hchain, continued_withNext⟩

/-- The branch for updates serves new resources too and ends once; deleting does nothing. -/
theorem build_ends_in_exits_tagging : ∃ b, tagging.build = .ok b ∧ b.flow.ends.Nodup ∧
    b.flow.ends.map some =
      ["Report", "Delete"].map (fun n => b.graph.find? ("Bucket: " ++ n)) ∧
    (∀ id ∈ b.flow.ends, b.graph.OpenAt id) ∧
    ∀ second : Fragment, second.start < b.graph.size → ∃ g',
      outcome (Graph.chain b.flow.fragment second) b.graph =
        (.ok ⟨b.flow.entry, second.ends⟩, g') ∧
      b.graph.Continued g' b.flow.ends second.start := by
  obtain ⟨b, hb⟩ : ∃ b, tagging.build = .ok b := exists_build_of_wellFormed (by decide +kernel)
  obtain ⟨hnodup, hends, hopen, hchain⟩ := build_ends_in_exits tagging b hb
  have hnames : tagging.exitNames = ["Report", "Delete"] := by decide +kernel
  have hnot : ¬ ∀ t, tagging.EndsInFail t := by
    intro hall
    obtain ⟨l, -, hl, -⟩ := hall .delete
    cases hl
  rw [hnames] at hends
  exact ⟨b, hb, hnodup, hends, hopen, fun second hsecond => (hchain second hsecond).2 hnot⟩

end FlowDefinition

end LifecycleFlow
