import LifecycleFlow.Proofs.Runs

/-!
# Requests in the life of a workflow

An assembled workflow stays in its graph while other things are built around it. Its choice cannot
be followed by a next state, its first state already is, and neither takes a catcher: so whatever is
done to the graph, only a rule or a default added to the choice itself could change where requests
go. Main statement: without such a change, the choice leads every request into the branch for its
type, for all variables.
-/
namespace LifecycleFlow

variable {g g' : Graph} {id : StateId} {kind : StateKind} {next : Option StateId}

namespace Graph

/-- A state of the graph does and leads to what is given; its name is left open. -/
def Carries (g : Graph) (id : StateId) (kind : StateKind) (next : Option StateId) : Prop :=
  ∃ name, g.states[id]? = some ⟨name, kind, next⟩

theorem Carries.lt_size (h : g.Carries id kind next) : id < g.size := by
  obtain ⟨name, h⟩ := h
  exact (List.getElem?_eq_some_iff.1 h).1

theorem Carries.of_prefix {added : List State} (h : g.Carries id kind next)
    (hstates : g'.states = g.states ++ added) : g'.Carries id kind next := by
  have hlt := h.lt_size
  obtain ⟨name, h⟩ := h
  exact ⟨name, by rwa [hstates, List.getElem?_append_left hlt]⟩

/-- A connection leaves a state alone that refuses to be its source. -/
theorem Carries.connected {source target : StateId} {change : State → Except GraphError State}
    (h : g.Carries id kind next)
    (hrefused : source = id → ∀ name s, change ⟨name, kind, next⟩ ≠ .ok s) :
    (g.connected source target change).2.Carries id kind next := by
  rcases hout : g.connected source target change with ⟨e | u, g'⟩
  · rwa [eq_of_connected_eq_error hout]
  · obtain ⟨-, s, s', hs, hchange, rfl⟩ := connected_eq_ok_iff.1 hout
    obtain ⟨name, h⟩ := h
    refine ⟨name, ?_⟩
    rw [getElem?_put hs]
    by_cases hid : id = source
    · subst hid
      obtain rfl := Option.some.inj (hs.symm.trans h)
      exact absurd hchange (hrefused rfl name s')
    · rwa [if_neg hid]

theorem Carries.withPrefixed {ids : List StateId} {front : String} (h : g.Carries id kind next) :
    (g.withPrefixed ids front).Carries id kind next := by
  obtain ⟨name, h⟩ := h
  by_cases hid : id ∈ ids
  · exact ⟨front ++ name, by rw [getElem?_withPrefixed, h]; simp [hid]⟩
  · exact ⟨name, by rw [getElem?_withPrefixed, h]; simp [hid]⟩

end Graph

namespace Flow

variable {b : Branches}

theorem carries_assemble (h : g.Carries id kind next) :
    (outcome (assemble b) g).2.Carries id kind next := by
  rcases hout : outcome (assemble b) g with ⟨e | flow, g'⟩
  · rwa [assemble_failsCleanly e g' hout]
  · obtain ⟨-, rfl⟩ := eq_of_assemble_eq_ok hout
    have hstates := states_assembledGraph (g := g) (b := b)
    rw [states_withIdles, List.append_assoc] at hstates
    exact h.of_prefix hstates

end Flow

namespace Graph

theorem preserves_carries_add {name : String} {added : StateKind} :
    Preserves (Carries · id kind next) (add name added) := by
  intro g hg
  rw [outcome_add]
  split
  · exact hg.of_prefix (states_push ..)
  · exact hg

end Graph

namespace Operation

/-- An operation changes where a choice leads: it adds a rule to it or sets its default. -/
def Redirects (choice : StateId) : Operation → Prop
  | addRule source _ _ => source = choice
  | setOtherwise source _ => source = choice
  | _ => False

/-- A state that cannot be continued any more and takes no catcher stays as it is, but for its name,
under every operation, unless it is a choice and the operation redirects it. -/
theorem preserves_carries (op : Operation) (hnext : kind.isNextable → next.isSome)
    (htask : ∀ call catchers, kind ≠ .task call catchers)
    (hchoice : ∀ rules otherwise, kind = .choice rules otherwise → ¬ op.Redirects id) :
    Preserves (Graph.Carries · id kind next) op.perform := by
  have hset (source target : StateId) :
      Preserves (Graph.Carries · id kind next) (Graph.setNext source target) := by
    intro g hg
    rw [Graph.outcome_setNext]
    refine hg.connected fun _ name s hs => ?_
    obtain ⟨hopen, -⟩ := State.followedBy_eq_ok_iff.1 hs
    simp only [State.isOpen, State.isNextable, Bool.and_eq_true] at hopen
    have hsome := hnext hopen.1
    rw [Option.isNone_iff_eq_none.1 hopen.2] at hsome
    cases hsome
  cases op with
  | addPass name pass => exact preserves_discard (preserves_lift Graph.preserves_carries_add)
  | addTask name call => exact preserves_discard (preserves_lift Graph.preserves_carries_add)
  | addChoice name => exact preserves_discard (preserves_lift Graph.preserves_carries_add)
  | addFail name failure => exact preserves_discard (preserves_lift Graph.preserves_carries_add)
  | setNext source target => exact preserves_lift (hset source target)
  | chain first second =>
    have hchain : Preserves (Graph.Carries · id kind next) (Graph.chain first second) :=
      Graph.preserves_chain fun source => hset source second.start
    exact preserves_discard (preserves_lift hchain)
  | addRule choice condition target =>
    refine preserves_lift fun g hg => ?_
    rw [Graph.outcome_addRule]
    refine hg.connected fun hid name s hs => ?_
    obtain ⟨rules, otherwise, hkind, -⟩ := State.withRule_eq_ok_iff.1 hs
    exact hchoice rules otherwise hkind hid
  | setOtherwise choice target =>
    refine preserves_lift fun g hg => ?_
    rw [Graph.outcome_setOtherwise]
    refine hg.connected fun hid name s hs => ?_
    obtain ⟨rules, otherwise, hkind, -⟩ := State.withOtherwise_eq_ok_iff.1 hs
    exact hchoice rules otherwise hkind hid
  | addCatcher task handler errors outputs =>
    refine preserves_lift fun g hg => ?_
    rw [Graph.outcome_addCatcher]
    refine hg.connected fun _ name s hs => ?_
    obtain ⟨call, catchers, hkind, -⟩ := State.withCatcher_eq_ok_iff.1 hs
    exact htask call catchers hkind
  | addPrefix start front =>
    refine preserves_lift fun g hg => ?_
    rw [Graph.outcome_addPrefix]
    cases g.reachable start with
    | error e => exact hg
    | ok ids =>
      dsimp only
      split
      · exact hg
      · exact hg.withPrefixed
  | assemble branches => exact preserves_discard fun _ hg => Flow.carries_assemble hg

end Operation

theorem Graph.Carries.after {ops : List Operation} (h : g.Carries id kind next)
    (hnext : kind.isNextable → next.isSome) (htask : ∀ call catchers, kind ≠ .task call catchers)
    (hchoice : ∀ rules otherwise, kind = .choice rules otherwise → ∀ op ∈ ops, ¬ op.Redirects id) :
    (g.after ops).Carries id kind next := by
  induction ops generalizing g with
  | nil => exact h
  | cons op ops ih =>
    have hstep : (outcome op.perform g).2.Carries id kind next :=
      op.preserves_carries hnext htask
        (fun rules otherwise hkind => hchoice rules otherwise hkind op List.mem_cons_self) g h
    exact ih hstep fun rules otherwise hkind op hop =>
      hchoice rules otherwise hkind op (List.mem_cons_of_mem _ hop)

open Json (Object)

theorem Comparison.equals_string_iff {value : Option Json} {s : String} :
    Comparison.equals value (.string s) = true ↔ value = some (.string s) := by
  cases value with
  | none => simp [equals]
  | some v => cases v <;> simp [equals]

namespace RequestType

theorem evaluate_condition (t : RequestType) (known : Object) :
    t.condition.evaluate known =
      some (Comparison.equals (Object.find? "RequestType" known) (.string t.text)) := by
  have href : Reference.ofText? ("$" ++ variableName) = some ["RequestType"] := by
    decide +kernel
  rw [condition, Condition.evaluate, href]
  rfl

end RequestType

/-- The type of request that variables hold. -/
def RequestType.requested? (known : Object) : Option RequestType :=
  match Object.find? "RequestType" known with
  | some (.string s) => ofText? s
  | _ => none

theorem RequestType.ofText?_eq_some_iff {s : String} {t : RequestType} :
    ofText? s = some t ↔ t.text = s := by
  constructor
  · intro h
    simpa using List.find?_some h
  · rintro rfl
    cases t <;> rfl

theorem RequestType.requested?_eq_some_iff {known : Object} {t : RequestType} :
    requested? known = some t ↔ Object.find? "RequestType" known = some (.string t.text) := by
  rw [requested?]
  split
  · rename_i s hs
    rw [ofText?_eq_some_iff, hs]
    simp [eq_comm]
  · rename_i hnone
    simp only [reduceCtorEq, false_iff]
    exact fun h => hnone _ h

namespace Flow

/-- The rules of the choice of a workflow. -/
def rules (flow : Flow) : List Rule :=
  RequestType.all.map fun t => ⟨t.condition, (flow.branch t).start⟩

/-- What the choice of a workflow takes for a request. -/
def selection (flow : Flow) : Option RequestType → Selection
  | some .create => .rule 0 flow.onCreate.start
  | some .update => .rule 1 flow.onUpdate.start
  | some .delete => .rule 2 flow.onDelete.start
  | none => .noMatch

theorem ofRules_rules (flow : Flow) (known : Object) :
    Selection.ofRules known 0 flow.rules none = flow.selection (RequestType.requested? known) := by
  have hrule (t : RequestType) : t.condition.evaluate known =
      some (decide (RequestType.requested? known = some t)) := by
    rw [RequestType.evaluate_condition, Option.some_inj, Bool.eq_iff_iff, decide_eq_true_iff,
      Comparison.equals_string_iff, RequestType.requested?_eq_some_iff]
  simp only [rules, RequestType.all, List.map_cons, List.map_nil, Selection.ofRules, hrule]
  cases RequestType.requested? known with
  | none => rfl
  | some t => cases t <;> rfl

/-- The choice of a workflow leads each request into the branch for its type. -/
theorem select_of_carries {flow : Flow} (h : g.Carries flow.dispatch (.choice flow.rules none) none)
    (known : Object) :
    g.select flow.dispatch known = .ok (flow.selection (RequestType.requested? known)) := by
  obtain ⟨name, h⟩ := h
  rw [Graph.select, Graph.state_eq_ok_iff.2 h, ← ofRules_rules]
  rfl

/-- Requests go through a workflow in a graph as they should: from its first state to its choice,
and from there into the branch for the type of request that the variables hold. Variables without
such a type lead nowhere; all variables settle where they lead. -/
structure RoutesIn (flow : Flow) (g : Graph) : Prop where
  entry : ∃ s, g.states[flow.entry]? = some s ∧ s.next = some flow.dispatch
  create : ∀ known, g.select flow.dispatch known = .ok (.rule 0 (flow.branch .create).start) ↔
    Object.find? "RequestType" known = some (.string "Create")
  update : ∀ known, g.select flow.dispatch known = .ok (.rule 1 (flow.branch .update).start) ↔
    Object.find? "RequestType" known = some (.string "Update")
  delete : ∀ known, g.select flow.dispatch known = .ok (.rule 2 (flow.branch .delete).start) ↔
    Object.find? "RequestType" known = some (.string "Delete")
  noMatch : ∀ known, g.select flow.dispatch known = .ok .noMatch ↔
    ∀ t : RequestType, Object.find? "RequestType" known ≠ some (.string t.text)
  settled : ∀ known, (∀ i, g.select flow.dispatch known ≠ .ok (.undecidable i)) ∧
    ∀ target, g.select flow.dispatch known ≠ .ok (.otherwise target)

theorem routesIn_of_carries {flow : Flow}
    (hdispatch : g.Carries flow.dispatch (.choice flow.rules none) none)
    (hentry : g.Carries flow.entry (.pass entryPass) (some flow.dispatch)) : flow.RoutesIn g := by
  have hbranch (known : Object) (t : RequestType) :
      g.select flow.dispatch known = .ok (flow.selection (some t)) ↔
        Object.find? "RequestType" known = some (.string t.text) := by
    rw [select_of_carries hdispatch, ← RequestType.requested?_eq_some_iff, Except.ok.injEq]
    refine ⟨fun h => ?_, fun h => by rw [h]⟩
    revert h
    cases RequestType.requested? known with
    | none => cases t <;> simp [selection]
    | some u => cases t <;> cases u <;> simp [selection]
  refine ⟨?_, (hbranch · .create), (hbranch · .update), (hbranch · .delete), fun known => ?_,
    fun known => ?_⟩
  · obtain ⟨name, hentry⟩ := hentry
    exact ⟨_, hentry, rfl⟩
  · simp only [← RequestType.requested?_eq_some_iff, ne_eq, select_of_carries hdispatch]
    cases RequestType.requested? known with
    | none => simp [selection]
    | some t => cases t <;> simp [selection]
  · rw [select_of_carries hdispatch]
    cases RequestType.requested? known with
    | none => simp [selection]
    | some t => cases t <;> simp [selection]

theorem carries_dispatch {b : Branches} : (assembledGraph b g).Carries (assembledFlow b g).dispatch
    (.choice (assembledFlow b g).rules none) none := by
  have hdispatch : (assembledFlow b g).dispatch = (withIdles b g).states.length := rfl
  refine ⟨dispatchName, ?_⟩
  rw [states_assembledGraph, hdispatch, List.getElem?_append_right (Nat.le_refl _), Nat.sub_self]
  rfl

theorem carries_entry {b : Branches} : (assembledGraph b g).Carries (assembledFlow b g).entry
    (.pass entryPass) (some (assembledFlow b g).dispatch) := by
  have hentry : (assembledFlow b g).entry = (withIdles b g).states.length + 1 := rfl
  refine ⟨entryName, ?_⟩
  rw [states_assembledGraph, hentry, List.getElem?_append_right (Nat.le_add_right _ 1),
    Nat.add_sub_cancel_left]
  rfl

/-- Whatever is done to a graph after a workflow was assembled in it, failed operations included:
as long as no rule is added to the choice of the workflow and no default set, requests go through
the workflow as they should. Requests to create go into the branch given for them, else into that
given for updates, else into a new state that does nothing. -/
theorem routesIn_after {b : Branches} {flow : Flow} (h : outcome (assemble b) g = (.ok flow, g'))
    (later : List Operation) (hlater : ∀ op ∈ later, ¬ op.Redirects flow.dispatch) :
    flow.RoutesIn (g'.after later) ∧
    (∀ f, b.onCreate = some f → flow.branch .create = f) ∧
    (∀ f, b.onCreate = none → b.onUpdate = some f → flow.branch .create = f) ∧
    (b.onCreate = none → b.onUpdate = none → flow.branch .create = ⟨g.size, [g.size]⟩ ∧
      g'.states[g.size]? = some ⟨"Create", .pass {}, none⟩) := by
  obtain ⟨rfl, rfl⟩ := eq_of_assemble_eq_ok h
  have hdispatch : ((assembledGraph b g).after later).Carries (assembledFlow b g).dispatch
      (.choice (assembledFlow b g).rules none) none :=
    carries_dispatch.after (by simp [StateKind.isNextable]) (by simp) fun _ _ _ => hlater
  have hentry : ((assembledGraph b g).after later).Carries (assembledFlow b g).entry
      (.pass entryPass) (some (assembledFlow b g).dispatch) :=
    carries_entry.after (by simp) (by simp) (by simp)
  refine ⟨routesIn_of_carries hdispatch hentry, fun f hf => ?_, fun f hc hu => ?_, fun hc hu => ?_⟩
  · exact (branch_assembledFlow .create).1 f (by rw [Branches.given, hf, Option.some_or])
  · exact (branch_assembledFlow .create).1 f (by rw [Branches.given, hc, hu, Option.none_or])
  · have hgiven : b.given .create = none := by rw [Branches.given, hc, hu, Option.none_or]
    have hbranch : (assembledFlow b g).branch .create = ⟨g.size, [g.size]⟩ := by
      simp [assembledFlow, branch, branchOr, hc, hu]
    have hidle := (branch_assembledFlow (g := g) .create).2 hgiven
    rw [hbranch] at hidle
    refine ⟨hbranch, ?_⟩
    rw [states_assembledGraph, List.getElem?_append_left (List.getElem?_eq_some_iff.1 hidle).1]
    exact hidle

/-- A workflow for updates alone is renamed and a second one assembled beside it, whose choice takes
a further rule; what would continue the first state or the choice of the first workflow fails. -/
theorem routesIn_after_second_workflow :
    let g := Graph.empty.after [.addPass "Tag" {}]
    let flow : Flow := ⟨3, 2, ⟨0, [0]⟩, ⟨0, [0]⟩, ⟨1, [1]⟩, [0, 1]⟩
    let assembled := outcome (assemble { onUpdate := some ⟨0, [0]⟩ }) g
    let later : List Operation := [.addPrefix 3 "First/", .setNext 3 0, .chain ⟨2, [2]⟩ ⟨0, [0]⟩,
      .addPass "Tag" {}, .assemble { onUpdate := some ⟨4, [4]⟩ }, .addRule 6 .always 0]
    assembled = (.ok flow, assembled.2) ∧ (∀ op ∈ later, ¬ op.Redirects flow.dispatch) ∧
      flow.RoutesIn (assembled.2.after later) := by
  intro g flow assembled later
  have hassembled : assembled = (.ok flow, assembled.2) := Prod.ext rfl rfl
  have hlater : ∀ op ∈ later, ¬ op.Redirects flow.dispatch := by
    simp [later, flow, Operation.Redirects]
  exact ⟨hassembled, hlater, (routesIn_after hassembled later hlater).1⟩

end Flow

end LifecycleFlow
