import LifecycleFlow.Proofs.Runs

/-!
# The history of a graph

What an operation may do to one state of a graph is little: continue it where it is open, add a rule
or a catcher after those it has, set the default of a choice, put a text before its name. Main
statement: between any two points of a run the states only grow, and what may be replaced, the name
of a state and the default of a choice, is replaced by a rename that reaches the state and by setting
the default of this choice.
-/
namespace LifecycleFlow

/-- The second kind carries what the first one carries; rules and catchers may have been added after
those it has, and a default, once set, may have been replaced. -/
inductive StateKind.GrowsInto : StateKind → StateKind → Prop
  | pass (p : Pass) : GrowsInto (.pass p) (.pass p)
  | task (call : ServiceCall) {catchers catchers' : List Catcher} (h : catchers <+: catchers') :
      GrowsInto (.task call catchers) (.task call catchers')
  | choice {rules rules' : List Rule} {otherwise otherwise' : Option StateId}
      (hrules : rules <+: rules') (hotherwise : otherwise.isSome → otherwise'.isSome) :
      GrowsInto (.choice rules otherwise) (.choice rules' otherwise')
  | fail (f : Failure) : GrowsInto (.fail f) (.fail f)

/-- The second state is the first one at a later time: it may have been continued where it was open,
and texts may have been put before its name. -/
structure State.GrowsInto (s s' : State) : Prop where
  kind : s.kind.GrowsInto s'.kind
  next : ∀ target, s.next = some target → s'.next = some target
  name : ∃ front, s'.name = front ++ s.name

/-- The default of a choice, if the state is one and has one. -/
def State.otherwise (s : State) : Option StateId :=
  match s.kind with
  | .choice _ otherwise => otherwise
  | _ => none

theorem StateKind.GrowsInto.refl (kind : StateKind) : kind.GrowsInto kind := by
  cases kind with
  | pass p => exact .pass p
  | task call catchers => exact .task call List.prefix_rfl
  | choice rules otherwise => exact .choice List.prefix_rfl id
  | fail f => exact .fail f

theorem StateKind.GrowsInto.trans {k k' k'' : StateKind} (h : k.GrowsInto k')
    (h' : k'.GrowsInto k'') : k.GrowsInto k'' := by
  cases h with
  | pass p => exact h'
  | fail f => exact h'
  | task call hcatchers =>
    cases h' with
    | task _ hcatchers' => exact .task call (hcatchers.trans hcatchers')
  | choice hrules hotherwise =>
    cases h' with
    | choice hrules' hotherwise' =>
      exact .choice (hrules.trans hrules') fun hset => hotherwise' (hotherwise hset)

theorem State.GrowsInto.refl (s : State) : s.GrowsInto s :=
  ⟨.refl s.kind, fun _ h => h, "", String.empty_append.symm⟩

theorem State.GrowsInto.trans {s s' s'' : State} (h : s.GrowsInto s') (h' : s'.GrowsInto s'') :
    s.GrowsInto s'' := by
  obtain ⟨front, hname⟩ := h.name
  obtain ⟨front', hname'⟩ := h'.name
  refine ⟨h.kind.trans h'.kind, fun target ht => h'.next target (h.next target ht), front' ++ front,
    ?_⟩
  rw [hname', hname, String.append_assoc]

/-- All that an operation on a graph may do to the state with a number. -/
inductive Operation.Changes (g : Graph) (id : StateId) (s : State) : Operation → State → Prop
  | keep (op : Operation) : Changes g id s op s
  | next {target : StateId} (h : s.isOpen) :
      Changes g id s (.setNext id target) { s with next := some target }
  | chain {first second : Fragment} (hid : id ∈ first.ends) (h : s.isOpen) :
      Changes g id s (.chain first second) { s with next := some second.start }
  | rule {condition : Condition} {target : StateId} {rules : List Rule}
      {otherwise : Option StateId} (h : s.kind = .choice rules otherwise) :
      Changes g id s (.addRule id condition target)
        { s with kind := .choice (rules ++ [⟨condition, target⟩]) otherwise }
  | default {target : StateId} {rules : List Rule} {otherwise : Option StateId}
      (h : s.kind = .choice rules otherwise) :
      Changes g id s (.setOtherwise id target) { s with kind := .choice rules (some target) }
  | catcher {handler : StateId} {errors : List String} {outputs : Option Json}
      {call : ServiceCall} {catchers : List Catcher} (h : s.kind = .task call catchers) :
      Changes g id s (.addCatcher id handler errors outputs)
        { s with kind := .task call (catchers ++ [⟨errors, handler, outputs⟩]) }
  | rename {start : StateId} {front : String} {ids : List StateId}
      (hdone : (outcome (Graph.addPrefix start front) g).1 = .ok ())
      (hids : g.reachable start = .ok ids) (hid : id ∈ ids) :
      Changes g id s (.addPrefix start front) { s with name := front ++ s.name }

variable {g g' : Graph} {id : StateId} {s s' : State} {op : Operation} {ops : List Operation}

theorem Operation.Changes.growsInto (h : op.Changes g id s s') : s.GrowsInto s' := by
  have hempty : s.name = "" ++ s.name := String.empty_append.symm
  have hcontinued (hopen : s.isOpen) (target : StateId) :
      s.GrowsInto { s with next := some target } := by
    refine ⟨.refl s.kind, fun target' hnext => ?_, "", hempty⟩
    simp [State.isOpen, hnext] at hopen
  cases h with
  | keep => exact .refl s
  | next hopen => exact hcontinued hopen _
  | chain _ hopen => exact hcontinued hopen _
  | rule hkind =>
    exact ⟨hkind ▸ .choice (List.prefix_append _ _) fun hset => hset, fun _ h => h, "", hempty⟩
  | default hkind =>
    exact ⟨hkind ▸ .choice List.prefix_rfl fun _ => rfl, fun _ h => h, "", hempty⟩
  | catcher hkind =>
    exact ⟨hkind ▸ .task _ (List.prefix_append _ _), fun _ h => h, "", hempty⟩
  | @rename _ front => exact ⟨.refl s.kind, fun _ h => h, front, rfl⟩

/-- Only a rename that succeeds and reaches the state changes its name. -/
theorem Operation.Changes.exists_rename (h : op.Changes g id s s') (hname : s'.name ≠ s.name) :
    ∃ start front ids, op = .addPrefix start front ∧
      (outcome (Graph.addPrefix start front) g).1 = .ok () ∧ g.reachable start = .ok ids ∧
      id ∈ ids := by
  cases h with
  | rename hdone hids hid => exact ⟨_, _, _, rfl, hdone, hids, hid⟩
  | _ => exact absurd rfl hname

/-- Only setting the default of a choice changes it. -/
theorem Operation.Changes.exists_default (h : op.Changes g id s s')
    (hotherwise : s'.otherwise ≠ s.otherwise) :
    ∃ target, op = .setOtherwise id target ∧ s'.otherwise = some target := by
  cases h with
  | default hkind => exact ⟨_, rfl, rfl⟩
  | rule hkind => simp [State.otherwise, hkind] at hotherwise
  | catcher hkind => simp [State.otherwise, hkind] at hotherwise
  | _ => exact absurd rfl hotherwise

namespace Graph

/-- A connection changes its source alone. -/
private theorem getElem?_connected (source target : StateId)
    (change : State → Except GraphError State) (hs : g.states[id]? = some s) :
    ∃ s', (g.connected source target change).2.states[id]? = some s' ∧
      (s' = s ∨ source = id ∧ change s = .ok s') := by
  rcases hout : g.connected source target change with ⟨e | u, g'⟩
  · rw [eq_of_connected_eq_error hout]
    exact ⟨s, hs, .inl rfl⟩
  · obtain ⟨-, t, t', ht, hchange, rfl⟩ := connected_eq_ok_iff.1 hout
    by_cases hid : id = source
    · subst hid
      obtain rfl := Option.some.inj (ht.symm.trans hs)
      exact ⟨t', by rw [getElem?_put ht, if_pos rfl], .inr ⟨rfl, hchange⟩⟩
    · exact ⟨s, by rw [getElem?_put ht, if_neg hid, hs], .inl rfl⟩

/-- Whether it succeeds or fails, a chain continues some ends of the first fragment, which were open,
and does nothing else. -/
theorem exists_withNext_of_chain (g : Graph) (first second : Fragment) :
    ∃ ids, (∀ id ∈ ids, id ∈ first.ends ∧ g.isOpen id) ∧
      (outcome (chain first second) g).2 = g.withNext ids second.start := by
  by_cases hends : first.ends = []
  · refine ⟨[], by simp, ?_⟩
    rw [outcome_chain, if_pos hends, withNext_nil]
  · cases hcheck : g.checkChain first second with
    | error e =>
      refine ⟨[], by simp, ?_⟩
      rw [outcome_chain_of_refused hends hcheck, withNext_nil]
    | ok u =>
      have hopen := (checkChain_eq_ok_iff.1 hcheck).2
      by_cases hnodup : first.ends.Nodup
      · refine ⟨first.ends, fun id hid => ⟨hid, hopen id hid⟩, ?_⟩
        rw [outcome_chain_of_nodup hends hcheck hnodup]
      · obtain ⟨done, id, rest, hsplit, hdone, hmem⟩ := List.exists_repeated hnodup
        obtain ⟨name, hout⟩ := outcome_chain_of_repeated hcheck hsplit hdone hmem
        have hsubset : ∀ i ∈ done, i ∈ first.ends := fun i hi => by simp [hsplit, hi]
        exact ⟨done, fun i hi => ⟨hsubset i hi, hopen i (hsubset i hi)⟩, by rw [hout]⟩

private theorem getElem?_of_append {added : List State} (hs : g.states[id]? = some s)
    (hstates : g'.states = g.states ++ added) : g'.states[id]? = some s := by
  rw [hstates, List.getElem?_append_left (List.getElem?_eq_some_iff.1 hs).1, hs]

private theorem getElem?_add {name : String} {kind : StateKind} (hs : g.states[id]? = some s) :
    (outcome (add name kind) g).2.states[id]? = some s := by
  rw [outcome_add]
  split
  · exact getElem?_of_append hs (states_push ..)
  · exact hs

private theorem getElem?_assemble {b : Branches} (hs : g.states[id]? = some s) :
    (outcome (Flow.assemble b) g).2.states[id]? = some s := by
  rcases hout : outcome (Flow.assemble b) g with ⟨e | flow, g'⟩
  · rwa [Flow.assemble_failsCleanly e g' hout]
  · obtain ⟨-, rfl⟩ := Flow.eq_of_assemble_eq_ok hout
    have hstates := Flow.states_assembledGraph (g := g) (b := b)
    rw [Flow.states_withIdles, List.append_assoc] at hstates
    exact getElem?_of_append hs hstates

end Graph

private theorem exists_changes_of_add {name : String} {kind : StateKind} {op : Operation}
    (hs : g.states[id]? = some s) :
    ∃ s', (outcome (discard (Graph.add name kind).lift : FlowOp Unit) g).2.states[id]? = some s' ∧
      op.Changes g id s s' := by
  refine ⟨s, ?_, .keep op⟩
  rw [outcome_discard, outcome_lift]
  exact Graph.getElem?_add hs

private theorem exists_changes_of_connected {call : GraphOp Unit} {source target : StateId}
    {change : State → Except GraphError State} {op : Operation} (hs : g.states[id]? = some s)
    (hcall : outcome call g = g.connected source target change)
    (hchanges : ∀ s', source = id → change s = .ok s' → op.Changes g id s s') :
    ∃ s', (outcome call.lift g).2.states[id]? = some s' ∧ op.Changes g id s s' := by
  rw [outcome_lift, hcall]
  obtain ⟨s', hs', rfl | ⟨hid, hchange⟩⟩ := Graph.getElem?_connected source target change hs
  · exact ⟨s', hs', .keep op⟩
  · exact ⟨s', hs', hchanges s' hid hchange⟩

private theorem exists_changes_of_addPrefix {start : StateId} {front : String}
    (hs : g.states[id]? = some s) :
    ∃ s', (outcome (Graph.addPrefix start front) g).2.states[id]? = some s' ∧
      (Operation.addPrefix start front).Changes g id s s' := by
  have hout : outcome (Graph.addPrefix start front) g = _ := Graph.outcome_addPrefix
  cases hids : g.reachable start with
  | error e =>
    rw [hids] at hout
    exact ⟨s, by rw [hout, hs], .keep _⟩
  | ok ids =>
    rw [hids] at hout
    dsimp only at hout
    split at hout
    · exact ⟨s, by rw [hout, hs], .keep _⟩
    · have hdone : (outcome (Graph.addPrefix start front) g).1 = .ok () := by rw [hout]
      have hstate : (outcome (Graph.addPrefix start front) g).2.states[id]? =
          some (if id ∈ ids then { s with name := front ++ s.name } else s) := by
        rw [hout, Graph.getElem?_withPrefixed, hs]
        rfl
      by_cases hid : id ∈ ids
      · exact ⟨_, by rw [hstate, if_pos hid], .rename hdone hids hid⟩
      · exact ⟨_, by rw [hstate, if_neg hid], .keep _⟩

/-- After an operation each state is still there, changed as this operation may change it. -/
theorem Operation.exists_changes (op : Operation) (hs : g.states[id]? = some s) :
    ∃ s', (outcome op.perform g).2.states[id]? = some s' ∧ op.Changes g id s s' := by
  cases op with
  | addPass name pass => exact exists_changes_of_add hs
  | addTask name call => exact exists_changes_of_add hs
  | addChoice name => exact exists_changes_of_add hs
  | addFail name failure => exact exists_changes_of_add hs
  | setNext source target =>
    refine exists_changes_of_connected hs Graph.outcome_setNext fun s' hid hchange => ?_
    obtain ⟨hopen, rfl⟩ := State.followedBy_eq_ok_iff.1 hchange
    exact hid ▸ .next hopen
  | chain first second =>
    obtain ⟨ids, hids, hout⟩ := g.exists_withNext_of_chain first second
    rw [perform, outcome_discard, outcome_lift, hout, Graph.getElem?_withNext, hs]
    by_cases hid : id ∈ ids
    · obtain ⟨hend, hopen⟩ := hids id hid
      have hopen : s.isOpen := by simpa [Graph.isOpen, hs] using hopen
      exact ⟨_, by simp [hid], .chain hend hopen⟩
    · exact ⟨s, by simp [hid], .keep _⟩
  | addRule choice condition target =>
    refine exists_changes_of_connected hs Graph.outcome_addRule fun s' hid hchange => ?_
    obtain ⟨rules, otherwise, hkind, rfl⟩ := State.withRule_eq_ok_iff.1 hchange
    exact hid ▸ .rule hkind
  | setOtherwise choice target =>
    refine exists_changes_of_connected hs Graph.outcome_setOtherwise fun s' hid hchange => ?_
    obtain ⟨rules, otherwise, hkind, rfl⟩ := State.withOtherwise_eq_ok_iff.1 hchange
    exact hid ▸ .default hkind
  | addCatcher task handler errors outputs =>
    refine exists_changes_of_connected hs Graph.outcome_addCatcher fun s' hid hchange => ?_
    obtain ⟨call, catchers, hkind, rfl⟩ := State.withCatcher_eq_ok_iff.1 hchange
    exact hid ▸ .catcher hkind
  | addPrefix start front =>
    rw [perform, outcome_lift]
    exact exists_changes_of_addPrefix hs
  | assemble branches =>
    refine ⟨s, ?_, .keep _⟩
    rw [perform, outcome_discard]
    exact Graph.getElem?_assemble hs

namespace Graph

theorem after_append {ops' : List Operation} : g.after (ops ++ ops') = (g.after ops).after ops' :=
  List.foldl_append

theorem after_singleton : g.after [op] = (outcome op.perform g).2 :=
  rfl

/-- Between two points of a run each state grows. -/
theorem exists_growsInto_after (hs : g.states[id]? = some s) (ops : List Operation) :
    ∃ s', (g.after ops).states[id]? = some s' ∧ s.GrowsInto s' := by
  induction ops using List.reverseRecOn with
  | nil => exact ⟨s, hs, .refl s⟩
  | append_singleton ops op ih =>
    obtain ⟨u, hu, hgrows⟩ := ih
    obtain ⟨s', hs', hchanges⟩ := op.exists_changes hu
    refine ⟨s', ?_, hgrows.trans hchanges.growsInto⟩
    rw [after_append, after_singleton, hs']

theorem size_le_size_after (g : Graph) (ops : List Operation) : g.size ≤ (g.after ops).size := by
  cases hsize : g.size with
  | zero => exact Nat.zero_le _
  | succ n =>
    have hlt : n < g.size := hsize ▸ Nat.lt_succ_self n
    obtain ⟨s, hs⟩ := exists_state_of_lt hlt
    obtain ⟨s', hs', -⟩ := exists_growsInto_after hs ops
    exact (List.getElem?_eq_some_iff.1 hs').1

/-- What is different of a state after a run was changed last by one of its operations. -/
theorem exists_last_change {α : Type} {φ : State → α} (hs : g.states[id]? = some s)
    (hs' : (g.after ops).states[id]? = some s') (h : φ s' ≠ φ s) :
    ∃ before op rest u u', ops = before ++ op :: rest ∧ op.Changes (g.after before) id u u' ∧
      φ u' ≠ φ u ∧ φ u' = φ s' := by
  induction ops using List.reverseRecOn generalizing s' with
  | nil =>
    obtain rfl := Option.some.inj (hs.symm.trans hs')
    exact absurd rfl h
  | append_singleton ops op ih =>
    obtain ⟨u, hu, -⟩ := exists_growsInto_after hs ops
    obtain ⟨u', hu', hchanges⟩ := op.exists_changes hu
    rw [after_append, after_singleton, hu'] at hs'
    obtain rfl := Option.some.inj hs'
    by_cases heq : φ u' = φ u
    · obtain ⟨before, op', rest, v, v', rfl, hchanges', hne, hlast⟩ := ih hu (heq ▸ h)
      exact ⟨before, op', rest ++ [op], v, v', by simp, hchanges', hne, hlast.trans heq.symm⟩
    · exact ⟨ops, op, [], u, u', rfl, hchanges, heq, rfl⟩

/-- Between two points of any run the number of states does not fall and each state keeps its kind
and what it carries, its next state once it has one, and the rules, the catchers and the default that
it has; rules and catchers are added at the end. A name that is another one later was changed by
renames that succeeded and reached the state, a default that is another one later by setting it. What
the next operation may do to the state then reached is said by `Changes`: it changes the name only by
putting a text before it. -/
theorem history_only_grows (g : Graph) (later : List Operation) :
    g.size ≤ (g.after later).size ∧
    ∀ id s, g.states[id]? = some s →
      ∃ s', (g.after later).states[id]? = some s' ∧ s.GrowsInto s' ∧
        (s'.name ≠ s.name → ∃ before start front rest ids,
          later = before ++ .addPrefix start front :: rest ∧
          (outcome (addPrefix start front) (g.after before)).1 = .ok () ∧
          (g.after before).reachable start = .ok ids ∧ id ∈ ids) ∧
        (∀ t, s.otherwise = some t → s'.otherwise ≠ some t → ∃ before target rest,
          later = before ++ .setOtherwise id target :: rest ∧ s'.otherwise = some target) ∧
        ∀ op : Operation, ∃ s'', (g.after (later ++ [op])).states[id]? = some s'' ∧
          op.Changes (g.after later) id s' s'' := by
  refine ⟨g.size_le_size_after later, fun id s hs => ?_⟩
  obtain ⟨s', hs', hgrows⟩ := exists_growsInto_after hs later
  refine ⟨s', hs', hgrows, fun hname => ?_, fun t ht hne => ?_, fun op => ?_⟩
  · obtain ⟨before, op, rest, u, u', hlater, hchanges, hne, -⟩ := exists_last_change hs hs' hname
    obtain ⟨start, front, ids, rfl, hdone, hids, hid⟩ := hchanges.exists_rename hne
    exact ⟨before, start, front, rest, ids, hlater, hdone, hids, hid⟩
  · obtain ⟨before, op, rest, u, u', hlater, hchanges, hne, hlast⟩ :=
      exists_last_change hs hs' (ht ▸ hne)
    obtain ⟨target, rfl, htarget⟩ := hchanges.exists_default hne
    exact ⟨before, target, rest, hlater, hlast ▸ htarget⟩
  · rw [after_append]
    exact op.exists_changes hs'

/-- The default of a choice is replaced and a rule added, and a state that does not exist is
refused. -/
theorem history_only_grows_default_replaced :
    let g := empty.after [.addChoice "More?", .addPass "Done" {}, .addFail "Stop" {},
      .addRule 0 .always 1, .setOtherwise 0 1]
    let later : List Operation := [.setOtherwise 0 2, .addRule 0 .never 2, .setNext 1 9]
    let s : State := ⟨"More?", .choice [⟨.always, 1⟩] (some 1), none⟩
    let s' : State := ⟨"More?", .choice [⟨.always, 1⟩, ⟨.never, 2⟩] (some 2), none⟩
    g.states[0]? = some s ∧ (g.after later).states[0]? = some s' ∧ s.GrowsInto s' ∧
      ∃ before target rest, later = before ++ .setOtherwise 0 target :: rest ∧
        s'.otherwise = some target := by
  intro g later s s'
  have hs : g.states[0]? = some s := rfl
  have hs' : (g.after later).states[0]? = some s' := rfl
  obtain ⟨u, hu, hgrows, -, hdefault, -⟩ := (history_only_grows g later).2 0 s hs
  obtain rfl : s' = u := Option.some.inj (hs'.symm.trans hu)
  exact ⟨hs, hs', hgrows, hdefault 1 rfl (by simp [State.otherwise, s'])⟩

end Graph

end LifecycleFlow
