import LifecycleFlow.Proofs.Lists
import LifecycleFlow.Proofs.Runs
import Mathlib.Logic.Equiv.Defs

/-!
# Connecting in another order

Setting a next state, adding a rule, a default or a catcher look at the state that they change and
at the number of states, and change nothing else. So operations on different states do not see each
other. Main statement: in whatever order a list of such operations is carried out, as long as those
on one state keep their order, each answers the same and the same graph comes about.
-/
namespace LifecycleFlow

/-- An operation that connects a state with another one, with its arguments. -/
inductive Connection
  | next (source target : StateId)
  | rule (choice : StateId) (condition : Condition) (target : StateId)
  | otherwise (choice target : StateId)
  | catcher (task handler : StateId) (errors : List String) (outputs : Option Json)

namespace Connection

def perform : Connection → GraphOp Unit
  | next source target => Graph.setNext source target
  | rule choice condition target => Graph.addRule choice condition target
  | otherwise choice target => Graph.setOtherwise choice target
  | catcher task handler errors outputs => Graph.addCatcher task handler errors outputs

def source : Connection → StateId
  | next source _ => source
  | rule choice _ _ => choice
  | otherwise choice _ => choice
  | catcher task _ _ _ => task

def target : Connection → StateId
  | next _ target => target
  | rule _ _ target => target
  | otherwise _ target => target
  | catcher _ handler _ _ => handler

def change : Connection → State → Except GraphError State
  | next _ target => State.followedBy target
  | rule _ condition target => State.withRule condition target
  | otherwise _ target => State.withOtherwise target
  | catcher _ handler errors outputs => State.withCatcher errors outputs handler

theorem outcome_perform (c : Connection) (g : Graph) :
    outcome c.perform g = g.connected c.source c.target c.change := by
  cases c with
  | next source target => exact Graph.outcome_setNext
  | rule choice condition target => exact Graph.outcome_addRule
  | otherwise choice target => exact Graph.outcome_setOtherwise
  | catcher task handler errors outputs => exact Graph.outcome_addCatcher

end Connection

namespace Graph

variable {g g' : Graph} {source target id : StateId} {change : State → Except GraphError State}
  {cs first second : List Connection}

/-- The graph after some connections, each made in what the one before leaves, also if that one was
refused. -/
def connectedBy (g : Graph) (cs : List Connection) : Graph :=
  cs.foldl (fun g c => (outcome c.perform g).2) g

/-- What the connection at a place of a list answers when the list is carried out. -/
def answerAt (g : Graph) (cs : List Connection) (i : Fin cs.length) : Except GraphError Unit :=
  (outcome cs[i].perform (g.connectedBy (cs.take i))).1

structure AgreeAt (id : StateId) (g g' : Graph) : Prop where
  size : g'.size = g.size
  state : g'.states[id]? = g.states[id]?

theorem AgreeAt.trans {g'' : Graph} (h : g.AgreeAt id g') (h' : g'.AgreeAt id g'') :
    g.AgreeAt id g'' :=
  ⟨h'.size.trans h.size, h'.state.trans h.state⟩

/-- What a connection answers, and which state it leaves in the place of its source, is read off the
number of states and the source. -/
theorem connected_eq : g.connected source target change =
    if target < g.size then
      match (g.states[source]?).elim (.error (.unknownState source)) change with
      | .ok s' => (.ok (), g.put source s')
      | .error e => (.error e, g)
    else (.error (.unknownState target), g) := by
  rw [connected]
  by_cases hlt : target < g.size
  · obtain ⟨t, ht⟩ := exists_state_of_lt hlt
    rw [state_eq_ok_iff.2 ht, if_pos hlt, state]
    cases g.states[source]? <;> rfl
  · rw [state, List.getElem?_eq_none (Nat.not_lt.1 hlt), if_neg hlt]

theorem AgreeAt.connected (h : g.AgreeAt source g') :
    (g'.connected source target change).1 = (g.connected source target change).1 ∧
      (g.connected source target change).2.AgreeAt source
        (g'.connected source target change).2 := by
  simp only [connected_eq, h.size, h.state]
  split
  · cases hs : g.states[source]? with
    | none => exact ⟨rfl, h⟩
    | some s =>
      rw [Option.elim_some]
      cases change s with
      | error e => exact ⟨rfl, h⟩
      | ok s' =>
        refine ⟨rfl, by rw [size_put, size_put, h.size], ?_⟩
        rw [getElem?_put hs, getElem?_put (h.state.trans hs)]
        simp
  · exact ⟨rfl, h⟩

theorem agreeAt_connected_of_ne (h : source ≠ id) :
    g.AgreeAt id (g.connected source target change).2 := by
  rcases hout : g.connected source target change with ⟨e | u, g'⟩
  · rw [eq_of_connected_eq_error hout]
    exact ⟨rfl, rfl⟩
  · obtain ⟨-, s, s', hs, -, rfl⟩ := connected_eq_ok_iff.1 hout
    exact ⟨size_put, by rw [getElem?_put hs, if_neg h.symm]⟩

theorem connectedBy_append {cs' : List Connection} :
    g.connectedBy (cs ++ cs') = (g.connectedBy cs).connectedBy cs' :=
  List.foldl_append

theorem connectedBy_singleton {c : Connection} :
    g.connectedBy [c] = (g.connected c.source c.target c.change).2 := by
  rw [← c.outcome_perform]
  rfl

@[simp] theorem names_connectedBy : (g.connectedBy cs).names = g.names := by
  induction cs using List.reverseRecOn with
  | nil => rfl
  | append_singleton cs c ih =>
    rw [connectedBy_append, connectedBy_singleton]
    rcases hout : (g.connectedBy cs).connected c.source c.target c.change with ⟨e | u, g'⟩
    · rw [eq_of_connected_eq_error hout, ih]
    · obtain ⟨-, s, s', -, -, rfl⟩ := connected_eq_ok_iff.1 hout
      exact ih

/-- A state becomes what the connections on it alone make of it. -/
theorem agreeAt_connectedBy_filter (g : Graph) (cs : List Connection) (id : StateId) :
    (g.connectedBy (cs.filter (·.source = id))).AgreeAt id (g.connectedBy cs) := by
  induction cs using List.reverseRecOn with
  | nil => exact ⟨rfl, rfl⟩
  | append_singleton cs c ih =>
    rw [List.filter_append, connectedBy_append, connectedBy_append, connectedBy_singleton]
    by_cases hc : c.source = id
    · subst hc
      rw [List.filter_cons_of_pos (by simp), List.filter_nil, connectedBy_singleton]
      exact ih.connected.2
    · rw [List.filter_cons_of_neg (by simpa using hc), List.filter_nil]
      exact ih.trans (agreeAt_connected_of_ne hc)

theorem answerAt_eq (g : Graph) (cs : List Connection) (i : Fin cs.length) :
    g.answerAt cs i = (outcome cs[i].perform
      (g.connectedBy ((cs.take i).filter (·.source = cs[i].source)))).1 := by
  rw [answerAt, Connection.outcome_perform, Connection.outcome_perform]
  exact (agreeAt_connectedBy_filter g (cs.take i) cs[i].source).connected.1

end Graph

/-- A list is another one in a different order: each connection of the first has its place in the
second, and of two connections on one state the earlier one stays the earlier one. -/
structure Reorders (first second : List Connection)
    (place : Fin first.length ≃ Fin second.length) : Prop where
  same : ∀ i, second[place i] = first[i]
  ordered : ∀ i j, i < j → first[i].source = first[j].source → place i < place j

private theorem filter_take_eq_map (cs : List Connection) (k : Nat) (p : Connection → Bool) :
    (cs.take k).filter p =
      ((List.finRange cs.length).filter fun i => i.val < k ∧ p cs[i]).map (cs[·]) := by
  have hplaces : cs.take k = ((List.finRange cs.length).filter fun i => i.val < k).map (cs[·]) := by
    rw [← List.take_finRange, List.map_take]
    exact congrArg (List.take k) (List.map_getElem_finRange cs).symm
  rw [hplaces, List.filter_map, List.filter_filter]
  simp [Bool.and_comm]

namespace Reorders

variable {first second : List Connection} {place : Fin first.length ≃ Fin second.length}

theorem lt_iff (h : Reorders first second place) {i j : Fin first.length}
    (hsource : first[i].source = first[j].source) : place i < place j ↔ i < j := by
  refine ⟨fun hlt => ?_, fun hlt => h.ordered i j hlt hsource⟩
  rcases lt_trichotomy i j with hij | rfl | hji
  · exact hij
  · exact absurd hlt (lt_irrefl _)
  · exact absurd hlt (h.ordered j i hji hsource.symm).asymm

/-- Connections on one state that are chosen in both lists at the same places are the same, in the
same order. -/
theorem map_filter_eq (h : Reorders first second place) (id : StateId)
    {p : Fin first.length → Bool} {q : Fin second.length → Bool} (hpq : ∀ i, q (place i) = p i)
    (hp : ∀ i, p i → first[i].source = id) :
    ((List.finRange second.length).filter q).map (second[·]) =
      ((List.finRange first.length).filter p).map (first[·]) := by
  have hplaces : (List.finRange second.length).filter q =
      ((List.finRange first.length).filter p).map place := by
    refine List.SortedLT.eq_of_mem_iff ?_ ?_ fun k => ?_
    · exact ((List.sortedLT_finRange _).pairwise.sublist List.filter_sublist).sortedLT
    · refine (List.pairwise_map.2 ?_).sortedLT
      have hsorted := (List.sortedLT_finRange first.length).pairwise.sublist
        (List.filter_sublist (p := p))
      refine hsorted.imp_of_mem fun {i j} hi hj hlt => h.ordered i j hlt ?_
      rw [hp i (List.mem_filter.1 hi).2, hp j (List.mem_filter.1 hj).2]
    · obtain ⟨i, rfl⟩ := place.surjective k
      simp [hpq]
  rw [hplaces, List.map_map]
  exact List.map_congr_left fun i _ => h.same i

theorem filter_eq (h : Reorders first second place) (id : StateId) :
    second.filter (·.source = id) = first.filter (·.source = id) := by
  rw [← second.take_length, ← first.take_length, filter_take_eq_map, filter_take_eq_map]
  refine h.map_filter_eq id (fun i => ?_) (fun i hi => ?_)
  · simp [h.same i]
  · simpa using hi

/-- Before each connection the same ones on its state are made, in the same order. -/
theorem filter_take_eq (h : Reorders first second place) (i : Fin first.length) :
    (second.take (place i)).filter (·.source = first[i].source) =
      (first.take i).filter (·.source = first[i].source) := by
  rw [filter_take_eq_map, filter_take_eq_map]
  refine h.map_filter_eq first[i].source (fun j => ?_) (fun j hj => ?_)
  · rw [h.same j, decide_eq_decide]
    exact and_congr_left fun hsource => h.lt_iff (of_decide_eq_true hsource)
  · simp only [decide_eq_true_eq] at hj
    exact hj.2

end Reorders

/-- Connections are carried out in another order in which those on one state keep their order: each
answers what it answers in the first order, and the same graph comes about. -/
theorem reordered_connections_agree (g : Graph) {first second : List Connection}
    {place : Fin first.length ≃ Fin second.length} (h : Reorders first second place) :
    (∀ i, g.answerAt second (place i) = g.answerAt first i) ∧
      g.connectedBy second = g.connectedBy first := by
  refine ⟨fun i => ?_, Graph.eq_of_getElem? (by simp) fun id => ?_⟩
  · rw [Graph.answerAt_eq, Graph.answerAt_eq, h.same i, h.filter_take_eq i]
  · have hsecond := g.agreeAt_connectedBy_filter second id
    have hfirst := g.agreeAt_connectedBy_filter first id
    rw [h.filter_eq id] at hsecond
    rw [hsecond.state, hfirst.state]

/-- Two states are connected by turns, and each refuses its second connection: the first one because
it is followed already, the other one because there is no such target. -/
theorem reordered_connections_agree_by_turns :
    let g := Graph.empty.after [.addPass "Tag" {}, .addChoice "More?", .addPass "Done" {}]
    let first : List Connection :=
      [.next 0 2, .rule 1 .always 0, .next 0 1, .otherwise 1 9]
    let second : List Connection :=
      [.rule 1 .always 0, .next 0 2, .otherwise 1 9, .next 0 1]
    let place : Fin first.length ≃ Fin second.length :=
      (Equiv.swap (0 : Fin 4) 1).trans (Equiv.swap 2 3)
    Reorders first second place ∧ g.answerAt first 2 = .error (.alreadyHasNext "Tag") ∧
      (∀ i, g.answerAt second (place i) = g.answerAt first i) ∧
      g.connectedBy second = g.connectedBy first := by
  intro g first second place
  have hreorders : Reorders first second place := by
    refine ⟨fun i => ?_, ?_⟩
    · match i with
      | 0 => rfl
      | 1 => rfl
      | 2 => rfl
      | 3 => rfl
    · decide
  exact ⟨hreorders, rfl, reordered_connections_agree g hreorders⟩

end LifecycleFlow
