import LifecycleFlow.Proofs.Continuation
import Mathlib.Data.List.ReduceOption

/-!
# Sessions

A caller holds graphs, and the fragments that these graphs have handed out to it. It may ask a graph
for a fragment, or perform an operation that takes fragments out of those handed out. Main
statement: no fragment handed out names an end twice. So every operation of a session that fails,
chaining included, leaves its graph as it was; an operation other than chaining does so whatever it
is given.
-/
namespace LifecycleFlow

variable {g : Graph} {f : Fragment}

def Operation.continuedEnds : Operation → List StateId
  | chain first _ => first.ends
  | _ => []

/-- An operation fails cleanly unless it would continue an end twice. -/
theorem Operation.failsCleanly (op : Operation) (h : op.continuedEnds.Nodup) :
    FailsCleanly op.perform g := by
  cases op with
  | addPass name pass => exact Graph.add_failsCleanly.lift.discard
  | addTask name call => exact Graph.add_failsCleanly.lift.discard
  | addChoice name => exact Graph.add_failsCleanly.lift.discard
  | addFail name failure => exact Graph.add_failsCleanly.lift.discard
  | setNext source target => exact (Graph.failsCleanly_of_connected Graph.outcome_setNext).lift
  | chain first second =>
    have hchain : FailsCleanly (Graph.chain first second) g := Graph.allOrNothing_of_nodup h
    exact hchain.lift.discard
  | addRule choice condition target =>
    exact (Graph.failsCleanly_of_connected Graph.outcome_addRule).lift
  | setOtherwise choice target =>
    exact (Graph.failsCleanly_of_connected Graph.outcome_setOtherwise).lift
  | addCatcher task handler errors outputs =>
    exact (Graph.failsCleanly_of_connected Graph.outcome_addCatcher).lift
  | addPrefix start front => exact Graph.addPrefix_failsCleanly.lift
  | assemble branches => exact Flow.assemble_failsCleanly.discard

/-- The fragments that a workflow hands out: itself and its branches. -/
def Flow.fragments (flow : Flow) : List Fragment :=
  flow.fragment :: RequestType.all.map flow.branch

namespace Operation

def fragments : Operation → List Fragment
  | chain first second => [first, second]
  | assemble b => [b.onCreate, b.onUpdate, b.onDelete].reduceOption
  | _ => []

/-- The fragments that an operation hands out if it succeeds. -/
def returned (op : Operation) (g : Graph) : List Fragment :=
  match op with
  | chain first second => (outcome (Graph.chain first second) g).1.toOption.toList
  | assemble b => (outcome (Flow.assemble b) g).1.toOption.toList.flatMap Flow.fragments
  | _ => []

end Operation

theorem Graph.nodup_of_fragment {id : StateId} (h : g.fragment id = .ok f) : f.ends.Nodup := by
  rw [fragment] at h
  cases hs : g.state id with
  | error e =>
    rw [hs] at h
    cases h
  | ok s =>
    simp only [hs, bind, Except.bind] at h
    split at h
    · cases h
      exact List.nodup_singleton id
    · cases h
      exact List.nodup_singleton id
    · cases h
      exact List.nodup_nil
    · rw [reachableEnds] at h
      cases hr : g.reachable id with
      | error e => simp [hr, Except.map] at h
      | ok ids =>
        simp only [hr, Except.map, pure, Except.pure, Except.ok.injEq] at h
        exact h ▸ (nodup_of_reachable hr).filter g.isOpen

theorem Graph.ends_of_chain {first second : Fragment} {g' : Graph}
    (h : outcome (Graph.chain first second) g = (.ok f, g')) : f.ends = second.ends := by
  obtain ⟨-, rfl, -⟩ := chain_eq_ok_iff.1 h
  rfl

namespace Flow

theorem nodup_appendNew {l : List StateId} (h : l.Nodup) (ids : List StateId) :
    (appendNew l ids).Nodup := by
  induction ids generalizing l with
  | nil => exact h
  | cons id r ih =>
    refine ih ?_
    by_cases hid : id ∈ l
    · simpa [hid] using h
    · simpa [hid] using List.nodup_append_comm.1 (List.nodup_cons.2 ⟨hid, h⟩)

theorem nodup_branchOr {o : Option Fragment} (h : ∀ f ∈ o, f.ends.Nodup) :
    (branchOr g o).ends.Nodup := by
  cases o with
  | some f => exact h f rfl
  | none => exact List.nodup_singleton g.size

/-- A workflow hands out no end twice if none of its branches does. -/
theorem nodup_of_mem_fragments {b : Branches}
    (h : ∀ f ∈ (Operation.assemble b).fragments, f.ends.Nodup) :
    ∀ f ∈ (assembledFlow b g).fragments, f.ends.Nodup := by
  have hgiven (o : Option Fragment) (ho : o ∈ [b.onCreate, b.onUpdate, b.onDelete]) :
      ∀ f ∈ o, f.ends.Nodup := fun f hf => h f (List.reduceOption_mem_iff.2 (hf ▸ ho))
  have hcreate : (assembledFlow b g).onCreate.ends.Nodup := by
    refine nodup_branchOr fun f hf => ?_
    rcases Option.or_eq_some_iff.1 hf with hf | ⟨-, hf⟩
    · exact hgiven b.onCreate (by simp) f hf
    · exact hgiven b.onUpdate (by simp) f hf
  have hupdate : (assembledFlow b g).onUpdate.ends.Nodup :=
    nodup_branchOr (hgiven b.onUpdate (by simp))
  have hdelete : (assembledFlow b g).onDelete.ends.Nodup :=
    nodup_branchOr (hgiven b.onDelete (by simp))
  have hends : (assembledFlow b g).ends.Nodup :=
    nodup_appendNew (nodup_appendNew (nodup_appendNew List.nodup_nil _) _) _
  intro f hf
  simp only [fragments, RequestType.all, List.map_cons, List.map_nil, List.mem_cons,
    List.not_mem_nil, or_false] at hf
  rcases hf with rfl | rfl | rfl | rfl
  · exact hends
  · exact hcreate
  · exact hupdate
  · exact hdelete

end Flow

/-- What an operation hands out names no end twice if what it takes does not. -/
theorem Operation.nodup_of_mem_returned {op : Operation} (h : ∀ f ∈ op.fragments, f.ends.Nodup) :
    ∀ f ∈ op.returned g, f.ends.Nodup := by
  intro f hf
  cases op with
  | chain first second =>
    rcases hout : outcome (Graph.chain first second) g with ⟨e | f', g'⟩
    · simp [returned, hout, Except.toOption] at hf
    · simp only [returned, hout, Except.toOption, Option.toList_some, List.mem_singleton] at hf
      rw [hf, Graph.ends_of_chain hout]
      exact h second (by simp [fragments])
  | assemble b =>
    rcases hout : outcome (Flow.assemble b) g with ⟨e | flow, g'⟩
    · simp [returned, hout, Except.toOption] at hf
    · simp only [returned, hout, Except.toOption, Option.toList_some, List.flatMap_singleton] at hf
      rw [(Flow.eq_of_assemble_eq_ok hout).1] at hf
      exact Flow.nodup_of_mem_fragments h f hf
  | _ => cases hf

structure Session where
  graphs : List Graph
  fragments : List Fragment

/-- What a caller does next; its graphs are numbered in the order in which it came by them. -/
inductive Call
  | create
  | copy (graph : Nat)
  | fragment (graph : Nat) (id : StateId)
  | perform (graph : Nat) (op : Operation)

namespace Session

/-- An operation may be performed on any graph of a session with any fragments handed out in it. -/
def Admits (s : Session) (op : Operation) : Prop :=
  ∀ f ∈ op.fragments, f ∈ s.fragments

instance (s : Session) (op : Operation) : Decidable (s.Admits op) :=
  inferInstanceAs (Decidable (∀ f ∈ op.fragments, f ∈ s.fragments))

/-- The session after a call. What it does not admit is not performed in it. -/
def call (s : Session) : Call → Session
  | .create => { s with graphs := s.graphs ++ [Graph.empty] }
  | .copy i => { s with graphs := s.graphs ++ s.graphs[i]?.toList }
  | .fragment i id =>
    let answered := s.graphs[i]?.bind fun g => (g.fragment id).toOption
    { s with fragments := s.fragments ++ answered.toList }
  | .perform i op =>
    match s.graphs[i]? with
    | some g =>
      if s.Admits op then
        ⟨s.graphs.set i (outcome op.perform g).2, s.fragments ++ op.returned g⟩
      else s
    | none => s

def after (calls : List Call) : Session :=
  calls.foldl call ⟨[], []⟩

def Distinct (s : Session) : Prop :=
  ∀ f ∈ s.fragments, f.ends.Nodup

variable {s : Session}

theorem Distinct.append {handedOut : List Fragment} {graphs : List Graph} (hs : s.Distinct)
    (h : ∀ f ∈ handedOut, f.ends.Nodup) : (⟨graphs, s.fragments ++ handedOut⟩ : Session).Distinct :=
  fun f hf => (List.mem_append.1 hf).elim (hs f) (h f)

theorem Distinct.call (hs : s.Distinct) (c : Call) : (s.call c).Distinct := by
  cases c with
  | create => exact hs
  | copy i => exact hs
  | fragment i id =>
    refine hs.append fun f hf => ?_
    obtain ⟨g, -, hg⟩ := Option.bind_eq_some_iff.1 (Option.mem_toList.1 hf)
    cases hanswer : g.fragment id with
    | error e => simp [hanswer, Except.toOption] at hg
    | ok f' =>
      obtain rfl : f' = f := by simpa [hanswer, Except.toOption] using hg
      exact Graph.nodup_of_fragment hanswer
  | perform i op =>
    rw [Session.call]
    split
    · split
      · rename_i hadmits
        exact hs.append (Operation.nodup_of_mem_returned fun f hf => hs f (hadmits f hf))
      · exact hs
    · exact hs

theorem Distinct.foldl_call (hs : s.Distinct) (calls : List Call) :
    (calls.foldl Session.call s).Distinct := by
  induction calls generalizing s with
  | nil => exact hs
  | cons c r ih => exact ih (hs.call c)

/-- After any calls: no fragment handed out names an end twice; an operation that the session admits
and that fails on one of its graphs leaves this graph as it was; and so does an operation other than
chaining on any graph, whatever it is given. -/
theorem failed_operation_leaves_graph (calls : List Call) :
    (∀ f ∈ (after calls).fragments, f.ends.Nodup) ∧
    (∀ g ∈ (after calls).graphs, ∀ op, (after calls).Admits op → FailsCleanly op.perform g) ∧
    ∀ op : Operation, (∀ first second, op ≠ .chain first second) →
      ∀ g, FailsCleanly op.perform g := by
  have hdistinct : (after calls).Distinct := Distinct.foldl_call (by simp [Distinct]) calls
  refine ⟨hdistinct, fun g _ op hadmits => op.failsCleanly ?_, fun op hop g => op.failsCleanly ?_⟩
  · cases op with
    | chain first second => exact hdistinct first (hadmits first (by simp [Operation.fragments]))
    | _ => exact List.nodup_nil
  · cases op with
    | chain first second => exact absurd rfl (hop first second)
    | _ => exact List.nodup_nil

/-- One fragment was chained to another: to do it again is admitted and fails, and so does adding
one of the states again. -/
theorem failed_operation_leaves_graph_repeated :
    let s := after [.create, .perform 0 (.addPass "First" {}), .perform 0 (.addPass "Last" {}),
      .fragment 0 0, .fragment 0 1, .perform 0 (.chain ⟨0, [0]⟩ ⟨1, [1]⟩)]
    let again : Operation := .chain ⟨0, [0]⟩ ⟨1, [1]⟩
    s.Admits again ∧ ∃ g ∈ s.graphs,
      outcome again.perform g = (.error (.graph (.alreadyHasNext "First")), g) ∧
      outcome (Operation.addPass "Last" {}).perform g =
        (.error (.graph (.duplicateStateName "Last")), g) := by
  intro s again
  have hadmits : s.Admits again := by decide +kernel
  have hfails : ∃ g ∈ s.graphs,
      (outcome again.perform g).1 = .error (.graph (.alreadyHasNext "First")) ∧
      (outcome (Operation.addPass "Last" {}).perform g).1 =
        .error (.graph (.duplicateStateName "Last")) := by
    decide +kernel
  obtain ⟨g, hg, hagain, hadd⟩ := hfails
  obtain ⟨-, hadmitted, hother⟩ := failed_operation_leaves_graph
    [.create, .perform 0 (.addPass "First" {}), .perform 0 (.addPass "Last" {}),
      .fragment 0 0, .fragment 0 1, .perform 0 (.chain ⟨0, [0]⟩ ⟨1, [1]⟩)]
  refine ⟨hadmits, g, hg, Prod.ext hagain ?_, Prod.ext hadd ?_⟩
  · exact hadmitted g hg again hadmits _ _ (Prod.ext hagain rfl)
  · exact hother (.addPass "Last" {}) nofun g _ _ (Prod.ext hadd rfl)

end Session

end LifecycleFlow
