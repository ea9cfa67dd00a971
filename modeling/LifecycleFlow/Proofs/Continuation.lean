import LifecycleFlow.Proofs.Runs

/-!
# When a fragment can be continued

A chain continues every end of its first fragment with the start of its second one. Main statements:
it succeeds exactly if there is an end, the second fragment starts in the graph, and the ends are
distinct pass and task states without a next state; it then sets the next state of these ends and
changes nothing else. The ends are looked at one by one before the first of them is continued, so
that a chain that fails has changed nothing, unless all ends may be continued and one of them is
named twice.
-/
namespace LifecycleFlow

theorem StateKind.isNextable_iff {kind : StateKind} : kind.isNextable ↔
    (∃ pass, kind = .pass pass) ∨ ∃ call catchers, kind = .task call catchers := by
  cases kind <;> simp [isNextable]

namespace Graph

variable {g : Graph} {ids : List StateId} {id target : StateId}

def OpenAt (g : Graph) (id : StateId) : Prop :=
  ∃ s, g.states[id]? = some s ∧
    ((∃ pass, s.kind = .pass pass) ∨ ∃ call catchers, s.kind = .task call catchers) ∧
    s.next = none

theorem isOpen_iff_openAt : g.isOpen id ↔ g.OpenAt id := by
  rw [isOpen_iff]
  refine exists_congr fun s => and_congr_right fun _ => ?_
  rw [State.isOpen, Bool.and_eq_true, State.isNextable, StateKind.isNextable_iff,
    Option.isNone_iff_eq_none]

/-- The second graph differs from the first one in nothing but the next state of some states, which
is the target. -/
structure Continued (g g' : Graph) (ids : List StateId) (target : StateId) : Prop where
  names : g'.names = g.names
  size : g'.size = g.size
  next : ∀ id ∈ ids, ∀ s, g.states[id]? = some s →
    g'.states[id]? = some { s with next := some target }
  others : ∀ id, id ∉ ids → g'.states[id]? = g.states[id]?

theorem continued_withNext : g.Continued (g.withNext ids target) ids target where
  names := rfl
  size := size_withNext
  next id hid s hs := by simp [getElem?_withNext, hs, hid]
  others id hid := by simp [getElem?_withNext, hid]

/-- On every graph, whatever the fragments: a chain succeeds exactly if the first fragment has an
end, the second one starts in the graph, and the ends are distinct pass or task states of the graph
without a next state. It then answers the first start with the second ends, and sets the next state
of the first ends, and nothing else. Without an end it refuses in the name of the first start, or
reports this start if it does not exist. -/
theorem chain_continues_distinct_open_ends (g : Graph) (first second : Fragment) :
    ((∃ f g', outcome (chain first second) g = (.ok f, g')) ↔
      first.ends ≠ [] ∧ second.start < g.size ∧ first.ends.Nodup ∧
        ∀ id ∈ first.ends, g.OpenAt id) ∧
    (∀ f g', outcome (chain first second) g = (.ok f, g') →
      f = ⟨first.start, second.ends⟩ ∧ g.Continued g' first.ends second.start) ∧
    (first.ends = [] →
      (∀ s, g.states[first.start]? = some s →
        outcome (chain first second) g = (.error (.notNextable s.name), g)) ∧
      (g.states[first.start]? = none →
        outcome (chain first second) g = (.error (.unknownState first.start), g))) := by
  refine ⟨?_, fun f g' hout => ?_, fun hends => ⟨fun s hs => ?_, fun hnone => ?_⟩⟩
  · simp only [exists_chain_eq_ok_iff, isOpen_iff_openAt]
  · obtain ⟨-, rfl, rfl⟩ := chain_eq_ok_iff.1 hout
    exact ⟨rfl, continued_withNext⟩
  · rw [outcome_chain, if_pos hends, state_eq_ok_iff.2 hs]
    rfl
  · rw [outcome_chain, if_pos hends, state, hnone]
    rfl

/-- A fragment may be continued with itself: its ends then lead back to its start. -/
example :
    let g := empty.after [.addPass "Try" {}, .addPass "Wait" {}, .setNext 0 1]
    (outcome (chain ⟨0, [1]⟩ ⟨0, [1]⟩) g).1 = .ok ⟨0, [1]⟩ ∧
      (outcome (chain ⟨0, [1]⟩ ⟨0, [1]⟩) g).2.states.map State.next = [some 1, some 0] := by
  decide +kernel

end Graph

namespace Graph

variable {g : Graph} {first second : Fragment}

/-- A failed chain of fragments leaves the graph as it was. -/
def AllOrNothing (g : Graph) (first second : Fragment) : Prop :=
  ∀ e g', outcome (chain first second) g = (.error e, g') → g' = g

theorem allOrNothing_of_nodup (hnodup : first.ends.Nodup) : g.AllOrNothing first second := by
  intro e g' h
  by_cases hends : first.ends = []
  · rw [outcome_chain, if_pos hends] at h
    exact (congrArg Prod.snd h).symm
  · cases hcheck : g.checkChain first second with
    | ok u =>
      rw [outcome_chain_of_nodup hends hcheck hnodup] at h
      cases h
    | error e' =>
      rw [outcome_chain_of_refused hends hcheck] at h
      exact (congrArg Prod.snd h).symm

theorem allOrNothing_of_refused (h : ¬ (second.start < g.size ∧ ∀ id ∈ first.ends, g.isOpen id)) :
    g.AllOrNothing first second := by
  intro e g' hout
  cases hcheck : g.checkChain first second with
  | ok u => exact absurd (checkChain_eq_ok_iff.1 hcheck) h
  | error e' =>
    by_cases hends : first.ends = []
    · rw [outcome_chain, if_pos hends] at hout
      exact (congrArg Prod.snd hout).symm
    · rw [outcome_chain_of_refused hends hcheck] at hout
      exact (congrArg Prod.snd hout).symm

theorem not_allOrNothing_of_repeated (ht : second.start < g.size)
    (hopen : ∀ id ∈ first.ends, g.isOpen id) (hdup : ¬ first.ends.Nodup) :
    ¬ g.AllOrNothing first second := by
  intro hall
  obtain ⟨done, id, rest, hends, hdone, hmem⟩ := List.exists_repeated hdup
  have hcheck : g.checkChain first second = .ok () := checkChain_eq_ok_iff.2 ⟨ht, hopen⟩
  obtain ⟨name, hout⟩ := outcome_chain_of_repeated hcheck hends hdone hmem
  have hsame : g.withNext done second.start = g := hall _ _ hout
  have hid : g.isOpen id := hopen id (by simp [hends])
  rw [← hsame, isOpen_withNext] at hid
  exact hid.2 hmem

/-- A failed chain leaves the graph as it was if the ends are distinct, if the second fragment
starts nowhere, or if an end may not be continued; and in no other case. -/
theorem chain_allOrNothing_iff (g : Graph) (first second : Fragment) :
    g.AllOrNothing first second ↔
      first.ends.Nodup ∨ g.size ≤ second.start ∨ ∃ id ∈ first.ends, ¬ g.isOpen id := by
  constructor
  · intro hall
    by_contra hnone
    have hdup : ¬ first.ends.Nodup := fun h => hnone (.inl h)
    have ht : second.start < g.size := Nat.lt_of_not_le fun h => hnone (.inr (.inl h))
    have hopen : ∀ id ∈ first.ends, g.isOpen id := fun id hid =>
      by_contra fun h => hnone (.inr (.inr ⟨id, hid, h⟩))
    exact not_allOrNothing_of_repeated ht hopen hdup hall
  · rintro (hnodup | hle | ⟨id, hid, hclosed⟩)
    · exact allOrNothing_of_nodup hnodup
    · exact allOrNothing_of_refused fun h => Nat.not_lt.2 hle h.1
    · exact allOrNothing_of_refused fun h => hclosed (h.2 id hid)

/-- The first of two fresh states, given twice as an end: the chain answers that the state is
already followed by another one, and it is the chain itself that has set it. -/
theorem chain_of_repeated_end_not_allOrNothing :
    let g := empty.after [.addPass "A" {}, .addPass "B" {}]
    (outcome (chain ⟨0, [0, 0]⟩ ⟨1, [1]⟩) g).1 = .error (.alreadyHasNext "A") ∧
      (outcome (chain ⟨0, [0, 0]⟩ ⟨1, [1]⟩) g).2.states.map State.next = [some 1, none] ∧
      g.states.map State.next = [none, none] ∧
      ¬ g.AllOrNothing ⟨0, [0, 0]⟩ ⟨1, [1]⟩ := by
  refine ⟨rfl, rfl, rfl, fun hall => ?_⟩
  have hsame := congrArg (fun g => g.states.map State.next) (hall (.alreadyHasNext "A") _ rfl)
  revert hsame
  decide +kernel

end Graph

end LifecycleFlow
