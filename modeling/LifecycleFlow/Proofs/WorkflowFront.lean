import LifecycleFlow.Proofs.Routing

/-!
# The front of a workflow

What assembling a workflow answers for whatever branches, in a graph in which names may be taken and
branches may name states that do not exist. The checks come in a fixed order, and the first one that
fails is reported. Main statement: exactly when each error is reported, and that without an error
the front is added after the states of the graph: a state for each branch that is missing, the
choice between the branches, and the first state.
-/
namespace LifecycleFlow

namespace Graph

end Graph

namespace Flow

variable {g g' : Graph} {b : Branches} {flow : Flow} {name : String} {id : StateId}

/-- Appending what is new keeps the first occurrence of each element. -/
theorem appendNew_eraseDups (l ids : List StateId) :
    appendNew l.eraseDups ids = (l ++ ids).eraseDups := by
  induction ids generalizing l with
  | nil => simp [appendNew]
  | cons id r ih =>
    have hfirst : (if l.eraseDups.contains id then l.eraseDups else l.eraseDups ++ [id]) =
        (l ++ [id]).eraseDups := by
      rw [List.eraseDups_append]
      by_cases hid : id ∈ l <;> simp [hid, List.cons_removeAll, List.eraseDups_cons]
    rw [List.append_cons, ← ih (l ++ [id]), ← hfirst]
    rfl

theorem foldl_appendNew (fragments : List Fragment) (l : List StateId) :
    fragments.foldl (fun l f => appendNew l f.ends) l.eraseDups =
      (l ++ fragments.flatMap Fragment.ends).eraseDups := by
  induction fragments generalizing l with
  | nil => simp
  | cons f r ih =>
    rw [List.foldl_cons, appendNew_eraseDups, ih, List.flatMap_cons, List.append_assoc]

/-- A workflow stands in a graph as assembled from its branches in another graph. The states that
are missing come first, in the order of the requests, then the choice and the first state; each
branch is the given one or the state in its place; the ends are those of the branches, each one
where it first occurs. -/
structure AssembledFrom (b : Branches) (g : Graph) (flow : Flow) (g' : Graph) : Prop where
  states : g'.states = g.states ++ ((idleTypes b).map fun t => ⟨t.text, .pass {}, none⟩) ++
    [⟨"Which Request Type?", .choice flow.rules none, none⟩,
      ⟨"Initialize", .pass entryPass, some flow.dispatch⟩]
  indexed : g'.Indexed
  dispatch : flow.dispatch = g.size + (idleTypes b).length
  entry : flow.entry = flow.dispatch + 1
  given : ∀ t f, b.given t = some f → flow.branch t = f
  idle : ∀ i t, (idleTypes b)[i]? = some t → flow.branch t = ⟨g.size + i, [g.size + i]⟩
  ends : flow.ends = (RequestType.all.flatMap fun t => (flow.branch t).ends).eraseDups

theorem branch_of_idle {t : RequestType} {i : Nat} (h : (idleTypes b)[i]? = some t) :
    (assembledFlow b g).branch t = ⟨g.size + i, [g.size + i]⟩ := by
  rcases b with ⟨_ | c, _ | u, _ | e⟩ <;> rcases i with _ | _ | _ | i <;>
    simp [idleTypes, RequestType.all, Branches.given] at h <;> subst h <;>
    simp [assembledFlow, branch, branchOr, withIdle]

theorem ends_assembledFlow : (assembledFlow b g).ends =
    (RequestType.all.flatMap fun t => ((assembledFlow b g).branch t).ends).eraseDups := by
  have hends : (assembledFlow b g).ends = _ := foldl_appendNew
    [(assembledFlow b g).onCreate, (assembledFlow b g).onUpdate, (assembledFlow b g).onDelete] []
  rw [hends]
  simp [RequestType.all, branch]

theorem assembledFrom (hg : g.WellFormed)
    (h : outcome (assemble b) g = (.ok flow, g')) : AssembledFrom b g flow g' := by
  have hkept : g'.WellFormed := by
    have hkeeps := preserves_assemble (b := b) g hg
    rwa [h] at hkeeps
  obtain ⟨rfl, rfl⟩ := eq_of_assemble_eq_ok h
  refine ⟨?_, hkept.indexed, ?_, rfl, fun t f => (branch_assembledFlow t).1 f,
    fun i t => branch_of_idle, ends_assembledFlow⟩
  · rw [states_assembledGraph, states_withIdles]
    rfl
  · show (withIdles b g).states.length = _
    rw [states_withIdles, List.length_append, List.length_map]
    rfl

/-- A branch that starts nowhere is looked at after the names, and of these "Update" is asked for
before "Delete". -/
example : (outcome (assemble { onCreate := some ⟨7, []⟩ })
      (Graph.empty.after [.addPass "Delete" {}, .addPass "Update" {}])).1 =
    .error (.graph (.duplicateStateName "Update")) := by
  decide +kernel

end Flow

end LifecycleFlow
