import LifecycleFlow.Proofs.Chaining

/-!
# Operations that decide a condition

An operation decides a condition on a graph if it succeeds exactly when the condition holds, then
with an answer and a graph of a stated kind, and otherwise refuses its input: never because a state
is unknown or cannot be connected. Operations in sequence decide the conjunction of what they
decide. The operations that build a graph are described by the list of its states.
-/
namespace LifecycleFlow

/-- The errors that tell an author what is wrong with a definition. -/
def FlowError.IsRefusal (e : FlowError) : Prop :=
  (∃ c, e = .configuration c) ∨ ∃ name, e = .graph (.duplicateStateName name)

/-- An operation succeeds exactly under a condition, and else refuses. -/
def Decides {α : Type} (op : FlowOp α) (g : Graph) (good : Prop) (post : α → Graph → Prop) : Prop :=
  (∃ a g', outcome op g = (.ok a, g') ∧ good ∧ post a g') ∨
    ∃ e g', outcome op g = (.error e, g') ∧ ¬ good ∧ e.IsRefusal

variable {α β : Type} {op : FlowOp α} {g g' : Graph} {good good' : Prop} {a : α}
  {post post' : α → Graph → Prop}

theorem decides_of_outcome (h : outcome op g = (.ok a, g')) (hgood : good) (hpost : post a g') :
    Decides op g good post :=
  .inl ⟨a, g', h, hgood, hpost⟩

theorem decides_pure (hgood : good) (hpost : post a g) :
    Decides (pure a : FlowOp α) g good post :=
  decides_of_outcome (outcome_pure a g) hgood hpost

theorem decides_throw {e : FlowError} (hbad : ¬ good) (he : e.IsRefusal) :
    Decides (throw e : FlowOp α) g good post :=
  .inr ⟨e, g, outcome_throw e g, hbad, he⟩

theorem Decides.of_ok (h : Decides op g good post) (hout : outcome op g = (.ok a, g')) :
    good ∧ post a g' := by
  rcases h with ⟨b, g'', hout', hgood, hpost⟩ | ⟨e, g'', hout', -, -⟩
  · rw [hout] at hout'
    cases hout'
    exact ⟨hgood, hpost⟩
  · rw [hout] at hout'
    cases hout'

theorem Decides.of_error {e : FlowError} (h : Decides op g good post)
    (hout : outcome op g = (.error e, g')) : ¬ good ∧ e.IsRefusal := by
  rcases h with ⟨b, g'', hout', -, -⟩ | ⟨e', g'', hout', hbad, he⟩
  · rw [hout] at hout'
    cases hout'
  · rw [hout] at hout'
    cases hout'
    exact ⟨hbad, he⟩

theorem Decides.exists_ok (h : Decides op g good post) (hgood : good) :
    ∃ a g', outcome op g = (.ok a, g') ∧ post a g' := by
  rcases h with ⟨a, g', hout, -, hpost⟩ | ⟨e, g', -, hbad, -⟩
  · exact ⟨a, g', hout, hpost⟩
  · exact absurd hgood hbad

theorem Decides.congr (h : Decides op g good post) (hgood : good ↔ good')
    (hpost : ∀ a g', good → post a g' → post' a g') : Decides op g good' post' := by
  rcases h with ⟨a, g', hout, hg, hp⟩ | ⟨e, g', hout, hg, he⟩
  · exact .inl ⟨a, g', hout, hgood.1 hg, hpost a g' hg hp⟩
  · exact .inr ⟨e, g', hout, fun h => hg (hgood.2 h), he⟩

theorem Decides.bind {f : α → FlowOp β} {post' : β → Graph → Prop} (h : Decides op g good post)
    (hf : ∀ a g', good → post a g' → Decides (f a) g' good' post') :
    Decides (op >>= f) g (good ∧ good') post' := by
  rcases h with ⟨a, g', hout, hg, hp⟩ | ⟨e, g', hout, hg, he⟩
  · rcases hf a g' hg hp with ⟨b, g'', hout', hg', hp'⟩ | ⟨e, g'', hout', hg', he⟩
    · exact .inl ⟨b, g'', (outcome_bind_ok hout f).trans hout', ⟨hg, hg'⟩, hp'⟩
    · exact .inr ⟨e, g'', (outcome_bind_ok hout f).trans hout', fun h => hg' h.2, he⟩
  · exact .inr ⟨e, g', outcome_bind_error hout f, fun h => hg h.1, he⟩

theorem decides_iff (good : Prop) (hgood : good ↔ good') (h : Decides op g good post) :
    Decides op g good' post :=
  h.congr hgood fun _ _ _ hp => hp

/-- Answering with a function of the answer decides nothing. -/
theorem Decides.bind_pure {f : α → β} {post' : β → Graph → Prop} (h : Decides op g good post)
    (hf : ∀ a g', good → post a g' → post' (f a) g') :
    Decides (op >>= fun a => pure (f a)) g good post' :=
  decides_iff (good ∧ True) (by rw [and_true])
    (h.bind fun a g' hg hp => decides_pure trivial (hf a g' hg hp))

/-- A first part that always succeeds decides nothing. -/
theorem decides_bind_of_outcome {f : α → FlowOp β} {post' : β → Graph → Prop}
    (h : outcome op g = (.ok a, g')) (hf : Decides (f a) g' good post') :
    Decides (op >>= f) g good post' := by
  rw [Decides]
  rw [outcome_bind_ok h]
  exact hf

namespace Graph

variable {L P S : List State} {s t : State} {name : String} {id target : StateId}

/-- A well-formed graph with the given states. -/
structure Holds (g : Graph) (L : List State) : Prop where
  wellFormed : g.WellFormed
  states : g.states = L

theorem Holds.size (h : g.Holds L) : g.size = L.length :=
  congrArg List.length h.states

theorem Holds.getElem? (h : g.Holds (P ++ s :: S)) : g.states[P.length]? = some s := by
  rw [h.states]
  simp

theorem Holds.nodup_names (h : g.Holds L) : (L.map State.name).Nodup :=
  h.states ▸ h.wellFormed.indexed.nodup_names

theorem Holds.isAvailable_iff (h : g.Holds L) : g.isAvailable name ↔ name ∉ L.map State.name := by
  rw [h.wellFormed.indexed.isAvailable_iff_notMem, h.states]

theorem Holds.add {kind : StateKind} (h : g.Holds L) (hk : kind.targets = []) :
    Decides (GraphOp.lift (Graph.add name kind)) g (name ∉ L.map State.name)
      fun id g' => id = L.length ∧ g'.Holds (L ++ [⟨name, kind, none⟩]) := by
  have hkeeps : (outcome (Graph.add name kind) g).2.WellFormed :=
    preserves_add hk g h.wellFormed
  rw [← h.isAvailable_iff]
  by_cases hfree : g.isAvailable name
  · have hout : outcome (Graph.add name kind) g = (.ok g.size, g.push ⟨name, kind, none⟩) := by
      rw [outcome_add, if_pos hfree]
    rw [hout] at hkeeps
    refine .inl ⟨g.size, _, ?_, hfree, h.size, hkeeps, ?_⟩
    · rw [outcome_lift, hout]
      rfl
    · rw [states_push, h.states]
  · refine .inr ⟨.graph (.duplicateStateName name), g, ?_, hfree, .inr ⟨name, rfl⟩⟩
    rw [outcome_lift, outcome_add, if_neg hfree]
    rfl

theorem Holds.put (h : g.Holds (P ++ s :: S)) (hkeeps : (g.put P.length t).WellFormed) :
    (g.put P.length t).Holds (P ++ t :: S) := by
  refine ⟨hkeeps, ?_⟩
  rw [states_put, h.states]
  simp

/-- Connecting a state in the list changes this one state. -/
theorem Holds.connected {change : State → Except GraphError State} (h : g.Holds (P ++ s :: S))
    (hc : State.Connects target change) (hs : change s = .ok t)
    (ht : target < (P ++ s :: S).length) :
    g.connected P.length target change = (.ok (), g.put P.length t) ∧
      (g.put P.length t).Holds (P ++ t :: S) := by
  have hout : g.connected P.length target change = (.ok (), g.put P.length t) :=
    connected_eq_ok_iff.2 ⟨h.size ▸ ht, s, t, h.getElem?, hs, rfl⟩
  have hkeeps : (g.connected P.length target change).2.WellFormed := h.wellFormed.connected hc
  rw [hout] at hkeeps
  exact ⟨hout, h.put hkeeps⟩

end Graph

end LifecycleFlow
