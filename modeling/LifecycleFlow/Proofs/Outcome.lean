import LifecycleFlow.Dispatch

/-!
# Outcomes of operations

What an operation answers on a graph, and the graph that it leaves. The outcome of a composed
operation follows from the outcomes of its parts; an operation that only looks leaves the graph as
it was.
-/
namespace LifecycleFlow

variable {ε α β : Type}

/-- The answer of an operation on a graph, with the graph that it leaves. -/
def outcome (op : ExceptT ε (StateM Graph) α) (g : Graph) : Except ε α × Graph :=
  op.run.run g

@[simp] theorem outcome_pure (a : α) (g : Graph) :
    outcome (pure a : ExceptT ε (StateM Graph) α) g = (.ok a, g) := rfl

@[simp] theorem outcome_throw (e : ε) (g : Graph) :
    outcome (throw e : ExceptT ε (StateM Graph) α) g = (.error e, g) := rfl

@[simp] theorem outcome_get (g : Graph) :
    outcome (get : ExceptT ε (StateM Graph) Graph) g = (.ok g, g) := rfl

@[simp] theorem outcome_set (g g' : Graph) :
    outcome (set g' : ExceptT ε (StateM Graph) PUnit) g = (.ok ⟨⟩, g') := rfl

@[simp] theorem outcome_check (r : Except ε α) (g : Graph) :
    outcome (liftM r : ExceptT ε (StateM Graph) α) g = (r, g) := rfl

theorem outcome_bind (x : ExceptT ε (StateM Graph) α) (f : α → ExceptT ε (StateM Graph) β)
    (g : Graph) :
    outcome (x >>= f) g =
      match outcome x g with
      | (.ok a, g') => outcome (f a) g'
      | (.error e, g') => (.error e, g') := by
  simp only [outcome, ExceptT.run_bind, StateT.run_bind]
  rcases h : StateT.run x.run g with ⟨e | a, g'⟩ <;> rfl

theorem outcome_bind_ok {x : ExceptT ε (StateM Graph) α} {g g' : Graph} {a : α}
    (h : outcome x g = (.ok a, g')) (f : α → ExceptT ε (StateM Graph) β) :
    outcome (x >>= f) g = outcome (f a) g' := by
  rw [outcome_bind, h]

theorem outcome_bind_error {x : ExceptT ε (StateM Graph) α} {g g' : Graph} {e : ε}
    (h : outcome x g = (.error e, g')) (f : α → ExceptT ε (StateM Graph) β) :
    outcome (x >>= f) g = (.error e, g') := by
  rw [outcome_bind, h]

@[simp] theorem outcome_map (f : α → β) (x : ExceptT ε (StateM Graph) α) (g : Graph) :
    outcome (f <$> x) g = ((outcome x g).1.map f, (outcome x g).2) := by
  rw [map_eq_pure_bind, outcome_bind]
  rcases outcome x g with ⟨e | a, g'⟩ <;> rfl

@[simp] theorem outcome_discard (x : ExceptT ε (StateM Graph) α) (g : Graph) :
    outcome (discard x) g = ((outcome x g).1.map fun _ => ⟨⟩, (outcome x g).2) :=
  outcome_map (fun _ => PUnit.unit) x g

@[simp] theorem outcome_lift (op : GraphOp α) (g : Graph) :
    outcome op.lift g = ((outcome op g).1.mapError .graph, (outcome op g).2) := by
  simp only [outcome, GraphOp.lift, ExceptT.run_mk, StateT.run_bind]
  rcases h : StateT.run op.run g with ⟨e | a, g'⟩ <;> rfl

/-- An operation that repeats a check for each element leaves the graph as it was. -/
theorem outcome_forM_check {f : α → ExceptT ε (StateM Graph) PUnit} {c : α → Except ε PUnit}
    (h : ∀ a g, outcome (f a) g = (c a, g)) (l : List α) (g : Graph) :
    outcome (l.forM f) g = (l.forM c, g) := by
  induction l with
  | nil => rfl
  | cons a r ih =>
    simp only [List.forM_eq_forM, List.forM_cons] at ih ⊢
    rw [outcome_bind, h]
    cases c a with
    | ok u => exact ih
    | error e => rfl

variable {P : Graph → Prop} {x : ExceptT ε (StateM Graph) α}

/-- An operation keeps a property of graphs, whether it succeeds or not. -/
def Preserves (P : Graph → Prop) (op : ExceptT ε (StateM Graph) α) : Prop :=
  ∀ g, P g → P (outcome op g).2

theorem preserves_pure (a : α) : Preserves P (pure a : ExceptT ε (StateM Graph) α) :=
  fun _ hg => hg

theorem preserves_throw (e : ε) : Preserves P (throw e : ExceptT ε (StateM Graph) α) :=
  fun _ hg => hg

theorem preserves_check (r : Except ε α) : Preserves P (liftM r : ExceptT ε (StateM Graph) α) :=
  fun _ hg => hg

theorem preserves_get : Preserves P (get : ExceptT ε (StateM Graph) Graph) :=
  fun _ hg => hg

theorem preserves_bind {f : α → ExceptT ε (StateM Graph) β} (hx : Preserves P x)
    (hf : ∀ a, Preserves P (f a)) : Preserves P (x >>= f) := by
  intro g hg
  have hstep := hx g hg
  rw [outcome_bind]
  rcases h : outcome x g with ⟨e | a, g'⟩
  · rwa [h] at hstep
  · rw [h] at hstep
    exact hf a g' hstep

theorem preserves_map {f : α → β} (hx : Preserves P x) : Preserves P (f <$> x) := by
  intro g hg
  rw [outcome_map]
  exact hx g hg

theorem preserves_discard (hx : Preserves P x) : Preserves P (discard x) :=
  preserves_map hx

theorem preserves_lift {op : GraphOp α} (h : Preserves P op) : Preserves P op.lift := by
  intro g hg
  rw [outcome_lift]
  exact h g hg

theorem preserves_forM {f : α → ExceptT ε (StateM Graph) PUnit} (h : ∀ a, Preserves P (f a))
    (l : List α) : Preserves P (l.forM f) := by
  induction l with
  | nil => exact preserves_pure _
  | cons a r ih =>
    simp only [List.forM_eq_forM, List.forM_cons] at ih ⊢
    exact preserves_bind (h a) fun _ => ih

variable {g : Graph}

/-- If an operation fails on a graph, then it leaves the graph as it was. -/
def FailsCleanly (op : ExceptT ε (StateM Graph) α) (g : Graph) : Prop :=
  ∀ e g', outcome op g = (.error e, g') → g' = g

theorem FailsCleanly.discard (h : FailsCleanly x g) :
    FailsCleanly (Functor.discard x) g := by
  intro e g' hout
  rw [outcome_discard] at hout
  rcases hop : outcome x g with ⟨e' | a, g''⟩
  · rw [hop] at hout
    obtain rfl : g'' = g' := congrArg Prod.snd hout
    exact h e' g'' hop
  · rw [hop] at hout
    cases hout

theorem FailsCleanly.lift {op : GraphOp α} (h : FailsCleanly op g) : FailsCleanly op.lift g := by
  intro e g' hout
  rw [outcome_lift] at hout
  rcases hop : outcome op g with ⟨e' | a, g''⟩
  · rw [hop] at hout
    obtain rfl : g'' = g' := congrArg Prod.snd hout
    exact h e' g'' hop
  · rw [hop] at hout
    cases hout

end LifecycleFlow
