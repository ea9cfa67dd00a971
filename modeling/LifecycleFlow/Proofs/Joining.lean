import LifecycleFlow.Proofs.Building

/-!
# What joining handlers does

Once all steps are built, each handler that names a state is continued with it. This succeeds
exactly if all states named exist, and then leaves the states of the layout with these exits.
-/
namespace LifecycleFlow

open LifecycleFlow.Graph

/-- The state that a handler names exists. -/
def Handler.Joinable (exits : String → Option StateId) (h : Handler) : Prop :=
  ∀ name, h.target = some name → (exits name).isSome

def Step.Joinable (exits : String → Option StateId) (s : Step) : Prop :=
  ∀ h ∈ s.handlers, h.Joinable exits

/-- A graph with the given states, in which the given function finds names. -/
structure Graph.Joins (g : Graph) (exits : String → Option StateId) (L : List State) : Prop where
  holds : g.Holds L
  find? : ∀ name, g.find? name = exits name

variable {g : Graph} {P S : List State} {exits : String → Option StateId} {n target : StateId}

theorem Graph.Joins.lt_length {L : List State} {name : String} (h : g.Joins exits L)
    (hname : exits name = some target) : target < L.length := by
  rw [← h.find? name, h.holds.wellFormed.indexed name target] at hname
  exact h.holds.size ▸ hname.lt_size

theorem decides_forM_append {α : Type} {f : α → FlowOp PUnit} {a b : List α} {good good' : Prop}
    {post post' : PUnit → Graph → Prop} (h : Decides (a.forM f) g good post)
    (h' : ∀ g', post ⟨⟩ g' → Decides (b.forM f) g' good' post') :
    Decides ((a ++ b).forM f) g (good ∧ good') post' := by
  simp only [List.forM_eq_forM, List.forM_append] at h h' ⊢
  exact h.bind fun _ g' _ hp => h' g' hp

/-- The states of steps end with those of the last step, which alone has ends, and only these states
differ with what follows. -/
theorem Step.exists_last (exits : String → Option StateId) (l : List Step) (n : StateId)
    {s : Step} (h : l.getLast? = some s) :
    ∃ A, Step.endsOf n l = s.ends (n + A.length) ∧
      ∀ last, Step.statesOf exits n last l = A ++ s.states exits (n + A.length) last := by
  induction l generalizing n with
  | nil => simp at h
  | cons t rest ih =>
    cases rest with
    | nil =>
      obtain rfl : t = s := by simpa using h
      exact ⟨[], by simp [Step.endsOf], fun last => by simp [Step.statesOf]⟩
    | cons u r =>
      obtain ⟨A, hends, hstates⟩ := ih (n + t.all.length) (by simpa using h)
      refine ⟨t.states exits n (some (n + t.all.length)) ++ A, ?_, fun last => ?_⟩
      · rw [Step.endsOf]
        simp [hends, Nat.add_assoc]
      · rw [Step.statesOf, hstates last]
        simp [Nat.add_assoc]

/-- Steps that do not end with a fail have one end, which is all that differs with what follows. -/
theorem Step.exists_end (exits : String → Option StateId) (l : List Step) (n : StateId)
    (h : ∃ s, l.getLast? = some s ∧ s.isFail = false) :
    ∃ A name kind B, kind.isNextable = true ∧ Step.endsOf n l = [n + A.length] ∧
      ∀ last, Step.statesOf exits n last l = A ++ ⟨name, kind, last⟩ :: B := by
  obtain ⟨s, hs, hfail⟩ := h
  obtain ⟨A, hends, hstates⟩ := Step.exists_last exits l n hs
  refine ⟨A, s.name, s.kind (n + A.length), Handler.statesOf exits (n + A.length + 1) s.handlers,
    by simp [hfail], by simp [hends, Step.ends, hfail], fun last => ?_⟩
  rw [hstates, Step.states_eq]

/-- A join of a handler with one end continues this end with the state named. -/
theorem Join.connect_decides {A B : List State} {name : String} {kind : StateKind} (j : Join)
    (hends : j.handler.ends = [A.length]) (hnext : kind.isNextable = true)
    (h : g.Joins exits (A ++ ⟨name, kind, none⟩ :: B)) :
    Decides j.connect g (exits j.target).isSome fun _ g' =>
      g'.Joins exits (A ++ ⟨name, kind, exits j.target⟩ :: B) := by
  rw [Join.connect]
  refine decides_bind_of_outcome (outcome_get g) ?_
  rw [h.find? j.target, hends]
  cases htarget : exits j.target with
  | none => exact decides_throw (by simp) (.inl ⟨_, rfl⟩)
  | some t =>
    have hopen : State.isOpen ⟨name, kind, none⟩ := by simp [State.isOpen, State.isNextable, hnext]
    obtain ⟨hout, hholds⟩ := h.holds.connected State.connects_followedBy
      (State.followedBy_eq_ok_iff.2 ⟨hopen, rfl⟩) (h.lt_length htarget)
    have hset : outcome (GraphOp.lift (Graph.setNext A.length t)) g =
        (.ok (), g.put A.length ⟨name, kind, some t⟩) := by
      rw [outcome_lift, outcome_setNext, hout]
      rfl
    simp only [List.forM_eq_forM, List.forM_cons, List.forM_nil]
    refine decides_bind_of_outcome hset (decides_pure rfl ⟨hholds, ?_⟩)
    exact fun n => h.find? n

theorem Handler.joinOwn_decides {steps : List Step} {next : Option String} (hn : P.length = n)
    (hsound : (⟨steps, next⟩ : Sequence).Sound)
    (h : g.Joins exits (P ++ (Step.statesOf exits n none steps ++ S))) :
    Decides ((next.map (⟨⟨n, Step.endsOf n steps⟩, ·⟩)).toList.forM Join.connect) g
      (∀ name, next = some name → (exits name).isSome) fun _ g' =>
        g'.Joins exits (P ++ (Step.statesOf exits n (next.bind exits) steps ++ S)) := by
  subst hn
  cases next with
  | none => exact decides_pure (by simp) h
  | some name =>
    obtain ⟨A, last, kind, B, hnext, hends, hstates⟩ :=
      Step.exists_end exits steps P.length (hsound.continued rfl)
    have hplaced (next : Option StateId) : P ++ (Step.statesOf exits P.length next steps ++ S) =
        (P ++ A) ++ ⟨last, kind, next⟩ :: (B ++ S) := by
      rw [hstates]
      simp
    rw [hplaced] at h
    have hjoin := Join.connect_decides ⟨⟨P.length, Step.endsOf P.length steps⟩, name⟩
      (by simp [hends]) hnext h
    simp only [Option.map_some, Option.toList_some, List.forM_eq_forM, List.forM_cons,
      List.forM_nil, Option.bind_some, Option.some.injEq, forall_eq', hplaced]
    exact hjoin.bind_pure fun _ _ _ hp => hp

mutual

theorem Step.join_decides (s : Step) {g : Graph} {P S : List State} {n : Nat}
    (next : Option StateId) (hn : P.length = n) (hsound : ∀ t ∈ s.all, t.Sound)
    (h : g.Joins exits (P ++ (s.states noExits n next ++ S))) :
    Decides ((s.joins n).forM Join.connect) g (∀ t ∈ s.all, t.Joinable exits)
      fun _ g' => g'.Joins exits (P ++ (s.states exits n next ++ S)) := by
  match s with
  | .pass name p =>
    refine decides_pure ?_ h
    simp [Step.all, Step.Joinable, Step.handlers]
  | .fail name f =>
    refine decides_pure ?_ h
    simp [Step.all, Step.Joinable, Step.handlers]
  | .task name call handlers =>
    have hall : ∀ t ∈ Handler.allOf handlers, t.Sound := fun t ht =>
      hsound t (by simp [Step.all, ht])
    have hown : ∀ x ∈ handlers, x.sequence.Sound := hsound (.task name call handlers) (by simp)
    have hlength : (P ++ [(⟨name, .task call (Handler.catchersOf (n + 1) handlers), next⟩ :
      State)]).length = n + 1 := by simp [hn]
    rw [Step.states, List.cons_append, List.append_cons] at h
    have hjoins := Handler.join_decides handlers hlength hown hall h
    rw [Step.joins, Step.states, List.cons_append, List.append_cons]
    refine hjoins.congr ?_ fun _ _ _ hp => hp
    simp [Step.all, Step.Joinable, Step.handlers]

theorem Handler.join_decides (hs : List Handler) {g : Graph} {P S : List State} {n : Nat}
    (hn : P.length = n) (hown : ∀ x ∈ hs, x.sequence.Sound)
    (hsound : ∀ t ∈ Handler.allOf hs, t.Sound)
    (h : g.Joins exits (P ++ (Handler.statesOf noExits n hs ++ S))) :
    Decides ((Handler.joinsOf n hs).forM Join.connect) g
      ((∀ x ∈ hs, x.Joinable exits) ∧ ∀ t ∈ Handler.allOf hs, t.Joinable exits)
      fun _ g' => g'.Joins exits (P ++ (Handler.statesOf exits n hs ++ S)) := by
  match hs with
  | [] =>
    rw [Handler.statesOf] at h
    rw [Handler.joinsOf, Handler.statesOf]
    exact decides_pure (by simp [Handler.allOf]) h
  | .mk errors outputs steps target :: rest =>
    rw [Handler.allOf, List.forall_mem_append] at hsound
    rw [Handler.statesOf, bind_noExits, List.append_assoc] at h
    rw [Handler.joinsOf, Handler.statesOf]
    have hfirst : (⟨steps, target⟩ : Sequence).Sound := hown _ List.mem_cons_self
    have hinner := Step.joinAll_decides steps none hn hsound.1 h
    have hlength : (P ++ Step.statesOf exits n (target.bind exits) steps).length =
        n + (Step.allOf steps).length := by simp [hn]
    have hrest : ∀ g' : Graph, g'.Joins exits
        (P ++ (Step.statesOf exits n (target.bind exits) steps ++
        (Handler.statesOf noExits (n + (Step.allOf steps).length) rest ++ S))) →
        Decides ((Handler.joinsOf (n + (Step.allOf steps).length) rest).forM Join.connect) g'
          ((∀ x ∈ rest, x.Joinable exits) ∧ ∀ t ∈ Handler.allOf rest, t.Joinable exits)
          fun _ g' => g'.Joins exits (P ++ (Step.statesOf exits n (target.bind exits) steps ++
            (Handler.statesOf exits (n + (Step.allOf steps).length) rest ++ S))) := by
      intro g' h'
      rw [← List.append_assoc] at h' ⊢
      exact Handler.join_decides rest hlength (fun x hx => hown x (List.mem_cons_of_mem _ hx))
        hsound.2 h'
    refine (decides_forM_append (decides_forM_append hinner fun g' h' =>
      Handler.joinOwn_decides hn hfirst h') hrest).congr ?_ fun _ _ _ hp => ?_
    · rw [Handler.allOf, List.forall_mem_append, List.forall_mem_cons]
      have hjoinable : (Handler.mk errors outputs steps target).Joinable exits ↔
        ∀ name, target = some name → (exits name).isSome := Iff.rfl
      rw [hjoinable]
      tauto
    · rwa [List.append_assoc]

theorem Step.joinAll_decides (l : List Step) {g : Graph} {P S : List State} {n : Nat}
    (last : Option StateId) (hn : P.length = n) (hsound : ∀ t ∈ Step.allOf l, t.Sound)
    (h : g.Joins exits (P ++ (Step.statesOf noExits n last l ++ S))) :
    Decides ((Step.joinsOf n l).forM Join.connect) g (∀ t ∈ Step.allOf l, t.Joinable exits)
      fun _ g' => g'.Joins exits (P ++ (Step.statesOf exits n last l ++ S)) := by
  match l with
  | [] =>
    rw [Step.statesOf] at h
    rw [Step.joinsOf, Step.statesOf]
    exact decides_pure (by simp [Step.allOf]) h
  | s :: rest =>
    rw [Step.allOf, List.forall_mem_append] at hsound
    rw [Step.statesOf, List.append_assoc] at h
    rw [Step.joinsOf, Step.statesOf, List.append_assoc, Step.allOf, List.forall_mem_append]
    have hall := decides_forM_append (Step.join_decides s _ hn hsound.1 h) fun g' h' => by
      rw [← List.append_assoc] at h'
      exact Step.joinAll_decides rest last (by simp [hn]) hsound.2 h'
    refine hall.congr Iff.rfl fun _ _ _ hp => ?_
    rwa [List.append_assoc] at hp

end

end LifecycleFlow
