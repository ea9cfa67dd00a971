import LifecycleFlow.Proofs.Decision
import LifecycleFlow.Proofs.Layout

/-!
# What building steps does

Building steps on a graph succeeds exactly if their handlers can be run and their names are new, and
then adds the states of their layout, no handler being joined yet.
-/
namespace LifecycleFlow

open LifecycleFlow.Graph

/-- No handler is joined. -/
def noExits : String → Option StateId :=
  fun _ => none

theorem bind_noExits (target : Option String) : target.bind noExits = none := by
  cases target <;> rfl

/-- The state of a task that is not followed by a state yet. -/
def taskState (name : String) (call : ServiceCall) (catchers : List Catcher) : State :=
  ⟨name, .task call catchers, none⟩

/-- Steps that can be added where some names are in use. -/
def Addable (used : List String) (steps : List Step) : Prop :=
  (∀ s ∈ steps, s.Sound) ∧ (used ++ steps.map Step.name).Nodup

variable {g : Graph} {L P S : List State} {used : List String} {a b : List Step} {s : Step}
  {id base : StateId} {next : Option StateId}

theorem Addable.nil_iff (h : used.Nodup) : Addable used [] ↔ True := by
  simp [Addable, h]

theorem addable_append : Addable used (a ++ b) ↔
    Addable used a ∧ Addable (used ++ a.map Step.name) b := by
  simp only [Addable, List.forall_mem_append, List.map_append, List.append_assoc]
  constructor
  · rintro ⟨⟨ha, hb⟩, hn⟩
    refine ⟨⟨ha, ?_⟩, hb, hn⟩
    rw [← List.append_assoc] at hn
    exact hn.of_append_left
  · rintro ⟨⟨ha, -⟩, hb, hn⟩
    exact ⟨⟨ha, hb⟩, hn⟩

theorem addable_singleton (h : used.Nodup) : Addable used [s] ↔ s.name ∉ used ∧ s.Sound := by
  have hn : (used ++ [s.name]).Nodup ↔ s.name ∉ used := by
    rw [List.nodup_append]
    simp only [h, List.nodup_singleton, List.mem_singleton, true_and]
    exact ⟨fun hne hmem => hne _ hmem _ rfl rfl, fun hnew x hx y hy hxy => hnew (hy ▸ hxy ▸ hx)⟩
  simp only [Addable, List.mem_singleton, forall_eq, List.map_cons, List.map_nil, hn]
  exact and_comm

theorem outcome_addCatcher_taskState {name : String} {call : ServiceCall} {done : List Catcher}
    {handler : StateId} (errors : List String) (outputs : Option Json)
    (h : g.Holds (P ++ taskState name call done :: S))
    (ht : handler < (P ++ taskState name call done :: S).length) :
    ∃ g', outcome (GraphOp.lift (addCatcher P.length handler errors outputs)) g = (.ok (), g') ∧
      g'.Holds (P ++ taskState name call (done ++ [⟨errors, handler, outputs⟩]) :: S) := by
  have hconnects : State.Connects handler (State.withCatcher errors outputs handler) :=
    State.connects_withCatcher
  obtain ⟨hout, hholds⟩ := h.connected hconnects rfl ht
  refine ⟨_, ?_, hholds⟩
  rw [outcome_lift, outcome_addCatcher, hout]
  rfl

namespace Step

/-- A step without handlers is built to a single state. -/
theorem leaf_decides (s : Step) (hs : s.handlers = [])
    (hkind : (s.kind L.length).targets = []) (h : g.Holds L) :
    Decides (do return (← GraphOp.lift (Graph.add s.name (s.kind L.length)), [])) g
      (Addable (L.map State.name) s.all) fun r g' =>
        r = (L.length, s.joins L.length) ∧ g'.Holds (L ++ s.states noExits L.length none) := by
  have hsound : s.Sound := by simp [Sound, hs]
  rw [all_eq, joins_eq, states_eq, hs, Handler.allOf, Handler.joinsOf, Handler.statesOf,
    addable_singleton h.nodup_names]
  refine decides_iff (s.name ∉ L.map State.name) (by simp [hsound]) ?_
  refine (h.add hkind).bind_pure fun id g' _ hp => ?_
  obtain ⟨rfl, h'⟩ := hp
  exact ⟨rfl, h'⟩

theorem fragment_eq (h : g.states[id]? = some ⟨s.name, s.kind base, next⟩) :
    g.fragment id = .ok ⟨id, s.ends id⟩ := by
  rw [Graph.fragment]
  rw [state_eq_ok_iff.2 h]
  cases s <;> rfl

private theorem outcome_attach (before : Option Fragment) {f f' : Fragment} {g' : Graph}
    (hf : g.fragment id = .ok f)
    (h : outcome (match before with | some b => Graph.chain b f | none => pure f) g =
      (.ok f', g')) :
    outcome (GraphOp.lift do
      let f ← (← get).fragment id
      match before with
      | some b => Graph.chain b f
      | none => pure f) g = (.ok f', g') := by
  have hop : outcome (do
      let f ← (← get).fragment id
      match before with
      | some b => Graph.chain b f
      | none => pure f : GraphOp Fragment) g = (.ok f', g') := by
    rw [outcome_bind_ok (outcome_get g), outcome_bind_ok (outcome_check _ g |>.trans (by rw [hf]))]
    exact h
  rw [outcome_lift, hop]
  rfl

/-- A step that is not a fail, built already, is followed by another state. -/
theorem outcome_chain_step {T : List State} {n : Nat} (start target : StateId)
    (ends : List StateId) (hn : P.length = n) (h : g.Holds (P ++ s.states noExits n none ++ T))
    (hs : s.isFail = false) (ht : target < (P ++ s.states noExits n none ++ T).length) :
    ∃ g', outcome (Graph.chain ⟨start, s.ends n⟩ ⟨target, ends⟩) g = (.ok ⟨start, ends⟩, g') ∧
      g'.Holds (P ++ s.states noExits n (some target) ++ T) := by
  subst hn
  have hends : s.ends P.length = [P.length] := by simp [Step.ends, hs]
  have hopen : State.isOpen ⟨s.name, s.kind P.length, none⟩ := by
    simp [State.isOpen, State.isNextable, hs]
  rw [states_eq, List.append_assoc, List.cons_append] at h ht
  have hlookup := h.getElem?
  obtain ⟨-, hholds⟩ := h.connected State.connects_followedBy
    (State.followedBy_eq_ok_iff.2 ⟨hopen, rfl⟩) ht
  rw [← withNext_singleton hlookup] at hholds
  refine ⟨_, outcome_chain_of_nodup (by simp [hends]) ?_ (by simp [hends]), ?_⟩
  · refine checkChain_eq_ok_iff.2 ⟨h.size ▸ ht, fun id hid => ?_⟩
    simp only [hends, List.mem_singleton] at hid
    subst hid
    exact isOpen_iff.2 ⟨_, hlookup, hopen⟩
  · rw [states_eq, List.append_assoc, List.cons_append, hends]
    exact hholds

theorem requireRunnable_decides {label : String} {steps : List Step} :
    Decides (require (requireRunnable label steps)) g
      (steps ≠ [] ∧ ∀ s ∈ steps.dropLast, s.isFail = false) fun _ g' => g' = g := by
  have hrefuse (e : ConfigurationError) : FlowError.IsRefusal (.configuration e) := .inl ⟨e, rfl⟩
  rw [requireRunnable]
  cases hempty : steps.isEmpty with
  | true =>
    refine decides_throw (fun h => ?_) (hrefuse _)
    exact h.1 (List.isEmpty_iff.1 hempty)
  | false =>
    have hne : steps ≠ [] := by simpa using hempty
    cases hfind : steps.dropLast.find? isFail with
    | some s =>
      refine decides_throw (fun h => ?_) (hrefuse _)
      have hs := List.find?_some hfind
      rw [h.2 s (List.mem_of_find?_eq_some hfind)] at hs
      cases hs
    | none =>
      refine decides_pure ⟨hne, fun s hs => ?_⟩ rfl
      simpa using List.find?_eq_none.1 hfind s hs

theorem joinOf_decides {label : String} {handler : Fragment} {target : Option String} :
    Decides (joinOf label handler target) g (target.isSome → handler.ends ≠ [])
      fun joins g' => joins = (target.map (⟨handler, ·⟩)).toList ∧ g' = g := by
  cases target with
  | none => exact decides_pure (by simp) ⟨rfl, rfl⟩
  | some n =>
    unfold joinOf
    dsimp only
    cases h : handler.ends.isEmpty with
    | true =>
      have hends : handler.ends = [] := List.isEmpty_iff.1 h
      exact decides_throw (fun hne => hne rfl hends) (.inl ⟨_, rfl⟩)
    | false =>
      have hends : handler.ends ≠ [] := by simpa using h
      exact decides_pure (fun _ => hends) ⟨rfl, rfl⟩

private theorem endsOf_eq_nil_iff (n : StateId) {l : List Step} (hne : l ≠ []) :
    endsOf n l = [] ↔ ¬ ∃ s, l.getLast? = some s ∧ s.isFail = false := by
  induction l generalizing n with
  | nil => exact absurd rfl hne
  | cons s r ih =>
    cases r with
    | nil => cases h : s.isFail <;> simp [endsOf, ends, h]
    | cons t r =>
      rw [endsOf]
      simpa using ih (n + s.all.length) (by simp)

/-- A handler can be run if its steps can and, where it is to be continued, have an end. -/
theorem sound_iff (n : StateId) {l : List Step} {target : Option String} :
    (⟨l, target⟩ : Sequence).Sound ↔
      (l ≠ [] ∧ ∀ s ∈ l.dropLast, s.isFail = false) ∧ (target.isSome → endsOf n l ≠ []) := by
  constructor
  · rintro ⟨hne, hlast, hcont⟩
    exact ⟨⟨hne, hlast⟩, fun h hnil => (endsOf_eq_nil_iff n hne).1 hnil (hcont h)⟩
  · rintro ⟨⟨hne, hlast⟩, hends⟩
    exact ⟨hne, hlast, fun h => not_not.1 fun hnone => hends h ((endsOf_eq_nil_iff n hne).2 hnone)⟩

end Step

mutual

theorem Step.build_decides (s : Step) {g : Graph} {L : List State} (h : g.Holds L) :
    Decides s.build g (Addable (L.map State.name) s.all) fun r g' =>
      r = (L.length, s.joins L.length) ∧ g'.Holds (L ++ s.states noExits L.length none) := by
  match s with
  | .pass name p =>
    rw [Step.build]
    exact Step.leaf_decides (.pass name p) rfl rfl h
  | .fail name f =>
    rw [Step.build]
    exact Step.leaf_decides (.fail name f) rfl rfl h
  | .task name call handlers =>
    refine decides_iff (name ∉ L.map State.name ∧ (∀ x ∈ handlers, x.sequence.Sound) ∧
      Addable (L.map State.name ++ [name]) (Handler.allOf handlers)) ?_ ?_
    · have hall : (Step.task name call handlers).all =
          [.task name call handlers] ++ Handler.allOf handlers := by simp [Step.all]
      rw [hall, addable_append, addable_singleton h.nodup_names]
      simp only [Step.name, Step.Sound, Step.handlers, List.map_cons, List.map_nil, and_assoc]
    · rw [Step.build]
      refine (h.add rfl).bind fun id g' _ hp => ?_
      obtain ⟨rfl, h'⟩ := hp
      have hhandlers := Handler.build_decides handlers name 0 h' rfl
      simp only [List.map_append, List.map_cons, List.map_nil] at hhandlers
      refine hhandlers.bind_pure fun joins g'' _ hp => ?_
      obtain ⟨rfl, h''⟩ := hp
      simp only [List.length_append, List.length_cons, List.length_nil, List.nil_append] at h''
      simp only [Step.states, Step.joins, List.length_append, List.length_cons, List.length_nil]
      exact ⟨trivial, h''⟩

theorem Handler.build_decides (hs : List Handler) {g : Graph} {P S : List State} {name : String}
    {call : ServiceCall} {done : List Catcher} {n : Nat} (task : String) (index : Nat)
    (h : g.Holds (P ++ taskState name call done :: S))
    (hn : (P ++ taskState name call done :: S).length = n) :
    Decides (Step.buildHandlers task P.length index hs) g
      ((∀ x ∈ hs, x.sequence.Sound) ∧
        Addable ((P ++ taskState name call done :: S).map State.name) (Handler.allOf hs))
      fun r g' => r = Handler.joinsOf n hs ∧
        g'.Holds (P ++ taskState name call (done ++ Handler.catchersOf n hs) ::
          (S ++ Handler.statesOf noExits n hs)) := by
  have hused := h.nodup_names
  match hs with
  | [] =>
    rw [Step.buildHandlers]
    refine decides_pure ⟨by simp, ?_⟩ ⟨by rw [Handler.joinsOf], ?_⟩
    · rw [Handler.allOf, Addable.nil_iff hused]
      trivial
    · simpa [Handler.catchersOf, Handler.statesOf] using h
  | .mk errors outputs steps target :: rest =>
    refine decides_iff ((steps ≠ [] ∧ ∀ s ∈ steps.dropLast, s.isFail = false) ∧
      Addable ((P ++ taskState name call done :: S).map State.name) (Step.allOf steps) ∧
      (target.isSome → Step.endsOf n steps ≠ []) ∧
      (∀ x ∈ rest, x.sequence.Sound) ∧
      Addable ((P ++ taskState name call done :: S).map State.name ++
        (Step.allOf steps).map Step.name) (Handler.allOf rest)) ?_ ?_
    · have hsound : (Handler.mk errors outputs steps target).sequence.Sound ↔ _ := Step.sound_iff n
      rw [Handler.allOf, addable_append, List.forall_mem_cons, hsound]
      tauto
    · rw [Step.buildHandlers]
      refine Step.requireRunnable_decides.bind fun _ g' hrun hg => ?_
      subst hg
      refine (Step.buildChain_decides steps h hrun.1 hrun.2).bind fun r g₁ _ hp => ?_
      obtain ⟨rfl, h₁⟩ := hp
      rw [hn, List.append_assoc, List.cons_append] at h₁
      have hlt : n < (P ++ taskState name call done ::
          (S ++ Step.statesOf noExits n none steps)).length := by
        have hpos := Step.length_allOf_pos hrun.1
        simp only [List.length_append, List.length_cons, Step.length_statesOf] at hn ⊢
        omega
      obtain ⟨g₂, hout, h₂⟩ := outcome_addCatcher_taskState errors outputs h₁ hlt
      have hnext : (P ++ taskState name call (done ++ [⟨errors, n, outputs⟩]) ::
          (S ++ Step.statesOf noExits n none steps)).length = n + (Step.allOf steps).length := by
        simp only [List.length_append, List.length_cons, Step.length_statesOf] at hn ⊢
        omega
      have hnames : (P ++ taskState name call (done ++ [⟨errors, n, outputs⟩]) ::
          (S ++ Step.statesOf noExits n none steps)).map State.name =
          (P ++ taskState name call done :: S).map State.name ++
            (Step.allOf steps).map Step.name := by
        simp [taskState, Step.names_statesOf]
      have hrest := Handler.build_decides rest task (index + 1) h₂ hnext
      rw [hnames] at hrest
      dsimp only
      rw [hn]
      refine decides_bind_of_outcome (outcome_pure _ _) ?_
      refine decides_bind_of_outcome hout ?_
      refine Step.joinOf_decides.bind fun joins g₃ _ hp => ?_
      obtain ⟨rfl, rfl⟩ := hp
      refine hrest.bind_pure fun later g₄ _ hp => ?_
      obtain ⟨rfl, h₄⟩ := hp
      rw [List.append_assoc, List.append_assoc, List.singleton_append] at h₄
      rw [Handler.joinsOf, Handler.catchersOf, Handler.statesOf, bind_noExits]
      exact ⟨rfl, h₄⟩

theorem Step.buildChain_decides (steps : List Step) {g : Graph} {L : List State} (h : g.Holds L)
    (hne : steps ≠ []) (hlast : ∀ s ∈ steps.dropLast, s.isFail = false) :
    Decides (Step.buildChain none steps) g (Addable (L.map State.name) (Step.allOf steps))
      fun r g' => r = (some ⟨L.length, Step.endsOf L.length steps⟩, Step.joinsOf L.length steps) ∧
        g'.Holds (L ++ Step.statesOf noExits L.length none steps) := by
  match steps with
  | [] => exact absurd rfl hne
  | s :: rest =>
    refine decides_iff (Addable (L.map State.name) s.all ∧
      Addable (L.map State.name ++ s.all.map Step.name) (Step.allOf rest)) ?_ ?_
    · rw [Step.allOf, addable_append]
    · rw [Step.buildChain]
      refine (Step.build_decides s h).bind fun r g₁ _ hp => ?_
      obtain ⟨rfl, h₁⟩ := hp
      have hstate : g₁.states[L.length]? = some ⟨s.name, s.kind L.length, none⟩ := by
        rw [Step.states_eq] at h₁
        exact h₁.getElem?
      have hout := Step.outcome_attach none (Step.fragment_eq hstate) rfl
      refine decides_bind_of_outcome hout ?_
      have hrest := Step.continueChain_decides rest L.length rfl h₁ hlast
      rw [List.map_append, Step.names_states] at hrest
      refine hrest.bind_pure fun r g₂ _ hp => ?_
      obtain ⟨rfl, h₂⟩ := hp
      rw [Step.joinsOf]
      exact ⟨rfl, h₂⟩

theorem Step.continueChain_decides (steps : List Step) {g : Graph} {P : List State} {s : Step}
    {n : Nat} (start : StateId) (hn : P.length = n) (h : g.Holds (P ++ s.states noExits n none))
    (hlast : ∀ t ∈ (s :: steps).dropLast, t.isFail = false) :
    Decides (Step.buildChain (some ⟨start, s.ends n⟩) steps) g
      (Addable ((P ++ s.states noExits n none).map State.name) (Step.allOf steps))
      fun r g' => r = (some ⟨start, Step.endsOf n (s :: steps)⟩,
          Step.joinsOf (n + s.all.length) steps) ∧
        g'.Holds (P ++ Step.statesOf noExits n none (s :: steps)) := by
  have hused := h.nodup_names
  match steps with
  | [] =>
    rw [Step.buildChain]
    refine decides_pure ?_ ⟨?_, ?_⟩
    · rw [Step.allOf, Addable.nil_iff hused]
      trivial
    · simp [Step.endsOf, Step.joinsOf]
    · simpa [Step.statesOf] using h
  | t :: rest =>
    have hs : s.isFail = false := hlast s (by simp)
    obtain ⟨m, hm⟩ : ∃ m, n + s.all.length = m := ⟨_, rfl⟩
    have hlength (next : Option StateId) : (P ++ s.states noExits n next).length = m := by
      simp [hn, hm]
    refine decides_iff (Addable ((P ++ s.states noExits n none).map State.name) t.all ∧
      Addable ((P ++ s.states noExits n none).map State.name ++ t.all.map Step.name)
        (Step.allOf rest)) ?_ ?_
    · rw [Step.allOf, addable_append]
    · rw [Step.buildChain]
      refine (Step.build_decides t h).bind fun r g₁ _ hp => ?_
      obtain ⟨rfl, h₁⟩ := hp
      have hstate := h₁
      rw [Step.states_eq t] at hstate
      have hfragment := Step.fragment_eq hstate.getElem?
      rw [hlength] at h₁ hfragment ⊢
      have hlt : m < (P ++ s.states noExits n none ++ t.states noExits m none).length := by
        rw [List.length_append, hlength]
        simp [Step.all_eq t]
      obtain ⟨g₂, hchain, h₂⟩ := Step.outcome_chain_step start m (t.ends m) hn h₁ hs hlt
      have hout := Step.outcome_attach (some ⟨start, s.ends n⟩) hfragment hchain
      have hrest := Step.continueChain_decides rest start (hlength (some m)) h₂ fun r hr =>
        hlast r (by simp [hr])
      simp only [List.map_append, Step.names_states] at hrest ⊢
      refine decides_bind_of_outcome hout (hrest.bind_pure fun r g₃ _ hp => ?_)
      obtain ⟨rfl, h₃⟩ := hp
      have hends : Step.endsOf n (s :: t :: rest) = Step.endsOf m (t :: rest) := hm ▸ rfl
      have hstates : Step.statesOf noExits n none (s :: t :: rest) =
          s.states noExits n (some m) ++ Step.statesOf noExits m none (t :: rest) := hm ▸ rfl
      rw [hends, hstates, hm, Step.joinsOf, ← List.append_assoc]
      exact ⟨rfl, h₃⟩

end

end LifecycleFlow
