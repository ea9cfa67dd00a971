import LifecycleFlow.Proofs.Joining

/-!
# What building the branches does

The branches of a definition are placed one after the other, like handlers that catch nothing and
continue nowhere. Building them succeeds exactly if all sequences can be run, no name is used twice
and every state named by a handler exists.
-/
namespace LifecycleFlow

open LifecycleFlow.Graph

variable {exits : String → Option StateId} {base : StateId} {a b : List Handler}

/-- A branch as a handler that catches nothing and continues nowhere. -/
def Handler.ofBranch (steps : List Step) : Handler :=
  .mk [] none steps none

/-- A branch, if it is given, as handlers. -/
def Handler.ofBranch? (branch : Option (List Step)) : List Handler :=
  branch.toList.map ofBranch

/-- Steps as a fragment, placed from a number on. -/
def Step.fragmentAt (base : StateId) (l : List Step) : Fragment :=
  ⟨base, Step.endsOf base l⟩

namespace Handler

theorem allOf_append : allOf (a ++ b) = allOf a ++ allOf b := by
  induction a with
  | nil => rfl
  | cons h r ih =>
    cases h
    simp only [List.cons_append, allOf, ih, List.append_assoc]

theorem statesOf_append : statesOf exits base (a ++ b) =
    statesOf exits base a ++ statesOf exits (base + (allOf a).length) b := by
  induction a generalizing base with
  | nil => simp [statesOf, allOf]
  | cons h r ih =>
    cases h
    simp [statesOf, allOf, ih, Nat.add_assoc]

theorem joinsOf_append : joinsOf base (a ++ b) =
    joinsOf base a ++ joinsOf (base + (allOf a).length) b := by
  induction a generalizing base with
  | nil => simp [joinsOf, allOf]
  | cons h r ih =>
    cases h
    simp [joinsOf, allOf, ih, Nat.add_assoc]

@[simp] theorem allOf_ofBranch?_some (l : List Step) :
    allOf (ofBranch? (some l)) = Step.allOf l := by
  simp [ofBranch?, ofBranch, allOf]

@[simp] theorem statesOf_ofBranch?_some (l : List Step) :
    statesOf exits base (ofBranch? (some l)) = Step.statesOf exits base none l := by
  simp [ofBranch?, ofBranch, statesOf]

@[simp] theorem joinsOf_ofBranch?_some (l : List Step) :
    joinsOf base (ofBranch? (some l)) = Step.joinsOf base l := by
  simp [ofBranch?, ofBranch, joinsOf]

end Handler

namespace FlowDefinition

variable {g : Graph} {L : List State} (d : FlowDefinition)

/-- The branches as handlers. -/
def branchHandlers : List Handler :=
  Handler.ofBranch? d.onCreate ++ Handler.ofBranch? d.onUpdate ++ Handler.ofBranch? d.onDelete

/-- Where the branches are placed. -/
def placedBranches : Branches :=
  let updateBase := (Handler.allOf (Handler.ofBranch? d.onCreate)).length
  let deleteBase := updateBase + (Handler.allOf (Handler.ofBranch? d.onUpdate)).length
  { onCreate := d.onCreate.map (Step.fragmentAt 0)
    onUpdate := d.onUpdate.map (Step.fragmentAt updateBase)
    onDelete := d.onDelete.map (Step.fragmentAt deleteBase) }

theorem branchHandlers_eq : d.branchHandlers = d.branches.map Handler.ofBranch := by
  simp [branchHandlers, branches, Handler.ofBranch?]

theorem allOf_branchHandlers : Handler.allOf d.branchHandlers = d.steps := by
  rw [branchHandlers_eq, steps]
  induction d.branches with
  | nil => rfl
  | cons l r ih => simp [Handler.ofBranch, Handler.allOf, ih]

/-- What can be said of the steps alone: the sequences can be run, no name is used twice, and the
states that handlers name exist. -/
structure StepsWellFormed : Prop where
  sound : ∀ q ∈ d.sequences, q.Sound
  distinct : (d.steps.map Step.name).Nodup
  known : ∀ q ∈ d.sequences, ∀ t, q.target = some t → t ∈ d.steps.map Step.name

theorem forall_sequences_iff {p : Sequence → Prop} : (∀ q ∈ d.sequences, p q) ↔
    (∀ x ∈ d.branchHandlers, p x.sequence) ∧ ∀ s ∈ d.steps, ∀ x ∈ s.handlers, p x.sequence := by
  simp only [sequences, List.forall_mem_append, List.forall_mem_map, branchHandlers_eq,
    List.forall_mem_flatMap]
  exact Iff.rfl

theorem stepsWellFormed_iff : d.StepsWellFormed ↔
    (∀ x ∈ d.branchHandlers, x.sequence.Sound) ∧ Addable [] d.steps ∧
      ∀ s ∈ d.steps, ∀ x ∈ s.handlers, ∀ t, x.target = some t → t ∈ d.steps.map Step.name := by
  have hknown : (∀ q ∈ d.sequences, ∀ t, q.target = some t → t ∈ d.steps.map Step.name) ↔
      ∀ s ∈ d.steps, ∀ x ∈ s.handlers, ∀ t, x.target = some t → t ∈ d.steps.map Step.name := by
    rw [forall_sequences_iff, branchHandlers_eq]
    refine and_iff_right fun x hx => ?_
    obtain ⟨l, -, rfl⟩ := List.mem_map.1 hx
    exact fun t ht => nomatch ht
  rw [Addable, List.nil_append, ← hknown]
  constructor
  · rintro ⟨hsound, hdistinct, hk⟩
    obtain ⟨hbranch, hnested⟩ := (forall_sequences_iff d).1 hsound
    exact ⟨hbranch, ⟨hnested, hdistinct⟩, hk⟩
  · rintro ⟨hbranch, ⟨hnested, hdistinct⟩, hk⟩
    exact ⟨(forall_sequences_iff d).2 ⟨hbranch, hnested⟩, hdistinct, hk⟩

private theorem sound_ofBranch_iff {l : List Step} : (Handler.ofBranch l).sequence.Sound ↔
    l ≠ [] ∧ ∀ s ∈ l.dropLast, s.isFail = false := by
  have h : (Handler.ofBranch l).sequence.Sound ↔ _ := Step.sound_iff 0
  rw [h]
  simp [Handler.ofBranch, Handler.steps, Handler.target]

theorem buildAll_decides (label : String) (steps : List Step) (h : g.Holds L) :
    Decides (Step.buildAll label steps) g
      ((steps ≠ [] ∧ ∀ s ∈ steps.dropLast, s.isFail = false) ∧
        Addable (L.map State.name) (Step.allOf steps))
      fun r g' => r = (Step.fragmentAt L.length steps, Step.joinsOf L.length steps) ∧
        g'.Holds (L ++ Step.statesOf noExits L.length none steps) := by
  rw [Step.buildAll]
  refine Step.requireRunnable_decides.bind fun _ g' hrun hg => ?_
  subst hg
  have hchain := Step.buildChain_decides steps h hrun.1 hrun.2
  refine decides_iff (Addable (L.map State.name) (Step.allOf steps) ∧ True) (by simp) ?_
  refine hchain.bind fun r g' _ hp => ?_
  obtain ⟨rfl, h'⟩ := hp
  exact decides_pure trivial ⟨rfl, h'⟩

theorem buildBranch_decides (label : String) (branch : Option (List Step)) (h : g.Holds L) :
    Decides (buildBranch label branch) g
      ((∀ x ∈ Handler.ofBranch? branch, x.sequence.Sound) ∧
        Addable (L.map State.name) (Handler.allOf (Handler.ofBranch? branch)))
      fun r g' => r = (branch.map (Step.fragmentAt L.length),
          Handler.joinsOf L.length (Handler.ofBranch? branch)) ∧
        g'.Holds (L ++ Handler.statesOf noExits L.length (Handler.ofBranch? branch)) := by
  cases branch with
  | none =>
    refine decides_pure ⟨by simp [Handler.ofBranch?], ?_⟩ ⟨rfl, ?_⟩
    · exact (Addable.nil_iff h.nodup_names).2 trivial
    · simpa [Handler.ofBranch?, Handler.statesOf] using h
  | some steps =>
    have hsound : (∀ x ∈ Handler.ofBranch? (some steps), x.sequence.Sound) ↔
        steps ≠ [] ∧ ∀ s ∈ steps.dropLast, s.isFail = false := by
      rw [← sound_ofBranch_iff]
      simp [Handler.ofBranch?]
    rw [hsound, Handler.allOf_ofBranch?_some, Handler.statesOf_ofBranch?_some,
      Handler.joinsOf_ofBranch?_some]
    refine (buildAll_decides label steps h).bind_pure fun r g' _ hp => ?_
    obtain ⟨rfl, h'⟩ := hp
    exact ⟨rfl, h'⟩

private theorem holds_empty : Graph.empty.Holds [] :=
  ⟨wellFormed_empty, rfl⟩

theorem isSome_find?_iff {name : String} (h : g.Holds L) :
    (g.find? name).isSome ↔ name ∈ L.map State.name := by
  have havail : g.isAvailable name ↔ name ∉ L.map State.name := h.isAvailable_iff
  rw [isAvailable_iff_find?] at havail
  rw [← not_iff_not, ← havail, Option.not_isSome_iff_eq_none]

theorem buildBranch_after (label : String) (branch : Option (List Step)) {done : List Handler}
    (h : g.Holds (Handler.statesOf noExits 0 done)) :
    Decides (buildBranch label branch) g
      ((∀ x ∈ Handler.ofBranch? branch, x.sequence.Sound) ∧
        Addable ((Handler.allOf done).map Step.name) (Handler.allOf (Handler.ofBranch? branch)))
      fun r g' => r = (branch.map (Step.fragmentAt (Handler.allOf done).length),
          Handler.joinsOf (Handler.allOf done).length (Handler.ofBranch? branch)) ∧
        g'.Holds (Handler.statesOf noExits 0 (done ++ Handler.ofBranch? branch)) := by
  have hbuild := buildBranch_decides label branch h
  rw [Handler.names_statesOf, Handler.length_statesOf] at hbuild
  rw [Handler.statesOf_append, Nat.zero_add]
  exact hbuild

theorem joinBranches_decides (h : g.Holds (Handler.statesOf noExits 0 d.branchHandlers))
    (hown : ∀ x ∈ d.branchHandlers, x.sequence.Sound) (hsound : ∀ s ∈ d.steps, s.Sound) :
    Decides ((Handler.joinsOf 0 d.branchHandlers).forM Join.connect) g
      (∀ s ∈ d.steps, ∀ x ∈ s.handlers, ∀ t, x.target = some t → t ∈ d.steps.map Step.name)
      fun _ g' => g'.Holds (Handler.statesOf g'.find? 0 d.branchHandlers) := by
  have hjoins : g.Joins g.find? ([] ++ (Handler.statesOf noExits 0 d.branchHandlers ++ [])) :=
    ⟨by simpa using h, fun _ => rfl⟩
  have hall := Handler.join_decides d.branchHandlers rfl hown
    (by rwa [allOf_branchHandlers]) hjoins
  refine hall.congr ?_ fun _ g' _ hp => ?_
  · have hknown (name : String) : (g.find? name).isSome ↔ name ∈ d.steps.map Step.name := by
      rw [isSome_find?_iff h, Handler.names_statesOf, allOf_branchHandlers]
    have hbranch : ∀ x ∈ d.branchHandlers, x.Joinable g.find? := by
      rw [branchHandlers_eq]
      intro x hx
      obtain ⟨l, -, rfl⟩ := List.mem_map.1 hx
      exact fun name hname => nomatch hname
    rw [and_iff_right hbranch, allOf_branchHandlers]
    simp only [Step.Joinable, Handler.Joinable, hknown]
  · have hfind : g'.find? = g.find? := funext hp.find?
    rw [hfind]
    simpa using hp.holds

/-- Building the branches succeeds exactly if the steps are well-formed, and leaves their states. -/
theorem buildBranches_decides : Decides d.buildBranches Graph.empty d.StepsWellFormed fun b g =>
    b = d.placedBranches ∧ g.Holds (Handler.statesOf g.find? 0 d.branchHandlers) := by
  obtain ⟨c, hc⟩ : ∃ c, Handler.ofBranch? d.onCreate = c := ⟨_, rfl⟩
  obtain ⟨u, hu⟩ : ∃ u, Handler.ofBranch? d.onUpdate = u := ⟨_, rfl⟩
  obtain ⟨e, he⟩ : ∃ e, Handler.ofBranch? d.onDelete = e := ⟨_, rfl⟩
  have hhandlers : d.branchHandlers = c ++ u ++ e := by rw [branchHandlers, hc, hu, he]
  refine decides_iff (((∀ x ∈ c, x.sequence.Sound) ∧ Addable [] (Handler.allOf c)) ∧
    ((∀ x ∈ u, x.sequence.Sound) ∧
      Addable ((Handler.allOf c).map Step.name) (Handler.allOf u)) ∧
    ((∀ x ∈ e, x.sequence.Sound) ∧
      Addable ((Handler.allOf (c ++ u)).map Step.name) (Handler.allOf e)) ∧
    (∀ s ∈ d.steps, ∀ x ∈ s.handlers, ∀ t, x.target = some t → t ∈ d.steps.map Step.name) ∧
    True) ?_ ?_
  · rw [stepsWellFormed_iff, hhandlers, ← allOf_branchHandlers, hhandlers]
    simp only [List.forall_mem_append, Handler.allOf_append, addable_append, List.map_append,
      List.nil_append]
    tauto
  · rw [buildBranches]
    have hcreate := buildBranch_decides "on_create" d.onCreate holds_empty
    simp only [hc, List.map_nil, List.length_nil, List.nil_append] at hcreate
    refine hcreate.bind fun r g₁ hc₁ hp => ?_
    obtain ⟨rfl, h₁⟩ := hp
    have hupdate := buildBranch_after "on_update" d.onUpdate h₁
    rw [hu] at hupdate
    refine hupdate.bind fun r g₂ hc₂ hp => ?_
    obtain ⟨rfl, h₂⟩ := hp
    have hdelete := buildBranch_after "on_delete" d.onDelete h₂
    rw [he] at hdelete
    refine hdelete.bind fun r g₃ hc₃ hp => ?_
    obtain ⟨rfl, h₃⟩ := hp
    have hown : ∀ x ∈ d.branchHandlers, x.sequence.Sound := by
      rw [hhandlers, List.forall_mem_append, List.forall_mem_append]
      exact ⟨⟨hc₁.1, hc₂.1⟩, hc₃.1⟩
    have hsound : ∀ s ∈ d.steps, s.Sound := by
      rw [← allOf_branchHandlers, hhandlers, Handler.allOf_append, Handler.allOf_append,
        List.forall_mem_append, List.forall_mem_append]
      exact ⟨⟨hc₁.2.1, hc₂.2.1⟩, hc₃.2.1⟩
    have hjoins : Handler.joinsOf 0 c ++ Handler.joinsOf (Handler.allOf c).length u ++
        Handler.joinsOf (Handler.allOf (c ++ u)).length e = Handler.joinsOf 0 d.branchHandlers := by
      rw [hhandlers, Handler.joinsOf_append, Handler.joinsOf_append, Nat.zero_add, Nat.zero_add]
    rw [← hhandlers] at h₃
    dsimp only
    rw [hjoins]
    refine (joinBranches_decides d h₃ hown hsound).bind fun _ g₄ _ h₄ => ?_
    refine decides_pure trivial ⟨?_, h₄⟩
    simp only [placedBranches, hc, hu, Handler.allOf_append, List.length_append]

end FlowDefinition

end LifecycleFlow
