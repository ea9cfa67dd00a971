import LifecycleFlow.Graph.Reachability
import LifecycleFlow.Proofs.Lists
import LifecycleFlow.Proofs.Outcome
import LifecycleFlow.Proofs.Reachability

/-!
# What renaming does

Renaming reachable states looks at all new names before it changes one. The old names leave the
index before the new ones are entered, so a new name may be an old name of another renamed state:
the index still finds exactly the names of the states.
-/
namespace LifecycleFlow.Graph

variable {g : Graph} {ids : List StateId} {front name : String} {id start : StateId}

/-- The check that the new name of a state is free. -/
def checkRenamed (g : Graph) (ids : List StateId) (front : String) (id : StateId) :
    Except GraphError Unit := do
  let s ← g.state id
  g.requireFree ids (front ++ s.name)

theorem checkRenamed_eq {s : State} (hs : g.states[id]? = some s) :
    g.checkRenamed ids front id = g.requireFree ids (front ++ s.name) := by
  simp [checkRenamed, state_eq_ok_iff.2 hs, bind, Except.bind]

theorem outcome_addPrefix : outcome (addPrefix start front) g =
    match g.reachable start with
    | .error e => (.error e, g)
    | .ok ids =>
      match ids.forM (g.checkRenamed ids front) with
      | .error e => (.error e, g)
      | .ok _ => (.ok (), g.withPrefixed ids front) := by
  rw [addPrefix]
  rw [outcome_bind_ok (outcome_get g), outcome_bind, outcome_check]
  cases g.reachable start with
  | error e => rfl
  | ok ids =>
    have hcheck (id : StateId) (g' : Graph) :
        outcome (do let s ← liftM (g.state id); liftM (g.requireFree ids (front ++ s.name))) g' =
          (g.checkRenamed ids front id, g') := by
      rw [outcome_bind, outcome_check]
      rw [checkRenamed]
      cases g.state id <;> rfl
    dsimp only
    rw [outcome_bind, outcome_forM_check hcheck]
    cases ids.forM (g.checkRenamed ids front) <;> rfl

/-- No state outside the renamed ones has a new name. -/
def FreshPrefix (g : Graph) (ids : List StateId) (front : String) : Prop :=
  ∀ id ∈ ids, ∀ name, g.Named id name → ∀ owner, g.Named owner (front ++ name) → owner ∈ ids

theorem requireFree_eq_ok_iff (hg : g.Indexed) :
    g.requireFree ids name = .ok () ↔ ∀ owner, g.Named owner name → owner ∈ ids := by
  rw [requireFree]
  cases h : g.find? name with
  | none => 
    simp only [true_iff]
    intro owner hn
    rw [(hg name owner).2 hn] at h
    cases h
  | some owner =>
    have hn := (hg name owner).1 h
    by_cases hmem : owner ∈ ids
    · simp only [List.contains_eq_mem, hmem, decide_true, if_true, true_iff]
      intro owner' hn'
      rwa [hg.id_eq hn' hn]
    · simp only [List.contains_eq_mem, hmem, decide_false, Bool.false_eq_true, if_false,
        reduceCtorEq, false_iff]
      exact fun hall => hmem (hall owner hn)

/-- The new names pass the check exactly if no other state has one of them. -/
theorem forM_checkRenamed_eq_ok_iff (hg : g.Indexed) (hids : ∀ id ∈ ids, id < g.size) :
    ids.forM (g.checkRenamed ids front) = .ok () ↔ g.FreshPrefix ids front := by
  rw [List.forM_eq_ok_iff]
  refine forall₂_congr fun id hid => ?_
  obtain ⟨s, hs⟩ := exists_state_of_lt (hids id hid)
  rw [checkRenamed_eq hs, requireFree_eq_ok_iff hg]
  simp [Named, hs]

theorem getElem?_withPrefixed : (g.withPrefixed ids front).states[id]? =
    (g.states[id]?).map fun s =>
      if id ∈ ids then { s with name := front ++ s.name } else s := by
  simp [withPrefixed, List.getElem?_mapIdx]

@[simp] theorem size_withPrefixed : (g.withPrefixed ids front).size = g.size := by
  simp [withPrefixed, size]

theorem named_withPrefixed : (g.withPrefixed ids front).Named id name ↔
    (id ∈ ids ∧ ∃ old, g.Named id old ∧ front ++ old = name) ∨ (id ∉ ids ∧ g.Named id name) := by
  unfold Named
  rw [getElem?_withPrefixed]
  by_cases hid : id ∈ ids <;> simp [hid]

private theorem getElem?_foldl_erase (l : List State) (names : NameIndex) :
    (l.foldl (fun names s => names.erase s.name) names)[name]? =
      if name ∈ l.map State.name then none else names[name]? := by
  induction l generalizing names with
  | nil => simp
  | cons s r ih =>
    rw [List.foldl_cons, ih, Std.ExtTreeMap.getElem?_erase]
    by_cases hs : s.name = name
    · simp [hs]
    · simp [hs, Ne.symm hs]

theorem getElem?_withoutNames_eq_some_iff (hg : g.Indexed) :
    (g.withoutNames ids)[name]? = some id ↔ g.Named id name ∧ id ∉ ids := by
  have hmem : name ∈ (ids.filterMap (g.states[·]?)).map State.name ↔
      ∃ i ∈ ids, g.Named i name := by
    simp only [List.mem_map, List.mem_filterMap, Named]
    tauto
  rw [withoutNames, getElem?_foldl_erase]
  split
  · rename_i h
    obtain ⟨i, hi, hn⟩ := hmem.1 h
    simp only [reduceCtorEq, false_iff, not_and, not_not]
    intro hid
    rwa [hg.id_eq hid hn]
  · rename_i h
    rw [hmem] at h
    rw [← hg name id]
    exact ⟨fun hf => ⟨hf, fun hid => h ⟨id, hid, (hg name id).1 hf⟩⟩, fun hf => hf.1⟩

/-- A renamed state has a new name. -/
def NewName (g : Graph) (ids : List StateId) (front name : String) (id : StateId) : Prop :=
  id ∈ ids ∧ ∃ old, g.Named id old ∧ front ++ old = name

theorem Indexed.newName_unique {ids' : List StateId} {id' : StateId} (hg : g.Indexed)
    (h : g.NewName ids front name id) (h' : g.NewName ids' front name id') : id = id' := by
  obtain ⟨-, old, hold, rfl⟩ := h
  obtain ⟨-, old', hold', heq⟩ := h'
  obtain rfl := (String.append_right_inj front).1 heq
  exact hg.id_eq hold hold'

private theorem newName_cons {i : StateId} : g.NewName (i :: ids) front name id ↔
    g.NewName [i] front name id ∨ g.NewName ids front name id := by
  simp only [NewName, List.mem_cons, List.not_mem_nil, or_false, or_and_right]

private theorem getElem?_withNames_singleton {i : StateId} (names : NameIndex) :
    (g.withNames [i] front names)[name]? = some id ↔
      g.NewName [i] front name id ∨
        (∀ j, ¬ g.NewName [i] front name j) ∧ names[name]? = some id := by
  cases hs : g.states[i]? with
  | none =>
    have hnew : ∀ j, ¬ g.NewName [i] front name j := by
      rintro j ⟨hj, old, ⟨s, h, -⟩, -⟩
      rw [List.mem_singleton.1 hj, hs] at h
      cases h
    simp [withNames, hs, hnew]
  | some s =>
    have hnew : ∀ j, g.NewName [i] front name j ↔ j = i ∧ front ++ s.name = name := by
      intro j
      simp only [NewName, List.mem_singleton, Named]
      refine and_congr_right fun hj => ?_
      simp [hj, hs]
    simp only [withNames, List.foldl_cons, List.foldl_nil, hs, hnew,
      Std.ExtTreeMap.getElem?_insert, Std.LawfulEqOrd.compare_eq_iff_eq]
    by_cases hn : front ++ s.name = name <;> simp [hn, eq_comm]

theorem getElem?_withNames_eq_some_iff (hg : g.Indexed) (names : NameIndex) :
    (g.withNames ids front names)[name]? = some id ↔
      g.NewName ids front name id ∨
        (∀ i, ¬ g.NewName ids front name i) ∧ names[name]? = some id := by
  induction ids generalizing names with
  | nil => simp [withNames, NewName]
  | cons i r ih =>
    have hcons : g.withNames (i :: r) front names =
        g.withNames r front (g.withNames [i] front names) := rfl
    rw [hcons, ih, getElem?_withNames_singleton]
    constructor
    · rintro (h | ⟨hr, h | ⟨hi, h⟩⟩)
      · exact .inl (newName_cons.2 (.inr h))
      · exact .inl (newName_cons.2 (.inl h))
      · exact .inr ⟨fun j hj => (newName_cons.1 hj).elim (hi j) (hr j), h⟩
    · rintro (h | ⟨hall, h⟩)
      · rcases newName_cons.1 h with h | h
        · -- A later state that enters the name again is the same one.
          by_cases hr : ∃ j, g.NewName r front name j
          · obtain ⟨j, hj⟩ := hr
            exact .inl (hg.newName_unique h hj ▸ hj)
          · exact .inr ⟨not_exists.1 hr, .inl h⟩
        · exact .inl h
      · exact .inr ⟨fun j hj => hall j (newName_cons.2 (.inr hj)),
          .inr ⟨fun j hj => hall j (newName_cons.2 (.inl hj)), h⟩⟩

/-- After a rename the index finds exactly the names of the states. -/
theorem Indexed.withPrefixed (hg : g.Indexed) (hfresh : g.FreshPrefix ids front) :
    (g.withPrefixed ids front).Indexed := by
  intro name id
  have hfind : (g.withPrefixed ids front).find? name =
      (g.withNames ids front (g.withoutNames ids))[name]? := rfl
  rw [hfind, getElem?_withNames_eq_some_iff hg, getElem?_withoutNames_eq_some_iff hg,
    named_withPrefixed]
  constructor
  · rintro (h | ⟨-, hn, hid⟩)
    · exact .inl h
    · exact .inr ⟨hid, hn⟩
  · rintro (h | ⟨hid, hn⟩)
    · exact .inl h
    · refine .inr ⟨?_, hn, hid⟩
      rintro j ⟨hj, old, hold, rfl⟩
      exact hid (hfresh j hj old hold id hn)

theorem WellFormed.withPrefixed (hg : g.WellFormed) (hfresh : g.FreshPrefix ids front) :
    (g.withPrefixed ids front).WellFormed := by
  have hmem {s : State} (hs : s ∈ (g.withPrefixed ids front).states) :
      ∃ r ∈ g.states, r.kind = s.kind ∧ r.next = s.next := by
    obtain ⟨i, hi⟩ := List.mem_iff_getElem?.1 hs
    rw [getElem?_withPrefixed] at hi
    obtain ⟨r, hr, rfl⟩ := Option.map_eq_some_iff.1 hi
    refine ⟨r, List.mem_of_getElem? hr, ?_⟩
    split <;> exact ⟨rfl, rfl⟩
  refine ⟨hg.indexed.withPrefixed hfresh, fun s hs t ht => ?_, fun s hs hn => ?_⟩
  · obtain ⟨r, hr, hk, hnext⟩ := hmem hs
    rw [size_withPrefixed]
    exact hg.closed r hr t (by rwa [State.successors, hk, hnext])
  · obtain ⟨r, hr, hk, hnext⟩ := hmem hs
    have hnextable := hg.nextable r hr (by rwa [hnext])
    rwa [State.isNextable, hk] at hnextable

theorem addPrefix_eq_ok (hg : g.WellFormed) (hids : g.reachable start = .ok ids)
    (hfresh : g.FreshPrefix ids front) :
    outcome (addPrefix start front) g = (.ok (), g.withPrefixed ids front) := by
  have hlt := lt_size_of_mem_reachable hids
  rw [outcome_addPrefix, hids]
  simp only [(forM_checkRenamed_eq_ok_iff hg.indexed hlt).2 hfresh]

/-- A rename that succeeds has renamed the states that the search finds, to names that no other
state has. -/
theorem exists_of_addPrefix_eq_ok {g' : Graph} (hg : g.WellFormed)
    (h : outcome (addPrefix start front) g = (.ok (), g')) :
    ∃ ids, g.reachable start = .ok ids ∧ g.FreshPrefix ids front ∧
      g' = g.withPrefixed ids front := by
  rw [outcome_addPrefix] at h
  cases hids : g.reachable start with
  | error e =>
    rw [hids] at h
    cases h
  | ok ids =>
    rw [hids] at h
    dsimp only at h
    cases hc : ids.forM (g.checkRenamed ids front) with
    | error e =>
      rw [hc] at h
      cases h
    | ok u =>
      rw [hc] at h
      have hlt := lt_size_of_mem_reachable hids
      exact ⟨ids, rfl, (forM_checkRenamed_eq_ok_iff hg.indexed hlt).1 hc,
        (congrArg Prod.snd h).symm⟩

theorem addPrefix_failsCleanly {start : StateId} {front : String} :
    FailsCleanly (addPrefix start front) g := by
  intro e g' hout
  rw [outcome_addPrefix] at hout
  cases hr : g.reachable start with
  | error e' =>
    rw [hr] at hout
    exact (congrArg Prod.snd hout).symm
  | ok ids =>
    rw [hr] at hout
    dsimp only at hout
    split at hout
    · exact (congrArg Prod.snd hout).symm
    · cases hout

theorem WellFormed.addPrefix (hg : g.WellFormed) :
    (outcome (addPrefix start front) g).2.WellFormed := by
  rw [outcome_addPrefix]
  cases hids : g.reachable start with
  | error e => exact hg
  | ok ids =>
    dsimp only
    cases hc : ids.forM (g.checkRenamed ids front) with
    | error e => exact hg
    | ok u =>
      have hlt := lt_size_of_mem_reachable hids
      exact hg.withPrefixed ((forM_checkRenamed_eq_ok_iff hg.indexed hlt).1 hc)

theorem eq_of_addPrefix_eq_unknownState (hg : g.WellFormed)
    (h : (outcome (addPrefix start front) g).1 = .error (.unknownState id)) :
    id = start ∧ g.size ≤ id := by
  rw [outcome_addPrefix] at h
  cases hids : g.reachable start with
  | error e =>
    obtain ⟨rfl, hle⟩ := reachable_eq_error hg hids
    simp only [hids, Except.error.injEq, GraphError.unknownState.injEq] at h
    exact h ▸ ⟨rfl, hle⟩
  | ok ids =>
    cases hc : ids.forM (g.checkRenamed ids front) with
    | ok u => simp [hids, hc] at h
    | error e =>
      simp only [hids, hc, Except.error.injEq] at h
      obtain ⟨i, hi, he⟩ := List.exists_of_forM_eq_error hc
      obtain ⟨s, hs⟩ := exists_state_of_lt (lt_size_of_mem_reachable hids i hi)
      -- A renamed state exists, so what fails is the check of its new name.
      rw [checkRenamed_eq hs, h, requireFree] at he
      split at he
      · split at he <;> cases he
      · cases he

end LifecycleFlow.Graph
