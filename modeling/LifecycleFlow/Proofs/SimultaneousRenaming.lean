import LifecycleFlow.Proofs.Runs

/-!
# Renaming at once

Renaming the states reachable from a start, said of names and paths alone: when it succeeds, what it
refuses, and what names and index are afterwards. The order in which the states are renamed does not
show, also where the new name of one of them is the old name of another.
-/
namespace LifecycleFlow.Graph

variable {g g' : Graph} {ids : List StateId} {id start : StateId} {front name : String}

/-- A state that is not reachable from the start has a name. -/
def TakenOutside (g : Graph) (start : StateId) (name : String) : Prop :=
  ∃ owner, g.Named owner name ∧ ¬ g.Reaches start owner

/-- A graph is another one in which the states reachable from a start, and no other, have got a text
put before their names, and the index finds the new names. -/
structure RenamedAtOnce (g g' : Graph) (start : StateId) (front : String) : Prop where
  size : g'.size = g.size
  renamed : ∀ id s, g.Reaches start id → g.states[id]? = some s →
    g'.states[id]? = some { s with name := front ++ s.name }
  kept : ∀ id s, ¬ g.Reaches start id → g.states[id]? = some s → g'.states[id]? = some s
  find? : ∀ name id, g'.find? name = some id ↔
    (g.Reaches start id ∧ ∃ old, g.Named id old ∧ name = front ++ old) ∨
      (¬ g.Reaches start id ∧ g.Named id name)
  freed : ∀ id old, g.Reaches start id → g.Named id old → (∀ rest, old ≠ front ++ rest) →
    g'.isAvailable old

theorem requireFree_eq_error_iff (hg : g.Indexed) {e : GraphError} :
    g.requireFree ids name = .error e ↔
      (∃ owner, g.Named owner name ∧ owner ∉ ids) ∧ e = .duplicateStateName name := by
  rw [requireFree]
  cases h : g.find? name with
  | none =>
    simp only [reduceCtorEq, false_iff]
    rintro ⟨⟨owner, hn, -⟩, -⟩
    rw [(hg name owner).2 hn] at h
    cases h
  | some owner =>
    have hn := (hg name owner).1 h
    by_cases hmem : owner ∈ ids
    · simp only [List.contains_eq_mem, hmem, decide_true, if_true, reduceCtorEq, false_iff]
      rintro ⟨⟨other, hother, hout⟩, -⟩
      exact hout (hg.id_eq hother hn ▸ hmem)
    · simp only [List.contains_eq_mem, hmem, decide_false, Bool.false_eq_true, if_false,
        Except.error.injEq, eq_comm]
      exact ⟨fun he => ⟨⟨owner, hn, hmem⟩, he⟩, fun he => he.2⟩

theorem checkRenamed_eq_ok_iff (hg : g.Indexed) (hids : g.reachable start = .ok ids)
    (hid : id ∈ ids) : g.checkRenamed ids front id = .ok () ↔
      ∀ name, g.Named id name → ¬ g.TakenOutside start (front ++ name) := by
  obtain ⟨s, hs⟩ := exists_state_of_lt (lt_size_of_mem_reachable hids id hid)
  rw [checkRenamed_eq hs, requireFree_eq_ok_iff hg]
  simp [Named, hs, TakenOutside, mem_reachable_iff hids]

theorem checkRenamed_eq_error_iff (hg : g.Indexed) (hids : g.reachable start = .ok ids)
    (hid : id ∈ ids) {e : GraphError} : g.checkRenamed ids front id = .error e ↔
      ∃ name, g.Named id name ∧ g.TakenOutside start (front ++ name) ∧
        e = .duplicateStateName (front ++ name) := by
  obtain ⟨s, hs⟩ := exists_state_of_lt (lt_size_of_mem_reachable hids id hid)
  rw [checkRenamed_eq hs, requireFree_eq_error_iff hg]
  simp [Named, hs, TakenOutside, mem_reachable_iff hids]

/-- The rename is refused for the first state of the search whose new name is taken. -/
theorem forM_checkRenamed_eq_error_iff (hg : g.Indexed) (hids : g.reachable start = .ok ids)
    {e : GraphError} : ids.forM (g.checkRenamed ids front) = .error e ↔
      ∃ before id name after, ids = before ++ id :: after ∧
        (∀ i ∈ before, ∀ n, g.Named i n → ¬ g.TakenOutside start (front ++ n)) ∧
        g.Named id name ∧ g.TakenOutside start (front ++ name) ∧
        e = .duplicateStateName (front ++ name) := by
  rw [List.forM_eq_error_iff]
  constructor
  · rintro ⟨before, id, after, hsplit, hbefore, he⟩
    have hmem : ∀ i ∈ before, i ∈ ids := fun i hi => by simp [hsplit, hi]
    obtain ⟨name, herror⟩ := (checkRenamed_eq_error_iff hg hids (by simp [hsplit])).1 he
    exact ⟨before, id, name, after, hsplit,
      fun i hi => (checkRenamed_eq_ok_iff hg hids (hmem i hi)).1 (hbefore i hi), herror⟩
  · rintro ⟨before, id, name, after, hsplit, hbefore, herror⟩
    have hmem : ∀ i ∈ before, i ∈ ids := fun i hi => by simp [hsplit, hi]
    exact ⟨before, id, after, hsplit,
      fun i hi => (checkRenamed_eq_ok_iff hg hids (hmem i hi)).2 (hbefore i hi),
      (checkRenamed_eq_error_iff hg hids (by simp [hsplit])).2 ⟨name, herror⟩⟩

theorem freshPrefix_iff (hids : g.reachable start = .ok ids) : g.FreshPrefix ids front ↔
    ∀ id name, g.Reaches start id → g.Named id name → ¬ g.TakenOutside start (front ++ name) := by
  simp only [FreshPrefix, TakenOutside, mem_reachable_iff hids, not_exists, not_and, not_not]
  exact forall_congr' fun id => ⟨fun h name hid => h hid name, fun h hid name => h name hid⟩

theorem renamedAtOnce_withPrefixed (hg : g.WellFormed) (hids : g.reachable start = .ok ids)
    (hfresh : g.FreshPrefix ids front) :
    g.RenamedAtOnce (g.withPrefixed ids front) start front := by
  have hmem (id : StateId) : id ∈ ids ↔ g.Reaches start id := mem_reachable_iff hids
  have hindexed := hg.indexed.withPrefixed hfresh
  refine ⟨size_withPrefixed, fun id s hid hs => ?_, fun id s hid hs => ?_, fun name id => ?_,
    fun id old hid hold hfront => ?_⟩
  · rw [getElem?_withPrefixed, hs, Option.map_some, if_pos ((hmem id).2 hid)]
  · rw [getElem?_withPrefixed, hs, Option.map_some, if_neg fun h => hid ((hmem id).1 h)]
  · rw [hindexed name id, named_withPrefixed, hmem]
    simp only [eq_comm]
  · rw [hindexed.isAvailable_iff]
    intro other hother
    rcases named_withPrefixed.1 hother with ⟨-, rest, -, heq⟩ | ⟨hout, hn⟩
    · exact hfront rest heq.symm
    · exact hout (hg.indexed.id_eq hold hn ▸ (hmem id).2 hid)

/-- On whatever graph was brought about, renaming what is reachable from a state of it succeeds
exactly if no state that is not reachable has one of the new names; else it is refused for the first
state, in the order of the search, whose new name is taken, and nothing is renamed. If it succeeds,
all reachable states are renamed at once and nothing else is changed. -/
theorem addPrefix_renames_at_once (ops : List Operation) {start : StateId}
    (h : start < (empty.after ops).size) (front : String) :
    ((outcome (addPrefix start front) (empty.after ops)).1 = .ok () ↔
      ∀ id name, (empty.after ops).Reaches start id → (empty.after ops).Named id name →
        ¬ (empty.after ops).TakenOutside start (front ++ name)) ∧
    (∀ e, (outcome (addPrefix start front) (empty.after ops)).1 = .error e ↔
      ∃ before id name after, (empty.after ops).reachable start = .ok (before ++ id :: after) ∧
        (∀ i ∈ before, ∀ n, (empty.after ops).Named i n →
          ¬ (empty.after ops).TakenOutside start (front ++ n)) ∧
        (empty.after ops).Named id name ∧
        (empty.after ops).TakenOutside start (front ++ name) ∧
        e = .duplicateStateName (front ++ name)) ∧
    (∀ e g', outcome (addPrefix start front) (empty.after ops) = (.error e, g') →
      g' = empty.after ops) ∧
    ∀ g', outcome (addPrefix start front) (empty.after ops) = (.ok (), g') →
      (empty.after ops).RenamedAtOnce g' start front := by
  have hg := wellFormed_empty.after ops
  obtain ⟨ids, hids⟩ := exists_reachable_of_lt hg h
  have hanswer : (outcome (addPrefix start front) (empty.after ops)).1 =
      ids.forM ((empty.after ops).checkRenamed ids front) := by
    rw [outcome_addPrefix, hids]
    dsimp only
    cases ids.forM ((empty.after ops).checkRenamed ids front) <;> rfl
  refine ⟨?_, fun e => ?_, fun e g' => addPrefix_failsCleanly e g', fun g' hout => ?_⟩
  · rw [hanswer, forM_checkRenamed_eq_ok_iff hg.indexed (lt_size_of_mem_reachable hids),
      freshPrefix_iff hids]
  · rw [hanswer, forM_checkRenamed_eq_error_iff hg.indexed hids]
    simp only [hids, Except.ok.injEq]
  · obtain ⟨ids', hids', hfresh, rfl⟩ := exists_of_addPrefix_eq_ok hg hout
    exact renamedAtOnce_withPrefixed hg hids' hfresh

/-- Of three states in a circle two get the old names of the others. -/
theorem addPrefix_renames_at_once_old_names :
    let ops : List Operation := [.addPass "A" {}, .addPass "xA" {}, .addPass "xxA" {},
      .setNext 0 1, .setNext 1 2, .setNext 2 0]
    0 < (empty.after ops).size ∧ ∃ g',
      outcome (addPrefix 0 "x") (empty.after ops) = (.ok (), g') ∧
        (empty.after ops).RenamedAtOnce g' 0 "x" := by
  intro ops
  have hlt : 0 < (empty.after ops).size := by decide +kernel
  have hg := wellFormed_empty.after ops
  have hids : (empty.after ops).reachable 0 = .ok [0, 1, 2] := by
    have hfirst : (empty.after ops).states[0]? = some ⟨"A", .pass {}, some 1⟩ := rfl
    have hsecond : (empty.after ops).states[1]? = some ⟨"xA", .pass {}, some 2⟩ := rfl
    have hthird : (empty.after ops).states[2]? = some ⟨"xxA", .pass {}, some 0⟩ := rfl
    calc (empty.after ops).visit [0] []
      _ = (empty.after ops).visit [1] [0] := visit_of_notMem (by simp) hfirst
      _ = (empty.after ops).visit [2] [0, 1] := visit_of_notMem (by simp) hsecond
      _ = (empty.after ops).visit [0] [0, 1, 2] := visit_of_notMem (by simp) hthird
      _ = (empty.after ops).visit [] [0, 1, 2] := visit_of_mem (by simp)
      _ = .ok [0, 1, 2] := by rw [visit]
  have hfresh : (empty.after ops).FreshPrefix [0, 1, 2] "x" :=
    (forM_checkRenamed_eq_ok_iff hg.indexed (lt_size_of_mem_reachable hids)).1 rfl
  have hout := addPrefix_eq_ok hg hids hfresh
  exact ⟨hlt, _, hout, (addPrefix_renames_at_once ops hlt "x").2.2.2 _ hout⟩

end LifecycleFlow.Graph
