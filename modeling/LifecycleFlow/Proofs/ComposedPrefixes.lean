import LifecycleFlow.Proofs.SimultaneousRenaming

/-!
# One prefix before another

A rename changes names alone, so the search finds the same states after it, and a second rename
meets them under their new names. Main statement: an empty prefix changes nothing; two prefixes put
before the names of the same states are one, whatever names the states had in between; and where a
part of what is renamed was renamed before, the states of that part have both prefixes.
-/
namespace LifecycleFlow.Graph

variable {g g' g₁ g₂ : Graph} {ids inside around : List StateId} {id start inner outer : StateId}
  {front first second : String}

/-- An index that finds exactly the names of the states is known by the states. -/
theorem Indexed.eq_of_states_eq (hg : g.Indexed) (hg' : g'.Indexed) (h : g'.states = g.states) :
    g' = g := by
  have hnamed (name : String) (id : StateId) : g'.Named id name ↔ g.Named id name := by
    rw [Named, Named, h]
  have hnames : g'.names = g.names := by
    apply Std.ExtTreeMap.ext_getElem?
    intro name
    apply Option.ext
    intro id
    exact (hg' name id).trans ((hnamed name id).trans (hg name id).symm)
  exact eq_of_getElem? hnames fun i => by rw [h]

theorem reachable_withPrefixed :
    (g.withPrefixed ids front).reachable start = g.reachable start := by
  apply visit_congr
  intro i
  rw [getElem?_withPrefixed, Option.map_map]
  apply congrArg (Option.map · g.states[i]?)
  funext s
  dsimp only [Function.comp_apply]
  split <;> rfl

theorem Indexed.freshPrefix_empty (hg : g.Indexed) : g.FreshPrefix ids "" := by
  intro id hid name hname owner howner
  rw [String.empty_append] at howner
  exact hg.id_eq hname howner ▸ hid

theorem states_withPrefixed_empty : (g.withPrefixed ids "").states = g.states := by
  apply List.ext_getElem?
  intro i
  rw [getElem?_withPrefixed]
  cases g.states[i]? with
  | none => rfl
  | some s => simp

theorem withPrefixed_empty (hg : g.WellFormed) : g.withPrefixed ids "" = g :=
  hg.indexed.eq_of_states_eq (hg.withPrefixed hg.indexed.freshPrefix_empty).indexed
    states_withPrefixed_empty

theorem outcome_addPrefix_empty (hg : g.WellFormed) (h : start < g.size) :
    outcome (addPrefix start "") g = (.ok (), g) := by
  obtain ⟨ids, hids⟩ := exists_reachable_of_lt hg h
  rw [addPrefix_eq_ok hg hids hg.indexed.freshPrefix_empty, withPrefixed_empty hg]

/-- Names outside the renamed states stay, so the second prefix meets those that both prefixes
together meet. -/
theorem freshPrefix_withPrefixed_iff :
    (g.withPrefixed ids first).FreshPrefix ids second ↔ g.FreshPrefix ids (second ++ first) := by
  constructor
  · intro h id hid name hname owner howner
    by_contra hout
    rw [String.append_assoc] at howner
    have hnew : (g.withPrefixed ids first).Named id (first ++ name) :=
      named_withPrefixed.2 (.inl ⟨hid, name, hname, rfl⟩)
    exact hout (h id hid _ hnew owner (named_withPrefixed.2 (.inr ⟨hout, howner⟩)))
  · intro h id hid name hname owner howner
    rcases named_withPrefixed.1 hname with ⟨-, old, hold, rfl⟩ | ⟨hout, -⟩
    · rcases named_withPrefixed.1 howner with ⟨howner, -⟩ | ⟨-, howner⟩
      · exact howner
      · rw [← String.append_assoc] at howner
        exact h id hid old hold owner howner
    · exact absurd hid hout

theorem states_withPrefixed_withPrefixed :
    ((g.withPrefixed ids first).withPrefixed ids second).states =
      (g.withPrefixed ids (second ++ first)).states := by
  apply List.ext_getElem?
  intro i
  simp only [getElem?_withPrefixed, Option.map_map]
  apply congrArg (Option.map · g.states[i]?)
  funext s
  by_cases hi : i ∈ ids <;> simp [hi, String.append_assoc]

/-- The index does not remember the names in between. -/
theorem withPrefixed_withPrefixed (hg : g.WellFormed) (hfirst : g.FreshPrefix ids first)
    (hboth : g.FreshPrefix ids (second ++ first)) :
    (g.withPrefixed ids first).withPrefixed ids second = g.withPrefixed ids (second ++ first) := by
  have hsecond := freshPrefix_withPrefixed_iff.2 hboth
  exact (hg.withPrefixed hboth).indexed.eq_of_states_eq
    ((hg.withPrefixed hfirst).withPrefixed hsecond).indexed states_withPrefixed_withPrefixed

theorem addPrefix_eq_ok_iff (hg : g.WellFormed) (hids : g.reachable start = .ok ids) :
    outcome (addPrefix start front) g = (.ok (), g') ↔
      g.FreshPrefix ids front ∧ g' = g.withPrefixed ids front := by
  constructor
  · intro h
    obtain ⟨ids', hids', hfresh, rfl⟩ := exists_of_addPrefix_eq_ok hg h
    obtain rfl := Except.ok.inj (hids.symm.trans hids')
    exact ⟨hfresh, rfl⟩
  · rintro ⟨hfresh, rfl⟩
    exact addPrefix_eq_ok hg hids hfresh

/-- After a first rename of some states, a second one succeeds exactly if a rename by both prefixes
at once had succeeded, and it leaves the same graph. -/
theorem addPrefix_addPrefix_iff (hg : g.WellFormed)
    (h : outcome (addPrefix start first) g = (.ok (), g₁)) :
    outcome (addPrefix start second) g₁ = (.ok (), g₂) ↔
      outcome (addPrefix start (second ++ first)) g = (.ok (), g₂) := by
  obtain ⟨ids, hids, hfirst, rfl⟩ := exists_of_addPrefix_eq_ok hg h
  rw [addPrefix_eq_ok_iff (hg.withPrefixed hfirst) (reachable_withPrefixed.trans hids),
    addPrefix_eq_ok_iff hg hids, freshPrefix_withPrefixed_iff]
  apply and_congr_right
  intro hboth
  rw [withPrefixed_withPrefixed hg hfirst hboth]

/-- A graph is another one in which the states reachable from an inner start have got two prefixes,
the other states reachable from an outer start the second one only, and no other state a new name;
the index finds the new names. -/
structure RenamedNested (g g' : Graph) (outer inner : StateId) (first second : String) : Prop where
  size : g'.size = g.size
  inside : ∀ id s, g.Reaches inner id → g.states[id]? = some s →
    g'.states[id]? = some { s with name := second ++ first ++ s.name }
  around : ∀ id s, g.Reaches outer id → ¬ g.Reaches inner id → g.states[id]? = some s →
    g'.states[id]? = some { s with name := second ++ s.name }
  kept : ∀ id s, ¬ g.Reaches outer id → g.states[id]? = some s → g'.states[id]? = some s
  indexed : g'.Indexed

theorem renamedNested_of_addPrefix (hg : g.WellFormed) (hpath : g.Reaches outer inner)
    (hfirst : outcome (addPrefix inner first) g = (.ok (), g₁))
    (hsecond : outcome (addPrefix outer second) g₁ = (.ok (), g₂)) :
    g.RenamedNested g₂ outer inner first second := by
  obtain ⟨inside, hinside, hfresh, rfl⟩ := exists_of_addPrefix_eq_ok hg hfirst
  have hg₁ := hg.withPrefixed hfresh
  obtain ⟨around, haround, hfresh', rfl⟩ := exists_of_addPrefix_eq_ok hg₁ hsecond
  rw [reachable_withPrefixed] at haround
  have hin (id : StateId) : id ∈ inside ↔ g.Reaches inner id := mem_reachable_iff hinside
  have hout (id : StateId) : id ∈ around ↔ g.Reaches outer id := mem_reachable_iff haround
  refine ⟨by rw [size_withPrefixed, size_withPrefixed], fun id s hid hs => ?_,
    fun id s hid hnot hs => ?_, fun id s hid hs => ?_, (hg₁.withPrefixed hfresh').indexed⟩
  · have hid' : g.Reaches outer id := hpath.trans hid
    simp [getElem?_withPrefixed, hs, hin, hout, hid, hid', String.append_assoc]
  · simp [getElem?_withPrefixed, hs, hin, hout, hid, hnot]
  · -- What the inner start reaches, the outer one reaches too.
    have hnot : ¬ g.Reaches inner id := fun h => hid (hpath.trans h)
    simp [getElem?_withPrefixed, hs, hin, hout, hid, hnot]

/-- In whatever graph was brought about, a rename by the empty prefix changes nothing. After a
rename by one prefix, a rename of the same states by a second one succeeds exactly if a rename by
the second before the first succeeds at once, and leaves the same graph. If a part of what a start
reaches was renamed before, the states of that part have both prefixes, the other reachable ones the
second, and the rest their old names. -/
theorem prefixes_compose (ops : List Operation) :
    (∀ start < (empty.after ops).size,
      outcome (addPrefix start "") (empty.after ops) = (.ok (), empty.after ops)) ∧
    (∀ (start : StateId) (first second : String) (g₁ g₂ : Graph),
      outcome (addPrefix start first) (empty.after ops) = (.ok (), g₁) →
      (outcome (addPrefix start second) g₁ = (.ok (), g₂) ↔
        outcome (addPrefix start (second ++ first)) (empty.after ops) = (.ok (), g₂))) ∧
    ∀ (outer inner : StateId) (first second : String) (g₁ g₂ : Graph),
      (empty.after ops).Reaches outer inner →
      outcome (addPrefix inner first) (empty.after ops) = (.ok (), g₁) →
      outcome (addPrefix outer second) g₁ = (.ok (), g₂) →
      (empty.after ops).RenamedNested g₂ outer inner first second := by
  have hg := wellFormed_empty.after ops
  refine ⟨fun start h => ?_, fun start first second g₁ g₂ h => ?_,
    fun outer inner first second g₁ g₂ hpath hfirst hsecond => ?_⟩
  · exact outcome_addPrefix_empty hg h
  · exact addPrefix_addPrefix_iff hg h
  · exact renamedNested_of_addPrefix hg hpath hfirst hsecond

/-- The first new name of a state is the old name of another one, which is renamed with it; the
state before them is renamed later. -/
theorem prefixes_compose_passed_name :
    let g := empty.after [.addPass "A" {}, .addPass "xA" {}, .addPass "B" {}, .addPass "C" {},
      .setNext 0 1, .setNext 2 0]
    0 < g.size ∧ outcome (addPrefix 0 "") g = (.ok (), g) ∧ g.Reaches 2 0 ∧
      ∃ g₁, outcome (addPrefix 0 "x") g = (.ok (), g₁) ∧
        (∃ g₂, outcome (addPrefix 0 "x") g₁ = (.ok (), g₂) ∧
          outcome (addPrefix 0 ("x" ++ "x")) g = (.ok (), g₂)) ∧
        ∃ g₂, outcome (addPrefix 2 "y") g₁ = (.ok (), g₂) ∧ g.RenamedNested g₂ 2 0 "x" "y" := by
  intro g
  have hg : g.WellFormed := wellFormed_empty.after _
  have hsize : 0 < g.size := by decide +kernel
  have hfirst : g.states[0]? = some ⟨"A", .pass {}, some 1⟩ := rfl
  have hsecond : g.states[1]? = some ⟨"xA", .pass {}, none⟩ := rfl
  have hthird : g.states[2]? = some ⟨"B", .pass {}, some 0⟩ := rfl
  have hinside : g.reachable 0 = .ok [0, 1] := by
    calc g.visit [0] []
      _ = g.visit [1] [0] := visit_of_notMem (by simp) hfirst
      _ = g.visit [] [0, 1] := visit_of_notMem (by simp) hsecond
      _ = .ok [0, 1] := by rw [visit]
  have haround : g.reachable 2 = .ok [2, 0, 1] := by
    calc g.visit [2] []
      _ = g.visit [0] [2] := visit_of_notMem (by simp) hthird
      _ = g.visit [1] [2, 0] := visit_of_notMem (by simp) hfirst
      _ = g.visit [] [2, 0, 1] := visit_of_notMem (by simp) hsecond
      _ = .ok [2, 0, 1] := by rw [visit]
  have hpath : g.Reaches 2 0 := (mem_reachable_iff haround).1 (by simp)
  have hfresh : g.FreshPrefix [0, 1] "x" :=
    (forM_checkRenamed_eq_ok_iff hg.indexed (lt_size_of_mem_reachable hinside)).1 rfl
  have hg₁ := hg.withPrefixed hfresh
  have hone := addPrefix_eq_ok hg hinside hfresh
  have hagain : (g.withPrefixed [0, 1] "x").FreshPrefix [0, 1] "x" :=
    (forM_checkRenamed_eq_ok_iff hg₁.indexed (by decide +kernel)).1 rfl
  have haround' : (g.withPrefixed [0, 1] "x").FreshPrefix [2, 0, 1] "y" :=
    (forM_checkRenamed_eq_ok_iff hg₁.indexed (by decide +kernel)).1 rfl
  have htwo := addPrefix_eq_ok hg₁ (reachable_withPrefixed.trans hinside) hagain
  have hwhole := addPrefix_eq_ok hg₁ (reachable_withPrefixed.trans haround) haround'
  obtain ⟨hempty, hcompose, hnested⟩ := prefixes_compose [.addPass "A" {}, .addPass "xA" {},
    .addPass "B" {}, .addPass "C" {}, .setNext 0 1, .setNext 2 0]
  exact ⟨hsize, hempty 0 hsize, hpath, _, hone, ⟨_, htwo, (hcompose 0 "x" "x" _ _ hone).1 htwo⟩,
    _, hwhole, hnested 2 0 "x" "y" _ _ hpath hone hwhole⟩

end LifecycleFlow.Graph
