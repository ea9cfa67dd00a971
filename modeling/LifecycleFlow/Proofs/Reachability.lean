import LifecycleFlow.Graph.Reachability
import LifecycleFlow.Proofs.Arena
import Mathlib.Logic.Relation

/-!
# What the search reaches

The depth-first search answers on every graph whose states lead nowhere outside, and answers exactly
the states to which a path of transitions leads from its start.
-/
namespace LifecycleFlow.Graph

variable {g : Graph} {a b start : StateId} {waiting seen ids : List StateId}

theorem visit_of_mem (h : a ∈ seen) : g.visit (a :: waiting) seen = g.visit waiting seen := by
  rw [visit, if_pos (by simpa using h)]

/-- A state that was not seen is entered, and its successors are searched before all others. -/
theorem visit_of_notMem {s : State} (h : a ∉ seen) (hs : g.states[a]? = some s) :
    g.visit (a :: waiting) seen = g.visit (s.successors ++ waiting) (seen ++ [a]) := by
  rw [visit, if_neg (by simpa using h)]
  split
  · rename_i hnone
    rw [hs] at hnone
    cases hnone
  · rename_i s' hs'
    obtain rfl := Option.some.inj (hs.symm.trans hs')
    rfl

theorem visit_of_missing (h : a ∉ seen) (hs : g.states[a]? = none) :
    g.visit (a :: waiting) seen = .error (.unknownState a) := by
  rw [visit, if_neg (by simpa using h)]
  split
  · rfl
  · rename_i s hs'
    rw [hs] at hs'
    cases hs'

/-- The search looks at nothing but where the states lead. -/
theorem visit_congr {g' : Graph} (h : ∀ i : StateId, (g'.states[i]?).map State.successors =
    (g.states[i]?).map State.successors) : g'.visit waiting seen = g.visit waiting seen := by
  fun_induction visit g waiting seen with
  | case1 seen => rw [visit]
  | case2 seen id rest hseen ih => rw [visit_of_mem (by simpa using hseen), ih]
  | case3 seen id rest hseen hnone =>
    have hnone' : g'.states[id]? = none := by simpa [hnone] using h id
    exact visit_of_missing (by simpa using hseen) hnone'
  | case4 seen id rest hseen s hs ih =>
    obtain ⟨s', hs', hsame⟩ : ∃ s', g'.states[id]? = some s' ∧ s'.successors = s.successors := by
      simpa [hs] using h id
    rw [visit_of_notMem (by simpa using hseen) hs', hsame, ih]

/-- A state leads to another one by one transition. -/
def Leads (g : Graph) (a b : StateId) : Prop :=
  ∃ s, g.states[a]? = some s ∧ b ∈ s.successors

abbrev Reaches (g : Graph) : StateId → StateId → Prop :=
  Relation.ReflTransGen g.Leads

theorem subset_of_visit (h : g.visit waiting seen = .ok ids) :
    ∀ a, a ∈ seen ∨ a ∈ waiting → a ∈ ids := by
  fun_induction visit g waiting seen with
  | case1 seen => simp_all
  | case2 seen id rest hseen ih =>
    intro a ha
    simp only [List.mem_cons] at ha
    rcases ha with ha | rfl | ha
    · exact ih h a (.inl ha)
    · exact ih h a (.inl (by simpa using hseen))
    · exact ih h a (.inr ha)
  | case3 => cases h
  | case4 seen id rest hseen s hs ih =>
    intro a ha
    simp only [List.mem_cons] at ha
    exact ih h a (by simp only [List.mem_append, List.mem_singleton]; tauto)

theorem closed_of_visit (h : g.visit waiting seen = .ok ids)
    (hseen : ∀ a ∈ seen, ∀ b, g.Leads a b → b ∈ seen ∨ b ∈ waiting) :
    ∀ a ∈ ids, ∀ b, g.Leads a b → b ∈ ids := by
  fun_induction visit g waiting seen with
  | case1 seen =>
    obtain rfl := Except.ok.inj h
    exact fun a ha b hb => (hseen a ha b hb).resolve_right (by simp)
  | case2 seen id rest hid ih =>
    refine ih h fun a ha b hb => ?_
    rcases hseen a ha b hb with hb | hb
    · exact .inl hb
    · rcases List.mem_cons.1 hb with rfl | hb
      · exact .inl (by simpa using hid)
      · exact .inr hb
  | case3 => cases h
  | case4 seen id rest hid s hs ih =>
    refine ih h fun a ha b hb => ?_
    simp only [List.mem_append, List.mem_singleton] at ha ⊢
    rcases ha with ha | rfl
    · have hfound := hseen a ha b hb
      simp only [List.mem_cons] at hfound
      tauto
    · obtain ⟨s', hs', hb⟩ := hb
      obtain rfl := Option.some.inj (hs.symm.trans hs')
      exact .inr (.inl hb)

/-- To what was found a path leads from a waiting state, unless it was seen before. -/
theorem reaches_of_visit (h : g.visit waiting seen = .ok ids) :
    ∀ a ∈ ids, a ∈ seen ∨ ∃ w ∈ waiting, g.Reaches w a := by
  fun_induction visit g waiting seen with
  | case1 seen => simp_all
  | case2 seen id rest hid ih =>
    intro a ha
    exact (ih h a ha).imp_right fun ⟨w, hw, hp⟩ => ⟨w, List.mem_cons_of_mem _ hw, hp⟩
  | case3 => cases h
  | case4 seen id rest hid s hs ih =>
    intro a ha
    rcases ih h a ha with ha | ⟨w, hw, hp⟩
    · rcases List.mem_append.1 ha with ha | ha
      · exact .inl ha
      · exact .inr ⟨id, by simp, by rw [List.mem_singleton.1 ha]⟩
    · rcases List.mem_append.1 hw with hw | hw
      · exact .inr ⟨id, by simp, .head ⟨s, hs, hw⟩ hp⟩
      · exact .inr ⟨w, List.mem_cons_of_mem _ hw, hp⟩

theorem lt_size_of_visit (h : g.visit waiting seen = .ok ids) (hseen : ∀ a ∈ seen, a < g.size) :
    ∀ a ∈ ids, a < g.size := by
  fun_induction visit g waiting seen with
  | case1 seen => simp_all
  | case2 seen id rest hid ih => exact ih h hseen
  | case3 => cases h
  | case4 seen id rest hid s hs ih =>
    refine ih h fun a ha => ?_
    rcases List.mem_append.1 ha with ha | ha
    · exact hseen a ha
    · rw [List.mem_singleton.1 ha]
      exact (List.getElem?_eq_some_iff.1 hs).1

theorem nodup_of_visit (h : g.visit waiting seen = .ok ids) (hseen : seen.Nodup) : ids.Nodup := by
  fun_induction visit g waiting seen with
  | case1 seen => exact Except.ok.inj h ▸ hseen
  | case2 seen id rest hid ih => exact ih h hseen
  | case3 => cases h
  | case4 seen id rest hid s hs ih =>
    have hnew : id ∉ seen := by simpa using hid
    exact ih h (List.nodup_append_comm.1 (List.nodup_cons.2 ⟨hnew, hseen⟩))

/-- A search that fails was given a state that does not exist. -/
theorem mem_of_visit_eq_error (hg : g.WellFormed) {e : GraphError}
    (h : g.visit waiting seen = .error e) : ∃ id ∈ waiting, e = .unknownState id ∧ g.size ≤ id := by
  fun_induction visit g waiting seen with
  | case1 => cases h
  | case2 seen id rest hid ih =>
    obtain ⟨n, hn, he⟩ := ih h
    exact ⟨n, List.mem_cons_of_mem _ hn, he⟩
  | case3 seen id rest hid hnone =>
    exact ⟨id, by simp, (Except.error.inj h).symm, List.getElem?_eq_none_iff.1 hnone⟩
  | case4 seen id rest hid s hs ih =>
    obtain ⟨n, hn, he, hle⟩ := ih h
    rcases List.mem_append.1 hn with hn | hn
    · exact absurd (hg.closed s (List.mem_of_getElem? hs) n hn) (Nat.not_lt.2 hle)
    · exact ⟨n, List.mem_cons_of_mem _ hn, he, hle⟩

theorem reachable_eq_error (hg : g.WellFormed) {e : GraphError}
    (h : g.reachable start = .error e) : e = .unknownState start ∧ g.size ≤ start := by
  obtain ⟨id, hid, he, hle⟩ := mem_of_visit_eq_error hg h
  rw [List.mem_singleton.1 hid] at he hle
  exact ⟨he, hle⟩

theorem exists_reachable_of_lt (hg : g.WellFormed) (h : start < g.size) :
    ∃ ids, g.reachable start = .ok ids := by
  cases hr : g.reachable start with
  | ok ids => exact ⟨ids, rfl⟩
  | error e => exact absurd h (Nat.not_lt.2 (reachable_eq_error hg hr).2)

/-- The search finds exactly the states to which a path leads. -/
theorem mem_reachable_iff (h : g.reachable start = .ok ids) : a ∈ ids ↔ g.Reaches start a := by
  constructor
  · intro ha
    simpa using reaches_of_visit h a ha
  · intro hp
    have hclosed := closed_of_visit h (by simp)
    induction hp with
    | refl => exact subset_of_visit h start (by simp)
    | tail _ hstep ih => exact hclosed _ ih _ hstep

theorem nodup_of_reachable (h : g.reachable start = .ok ids) : ids.Nodup :=
  nodup_of_visit h List.nodup_nil

theorem lt_size_of_mem_reachable (h : g.reachable start = .ok ids) : ∀ a ∈ ids, a < g.size :=
  lt_size_of_visit h (by simp)

end LifecycleFlow.Graph
