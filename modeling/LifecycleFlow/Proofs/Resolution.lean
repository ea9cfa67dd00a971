import LifecycleFlow.Condition

/-!
# What unknown parts may turn out to be

A condition may hold leaves that cannot be interpreted. Each of them may turn out to be true or
false, each one by itself. Main statement: a condition is settled exactly if all ways in which its
unknown leaves may turn out give the same outcome, and undecided exactly if they give both.
-/
namespace LifecycleFlow.Condition

/-- A leaf that cannot be interpreted: a raw expression, or a comparison whose left side is not a
reference. -/
inductive Uninterpreted : Condition → Prop
  | raw (text : String) : Uninterpreted (.raw text)
  | compare {left op right} (h : Reference.ofText? left = none) :
      Uninterpreted (.compare left op right)

/-- The second condition is the first one with each uninterpreted leaf replaced by true or false. -/
inductive Resolves : Condition → Condition → Prop
  | holds {c} (h : c.Uninterpreted) : Resolves c .always
  | fails {c} (h : c.Uninterpreted) : Resolves c .never
  | compare {left op right names} (h : Reference.ofText? left = some names) :
      Resolves (.compare left op right) (.compare left op right)
  | and {a b a' b'} (ha : Resolves a a') (hb : Resolves b b') : Resolves (.and a b) (.and a' b')
  | or {a b a' b'} (ha : Resolves a a') (hb : Resolves b b') : Resolves (.or a b) (.or a' b')
  | not {a a'} (ha : Resolves a a') : Resolves (.not a) (.not a')
  | always : Resolves .always .always
  | never : Resolves .never .never

/-- Some way to replace the uninterpreted leaves gives this outcome. -/
def MayBe (known : Json.Object) (c : Condition) (outcome : Bool) : Prop :=
  ∃ r, c.Resolves r ∧ r.evaluate known = some outcome

variable {known : Json.Object} {a b c r : Condition} {x y v : Bool}

theorem evaluate_and_of_settled (ha : a.evaluate known = some x) (hb : b.evaluate known = some y) :
    (and a b).evaluate known = some (x && y) := by
  rw [evaluate, ha, hb]
  cases x <;> cases y <;> rfl

theorem evaluate_or_of_settled (ha : a.evaluate known = some x) (hb : b.evaluate known = some y) :
    (or a b).evaluate known = some (x || y) := by
  rw [evaluate, ha, hb]
  cases x <;> cases y <;> rfl

theorem evaluate_not_of_settled (ha : a.evaluate known = some x) :
    (not a).evaluate known = some !x := by
  rw [evaluate, ha]
  rfl

theorem evaluate_compare {left : String} {op : Comparison} {right : Literal} {names : List String}
    (h : Reference.ofText? left = some names) : (compare left op right).evaluate known =
      some (op.holds (Reference.lookup known names) right) := by
  rw [evaluate, h]
  rfl

theorem Uninterpreted.evaluate_eq_none (h : c.Uninterpreted) : c.evaluate known = none := by
  cases h with
  | raw text => rfl
  | compare h => rw [evaluate, h]; rfl

/-- Once its uninterpreted leaves are replaced, every condition is settled. -/
theorem Resolves.exists_evaluate_eq_some (h : c.Resolves r) (known : Json.Object) :
    ∃ v, r.evaluate known = some v := by
  induction h with
  | holds _ => exact ⟨true, rfl⟩
  | fails _ => exact ⟨false, rfl⟩
  | compare h => exact ⟨_, evaluate_compare h⟩
  | and _ _ iha ihb =>
    obtain ⟨x, hx⟩ := iha
    obtain ⟨y, hy⟩ := ihb
    exact ⟨_, evaluate_and_of_settled hx hy⟩
  | or _ _ iha ihb =>
    obtain ⟨x, hx⟩ := iha
    obtain ⟨y, hy⟩ := ihb
    exact ⟨_, evaluate_or_of_settled hx hy⟩
  | not _ iha =>
    obtain ⟨x, hx⟩ := iha
    exact ⟨_, evaluate_not_of_settled hx⟩
  | always => exact ⟨true, rfl⟩
  | never => exact ⟨false, rfl⟩

theorem mayBe_of_uninterpreted (h : c.Uninterpreted) : c.MayBe known v := by
  cases v with
  | true => exact ⟨.always, .holds h, rfl⟩
  | false => exact ⟨.never, .fails h, rfl⟩

theorem mayBe_compare_iff {left : String} {op : Comparison} {right : Literal}
    {names : List String} (h : Reference.ofText? left = some names) :
    (compare left op right).MayBe known v ↔
      op.holds (Reference.lookup known names) right = v := by
  constructor
  · rintro ⟨r, hr, hv⟩
    cases hr with
    | compare => exact Option.some.inj ((evaluate_compare h).symm.trans hv)
    | holds hun => cases hun; simp_all
    | fails hun => cases hun; simp_all
  · rintro rfl
    exact ⟨_, .compare h, evaluate_compare h⟩

theorem mayBe_and_iff :
    (and a b).MayBe known v ↔ ∃ x y, a.MayBe known x ∧ b.MayBe known y ∧ (x && y) = v := by
  constructor
  · rintro ⟨r, hr, hv⟩
    cases hr with
    | and ha hb =>
      obtain ⟨x, hx⟩ := ha.exists_evaluate_eq_some known
      obtain ⟨y, hy⟩ := hb.exists_evaluate_eq_some known
      rw [evaluate_and_of_settled hx hy] at hv
      exact ⟨x, y, ⟨_, ha, hx⟩, ⟨_, hb, hy⟩, Option.some.inj hv⟩
    | holds hun => cases hun
    | fails hun => cases hun
  · rintro ⟨x, y, ⟨a', ha, hx⟩, ⟨b', hb, hy⟩, rfl⟩
    exact ⟨_, .and ha hb, evaluate_and_of_settled hx hy⟩

theorem mayBe_or_iff :
    (or a b).MayBe known v ↔ ∃ x y, a.MayBe known x ∧ b.MayBe known y ∧ (x || y) = v := by
  constructor
  · rintro ⟨r, hr, hv⟩
    cases hr with
    | or ha hb =>
      obtain ⟨x, hx⟩ := ha.exists_evaluate_eq_some known
      obtain ⟨y, hy⟩ := hb.exists_evaluate_eq_some known
      rw [evaluate_or_of_settled hx hy] at hv
      exact ⟨x, y, ⟨_, ha, hx⟩, ⟨_, hb, hy⟩, Option.some.inj hv⟩
    | holds hun => cases hun
    | fails hun => cases hun
  · rintro ⟨x, y, ⟨a', ha, hx⟩, ⟨b', hb, hy⟩, rfl⟩
    exact ⟨_, .or ha hb, evaluate_or_of_settled hx hy⟩

theorem mayBe_not_iff : (not a).MayBe known v ↔ a.MayBe known !v := by
  constructor
  · rintro ⟨r, hr, hv⟩
    cases hr with
    | not ha =>
      obtain ⟨x, hx⟩ := ha.exists_evaluate_eq_some known
      rw [evaluate_not_of_settled hx] at hv
      obtain rfl := Option.some.inj hv
      exact ⟨_, ha, by simpa using hx⟩
    | holds hun => cases hun
    | fails hun => cases hun
  · rintro ⟨a', ha, hx⟩
    exact ⟨_, .not ha, by simpa using evaluate_not_of_settled hx⟩

theorem mayBe_always_iff : always.MayBe known v ↔ v = true := by
  constructor
  · rintro ⟨r, hr, hv⟩
    cases hr with
    | always => exact (Option.some.inj hv).symm
    | holds hun => cases hun
    | fails hun => cases hun
  · rintro rfl
    exact ⟨_, .always, rfl⟩

theorem mayBe_never_iff : never.MayBe known v ↔ v = false := by
  constructor
  · rintro ⟨r, hr, hv⟩
    cases hr with
    | never => exact (Option.some.inj hv).symm
    | holds hun => cases hun
    | fails hun => cases hun
  · rintro rfl
    exact ⟨_, .never, rfl⟩

/-- A condition may have an outcome exactly if it is not settled to the other one. Leaves are
replaced independently of each other, so the outcomes of both sides combine freely. -/
theorem mayBe_iff (c : Condition) : ∀ v, c.MayBe known v ↔ c.evaluate known ≠ some !v := by
  induction c with
  | compare left op right =>
    intro v
    cases h : Reference.ofText? left with
    | none =>
      have hun : (compare left op right).Uninterpreted := .compare h
      simp [mayBe_of_uninterpreted hun, hun.evaluate_eq_none]
    | some names =>
      rw [mayBe_compare_iff h, evaluate_compare h]
      cases v <;> simp
  | and a b iha ihb =>
    intro v
    rw [mayBe_and_iff, evaluate]
    simp only [iha, ihb]
    rcases a.evaluate known with _ | _ | _ <;> rcases b.evaluate known with _ | _ | _ <;>
      revert v <;> decide
  | or a b iha ihb =>
    intro v
    rw [mayBe_or_iff, evaluate]
    simp only [iha, ihb]
    rcases a.evaluate known with _ | _ | _ <;> rcases b.evaluate known with _ | _ | _ <;>
      revert v <;> decide
  | not a iha =>
    intro v
    rw [mayBe_not_iff, evaluate, iha]
    rcases a.evaluate known with _ | _ | _ <;> revert v <;> decide
  | always =>
    intro v
    rw [mayBe_always_iff, evaluate]
    cases v <;> simp
  | never =>
    intro v
    rw [mayBe_never_iff, evaluate]
    cases v <;> simp
  | raw text =>
    intro v
    have hun : (raw text).Uninterpreted := .raw text
    simp [mayBe_of_uninterpreted hun, hun.evaluate_eq_none]

/-- Replacing leaves does not change what was settled before. -/
theorem Resolves.evaluate_eq (h : c.Resolves r) (hv : c.evaluate known = some v) :
    r.evaluate known = some v := by
  obtain ⟨x, hx⟩ := h.exists_evaluate_eq_some known
  have hpossible : c.evaluate known ≠ some !x := (mayBe_iff c x).1 ⟨r, h, hx⟩
  rw [hv] at hpossible
  rw [hx]
  cases x <;> cases v <;> simp_all

theorem mayBe_of_evaluate_eq_none (h : c.evaluate known = none) (v : Bool) :
    c.MayBe known v := by
  rw [mayBe_iff, h]
  simp

theorem exists_resolves (c : Condition) : ∃ r, c.Resolves r := by
  by_cases h : c.evaluate [] = some true
  · have hpossible : c.MayBe [] true := (mayBe_iff c true).2 (by simp [h])
    obtain ⟨r, hr, -⟩ := hpossible
    exact ⟨r, hr⟩
  · have hpossible : c.MayBe [] false := (mayBe_iff c false).2 h
    obtain ⟨r, hr, -⟩ := hpossible
    exact ⟨r, hr⟩

/-- The outcome of a condition is settled exactly if all ways to replace its uninterpreted leaves
have it, and it is undecided exactly if one way gives true and another one false. -/
theorem evaluate_settled_iff_resolutions_agree (known : Json.Object) (c : Condition) :
    (∀ v, c.evaluate known = some v ↔ ∀ r, c.Resolves r → r.evaluate known = some v) ∧
    (c.evaluate known = none ↔
      (∃ r, c.Resolves r ∧ r.evaluate known = some true) ∧
        ∃ r, c.Resolves r ∧ r.evaluate known = some false) := by
  have htrue : c.MayBe known true ↔ c.evaluate known ≠ some false := mayBe_iff c true
  have hfalse : c.MayBe known false ↔ c.evaluate known ≠ some true := mayBe_iff c false
  refine ⟨fun v => ⟨fun h r hr => ?_, fun h => ?_⟩, ?_⟩
  · obtain ⟨x, hx⟩ := hr.exists_evaluate_eq_some known
    have hpossible : c.evaluate known ≠ some !x := (mayBe_iff c x).1 ⟨r, hr, hx⟩
    rw [h] at hpossible
    rw [hx]
    cases x <;> cases v <;> simp_all
  · have hother : ¬ c.MayBe known !v := by
      rintro ⟨r, hr, hv⟩
      rw [h r hr] at hv
      cases v <;> cases hv
    rw [mayBe_iff] at hother
    simpa using hother
  · show _ ↔ c.MayBe known true ∧ c.MayBe known false
    rw [htrue, hfalse]
    rcases c.evaluate known with _ | _ | _ <;> simp

end LifecycleFlow.Condition
