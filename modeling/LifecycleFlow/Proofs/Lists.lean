import Mathlib.Algebra.GroupWithZero.Nat
import Mathlib.Data.List.FinRange
import Mathlib.Data.List.Forall2
import Mathlib.Data.List.Induction
import Mathlib.Data.List.NodupEquivFin
import Mathlib.Data.List.Sort

/-!
# Lists

Lists whose elements are related place by place, lists without repetition, and computations that are
repeated for each element of a list and may fail. Nothing here depends on what the elements are.
-/
namespace List

variable {α β γ ε : Type} {R S : α → β → Prop} {l : List α} {m : List β}

theorem Forall₂.exists_getElem? (h : Forall₂ R l m) {i : Nat} {a : α} (ha : l[i]? = some a) :
    ∃ b, m[i]? = some b ∧ R a b := by
  obtain ⟨hi, rfl⟩ := getElem?_eq_some_iff.1 ha
  have hi' : i < m.length := h.length_eq ▸ hi
  exact ⟨m[i], getElem?_eq_getElem hi', (forall₂_iff_get.1 h).2 i hi hi'⟩

theorem Forall₂.exists_of_mem (h : Forall₂ R l m) {a : α} (ha : a ∈ l) : ∃ b ∈ m, R a b := by
  obtain ⟨i, hi⟩ := mem_iff_getElem?.1 ha
  obtain ⟨b, hb, hab⟩ := h.exists_getElem? hi
  exact ⟨b, mem_of_getElem? hb, hab⟩

theorem Forall₂.imp_of_mem (h : Forall₂ R l m) (himp : ∀ a ∈ l, ∀ b ∈ m, R a b → S a b) :
    Forall₂ S l m :=
  forall₂_iff_zip.2 ⟨h.length_eq, fun hab =>
    have ⟨ha, hb⟩ := of_mem_zip hab
    himp _ ha _ hb (forall₂_zip h hab)⟩

theorem Forall₂.map {α' β' : Type} {Q : α' → β' → Prop} (h : Forall₂ R l m) {f : α → α'}
    {f' : β → β'} (himp : ∀ a b, R a b → Q (f a) (f' b)) : Forall₂ Q (l.map f) (m.map f') :=
  forall₂_map_left_iff.2 (forall₂_map_right_iff.2 (h.imp himp))

theorem map_eq_map_iff_forall₂ {f : α → γ} {f' : β → γ} :
    l.map f = m.map f' ↔ Forall₂ (fun a b => f a = f' b) l m := by
  rw [← forall₂_eq_eq_eq, forall₂_map_left_iff, forall₂_map_right_iff]

/-- Lists without repetition that are related place by place pair their elements. -/
theorem Forall₂.exists_equiv (h : Forall₂ R l m) (hl : l.Nodup) (hm : m.Nodup) {p : α → Prop}
    {q : β → Prop} (hp : ∀ a, p a ↔ a ∈ l) (hq : ∀ b, b ∈ m ↔ q b) :
    ∃ e : {a // p a} ≃ {b // q b}, ∀ a, R a.1 (e a).1 := by
  classical
  let places := (hl.getEquiv).symm.trans ((finCongr h.length_eq).trans (hm.getEquiv))
  have hplaces (a : {a // a ∈ l}) : R a.1 (places a).1 := by
    obtain ⟨k, rfl⟩ := (hl.getEquiv).surjective a
    have hplace : places (hl.getEquiv l k) = hm.getEquiv m (finCongr h.length_eq k) := by
      simp [places]
    rw [hplace]
    exact (forall₂_iff_get.1 h).2 k.1 k.2 (h.length_eq ▸ k.2)
  exact ⟨(Equiv.subtypeEquivRight hp).trans (places.trans (Equiv.subtypeEquivRight hq)),
    fun a => hplaces ⟨a.1, (hp a.1).1 a.2⟩⟩

theorem nodup_eraseDups [BEq α] [LawfulBEq α] (l : List α) : l.eraseDups.Nodup := by
  match l with
  | [] => exact nodup_nil
  | a :: rest =>
    rw [eraseDups_cons, nodup_cons]
    exact ⟨by simp, nodup_eraseDups _⟩
  termination_by l.length
  decreasing_by exact Nat.lt_succ_of_le (length_filter_le _ _)

/-- A function that tells the elements of a list apart commutes with erasing what is repeated. -/
theorem map_eraseDups [BEq α] [LawfulBEq α] [BEq β] [LawfulBEq β] {f : α → β} (l : List α)
    (h : ∀ a ∈ l, ∀ b ∈ l, f a = f b → a = b) : l.eraseDups.map f = (l.map f).eraseDups := by
  match l with
  | [] => rfl
  | a :: rest =>
    have hrest : (rest.map f).filter (fun y => !y == f a) =
        (rest.filter fun b => !b == a).map f := by
      rw [filter_map]
      refine congrArg _ (filter_congr fun b hb => ?_)
      have hsame : f b = f a ↔ b = a :=
        ⟨h b (mem_cons_of_mem _ hb) a mem_cons_self, congrArg f⟩
      simp [hsame]
    have hinj : ∀ b ∈ rest.filter (fun b => !b == a), ∀ c ∈ rest.filter (fun b => !b == a),
        f b = f c → b = c := fun b hb c hc =>
      h b (mem_cons_of_mem _ (mem_filter.1 hb).1) c (mem_cons_of_mem _ (mem_filter.1 hc).1)
    rw [eraseDups_cons, map_cons, map_cons, eraseDups_cons, hrest, map_eraseDups _ hinj]
  termination_by l.length
  decreasing_by exact Nat.lt_succ_of_le (length_filter_le _ _)

/-- The first element that repeats an earlier one. -/
theorem exists_repeated (h : ¬ l.Nodup) :
    ∃ done a rest, l = done ++ a :: rest ∧ done.Nodup ∧ a ∈ done := by
  induction l using reverseRecOn with
  | nil => exact absurd nodup_nil h
  | append_singleton l a ih =>
    by_cases hl : l.Nodup
    · refine ⟨l, a, [], by simp, hl, ?_⟩
      by_contra ha
      exact h (nodup_append.2
        ⟨hl, by simp, by simpa using fun b hb => ne_of_mem_of_not_mem hb ha⟩)
    · obtain ⟨done, b, rest, rfl, hdone, hb⟩ := ih hl
      exact ⟨done, b, rest ++ [a], by simp, hdone, hb⟩

theorem take_finRange (n k : Nat) :
    (finRange n).take k = (finRange n).filter fun i => i.val < k := by
  have hsorted := (sortedLT_finRange n).pairwise
  refine SortedLT.eq_of_mem_iff ?_ ?_ fun i => ?_
  · exact (hsorted.sublist (take_sublist k _)).sortedLT
  · exact (hsorted.sublist filter_sublist).sortedLT
  · simp only [mem_take_iff_getElem, getElem_finRange, length_finRange, mem_filter, mem_finRange,
      true_and, decide_eq_true_eq]
    constructor
    · rintro ⟨j, hj, rfl⟩
      exact Nat.lt_of_lt_of_le hj (Nat.min_le_left k n)
    · intro hlt
      exact ⟨i, Nat.lt_min.2 ⟨hlt, i.isLt⟩, rfl⟩

theorem takeWhile_append_of_stop {p : α → Bool} {w r : List α} (hw : ∀ a ∈ w, p a = true)
    (hr : ∀ a ∈ r.head?, p a = false) : (w ++ r).takeWhile p = w := by
  rw [takeWhile_append_of_pos hw]
  cases r with
  | nil => simp
  | cons a r => simp [hr a rfl]

theorem dropWhile_append_of_stop {p : α → Bool} {w r : List α} (hw : ∀ a ∈ w, p a = true)
    (hr : ∀ a ∈ r.head?, p a = false) : (w ++ r).dropWhile p = r := by
  rw [dropWhile_append_of_pos hw]
  cases r with
  | nil => simp
  | cons a r => simp [hr a rfl]

/-- Elements left out or made smaller: all stay as they are, or the sum is smaller. -/
theorem filterMap_eq_self_or_sum_lt {f : α → Option α} (size : α → Nat) (hsize : ∀ a, 0 < size a)
    (hf : ∀ a, ∀ b ∈ f a, b = a ∨ size b < size a) (l : List α) :
    l.filterMap f = l ∨ ((l.filterMap f).map size).sum < (l.map size).sum := by
  induction l with
  | nil => exact .inl rfl
  | cons a rest ih =>
    have hle : ((rest.filterMap f).map size).sum ≤ (rest.map size).sum := by
      rcases ih with h | h
      · exact Nat.le_of_eq (by rw [h])
      · exact Nat.le_of_lt h
    cases hfa : f a with
    | none =>
      rw [filterMap_cons_none hfa, map_cons, sum_cons]
      exact .inr (by have := hsize a; omega)
    | some b =>
      rw [filterMap_cons_some hfa, map_cons, sum_cons, map_cons, sum_cons]
      rcases hf a b hfa with rfl | hlt
      · exact ih.imp (congrArg _) fun h => by omega
      · exact .inr (by omega)

/-- A repeated check passes exactly if it passes for each element. -/
theorem forM_eq_ok_iff {c : α → Except ε PUnit} {l : List α} :
    l.forM c = .ok ⟨⟩ ↔ ∀ a ∈ l, c a = .ok ⟨⟩ := by
  induction l with
  | nil => simp [pure, Except.pure]
  | cons a r ih =>
    simp only [forM_eq_forM, forM_cons, forall_mem_cons] at ih ⊢
    rw [← ih]
    cases h : c a <;> simp [bind, Except.bind]

/-- A repeated check fails as it fails for the first element for which it fails. -/
theorem forM_eq_error_iff {c : α → Except ε PUnit} {l : List α} {e : ε} :
    l.forM c = .error e ↔ ∃ before a after, l = before ++ a :: after ∧
      (∀ b ∈ before, c b = .ok ⟨⟩) ∧ c a = .error e := by
  constructor
  · intro h
    induction l with
    | nil => simp [pure, Except.pure] at h
    | cons a r ih =>
      simp only [forM_eq_forM, forM_cons] at ih h
      cases ha : c a with
      | error e' =>
        simp only [ha, bind, Except.bind] at h
        exact ⟨[], a, r, rfl, by simp, ha.trans h⟩
      | ok u =>
        simp only [ha, bind, Except.bind] at h
        obtain ⟨before, b, after, rfl, hbefore, hb⟩ := ih h
        exact ⟨a :: before, b, after, rfl, forall_mem_cons.2 ⟨ha, hbefore⟩, hb⟩
  · rintro ⟨before, a, after, rfl, hbefore, ha⟩
    have hpasses : before.forM c = .ok ⟨⟩ := forM_eq_ok_iff.2 hbefore
    simp only [forM_eq_forM, forM_append, forM_cons] at hpasses ⊢
    simp only [hpasses, ha, bind, Except.bind]

/-- A repeated check fails as it fails for one of the elements. -/
theorem exists_of_forM_eq_error {c : α → Except ε PUnit} {l : List α} {e : ε}
    (h : l.forM c = .error e) : ∃ a ∈ l, c a = .error e := by
  obtain ⟨before, a, after, rfl, -, ha⟩ := forM_eq_error_iff.1 h
  exact ⟨a, mem_append_right _ mem_cons_self, ha⟩

theorem mapM_eq_ok {f : α → Except ε β} {k : α → β} {l : List α}
    (h : ∀ a ∈ l, f a = .ok (k a)) : l.mapM f = .ok (l.map k) := by
  induction l with
  | nil => rfl
  | cons a r ih =>
    rw [mapM_cons, h a mem_cons_self, ih fun b hb => h b (mem_cons_of_mem _ hb)]
    rfl

/-- What holds of each answer holds of all of them. -/
theorem forall_mem_of_mapM_eq_ok {f : α → Except ε β} {P : β → Prop} {l : List α} {r : List β}
    (hf : ∀ a ∈ l, ∀ b, f a = .ok b → P b) (h : l.mapM f = .ok r) : ∀ b ∈ r, P b := by
  induction l generalizing r with
  | nil =>
    obtain rfl := Except.ok.inj h
    exact nofun
  | cons a rest ih =>
    obtain ⟨hfirst, hrest⟩ := forall_mem_cons.1 hf
    rw [mapM_cons] at h
    cases ha : f a with
    | error e => simp [ha, bind, Except.bind] at h
    | ok b =>
      cases hr : rest.mapM f with
      | error e => simp [ha, hr, bind, Except.bind] at h
      | ok r' =>
        obtain rfl : b :: r' = r := by simpa [ha, hr, bind, Except.bind, pure, Except.pure] using h
        exact forall_mem_cons.2 ⟨hfirst b ha, ih hrest hr⟩

theorem foldlM_preserves {f : β → α → Except ε β} {P : β → Prop} {l : List α} {b b' : β}
    (hf : ∀ a ∈ l, ∀ b b', P b → f b a = .ok b' → P b') (hb : P b) (h : l.foldlM f b = .ok b') :
    P b' := by
  induction l generalizing b with
  | nil => exact Except.ok.inj h ▸ hb
  | cons a rest ih =>
    obtain ⟨hfirst, hrest⟩ := forall_mem_cons.1 hf
    rw [foldlM_cons] at h
    cases ha : f b a with
    | error e => simp [ha, bind, Except.bind] at h
    | ok b₁ =>
      rw [ha] at h
      exact ih hrest (hfirst b b₁ hb ha) h

end List

namespace Option

variable {α β : Type} {R S : α → β → Prop} {o : Option α} {o' : Option β}

theorem Rel.forall₂_toList (h : Rel R o o') : List.Forall₂ R o.toList o'.toList := by
  cases h with
  | none => exact .nil
  | some h => exact .cons h .nil

theorem Rel.imp_of_mem (h : Rel R o o') (himp : ∀ a ∈ o.toList, ∀ b ∈ o'.toList, R a b → S a b) :
    Rel S o o' := by
  cases h with
  | none => exact .none
  | some h => exact .some (himp _ (by simp) _ (by simp) h)

end Option
