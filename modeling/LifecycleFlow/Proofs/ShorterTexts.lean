import LifecycleFlow.Json.Printer
import LifecycleFlow.Proofs.DocumentRenaming
import LifecycleFlow.Proofs.Lists
import Mathlib.Algebra.Order.Ring.Nat

/-!
# Shorter texts

Fields left out of objects make the text of a value shorter. Main statement: if fields are left out,
items and fields shortened, or all stay as they are, the text is shorter, or the value is the same.
So a value with something left out is told from the whole by its text.
-/
namespace LifecycleFlow

open Json (Object)

namespace Json

/-- What an item takes in the text of an array, with a separator. -/
def itemLength (v : Json) : Nat :=
  v.compact.length + 1

/-- What a field takes in the text of an object, with a separator. -/
def fieldLength (field : String × Json) : Nat :=
  (quote field.1).length + field.2.compact.length + 2

theorem length_compactItems (items : List Json) :
    (compactItems items).length = (items.map itemLength).sum - 1 := by
  match items with
  | [] => rfl
  | [v] => simp [compactItems, itemLength]
  | v :: w :: rest =>
    have ih := length_compactItems (w :: rest)
    simp only [compactItems, String.length_append, ih, List.map_cons, List.sum_cons, itemLength]
    rw [show ",".length = 1 from rfl]
    omega

theorem length_compactFields (fields : Object) :
    (compactFields fields).length = (fields.map fieldLength).sum - 1 := by
  match fields with
  | [] => rfl
  | [(k, v)] =>
    simp only [compactFields, String.length_append, List.map_cons, List.map_nil, List.sum_cons,
      List.sum_nil, fieldLength]
    rw [show ":".length = 1 from rfl]
    omega
  | (k, v) :: f :: rest =>
    have ih := length_compactFields (f :: rest)
    simp only [compactFields, String.length_append, ih, List.map_cons, List.sum_cons, fieldLength]
    rw [show ",".length = 1 from rfl, show ":".length = 1 from rfl]
    omega

/-- The same value, or one of a shorter text. -/
def Shortened (v w : Json) : Prop :=
  v = w ∨ v.compact.length < w.compact.length

variable {v w : Json}

theorem Shortened.compact_eq_iff (h : Shortened v w) : v.compact = w.compact ↔ v = w := by
  refine ⟨fun heq => h.resolve_right ?_, congrArg _⟩
  rw [heq]
  exact Nat.lt_irrefl _

theorem Shortened.trans {u : Json} (huv : Shortened u v) (hvw : Shortened v w) : Shortened u w := by
  rcases huv with rfl | huv
  · exact hvw
  · rcases hvw with rfl | hvw
    · exact .inr huv
    · exact .inr (Nat.lt_trans huv hvw)

theorem shortened_array {f : Json → Json} (hf : ∀ v, Shortened (f v) v) (items : List Json) :
    Shortened (array (items.map f)) (array items) := by
  cases items with
  | nil => exact .inl rfl
  | cons v rest =>
    have hitems := List.filterMap_eq_self_or_sum_lt (f := some ∘ f) itemLength
      (fun _ => Nat.succ_pos _)
      (fun v w hw => Option.some.inj hw ▸ (hf v).imp_right (Nat.add_lt_add_right · 1)) (v :: rest)
    rw [List.filterMap_eq_map] at hitems
    refine hitems.imp (congrArg _) fun h => ?_
    have hpos : 0 < (((v :: rest).map f).map itemLength).sum := by
      simp only [List.map_cons, List.sum_cons, itemLength]
      omega
    simp only [compact, String.length_append, length_compactItems]
    omega

theorem shortened_object {f : String × Json → Option (String × Json)}
    (hf : ∀ a, ∀ b ∈ f a, b.1 = a.1 ∧ Shortened b.2 a.2) (fields : Object) :
    Shortened (object (fields.filterMap f)) (object fields) := by
  have hfield (a : String × Json) : ∀ b ∈ f a, b = a ∨ fieldLength b < fieldLength a := by
    intro b hb
    obtain ⟨hkey, heq | hlt⟩ := hf a b hb
    · exact .inl (Prod.ext hkey heq)
    · right
      rw [fieldLength, fieldLength, hkey]
      omega
  have hfields := List.filterMap_eq_self_or_sum_lt fieldLength (fun _ => Nat.succ_pos _) hfield fields
  refine hfields.imp (congrArg _) fun h => ?_
  have hpos : 1 < (fields.map fieldLength).sum := by
    cases fields with
    | nil => cases h
    | cons a rest =>
      simp only [List.map_cons, List.sum_cons, fieldLength]
      omega
  simp only [compact, String.length_append, length_compactFields]
  omega

theorem shortened_mapItems {f : Json → Json} (hf : ∀ v, Shortened (f v) v) (v : Json) :
    Shortened (v.mapItems f) v := by
  cases v with
  | array items => exact shortened_array hf items
  | _ => exact .inl rfl

def filterFields (p : String × Json → Bool) : Json → Json
  | object fields => object (fields.filter p)
  | v => v

theorem shortened_filterFields (p : String × Json → Bool) (v : Json) :
    Shortened (v.filterFields p) v := by
  cases v with
  | object fields =>
    rw [filterFields, ← List.filterMap_eq_filter]
    refine shortened_object (fun a b hb => ?_) fields
    obtain ⟨rfl, -⟩ := Option.guard_eq_some_iff.1 hb
    exact ⟨rfl, .inl rfl⟩
  | _ => exact .inl rfl

theorem shortened_mapFields {f : String × Json → String × Json}
    (hf : ∀ a, (f a).1 = a.1 ∧ Shortened (f a).2 a.2) (v : Json) : Shortened (v.mapFields f) v := by
  cases v with
  | object fields =>
    rw [mapFields, ← List.filterMap_eq_map]
    refine shortened_object (fun a b hb => ?_) fields
    obtain rfl := Option.some.inj hb
    exact hf a
  | _ => exact .inl rfl

end Json

end LifecycleFlow
