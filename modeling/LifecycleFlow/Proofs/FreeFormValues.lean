import LifecycleFlow.Decoding.Content
import LifecycleFlow.Flow.Encoding
import LifecycleFlow.Proofs.Lists

/-!
# Values of free form

The values of a definition that may be anything: assigned variables, parameters and outputs. Main
statements: a value whose objects have no key twice is decoded as it is, and whatever is decoded has
no key twice. An optional value comes back if it is not null, since null stands for a value that is
absent.
-/
namespace LifecycleFlow

section

variable {α β : Type} {x : Decoded α} {b : β}

@[simp] theorem decoded_pure (a : α) : (pure a : Decoded α) = .ok a := rfl

@[simp] theorem decoded_ok_bind (a : α) (f : α → Decoded β) :
    (Except.ok a : Decoded α) >>= f = f a := rfl

@[simp] theorem decoded_map_ok (f : α → β) (a : α) :
    f <$> (Except.ok a : Decoded α) = .ok (f a) := rfl

theorem decoded_bind_eq_ok_iff {f : α → Decoded β} :
    x >>= f = .ok b ↔ ∃ a, x = .ok a ∧ f a = .ok b := by
  cases x <;> simp [bind, Except.bind]

theorem decoded_map_eq_ok_iff {f : α → β} : f <$> x = .ok b ↔ ∃ a, x = .ok a ∧ f a = b := by
  cases x <;> simp [Functor.map, Except.map]

end

namespace Json

mutual

/-- No object in the value has a key twice. -/
def KeysDistinct : Json → Prop
  | .array items => ItemsDistinct items
  | .object fields => (Object.keys fields).Nodup ∧ FieldsDistinct fields
  | _ => True

def ItemsDistinct : List Json → Prop
  | [] => True
  | v :: r => v.KeysDistinct ∧ ItemsDistinct r

def FieldsDistinct : List (String × Json) → Prop
  | [] => True
  | (_, v) :: r => v.KeysDistinct ∧ FieldsDistinct r

end

theorem fieldsDistinct_insert {key : String} {value : Json} {o : Object} (ho : FieldsDistinct o)
    (hv : value.KeysDistinct) : FieldsDistinct (o.insert key value) := by
  induction o with
  | nil => exact ⟨hv, trivial⟩
  | cons f r ih =>
    rw [Object.insert]
    split
    · exact ⟨hv, ho.2⟩
    · exact ⟨ho.1, ih ho.2⟩

/-- Setting a field to a value with distinct keys leaves the keys of an object distinct. -/
theorem keysDistinct_insert {key : String} {value : Json} {o : Object}
    (ho : (Json.object o).KeysDistinct) (hv : value.KeysDistinct) :
    (Json.object (o.insert key value)).KeysDistinct := by
  refine ⟨?_, fieldsDistinct_insert ho.2 hv⟩
  rw [Object.keys_insert]
  split
  · exact ho.1
  · rename_i hnew
    exact List.nodup_append.2 ⟨ho.1, by simp, by
      intro a ha b hb
      rw [List.mem_singleton.1 hb]
      exact fun heq => hnew (heq ▸ ha)⟩

end Json

namespace Content

open Json

mutual

/-- A value whose objects have no key twice comes back. -/
theorem toJson_ofJson (v : Json) (h : v.KeysDistinct) : (ofJson v).toJson = .ok v := by
  match v with
  | .null => rfl
  | .bool b => rfl
  | .number (.whole n) =>
    rw [ofJson]
    split
    · rename_i hn
      simp [toJson, Int.toNat_of_nonneg hn]
    · rfl
  | .number (.double x) => rfl
  | .string s => rfl
  | .array items =>
    rw [ofJson, toJson, toItems_ofItems items h]
    rfl
  | .object fields =>
    rw [ofJson, toJson, toFields_ofFields .key [] fields h.1 h.2]
    rfl

theorem toItems_ofItems (items : List Json) (h : ItemsDistinct items) :
    toItems (ofItems items) = .ok items := by
  match items with
  | [] => rfl
  | v :: r =>
    rw [ofItems, toItems, toJson_ofJson v h.1, toItems_ofItems r h.2]
    rfl

theorem toFields_ofFields (expected : Expected) (o : Object) (fields : List (String × Json))
    (hkeys : (Object.keys (o ++ fields)).Nodup) (h : FieldsDistinct fields) :
    toFields expected o (ofFields fields) = .ok (o ++ fields) := by
  match fields with
  | [] => simp [ofFields, toFields]
  | (k, v) :: r =>
    have hnew : k ∉ Object.keys o := by
      simp only [Object.keys, List.map_append, List.map_cons, List.nodup_append,
        List.mem_cons] at hkeys
      exact fun hmem => hkeys.2.2 k hmem k (.inl rfl) rfl
    have hrest := toFields_ofFields .string (o ++ [(k, v)]) r (by simpa using hkeys) h.2
    rw [ofFields, toFields, toJson_ofJson v h.1]
    simpa [keyText, Object.insert_of_notMem hnew, bind, Except.bind] using hrest

end

mutual

/-- Whatever is decoded has no key twice. -/
theorem keysDistinct_of_toJson (c : Content) {v : Json} (h : c.toJson = .ok v) :
    v.KeysDistinct := by
  match c with
  | .null | .bool _ | .natural _ | .integer _ | .string _ =>
    obtain rfl := Except.ok.inj h
    exact trivial
  | .double x =>
    cases x <;> obtain rfl := Except.ok.inj h <;> exact trivial
  | .sequence items =>
    rw [toJson, decoded_bind_eq_ok_iff] at h
    obtain ⟨l, hl, hv⟩ := h
    obtain rfl := Except.ok.inj hv
    exact itemsDistinct_of_toItems items hl
  | .mapping entries =>
    rw [toJson, decoded_bind_eq_ok_iff] at h
    obtain ⟨o, ho, hv⟩ := h
    obtain rfl := Except.ok.inj hv
    exact keysDistinct_of_toFields entries ho ⟨List.nodup_nil, trivial⟩

theorem itemsDistinct_of_toItems (items : List Content) {l : List Json}
    (h : toItems items = .ok l) : ItemsDistinct l := by
  match items with
  | [] =>
    obtain rfl := Except.ok.inj h
    exact trivial
  | c :: r =>
    simp only [toItems, decoded_bind_eq_ok_iff] at h
    obtain ⟨v, hv, rest, hrest, hl⟩ := h
    obtain rfl := Except.ok.inj hl
    exact ⟨keysDistinct_of_toJson c hv, itemsDistinct_of_toItems r hrest⟩

theorem keysDistinct_of_toFields (entries : List (Content × Content)) {expected : Expected}
    {o o' : Object} (h : toFields expected o entries = .ok o')
    (ho : (Json.object o).KeysDistinct) : (Json.object o').KeysDistinct := by
  match entries with
  | [] => exact Except.ok.inj h ▸ ho
  | (k, c) :: r =>
    simp only [toFields, decoded_bind_eq_ok_iff] at h
    obtain ⟨key, -, v, hv, hrest⟩ := h
    exact keysDistinct_of_toFields r hrest (keysDistinct_insert ho (keysDistinct_of_toJson c hv))

end

/-- Only null is decoded to null. -/
theorem eq_null_of_toJson_ofJson {v : Json} (h : (ofJson v).toJson = .ok .null) : v = .null := by
  cases v with
  | null => rfl
  | bool b => cases h
  | number n =>
    cases n with
    | whole n =>
      rw [ofJson] at h
      split at h <;> cases h
    | double x => cases h
  | string s => cases h
  | array items =>
    rw [ofJson, toJson, decoded_bind_eq_ok_iff] at h
    obtain ⟨l, -, hl⟩ := h
    cases hl
  | object fields =>
    rw [ofJson, toJson, decoded_bind_eq_ok_iff] at h
    obtain ⟨o, -, ho⟩ := h
    cases ho

end Content

/-- An optional value that comes back when it is written and read: it has no key twice and is not
null. -/
def Recoverable (o : Option Json) : Prop :=
  ∀ v, o = some v → v.KeysDistinct ∧ v ≠ .null

namespace Content

open Json

theorem asOptionalJson_of_ne_null {c : Content} (h : c ≠ .null) :
    c.asOptionalJson = some <$> c.toJson := by
  cases c with
  | null => exact absurd rfl h
  | _ => rfl

theorem asOptionalJson_ofJson {o : Option Json} (h : Recoverable o) :
    (ofJson (optionalJson o)).asOptionalJson = .ok o := by
  cases o with
  | none => rfl
  | some v =>
    obtain ⟨hkeys, hnull⟩ := h v rfl
    have hne : ofJson v ≠ .null := fun hv => hnull (eq_null_of_toJson_ofJson (by rw [hv, toJson]))
    rw [optionalJson, Option.getD_some, asOptionalJson_of_ne_null hne, toJson_ofJson v hkeys]
    rfl

theorem recoverable_of_asOptionalJson {v : Json} {o : Option Json}
    (h : (ofJson v).asOptionalJson = .ok o) : Recoverable o := by
  by_cases hnull : ofJson v = .null
  · rw [hnull] at h
    obtain rfl := Except.ok.inj h
    exact nofun
  · rw [asOptionalJson_of_ne_null hnull, decoded_map_eq_ok_iff] at h
    obtain ⟨w, hw, rfl⟩ := h
    rintro _ ⟨⟩
    refine ⟨keysDistinct_of_toJson _ hw, ?_⟩
    rintro rfl
    exact hnull (by rw [eq_null_of_toJson_ofJson hw, ofJson])

theorem asObject_ofJson {o : Object} (h : (Json.object o).KeysDistinct) :
    (ofJson (.object o)).asObject = .ok o := by
  rw [ofJson, asObject]
  exact toFields_ofFields .string [] o h.1 h.2

theorem keysDistinct_of_asObject {c : Content} {o : Object} (h : c.asObject = .ok o) :
    (Json.object o).KeysDistinct := by
  cases c with
  | mapping entries => exact keysDistinct_of_toFields entries h ⟨List.nodup_nil, trivial⟩
  | _ => cases h

end Content

end LifecycleFlow
