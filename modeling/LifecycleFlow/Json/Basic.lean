import LifecycleFlow.Double

/-!
# JSON values

JSON values. An object is the list of its fields in the order in which they were first set. Main
statements: setting a field gives it the new value and leaves all others alone; the keys keep their
places, and only a new key is added, at the end; fields with different keys are an object already.
-/
namespace LifecycleFlow

inductive JsonNumber
  | whole (n : Int)
  | double (x : FiniteDouble)
  deriving DecidableEq

def JsonNumber.toDouble : JsonNumber → Double
  | .whole n => .ofInt n
  | .double x => .finite x

inductive Json
  | null
  | bool (b : Bool)
  | number (n : JsonNumber)
  | string (s : String)
  | array (items : List Json)
  | object (fields : List (String × Json))

namespace Json

/-- The fields of an object, in order. -/
abbrev Object := List (String × Json)

namespace Object

def find? (key : String) : Object → Option Json
  | [] => none
  | (k, v) :: r => if k = key then some v else find? key r

/-- Sets a field: a key already present keeps its place and takes the new value, a new key comes
last. -/
def insert (key : String) (value : Json) : Object → Object
  | [] => [(key, value)]
  | (k, v) :: r => if k = key then (k, value) :: r else (k, v) :: insert key value r

/-- The object whose fields were set one after the other. -/
def ofList (fields : List (String × Json)) : Object :=
  fields.foldl (fun o f => o.insert f.1 f.2) []

def keys (o : Object) : List String :=
  o.map Prod.fst

@[simp] theorem find?_insert_self (key : String) (value : Json) (o : Object) :
    (o.insert key value).find? key = some value := by
  induction o with
  | nil => simp [insert, find?]
  | cons f r ih => by_cases h : f.1 = key <;> simp [insert, find?, h, ih]

theorem find?_insert_of_ne {key other : String} (h : other ≠ key) (value : Json) (o : Object) :
    (o.insert key value).find? other = o.find? other := by
  induction o with
  | nil => simp [insert, find?, Ne.symm h]
  | cons f r ih =>
    by_cases hk : f.1 = key
    · simp [insert, find?, hk, Ne.symm h]
    · by_cases ho : f.1 = other <;> simp_all [insert, find?]

theorem keys_insert (key : String) (value : Json) (o : Object) :
    (o.insert key value).keys = if key ∈ o.keys then o.keys else o.keys ++ [key] := by
  induction o with
  | nil => simp [insert, keys]
  | cons f r ih =>
    by_cases h : f.1 = key
    · simp [insert, keys, h]
    · simp only [keys] at ih
      by_cases hr : key ∈ r.map Prod.fst <;> simp_all [insert, keys, Ne.symm h]

theorem insert_of_notMem {key : String} {o : Object} (h : key ∉ o.keys) (value : Json) :
    o.insert key value = o ++ [(key, value)] := by
  induction o with
  | nil => rfl
  | cons f r ih =>
    simp only [keys, List.map_cons, List.mem_cons, not_or] at h
    have hr : insert key value r = r ++ [(key, value)] := ih h.2
    simp [insert, Ne.symm h.1, hr]

/-- Fields with different keys are set without one replacing another. -/
theorem ofList_eq_self {fields : List (String × Json)} (h : (keys fields).Nodup) :
    ofList fields = fields := by
  suffices hall : ∀ (rest : List (String × Json)) (o : Object), (keys (o ++ rest)).Nodup →
      rest.foldl (fun o f => insert f.1 f.2 o) o = o ++ rest from hall fields [] h
  intro rest
  induction rest with
  | nil => simp
  | cons f r ih =>
    intro o ho
    have hnew : f.1 ∉ keys o := by
      simp only [keys, List.map_append, List.map_cons, List.nodup_append, List.mem_cons] at ho
      exact fun hmem => ho.2.2 f.1 hmem f.1 (.inl rfl) rfl
    rw [List.foldl_cons, insert_of_notMem hnew, ih _ (by simpa using ho)]
    simp

theorem find?_append (key : String) (a b : Object) :
    find? key (a ++ b) = (find? key a).or (find? key b) := by
  induction a with
  | nil => rfl
  | cons f r ih =>
    by_cases h : f.1 = key
    · simp [find?, h]
    · simpa [find?, h] using ih

end Object

/-- The field of an object; nothing else has fields. -/
def field? (key : String) : Json → Option Json
  | .object fields => Object.find? key fields
  | _ => none

end Json

end LifecycleFlow
