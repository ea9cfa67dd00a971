import LifecycleFlow.Decoding.Definition
import LifecycleFlow.Proofs.FreeFormValues
import LifecycleFlow.Proofs.Lists

/-!
# Fields of records

How records are decoded, whatever their fields are: the fields named by the keys of a mapping, or
all in order, are set one after the other. Main statement: what setting one field preserves, setting
all of them preserves. The kind of a step is no field; the first entry says it.
-/
namespace LifecycleFlow

open Content

namespace Draft

variable {α δ : Type} {name : String}

@[simp] theorem once_none (name : String) (value : Decoded α) :
    once name none value = some <$> value := rfl

@[simp] theorem required_some (missing : String → DecodeError) (name : String) (a : α) :
    required missing name (some a) = .ok a := rfl

theorem required_eq_ok_iff {missing : String → DecodeError} {o : Option α} {a : α} :
    required missing name o = .ok a ↔ o = some a := by
  cases o <;> simp [required]

/-- A draft takes a field if it was not set before and the value is right. -/
theorem set_eq_ok_iff {old : Option α} {value : Decoded α} {f : Option α → δ} {d : δ} :
    (do return f (← once name old value)) = .ok d ↔
      old = none ∧ ∃ a, value = .ok a ∧ f (some a) = d := by
  cases old with
  | some b => simp [once, decoded_bind_eq_ok_iff]
  | none => cases value <;> simp [decoded_bind_eq_ok_iff]

end Draft

namespace Record

variable {δ : Type} {r : Record} {set : δ → String → Content → Decoded δ} {d d' : δ}

/-- Sets the fields of a record that the keys of entries name. -/
def setEntries (r : Record) (set : δ → String → Content → Decoded δ) (d : δ)
    (entries : List (Content × Content)) : Decoded δ :=
  entries.foldlM (fun d e => do
    match ← e.1.asField r with
    | some field => set d field e.2
    | none => .ok d) d

/-- Sets fields in order. -/
def setItems (set : δ → String → Content → Decoded δ) (d : δ) (fields : List String)
    (items : List Content) : Decoded δ :=
  (fields.zip items).foldlM (fun d e => set d e.1 e.2) d

@[simp] theorem setEntries_nil (r : Record) (set : δ → String → Content → Decoded δ) (d : δ) :
    r.setEntries set d [] = .ok d := rfl

theorem setEntries_field {field : String} (hf : field ∈ r.fields) (v : Content)
    (rest : List (Content × Content)) :
    r.setEntries set d ((.string field, v) :: rest) =
      set d field v >>= fun d => r.setEntries set d rest := by
  simp [setEntries, asField, hf]

theorem setEntries_other {key : String} (hk : key ∉ r.fields) (v : Content)
    (rest : List (Content × Content)) :
    r.setEntries set d ((.string key, v) :: rest) = r.setEntries set d rest := by
  simp [setEntries, asField, hk]

/-- A function that sets the fields of a mapping entry by entry sets them all. -/
theorem eq_setEntries {f : δ → List (Content × Content) → Decoded δ} (hnil : ∀ d, f d [] = .ok d)
    (hcons : ∀ d k v rest, f d ((k, v) :: rest) = (do
      match ← k.asField r with
      | some field => f (← set d field v) rest
      | none => f d rest))
    (d : δ) (entries : List (Content × Content)) : f d entries = r.setEntries set d entries := by
  induction entries generalizing d with
  | nil => rw [hnil, setEntries_nil]
  | cons e rest ih =>
    simp only [hcons, ih, setEntries, List.foldlM_cons, bind_assoc]
    congr 1
    funext field
    cases field <;> rfl

/-- A function that sets the fields of a sequence item by item, as far as there are fields, sets
them all. -/
theorem eq_setItems {f : δ → List String → List Content → Decoded δ}
    (hnil : ∀ d fields, f d fields [] = .ok d) (hend : ∀ d v rest, f d [] (v :: rest) = .ok d)
    (hcons : ∀ d field fields v rest, f d (field :: fields) (v :: rest) = (do
      f (← set d field v) fields rest))
    (d : δ) (fields : List String) (items : List Content) :
    f d fields items = setItems set d fields items := by
  induction items generalizing d fields with
  | nil =>
    rw [hnil, setItems, List.zip_nil_right]
    rfl
  | cons v rest ih =>
    cases fields with
    | nil => exact hend d v rest
    | cons field fields => simp only [hcons, ih, setItems, List.zip_cons_cons, List.foldlM_cons]

variable {P : δ → Prop} {Q : Content → Prop}

/-- What setting one field preserves, setting the fields of a mapping preserves. -/
theorem setEntries_preserves {entries : List (Content × Content)}
    (hset : ∀ {d d' field v}, P d → Q v → set d field v = .ok d' → P d')
    (hentries : ∀ e ∈ entries, Q e.2) (hd : P d) (h : r.setEntries set d entries = .ok d') :
    P d' := by
  refine List.foldlM_preserves (fun e he d d' hd h => ?_) hd h
  obtain ⟨field, -, h⟩ := decoded_bind_eq_ok_iff.1 h
  cases field with
  | none => exact Except.ok.inj h ▸ hd
  | some field => exact hset hd (hentries e he) h

/-- What setting one field preserves, setting the fields of a sequence preserves. -/
theorem setItems_preserves {fields : List String} {items : List Content}
    (hset : ∀ {d d' field v}, P d → Q v → set d field v = .ok d' → P d')
    (hitems : ∀ v ∈ items, Q v) (hd : P d) (h : setItems set d fields items = .ok d') : P d' :=
  List.foldlM_preserves (fun e he _ _ hd h => hset hd (hitems e.2 (List.of_mem_zip he).2) h) hd h

end Record

theorem PassDraft.setEntries_eq (d : PassDraft) (entries : List (Content × Content)) :
    d.setEntries entries = Record.setEntries .pass PassDraft.set d entries := rfl

theorem PassDraft.setItems_eq (d : PassDraft) (items : List Content) :
    d.setItems items = Record.setItems PassDraft.set d (Record.fields .pass) items := rfl

theorem FailDraft.setEntries_eq (d : FailDraft) (entries : List (Content × Content)) :
    d.setEntries entries = Record.setEntries .fail FailDraft.set d entries := rfl

namespace Step

theorem taskEntries_eq (d : TaskDraft) (entries : List (Content × Content)) :
    taskEntries d entries = Record.setEntries .task setTask d entries :=
  Record.eq_setEntries (fun _ => rfl) (fun _ _ _ _ => rfl) d entries

theorem taskItems_eq (d : TaskDraft) (fields : List String) (items : List Content) :
    taskItems d fields items = Record.setItems setTask d fields items :=
  Record.eq_setItems (fun _ _ => rfl) (fun _ _ _ => rfl) (fun _ _ _ _ _ => rfl) d fields items

theorem handlerEntries_eq (d : HandlerDraft) (entries : List (Content × Content)) :
    handlerEntries d entries = Record.setEntries .handler setHandler d entries :=
  Record.eq_setEntries (fun _ => rfl) (fun _ _ _ _ => rfl) d entries

theorem handlerItems_eq (d : HandlerDraft) (fields : List String) (items : List Content) :
    handlerItems d fields items = Record.setItems setHandler d fields items :=
  Record.eq_setItems (fun _ _ => rfl) (fun _ _ _ => rfl) (fun _ _ _ _ _ => rfl) d fields items

theorem stepList_eq_mapM (items : List Content) : stepList items = items.mapM Step.ofContent := by
  induction items with
  | nil => rfl
  | cons c r ih =>
    rw [stepList, ih, List.mapM_cons]

theorem handlerList_eq_mapM (items : List Content) : handlerList items = items.mapM handlerOf := by
  induction items with
  | nil => rfl
  | cons c r ih =>
    rw [handlerList, ih, List.mapM_cons]

end Step

namespace FlowDefinition

theorem ofContent_mapping (entries : List (Content × Content)) :
    ofContent (.mapping entries) =
      Record.setEntries .definition setField {} entries >>= (·.toDefinition .missingField) := rfl

theorem ofContent_sequence (items : List Content) :
    ofContent (.sequence items) = (do
      let draft ← Record.setItems setField {} (Record.fields .definition) items
      let d ← draft.toDefinition (Draft.tooShort .definition)
      if (Record.fields .definition).length < items.length then
        .error (.invalidLength items.length .fewer)
      return d) := rfl

end FlowDefinition

namespace StepKind

theorem ofLabel_label (k : StepKind) : ofLabel k.label = .ok k := by
  cases k <;> rfl

theorem ofEntries_some {k : StepKind} {fields : Json.Object} (h : key ∉ Json.Object.keys fields) :
    ofEntries (some k) (ofFields fields) = .ok k := by
  induction fields with
  | nil => rfl
  | cons f r ih =>
    simp only [Json.Object.keys, List.map_cons, List.mem_cons, not_or] at h
    rw [ofFields, ofEntries, if_neg (Ne.symm h.1), ih h.2]

/-- The first entry says the kind if no other one has its key. -/
theorem ofEntries_label (k : StepKind) {fields : Json.Object} (h : key ∉ Json.Object.keys fields) :
    ofEntries none (ofFields ((key, .string k.label) :: fields)) = .ok k := by
  simp [ofFields, ofEntries, ofJson, ofContent, ofLabel_label, ofEntries_some h]

theorem key_notMem_fields (r : Record) : key ∉ r.fields := by
  cases r <;> decide

end StepKind

namespace Step

theorem ofEntries_kind (k : StepKind) (v : Content) (entries : List (Content × Content)) :
    Step.ofEntries k ((.string StepKind.key, v) :: entries) = Step.ofEntries k entries := by
  cases k <;> simp only [Step.ofEntries, finishEntries, taskEntries_eq, PassDraft.setEntries_eq,
    FailDraft.setEntries_eq, Record.setEntries_other (StepKind.key_notMem_fields _)]

/-- A step whose kind is the first field of an object is decoded from the other fields. -/
theorem ofContent_object (k : StepKind) {fields : Json.Object}
    (h : StepKind.key ∉ Json.Object.keys fields) :
    Step.ofContent (.ofJson (.object ((StepKind.key, .string k.label) :: fields))) =
      Step.ofEntries k (ofFields fields) := by
  rw [ofJson, Step.ofContent, StepKind.ofEntries_label k h]
  exact ofEntries_kind k _ _

end Step

end LifecycleFlow
