import LifecycleFlow.Proofs.Correspondence
import LifecycleFlow.Proofs.ShorterTexts
import LifecycleFlow.Proofs.ValueMaps

/-!
# Documents without explicit nulls

Parameters and outputs of states, and outputs of catchers, are absent or a value, and the value may
be null: then the document has a field for it. Main statement: a graph in which these nulls are
absent has the document of the graph without these fields, which is told from it by its text; and a
state of which the same is written has none.
-/
namespace LifecycleFlow

open LifecycleFlow.Graph (optionalField optionalText assignField)
open Json (Object)

/-- A value, unless it is null. -/
def Json.dropNull : Json → Option Json
  | .null => none
  | v => some v

theorem Json.dropNull_eq_some_iff {v w : Json} : v.dropNull = some w ↔ v = w ∧ v ≠ .null := by
  cases v <;> simp [dropNull]

theorem bind_dropNull_eq_some_iff {o : Option Json} {v : Json} :
    o.bind Json.dropNull = some v ↔ o = some v ∧ v ≠ .null := by
  cases o with
  | none => simp
  | some w =>
    rw [Option.bind_some, Json.dropNull_eq_some_iff, Option.some.injEq]
    exact ⟨fun ⟨heq, hne⟩ => ⟨heq, heq ▸ hne⟩, fun ⟨heq, hne⟩ => ⟨heq, heq.symm ▸ hne⟩⟩

theorem bind_dropNull_eq_self_iff {o : Option Json} :
    o.bind Json.dropNull = o ↔ o ≠ some .null := by
  cases o with
  | none => simp
  | some v => simp [Json.dropNull_eq_some_iff]

namespace Document

/-- Whether a field is not parameters or outputs that are null. -/
def isKept (field : String × Json) : Bool :=
  match field.2 with
  | .null => field.1 ≠ "Arguments" ∧ field.1 ≠ "Output"
  | _ => true

theorem isKept_of_ne_null {key : String} {v : Json} (h : v ≠ .null) : isKept (key, v) = true := by
  cases v <;> first | rfl | exact absurd rfl h

/-- A field of an entry, the catchers in it without explicit nulls. -/
def dropCatcherNulls (field : String × Json) : String × Json :=
  if field.1 = "Catch" then (field.1, field.2.mapItems (Json.filterFields isKept)) else field

/-- The fields of an entry without explicit nulls. -/
def dropFieldNulls (fields : Object) : Object :=
  (fields.filter isKept).map dropCatcherNulls

/-- An entry under its name without explicit nulls. -/
def dropEntryNulls (entry : String × Json) : String × Json :=
  match entry.2 with
  | .object fields => (entry.1, .object (dropFieldNulls fields))
  | v => (entry.1, v)

def dropDocumentNulls (field : String × Json) : String × Json :=
  if field.1 = "States" then (field.1, field.2.mapFields dropEntryNulls) else field

/-- A document without explicit nulls: parameters and outputs of states, and outputs of catchers,
that are null are left out. -/
def dropNulls : Json → Json :=
  Json.mapFields dropDocumentNulls

variable {name : StateId → String} {a b : Object}

theorem dropFieldNulls_append : dropFieldNulls (a ++ b) = dropFieldNulls a ++ dropFieldNulls b := by
  simp [dropFieldNulls]

/-- A field with no null in it and with no catchers is left alone. -/
theorem dropFieldNulls_singleton {key : String} {v : Json} (hkey : key ≠ "Catch")
    (hv : v ≠ .null) : dropFieldNulls [(key, v)] = [(key, v)] := by
  simp [dropFieldNulls, isKept_of_ne_null hv, dropCatcherNulls, hkey]

theorem dropFieldNulls_optionalText {key : String} (hkey : key ≠ "Catch") (o : Option String) :
    dropFieldNulls (optionalText key o) = optionalText key o := by
  cases o with
  | none => rfl
  | some s => exact dropFieldNulls_singleton hkey (by simp)

theorem dropFieldNulls_assignField (assign : Object) :
    dropFieldNulls (assignField assign) = assignField assign := by
  rw [assignField]
  split
  · rfl
  · exact dropFieldNulls_singleton (by decide) (by simp)

theorem filter_optionalField {key : String} (hkey : key = "Arguments" ∨ key = "Output")
    (o : Option Json) :
    (optionalField key o).filter isKept = optionalField key (o.bind Json.dropNull) := by
  cases o with
  | none => rfl
  | some v =>
    rcases hkey with rfl | rfl <;> cases v <;> rfl

theorem dropFieldNulls_optionalField {key : String} (hkey : key = "Arguments" ∨ key = "Output")
    (o : Option Json) :
    dropFieldNulls (optionalField key o) = optionalField key (o.bind Json.dropNull) := by
  rw [dropFieldNulls, filter_optionalField hkey]
  refine map_optionalField (fun v => ?_) _
  rcases hkey with rfl | rfl <;> rfl

theorem filterFields_written_catcher (c : Catcher) :
    (c.written name).filterFields isKept = (c.mapValues Json.dropNull).written name := by
  have houtput := filter_optionalField (.inr rfl) c.outputs
  have herrors : isKept ("ErrorEquals", .array (c.errors.map .string)) = true := rfl
  have hnext : isKept ("Next", .string (name c.next)) = true := rfl
  simp [Catcher.written, Json.filterFields, Catcher.mapValues, herrors, hnext, houtput]

theorem dropFieldNulls_catchField (catchers : List Catcher) :
    dropFieldNulls (catchField (catchers.map (Catcher.written name))) =
      catchField ((catchers.map (Catcher.mapValues Json.dropNull)).map (Catcher.written name)) := by
  have hfield (l : List Json) : dropFieldNulls [("Catch", .array l)] =
      [("Catch", .array (l.map (Json.filterFields isKept)))] := rfl
  cases catchers with
  | nil => rfl
  | cons c rest =>
    have hitems : (c :: rest).map (Json.filterFields isKept ∘ Catcher.written name) =
        (c :: rest).map (Catcher.written name ∘ Catcher.mapValues Json.dropNull) :=
      List.map_congr_left fun c _ => filterFields_written_catcher c
    simpa [catchField, hfield] using hitems

theorem dropFieldNulls_kind (kind : StateKind) :
    dropFieldNulls (kind.fields name) = (kind.mapValues Json.dropNull).fields name := by
  cases kind with
  | pass p =>
    simp (disch := decide) only [StateKind.fields, StateKind.mapValues, Pass.mapValues,
      dropFieldNulls_append, dropFieldNulls_optionalText, dropFieldNulls_assignField,
      dropFieldNulls_optionalField (.inr rfl)]
  | task c catchers =>
    have hresource : dropFieldNulls [("Resource", Json.string c.resource)] =
        [("Resource", Json.string c.resource)] := dropFieldNulls_singleton (by decide) (by simp)
    simp (disch := decide) only [StateKind.fields, StateKind.mapValues, dropFieldNulls_append,
      dropFieldNulls_optionalText, dropFieldNulls_assignField, hresource,
      dropFieldNulls_optionalField (.inr rfl), dropFieldNulls_optionalField (.inl rfl),
      dropFieldNulls_catchField]
    rfl
  | choice rules otherwise =>
    have hrules : dropFieldNulls [("Choices", .array (rules.map (Rule.written name)))] =
        [("Choices", .array (rules.map (Rule.written name)))] :=
      dropFieldNulls_singleton (by decide) (by simp)
    simp (disch := decide) only [StateKind.fields, StateKind.mapValues, dropFieldNulls_append,
      hrules, dropFieldNulls_optionalText]
  | fail x =>
    simp (disch := decide) only [StateKind.fields, StateKind.mapValues, dropFieldNulls_append,
      dropFieldNulls_optionalText]

theorem dropFieldNulls_continuation (s : State) :
    dropFieldNulls (s.continuation name) = s.continuation name := by
  rw [State.continuation]
  split
  · cases s.next with
    | none => exact dropFieldNulls_singleton (by decide) (by simp)
    | some t => exact dropFieldNulls_singleton (by decide) (by simp)
  · rfl

/-- What is written of a state without explicit nulls. -/
theorem dropFieldNulls_fields (s : State) :
    dropFieldNulls (s.fields name) = (s.mapValues Json.dropNull).fields name := by
  have htype : dropFieldNulls [("Type", Json.string s.kind.label)] =
      [("Type", .string s.kind.label)] := dropFieldNulls_singleton (by decide) (by simp)
  have hlabel : (s.mapValues Json.dropNull).kind.label = s.kind.label := by
    obtain ⟨name, kind, next⟩ := s
    cases kind <;> rfl
  have hnext : (s.mapValues Json.dropNull).continuation name = s.continuation name := by
    rw [State.continuation, State.continuation, State.isNextable_mapValues]
    rfl
  simp only [State.fields, dropFieldNulls_append, htype, dropFieldNulls_kind,
    dropFieldNulls_continuation, hlabel, hnext]
  rfl

theorem map_dropDocumentNulls_comment (comment : Option String) :
    (optionalText "Comment" comment).map dropDocumentNulls = optionalText "Comment" comment :=
  map_optionalField (fun _ => by simp [dropDocumentNulls]) _

theorem shortened_dropCatcherNulls (field : String × Json) :
    (dropCatcherNulls field).1 = field.1 ∧ (dropCatcherNulls field).2.Shortened field.2 := by
  rw [dropCatcherNulls]
  split
  · exact ⟨rfl, Json.shortened_mapItems (Json.shortened_filterFields isKept) _⟩
  · exact ⟨rfl, .inl rfl⟩

theorem shortened_dropEntryNulls (entry : String × Json) :
    (dropEntryNulls entry).1 = entry.1 ∧ (dropEntryNulls entry).2.Shortened entry.2 := by
  obtain ⟨name, v⟩ := entry
  cases v with
  | object fields =>
    have hfiltered := Json.shortened_filterFields isKept (.object fields)
    exact ⟨rfl, (Json.shortened_mapFields shortened_dropCatcherNulls _).trans hfiltered⟩
  | _ => exact ⟨rfl, .inl rfl⟩

theorem shortened_dropDocumentNulls (field : String × Json) :
    (dropDocumentNulls field).1 = field.1 ∧ (dropDocumentNulls field).2.Shortened field.2 := by
  rw [dropDocumentNulls]
  split
  · exact ⟨rfl, Json.shortened_mapFields shortened_dropEntryNulls _⟩
  · exact ⟨rfl, .inl rfl⟩

/-- A document has the text of the one without its explicit nulls only if it has none. -/
theorem compact_dropNulls_eq_iff (document : Json) :
    (dropNulls document).compact = document.compact ↔ dropNulls document = document :=
  (Json.shortened_mapFields shortened_dropDocumentNulls document).compact_eq_iff

end Document

namespace Graph

variable {g : Graph} {f : Json → Option Json} {id start : StateId}

theorem WellFormed.mapValues (hg : g.WellFormed) : (g.mapValues f).WellFormed where
  indexed name id := by
    have hnamed : (g.mapValues f).Named id name ↔ g.Named id name := by
      rw [named_iff_map, named_iff_map, Graph.mapValues, List.map_map]
      rfl
    rw [find?_mapValues, hnamed]
    exact hg.indexed name id
  closed r hr t ht := by
    obtain ⟨s, hs, rfl⟩ := List.mem_map.1 hr
    rw [State.successors_mapValues] at ht
    rw [size_mapValues]
    exact hg.closed s hs t ht
  nextable r hr hnext := by
    obtain ⟨s, hs, rfl⟩ := List.mem_map.1 hr
    rw [State.isNextable_mapValues]
    exact hg.nextable s hs hnext

theorem nameAt_mapValues : (g.mapValues f).nameAt = g.nameAt := by
  funext id
  rw [nameAt, nameAt, getElem?_mapValues]
  cases g.states[id]? <;> rfl

theorem entryAt_mapValues :
    (g.mapValues Json.dropNull).entryAt id = Document.dropEntryNulls (g.entryAt id) := by
  rw [entryAt, entryAt, getElem?_mapValues, nameAt_mapValues]
  cases g.states[id]? with
  | none => rfl
  | some s => simp [Document.dropEntryNulls, Document.dropFieldNulls_fields]

/-- A graph without explicit nulls has the document without them. -/
theorem document_mapValues (hg : g.WellFormed) (hstart : start < g.size)
    (comment : Option String) :
    ∃ document, g.document start comment = .ok document ∧
      (g.mapValues Json.dropNull).document start comment =
        .ok (Document.dropNulls document) := by
  obtain ⟨ids, hids⟩ := exists_reachable_of_lt hg hstart
  have hentries : ids.map (g.mapValues Json.dropNull).entryAt =
      (ids.map g.entryAt).map Document.dropEntryNulls := by
    rw [List.map_map]
    exact List.map_congr_left fun id _ => entryAt_mapValues
  refine ⟨_, Graph.document_eq hg hids comment, ?_⟩
  rw [Graph.document_eq hg.mapValues (reachable_mapValues.trans hids) comment]
  simp [Document.dropNulls, Json.mapFields, Document.map_dropDocumentNulls_comment,
    Document.dropDocumentNulls, hentries, nameAt_mapValues]

end Graph

namespace StateKind

/-- The optional values of free form that a state carries: parameters and outputs. -/
def optionalValues : StateKind → List (Option Json)
  | pass p => [p.outputs]
  | task call catchers => call.parameters :: call.outputs :: catchers.map Catcher.outputs
  | _ => []

/-- Values that are the same after they are replaced. -/
theorem Agrees.bind_eq {R : StateId → StateId → Prop} {f : Json → Option Json} {kind : StateKind}
    (h : kind.Agrees R (kind.mapValues f)) : ∀ o ∈ kind.optionalValues, o.bind f = o := by
  generalize hkind : kind.mapValues f = kind' at h
  cases h with
  | pass p =>
    have hvalues : p.mapValues f = p := StateKind.pass.inj hkind
    exact List.forall_mem_singleton.2 (congrArg Pass.outputs hvalues)
  | choice _ _ => exact nofun
  | fail _ => exact nofun
  | @task c c' catchers catchers' hcall hcatchers =>
    obtain ⟨rfl, rfl⟩ := StateKind.task.inj hkind
    have houtputs : ∀ x ∈ catchers, x.outputs.bind f = x.outputs := by
      rw [List.forall₂_map_right_iff, List.forall₂_same] at hcatchers
      exact fun x hx => (hcatchers x hx).outputs.symm
    refine List.forall_mem_cons.2 ⟨hcall.parameters.symm, ?_⟩
    exact List.forall_mem_cons.2 ⟨hcall.outputs.symm, List.forall_mem_map.2 houtputs⟩

end StateKind

/-- A state of which the same is written without its explicit nulls has none. -/
theorem State.notMem_of_fields_eq {name : StateId → String} {s : State}
    (h : (s.mapValues Json.dropNull).fields name = s.fields name) :
    some .null ∉ s.kind.optionalValues := by
  have hagrees : s.kind.Agrees (fun i j => name i = name j) (s.mapValues Json.dropNull).kind := by
    refine StateKind.agrees_of_find? ?_ fun key hkey => ?_
    · obtain ⟨name, kind, next⟩ := s
      cases kind <;> rfl
    · rw [← s.find?_of_kind hkey, ← State.find?_of_kind _ hkey, h]
  exact fun hnull => bind_dropNull_eq_self_iff.1 (hagrees.bind_eq _ hnull) rfl

end LifecycleFlow
