import LifecycleFlow.Proofs.Acceptance
import LifecycleFlow.Proofs.Rendering
import LifecycleFlow.Proofs.Runs

/-!
# Renaming and documents

A document refers to states by their names: where it starts, as the keys of its entries, and where a
state, a rule or a catcher leads. Main statement: after states of a graph were renamed, a document is
the one before with these names replaced in these places, and with nothing else changed. So the
document of a definition that is built under a prefix is the one without it, the prefix put before
all names.
-/
namespace LifecycleFlow

open LifecycleFlow.Graph (optionalField optionalText assignField)
open Json (Object)

namespace Json

/-- A text replaced; any other value is left alone. -/
def mapText (f : String → String) : Json → Json
  | string s => string (f s)
  | v => v

def mapItems (f : Json → Json) : Json → Json
  | array items => array (items.map f)
  | v => v

def mapFields (f : String × Json → String × Json) : Json → Json
  | object fields => object (fields.map f)
  | v => v

end Json

namespace Document

variable {f : String → String} {name : StateId → String}

/-- A field of a rule or of a catcher, with the name of a state replaced. -/
def renameTargetField (f : String → String) (field : String × Json) : String × Json :=
  if field.1 = "Next" then (field.1, field.2.mapText f) else field

/-- A field of an entry, with the names of states replaced. -/
def renameEntryField (f : String → String) (field : String × Json) : String × Json :=
  if field.1 = "Next" ∨ field.1 = "Default" then (field.1, field.2.mapText f)
  else if field.1 = "Choices" ∨ field.1 = "Catch" then
    (field.1, field.2.mapItems (Json.mapFields (renameTargetField f)))
  else field

/-- An entry under its name, with the names of states replaced. -/
def renameEntry (f : String → String) (entry : String × Json) : String × Json :=
  (f entry.1, entry.2.mapFields (renameEntryField f))

def renameDocumentField (f : String → String) (field : String × Json) : String × Json :=
  if field.1 = "StartAt" then (field.1, field.2.mapText f)
  else if field.1 = "States" then (field.1, field.2.mapFields (renameEntry f))
  else field

/-- A document with the names of states replaced: where it starts, as keys of its entries, and where
a state, a rule or a catcher leads. -/
def rename (f : String → String) : Json → Json :=
  Json.mapFields (renameDocumentField f)

theorem map_optionalField {g : String × Json → String × Json} {key : String}
    (h : ∀ v, g (key, v) = (key, v)) (value : Option Json) :
    (optionalField key value).map g = optionalField key value := by
  cases value <;> simp [optionalField, h]

/-- A field of another kind is left alone. -/
theorem renameEntryField_of_notMem {field : String × Json}
    (h : field.1 ∉ ["Next", "Default", "Choices", "Catch"]) : renameEntryField f field = field := by
  simp only [List.mem_cons, List.not_mem_nil, or_false, not_or] at h
  rw [renameEntryField, if_neg (by tauto), if_neg (by tauto)]

theorem map_renameEntryField_optionalField {key : String}
    (h : key ∉ ["Next", "Default", "Choices", "Catch"]) (value : Option Json) :
    (optionalField key value).map (renameEntryField f) = optionalField key value :=
  map_optionalField (fun _ => renameEntryField_of_notMem h) value

theorem map_renameEntryField_assignField (assign : Object) :
    (assignField assign).map (renameEntryField f) = assignField assign := by
  rw [assignField]
  split
  · rfl
  · rw [List.map_singleton, renameEntryField_of_notMem (by simp)]

theorem written_catcher (c : Catcher) :
    (c.written name).mapFields (renameTargetField f) = c.written (f ∘ name) := by
  have houtput : (optionalField "Output" c.outputs).map (renameTargetField f) =
      optionalField "Output" c.outputs :=
    map_optionalField (fun _ => by simp [renameTargetField]) c.outputs
  simp [Catcher.written, Json.mapFields, renameTargetField, Json.mapText, houtput]

theorem written_rule (r : Rule) :
    (r.written name).mapFields (renameTargetField f) = r.written (f ∘ name) := by
  simp [Rule.written, Json.mapFields, renameTargetField, Json.mapText]

theorem map_renameEntryField_catchField (catchers : List Catcher) :
    (catchField (catchers.map (Catcher.written name))).map (renameEntryField f) =
      catchField (catchers.map (Catcher.written (f ∘ name))) := by
  cases catchers with
  | nil => rfl
  | cons c rest =>
    have hitems : (c :: rest).map ((Json.mapFields (renameTargetField f)) ∘ Catcher.written name) =
        (c :: rest).map (Catcher.written (f ∘ name)) :=
      List.map_congr_left fun c _ => written_catcher c
    simpa [catchField, renameEntryField, Json.mapItems] using hitems

theorem map_renameEntryField_kind (kind : StateKind) :
    (kind.fields name).map (renameEntryField f) = kind.fields (f ∘ name) := by
  cases kind with
  | pass p =>
    simp [StateKind.fields, optionalText, map_renameEntryField_optionalField,
      map_renameEntryField_assignField]
  | task c catchers =>
    have hresource : renameEntryField f ("Resource", Json.string c.resource) =
        ("Resource", Json.string c.resource) := renameEntryField_of_notMem (by simp)
    simp [StateKind.fields, optionalText, map_renameEntryField_optionalField,
      map_renameEntryField_assignField, map_renameEntryField_catchField, hresource]
  | choice rules otherwise =>
    have hrules : rules.map ((Json.mapFields (renameTargetField f)) ∘ Rule.written name) =
        rules.map (Rule.written (f ∘ name)) :=
      List.map_congr_left fun r _ => written_rule r
    cases otherwise with
    | none => simpa [StateKind.fields, optionalText, optionalField, renameEntryField,
        Json.mapItems] using hrules
    | some t => simpa [StateKind.fields, optionalText, optionalField, renameEntryField,
        Json.mapItems, Json.mapText] using hrules
  | fail g =>
    simp [StateKind.fields, optionalText, map_renameEntryField_optionalField]

theorem map_renameEntryField_continuation (s : State) :
    (s.continuation name).map (renameEntryField f) = s.continuation (f ∘ name) := by
  rw [State.continuation, State.continuation]
  split
  · cases s.next <;> simp [renameEntryField, Json.mapText]
  · rfl

theorem map_renameEntryField_fields (s : State) :
    (s.fields name).map (renameEntryField f) = s.fields (f ∘ name) := by
  have htype : renameEntryField f ("Type", Json.string s.kind.label) =
      ("Type", Json.string s.kind.label) := renameEntryField_of_notMem (by simp)
  simp only [State.fields, List.map_append, List.map_singleton, htype, map_renameEntryField_kind,
    map_renameEntryField_continuation]

end Document

/-- What is written of a state depends only on the names of the states to which it leads. -/
theorem State.fields_congr {name name' : StateId → String} (s : State)
    (h : ∀ t ∈ s.successors, name t = name' t) : s.fields name = s.fields name' := by
  have hnext : s.continuation name = s.continuation name' := by
    rw [continuation, continuation]
    split
    · cases hn : s.next with
      | none => rfl
      | some t => simp only [h t (by simp [successors, hn])]
    · rfl
  have htargets : ∀ t ∈ s.kind.targets, name t = name' t := fun t ht =>
    h t (List.mem_append_right _ ht)
  have hkind : s.kind.fields name = s.kind.fields name' := by
    cases hk : s.kind with
    | pass p => rfl
    | fail f => rfl
    | task c catchers =>
      have hcatchers : catchers.map (Catcher.written name) = catchers.map (Catcher.written name') :=
        List.map_congr_left fun c hc => by
          rw [Catcher.written, Catcher.written,
            htargets c.next (by simpa [hk, StateKind.targets] using ⟨c, hc, rfl⟩)]
      rw [StateKind.fields, StateKind.fields, hcatchers]
    | choice rules otherwise =>
      have hrules : rules.map (Rule.written name) = rules.map (Rule.written name') :=
        List.map_congr_left fun r hr => by
          rw [Rule.written, Rule.written,
            htargets r.next (by rw [hk]; exact List.mem_append_left _ (List.mem_map_of_mem hr))]
      have hdefault : otherwise.map name = otherwise.map name' := by
        cases otherwise with
        | none => rfl
        | some t => exact congrArg some (htargets t (by simp [hk, StateKind.targets]))
      rw [StateKind.fields, StateKind.fields, hrules, hdefault]
  rw [fields, fields, hkind, hnext]

namespace Graph

variable {g g' : Graph} {f : String → String} {id start : StateId} {ids : List StateId}
  {front : String}

/-- The second graph is the first one with the names of its states replaced. -/
structure RenamedBy (f : String → String) (g g' : Graph) : Prop where
  wellFormed : g.WellFormed
  wellFormed' : g'.WellFormed
  states : ∀ id : StateId, g'.states[id]? = (g.states[id]?).map fun s => { s with name := f s.name }

namespace RenamedBy

theorem nameAt_eq (h : RenamedBy f g g') (hid : id < g.size) : g'.nameAt id = f (g.nameAt id) := by
  obtain ⟨s, hs⟩ := exists_state_of_lt hid
  simp [nameAt, h.states, hs]

theorem entryAt_eq (h : RenamedBy f g g') (hid : id < g.size) :
    g'.entryAt id = Document.renameEntry f (g.entryAt id) := by
  obtain ⟨s, hs⟩ := exists_state_of_lt hid
  have hs' : g'.states[id]? = some { s with name := f s.name } := by simp [h.states, hs]
  have hclosed : ∀ t ∈ s.successors, t < g.size :=
    h.wellFormed.closed s (List.mem_of_getElem? hs)
  have hfields : s.fields g'.nameAt = s.fields (f ∘ g.nameAt) :=
    s.fields_congr fun t ht => h.nameAt_eq (hclosed t ht)
  have hsame : State.fields g'.nameAt { s with name := f s.name } = s.fields g'.nameAt := rfl
  rw [Graph.entryAt_eq hs', Graph.entryAt_eq hs, Document.renameEntry, Json.mapFields, hsame,
    hfields, Document.map_renameEntryField_fields]

theorem reachable_eq (h : RenamedBy f g g') : g'.reachable start = g.reachable start := by
  refine visit_congr fun id => ?_
  rw [h.states, Option.map_map]
  rfl

/-- The document of a renamed graph is the document with the names replaced. -/
theorem document_eq (h : RenamedBy f g g') (hstart : start < g.size) (comment : Option String) :
    ∃ document, g.document start comment = .ok document ∧
      g'.document start comment = .ok (Document.rename f document) := by
  obtain ⟨ids, hids⟩ := exists_reachable_of_lt h.wellFormed hstart
  have hlt := lt_size_of_mem_reachable hids
  refine ⟨_, Graph.document_eq h.wellFormed hids comment, ?_⟩
  rw [Graph.document_eq h.wellFormed' (h.reachable_eq.trans hids) comment]
  have hentries : ids.map g'.entryAt = (ids.map g.entryAt).map (Document.renameEntry f) := by
    rw [List.map_map]
    exact List.map_congr_left fun id hid => h.entryAt_eq (hlt id hid)
  have hcomment : (optionalText "Comment" comment).map (Document.renameDocumentField f) =
      optionalText "Comment" comment :=
    Document.map_optionalField (fun _ => by simp [Document.renameDocumentField]) _
  simp [Document.rename, Json.mapFields, Document.renameDocumentField, Json.mapText, hentries,
    hcomment, h.nameAt_eq hstart]

end RenamedBy

/-- The name of a state after some states were renamed, by its name before. -/
def prefixedName (g : Graph) (ids : List StateId) (front name : String) : String :=
  if name ∈ ids.map g.nameAt then front ++ name else name

theorem renamedBy_withPrefixed (hg : g.WellFormed) (hids : ∀ id ∈ ids, id < g.size)
    (hfresh : g.FreshPrefix ids front) :
    RenamedBy (g.prefixedName ids front) g (g.withPrefixed ids front) := by
  refine ⟨hg, hg.withPrefixed hfresh, fun id => ?_⟩
  rw [getElem?_withPrefixed]
  cases hs : g.states[id]? with
  | none => rfl
  | some s =>
    -- names tell states apart, so the renamed ones are known by their names
    have hmem : s.name ∈ ids.map g.nameAt ↔ id ∈ ids := by
      rw [List.mem_map]
      constructor
      · rintro ⟨i, hi, hname⟩
        have hid : i = id := hg.indexed.nameAt_inj (hids i hi) (List.getElem?_eq_some_iff.1 hs).1
          (hname.trans (nameAt_eq hs).symm)
        exact hid ▸ hi
      · exact fun hid => ⟨id, hid, nameAt_eq hs⟩
    by_cases hid : id ∈ ids
    · simp only [Option.map_some, prefixedName, if_pos hid, if_pos (hmem.2 hid)]
    · simp only [Option.map_some, prefixedName, if_neg hid, if_neg (mt hmem.1 hid)]

end Graph

namespace FlowDefinition

variable {d : FlowDefinition} {front : String}

theorem outcome_buildFlow_none (h : d.namePrefix = none) (g : Graph) :
    outcome d.buildFlow g = outcome d.assembleFlow g := by
  rw [buildFlow, h]
  exact congrArg (outcome · g) (bind_pure d.assembleFlow)

/-- Putting a text before the names decides nothing: a definition is assembled or refused under the
names of its steps. -/
theorem buildFlow_prefixed (h : d.namePrefix = some front) :
    (∀ e g, outcome d.assembleFlow Graph.empty = (.error e, g) →
      outcome d.buildFlow Graph.empty = (.error e, g)) ∧
    ∀ flow g, outcome d.assembleFlow Graph.empty = (.ok flow, g) → ∃ g',
      outcome d.buildFlow Graph.empty = (.ok flow, g') ∧ flow.entry < g.size ∧
        Graph.RenamedBy (front ++ ·) g g' := by
  rw [buildFlow, h]
  refine ⟨fun e g hout => outcome_bind_error hout _, fun flow g hout => ?_⟩
  obtain ⟨-, exits, hassembled⟩ := assembleFlow_decides.of_ok hout
  obtain ⟨g', hrename, hg', hstates⟩ := hassembled.addPrefix_eq_ok front
  have hlift : outcome (GraphOp.lift (Graph.addPrefix flow.entry front)) g = (.ok (), g') := by
    rw [outcome_lift, hrename]
    rfl
  have hentry : flow.entry < g.size :=
    (List.getElem?_eq_some_iff.1 hassembled.entryState_eq).1
  refine ⟨g', ?_, hentry, hassembled.graph, hg', fun id => by rw [hstates, List.getElem?_map]⟩
  rw [outcome_bind_ok hout, outcome_bind_ok hlift, outcome_pure]

end FlowDefinition

/-- After a rename that succeeded, in whatever graph was brought about, the document of each state is
the one before with the new names of the renamed states. A definition is refused under a prefix
exactly if it is refused without one, with the same error, and else its document is the one without
prefix, the prefix put before all names. -/
theorem document_commutes_with_renaming :
    (∀ (ops : List Operation) (start target : StateId) (front : String) (g' : Graph)
      (comment : Option String),
      outcome (Graph.addPrefix target front) (Graph.empty.after ops) = (.ok (), g') →
      start < (Graph.empty.after ops).size →
      ∃ ids document, (Graph.empty.after ops).reachable target = .ok ids ∧
        (Graph.empty.after ops).document start comment = .ok document ∧
        g'.document start comment =
          .ok (Document.rename ((Graph.empty.after ops).prefixedName ids front) document)) ∧
    ∀ (d : FlowDefinition) (front : String),
      (∀ e, { d with namePrefix := some front }.build = .error e ↔
        { d with namePrefix := none }.build = .error e) ∧
      ∀ b, { d with namePrefix := none }.build = .ok b → ∃ b' document,
        { d with namePrefix := some front }.build = .ok b' ∧ b.document = .ok document ∧
          b'.document = .ok (Document.rename (front ++ ·) document) := by
  refine ⟨fun ops start target front g' comment hout hstart => ?_, fun d front => ?_⟩
  · have hg := Graph.wellFormed_empty.after ops
    obtain ⟨ids, hids, hfresh, rfl⟩ := Graph.exists_of_addPrefix_eq_ok hg hout
    have hrenamed := Graph.renamedBy_withPrefixed hg (Graph.lt_size_of_mem_reachable hids) hfresh
    obtain ⟨document, hdocument, hdocument'⟩ := hrenamed.document_eq hstart comment
    exact ⟨ids, document, hids, hdocument, hdocument'⟩
  · have hplain : outcome { d with namePrefix := none }.buildFlow Graph.empty =
        outcome d.assembleFlow Graph.empty := FlowDefinition.outcome_buildFlow_none rfl _
    obtain ⟨hrefused, hbuilt⟩ :=
      FlowDefinition.buildFlow_prefixed (d := { d with namePrefix := some front }) rfl
    have hsame : { d with namePrefix := some front }.assembleFlow = d.assembleFlow := rfl
    rw [hsame] at hrefused hbuilt
    refine ⟨fun e => ?_, fun b hb => ?_⟩
    · rw [FlowDefinition.build_eq_error_iff, FlowDefinition.build_eq_error_iff, hplain]
      rcases hout : outcome d.assembleFlow Graph.empty with ⟨e' | flow, g⟩
      · rw [hrefused e' g hout]
      · obtain ⟨g', hout', -⟩ := hbuilt flow g hout
        rw [hout']
        simp
    · obtain ⟨hout, -, hcomment⟩ := FlowDefinition.build_eq_ok_iff.1 hb
      obtain ⟨g', hout', hentry, hrenamed⟩ := hbuilt b.flow b.graph (hplain ▸ hout)
      obtain ⟨document, hdocument, hdocument'⟩ := hrenamed.document_eq hentry d.comment
      refine ⟨⟨d.name, d.comment, g', b.flow⟩, document, ?_, ?_, hdocument'⟩
      · exact FlowDefinition.build_eq_ok_iff.2 ⟨hout', rfl, rfl⟩
      · rw [BuiltFlow.document, hcomment]
        exact hdocument

/-- A state that leads to a renamed state keeps its own name; every state of a definition that is
built under a prefix gets the prefix. -/
theorem document_commutes_with_renaming_shared :
    let g := Graph.empty.after [.addPass "Copy" {}, .addPass "Store" {}, .addPass "Again" {},
      .setNext 0 1, .setNext 2 1]
    let d : FlowDefinition := { name := "Copies", onUpdate := some [.pass "Copy" {}] }
    (∃ g', outcome (Graph.addPrefix 0 "Night/") g = (.ok (), g') ∧ 2 < g.size ∧
      ∃ ids document, g.reachable 0 = .ok ids ∧ g.document 2 none = .ok document ∧
        g'.document 2 none = .ok (Document.rename (g.prefixedName ids "Night/") document)) ∧
    ∃ b, { d with namePrefix := none }.build = .ok b ∧ ∃ b' document,
      { d with namePrefix := some "Night/" }.build = .ok b' ∧ b.document = .ok document ∧
        b'.document = .ok (Document.rename ("Night/" ++ ·) document) := by
  intro g d
  have hg : g.WellFormed := Graph.wellFormed_empty.after _
  have hids : g.reachable 0 = .ok [0, 1] := by
    have hcopy : g.states[0]? = some ⟨"Copy", .pass {}, some 1⟩ := rfl
    have hstore : g.states[1]? = some ⟨"Store", .pass {}, none⟩ := rfl
    calc g.visit [0] []
      _ = g.visit [1] [0] := Graph.visit_of_notMem (by simp) hcopy
      _ = g.visit [] [0, 1] := Graph.visit_of_notMem (by simp) hstore
      _ = .ok [0, 1] := by rw [Graph.visit]
  have hfresh : g.FreshPrefix [0, 1] "Night/" :=
    (Graph.forM_checkRenamed_eq_ok_iff hg.indexed (Graph.lt_size_of_mem_reachable hids)).1 rfl
  have hout := Graph.addPrefix_eq_ok hg hids hfresh
  have hstart : 2 < g.size := by decide +kernel
  obtain ⟨b, hb⟩ : ∃ b, { d with namePrefix := none }.build = .ok b :=
    FlowDefinition.exists_build_of_wellFormed (by decide +kernel)
  exact ⟨⟨_, hout, hstart, document_commutes_with_renaming.1 _ 2 0 "Night/" _ none hout hstart⟩,
    b, hb, (document_commutes_with_renaming.2 d "Night/").2 b hb⟩

end LifecycleFlow
