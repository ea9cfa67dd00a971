import LifecycleFlow.Proofs.Compilation
import LifecycleFlow.Proofs.NullFields
import LifecycleFlow.Proofs.YamlValues

/-!
# Explicit nulls

The JSON value of a definition has null for parameters and outputs that are absent, and read from
there null is absent. But YAML spells doubles that are not finite, and these become a value that is
null. Main statement: what is read from the JSON value of a definition in YAML is refused with the
same error, or built to the same states under the same names; its document is the one without the
fields that are an explicit null. So the documents have the same text exactly if there is no explicit
null.
-/
namespace LifecycleFlow

/-- Only a double that is not finite is decoded to a value that is null. -/
theorem Content.asOptionalJson_eq_some_null_iff {c : Content} :
    c.asOptionalJson = .ok (some .null) ↔ ∃ x, c = .double x ∧ ∀ y, x ≠ .finite y := by
  cases c with
  | double x => cases x <;> simp [asOptionalJson_of_ne_null, toJson]
  | sequence items => simp [asOptionalJson_of_ne_null, toJson, decoded_bind_eq_ok_iff]
  | mapping entries => simp [asOptionalJson_of_ne_null, toJson, decoded_bind_eq_ok_iff]
  | null => simp [asOptionalJson]
  | _ => simp [asOptionalJson_of_ne_null, toJson]

section

variable {f : Json → Option Json}

mutual

theorem Step.all_mapValues (s : Step) : (s.mapValues f).all = s.all.map (Step.mapValues f) := by
  match s with
  | .pass name p => rfl
  | .fail name x => rfl
  | .task name call handlers =>
    rw [Step.mapValues, Step.all, Step.all, Handler.allOf_mapValuesOf handlers]
    rfl

theorem Handler.allOf_mapValuesOf (hs : List Handler) :
    Handler.allOf (Handler.mapValuesOf f hs) = (Handler.allOf hs).map (Step.mapValues f) := by
  match hs with
  | [] => rfl
  | .mk errors outputs steps target :: rest =>
    rw [Handler.mapValuesOf, Handler.allOf, Handler.allOf, Step.allOf_mapValuesOf steps,
      Handler.allOf_mapValuesOf rest, List.map_append]

theorem Step.allOf_mapValuesOf (l : List Step) :
    Step.allOf (Step.mapValuesOf f l) = (Step.allOf l).map (Step.mapValues f) := by
  match l with
  | [] => rfl
  | s :: rest =>
    rw [Step.mapValuesOf, Step.allOf, Step.allOf, Step.all_mapValues s,
      Step.allOf_mapValuesOf rest, List.map_append]

end

theorem FlowDefinition.steps_mapValues (d : FlowDefinition) :
    (d.mapValues f).steps = d.steps.map (Step.mapValues f) := by
  have hbranches : (d.mapValues f).branches = d.branches.map (Step.mapValuesOf f) := by
    simp only [branches, mapValues, Option.toList_map, List.map_append]
  rw [steps, hbranches, List.flatMap_map, steps, List.map_flatMap]
  simp only [Step.allOf_mapValuesOf]

theorem Step.assign_mapValues (s : Step) : (s.mapValues f).assign = s.assign := by
  cases s <;> rfl

theorem Handler.outputs_mapValuesOf (hs : List Handler) :
    (Handler.mapValuesOf f hs).map Handler.outputs = hs.map fun h => h.outputs.bind f := by
  induction hs with
  | nil => rfl
  | cons h rest ih =>
    obtain ⟨errors, outputs, steps, target⟩ := h
    rw [Handler.mapValuesOf, List.map_cons, ih]
    rfl

theorem Step.optionalValues_mapValues (s : Step) :
    (s.mapValues f).optionalValues = s.optionalValues.map (·.bind f) := by
  cases s with
  | pass name p => rfl
  | fail name x => rfl
  | task name call handlers =>
    simp [mapValues, optionalValues, Handler.outputs_mapValuesOf, ServiceCall.mapValues]

end

/-- An absent value is written like null. -/
theorem optionalJson_bind_dropNull (o : Option Json) :
    optionalJson (o.bind Json.dropNull) = optionalJson o := by
  cases o with
  | none => rfl
  | some v => cases v <;> rfl

mutual

theorem Step.toJson_mapValues_dropNull (s : Step) :
    (s.mapValues Json.dropNull).toJson = s.toJson := by
  match s with
  | .pass name p =>
    simp [Step.mapValues, Step.toJson, Pass.mapValues, optionalJson_bind_dropNull]
  | .fail name x => rfl
  | .task name call handlers =>
    simp [Step.mapValues, Step.toJson, ServiceCall.mapValues, optionalJson_bind_dropNull,
      Handler.toJsonItems_mapValuesOf_dropNull handlers]

theorem Handler.toJsonItems_mapValuesOf_dropNull (hs : List Handler) :
    Handler.toJsonItems (Handler.mapValuesOf Json.dropNull hs) = Handler.toJsonItems hs := by
  match hs with
  | [] => rfl
  | .mk errors outputs steps target :: rest =>
    simp [Handler.mapValuesOf, Handler.toJsonItems, Handler.toJson, optionalJson_bind_dropNull,
      Step.toJsonItems_mapValuesOf_dropNull steps, Handler.toJsonItems_mapValuesOf_dropNull rest]

theorem Step.toJsonItems_mapValuesOf_dropNull (l : List Step) :
    Step.toJsonItems (Step.mapValuesOf Json.dropNull l) = Step.toJsonItems l := by
  match l with
  | [] => rfl
  | s :: rest =>
    rw [Step.mapValuesOf, Step.toJsonItems, Step.toJsonItems, Step.toJson_mapValues_dropNull s,
      Step.toJsonItems_mapValuesOf_dropNull rest]

end

namespace FlowDefinition

variable {d : FlowDefinition}

/-- The definition in which parameters and outputs that are null are absent. -/
def dropNulls (d : FlowDefinition) : FlowDefinition :=
  d.mapValues Json.dropNull

theorem toJson_dropNulls (d : FlowDefinition) : d.dropNulls.toJson = d.toJson := by
  have hbranch (b : Option (List Step)) :
      branchJson (b.map (Step.mapValuesOf Json.dropNull)) = branchJson b := by
    cases b <;> simp [branchJson, Step.toJsonItems_mapValuesOf_dropNull]
  simp only [toJson_eq, dropNulls, mapValues, hbranch]

theorem forall_steps_dropNulls {p : Step → Prop} : (∀ s ∈ d.dropNulls.steps, p s) ↔
    ∀ s ∈ d.steps, p (s.mapValues Json.dropNull) := by
  rw [dropNulls, steps_mapValues, List.forall_mem_map]

theorem some_mem_optionalValues_iff {s : Step} {v : Json} :
    some v ∈ (s.mapValues Json.dropNull).optionalValues ↔
      some v ∈ s.optionalValues ∧ v ≠ .null := by
  simp only [Step.optionalValues_mapValues, List.mem_map, bind_dropNull_eq_some_iff]
  constructor
  · rintro ⟨o, ho, rfl, hne⟩
    exact ⟨ho, hne⟩
  · rintro ⟨hv, hne⟩
    exact ⟨_, hv, rfl, hne⟩

theorem noExplicitNull_dropNulls : d.dropNulls.NoExplicitNull :=
  forall_steps_dropNulls.2 fun _ _ hnull => (some_mem_optionalValues_iff.1 hnull).2 rfl

end FlowDefinition

namespace KeyedDefinition

def dropNulls (d : KeyedDefinition) : KeyedDefinition where
  toFlowDefinition := d.toFlowDefinition.dropNulls
  keysDistinct := by
    refine FlowDefinition.forall_steps_dropNulls.2 fun s hs => ⟨?_, fun v hv => ?_⟩
    · rw [Step.assign_mapValues]
      exact (d.keysDistinct s hs).1
    · exact (d.keysDistinct s hs).2 v (FlowDefinition.some_mem_optionalValues_iff.1 hv).1

/-- The JSON value of a definition is read as the definition without its explicit nulls. -/
theorem ofJson_toJson_eq_dropNulls (d : KeyedDefinition) :
    FlowDefinition.ofJson d.toJson = .ok d.dropNulls.toFlowDefinition := by
  rw [← FlowDefinition.toJson_dropNulls]
  exact FlowDefinition.ofJson_toJson d.dropNulls FlowDefinition.noExplicitNull_dropNulls

theorem dropNulls_eq_self (d : KeyedDefinition) (hnull : d.NoExplicitNull) :
    d.toFlowDefinition.dropNulls = d.toFlowDefinition :=
  Except.ok.inj (d.ofJson_toJson_eq_dropNulls.symm.trans (FlowDefinition.ofJson_toJson d hnull))

end KeyedDefinition

namespace FlowDefinition

variable {d : FlowDefinition} {g : Graph} {b : BuiltFlow} {document : Json}

theorem KindOf.optionalValues_eq {s : Step} {kind : StateKind} (h : d.KindOf g s kind) :
    kind.optionalValues = s.optionalValues := by
  cases s with
  | pass name p =>
    cases kind with
    | pass p' => rw [show p' = p from h]; rfl
    | _ => exact h.elim
  | fail name x =>
    cases kind with
    | fail x' => rfl
    | _ => exact h.elim
  | task name call handlers =>
    cases kind with
    | task call' catchers =>
      obtain ⟨rfl, hcatchers⟩ := h
      have houtputs : catchers.map Catcher.outputs = handlers.map Handler.outputs := by
        induction hcatchers with
        | nil => rfl
        | cons hfirst _ ih => rw [List.map_cons, List.map_cons, ih, hfirst.2.1]
      rw [StateKind.optionalValues, Step.optionalValues, houtputs]
    | _ => exact h.elim

/-- Every state of a built graph is in its document. -/
theorem exists_reachable_of_build (h : d.build = .ok b) :
    ∃ ids, b.graph.reachable b.flow.entry = .ok ids ∧ ∀ id < b.graph.size, id ∈ ids := by
  obtain ⟨-, exits, g, hassembled, hwell, hstates⟩ := built_of_build h
  have hrenamed : Graph.RenamedBy d.stateName g b.graph :=
    ⟨hassembled.graph, hwell, fun id => by rw [hstates, List.getElem?_map]⟩
  have hentry : b.flow.entry < g.size :=
    (List.getElem?_eq_some_iff.1 hassembled.entryState_eq).1
  obtain ⟨ids, hids⟩ := Graph.exists_reachable_of_lt hassembled.graph hentry
  refine ⟨ids, hrenamed.reachable_eq.trans hids, fun id hid => ?_⟩
  have hsize : b.graph.size = g.size := by simp [Graph.size, hstates]
  exact (Graph.mem_reachable_iff hids).2 (hassembled.reaches (hsize ▸ hid))

theorem exists_document_of_build (h : d.build = .ok b) :
    ∃ document, b.document = .ok document ∧
      (b.mapValues Json.dropNull).document = .ok (Document.dropNulls document) := by
  obtain ⟨-, exits, g, -, hwell, -⟩ := built_of_build h
  obtain ⟨ids, hids, -⟩ := exists_reachable_of_build h
  have hentry : b.flow.entry < b.graph.size :=
    Graph.lt_size_of_mem_reachable hids _ ((Graph.mem_reachable_iff hids).2 .refl)
  exact Graph.document_mapValues hwell hentry b.comment

/-- If a document holds no explicit null, its definition has none. -/
theorem noExplicitNull_of_document (h : d.build = .ok b) (hdocument : b.document = .ok document)
    (hsame : Document.dropNulls document = document) : d.NoExplicitNull := by
  obtain ⟨-, exits, g, hassembled, hwell, hstates⟩ := built_of_build h
  obtain ⟨ids, hids, hall⟩ := exists_reachable_of_build h
  have hrealizes := hassembled.realizes ⟨hwell.indexed, hstates⟩
  have hentries : ∀ id ∈ ids,
      Document.dropEntryNulls (b.graph.entryAt id) = b.graph.entryAt id := by
    rw [BuiltFlow.document, Graph.document_eq hwell hids] at hdocument
    obtain rfl := Except.ok.inj hdocument
    simpa [Document.dropNulls, Json.mapFields, Document.map_dropDocumentNulls_comment,
      Document.dropDocumentNulls] using hsame
  intro s hs hnull
  -- the entry of the state that the step became lacks nothing either
  obtain ⟨q, hq, hsq⟩ := exists_sequence_of_mem_steps hs
  obtain ⟨i, hi⟩ := List.mem_iff_getElem?.1 hsq
  obtain ⟨id, kind, next, -, hstate, hkind, -⟩ := hrealizes.step q hq i s hi
  have hentry := hentries id (hall id (List.getElem?_eq_some_iff.1 hstate).1)
  rw [Graph.entryAt_eq hstate] at hentry
  have hfields := Json.object.inj (congrArg Prod.snd hentry)
  rw [Document.dropFieldNulls_fields] at hfields
  exact State.notMem_of_fields_eq hfields (hkind.optionalValues_eq ▸ hnull)

theorem compact_dropNulls_document_eq_iff (d : KeyedDefinition) (h : d.build = .ok b)
    (hdocument : b.document = .ok document) :
    (Document.dropNulls document).compact = document.compact ↔ d.NoExplicitNull := by
  rw [Document.compact_dropNulls_eq_iff]
  refine ⟨noExplicitNull_of_document h hdocument, fun hnull => ?_⟩
  have hsame : b.mapValues Json.dropNull = b := by
    have hbuild := d.build_mapValues Json.dropNull
    rw [show d.mapValues Json.dropNull = d.toFlowDefinition from d.dropNulls_eq_self hnull, h]
      at hbuild
    exact (Except.ok.inj hbuild).symm
  obtain ⟨document', hdocument', hdropped⟩ := exists_document_of_build h
  obtain rfl := Except.ok.inj (hdocument'.symm.trans hdocument)
  rw [hsame, hdocument] at hdropped
  exact (Except.ok.inj hdropped).symm

/-- What is read from the JSON value of a definition in YAML is the definition without its explicit
nulls. It is refused with the same error, or built to the same states under the same names. Its
document is the one without explicit nulls, and this has the same text exactly if the definition has
no explicit null. -/
theorem recoded_builds_without_nulls (text : String) (d : FlowDefinition)
    (h : FlowDefinition.ofYaml text = .ok d) :
    FlowDefinition.ofJson d.toJson = .ok d.dropNulls ∧
    (∀ e, d.dropNulls.build = .error e ↔ d.build = .error e) ∧
    ∀ b, d.build = .ok b → ∃ b' document,
      d.dropNulls.build = .ok b' ∧ b'.flow = b.flow ∧
      b'.graph.states.map State.name = b.graph.states.map State.name ∧
      b.document = .ok document ∧ b'.document = .ok (Document.dropNulls document) ∧
      ((Document.dropNulls document).compact = document.compact ↔ d.NoExplicitNull) := by
  let keyed : KeyedDefinition := ⟨d, keysDistinct_of_ofYaml h⟩
  refine ⟨keyed.ofJson_toJson_eq_dropNulls, fun e => ?_, fun b hb => ?_⟩
  · rw [dropNulls, build_mapValues]
    cases d.build <;> simp [Except.map]
  · obtain ⟨document, hdocument, hdropped⟩ := exists_document_of_build hb
    refine ⟨b.mapValues Json.dropNull, document, ?_, rfl, ?_, hdocument, hdropped,
      compact_dropNulls_document_eq_iff keyed hb hdocument⟩
    · rw [dropNulls, build_mapValues, hb]
      rfl
    · rw [BuiltFlow.mapValues, Graph.mapValues, List.map_map]
      rfl

theorem noExplicitNull_iff : d.NoExplicitNull ↔
    ∀ s ∈ d.steps, ∀ o ∈ s.optionalValues, o.all fun v => v.dropNull.isSome := by
  refine forall₂_congr fun s _ => ⟨fun h o ho => ?_, fun h hnull => ?_⟩
  · cases o with
    | none => rfl
    | some v =>
      cases v with
      | null => exact absurd ho h
      | _ => rfl
  · exact Bool.false_ne_true (h _ hnull)

instance : DecidablePred FlowDefinition.NoExplicitNull :=
  fun _ => decidable_of_iff _ noExplicitNull_iff.symm

private theorem exists_of_any (text : String) (p : FlowDefinition → Bool)
    (h : (FlowDefinition.ofYaml text).toOption.any p = true) :
    ∃ d, FlowDefinition.ofYaml text = .ok d ∧ p d = true := by
  cases hd : FlowDefinition.ofYaml text with
  | error e =>
    rw [hd] at h
    cases h
  | ok d =>
    rw [hd] at h
    exact ⟨d, rfl, h⟩

/-- The tilde stands for an absent value; an infinity inside a value becomes null and is kept. -/
theorem recoded_builds_without_nulls_infinite : ∃ d, FlowDefinition.ofYaml
      ("name: Copying\non_update:\n- type: task\n  name: Copy\n  service: s3\n" ++
        "  action: copyObject\n  parameters:\n    Key: a\n    Size: .inf\n  outputs: ~\n") =
        .ok d ∧
    FlowDefinition.ofJson d.toJson = .ok d.dropNulls ∧
    ∃ b b' document document', d.build = .ok b ∧ d.dropNulls.build = .ok b' ∧
      b.document = .ok document ∧ b'.document = .ok document' ∧
      document'.compact = document.compact := by
  obtain ⟨d, hd, hp⟩ := exists_of_any
    ("name: Copying\non_update:\n- type: task\n  name: Copy\n  service: s3\n" ++
      "  action: copyObject\n  parameters:\n    Key: a\n    Size: .inf\n  outputs: ~\n")
    (fun d => decide (d.WellFormed ∧ d.NoExplicitNull)) (by decide +kernel)
  obtain ⟨hwell, hnull⟩ := of_decide_eq_true hp
  obtain ⟨b, hb⟩ := exists_build_of_wellFormed hwell
  obtain ⟨hread, -, hbuilt⟩ := recoded_builds_without_nulls _ d hd
  obtain ⟨b', document, hb', -, -, hdocument, hdropped, hsame⟩ := hbuilt b hb
  exact ⟨d, hd, hread, b, b', document, _, hb, hb', hdocument, hdropped, hsame.2 hnull⟩

/-- Outputs that are spelled as not a number are an explicit null: the document has a field for
them, and has none for the definition that is read from the JSON value of the first. -/
theorem recoded_document_differs : ∃ d d' b b' document document',
    FlowDefinition.ofYaml
      "name: F\non_create:\n- type: pass\n  name: A\n  outputs: .nan\n" = .ok d ∧
    FlowDefinition.ofJson d.toJson = .ok d' ∧ d.build = .ok b ∧ d'.build = .ok b' ∧
    b.document = .ok document ∧ b'.document = .ok document' ∧
    document'.compact ≠ document.compact := by
  obtain ⟨d, hd, hp⟩ := exists_of_any
    "name: F\non_create:\n- type: pass\n  name: A\n  outputs: .nan\n"
    (fun d => decide (d.WellFormed ∧ ¬ d.NoExplicitNull)) (by decide +kernel)
  obtain ⟨hwell, hnull⟩ := of_decide_eq_true hp
  obtain ⟨b, hb⟩ := exists_build_of_wellFormed hwell
  let keyed : KeyedDefinition := ⟨d, keysDistinct_of_ofYaml hd⟩
  obtain ⟨document, hdocument, hdropped⟩ := exists_document_of_build hb
  refine ⟨d, d.dropNulls, b, b.mapValues Json.dropNull, document, _, hd,
    keyed.ofJson_toJson_eq_dropNulls, hb, ?_, hdocument, hdropped, fun hsame => hnull ?_⟩
  · rw [dropNulls, build_mapValues, hb]
    rfl
  · exact (compact_dropNulls_document_eq_iff keyed hb hdocument).1 hsame

end FlowDefinition

end LifecycleFlow
