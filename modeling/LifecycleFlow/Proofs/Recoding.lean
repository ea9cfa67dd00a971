import LifecycleFlow.Flow.Encoding
import LifecycleFlow.Json.Reader
import LifecycleFlow.Proofs.DecodedValues

/-!
# Definitions as JSON values

Definitions are written as JSON values and read from them. Main statement: a definition comes back
from the value that it is written as, unless an optional value of it is an explicit null; no
definition that was read has such a value, so that the value as which it is written is read and
written as the same value again. This does not extend to the texts of these values, since the reader
of numbers may answer a neighbour of the double that was printed.
-/
namespace LifecycleFlow

open Content

/-- A value that comes back when it is written and read: it has no key twice and is not null. -/
def Json.Recodable (v : Json) : Prop :=
  v.KeysDistinct ∧ v ≠ .null

theorem asString_ofJson (s : String) : (ofJson (.string s)).asString = .ok s := rfl

theorem asOptionalString_ofJson (o : Option String) :
    (ofJson (optionalString o)).asOptionalString = .ok o := by
  cases o <;> rfl

theorem asStrings_ofItems (l : List String) :
    (sequence (ofItems (l.map .string))).asStrings = .ok l := by
  rw [asStrings]
  induction l with
  | nil => rfl
  | cons s r ih =>
    rw [List.map_cons, ofItems, List.mapM_cons, ih]
    rfl

theorem ofJson_array (items : List Json) : ofJson (.array items) = .sequence (ofItems items) := rfl

namespace Step

variable {name : String}

theorem ofContent_pass {p : Pass} (hassign : (Json.object p.assign).KeysDistinct)
    (houtputs : Recoverable p.outputs) :
    Step.ofContent (.ofJson (Step.pass name p).toJson) = .ok (.pass name p) := by
  rw [Step.toJson]
  refine (ofContent_object .pass (by simp [Json.Object.keys, StepKind.key])).trans ?_
  -- the draft takes the fields one by one, each from what it was written as
  simp (disch := decide) [Step.ofEntries, finishEntries, PassDraft.setEntries_eq, ofFields,
    Record.setEntries_field, PassDraft.set, asString_ofJson, asObject_ofJson hassign,
    asOptionalJson_ofJson houtputs, asOptionalString_ofJson, PassDraft.toStep]

theorem ofContent_fail (f : Failure) :
    Step.ofContent (.ofJson (Step.fail name f).toJson) = .ok (.fail name f) := by
  rw [Step.toJson]
  refine (ofContent_object .fail (by simp [Json.Object.keys, StepKind.key])).trans ?_
  simp (disch := decide) [Step.ofEntries, finishEntries, FailDraft.setEntries_eq, ofFields,
    Record.setEntries_field, FailDraft.set, asString_ofJson, asOptionalString_ofJson,
    FailDraft.toStep]

theorem ofContent_task {call : ServiceCall} {hs : List Handler}
    (hassign : (Json.object call.assign).KeysDistinct) (hparameters : Recoverable call.parameters)
    (houtputs : Recoverable call.outputs)
    (hhs : handlerList (Content.ofItems (Handler.toJsonItems hs)) = .ok hs) :
    Step.ofContent (.ofJson (Step.task name call hs).toJson) = .ok (.task name call hs) := by
  rw [Step.toJson]
  refine (ofContent_object .task (by simp [Json.Object.keys, StepKind.key])).trans ?_
  simp (disch := decide) [Step.ofEntries, finishEntries, taskEntries_eq, ofFields,
    Record.setEntries_field, setTask, asString_ofJson, asOptionalJson_ofJson hparameters,
    asObject_ofJson hassign, asOptionalJson_ofJson houtputs, asOptionalString_ofJson, ofJson_array,
    hhs, TaskDraft.toStep]

theorem handlerOf_ofJson {errors : List String} {outputs : Option Json} {steps : List Step}
    {target : Option String} (houtputs : Recoverable outputs)
    (hsteps : stepList (Content.ofItems (Step.toJsonItems steps)) = .ok steps) :
    handlerOf (.ofJson (Handler.mk errors outputs steps target).toJson) =
      .ok (.mk errors outputs steps target) := by
  rw [Handler.toJson, ofJson, handlerOf, handlerEntries_eq]
  simp (disch := decide) [ofFields, Record.setEntries_field, setHandler, ofJson_array,
    asStrings_ofItems, asOptionalJson_ofJson houtputs, hsteps, asOptionalString_ofJson,
    HandlerDraft.toHandler]

mutual

-- by induction on the syntax: a task needs its handlers to come back, a handler its steps
/-- A step comes back from what it is written as. -/
theorem ofContent_ofJson (s : Step) (h : s.DeeplyMeets Json.Recodable) :
    Step.ofContent (.ofJson s.toJson) = .ok s := by
  match s with
  | .pass name p =>
    obtain ⟨hassign, houtputs⟩ := deeplyMeets_pass_iff.1 h
    exact ofContent_pass hassign houtputs
  | .task name call hs =>
    obtain ⟨hassign, hparameters, houtputs, hhs⟩ := deeplyMeets_task_iff.1 h
    exact ofContent_task hassign hparameters houtputs (handlerList_ofItems hs hhs)
  | .fail name f => exact ofContent_fail f

theorem handlerList_ofItems (hs : List Handler) (h : ∀ x ∈ hs, x.ValuesMeet Json.Recodable) :
    handlerList (Content.ofItems (Handler.toJsonItems hs)) = .ok hs := by
  match hs with
  | [] => rfl
  | .mk errors outputs steps target :: rest =>
    obtain ⟨hfirst, hrest⟩ := List.forall_mem_cons.1 h
    have houtputs : Recoverable outputs := hfirst.outputs
    have hsteps := stepList_ofItems steps hfirst.steps
    rw [Handler.toJsonItems, Content.ofItems, handlerList, handlerOf_ofJson houtputs hsteps,
      handlerList_ofItems rest hrest]
    rfl

theorem stepList_ofItems (l : List Step) (h : ∀ s ∈ l, s.DeeplyMeets Json.Recodable) :
    stepList (Content.ofItems (Step.toJsonItems l)) = .ok l := by
  match l with
  | [] => rfl
  | s :: rest =>
    obtain ⟨hs, hrest⟩ := List.forall_mem_cons.1 h
    rw [Step.toJsonItems, Content.ofItems, stepList, ofContent_ofJson s hs,
      stepList_ofItems rest hrest]
    rfl

end

end Step

namespace FlowDefinition

/-- A branch is written as the list of its steps, an absent one as null. -/
def branchJson (b : Option (List Step)) : Json :=
  (b.map fun l => .array (Step.toJsonItems l)).getD .null

theorem stepOfContent_ofJson {s : Step} (h : s.DeeplyMeets Json.Recodable) :
    stepOfContent (.ofJson s.toJson) = .ok s := by
  have hkind : stepOfContent (.ofJson s.toJson) = Step.ofContent (.ofJson s.toJson) := by
    cases s <;> rfl
  rw [hkind, Step.ofContent_ofJson s h]

theorem branchOfContent_ofJson {b : Option (List Step)}
    (h : ∀ l ∈ b, ∀ s ∈ l, s.DeeplyMeets Json.Recodable) :
    branchOfContent (.ofJson (branchJson b)) = .ok b := by
  have hsteps (l : List Step) (hl : ∀ s ∈ l, s.DeeplyMeets Json.Recodable) :
      (Content.ofItems (Step.toJsonItems l)).mapM stepOfContent = .ok l := by
    induction l with
    | nil => rfl
    | cons s rest ih =>
      obtain ⟨hs, hrest⟩ := List.forall_mem_cons.1 hl
      rw [Step.toJsonItems, Content.ofItems, List.mapM_cons, stepOfContent_ofJson hs, ih hrest]
      rfl
  cases b with
  | none => rfl
  | some l => simp [branchJson, ofJson_array, branchOfContent, hsteps l (h l rfl)]

end FlowDefinition

/-- No object in the definition has a key twice. -/
def FlowDefinition.KeysDistinct (d : FlowDefinition) : Prop :=
  ∀ s ∈ d.steps, (Json.object s.assign).KeysDistinct ∧
    ∀ v, some v ∈ s.optionalValues → v.KeysDistinct

/-- A definition that keeps its variables and its values of free form in maps. -/
structure KeyedDefinition extends FlowDefinition where
  keysDistinct : toFlowDefinition.KeysDistinct

namespace FlowDefinition

variable {d : FlowDefinition}

/-- No parameters and no outputs, at any depth, are an explicit null. -/
def NoExplicitNull (d : FlowDefinition) : Prop :=
  ∀ s ∈ d.steps, some .null ∉ s.optionalValues

theorem valuesMeet_recodable_iff : (∀ s ∈ d.steps, s.ValuesMeet Json.Recodable) ↔
    d.KeysDistinct ∧ d.NoExplicitNull := by
  constructor
  · intro h
    exact ⟨fun s hs => ⟨(h s hs).assign, fun v hv => ((h s hs).optional v hv).1⟩,
      fun s hs hnull => ((h s hs).optional .null hnull).2 rfl⟩
  · rintro ⟨hkeys, hnull⟩ s hs
    refine ⟨(hkeys s hs).1, fun v hv => ⟨(hkeys s hs).2 v hv, ?_⟩⟩
    rintro rfl
    exact hnull s hs hv

theorem toJson_eq (d : FlowDefinition) : d.toJson = .object
    [("name", .string d.name), ("comment", optionalString d.comment),
      ("prefix", optionalString d.namePrefix), ("on_create", branchJson d.onCreate),
      ("on_update", branchJson d.onUpdate), ("on_delete", branchJson d.onDelete)] := rfl

theorem ofJson_toJson (d : KeyedDefinition) (hnull : d.NoExplicitNull) :
    FlowDefinition.ofJson d.toJson = .ok d.toFlowDefinition := by
  have hall : ∀ l ∈ d.branches, ∀ s ∈ l, s.DeeplyMeets Json.Recodable := fun l hl s hs t ht =>
    valuesMeet_recodable_iff.2 ⟨d.keysDistinct, hnull⟩ t (mem_steps.2 ⟨l, hl, s, hs, ht⟩)
  have hcreate := branchOfContent_ofJson fun l hl => hall l (mem_branches.2 (.inl hl))
  have hupdate := branchOfContent_ofJson fun l hl => hall l (mem_branches.2 (.inr (.inl hl)))
  have hdelete := branchOfContent_ofJson fun l hl => hall l (mem_branches.2 (.inr (.inr hl)))
  rw [toJson_eq, FlowDefinition.ofJson, Content.ofJson, ofContent_mapping]
  simp (disch := decide) [ofFields, Record.setEntries_field, setField, asString_ofJson,
    asOptionalString_ofJson, hcreate, hupdate, hdelete, DefinitionDraft.toDefinition]

theorem ofJson_number_ne (n : JsonNumber) :
    (∀ items, Content.ofJson (.number n) ≠ sequence items) ∧
      ∀ entries, Content.ofJson (.number n) ≠ mapping entries := by
  cases n with
  | whole n =>
    rw [Content.ofJson]
    split <;> exact ⟨nofun, nofun⟩
  | double x => exact ⟨nofun, nofun⟩

/-- The contents of JSON values, with all their parts. -/
theorem hereditary_ofJson : Hereditary fun c => ∃ v, c = Content.ofJson v where
  items := by
    rintro items ⟨v, hv⟩
    cases v with
    | array l =>
      obtain rfl := Content.sequence.inj hv
      induction l with
      | nil => exact nofun
      | cons w rest ih => exact List.forall_mem_cons.2 ⟨⟨w, rfl⟩, ih rfl⟩
    | number n => exact absurd hv.symm ((ofJson_number_ne n).1 items)
    | _ => cases hv
  entries := by
    rintro entries ⟨v, hv⟩
    cases v with
    | object fields =>
      obtain rfl := Content.mapping.inj hv
      induction fields with
      | nil => exact nofun
      | cons f rest ih => exact List.forall_mem_cons.2 ⟨⟨f.2, rfl⟩, ih rfl⟩
    | number n => exact absurd hv.symm ((ofJson_number_ne n).2 entries)
    | _ => cases hv

theorem recoverable_of_ofJson {v : Json} (h : FlowDefinition.ofJson v = .ok d) :
    d.KeysDistinct ∧ d.NoExplicitNull := by
  rw [← valuesMeet_recodable_iff]
  refine valuesMeet_of_ofContent hereditary_ofJson ?_ ⟨v, rfl⟩ h
  rintro c ⟨v, rfl⟩ o ho
  exact recoverable_of_asOptionalJson ho

/-- The definitions that come back from what they are written as. -/
theorem ofJson_toJson_iff :
    FlowDefinition.ofJson d.toJson = .ok d ↔ d.KeysDistinct ∧ d.NoExplicitNull :=
  ⟨recoverable_of_ofJson, fun ⟨hkeys, hnull⟩ => ofJson_toJson ⟨d, hkeys⟩ hnull⟩

/-- The value as which a definition is written that was read from a value. -/
def recode (v : Json) : Decoded Json :=
  FlowDefinition.toJson <$> FlowDefinition.ofJson v

/-- A definition without explicit nulls comes back from the JSON value that it is written as. None
that was read from a JSON value has explicit nulls, so that the value as which it is written is read
and written as the same value again. -/
theorem ofJson_undoes_toJson :
    (∀ d : KeyedDefinition, d.NoExplicitNull →
      FlowDefinition.ofJson d.toJson = .ok d.toFlowDefinition) ∧
    (∀ v d, FlowDefinition.ofJson v = .ok d → d.KeysDistinct ∧ d.NoExplicitNull) ∧
    ∀ v w, recode v = .ok w → recode w = .ok w := by
  refine ⟨ofJson_toJson, fun v d => recoverable_of_ofJson, fun v w h => ?_⟩
  obtain ⟨d, hd, rfl⟩ := decoded_map_eq_ok_iff.1 h
  obtain ⟨hkeys, hnull⟩ := recoverable_of_ofJson hd
  rw [recode, ofJson_toJson ⟨d, hkeys⟩ hnull, decoded_map_ok]

/-- Archiving a bucket: a missing key is made, which may fail for good, and the copy is tried
again. -/
def archiving : KeyedDefinition where
  name := "Archiving"
  onCreate := some
    [.task "Copy"
        { service := "s3", action := "copyObject"
          parameters := some (.object [("Key", .string "a"), ("Bucket", .null)]) }
      [.mk ["S3.NoSuchKey"] (some (.array [.bool false]))
        [.task "Make" { service := "s3", action := "putObject", assign := [("made", .null)] }
          [.mk [allErrors] none [.fail "Stop" {}] none]]
        (some "Copy")]]
  keysDistinct := by
    simp [KeysDistinct, steps, branches, Step.allOf, Step.all, Handler.allOf, Step.assign,
      Step.optionalValues, Handler.outputs, Json.KeysDistinct, Json.ItemsDistinct,
      Json.FieldsDistinct, Json.Object.keys]

/-- A definition whose fields stand in order without their names, with a key that is set twice. -/
def unnamedFields : Json :=
  .array [.string "Resting", .null, .null, .array [.array [.string "pass", .string "Rest",
    .object [("a", .bool true), ("b", .null), ("a", .bool false)]]]]

theorem ofJson_undoes_toJson_archiving :
    archiving.NoExplicitNull ∧
      FlowDefinition.ofJson archiving.toJson = .ok archiving.toFlowDefinition ∧
      ∃ w, recode unnamedFields = .ok w ∧ recode w = .ok w := by
  have hnull : archiving.NoExplicitNull := by
    simp [NoExplicitNull, archiving, steps, branches, Step.allOf, Step.all, Handler.allOf,
      Step.optionalValues, Handler.outputs]
  have hread : ∃ w, recode unnamedFields = .ok w := ⟨_, rfl⟩
  obtain ⟨w, hw⟩ := hread
  exact ⟨hnull, ofJson_undoes_toJson.1 archiving hnull, w, hw,
    ofJson_undoes_toJson.2.2 unnamedFields w hw⟩

/-- The text as which a definition is written that was read from a text. -/
def recodeText? (s : String) : Option String := do
  let v ← Json.read? s
  let w ← (recode v).toOption
  return w.compact

/-- The text of a definition with one state, which has given outputs. -/
def restingText (outputs : String) : String :=
  "\x7b\"name\":\"Resting\",\"comment\":null,\"prefix\":null,\"on_create\":[\x7b" ++
  "\"type\":\"pass\",\"name\":\"Rest\",\"assign\":\x7b\x7d,\"outputs\":" ++ outputs ++
  ",\"comment\":null\x7d],\"on_update\":null,\"on_delete\":null\x7d"

/-- Texts need not come back: the reader of numbers rounds more than once, so a double may be read
from its digits as a neighbour. -/
theorem recode_changes_restingText :
    recodeText? (restingText "91.00000000000002") = some (restingText "91.00000000000001") ∧
      recodeText? (restingText "91.00000000000001") = some (restingText "91.0") ∧
      restingText "91.0" ≠ restingText "91.00000000000001" := by
  decide +kernel

end FlowDefinition

end LifecycleFlow
