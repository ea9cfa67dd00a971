import LifecycleFlow.Proofs.Lists
import LifecycleFlow.Proofs.Nesting
import LifecycleFlow.Proofs.RecordFields

/-!
# Values of decoded definitions

Whatever fields a record has and however it is written, the values of free form in it are those of
its fields. Main statement: if the contents that a definition is decoded from can only stand for
values with a property, then all parameters and outputs of the definition have it, at any depth; and
no variable is assigned twice.
-/
namespace LifecycleFlow

open Content

/-- The variables that a step assigns. -/
def Step.assign : Step → Json.Object
  | .pass _ p => p.assign
  | .task _ call _ => call.assign
  | .fail _ _ => []

/-- The optional values of free form of a step and its handlers: parameters and outputs. -/
def Step.optionalValues : Step → List (Option Json)
  | .pass _ p => [p.outputs]
  | .task _ call handlers => call.parameters :: call.outputs :: handlers.map Handler.outputs
  | .fail _ _ => []

variable {P : Json → Prop}

/-- The optional values of a step and its handlers have a property, and no object assigned has a key
twice. -/
structure Step.ValuesMeet (P : Json → Prop) (s : Step) : Prop where
  assign : (Json.object s.assign).KeysDistinct
  optional : ∀ v, some v ∈ s.optionalValues → P v

/-- So do those of the steps in the handlers, at any depth. -/
def Step.DeeplyMeets (P : Json → Prop) (s : Step) : Prop :=
  ∀ t ∈ s.all, t.ValuesMeet P

structure Handler.ValuesMeet (P : Json → Prop) (h : Handler) : Prop where
  outputs : ∀ v ∈ h.outputs, P v
  steps : ∀ s ∈ h.steps, s.DeeplyMeets P

namespace Step

variable {name : String}

theorem deeplyMeets_pass_iff {p : Pass} : (Step.pass name p).DeeplyMeets P ↔
    (Json.object p.assign).KeysDistinct ∧ ∀ v ∈ p.outputs, P v := by
  simp only [DeeplyMeets, Step.all, List.forall_mem_singleton]
  constructor
  · rintro ⟨hassign, hoptional⟩
    exact ⟨hassign, fun v hv => hoptional v (List.mem_singleton.2 hv.symm)⟩
  · rintro ⟨hassign, houtputs⟩
    exact ⟨hassign, fun v hv => houtputs v (List.mem_singleton.1 hv).symm⟩

theorem deeplyMeets_fail (f : Failure) : (Step.fail name f).DeeplyMeets P := by
  simp only [DeeplyMeets, Step.all, List.forall_mem_singleton]
  exact ⟨⟨List.nodup_nil, trivial⟩, nofun⟩

theorem deeplyMeets_task_iff {call : ServiceCall} {hs : List Handler} :
    (Step.task name call hs).DeeplyMeets P ↔
      (Json.object call.assign).KeysDistinct ∧ (∀ v ∈ call.parameters, P v) ∧
        (∀ v ∈ call.outputs, P v) ∧ ∀ h ∈ hs, h.ValuesMeet P := by
  have hoptional : (∀ v, some v ∈ (Step.task name call hs).optionalValues → P v) ↔
      (∀ v ∈ call.parameters, P v) ∧ (∀ v ∈ call.outputs, P v) ∧
        ∀ h ∈ hs, ∀ v ∈ h.outputs, P v := by
    simp only [optionalValues, List.mem_cons, List.mem_map, Option.mem_def, eq_comm (a := some _)]
    constructor
    · intro h
      exact ⟨fun v hv => h v (.inl hv), fun v hv => h v (.inr (.inl hv)),
        fun x hx v hv => h v (.inr (.inr ⟨x, hx, hv⟩))⟩
    · rintro ⟨hparameters, houtputs, hhandlers⟩ v (hv | hv | ⟨x, hx, hv⟩)
      · exact hparameters v hv
      · exact houtputs v hv
      · exact hhandlers x hx v hv
  simp only [DeeplyMeets, Step.all, List.forall_mem_cons, Handler.mem_allOf, Step.mem_allOf]
  constructor
  · rintro ⟨⟨hassign, hvalues⟩, hnested⟩
    obtain ⟨hparameters, houtputs, hhandlers⟩ := hoptional.1 hvalues
    exact ⟨hassign, hparameters, houtputs, fun h hh =>
      ⟨hhandlers h hh, fun s hs t ht => hnested t ⟨h, hh, s, hs, ht⟩⟩⟩
  · rintro ⟨hassign, hparameters, houtputs, hhandlers⟩
    have hvalues := hoptional.2 ⟨hparameters, houtputs, fun h hh => (hhandlers h hh).outputs⟩
    refine ⟨⟨hassign, hvalues⟩, ?_⟩
    rintro t ⟨h, hh, s, hs, ht⟩
    exact (hhandlers h hh).steps s hs t ht

end Step

structure PassDraft.ValuesMeet (P : Json → Prop) (d : PassDraft) : Prop where
  assign : (Json.object (d.assign.getD [])).KeysDistinct
  outputs : ∀ v ∈ d.outputs.getD none, P v

structure TaskDraft.ValuesMeet (P : Json → Prop) (d : TaskDraft) : Prop where
  parameters : ∀ v ∈ d.parameters.getD none, P v
  assign : (Json.object (d.assign.getD [])).KeysDistinct
  outputs : ∀ v ∈ d.outputs.getD none, P v
  handlers : ∀ h ∈ d.handlers.getD [], h.ValuesMeet P

structure HandlerDraft.ValuesMeet (P : Json → Prop) (d : HandlerDraft) : Prop where
  outputs : ∀ v ∈ d.outputs.getD none, P v
  steps : ∀ s ∈ d.steps.getD [], s.DeeplyMeets P

/-- Whatever a content is read as, its values have the property. -/
structure Content.DecodesTo (P : Json → Prop) (c : Content) : Prop where
  value : ∀ o, c.asOptionalJson = .ok o → ∀ v ∈ o, P v
  step : ∀ s, Step.ofContent c = .ok s → s.DeeplyMeets P
  handler : ∀ h, Step.handlerOf c = .ok h → h.ValuesMeet P
  /-- The same of its items, where it stands for a list of steps or handlers. -/
  items : ∀ items, c = .sequence items → ∀ v ∈ items,
    (∀ s, Step.ofContent v = .ok s → s.DeeplyMeets P) ∧
      ∀ h, Step.handlerOf v = .ok h → h.ValuesMeet P

namespace PassDraft.ValuesMeet

variable {d d' : PassDraft}

theorem empty : ({} : PassDraft).ValuesMeet P :=
  ⟨⟨List.nodup_nil, trivial⟩, nofun⟩

theorem set {field : String} {v : Content} (hd : d.ValuesMeet P) (hv : v.DecodesTo P)
    (h : d.set field v = .ok d') : d'.ValuesMeet P := by
  unfold PassDraft.set at h
  split at h
  · obtain ⟨-, a, -, rfl⟩ := Draft.set_eq_ok_iff.1 h
    exact { hd with }
  · obtain ⟨-, a, ha, rfl⟩ := Draft.set_eq_ok_iff.1 h
    exact { hd with assign := keysDistinct_of_asObject ha }
  · obtain ⟨-, a, ha, rfl⟩ := Draft.set_eq_ok_iff.1 h
    exact { hd with outputs := hv.value a ha }
  · obtain ⟨-, a, -, rfl⟩ := Draft.set_eq_ok_iff.1 h
    exact { hd with }
  · exact Except.ok.inj h ▸ hd

theorem toStep {missing : String → DecodeError} {s : Step} (hd : d.ValuesMeet P)
    (h : d.toStep missing = .ok s) : s.DeeplyMeets P := by
  obtain ⟨name, -, h⟩ := decoded_bind_eq_ok_iff.1 h
  obtain rfl := Except.ok.inj h
  exact Step.deeplyMeets_pass_iff.2 ⟨hd.assign, hd.outputs⟩

end PassDraft.ValuesMeet

namespace TaskDraft.ValuesMeet

variable {d d' : TaskDraft}

theorem empty : ({} : TaskDraft).ValuesMeet P :=
  ⟨nofun, ⟨List.nodup_nil, trivial⟩, nofun, nofun⟩

theorem set {field : String} {v : Content} (hd : d.ValuesMeet P) (hv : v.DecodesTo P)
    (h : Step.setTask d field v = .ok d') : d'.ValuesMeet P := by
  unfold Step.setTask at h
  split at h
  · obtain ⟨-, a, -, rfl⟩ := Draft.set_eq_ok_iff.1 h
    exact { hd with }
  · obtain ⟨-, a, -, rfl⟩ := Draft.set_eq_ok_iff.1 h
    exact { hd with }
  · obtain ⟨-, a, -, rfl⟩ := Draft.set_eq_ok_iff.1 h
    exact { hd with }
  · obtain ⟨-, a, ha, rfl⟩ := Draft.set_eq_ok_iff.1 h
    exact { hd with parameters := hv.value a ha }
  · obtain ⟨-, a, ha, rfl⟩ := Draft.set_eq_ok_iff.1 h
    exact { hd with assign := keysDistinct_of_asObject ha }
  · obtain ⟨-, a, ha, rfl⟩ := Draft.set_eq_ok_iff.1 h
    exact { hd with outputs := hv.value a ha }
  · obtain ⟨-, a, -, rfl⟩ := Draft.set_eq_ok_iff.1 h
    exact { hd with }
  · obtain ⟨-, hs, hhs, rfl⟩ := Draft.set_eq_ok_iff.1 h
    split at hhs
    · rw [Step.handlerList_eq_mapM] at hhs
      exact { hd with
        handlers := List.forall_mem_of_mapM_eq_ok (fun v hmem => (hv.items _ rfl v hmem).2) hhs }
    · cases hhs
  · exact Except.ok.inj h ▸ hd

theorem toStep {missing : String → DecodeError} {s : Step} (hd : d.ValuesMeet P)
    (h : d.toStep missing = .ok s) : s.DeeplyMeets P := by
  simp only [TaskDraft.toStep, decoded_bind_eq_ok_iff] at h
  obtain ⟨name, -, service, -, action, -, h⟩ := h
  obtain rfl := Except.ok.inj h
  exact Step.deeplyMeets_task_iff.2 ⟨hd.assign, hd.parameters, hd.outputs, hd.handlers⟩

end TaskDraft.ValuesMeet

theorem FailDraft.deeplyMeets_toStep {d : FailDraft} {missing : String → DecodeError}
    {s : Step} (h : d.toStep missing = .ok s) : s.DeeplyMeets P := by
  obtain ⟨name, -, h⟩ := decoded_bind_eq_ok_iff.1 h
  obtain rfl := Except.ok.inj h
  exact Step.deeplyMeets_fail _

namespace HandlerDraft.ValuesMeet

variable {d d' : HandlerDraft}

theorem empty : ({} : HandlerDraft).ValuesMeet P :=
  ⟨nofun, nofun⟩

theorem set {field : String} {v : Content} (hd : d.ValuesMeet P) (hv : v.DecodesTo P)
    (h : Step.setHandler d field v = .ok d') : d'.ValuesMeet P := by
  unfold Step.setHandler at h
  split at h
  · obtain ⟨-, a, -, rfl⟩ := Draft.set_eq_ok_iff.1 h
    exact { hd with }
  · obtain ⟨-, a, ha, rfl⟩ := Draft.set_eq_ok_iff.1 h
    exact { hd with outputs := hv.value a ha }
  · obtain ⟨-, l, hl, rfl⟩ := Draft.set_eq_ok_iff.1 h
    split at hl
    · rw [Step.stepList_eq_mapM] at hl
      exact { hd with
        steps := List.forall_mem_of_mapM_eq_ok (fun v hmem => (hv.items _ rfl v hmem).1) hl }
    · cases hl
  · obtain ⟨-, a, -, rfl⟩ := Draft.set_eq_ok_iff.1 h
    exact { hd with }
  · exact Except.ok.inj h ▸ hd

theorem toHandler {missing : String → DecodeError} {x : Handler} (hd : d.ValuesMeet P)
    (h : d.toHandler missing = .ok x) : x.ValuesMeet P := by
  obtain ⟨steps, hsteps, h⟩ := decoded_bind_eq_ok_iff.1 h
  obtain rfl := Except.ok.inj h
  refine ⟨hd.outputs, ?_⟩
  have hall := hd.steps
  rwa [Draft.required_eq_ok_iff.1 hsteps] at hall

end HandlerDraft.ValuesMeet

namespace Step

variable {k : StepKind} {s : Step} {h : Handler} {items : List Content}
  {entries : List (Content × Content)}

theorem deeplyMeets_ofEntries (hentries : ∀ e ∈ entries, e.2.DecodesTo P)
    (hs : Step.ofEntries k entries = .ok s) : s.DeeplyMeets P := by
  cases k with
  | pass =>
    obtain ⟨d, hd, hs⟩ := decoded_bind_eq_ok_iff.1 hs
    rw [PassDraft.setEntries_eq] at hd
    exact (Record.setEntries_preserves PassDraft.ValuesMeet.set hentries
      PassDraft.ValuesMeet.empty hd).toStep hs
  | task =>
    obtain ⟨d, hd, hs⟩ := decoded_bind_eq_ok_iff.1 hs
    rw [taskEntries_eq] at hd
    exact (Record.setEntries_preserves TaskDraft.ValuesMeet.set hentries
      TaskDraft.ValuesMeet.empty hd).toStep hs
  | fail =>
    obtain ⟨d, -, hs⟩ := decoded_bind_eq_ok_iff.1 hs
    exact FailDraft.deeplyMeets_toStep hs

theorem deeplyMeets_ofItems (hitems : ∀ v ∈ items, v.DecodesTo P)
    (hs : Step.ofItems k items = .ok s) : s.DeeplyMeets P := by
  cases k with
  | pass =>
    simp only [Step.ofItems, finishItems, decoded_bind_eq_ok_iff, PassDraft.setItems_eq] at hs
    obtain ⟨d, hd, t, ht, -, -, hs⟩ := hs
    obtain rfl := Except.ok.inj hs
    exact (Record.setItems_preserves PassDraft.ValuesMeet.set hitems
      PassDraft.ValuesMeet.empty hd).toStep ht
  | task =>
    simp only [Step.ofItems, finishItems, decoded_bind_eq_ok_iff, taskItems_eq] at hs
    obtain ⟨d, hd, t, ht, -, -, hs⟩ := hs
    obtain rfl := Except.ok.inj hs
    exact (Record.setItems_preserves TaskDraft.ValuesMeet.set hitems
      TaskDraft.ValuesMeet.empty hd).toStep ht
  | fail =>
    simp only [Step.ofItems, finishItems, decoded_bind_eq_ok_iff] at hs
    obtain ⟨d, -, t, ht, -, -, hs⟩ := hs
    obtain rfl := Except.ok.inj hs
    exact FailDraft.deeplyMeets_toStep ht

theorem valuesMeet_handlerOf_mapping (hentries : ∀ e ∈ entries, e.2.DecodesTo P)
    (hh : handlerOf (.mapping entries) = .ok h) : h.ValuesMeet P := by
  simp only [handlerOf, decoded_bind_eq_ok_iff, handlerEntries_eq] at hh
  obtain ⟨d, hd, hh⟩ := hh
  exact (Record.setEntries_preserves HandlerDraft.ValuesMeet.set hentries
    HandlerDraft.ValuesMeet.empty hd).toHandler hh

theorem valuesMeet_handlerOf_sequence (hitems : ∀ v ∈ items, v.DecodesTo P)
    (hh : handlerOf (.sequence items) = .ok h) : h.ValuesMeet P := by
  simp only [handlerOf, decoded_bind_eq_ok_iff, handlerItems_eq] at hh
  obtain ⟨d, hd, x, hx, -, -, hh⟩ := hh
  obtain rfl := Except.ok.inj hh
  exact (Record.setItems_preserves HandlerDraft.ValuesMeet.set hitems
    HandlerDraft.ValuesMeet.empty hd).toHandler hx

end Step

namespace Content

variable {items : List Content} {entries : List (Content × Content)}

theorem DecodesTo.mapping
    (hvalue : ∀ o, (mapping entries).asOptionalJson = .ok o → ∀ v ∈ o, P v)
    (hentries : ∀ e ∈ entries, e.2.DecodesTo P) :
    (mapping entries).DecodesTo P where
  value := hvalue
  step s hs := by
    obtain ⟨k, -, hs⟩ := decoded_bind_eq_ok_iff.1 hs
    exact Step.deeplyMeets_ofEntries hentries hs
  handler h hh := Step.valuesMeet_handlerOf_mapping hentries hh
  items := nofun

theorem DecodesTo.sequence
    (hvalue : ∀ o, (sequence items).asOptionalJson = .ok o → ∀ v ∈ o, P v)
    (hitems : ∀ v ∈ items, v.DecodesTo P) : (sequence items).DecodesTo P where
  value := hvalue
  step s hs := by
    cases items with
    | nil => cases hs
    | cons kind rest =>
      obtain ⟨k, -, hs⟩ := decoded_bind_eq_ok_iff.1 hs
      exact Step.deeplyMeets_ofItems (List.forall_mem_cons.1 hitems).2 hs
  handler h hh := Step.valuesMeet_handlerOf_sequence hitems hh
  items := by
    rintro _ ⟨⟩ v hv
    exact ⟨(hitems v hv).step, (hitems v hv).handler⟩

/-- A class of contents that holds with a content all its parts. -/
structure Hereditary (Q : Content → Prop) : Prop where
  items : ∀ {items}, Q (sequence items) → ∀ v ∈ items, Q v
  entries : ∀ {entries}, Q (mapping entries) → ∀ e ∈ entries, Q e.2

namespace Hereditary

variable {Q : Content → Prop}

mutual

/-- If the contents of a class can only stand for values with a property, then whatever they are
read as has only such values. -/
theorem decodesTo (hQ : Hereditary Q)
    (hvalue : ∀ c, Q c → ∀ o, c.asOptionalJson = .ok o → ∀ v ∈ o, P v) (c : Content) (hc : Q c) :
    c.DecodesTo P := by
  match c with
  | .sequence items => exact .sequence (hvalue _ hc) (hQ.decodesToItems hvalue items (hQ.items hc))
  | .mapping entries =>
    exact .mapping (hvalue _ hc) (hQ.decodesToEntries hvalue entries (hQ.entries hc))
  | .null | .bool _ | .natural _ | .integer _ | .double _ | .string _ =>
    exact ⟨hvalue _ hc, nofun, nofun, nofun⟩

theorem decodesToItems (hQ : Hereditary Q)
    (hvalue : ∀ c, Q c → ∀ o, c.asOptionalJson = .ok o → ∀ v ∈ o, P v) (items : List Content)
    (hitems : ∀ v ∈ items, Q v) : ∀ v ∈ items, v.DecodesTo P := by
  match items with
  | [] => exact nofun
  | c :: rest =>
    obtain ⟨hc, hrest⟩ := List.forall_mem_cons.1 hitems
    exact List.forall_mem_cons.2 ⟨hQ.decodesTo hvalue c hc, hQ.decodesToItems hvalue rest hrest⟩

theorem decodesToEntries (hQ : Hereditary Q)
    (hvalue : ∀ c, Q c → ∀ o, c.asOptionalJson = .ok o → ∀ v ∈ o, P v)
    (entries : List (Content × Content)) (hentries : ∀ e ∈ entries, Q e.2) :
    ∀ e ∈ entries, e.2.DecodesTo P := by
  match entries with
  | [] => exact nofun
  | (_, c) :: rest =>
    obtain ⟨hc, hrest⟩ := List.forall_mem_cons.1 hentries
    exact List.forall_mem_cons.2 ⟨hQ.decodesTo hvalue c hc, hQ.decodesToEntries hvalue rest hrest⟩

end

end Hereditary

end Content

namespace FlowDefinition

variable {d : FlowDefinition}

theorem mem_steps {t : Step} : t ∈ d.steps ↔ ∃ l ∈ d.branches, ∃ s ∈ l, t ∈ s.all := by
  simp only [steps, List.mem_flatMap, Step.mem_allOf]

theorem mem_branches {l : List Step} :
    l ∈ d.branches ↔ l ∈ d.onCreate ∨ l ∈ d.onUpdate ∨ l ∈ d.onDelete := by
  simp [branches]

theorem ofContent_of_stepOfContent {c : Content} {s : Step} (h : stepOfContent c = .ok s) :
    Step.ofContent c = .ok s := by
  unfold stepOfContent at h
  extract_lets kind at h
  clear_value kind
  split at h
  · cases h
  · exact h

theorem deeplyMeets_of_branchOfContent {c : Content} {b : Option (List Step)}
    (hc : c.DecodesTo P) (h : branchOfContent c = .ok b) :
    ∀ l ∈ b, ∀ s ∈ l, s.DeeplyMeets P := by
  unfold branchOfContent at h
  split at h
  · obtain rfl := Except.ok.inj h
    exact nofun
  · obtain ⟨l, hl, rfl⟩ := decoded_map_eq_ok_iff.1 h
    rintro _ ⟨⟩
    exact List.forall_mem_of_mapM_eq_ok
      (fun v hv s hs => (hc.items _ rfl v hv).1 s (ofContent_of_stepOfContent hs)) hl
  · cases h

end FlowDefinition

structure DefinitionDraft.ValuesMeet (P : Json → Prop) (d : DefinitionDraft) : Prop where
  onCreate : ∀ l ∈ d.onCreate.getD none, ∀ s ∈ l, s.DeeplyMeets P
  onUpdate : ∀ l ∈ d.onUpdate.getD none, ∀ s ∈ l, s.DeeplyMeets P
  onDelete : ∀ l ∈ d.onDelete.getD none, ∀ s ∈ l, s.DeeplyMeets P

namespace DefinitionDraft.ValuesMeet

variable {d d' : DefinitionDraft}

theorem empty : ({} : DefinitionDraft).ValuesMeet P :=
  ⟨nofun, nofun, nofun⟩

theorem set {field : String} {v : Content} (hd : d.ValuesMeet P) (hv : v.DecodesTo P)
    (h : FlowDefinition.setField d field v = .ok d') : d'.ValuesMeet P := by
  unfold FlowDefinition.setField at h
  split at h
  · obtain ⟨-, a, -, rfl⟩ := Draft.set_eq_ok_iff.1 h
    exact { hd with }
  · obtain ⟨-, a, -, rfl⟩ := Draft.set_eq_ok_iff.1 h
    exact { hd with }
  · obtain ⟨-, a, -, rfl⟩ := Draft.set_eq_ok_iff.1 h
    exact { hd with }
  · obtain ⟨-, b, hb, rfl⟩ := Draft.set_eq_ok_iff.1 h
    exact { hd with onCreate := FlowDefinition.deeplyMeets_of_branchOfContent hv hb }
  · obtain ⟨-, b, hb, rfl⟩ := Draft.set_eq_ok_iff.1 h
    exact { hd with onUpdate := FlowDefinition.deeplyMeets_of_branchOfContent hv hb }
  · obtain ⟨-, b, hb, rfl⟩ := Draft.set_eq_ok_iff.1 h
    exact { hd with onDelete := FlowDefinition.deeplyMeets_of_branchOfContent hv hb }
  · exact Except.ok.inj h ▸ hd

theorem toDefinition {d : FlowDefinition} {draft : DefinitionDraft}
    {missing : String → DecodeError} (hdraft : draft.ValuesMeet P)
    (h : draft.toDefinition missing = .ok d) : ∀ s ∈ d.steps, s.ValuesMeet P := by
  obtain ⟨name, -, h⟩ := decoded_bind_eq_ok_iff.1 h
  obtain rfl := Except.ok.inj h
  intro t ht
  obtain ⟨l, hl, s, hs, ht⟩ := FlowDefinition.mem_steps.1 ht
  rcases FlowDefinition.mem_branches.1 hl with hl | hl | hl
  · exact hdraft.onCreate l hl s hs t ht
  · exact hdraft.onUpdate l hl s hs t ht
  · exact hdraft.onDelete l hl s hs t ht

end DefinitionDraft.ValuesMeet

/-- If the contents of a class can only stand for values with a property, then the optional values
of a definition that is read from such a content have it, and no object assigned in the definition
has a key twice. -/
theorem FlowDefinition.valuesMeet_of_ofContent {Q : Content → Prop} (hQ : Hereditary Q)
    (hvalue : ∀ c, Q c → ∀ o, c.asOptionalJson = .ok o → ∀ v ∈ o, P v) {c : Content} (hc : Q c)
    {d : FlowDefinition} (h : FlowDefinition.ofContent c = .ok d) :
    ∀ s ∈ d.steps, s.ValuesMeet P := by
  cases c with
  | mapping entries =>
    rw [ofContent_mapping, decoded_bind_eq_ok_iff] at h
    obtain ⟨draft, hdraft, hd⟩ := h
    exact (Record.setEntries_preserves DefinitionDraft.ValuesMeet.set
      (hQ.decodesToEntries hvalue entries (hQ.entries hc)) DefinitionDraft.ValuesMeet.empty
      hdraft).toDefinition hd
  | sequence items =>
    rw [ofContent_sequence, decoded_bind_eq_ok_iff] at h
    obtain ⟨draft, hdraft, h⟩ := h
    obtain ⟨d', hd, h⟩ := decoded_bind_eq_ok_iff.1 h
    split at h
    · cases h
    obtain rfl := Except.ok.inj h
    exact (Record.setItems_preserves DefinitionDraft.ValuesMeet.set
      (hQ.decodesToItems hvalue items (hQ.items hc)) DefinitionDraft.ValuesMeet.empty
      hdraft).toDefinition hd
  | _ => cases h

end LifecycleFlow
