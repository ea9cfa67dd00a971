import LifecycleFlow.Flow.Loading
import LifecycleFlow.Proofs.Recoding

/-!
# Values of definitions in YAML

A definition in YAML is decoded with a count of the aliases followed, but the count decides only
whether decoding goes on. Main statement: no object in a definition in YAML has a key twice.
-/
namespace LifecycleFlow.Yaml

variable {α β : Type} {P : α → Prop} {Q : β → Prop} {x : Expansion α}

/-- Whatever the count, an answer of an expansion has a property. -/
def Answers (x : Expansion α) (P : α → Prop) : Prop :=
  ∀ n a n', x.run n = .ok (a, n') → P a

theorem answers_true : Answers x fun _ => True :=
  fun _ _ _ _ => trivial

theorem answers_pure {a : α} (h : P a) : Answers (pure a) P := by
  rintro n _ _ ⟨⟩
  exact h

theorem answers_throw (e : DecodeError) : Answers (throw e : Expansion α) P :=
  nofun

theorem answers_lift {r : Decoded α} (h : ∀ a, r = .ok a → P a) :
    Answers (liftM r : Expansion α) P := by
  intro n a n' hrun
  cases r with
  | error e => cases hrun
  | ok a =>
    cases hrun
    exact h a rfl

theorem Answers.bind {f : α → Expansion β} (hx : Answers x P) (hf : ∀ a, P a → Answers (f a) Q) :
    Answers (x >>= f) Q := by
  intro n b n' hrun
  rw [StateT.run_bind, decoded_bind_eq_ok_iff] at hrun
  obtain ⟨⟨a, k⟩, ha, hb⟩ := hrun
  exact hf a (hx n a k ha) k b n' hb

theorem Answers.map {f : α → β} (hx : Answers x P) (hf : ∀ a, P a → Q (f a)) :
    Answers (f <$> x) Q := by
  rw [map_eq_pure_bind]
  exact hx.bind fun a ha => answers_pure (hf a ha)

theorem answers_mapM {f : α → Expansion β} {l : List α} (hf : ∀ a ∈ l, Answers (f a) Q) :
    Answers (l.mapM f) fun r => ∀ b ∈ r, Q b := by
  induction l with
  | nil => exact answers_pure nofun
  | cons a rest ih =>
    obtain ⟨hfirst, hrest⟩ := List.forall_mem_cons.1 hf
    rw [List.mapM_cons]
    refine hfirst.bind fun b hb => (ih hrest).bind fun r hr => ?_
    exact answers_pure (List.forall_mem_cons.2 ⟨hb, hr⟩)

theorem answers_foldlM {f : β → α → Expansion β} {l : List α} {b : β}
    (hf : ∀ b a, Q b → Answers (f b a) Q) (hb : Q b) : Answers (l.foldlM f b) Q := by
  induction l generalizing b with
  | nil => exact answers_pure hb
  | cons a rest ih =>
    rw [List.foldlM_cons]
    exact (hf b a hb).bind fun b' hb' => ih hb'

namespace Document

open Content

variable {d : Document} {depth : Nat}

theorem decodesTo_keysDistinct (c : Content) : c.DecodesTo Json.KeysDistinct := by
  have hall : Hereditary fun _ => True := ⟨fun _ _ _ => trivial, fun _ _ _ => trivial⟩
  refine hall.decodesTo (fun c _ o ho v hv => ?_) c trivial
  by_cases hnull : c = .null
  · subst hnull
    obtain rfl := Except.ok.inj ho
    cases hv
  · rw [asOptionalJson_of_ne_null hnull, decoded_map_eq_ok_iff] at ho
    obtain ⟨w, hw, rfl⟩ := ho
    obtain rfl := Option.some.inj hv
    exact keysDistinct_of_toJson c hw

theorem answers_step (n : Node) : Answers (d.step depth n) (·.DeeplyMeets Json.KeysDistinct) := by
  refine answers_true.bind fun n _ => ?_
  refine answers_true.bind fun _ _ => ?_
  cases n with
  | sequence p items =>
    cases depth with
    | zero => exact answers_throw _
    | succ depth =>
      cases items with
      | nil => exact answers_throw _
      | cons k rest =>
        refine answers_true.bind fun kind _ => ?_
        refine answers_true.bind fun items _ => ?_
        exact answers_lift fun s hs => Step.deeplyMeets_ofItems
          (fun c _ => decodesTo_keysDistinct c) hs
  | mapping p entries =>
    cases depth with
    | zero => exact answers_throw _
    | succ depth =>
      refine answers_true.bind fun r _ => ?_
      obtain ⟨_ | kind, entries⟩ := r
      · exact answers_throw _
      · exact answers_lift fun s hs => Step.deeplyMeets_ofEntries
          (fun e _ => decodesTo_keysDistinct e.2) hs
  | scalar p s plain => exact answers_throw _
  | reference a => exact answers_throw _

theorem answers_branch (n : Node) : Answers (d.branch depth n)
    fun b => ∀ l ∈ b, ∀ s ∈ l, s.DeeplyMeets Json.KeysDistinct := by
  refine answers_true.bind fun n _ => ?_
  cases n with
  | sequence p items =>
    cases depth with
    | zero => exact answers_throw _
    | succ depth =>
      refine (answers_mapM fun n _ => answers_step n).map fun l hl => ?_
      rintro _ ⟨⟩
      exact hl
  | mapping p entries => exact answers_throw _
  | reference a => exact answers_throw _
  | scalar p s plain =>
    refine answers_true.bind fun absent _ => ?_
    split
    · exact answers_pure nofun
    · split
      · refine answers_pure ?_
        rintro _ ⟨⟩
        exact nofun
      · exact answers_throw _

private theorem answers_once {α : Type} {P : α → Prop} {read : Expansion α} {e : DecodeError}
    (old : Option α) (h : Answers read P) :
    Answers (match old with
      | some _ => throw e
      | none => some <$> read) fun o => ∃ a, o = some a ∧ P a := by
  cases old with
  | some _ => exact answers_throw _
  | none => exact h.map fun a ha => ⟨a, rfl, ha⟩

theorem answers_setField {draft : DefinitionDraft} (field : String) (n : Node)
    (h : draft.ValuesMeet Json.KeysDistinct) :
    Answers (d.setField depth draft field n) (·.ValuesMeet Json.KeysDistinct) := by
  unfold Document.setField
  split
  · refine (answers_once _ answers_true).bind ?_
    exact fun o _ => answers_pure { h with }
  · refine (answers_once _ answers_true).bind ?_
    exact fun o _ => answers_pure { h with }
  · refine (answers_once _ answers_true).bind ?_
    exact fun o _ => answers_pure { h with }
  · refine (answers_once _ (answers_branch n)).bind ?_
    rintro _ ⟨b, rfl, hb⟩
    exact answers_pure { h with onCreate := hb }
  · refine (answers_once _ (answers_branch n)).bind ?_
    rintro _ ⟨b, rfl, hb⟩
    exact answers_pure { h with onUpdate := hb }
  · refine (answers_once _ (answers_branch n)).bind ?_
    rintro _ ⟨b, rfl, hb⟩
    exact answers_pure { h with onDelete := hb }
  · exact answers_pure h

theorem answers_definitionDraft :
    Answers d.definitionDraft (·.ValuesMeet Json.KeysDistinct) := by
  rw [definitionDraft]
  split
  · exact answers_pure .empty
  · refine answers_true.bind fun n _ => ?_
    cases n with
    | mapping p entries =>
      refine answers_foldlM (fun draft e hdraft => ?_) .empty
      exact answers_true.bind fun field _ => answers_setField field e.2 hdraft
    | scalar p s plain =>
      dsimp only
      split
      · exact answers_pure .empty
      · exact answers_throw _
    | sequence p items => exact answers_throw _
    | reference a => exact answers_throw _

theorem valuesMeet_of_toDefinition {flow : FlowDefinition} (h : d.toDefinition = .ok flow) :
    ∀ s ∈ flow.steps, s.ValuesMeet Json.KeysDistinct := by
  rw [toDefinition, decoded_bind_eq_ok_iff] at h
  obtain ⟨⟨draft, n⟩, hdraft, h⟩ := h
  exact (answers_definitionDraft 0 draft n hdraft).toDefinition h

end Document

end LifecycleFlow.Yaml

namespace LifecycleFlow.FlowDefinition

/-- No object in a definition that was read from YAML has a key twice. -/
theorem keysDistinct_of_ofYaml {text : String} {d : FlowDefinition}
    (h : FlowDefinition.ofYaml text = .ok d) : d.KeysDistinct := by
  rw [ofYaml] at h
  split at h
  · rename_i document hdocument
    cases hd : document.toDefinition with
    | error e =>
      rw [hd] at h
      cases h
    | ok d' =>
      rw [hd] at h
      obtain rfl := Except.ok.inj h
      intro s hs
      have hvalues := Yaml.Document.valuesMeet_of_toDefinition hd s hs
      exact ⟨hvalues.assign, hvalues.optional⟩
  · cases h

end LifecycleFlow.FlowDefinition
