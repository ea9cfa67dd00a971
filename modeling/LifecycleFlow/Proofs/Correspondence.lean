import LifecycleFlow.Proofs.Lists
import LifecycleFlow.Proofs.Rendering
import LifecycleFlow.Proofs.Runs

/-!
# Documents and correspondences

Two graphs may hold the same states under other numbers, and among other states. A correspondence
pairs the states reachable from one start with those reachable from another one, so that paired
states agree in all that they carry and lead to paired states. Main statement: two starts have the
same document exactly if there is a correspondence between them.
-/
namespace LifecycleFlow

open LifecycleFlow.Graph (optionalField optionalText assignField)
open Json (Object)

variable {R S : StateId → StateId → Prop} {name name' : StateId → String}

structure Catcher.Agrees (R : StateId → StateId → Prop) (c d : Catcher) : Prop where
  errors : c.errors = d.errors
  next : R c.next d.next
  outputs : c.outputs = d.outputs

/-- Conditions are compared by what is written of them. -/
structure Rule.Agrees (R : StateId → StateId → Prop) (r q : Rule) : Prop where
  condition : r.condition.template = q.condition.template
  next : R r.next q.next

/-- Service and action are compared by the resource that they name together. -/
structure ServiceCall.Agrees (c d : ServiceCall) : Prop where
  resource : c.resource = d.resource
  parameters : c.parameters = d.parameters
  assign : c.assign = d.assign
  outputs : c.outputs = d.outputs
  comment : c.comment = d.comment

/-- Two states are of one kind and carry the same, and lead to related states. -/
inductive StateKind.Agrees (R : StateId → StateId → Prop) : StateKind → StateKind → Prop
  | pass (p : Pass) : Agrees R (.pass p) (.pass p)
  | task {c d : ServiceCall} {catchers catchers' : List Catcher} (hcall : c.Agrees d)
      (hcatchers : List.Forall₂ (Catcher.Agrees R) catchers catchers') :
      Agrees R (.task c catchers) (.task d catchers')
  | choice {rules rules' : List Rule} {otherwise otherwise' : Option StateId}
      (hrules : List.Forall₂ (Rule.Agrees R) rules rules')
      (hotherwise : Option.Rel R otherwise otherwise') :
      Agrees R (.choice rules otherwise) (.choice rules' otherwise')
  | fail (f : Failure) : Agrees R (.fail f) (.fail f)

/-- Two states are the same but for the numbers of the states to which they lead, which are
related. -/
structure State.Agrees (R : StateId → StateId → Prop) (s t : State) : Prop where
  name : s.name = t.name
  kind : s.kind.Agrees R t.kind
  next : Option.Rel R s.next t.next

theorem optionalField_inj {key : String} {v w : Option Json} :
    optionalField key v = optionalField key w ↔ v = w := by
  cases v <;> cases w <;> simp [optionalField]

theorem Catcher.written_eq_iff {c d : Catcher} :
    c.written name = d.written name' ↔ c.Agrees (fun i j => name i = name' j) d := by
  have hinj : Function.Injective Json.string := fun _ _ => Json.string.inj
  simp only [written, Json.object.injEq, List.cons_append, List.nil_append, List.cons.injEq,
    Prod.mk.injEq, true_and, Json.array.injEq, Json.string.injEq, optionalField_inj,
    List.map_inj_right hinj]
  exact ⟨fun ⟨herrors, hnext, houtputs⟩ => ⟨herrors, hnext, houtputs⟩,
    fun h => ⟨h.errors, h.next, h.outputs⟩⟩

theorem Rule.written_eq_iff {r q : Rule} :
    r.written name = q.written name' ↔ r.Agrees (fun i j => name i = name' j) q := by
  simp only [written, Json.object.injEq, List.cons.injEq, Prod.mk.injEq, true_and, and_true,
    Json.string.injEq]
  exact ⟨fun ⟨hcondition, hnext⟩ => ⟨hcondition, hnext⟩, fun h => ⟨h.condition, h.next⟩⟩

private theorem option_map_eq_map_iff {o o' : Option StateId} :
    (o.map fun t => Json.string (name t)) = (o'.map fun t => Json.string (name' t)) ↔
      Option.Rel (fun i j => name i = name' j) o o' := by
  cases o <;> cases o' <;> simp

private theorem text_inj {o o' : Option String} (h : o.map Json.string = o'.map Json.string) :
    o = o' :=
  Option.map_injective (fun _ _ => Json.string.inj) h

/-- What is written of a list tells the list, also if an empty one is not written. -/
private theorem written_list_inj {α : Type} {write : List α → Json}
    (hwrite : Function.Injective write) {l l' : List α}
    (h : (if l = [] then none else some (write l)) = if l' = [] then none else some (write l')) :
    l = l' := by
  cases l <;> cases l' <;> simp_all [hwrite.eq_iff]

/-- The fields of its kind tell what a state carries and the names of the states it leads to. -/
theorem StateKind.agrees_of_find? {kind kind' : StateKind} (hlabel : kind.label = kind'.label)
    (h : ∀ key, key ∉ ["Type", "Next", "End"] →
      Object.find? key (kind.fields name) = Object.find? key (kind'.fields name')) :
    kind.Agrees (fun i j => name i = name' j) kind' := by
  cases kind with
  | pass p =>
    cases kind' with
    | pass q =>
      have hcomment : p.comment = q.comment :=
        text_inj (by simpa [fields, Object.find?_append] using h "Comment" (by simp))
      have hassign : p.assign = q.assign :=
        written_list_inj (fun _ _ => Json.object.inj) (by
          simpa [fields, Object.find?_append] using h "Assign" (by simp))
      have houtputs : p.outputs = q.outputs := by
        simpa [fields, Object.find?_append] using h "Output" (by simp)
      obtain rfl : p = q := by
        cases p
        cases q
        simp_all
      exact .pass p
    | _ => simp [label] at hlabel
  | task c catchers =>
    cases kind' with
    | task d catchers' =>
      have hcomment : c.comment = d.comment :=
        text_inj (by simpa [fields, Object.find?_append, Object.find?] using h "Comment" (by simp))
      have hresource : c.resource = d.resource := by
        simpa [fields, Object.find?_append, Object.find?] using h "Resource" (by simp)
      have hparameters : c.parameters = d.parameters := by
        simpa [fields, Object.find?_append, Object.find?] using h "Arguments" (by simp)
      have hassign : c.assign = d.assign :=
        written_list_inj (fun _ _ => Json.object.inj) (by
          simpa [fields, Object.find?_append, Object.find?] using h "Assign" (by simp))
      have houtputs : c.outputs = d.outputs := by
        simpa [fields, Object.find?_append, Object.find?] using h "Output" (by simp)
      have hcatchers :
          catchers.map (Catcher.written name) = catchers'.map (Catcher.written name') :=
        written_list_inj (fun _ _ => Json.array.inj) (by
          simpa [fields, Object.find?_append, Object.find?] using h "Catch" (by simp))
      rw [List.map_eq_map_iff_forall₂] at hcatchers
      exact .task ⟨hresource, hparameters, hassign, houtputs, hcomment⟩
        (hcatchers.imp fun _ _ => Catcher.written_eq_iff.1)
    | _ => simp [label] at hlabel
  | choice rules otherwise =>
    cases kind' with
    | choice rules' otherwise' =>
      have hrules : rules.map (Rule.written name) = rules'.map (Rule.written name') := by
        simpa [fields, Object.find?] using h "Choices" (by simp)
      have hdefault : (otherwise.map fun t => Json.string (name t)) =
          otherwise'.map fun t => Json.string (name' t) := by
        simpa [fields, Object.find?, Function.comp_def] using h "Default" (by simp)
      rw [List.map_eq_map_iff_forall₂] at hrules
      exact .choice (hrules.imp fun _ _ => Rule.written_eq_iff.1) (option_map_eq_map_iff.1 hdefault)
    | _ => simp [label] at hlabel
  | fail f =>
    cases kind' with
    | fail f' =>
      have hcomment : f.comment = f'.comment :=
        text_inj (by simpa [fields, Object.find?_append] using h "Comment" (by simp))
      have herror : f.error = f'.error :=
        text_inj (by simpa [fields, Object.find?_append] using h "Error" (by simp))
      have hcause : f.cause = f'.cause :=
        text_inj (by simpa [fields, Object.find?_append] using h "Cause" (by simp))
      obtain rfl : f = f' := by
        cases f
        cases f'
        simp_all
      exact .fail f
    | _ => simp [label] at hlabel

/-- States that agree but for numbers of equal names have the same fields of their kind. -/
theorem StateKind.Agrees.fields_eq {kind kind' : StateKind}
    (h : kind.Agrees (fun i j => name i = name' j) kind') :
    kind.fields name = kind'.fields name' := by
  cases h with
  | pass p => rfl
  | fail f => rfl
  | @task c d catchers catchers' hcall hcatchers =>
    have hwritten : catchers.map (Catcher.written name) = catchers'.map (Catcher.written name') :=
      List.map_eq_map_iff_forall₂.2 (hcatchers.imp fun _ _ => Catcher.written_eq_iff.2)
    simp only [fields, hwritten, hcall.resource, hcall.parameters, hcall.assign, hcall.outputs,
      hcall.comment]
  | @choice rules rules' otherwise otherwise' hrules hotherwise =>
    have hwritten : rules.map (Rule.written name) = rules'.map (Rule.written name') :=
      List.map_eq_map_iff_forall₂.2 (hrules.imp fun _ _ => Rule.written_eq_iff.2)
    have hdefault : otherwise.map name = otherwise'.map name' := by
      cases hotherwise with
      | none => rfl
      | some h => exact congrArg some h
    simp only [fields, hwritten, hdefault]

theorem StateKind.Agrees.label_eq {kind kind' : StateKind} (h : kind.Agrees R kind') :
    kind.label = kind'.label := by
  cases h <;> rfl

theorem StateKind.Agrees.isNextable_eq {kind kind' : StateKind} (h : kind.Agrees R kind') :
    kind.isNextable = kind'.isNextable := by
  cases h <;> rfl

/-- The entries of two states are the same exactly if the states agree up to the names of the states
to which they lead. -/
theorem State.agrees_iff {s t : State} (hs : s.next.isSome → s.isNextable)
    (ht : t.next.isSome → t.isNextable) : s.Agrees (fun i j => name i = name' j) t ↔
      s.name = t.name ∧ s.fields name = t.fields name' := by
  constructor
  · intro h
    have hsame : s.isNextable = t.isNextable := h.kind.isNextable_eq
    have hcontinuation : s.continuation name = t.continuation name' := by
      obtain ⟨_, _, n⟩ := s
      obtain ⟨_, _, n'⟩ := t
      rw [continuation, continuation, hsame]
      cases h.next with
      | none => rfl
      | some heq => simp only [heq]
    exact ⟨h.name, by rw [fields, fields, h.kind.label_eq, h.kind.fields_eq, hcontinuation]⟩
  · rintro ⟨hname, h⟩
    have hfind (key : String) :
        Object.find? key (s.fields name) = Object.find? key (t.fields name') :=
      congrArg (Object.find? key) h
    have hlabel : s.kind.label = t.kind.label := by
      simpa [s.find?_type, t.find?_type] using hfind "Type"
    have hkind := StateKind.agrees_of_find? hlabel fun key hkey => by
      rw [← s.find?_of_kind hkey, ← t.find?_of_kind hkey, hfind key]
    have hsame : s.isNextable = t.isNextable := hkind.isNextable_eq
    refine ⟨hname, hkind, ?_⟩
    have hnext := hfind "Next"
    rw [s.find?_next, t.find?_next, hsame] at hnext
    cases hn : t.isNextable with
    | true =>
      rw [hn, if_pos rfl, if_pos rfl] at hnext
      exact option_map_eq_map_iff.1 hnext
    | false =>
      -- nothing is written there, but nothing is set either
      have hnone : s.next = none := by simpa [hsame, hn] using hs
      have hnone' : t.next = none := by simpa [hn] using ht
      rw [hnone, hnone']
      exact .none

/-- Kinds that agree lead to related states, in the same order. -/
theorem StateKind.Agrees.targets {kind kind' : StateKind} (h : kind.Agrees R kind') :
    List.Forall₂ R kind.targets kind'.targets := by
  cases h with
  | pass p => exact .nil
  | fail f => exact .nil
  | task _ hcatchers => exact hcatchers.map fun _ _ h => h.next
  | choice hrules hotherwise =>
    exact List.rel_append (hrules.map fun _ _ h => h.next) hotherwise.forall₂_toList

theorem StateKind.Agrees.imp {kind kind' : StateKind} (h : kind.Agrees R kind')
    (himp : ∀ i ∈ kind.targets, ∀ j ∈ kind'.targets, R i j → S i j) : kind.Agrees S kind' := by
  cases h with
  | pass p => exact .pass p
  | fail f => exact .fail f
  | task hcall hcatchers =>
    refine .task hcall (hcatchers.imp_of_mem fun c hc d hd h => ?_)
    exact ⟨h.errors, himp _ (List.mem_map_of_mem hc) _ (List.mem_map_of_mem hd) h.next, h.outputs⟩
  | choice hrules hotherwise =>
    refine .choice (hrules.imp_of_mem fun r hr q hq h => ?_)
      (hotherwise.imp_of_mem fun i hi j hj => ?_)
    · exact ⟨h.condition, himp _ (List.mem_append_left _ (List.mem_map_of_mem hr)) _
        (List.mem_append_left _ (List.mem_map_of_mem hq)) h.next⟩
    · exact himp i (List.mem_append_right _ hi) j (List.mem_append_right _ hj)

theorem State.Agrees.successors {s t : State} (h : s.Agrees R t) :
    List.Forall₂ R s.successors t.successors :=
  List.rel_append h.next.forall₂_toList h.kind.targets

theorem State.Agrees.imp {s t : State} (h : s.Agrees R t)
    (himp : ∀ i ∈ s.successors, ∀ j ∈ t.successors, R i j → S i j) : s.Agrees S t where
  name := h.name
  kind := h.kind.imp fun i hi j hj =>
    himp i (List.mem_append_right _ hi) j (List.mem_append_right _ hj)
  next := h.next.imp_of_mem fun i hi j hj =>
    himp i (List.mem_append_left _ hi) j (List.mem_append_left _ hj)

namespace Graph

variable {g₁ g₂ : Graph} {a b : StateId} {ids₁ ids₂ : List StateId}

/-- If related states lead to related ones, then searches from related states find related states in
the same order. -/
theorem visit_forall₂ (hR : Relator.BiUnique R)
    (hstep : ∀ i j, R i j → ∃ s t, g₁.states[i]? = some s ∧ g₂.states[j]? = some t ∧
      List.Forall₂ R s.successors t.successors) {waiting₁ seen₁ : List StateId} :
    ∀ {waiting₂ seen₂ : List StateId}, List.Forall₂ R waiting₁ waiting₂ →
      List.Forall₂ R seen₁ seen₂ → g₁.visit waiting₁ seen₁ = .ok ids₁ →
      ∃ ids₂, g₂.visit waiting₂ seen₂ = .ok ids₂ ∧ List.Forall₂ R ids₁ ids₂ := by
  fun_induction visit g₁ waiting₁ seen₁ with
  | case1 seen₁ =>
    rintro waiting₂ seen₂ ⟨⟩ hseen h
    obtain rfl := Except.ok.inj h
    exact ⟨seen₂, by rw [visit], hseen⟩
  | case2 seen₁ i rest hi ih =>
    rintro _ seen₂ (_ | ⟨hij, hrest⟩) hseen h
    obtain ⟨ids₂, h₂, hids⟩ := ih hrest hseen h
    -- related states determine each other, so both are seen or neither is
    have hj := (List.rel_mem hR hij hseen).1 (by simpa using hi)
    exact ⟨ids₂, by rw [visit_of_mem hj, h₂], hids⟩
  | case3 =>
    intro _ _ _ _ h
    cases h
  | case4 seen₁ i rest hi s hs ih =>
    rintro _ seen₂ (_ | ⟨hij, hrest⟩) hseen h
    obtain ⟨s', t, hs', ht, hsuccessors⟩ := hstep _ _ hij
    obtain rfl := Option.some.inj (hs.symm.trans hs')
    obtain ⟨ids₂, h₂, hids⟩ := ih (List.rel_append hsuccessors hrest)
      (List.rel_append hseen (.cons hij .nil)) h
    have hj := (List.rel_mem hR hij hseen).not.1 (by simpa using hi)
    exact ⟨ids₂, by rw [visit_of_notMem hj ht, h₂], hids⟩

/-- A pairing of the states reachable from one start with those reachable from another, such that
the starts are paired, and paired states agree and lead to paired states. -/
structure Correspondence (g₁ g₂ : Graph) (a b : StateId) where
  toEquiv : {i // g₁.Reaches a i} ≃ {j // g₂.Reaches b j}
  start : toEquiv ⟨a, .refl⟩ = ⟨b, .refl⟩
  agrees : ∀ i, ∃ s t, g₁.states[i.1]? = some s ∧ g₂.states[(toEquiv i).1]? = some t ∧
    s.Agrees (fun k l => ∃ hk, (toEquiv ⟨k, hk⟩).1 = l) t

namespace Correspondence

variable (φ : Correspondence g₁ g₂ a b)

def Pairs (i j : StateId) : Prop :=
  ∃ hi, (φ.toEquiv ⟨i, hi⟩).1 = j

theorem biUnique_pairs : Relator.BiUnique φ.Pairs where
  left := by
    rintro i j k ⟨hi, rfl⟩ ⟨hj, h⟩
    exact congrArg Subtype.val (φ.toEquiv.injective (Subtype.ext h.symm))
  right := by
    rintro i j k ⟨_, rfl⟩ ⟨_, rfl⟩
    rfl

variable {φ}

theorem Pairs.agrees {i j : StateId} (h : φ.Pairs i j) :
    ∃ s t, g₁.states[i]? = some s ∧ g₂.states[j]? = some t ∧ s.Agrees φ.Pairs t := by
  obtain ⟨hi, rfl⟩ := h
  exact φ.agrees ⟨i, hi⟩

theorem Pairs.nameAt_eq {i j : StateId} (h : φ.Pairs i j) : g₁.nameAt i = g₂.nameAt j := by
  obtain ⟨s, t, hs, ht, hagrees⟩ := h.agrees
  rw [Graph.nameAt_eq hs, Graph.nameAt_eq ht, hagrees.name]

/-- Paired states have the same entry. -/
theorem Pairs.entryAt_eq (hg₁ : g₁.WellFormed) (hg₂ : g₂.WellFormed) {i j : StateId}
    (h : φ.Pairs i j) : g₁.entryAt i = g₂.entryAt j := by
  obtain ⟨s, t, hs, ht, hagrees⟩ := h.agrees
  have hentry := (State.agrees_iff (hg₁.nextable s (List.mem_of_getElem? hs))
    (hg₂.nextable t (List.mem_of_getElem? ht))).1 (hagrees.imp fun _ _ _ _ h => h.nameAt_eq)
  rw [Graph.entryAt_eq hs, Graph.entryAt_eq ht, hentry.1, hentry.2]

/-- Starts that correspond have the same document. -/
theorem document_eq (φ : Correspondence g₁ g₂ a b) (hg₁ : g₁.WellFormed) (hg₂ : g₂.WellFormed)
    (ha : a < g₁.size) (comment : Option String) :
    ∃ d, g₁.document a comment = .ok d ∧ g₂.document b comment = .ok d := by
  obtain ⟨ids₁, h₁⟩ := exists_reachable_of_lt hg₁ ha
  have hstart : φ.Pairs a b := ⟨.refl, congrArg Subtype.val φ.start⟩
  obtain ⟨ids₂, h₂, hids⟩ := visit_forall₂ φ.biUnique_pairs
    (fun i j hij => by
      obtain ⟨s, t, hs, ht, hagrees⟩ := hij.agrees
      exact ⟨s, t, hs, ht, hagrees.successors⟩)
    (.cons hstart .nil) .nil h₁
  have hentries : ids₁.map g₁.entryAt = ids₂.map g₂.entryAt :=
    List.map_eq_map_iff_forall₂.2 (hids.imp fun _ _ h => h.entryAt_eq hg₁ hg₂)
  refine ⟨_, Graph.document_eq hg₁ h₁ comment, ?_⟩
  rw [Graph.document_eq hg₂ h₂ comment, hstart.nameAt_eq, hentries]

end Correspondence

/-- Starts with the same document correspond. -/
theorem nonempty_correspondence_of_document_eq (hg₁ : g₁.WellFormed) (hg₂ : g₂.WellFormed)
    (ha : a < g₁.size) (hb : b < g₂.size) {comment : Option String} {d : Json}
    (hd₁ : g₁.document a comment = .ok d) (hd₂ : g₂.document b comment = .ok d) :
    Nonempty (Correspondence g₁ g₂ a b) := by
  obtain ⟨ids₁, h₁⟩ := exists_reachable_of_lt hg₁ ha
  obtain ⟨ids₂, h₂⟩ := exists_reachable_of_lt hg₂ hb
  have hlt₁ {i : StateId} (hi : g₁.Reaches a i) : i < g₁.size :=
    lt_size_of_mem_reachable h₁ i ((mem_reachable_iff h₁).2 hi)
  have hlt₂ {j : StateId} (hj : g₂.Reaches b j) : j < g₂.size :=
    lt_size_of_mem_reachable h₂ j ((mem_reachable_iff h₂).2 hj)
  rw [document_eq hg₁ h₁] at hd₁
  rw [document_eq hg₂ h₂, ← hd₁] at hd₂
  obtain ⟨hstart, hentries⟩ : g₂.nameAt b = g₁.nameAt a ∧
      ids₂.map g₂.entryAt = ids₁.map g₁.entryAt := by
    simpa using hd₂
  obtain ⟨e, he⟩ := (List.map_eq_map_iff_forall₂.1 hentries.symm).exists_equiv (nodup_of_reachable h₁)
    (nodup_of_reachable h₂) (fun _ => (mem_reachable_iff h₁).symm) fun _ => mem_reachable_iff h₂
  have hname (i) : g₁.nameAt i.1 = g₂.nameAt (e i).1 := congrArg Prod.fst (he i)
  -- names tell the states of a graph apart, so what is named alike is paired
  have hpaired {i : StateId} (hi : g₁.Reaches a i) {j : StateId} (hj : g₂.Reaches b j)
      (h : g₁.nameAt i = g₂.nameAt j) : e ⟨i, hi⟩ = ⟨j, hj⟩ :=
    Subtype.ext (hg₂.indexed.nameAt_inj (hlt₂ (e _).2) (hlt₂ hj) ((hname _).symm.trans h))
  refine ⟨⟨e, hpaired .refl .refl hstart.symm, fun i => ?_⟩⟩
  obtain ⟨s, hs⟩ := exists_state_of_lt (hlt₁ i.2)
  obtain ⟨t, ht⟩ := exists_state_of_lt (hlt₂ (e i).2)
  have hentry := he i
  rw [entryAt_eq hs, entryAt_eq ht] at hentry
  have hagrees := (State.agrees_iff (hg₁.nextable s (List.mem_of_getElem? hs))
    (hg₂.nextable t (List.mem_of_getElem? ht))).2 (by simpa using hentry)
  refine ⟨s, t, hs, ht, hagrees.imp fun k hk l hl h => ?_⟩
  have hk' : g₁.Reaches a k := i.2.tail ⟨s, hs, hk⟩
  have hl' : g₂.Reaches b l := (e i).2.tail ⟨t, ht, hl⟩
  exact ⟨hk', congrArg Subtype.val (hpaired hk' hl' h)⟩

/-- On whatever two graphs were brought about, and with whatever comment, two starts have the same
document exactly if they correspond. -/
theorem document_eq_iff_correspondence (ops₁ ops₂ : List Operation) {a b : StateId}
    (ha : a < (empty.after ops₁).size) (hb : b < (empty.after ops₂).size)
    (comment : Option String) :
    (∃ d, (empty.after ops₁).document a comment = .ok d ∧
        (empty.after ops₂).document b comment = .ok d) ↔
      Nonempty (Correspondence (empty.after ops₁) (empty.after ops₂) a b) := by
  have hg₁ := wellFormed_empty.after ops₁
  have hg₂ := wellFormed_empty.after ops₂
  constructor
  · rintro ⟨d, hd₁, hd₂⟩
    exact nonempty_correspondence_of_document_eq hg₁ hg₂ ha hb hd₁ hd₂
  · rintro ⟨φ⟩
    exact φ.document_eq hg₁ hg₂ ha comment

/-- Two states that lead to each other, added in one order, and in the other order after a state
that is not reachable. -/
theorem document_eq_iff_correspondence_reordered :
    let ops₁ : List Operation := [.addPass "Ping" {}, .addPass "Pong" {}, .setNext 0 1,
      .setNext 1 0]
    let ops₂ : List Operation := [.addFail "Spare" {}, .addPass "Pong" {}, .addPass "Ping" {},
      .setNext 2 1, .setNext 1 2]
    0 < (empty.after ops₁).size ∧ 2 < (empty.after ops₂).size ∧
      Nonempty (Correspondence (empty.after ops₁) (empty.after ops₂) 0 2) := by
  intro ops₁ ops₂
  have ha : 0 < (empty.after ops₁).size := by decide +kernel
  have hb : 2 < (empty.after ops₂).size := by decide +kernel
  have hids₁ : (empty.after ops₁).reachable 0 = .ok [0, 1] := by
    have hping : (empty.after ops₁).states[0]? = some ⟨"Ping", .pass {}, some 1⟩ := rfl
    have hpong : (empty.after ops₁).states[1]? = some ⟨"Pong", .pass {}, some 0⟩ := rfl
    calc (empty.after ops₁).visit [0] []
      _ = (empty.after ops₁).visit [1] [0] := visit_of_notMem (by simp) hping
      _ = (empty.after ops₁).visit [0] [0, 1] := visit_of_notMem (by simp) hpong
      _ = (empty.after ops₁).visit [] [0, 1] := visit_of_mem (by simp)
      _ = .ok [0, 1] := by rw [visit]
  have hids₂ : (empty.after ops₂).reachable 2 = .ok [2, 1] := by
    have hping : (empty.after ops₂).states[2]? = some ⟨"Ping", .pass {}, some 1⟩ := rfl
    have hpong : (empty.after ops₂).states[1]? = some ⟨"Pong", .pass {}, some 2⟩ := rfl
    calc (empty.after ops₂).visit [2] []
      _ = (empty.after ops₂).visit [1] [2] := visit_of_notMem (by simp) hping
      _ = (empty.after ops₂).visit [2] [2, 1] := visit_of_notMem (by simp) hpong
      _ = (empty.after ops₂).visit [] [2, 1] := visit_of_mem (by simp)
      _ = .ok [2, 1] := by rw [visit]
  have hdocument := document_eq (wellFormed_empty.after ops₁) hids₁ none
  refine ⟨ha, hb, (document_eq_iff_correspondence ops₁ ops₂ ha hb none).1 ⟨_, hdocument, ?_⟩⟩
  rw [document_eq (wellFormed_empty.after ops₂) hids₂ none]
  rfl

end Graph

end LifecycleFlow
