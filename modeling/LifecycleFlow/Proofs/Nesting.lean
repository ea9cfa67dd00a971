import LifecycleFlow.Dispatch
import LifecycleFlow.Flow.Definition
import Mathlib.Data.List.Nodup

/-!
# Steps at all depths

The steps of a definition with those of its handlers, at any depth, the sequences in which they
stand, and the definitions that can be built: said of the tree that its author wrote, without a
graph.
-/
namespace LifecycleFlow

mutual

/-- A step, then the steps of its handlers, at any depth. -/
def Step.all : Step → List Step
  | .pass name p => [.pass name p]
  | .task name call handlers => .task name call handlers :: Handler.allOf handlers
  | .fail name f => [.fail name f]

/-- The steps of handlers, at any depth. -/
def Handler.allOf : List Handler → List Step
  | [] => []
  | .mk _ _ steps _ :: rest => Step.allOf steps ++ Handler.allOf rest

def Step.allOf : List Step → List Step
  | [] => []
  | s :: rest => s.all ++ Step.allOf rest

end

/-- A list of steps, and the name of the state that follows the last one, if one is given. -/
structure Sequence where
  steps : List Step
  target : Option String

/-- The steps of a handler, with what follows them. -/
def Handler.sequence (h : Handler) : Sequence :=
  ⟨h.steps, h.target⟩

def Step.handlers : Step → List Handler
  | .task _ _ handlers => handlers
  | _ => []

namespace Sequence

/-- A sequence that can be run: it has steps, none but the last one fails, and if it is to be
continued, the last one does not. -/
structure Sound (q : Sequence) : Prop where
  nonempty : q.steps ≠ []
  failsLast : ∀ s ∈ q.steps.dropLast, s.isFail = false
  continued : q.target.isSome → ∃ s, q.steps.getLast? = some s ∧ s.isFail = false

theorem sound_iff {q : Sequence} : q.Sound ↔ q.steps.isEmpty = false ∧
    (∀ s ∈ q.steps.dropLast, s.isFail = false) ∧
    (q.target.isSome → q.steps.getLast?.any (fun s => !s.isFail) = true) := by
  constructor
  · intro h
    refine ⟨List.isEmpty_eq_false_iff.2 h.nonempty, h.failsLast, fun ht => ?_⟩
    obtain ⟨s, hs, hfail⟩ := h.continued ht
    simp [hs, hfail]
  · rintro ⟨hne, hfails, hcont⟩
    refine ⟨List.isEmpty_eq_false_iff.1 hne, hfails, fun ht => ?_⟩
    cases hlast : q.steps.getLast? with
    | none =>
      rw [hlast] at hcont
      exact absurd (hcont ht) (by simp)
    | some s => exact ⟨s, rfl, by simpa [hlast] using hcont ht⟩

instance : DecidablePred Sequence.Sound :=
  fun _ => decidable_of_iff _ sound_iff.symm

/-- The name of the state that follows a step of a sequence: the next step, after the last one the
target. -/
def follower (q : Sequence) (i : Nat) : Option String :=
  ((q.steps[i + 1]?).map Step.name).or q.target

end Sequence

namespace FlowDefinition

variable (d : FlowDefinition)

/-- The branches given, in the order create, update, delete. -/
def branches : List (List Step) :=
  d.onCreate.toList ++ d.onUpdate.toList ++ d.onDelete.toList

def steps : List Step :=
  d.branches.flatMap Step.allOf

/-- All sequences: the branches, and the handlers at all depths. -/
def sequences : List Sequence :=
  d.branches.map (⟨·, none⟩) ++ (d.steps.flatMap Step.handlers).map Handler.sequence

/-- The steps for a type of request: without a branch for create, those for update. -/
def branchSteps : RequestType → Option (List Step)
  | .create => d.onCreate.or d.onUpdate
  | .update => d.onUpdate
  | .delete => d.onDelete

/-- The types of request for which there are no steps. -/
def idleTypes : List RequestType :=
  RequestType.all.filter fun t => (d.branchSteps t).isNone

/-- The name of the state of a step: the text put before all names, then the name of the step. -/
def stateName (name : String) : String :=
  d.namePrefix.getD "" ++ name

/-- The definitions that can be built. -/
structure WellFormed : Prop where
  hasBranch : d.onCreate.isSome ∨ d.onUpdate.isSome ∨ d.onDelete.isSome
  sound : ∀ q ∈ d.sequences, q.Sound
  distinct : (d.steps.map Step.name).Nodup
  known : ∀ q ∈ d.sequences, ∀ t, q.target = some t → t ∈ d.steps.map Step.name
  reserved : ∀ s ∈ d.steps, s.name ≠ "Initialize" ∧ s.name ≠ "Which Request Type?" ∧
    (d.onCreate = none → d.onUpdate = none → s.name ≠ "Create") ∧
    (d.onUpdate = none → s.name ≠ "Update") ∧ (d.onDelete = none → s.name ≠ "Delete")

theorem wellFormed_iff_checks : d.WellFormed ↔
    (d.onCreate.isSome ∨ d.onUpdate.isSome ∨ d.onDelete.isSome) ∧
    (∀ q ∈ d.sequences, q.Sound) ∧ (d.steps.map Step.name).Nodup ∧
    (∀ q ∈ d.sequences, ∀ t ∈ q.target, t ∈ d.steps.map Step.name) ∧
    ∀ s ∈ d.steps, s.name ≠ "Initialize" ∧ s.name ≠ "Which Request Type?" ∧
      (d.onCreate.isNone → d.onUpdate.isNone → s.name ≠ "Create") ∧
      (d.onUpdate.isNone → s.name ≠ "Update") ∧ (d.onDelete.isNone → s.name ≠ "Delete") := by
  simp only [Option.isNone_iff_eq_none]
  constructor
  · rintro ⟨hbranch, hsound, hdistinct, hknown, hreserved⟩
    exact ⟨hbranch, hsound, hdistinct, hknown, hreserved⟩
  · rintro ⟨hbranch, hsound, hdistinct, hknown, hreserved⟩
    exact ⟨hbranch, hsound, hdistinct, hknown, hreserved⟩

instance : DecidablePred FlowDefinition.WellFormed :=
  fun d => decidable_of_iff _ d.wellFormed_iff_checks.symm

end FlowDefinition

namespace Step

/-- The handlers of a step itself can be run. -/
def Sound (s : Step) : Prop :=
  ∀ h ∈ s.handlers, h.sequence.Sound

theorem all_eq (s : Step) : s.all = s :: Handler.allOf s.handlers := by
  cases s with
  | pass name p => simp [all, handlers, Handler.allOf]
  | task name call hs => simp [all, handlers]
  | fail name f => simp [all, handlers, Handler.allOf]

@[simp] theorem mem_all_self (s : Step) : s ∈ s.all := by
  rw [all_eq]
  exact List.mem_cons_self

theorem allOf_append (a b : List Step) : allOf (a ++ b) = allOf a ++ allOf b := by
  induction a with
  | nil => simp [allOf]
  | cons s r ih => simp [allOf, ih]

theorem length_allOf_pos {l : List Step} (h : l ≠ []) : 0 < (allOf l).length := by
  cases l with
  | nil => exact absurd rfl h
  | cons s r => simp [allOf, all_eq]

end Step

/-- A step stands in a handler of one of the given steps. -/
def Step.InHandlerOf (steps : List Step) (s : Step) : Prop :=
  ∃ t ∈ steps, ∃ h ∈ t.handlers, s ∈ h.steps

theorem Step.InHandlerOf.mono {a b : List Step} {s : Step} (h : s.InHandlerOf a) (hab : a ⊆ b) :
    s.InHandlerOf b := by
  obtain ⟨t, ht, hhandler⟩ := h
  exact ⟨t, hab ht, hhandler⟩

theorem Step.subset_allOf {l : List Step} : l ⊆ Step.allOf l := by
  induction l with
  | nil => exact List.nil_subset _
  | cons s rest ih =>
    rw [Step.allOf]
    exact List.cons_subset.2 ⟨List.mem_append_left _ s.mem_all_self,
      fun t ht => List.mem_append_right _ (ih ht)⟩

theorem Handler.subset_allOf {hs : List Handler} {h : Handler} (hh : h ∈ hs) :
    Step.allOf h.steps ⊆ Handler.allOf hs := by
  induction hs with
  | nil => simp at hh
  | cons x rest ih =>
    obtain ⟨errors, outputs, steps, target⟩ := x
    rw [Handler.allOf]
    rcases List.mem_cons.1 hh with rfl | hh
    · exact List.subset_append_left _ _
    · exact fun t ht => List.mem_append_right _ (ih hh ht)

theorem Step.mem_allOf {l : List Step} {t : Step} : t ∈ Step.allOf l ↔ ∃ s ∈ l, t ∈ s.all := by
  induction l with
  | nil => simp [Step.allOf]
  | cons s rest ih => simp [Step.allOf, ih]

theorem Handler.mem_allOf {hs : List Handler} {t : Step} :
    t ∈ Handler.allOf hs ↔ ∃ h ∈ hs, t ∈ Step.allOf h.steps := by
  induction hs with
  | nil => simp [Handler.allOf]
  | cons h rest ih =>
    obtain ⟨errors, outputs, steps, target⟩ := h
    simp [Handler.allOf, ih, Handler.steps]

mutual

/-- What is nested in a nested step is nested. -/
theorem Step.all_subset (s : Step) : ∀ t ∈ s.all, t.all ⊆ s.all := by
  match s with
  | .pass name p => simp [Step.all]
  | .fail name f => simp [Step.all]
  | .task name call handlers =>
    intro t ht
    rw [Step.all, List.mem_cons] at ht
    rcases ht with rfl | ht
    · exact List.Subset.refl _
    · rw [Step.all]
      exact List.subset_cons_of_subset _ (Handler.all_subset handlers t ht)

theorem Handler.all_subset (hs : List Handler) :
    ∀ t ∈ Handler.allOf hs, t.all ⊆ Handler.allOf hs := by
  match hs with
  | [] => simp [Handler.allOf]
  | .mk errors outputs steps target :: rest =>
    intro t ht
    rw [Handler.allOf, List.mem_append] at ht
    rw [Handler.allOf]
    rcases ht with ht | ht
    · exact List.subset_append_of_subset_left _ (Step.all_subset_allOf steps t ht)
    · exact List.subset_append_of_subset_right _ (Handler.all_subset rest t ht)

theorem Step.all_subset_allOf (l : List Step) : ∀ t ∈ Step.allOf l, t.all ⊆ Step.allOf l := by
  match l with
  | [] => simp [Step.allOf]
  | s :: rest =>
    intro t ht
    rw [Step.allOf, List.mem_append] at ht
    rw [Step.allOf]
    rcases ht with ht | ht
    · exact List.subset_append_of_subset_left _ (Step.all_subset s t ht)
    · exact List.subset_append_of_subset_right _ (Step.all_subset_allOf rest t ht)

end

mutual

/-- A nested step is the step itself, or stands in a handler of a nested step. -/
theorem Step.eq_or_inHandlerOf (s : Step) : ∀ t ∈ s.all, t = s ∨ t.InHandlerOf s.all := by
  match s with
  | .pass name p => simp [Step.all]
  | .fail name f => simp [Step.all]
  | .task name call handlers =>
    intro t ht
    rw [Step.all, List.mem_cons] at ht
    refine ht.imp id fun ht => ?_
    rw [Step.all]
    rcases Handler.mem_or_inHandlerOf handlers t ht with ⟨h, hh, hmem⟩ | hin
    · exact ⟨_, List.mem_cons_self, h, hh, hmem⟩
    · exact hin.mono (List.subset_cons_self _ _)

theorem Handler.mem_or_inHandlerOf (hs : List Handler) : ∀ t ∈ Handler.allOf hs,
    (∃ h ∈ hs, t ∈ h.steps) ∨ t.InHandlerOf (Handler.allOf hs) := by
  match hs with
  | [] => simp [Handler.allOf]
  | .mk errors outputs steps target :: rest =>
    intro t ht
    rw [Handler.allOf, List.mem_append] at ht
    rw [Handler.allOf]
    rcases ht with ht | ht
    · rcases Step.mem_or_inHandlerOf steps t ht with hmem | hin
      · exact .inl ⟨_, List.mem_cons_self, hmem⟩
      · exact .inr (hin.mono (List.subset_append_left _ _))
    · rcases Handler.mem_or_inHandlerOf rest t ht with ⟨h, hh, hmem⟩ | hin
      · exact .inl ⟨h, List.mem_cons_of_mem _ hh, hmem⟩
      · exact .inr (hin.mono (List.subset_append_right _ _))

theorem Step.mem_or_inHandlerOf (l : List Step) :
    ∀ t ∈ Step.allOf l, t ∈ l ∨ t.InHandlerOf (Step.allOf l) := by
  match l with
  | [] => simp [Step.allOf]
  | s :: rest =>
    intro t ht
    rw [Step.allOf, List.mem_append] at ht
    rw [Step.allOf]
    rcases ht with ht | ht
    · rcases Step.eq_or_inHandlerOf s t ht with rfl | hin
      · exact .inl List.mem_cons_self
      · exact .inr (hin.mono (List.subset_append_left _ _))
    · rcases Step.mem_or_inHandlerOf rest t ht with hmem | hin
      · exact .inl (List.mem_cons_of_mem _ hmem)
      · exact .inr (hin.mono (List.subset_append_right _ _))

end

namespace FlowDefinition

variable {d : FlowDefinition}

theorem mem_sequences_iff {q : Sequence} : q ∈ d.sequences ↔
    (∃ l ∈ d.branches, q = ⟨l, none⟩) ∨ ∃ s ∈ d.steps, ∃ h ∈ s.handlers, q = h.sequence := by
  simp only [sequences, List.mem_append, List.mem_map, List.mem_flatMap, eq_comm (a := q)]
  constructor
  · rintro (h | ⟨h, ⟨s, hs, hh⟩, hq⟩)
    · exact .inl h
    · exact .inr ⟨s, hs, h, hh, hq⟩
  · rintro (h | ⟨s, hs, h, hh, hq⟩)
    · exact .inl h
    · exact .inr ⟨h, ⟨s, hs, hh⟩, hq⟩

theorem mem_steps_of_mem_sequence {q : Sequence} {s : Step} (hq : q ∈ d.sequences)
    (hs : s ∈ q.steps) : s ∈ d.steps := by
  rcases mem_sequences_iff.1 hq with ⟨l, hl, rfl⟩ | ⟨t, ht, h, hh, rfl⟩
  · exact List.mem_flatMap.2 ⟨l, hl, Step.subset_allOf hs⟩
  · obtain ⟨l, hl, htl⟩ := List.mem_flatMap.1 ht
    have hmem : s ∈ t.all := by
      rw [Step.all_eq]
      exact List.mem_cons_of_mem _ (Handler.subset_allOf hh (Step.subset_allOf hs))
    exact List.mem_flatMap.2 ⟨l, hl, Step.all_subset_allOf l t htl hmem⟩

theorem exists_sequence_of_mem_steps {s : Step} (hs : s ∈ d.steps) :
    ∃ q ∈ d.sequences, s ∈ q.steps := by
  obtain ⟨l, hl, hsl⟩ := List.mem_flatMap.1 hs
  rcases Step.mem_or_inHandlerOf l s hsl with hmem | ⟨t, ht, h, hh, hmem⟩
  · exact ⟨⟨l, none⟩, mem_sequences_iff.2 (.inl ⟨l, hl, rfl⟩), hmem⟩
  · have htd : t ∈ d.steps := List.mem_flatMap.2 ⟨l, hl, ht⟩
    exact ⟨h.sequence, mem_sequences_iff.2 (.inr ⟨t, htd, h, hh, rfl⟩), hmem⟩

end FlowDefinition

end LifecycleFlow
