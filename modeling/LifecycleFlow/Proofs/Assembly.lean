import LifecycleFlow.Proofs.Wiring
import Mathlib.Data.List.Basic

/-!
# What assembling does

Assembling a workflow looks at the branches, the names and the states first. Once they pass, nothing
that follows can fail: the states added, the rules and the first state's next are exactly these.
-/
namespace LifecycleFlow

/-- The branch given for a type of request: without one for create, that for update. -/
def Branches.given (b : Branches) : RequestType → Option Fragment
  | .create => b.onCreate.or b.onUpdate
  | .update => b.onUpdate
  | .delete => b.onDelete

namespace Flow

open LifecycleFlow.Graph

variable {g : Graph} {b : Branches} {t : RequestType} {name : String}

def idleState (t : RequestType) : State :=
  ⟨t.text, .pass {}, none⟩

/-- The choice that leads to the three branches. -/
def dispatchState (onCreate onUpdate onDelete : StateId) : State :=
  ⟨dispatchName, .choice [⟨RequestType.create.condition, onCreate⟩,
    ⟨RequestType.update.condition, onUpdate⟩, ⟨RequestType.delete.condition, onDelete⟩] none, none⟩

def entryState (dispatch : StateId) : State :=
  ⟨entryName, .pass entryPass, some dispatch⟩

def withIdle (g : Graph) (t : RequestType) : Option Fragment → Graph
  | some _ => g
  | none => g.push (idleState t)

/-- A branch, or the state that is added in its place. -/
def branchOr (g : Graph) : Option Fragment → Fragment
  | some f => f
  | none => ⟨g.size, [g.size]⟩

def withIdles (b : Branches) (g : Graph) : Graph :=
  withIdle (withIdle (withIdle g .create (b.onCreate.or b.onUpdate)) .update b.onUpdate)
    .delete b.onDelete

def assembledFlow (b : Branches) (g : Graph) : Flow :=
  let afterCreate := withIdle g .create (b.onCreate.or b.onUpdate)
  let onCreate := branchOr g (b.onCreate.or b.onUpdate)
  let onUpdate := branchOr afterCreate b.onUpdate
  let onDelete := branchOr (withIdle afterCreate .update b.onUpdate) b.onDelete
  { entry := (withIdles b g).size + 1
    dispatch := (withIdles b g).size
    onCreate, onUpdate, onDelete
    ends := [onCreate, onUpdate, onDelete].foldl (fun l f => appendNew l f.ends) [] }

def assembledGraph (b : Branches) (g : Graph) : Graph :=
  let flow := assembledFlow b g
  ((withIdles b g).push
    (dispatchState flow.onCreate.start flow.onUpdate.start flow.onDelete.start)).push
      (entryState flow.dispatch)

/-- Assembling adds states after those that are there: at the end the choice and the first state. -/
theorem states_assembledGraph : (assembledGraph b g).states = (withIdles b g).states ++
    [dispatchState ((assembledFlow b g).branch .create).start
      ((assembledFlow b g).branch .update).start ((assembledFlow b g).branch .delete).start,
      entryState (assembledFlow b g).dispatch] := by
  simp [assembledGraph, branch]

/-- The types of request for which nothing is done. -/
def idleTypes (b : Branches) : List RequestType :=
  RequestType.all.filter fun t => (b.given t).isNone

theorem states_withIdles : (withIdles b g).states = g.states ++ (idleTypes b).map idleState := by
  rcases b with ⟨_ | c, _ | u, _ | e⟩ <;>
    simp [withIdles, withIdle, idleTypes, RequestType.all, Branches.given]

theorem branch_assembledFlow (t : RequestType) :
    (∀ f, b.given t = some f → (assembledFlow b g).branch t = f) ∧
      (b.given t = none →
        (withIdles b g).states[((assembledFlow b g).branch t).start]? = some (idleState t)) := by
  rcases b with ⟨_ | c, _ | u, _ | e⟩ <;> cases t <;>
    simp [withIdles, withIdle, Branches.given, assembledFlow, branch, branchOr, size]

private theorem size_withIdle_le (o : Option Fragment) : g.size ≤ (withIdle g t o).size := by
  cases o <;> simp [withIdle]

theorem isAvailable_withIdle {o : Option Fragment} : (withIdle g t o).isAvailable name ↔
    (o = none → t.text ≠ name) ∧ g.isAvailable name := by
  cases o <;> simp [withIdle, isAvailable_push, idleState]

private theorem start_branchOr_lt {o : Option Fragment} (h : ∀ f, o = some f → f.start < g.size) :
    (branchOr g o).start < (withIdle g t o).size := by
  cases o with
  | some f => exact h f rfl
  | none => simp [branchOr, withIdle]

theorem outcome_addIdle (h : g.isAvailable t.text) :
    outcome (addIdle t) g = (.ok ⟨g.size, [g.size]⟩, g.push (idleState t)) := by
  rw [addIdle, addPass]
  rw [outcome_bind, outcome_add, if_pos h]
  dsimp only
  rw [outcome_bind_ok (outcome_get _), outcome_check, Graph.fragment,
    state_eq_ok_iff.2 getElem?_push_size]
  rfl

/-- What follows a branch goes on with the given one, or with the state in its place. -/
private theorem outcome_orIdle {α : Type} {o : Option Fragment}
    (h : o = none → g.isAvailable t.text) (next : Fragment → GraphOp α) :
    outcome (match o with
      | some f => do let f ← pure f; next f
      | none => do let f ← addIdle t; next f) g =
      outcome (next (branchOr g o)) (withIdle g t o) := by
  cases o with
  | some f => rfl
  | none => exact outcome_bind_ok (outcome_addIdle (h rfl)) next

/-- Connecting the state added last. -/
private theorem connected_push {target : StateId} {change : State → Except GraphError State}
    {s s' : State}
    (hc : State.Connects target change) (hs : change s = .ok s') (ht : target < g.size + 1) :
    (g.push s).connected g.size target change = (.ok (), g.push s') := by
  rw [connected_eq_ok_iff]
  exact ⟨by rwa [size_push], s, s', getElem?_push_size, hs, (put_push (hc.name hs)).symm⟩

theorem outcome_addRule_push {condition : Condition} {target : StateId} {rules : List Rule}
    (ht : target < g.size + 1) :
    outcome (addRule g.size condition target) (g.push ⟨name, .choice rules none, none⟩) =
      (.ok (), g.push ⟨name, .choice (rules ++ [⟨condition, target⟩]) none, none⟩) := by
  rw [outcome_addRule]
  exact connected_push State.connects_withRule rfl ht

theorem outcome_setNext_push {target : StateId} {p : Pass} (ht : target < g.size + 1) :
    outcome (setNext g.size target) (g.push ⟨name, .pass p, none⟩) =
      (.ok (), g.push ⟨name, .pass p, some target⟩) := by
  rw [outcome_setNext]
  exact connected_push State.connects_followedBy rfl ht

theorem outcome_front {α : Type} {onCreate onUpdate onDelete : StateId}
    (hdispatch : g.isAvailable dispatchName) (hentry : g.isAvailable entryName)
    (hcreate : onCreate < g.size) (hupdate : onUpdate < g.size) (hdelete : onDelete < g.size)
    (next : StateId → StateId → GraphOp α) :
    outcome (do
      let dispatch ← addChoice dispatchName
      addRule dispatch RequestType.create.condition onCreate
      addRule dispatch RequestType.update.condition onUpdate
      addRule dispatch RequestType.delete.condition onDelete
      let entry ← addPass entryName entryPass
      setNext entry dispatch
      next entry dispatch) g =
      outcome (next (g.size + 1) g.size)
        ((g.push (dispatchState onCreate onUpdate onDelete)).push (entryState g.size)) := by
  have hchoice : outcome (addChoice dispatchName) g =
      (.ok g.size, g.push ⟨dispatchName, .choice [] none, none⟩) := by
    rw [addChoice, outcome_add, if_pos hdispatch]
  have hpass : outcome (addPass entryName entryPass)
      (g.push (dispatchState onCreate onUpdate onDelete)) =
      (.ok (g.size + 1), (g.push (dispatchState onCreate onUpdate onDelete)).push
        ⟨entryName, .pass entryPass, none⟩) := by
    have hfree : (g.push (dispatchState onCreate onUpdate onDelete)).isAvailable entryName :=
      isAvailable_push.2 ⟨(by decide : dispatchName ≠ entryName), hentry⟩
    rw [addPass, outcome_add, if_pos hfree, size_push]
  have hnext : outcome (setNext (g.size + 1) g.size)
      ((g.push (dispatchState onCreate onUpdate onDelete)).push
        ⟨entryName, .pass entryPass, none⟩) =
      (.ok (), (g.push (dispatchState onCreate onUpdate onDelete)).push (entryState g.size)) := by
    have hlt : g.size < (g.push (dispatchState onCreate onUpdate onDelete)).size + 1 := by
      rw [size_push]
      omega
    have hset : outcome (setNext (g.push (dispatchState onCreate onUpdate onDelete)).size g.size)
        ((g.push (dispatchState onCreate onUpdate onDelete)).push
          ⟨entryName, .pass entryPass, none⟩) = _ := outcome_setNext_push hlt
    rwa [size_push] at hset
  rw [outcome_bind_ok hchoice, outcome_bind_ok (outcome_addRule_push (Nat.lt_succ_of_lt hcreate)),
    outcome_bind_ok (outcome_addRule_push (Nat.lt_succ_of_lt hupdate)),
    outcome_bind_ok (outcome_addRule_push (Nat.lt_succ_of_lt hdelete))]
  exact (outcome_bind_ok hpass _).trans (outcome_bind_ok hnext _)

/-- The names that an assembly adds are those of the choice, the first state and the states in place
of missing branches. -/
theorem mem_neededNames : name ∈ neededNames b ↔ name = entryName ∨ name = dispatchName ∨
    (b.onCreate.or b.onUpdate = none ∧ name = RequestType.create.text) ∨
    (b.onUpdate = none ∧ name = RequestType.update.text) ∨
    (b.onDelete = none ∧ name = RequestType.delete.text) := by
  rw [neededNames]
  cases b.onCreate <;> cases b.onUpdate <;> cases b.onDelete <;> simp

theorem isAvailable_withIdles : (withIdles b g).isAvailable name ↔
    (b.onCreate.or b.onUpdate = none → RequestType.create.text ≠ name) ∧
    (b.onUpdate = none → RequestType.update.text ≠ name) ∧
    (b.onDelete = none → RequestType.delete.text ≠ name) ∧ g.isAvailable name := by
  simp only [withIdles, isAvailable_withIdle]
  tauto

theorem outcome_connect (hnames : ∀ n ∈ neededNames b, g.isAvailable n)
    (hids : ∀ id ∈ mentioned b, id < g.size) :
    outcome (connect b) g = (.ok (assembledFlow b g), assembledGraph b g) := by
  have hcreate : ∀ f, b.onCreate.or b.onUpdate = some f → f.start < g.size := by
    intro f hf
    refine hids f.start ?_
    rcases Option.or_eq_some_iff.1 hf with h | ⟨-, h⟩ <;> simp [mentioned, h]
  have hupdate : ∀ f, b.onUpdate = some f → f.start < g.size := fun f hf =>
    hids f.start (by simp [mentioned, hf])
  have hdelete : ∀ f, b.onDelete = some f → f.start < g.size := fun f hf =>
    hids f.start (by simp [mentioned, hf])
  rw [connect]
  refine (outcome_orIdle (fun h => ?_) _).trans ?_
  · exact hnames _ (mem_neededNames.2 (by simp [h]))
  refine (outcome_orIdle (fun h => ?_) _).trans ?_
  · exact isAvailable_withIdle.2 ⟨fun _ => by decide, hnames _ (mem_neededNames.2 (by simp [h]))⟩
  refine (outcome_orIdle (fun h => ?_) _).trans ?_
  · exact isAvailable_withIdle.2 ⟨fun _ => by decide, isAvailable_withIdle.2
      ⟨fun _ => by decide, hnames _ (mem_neededNames.2 (by simp [h]))⟩⟩
  have hdispatch : (withIdles b g).isAvailable dispatchName := isAvailable_withIdles.2
    ⟨fun _ => by decide, fun _ => by decide, fun _ => by decide,
      hnames _ (mem_neededNames.2 (by simp))⟩
  have hentry : (withIdles b g).isAvailable entryName := isAvailable_withIdles.2
    ⟨fun _ => by decide, fun _ => by decide, fun _ => by decide,
      hnames _ (mem_neededNames.2 (by simp))⟩
  have hle₁ := size_withIdle_le (g := g) (t := .create) (b.onCreate.or b.onUpdate)
  have hle₂ := size_withIdle_le (g := withIdle g .create (b.onCreate.or b.onUpdate))
    (t := .update) b.onUpdate
  have hle₃ := size_withIdle_le
    (g := withIdle (withIdle g .create (b.onCreate.or b.onUpdate)) .update b.onUpdate)
    (t := .delete) b.onDelete
  refine (outcome_front hdispatch hentry ?_ ?_ ?_ _).trans rfl
  · exact Nat.lt_of_lt_of_le (start_branchOr_lt (t := .create) hcreate) (Nat.le_trans hle₂ hle₃)
  · exact Nat.lt_of_lt_of_le
      (start_branchOr_lt (t := .update) fun f hf => Nat.lt_of_lt_of_le (hupdate f hf) hle₁) hle₃
  · exact start_branchOr_lt fun f hf => Nat.lt_of_lt_of_le (hdelete f hf) (Nat.le_trans hle₁ hle₂)

/-- Assembling checks that there is a branch, then the names, then the states, and then succeeds. -/
theorem outcome_assemble : outcome (assemble b) g =
    if b.onCreate.isNone && b.onUpdate.isNone && b.onDelete.isNone then
      (.error (.configuration .noBranch), g)
    else match (neededNames b).find? fun n => !g.isAvailable n with
    | some taken => (.error (.graph (.duplicateStateName taken)), g)
    | none =>
      match (mentioned b).find? fun id => decide (g.size ≤ id) with
      | some id => (.error (.graph (.unknownState id)), g)
      | none => (.ok (assembledFlow b g), assembledGraph b g) := by
  rw [assemble]
  split
  · rfl
  · rw [outcome_bind, outcome_get]
    dsimp only
    cases hn : (neededNames b).find? fun n => !g.isAvailable n with
    | some taken => rfl
    | none =>
      cases hi : (mentioned b).find? fun id => decide (g.size ≤ id) with
      | some id => rfl
      | none =>
        have hnames : ∀ n ∈ neededNames b, g.isAvailable n := by simpa using hn
        have hids : ∀ id ∈ mentioned b, id < g.size := by simpa using hi
        simp [outcome_connect hnames hids, Except.mapError]

theorem eq_of_assemble_eq_ok {flow : Flow} {g' : Graph}
    (h : outcome (assemble b) g = (.ok flow, g')) :
    flow = assembledFlow b g ∧ g' = assembledGraph b g := by
  rw [outcome_assemble] at h
  split at h
  · cases h
  · split at h
    · cases h
    · split at h
      · cases h
      · cases h
        exact ⟨rfl, rfl⟩

/-- All checks of an assembly come before its first change, and after them nothing fails. -/
theorem assemble_failsCleanly : FailsCleanly (assemble b) g := by
  intro e g' hout
  rw [outcome_assemble] at hout
  split at hout
  · exact (congrArg Prod.snd hout).symm
  · split at hout
    · exact (congrArg Prod.snd hout).symm
    · split at hout
      · exact (congrArg Prod.snd hout).symm
      · cases hout

private theorem preserves_orIdle {α : Type} {P : Graph → Prop} {o : Option Fragment}
    {next : Fragment → GraphOp α} (hidle : Preserves P (addIdle t))
    (hnext : ∀ f, Preserves P (next f)) :
    Preserves P (match o with
      | some f => do let f ← pure f; next f
      | none => do let f ← addIdle t; next f) := by
  cases o with
  | some f => exact hnext f
  | none => exact preserves_bind hidle hnext

theorem preserves_addIdle : Preserves WellFormed (addIdle t) :=
  preserves_bind (preserves_add rfl) fun _ =>
    preserves_bind preserves_get fun _ => preserves_check _

theorem preserves_connect : Preserves WellFormed (connect b) := by
  rw [connect]
  refine preserves_orIdle preserves_addIdle fun onCreate => ?_
  refine preserves_orIdle preserves_addIdle fun onUpdate => ?_
  refine preserves_orIdle preserves_addIdle fun onDelete => ?_
  refine preserves_bind (preserves_add rfl) fun dispatch => ?_
  refine preserves_bind preserves_addRule fun _ => ?_
  refine preserves_bind preserves_addRule fun _ => ?_
  refine preserves_bind preserves_addRule fun _ => ?_
  refine preserves_bind (preserves_add rfl) fun entry => ?_
  exact preserves_bind preserves_setNext fun _ => preserves_pure _

theorem preserves_assemble : Preserves WellFormed (assemble b) := by
  rw [assemble]
  split
  · exact preserves_throw _
  · refine preserves_bind preserves_get fun g => ?_
    dsimp only
    split
    · exact preserves_throw _
    · split
      · exact preserves_throw _
      · exact preserves_lift preserves_connect

/-- Only a state that a branch mentions and that does not exist is reported as unknown. -/
theorem mem_mentioned_of_assemble_eq_unknownState {id : StateId}
    (h : (outcome (assemble b) g).1 = .error (.graph (.unknownState id))) :
    id ∈ mentioned b ∧ g.size ≤ id := by
  rw [outcome_assemble] at h
  split at h
  · simp at h
  · split at h
    · simp at h
    · split at h
      · rename_i i hi
        simp only [Except.error.injEq, FlowError.graph.injEq, GraphError.unknownState.injEq] at h
        subst h
        exact ⟨List.mem_of_find?_eq_some hi, by simpa using List.find?_some hi⟩
      · simp at h

end Flow

end LifecycleFlow
