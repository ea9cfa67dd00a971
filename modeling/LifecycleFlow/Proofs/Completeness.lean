import LifecycleFlow.Proofs.Chaining
import LifecycleFlow.Proofs.Rendering
import LifecycleFlow.Proofs.Runs

/-!
# Complete documents

What a document says can be read off it again: which states an entry names, and whether a state goes
on or ends there. Main statement: the document of any state of a graph holds one entry for each
state reachable from there, in depth-first order; every state named anywhere in it has an entry; and
exactly the states that may still be continued are marked as ends.
-/
namespace LifecycleFlow

open Json (Object)

namespace Json

def items (key : String) (v : Json) : List Json :=
  match v.field? key with
  | some (.array l) => l
  | _ => []

/-- What an entry names as states: the next one, those of its rules, its default and those of its
catchers. -/
def references (entry : Json) : List Json :=
  (entry.field? "Next").toList ++ (entry.items "Choices").filterMap (field? "Next") ++
    (entry.field? "Default").toList ++ (entry.items "Catch").filterMap (field? "Next")

end Json

theorem Rule.field?_next_written (name : StateId → String) (r : Rule) :
    (r.written name).field? "Next" = some (.string (name r.next)) := by
  simp [written, Json.field?, Object.find?]

theorem Catcher.field?_next_written (name : StateId → String) (c : Catcher) :
    (c.written name).field? "Next" = some (.string (name c.next)) := by
  simp [written, Json.field?, Object.find?]

theorem State.references_fields {name : StateId → String} {s : State}
    (hnext : s.next.isSome → s.isNextable) :
    (Json.object (s.fields name)).references = s.successors.map fun t => .string (name t) := by
  have hfield (key : String) (h : key ∉ ["Type", "Next", "End"]) :
      (Json.object (s.fields name)).field? key = Object.find? key (s.kind.fields name) :=
    s.find?_of_kind h
  have hcontinued : ((Json.object (s.fields name)).field? "Next").toList =
      s.next.toList.map fun t => .string (name t) := by
    rw [Json.field?, s.find?_next]
    cases hn : s.next with
    | none => simp
    | some t => simp [hnext (by simp [hn])]
  simp only [Json.references, Json.items, hcontinued, hfield "Choices" (by simp),
    hfield "Default" (by simp), hfield "Catch" (by simp), successors, List.map_append]
  cases s.kind with
  | pass p => simp [StateKind.fields, StateKind.targets, Object.find?_append]
  | fail f => simp [StateKind.fields, StateKind.targets, Object.find?_append]
  | task c catchers =>
    cases catchers <;> simp [StateKind.fields, StateKind.targets, Object.find?_append,
      Object.find?, Catcher.field?_next_written]
  | choice rules otherwise =>
    cases otherwise <;> simp [StateKind.fields, StateKind.targets, Object.find?,
      Rule.field?_next_written]

theorem StateKind.label_iff (kind : StateKind) :
    (kind.label = "Pass" ∨ kind.label = "Task" ↔ kind.isNextable) ∧
      (kind.label = "Choice" ∨ kind.label = "Fail" ↔ kind.isNextable = false) := by
  cases kind <;> simp [label, isNextable]

namespace Graph

variable {g : Graph} {id start : StateId} {names : List String} {ids ends : List StateId}

/-- The entry of a state in a complete document. Every state that it names has an entry. If it is of
a type that may be continued, then it either names the state that comes next or is marked as an end,
as the states that may still be continued are; else it is neither. -/
structure EntryFits (g : Graph) (names : List String) (ends : List StateId) (id : StateId)
    (entry : Json) : Prop where
  type : ∃ s, g.states[id]? = some s ∧ entry.field? "Type" = some (.string s.kind.label)
  references : ∀ r ∈ entry.references, ∃ name ∈ names, r = .string name
  continued : (entry.field? "Type" = some (.string "Pass") ∨
    entry.field? "Type" = some (.string "Task")) →
      Xor (entry.field? "Next").isSome (entry.field? "End").isSome
  ended : entry.field? "End" = if id ∈ ends then some (.bool true) else none
  uncontinued : (entry.field? "Type" = some (.string "Choice") ∨
    entry.field? "Type" = some (.string "Fail")) →
      entry.field? "Next" = none ∧ entry.field? "End" = none

theorem mem_reachableEnds_iff (h : g.reachable start = .ok ids)
    (hends : g.reachableEnds start = .ok ends) : id ∈ ends ↔ id ∈ ids ∧ g.isOpen id := by
  rw [reachableEnds, h] at hends
  obtain rfl := Except.ok.inj hends
  exact List.mem_filter

theorem entryFits_entryAt (hg : g.WellFormed) (h : g.reachable start = .ok ids)
    (hends : g.reachableEnds start = .ok ends) (hid : id ∈ ids) :
    g.EntryFits (ids.map g.nameAt) ends id (g.entryAt id).2 := by
  obtain ⟨s, hs⟩ := exists_state_of_lt (lt_size_of_mem_reachable h id hid)
  have hnext := hg.nextable s (List.mem_of_getElem? hs)
  rw [entryAt_eq hs]
  have htype : (Json.object (s.fields g.nameAt)).field? "Type" = some (.string s.kind.label) :=
    s.find?_type
  refine ⟨⟨s, hs, htype⟩, fun r hr => ?_, fun ht => ?_, ?_, fun ht => ?_⟩
  · rw [State.references_fields hnext] at hr
    obtain ⟨t, ht, rfl⟩ := List.mem_map.1 hr
    have hfound : t ∈ ids :=
      (mem_reachable_iff h).2 (((mem_reachable_iff h).1 hid).tail ⟨s, hs, ht⟩)
    exact ⟨g.nameAt t, List.mem_map_of_mem hfound, rfl⟩
  · have hlabel : s.kind.isNextable := s.kind.label_iff.1.1 (by simpa [htype] using ht)
    have hnextable : s.isNextable := hlabel
    simp only [Json.field?, s.find?_next, s.find?_end, State.isOpen, hnextable]
    cases s.next <;> simp [Xor]
  · have hopen : id ∈ ends ↔ s.isOpen := by
      rw [mem_reachableEnds_iff h hends, isOpen_iff]
      simp [hid, hs]
    simp only [Json.field?, s.find?_end, hopen]
  · have hlabel : s.kind.isNextable = false := s.kind.label_iff.2.1 (by simpa [htype] using ht)
    have hnextable : s.isNextable = false := hlabel
    simp [Json.field?, s.find?_next, s.find?_end, State.isOpen, hnextable]

/-- The document of a start has one entry for each reachable state, under its name and in the order
of the search, the start among them, and each entry fits its state. -/
structure CompleteDocument (g : Graph) (start : StateId) (ids ends : List StateId)
    (document entries : Object) : Prop where
  states : Object.find? "States" document = some (.object entries)
  named : List.Forall₂ g.Named ids entries.keys
  nodup : entries.keys.Nodup
  startAt : ∃ name ∈ entries.keys, g.Named start name ∧
    Object.find? "StartAt" document = some (.string name)
  fits : List.Forall₂ (g.EntryFits entries.keys ends) ids (entries.map Prod.snd)

theorem completeDocument_of_reachable (hg : g.WellFormed) (h : g.reachable start = .ok ids)
    (hends : g.reachableEnds start = .ok ends) (comment : Option String) :
    g.CompleteDocument start ids ends (optionalText "Comment" comment ++
      [("QueryLanguage", .string "JSONata"), ("StartAt", .string (g.nameAt start)),
        ("States", .object (ids.map g.entryAt))]) (ids.map g.entryAt) := by
  have hstart : start ∈ ids := (mem_reachable_iff h).2 .refl
  have hlt := lt_size_of_mem_reachable h
  refine ⟨?_, ?_, ?_, ⟨g.nameAt start, ?_, named_nameAt (hlt start hstart), ?_⟩, ?_⟩
  · simp [Object.find?_append, Object.find?]
  · rw [keys_map_entryAt, List.forall₂_map_right_iff, List.forall₂_same]
    exact fun id hid => named_nameAt (hlt id hid)
  · rw [keys_map_entryAt]
    exact nodup_map_nameAt hg h
  · rw [keys_map_entryAt]
    exact List.mem_map_of_mem hstart
  · simp [Object.find?_append, Object.find?]
  · rw [keys_map_entryAt, List.map_map, List.forall₂_map_right_iff, List.forall₂_same]
    exact fun id hid => entryFits_entryAt hg h hends hid

/-- On whatever graph was brought about, from every state of it and with every comment, the document
is written, and it is complete for the states that the search finds. -/
theorem document_complete (ops : List Operation) {start : StateId}
    (h : start < (empty.after ops).size) (comment : Option String) :
    ∃ (ids ends : List StateId) (document entries : Object),
      (empty.after ops).reachable start = .ok ids ∧
      (empty.after ops).reachableEnds start = .ok ends ∧
      (empty.after ops).document start comment = .ok (.object document) ∧
      (empty.after ops).CompleteDocument start ids ends document entries := by
  have hg := wellFormed_empty.after ops
  obtain ⟨ids, hids⟩ := exists_reachable_of_lt hg h
  have hends : (empty.after ops).reachableEnds start =
      .ok (ids.filter (empty.after ops).isOpen) := by
    rw [reachableEnds, hids]
    rfl
  exact ⟨ids, _, _, _, hids, hends, document_eq hg hids comment,
    completeDocument_of_reachable hg hids hends comment⟩

/-- A task that is repeated while there is more, and that a failure stops. -/
theorem document_complete_loop :
    let ops : List Operation := [.addTask "List" ⟨"s3", "listObjects", none, [], none, none⟩,
      .addChoice "More?", .addPass "Done" {}, .addFail "Stop" {}, .setNext 0 1,
      .addRule 1 .always 0, .setOtherwise 1 2, .addCatcher 0 3 [allErrors] none]
    0 < (empty.after ops).size ∧ ∃ ids ends document entries,
      (empty.after ops).document 0 none = .ok (.object document) ∧
      (empty.after ops).CompleteDocument 0 ids ends document entries := by
  intro ops
  have hlt : 0 < (empty.after ops).size := by decide +kernel
  obtain ⟨ids, ends, document, entries, -, -, hdocument, hcomplete⟩ :=
    document_complete ops hlt none
  exact ⟨hlt, ids, ends, document, entries, hdocument, hcomplete⟩

end Graph

end LifecycleFlow
