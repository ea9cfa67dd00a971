import LifecycleFlow.Proofs.Completeness
import LifecycleFlow.Proofs.Continuation
import LifecycleFlow.Proofs.Session

/-!
# Continuing a choice

The ends of a choice are all open states to which a path leads from it, through rules, defaults,
next states and catchers alike. Continuing them adds transitions while the question is what can be
reached. Main statement: a choice can be continued exactly if such a state exists, and from then on
the open states that can be reached from it are those that can be reached from what it was continued
with, however the two overlap.
-/
namespace LifecycleFlow.Graph

variable {g g' : Graph} {a b c id start target : StateId} {ids ends : List StateId}
  {s : State} {rules : List Rule} {otherwise : Option StateId}

theorem leads_withNext (hopen : ∀ id ∈ ids, g.isOpen id) :
    (g.withNext ids target).Leads a b ↔ g.Leads a b ∨ a ∈ ids ∧ b = target := by
  simp only [Leads, getElem?_withNext, Option.map_eq_some_iff]
  by_cases ha : a ∈ ids
  · obtain ⟨s, hs, hs'⟩ := isOpen_iff.1 (hopen a ha)
    have hnone : s.next = none := by
      simpa [State.isOpen, Option.isNone_iff_eq_none] using (Bool.and_eq_true_iff.1 hs').2
    simp [ha, hs, State.successors, hnone, or_comm]
  · simp [ha]

theorem Reaches.withNext (hopen : ∀ id ∈ ids, g.isOpen id) (h : g.Reaches a b) :
    (g.withNext ids target).Reaches a b :=
  Relation.ReflTransGen.mono (fun _ _ hstep => (leads_withNext hopen).2 (.inl hstep)) _ _ h

/-- A path in the continued graph was there before, or it passes through the target. -/
theorem reaches_or_of_reaches_withNext (hopen : ∀ id ∈ ids, g.isOpen id)
    (h : (g.withNext ids target).Reaches a b) :
    g.Reaches a b ∨ (g.withNext ids target).Reaches target b := by
  induction h with
  | refl => exact .inl .refl
  | tail _ hstep ih =>
    rcases ih with hold | hnew
    · rcases (leads_withNext hopen).1 hstep with hstep | ⟨-, rfl⟩
      · exact .inl (hold.tail hstep)
      · exact .inr .refl
    · exact .inr (hnew.tail hstep)

/-- If all open states that can be reached from a start are continued, and there is one, then the
open states that can be reached afterwards are those that can be reached from the target. -/
theorem reaches_isOpen_withNext_iff (hids : ∀ id, id ∈ ids ↔ g.Reaches start id ∧ g.isOpen id)
    (hne : ids ≠ []) :
    (g.withNext ids target).Reaches start id ∧ (g.withNext ids target).isOpen id ↔
      (g.withNext ids target).Reaches target id ∧ (g.withNext ids target).isOpen id := by
  have hopen : ∀ id ∈ ids, g.isOpen id := fun id hid => ((hids id).1 hid).2
  refine and_congr_left fun hid => ⟨fun h => ?_, fun h => ?_⟩
  · obtain ⟨hwas, hnot⟩ := isOpen_withNext.1 hid
    rcases reaches_or_of_reaches_withNext hopen h with hold | hnew
    · exact absurd ((hids id).2 ⟨hold, hwas⟩) hnot
    · exact hnew
  · obtain ⟨last, hlast⟩ := List.exists_mem_of_ne_nil ids hne
    have hpath : (g.withNext ids target).Reaches start last :=
      ((hids last).1 hlast).1.withNext hopen
    have hstep : (g.withNext ids target).Leads last target :=
      (leads_withNext hopen).2 (.inr ⟨hlast, rfl⟩)
    exact (hpath.tail hstep).trans h

theorem reaches_iff_mem_reachableEnds (hends : g.reachableEnds start = .ok ends) :
    id ∈ ends ↔ g.Reaches start id ∧ g.isOpen id := by
  cases hr : g.reachable start with
  | error e =>
    rw [reachableEnds, hr] at hends
    cases hends
  | ok ids => rw [mem_reachableEnds_iff hr hends, mem_reachable_iff hr]

theorem exists_reachableEnds_of_lt (hg : g.WellFormed) (h : start < g.size) :
    ∃ ends, g.reachableEnds start = .ok ends := by
  obtain ⟨ids, hids⟩ := exists_reachable_of_lt hg h
  exact ⟨_, by rw [reachableEnds, hids]; rfl⟩

theorem exists_fragment_of_choice (hg : g.WellFormed) (hs : g.states[c]? = some s)
    (hkind : s.kind = .choice rules otherwise) :
    ∃ ends, g.fragment c = .ok ⟨c, ends⟩ ∧ ends.Nodup ∧
      ∀ id, id ∈ ends ↔ g.Reaches c id ∧ g.isOpen id := by
  obtain ⟨ends, hends⟩ := exists_reachableEnds_of_lt hg (List.getElem?_eq_some_iff.1 hs).1
  have hfragment : g.fragment c = .ok ⟨c, ends⟩ := by
    rw [Graph.fragment, state_eq_ok_iff.2 hs]
    simp only [bind, Except.bind, hkind, hends]
    rfl
  exact ⟨ends, hfragment, nodup_of_fragment hfragment, fun _ => reaches_iff_mem_reachableEnds hends⟩

/-- On whatever graph was brought about: a choice can be continued with a fragment that starts in
the graph exactly if a path leads from it to a pass or task state without a next state. Once it was
continued, the same states of this kind can be reached from the choice and from the start of that
fragment, and the search for open ends finds the same ones from both. -/
theorem continued_choice_has_no_loose_end (ops : List Operation) {t : Fragment}
    (hs : (empty.after ops).states[c]? = some s) (hkind : s.kind = .choice rules otherwise)
    (ht : t.start < (empty.after ops).size) :
    ∃ choice, (empty.after ops).fragment c = .ok choice ∧
      ((∃ f g', outcome (chain choice t) (empty.after ops) = (.ok f, g')) ↔
        ∃ id, (empty.after ops).Reaches c id ∧ (empty.after ops).OpenAt id) ∧
      ∀ f g', outcome (chain choice t) (empty.after ops) = (.ok f, g') →
        (∀ id, g'.Reaches c id ∧ g'.OpenAt id ↔ g'.Reaches t.start id ∧ g'.OpenAt id) ∧
        ∃ ends ends', g'.reachableEnds c = .ok ends ∧ g'.reachableEnds t.start = .ok ends' ∧
          ∀ id, id ∈ ends ↔ id ∈ ends' := by
  have hg := wellFormed_empty.after ops
  obtain ⟨ends, hfragment, hnodup, hends⟩ := exists_fragment_of_choice hg hs hkind
  refine ⟨⟨c, ends⟩, hfragment, ?_, fun f g' hout => ?_⟩
  · rw [exists_chain_eq_ok_iff]
    simp only [← isOpen_iff_openAt]
    constructor
    · rintro ⟨hne, -, -, -⟩
      obtain ⟨id, hid⟩ := List.exists_mem_of_ne_nil ends hne
      exact ⟨id, (hends id).1 hid⟩
    · rintro ⟨id, hid⟩
      exact ⟨List.ne_nil_of_mem ((hends id).2 hid), ht, hnodup, fun id hid => ((hends id).1 hid).2⟩
  · obtain ⟨⟨hne, -⟩, -, hg'⟩ := chain_eq_ok_iff.1 hout
    have hsame : ∀ id, g'.Reaches c id ∧ g'.isOpen id ↔ g'.Reaches t.start id ∧ g'.isOpen id :=
      fun id => hg' ▸ reaches_isOpen_withNext_iff hends hne
    have hkeeps : Preserves WellFormed (chain ⟨c, ends⟩ t) :=
      preserves_chain fun _ => preserves_setNext
    have hkept : g'.WellFormed := by
      have hafter := hkeeps _ hg
      rwa [hout] at hafter
    have hsize : g'.size = (empty.after ops).size := by rw [hg', size_withNext]
    obtain ⟨found, hfound⟩ := exists_reachableEnds_of_lt hkept
      (hsize ▸ (List.getElem?_eq_some_iff.1 hs).1 : c < g'.size)
    obtain ⟨found', hfound'⟩ := exists_reachableEnds_of_lt hkept (hsize ▸ ht : t.start < g'.size)
    refine ⟨fun id => by simpa only [isOpen_iff_openAt] using hsame id, found, found', hfound,
      hfound', fun id => ?_⟩
    rw [reaches_iff_mem_reachableEnds hfound, reaches_iff_mem_reachableEnds hfound']
    exact hsame id

set_option maxRecDepth 2000 in
/-- The task and the default of a choice are continued with a second choice that leads back into the
default; the handler of the task leads back to the first choice. -/
theorem continued_choice_has_no_loose_end_overlapping :
    let ops : List Operation := [.addChoice "Which?",
      .addTask "Copy" ⟨"s3", "copyObject", none, [], none, none⟩, .addPass "Skip" {},
      .addPass "Report" {}, .addRule 0 .always 1, .setOtherwise 0 2,
      .addCatcher 1 3 [allErrors] none, .setNext 3 0, .addChoice "Again?", .addPass "Finish" {},
      .addRule 4 .never 5, .setOtherwise 4 2]
    let rules : List Rule := [⟨.always, 1⟩]
    (empty.after ops).states[0]? = some ⟨"Which?", .choice rules (some 2), none⟩ ∧
      4 < (empty.after ops).size ∧ ∃ choice, (empty.after ops).fragment 0 = .ok choice ∧
        ∃ f g', outcome (chain choice ⟨4, [5]⟩) (empty.after ops) = (.ok f, g') ∧
          ∀ id, g'.Reaches 0 id ∧ g'.OpenAt id ↔ g'.Reaches 4 id ∧ g'.OpenAt id := by
  intro ops rules
  have hs : (empty.after ops).states[0]? = some ⟨"Which?", .choice rules (some 2), none⟩ := rfl
  have ht : 4 < (empty.after ops).size := by decide +kernel
  have hskip : (empty.after ops).states[2]? = some ⟨"Skip", .pass {}, none⟩ := rfl
  have hpath : (empty.after ops).Reaches 0 2 := .single ⟨_, hs, by decide⟩
  obtain ⟨choice, hchoice, hcontinues, hends⟩ :=
    continued_choice_has_no_loose_end ops (t := ⟨4, [5]⟩) hs rfl ht
  obtain ⟨f, g', hout⟩ := hcontinues.2 ⟨2, hpath, _, hskip, .inl ⟨_, rfl⟩, rfl⟩
  exact ⟨hs, ht, choice, hchoice, f, g', hout, (hends f g' hout).1⟩

end LifecycleFlow.Graph
