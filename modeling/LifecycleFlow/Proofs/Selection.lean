import LifecycleFlow.Graph.Selection
import LifecycleFlow.Proofs.Lists
import LifecycleFlow.Proofs.Resolution
import LifecycleFlow.Proofs.Runs

/-!
# Choices whose rules are partly unknown

The conditions of the rules of a choice may hold leaves that cannot be interpreted, and each of them
may turn out to be true or false, each one by itself. Main statement: a choice answers a rule, its
default or nothing exactly if it answers this however the leaves turn out; and it answers that it is
undecided at a rule exactly if it never takes a rule before this one, while the leaves alone say
whether it takes this one.
-/
namespace LifecycleFlow

open Json (Object)

variable {known : Object} {r r' q : Rule} {rules resolved : List Rule}
  {otherwise : Option StateId} {answer answer' : Selection} {i j : Nat}

/-- The second rule is the first one with each uninterpreted leaf replaced by true or false. -/
def Rule.Resolves (r r' : Rule) : Prop :=
  r.condition.Resolves r'.condition ∧ r'.next = r.next

/-- The rules of a choice with each uninterpreted leaf of each of them replaced. -/
abbrev RulesResolve : List Rule → List Rule → Prop :=
  List.Forall₂ Rule.Resolves

theorem exists_rulesResolve (rules : List Rule) : ∃ resolved, RulesResolve rules resolved := by
  induction rules with
  | nil => exact ⟨[], .nil⟩
  | cons r rest ih =>
    obtain ⟨condition, hc⟩ := r.condition.exists_resolves
    obtain ⟨resolved, hrest⟩ := ih
    exact ⟨⟨condition, r.next⟩ :: resolved, .cons ⟨hc, rfl⟩ hrest⟩

/-- Each rule may be resolved in any way, whatever becomes of the others. -/
theorem exists_rulesResolve_at (hr : rules[i]? = some r) (h : r.Resolves r') :
    ∃ resolved, RulesResolve rules resolved ∧ resolved[i]? = some r' := by
  induction rules generalizing i with
  | nil => simp at hr
  | cons first rest ih =>
    cases i with
    | zero =>
      obtain rfl : first = r := by simpa using hr
      obtain ⟨resolved, hrest⟩ := exists_rulesResolve rest
      exact ⟨r' :: resolved, .cons h hrest, rfl⟩
    | succ i =>
      obtain ⟨condition, hc⟩ := first.condition.exists_resolves
      obtain ⟨resolved, hrest, hat⟩ := ih (by simpa using hr)
      exact ⟨⟨condition, first.next⟩ :: resolved, .cons ⟨hc, rfl⟩ hrest, by simpa using hat⟩

/-- A rule that is not settled may turn out either way. -/
theorem exists_rulesResolve_to (hr : rules[i]? = some r)
    (hunsettled : r.condition.evaluate known = none) (v : Bool) :
    ∃ resolved r', RulesResolve rules resolved ∧ resolved[i]? = some r' ∧
      r'.condition.evaluate known = some v := by
  obtain ⟨condition, hc, hv⟩ := Condition.mayBe_of_evaluate_eq_none hunsettled v
  have hresolves : r.Resolves ⟨condition, r.next⟩ := ⟨hc, rfl⟩
  obtain ⟨resolved, hresolved, hat⟩ := exists_rulesResolve_at hr hresolves
  exact ⟨resolved, _, hresolved, hat, hv⟩

theorem RulesResolve.exists_right (h : RulesResolve rules resolved) (hr : rules[i]? = some r) :
    ∃ r', resolved[i]? = some r' ∧ r.Resolves r' :=
  h.exists_getElem? hr

theorem RulesResolve.exists_left (h : RulesResolve rules resolved) (hr : resolved[i]? = some r') :
    ∃ r, rules[i]? = some r ∧ r.Resolves r' :=
  h.flip.exists_getElem? hr

/-- The first rule that holds is the given one, at the given place. -/
structure FirstHolding (known : Object) (rules : List Rule) (i : Nat) (r : Rule) : Prop where
  place : rules[i]? = some r
  holds : r.condition.evaluate known = some true
  earlier : ∀ j < i, ∀ q, rules[j]? = some q → q.condition.evaluate known ≠ some true

/-- What a choice should answer: the first rule that holds, else the default, else nothing. -/
inductive Selection.FirstMatch (known : Object) (rules : List Rule) (otherwise : Option StateId) :
    Selection → Prop
  | rule {i : Nat} {r : Rule} (h : FirstHolding known rules i r) :
      Selection.FirstMatch known rules otherwise (.rule i r.next)
  | otherwise {target} (hnone : ∀ r ∈ rules, r.condition.evaluate known ≠ some true)
      (h : otherwise = some target) : Selection.FirstMatch known rules otherwise (.otherwise target)
  | noMatch (hnone : ∀ r ∈ rules, r.condition.evaluate known ≠ some true)
      (h : otherwise = none) : Selection.FirstMatch known rules otherwise .noMatch

theorem FirstHolding.mem (h : FirstHolding known rules i r) : r ∈ rules :=
  List.mem_of_getElem? h.place

theorem FirstHolding.unique (h : FirstHolding known rules i r) (h' : FirstHolding known rules j q) :
    i = j ∧ r = q := by
  obtain rfl : i = j := by
    rcases Nat.lt_trichotomy i j with hlt | heq | hlt
    · exact absurd h.holds (h'.earlier i hlt r h.place)
    · exact heq
    · exact absurd h'.holds (h.earlier j hlt q h'.place)
  exact ⟨rfl, Option.some.inj (h.place.symm.trans h'.place)⟩

theorem Selection.FirstMatch.unique (h : Selection.FirstMatch known rules otherwise answer)
    (h' : Selection.FirstMatch known rules otherwise answer') : answer = answer' := by
  cases h with
  | rule h =>
    cases h' with
    | rule h' =>
      obtain ⟨rfl, rfl⟩ := h.unique h'
      rfl
    | otherwise hnone => exact absurd h.holds (hnone _ h.mem)
    | noMatch hnone => exact absurd h.holds (hnone _ h.mem)
  | otherwise hnone hsome =>
    cases h' with
    | rule h' => exact absurd h'.holds (hnone _ h'.mem)
    | otherwise _ hsome' => rw [Option.some.inj (hsome.symm.trans hsome')]
    | noMatch _ hnone' => cases hsome.symm.trans hnone'
  | noMatch hnone hdefault =>
    cases h' with
    | rule h' => exact absurd h'.holds (hnone _ h'.mem)
    | otherwise _ hsome => cases hdefault.symm.trans hsome
    | noMatch => rfl

theorem Selection.FirstMatch.exists_firstHolding {target : StateId}
    (h : Selection.FirstMatch known rules otherwise (.rule i target)) :
    ∃ r, FirstHolding known rules i r := by
  cases h with
  | rule h => exact ⟨_, h⟩

/-- However the leaves turn out, a choice should give the same answer. -/
def Selection.Settled (known : Object) (rules : List Rule) (otherwise : Option StateId)
    (answer : Selection) : Prop :=
  ∀ resolved, RulesResolve rules resolved → Selection.FirstMatch known resolved otherwise answer

/-- However the leaves turn out, no rule before a place is taken; whether the rule there is taken
depends on how they turn out. -/
structure UndecidedAt (known : Object) (rules : List Rule) (i : Nat) : Prop where
  notBefore : ∀ resolved, RulesResolve rules resolved →
    ∀ j r, FirstHolding known resolved j r → i ≤ j
  mayBeTaken : ∃ resolved, RulesResolve rules resolved ∧ ∃ r, FirstHolding known resolved i r
  mayBePassed : ∃ resolved, RulesResolve rules resolved ∧ ∀ r, ¬ FirstHolding known resolved i r

theorem Selection.Settled.unique (h : Selection.Settled known rules otherwise answer)
    (h' : Selection.Settled known rules otherwise answer') : answer = answer' := by
  obtain ⟨resolved, hresolved⟩ := exists_rulesResolve rules
  exact (h resolved hresolved).unique (h' resolved hresolved)

theorem UndecidedAt.unique (h : UndecidedAt known rules i) (h' : UndecidedAt known rules j) :
    i = j := by
  obtain ⟨resolved, hresolved, r, hr⟩ := h.mayBeTaken
  obtain ⟨resolved', hresolved', r', hr'⟩ := h'.mayBeTaken
  exact Nat.le_antisymm (h.notBefore resolved' hresolved' j r' hr')
    (h'.notBefore resolved hresolved i r hr)

theorem Selection.Settled.not_undecidedAt (h : Selection.Settled known rules otherwise answer) :
    ¬ UndecidedAt known rules i := by
  intro hundecided
  obtain ⟨resolved, hresolved, r, hr⟩ := hundecided.mayBeTaken
  have hanswer : answer = .rule i r.next := (h resolved hresolved).unique (.rule hr)
  obtain ⟨passed, hpassed, hnone⟩ := hundecided.mayBePassed
  obtain ⟨r', hr'⟩ := (hanswer ▸ h passed hpassed).exists_firstHolding
  exact hnone r' hr'

theorem Selection.Settled.ne_undecidable (h : Selection.Settled known rules otherwise answer)
    (i : Nat) : answer ≠ .undecidable i := by
  rintro rfl
  obtain ⟨resolved, hresolved⟩ := exists_rulesResolve rules
  cases h resolved hresolved

/-- The rules before a place are settled not to hold. -/
def RuledOut (known : Object) (rules : List Rule) (i : Nat) : Prop :=
  ∀ j < i, ∀ q, rules[j]? = some q → q.condition.evaluate known = some false

theorem RuledOut.cons (h : RuledOut known rules i) (hr : r.condition.evaluate known = some false) :
    RuledOut known (r :: rules) (i + 1) := by
  intro j hj q hq
  cases j with
  | zero =>
    obtain rfl : r = q := by simpa using hq
    exact hr
  | succ j => exact h j (Nat.lt_of_succ_lt_succ hj) q hq

/-- The rules are tried up to the first one that is not settled to fail; it is then taken if it
holds, and else the choice is undecided at it. -/
theorem ofRules_cases (known : Object) (rules : List Rule) (otherwise : Option StateId)
    (start : Nat) :
    (∃ i r, rules[i]? = some r ∧ RuledOut known rules i ∧
      ((r.condition.evaluate known = some true ∧
          Selection.ofRules known start rules otherwise = .rule (start + i) r.next) ∨
        (r.condition.evaluate known = none ∧
          Selection.ofRules known start rules otherwise = .undecidable (start + i)))) ∨
      ((∀ r ∈ rules, r.condition.evaluate known = some false) ∧
        Selection.ofRules known start rules otherwise = otherwise.elim .noMatch .otherwise) := by
  induction rules generalizing start with
  | nil =>
    refine .inr ⟨by simp, ?_⟩
    cases otherwise <;> rfl
  | cons first rest ih =>
    have hnone : RuledOut known (first :: rest) 0 := fun j hj => absurd hj (Nat.not_lt_zero j)
    rw [Selection.ofRules]
    cases hfirst : first.condition.evaluate known with
    | none => exact .inl ⟨0, first, rfl, hnone, .inr ⟨hfirst, rfl⟩⟩
    | some v =>
      cases v with
      | true => exact .inl ⟨0, first, rfl, hnone, .inl ⟨hfirst, rfl⟩⟩
      | false =>
        rcases ih (start + 1) with ⟨i, r, hr, hout, hrule⟩ | ⟨hall, hrest⟩
        · refine .inl ⟨i + 1, r, hr, hout.cons hfirst, ?_⟩
          rwa [Nat.add_right_comm] at hrule
        · exact .inr ⟨List.forall_mem_cons.2 ⟨hfirst, hall⟩, hrest⟩

/-- Rules settled to fail are not taken, however the leaves turn out. -/
theorem RuledOut.ne_true (h : RuledOut known rules i) (hresolved : RulesResolve rules resolved)
    (hj : j < i) (hq : resolved[j]? = some q) : q.condition.evaluate known ≠ some true := by
  obtain ⟨r, hr, hrq⟩ := hresolved.exists_left hq
  rw [hrq.1.evaluate_eq (h j hj r hr)]
  simp

theorem settled_of_holds (hr : rules[i]? = some r) (hout : RuledOut known rules i)
    (hholds : r.condition.evaluate known = some true) :
    Selection.Settled known rules otherwise (.rule i r.next) := by
  intro resolved hresolved
  obtain ⟨r', hr', hrr'⟩ := hresolved.exists_right hr
  rw [← hrr'.2]
  exact .rule ⟨hr', hrr'.1.evaluate_eq hholds, fun j hj q hq => hout.ne_true hresolved hj hq⟩

theorem settled_of_forall_fails (h : ∀ r ∈ rules, r.condition.evaluate known = some false) :
    Selection.Settled known rules otherwise (otherwise.elim .noMatch .otherwise) := by
  intro resolved hresolved
  have hnone : ∀ r' ∈ resolved, r'.condition.evaluate known ≠ some true := by
    intro r' hr'
    obtain ⟨i, hi⟩ := List.mem_iff_getElem?.1 hr'
    obtain ⟨r, hr, hrr'⟩ := hresolved.exists_left hi
    rw [hrr'.1.evaluate_eq (h r (List.mem_of_getElem? hr))]
    simp
  cases otherwise with
  | none => exact .noMatch hnone rfl
  | some target => exact .otherwise hnone rfl

theorem undecidedAt_of_unsettled (hr : rules[i]? = some r) (hout : RuledOut known rules i)
    (hunsettled : r.condition.evaluate known = none) : UndecidedAt known rules i where
  notBefore resolved hresolved j q hfirst := by
    by_contra hlt
    exact hout.ne_true hresolved (Nat.lt_of_not_le hlt) hfirst.place hfirst.holds
  mayBeTaken := by
    obtain ⟨resolved, r', hresolved, hat, htrue⟩ := exists_rulesResolve_to hr hunsettled true
    exact ⟨resolved, hresolved, r', hat, htrue, fun j hj q hq => hout.ne_true hresolved hj hq⟩
  mayBePassed := by
    obtain ⟨resolved, r', hresolved, hat, hfalse⟩ := exists_rulesResolve_to hr hunsettled false
    refine ⟨resolved, hresolved, fun q hfirst => ?_⟩
    obtain rfl := Option.some.inj (hat.symm.trans hfirst.place)
    cases hfalse.symm.trans hfirst.holds

/-- What a choice answers is settled, or it is undecided where it says so. -/
theorem settled_or_undecidedAt (known : Object) (rules : List Rule)
    (otherwise : Option StateId) :
    Selection.Settled known rules otherwise (.ofRules known 0 rules otherwise) ∨
      ∃ i, Selection.ofRules known 0 rules otherwise = .undecidable i ∧
        UndecidedAt known rules i := by
  rcases ofRules_cases known rules otherwise 0 with
    ⟨i, r, hr, hout, ⟨hholds, heq⟩ | ⟨hunsettled, heq⟩⟩ | ⟨hall, heq⟩
  · rw [Nat.zero_add] at heq
    exact .inl (heq ▸ settled_of_holds hr hout hholds)
  · rw [Nat.zero_add] at heq
    exact .inr ⟨i, heq, undecidedAt_of_unsettled hr hout hunsettled⟩
  · exact .inl (heq ▸ settled_of_forall_fails hall)

/-- A choice state answers for all variables. It answers a rule, its default or nothing exactly if
this is what the first rule that holds, else the default, else nothing comes to however the
uninterpreted leaves of its rules turn out. It answers that it is undecided at a rule exactly if no
rule before that one is ever taken, and that rule is taken for some outcomes of the leaves and not
for others. -/
theorem Graph.select_settled_iff_choices_agree {g : Graph} {choice : StateId} {s : State}
    (hs : g.states[choice]? = some s) (hkind : s.kind = .choice rules otherwise)
    (known : Object) :
    (∃ answer, g.select choice known = .ok answer) ∧
    (∀ answer, (∀ i, answer ≠ .undecidable i) →
      (g.select choice known = .ok answer ↔ Selection.Settled known rules otherwise answer)) ∧
    ∀ i, g.select choice known = .ok (.undecidable i) ↔ UndecidedAt known rules i := by
  have hselect : g.select choice known = .ok (.ofRules known 0 rules otherwise) := by
    rw [Graph.select, state_eq_ok_iff.2 hs]
    simp only [hkind, bind, Except.bind]
    rfl
  rw [hselect]
  simp only [Except.ok.injEq]
  refine ⟨⟨_, rfl⟩, fun answer hanswer => ⟨?_, fun h => ?_⟩, fun i => ⟨?_, fun h => ?_⟩⟩
  · rintro rfl
    rcases settled_or_undecidedAt known rules otherwise with h | ⟨i, heq, -⟩
    · exact h
    · exact absurd heq (hanswer i)
  · rcases settled_or_undecidedAt known rules otherwise with h' | ⟨i, -, hundecided⟩
    · exact h'.unique h
    · exact absurd hundecided h.not_undecidedAt
  · intro heq
    rcases settled_or_undecidedAt known rules otherwise with h | ⟨j, hj, h⟩
    · exact absurd heq (h.ne_undecidable i)
    · obtain rfl := Selection.undecidable.inj (hj.symm.trans heq)
      exact h
  · rcases settled_or_undecidedAt known rules otherwise with h' | ⟨j, hj, h'⟩
    · exact absurd h h'.not_undecidedAt
    · rw [hj, h'.unique h]

/-- The first rule is settled to fail though a part of it is unknown, the second one is not settled,
and the third one would hold: the choice is undecided at the second. -/
theorem Graph.select_settled_iff_choices_agree_unknown_call :
    let rules : List Rule := [⟨.and (.raw "$ready()") (.compare "$kind" .equal (.string "new")), 1⟩,
      ⟨.or (.compare "$count" .greater .null) (.not (.raw "$done()")), 1⟩, ⟨.always, 2⟩]
    let g := empty.after ([.addChoice "Which?", .addPass "Wait" {}, .addPass "Go" {},
      .setOtherwise 0 1] ++ rules.map fun r => .addRule 0 r.condition r.next)
    let known : Object := [("kind", .string "old"), ("count", .null)]
    g.states[0]? = some ⟨"Which?", .choice rules (some 1), none⟩ ∧
      g.select 0 known = .ok (.undecidable 1) ∧ UndecidedAt known rules 1 := by
  intro rules g known
  have hs : g.states[0]? = some ⟨"Which?", .choice rules (some 1), none⟩ := rfl
  have hselect : g.select 0 known = .ok (.undecidable 1) := by decide +kernel
  exact ⟨hs, hselect, ((select_settled_iff_choices_agree hs rfl known).2.2 1).1 hselect⟩

end LifecycleFlow
