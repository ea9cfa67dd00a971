import LifecycleFlow.Condition
import LifecycleFlow.Text.Character
import Mathlib.Data.List.DropRight

/-!
# Raw expressions and templates

A raw expression may be given as a template. Main statement: a template that is given as a raw
expression is taken for what it was made of, but for the white space at its ends, so that a template
never stands inside another one and no other character is lost.
-/
namespace LifecycleFlow.Text

/-- White space and nothing else. -/
def Blank (cs : List Char) : Prop :=
  ∀ c ∈ cs, isBlank c = true

/-- No white space at either end. -/
structure Tight (cs : List Char) : Prop where
  head : ∀ c ∈ cs.head?, isBlank c = false
  last : ∀ c ∈ cs.getLast?, isBlank c = false

/-- The second text is what the first one leaves without the white space at its ends. -/
structure Trims (cs m : List Char) : Prop where
  tight : Tight m
  around : ∃ a b, Blank a ∧ Blank b ∧ cs = a ++ m ++ b

variable {a b cs m : List Char}

theorem trimEnd_eq_rdropWhile (cs : List Char) : trimEnd cs = cs.rdropWhile isBlank := rfl

theorem trimStart_append_of_blank (ha : Blank a) : trimStart (a ++ cs) = trimStart cs :=
  List.dropWhile_append_of_pos ha

theorem trimEnd_append_of_blank (hb : Blank b) : trimEnd (cs ++ b) = trimEnd cs := by
  have hreverse : ∀ c ∈ b.reverse, isBlank c = true := fun c hc => hb c (List.mem_reverse.1 hc)
  rw [trimEnd, List.reverse_append, List.dropWhile_append_of_pos hreverse, trimEnd]

theorem Tight.trimStart_append (h : Tight m) (hne : m ≠ []) : trimStart (m ++ b) = m ++ b := by
  cases m with
  | nil => exact absurd rfl hne
  | cons c r => exact trimStart_of_head (h.head c rfl)

theorem Tight.trimEnd_eq (h : Tight m) : trimEnd m = m := by
  rw [trimEnd_eq_rdropWhile, List.rdropWhile_eq_self_iff]
  intro hne
  rw [h.last _ (List.getLast?_eq_getLast_of_ne_nil hne)]
  exact Bool.false_ne_true

theorem trim_of_trims (h : Trims cs m) : trim cs = m := by
  obtain ⟨htight, a, b, ha, hb, rfl⟩ := h
  rw [trim, List.append_assoc, trimStart_append_of_blank ha]
  by_cases hne : m = []
  · subst hne
    rw [List.nil_append, ← List.append_nil b, trimStart_append_of_blank hb]
    rfl
  · rw [htight.trimStart_append hne, trimEnd_append_of_blank hb, htight.trimEnd_eq]

theorem head?_trim_eq_of_ne_nil (h : trim cs ≠ []) : (trim cs).head? = (trimStart cs).head? := by
  obtain ⟨r, hr⟩ := List.rdropWhile_prefix (p := isBlank) (l := trimStart cs)
  rw [← trimEnd_eq_rdropWhile] at hr
  rw [trim] at h ⊢
  rw [← hr, List.head?_append_of_ne_nil _ h, hr]

theorem trims_trim (cs : List Char) : Trims cs (trim cs) := by
  refine ⟨⟨fun c hc => ?_, fun c hc => ?_⟩, cs.takeWhile isBlank,
    (trimStart cs).rtakeWhile isBlank, fun c hc => ?_, fun c hc => ?_, ?_⟩
  · have hne : trim cs ≠ [] := by
      rintro h
      rw [h] at hc
      cases hc
    rw [head?_trim_eq_of_ne_nil hne] at hc
    exact head?_trimStart cs c hc
  · obtain ⟨hne, rfl⟩ := List.mem_getLast?_eq_getLast hc
    exact Bool.eq_false_iff.2 (List.rdropWhile_last_not isBlank (trimStart cs) hne)
  · exact List.mem_takeWhile_imp hc
  · exact List.mem_rtakeWhile_imp hc
  · rw [trim, trimEnd_eq_rdropWhile, List.append_assoc, List.rdropWhile_append_rtakeWhile]
    exact List.takeWhile_append_dropWhile.symm

/-- Trimming gives the one text that stands between the blanks. -/
theorem trim_eq_iff : trim cs = m ↔ Trims cs m :=
  ⟨fun h => h ▸ trims_trim cs, trim_of_trims⟩

theorem tight_trim (cs : List Char) : Tight (trim cs) :=
  (trims_trim cs).tight

theorem Tight.trim_eq (h : Tight m) : trim m = m :=
  trim_of_trims ⟨h, [], [], nofun, nofun, by simp⟩

theorem trim_append_of_blank (ha : Blank a) (hb : Blank b) : trim (a ++ cs ++ b) = trim cs := by
  obtain ⟨htight, a', b', ha', hb', hcs⟩ := trims_trim cs
  refine trim_of_trims ⟨htight, a ++ a', b' ++ b, List.forall_mem_append.2 ⟨ha, ha'⟩,
    List.forall_mem_append.2 ⟨hb', hb⟩, ?_⟩
  conv_lhs => rw [hcs]
  simp only [List.append_assoc]

end LifecycleFlow.Text

namespace LifecycleFlow.Condition

open LifecycleFlow.Text

/-- The text begins with the opening delimiter and ends with the closing one, and the two do not
overlap. -/
def Delimited (cs : List Char) : Prop :=
  ∃ m, cs = ['{', '%'] ++ m ++ ['%', '}']

/-- The template of a raw expression. -/
def rawTemplate (text : String) : String :=
  (raw text).template

variable {cs m : List Char} {text : String}

theorem withoutDelimiters?_eq_some_iff :
    withoutDelimiters? cs = some m ↔ cs = ['{', '%'] ++ m ++ ['%', '}'] := by
  constructor
  · intro h
    unfold withoutDelimiters? at h
    split at h
    · rename_i r
      split at h
      · rename_i q hr
        obtain rfl := Option.some.inj h
        rw [List.reverse_eq_cons_iff] at hr
        simp [hr]
      · cases h
    · cases h
  · rintro rfl
    simp [withoutDelimiters?]

theorem withoutDelimiters?_eq_none_iff : withoutDelimiters? cs = none ↔ ¬ Delimited cs := by
  simp only [Delimited, ← withoutDelimiters?_eq_some_iff, Option.eq_none_iff_forall_ne_some,
    not_exists, ne_eq]

theorem tight_delimited (m : List Char) : Tight (['{', '%'] ++ m ++ ['%', '}']) := by
  constructor
  · simp [isBlank]
  · rw [List.getLast?_append_of_ne_nil _ (List.cons_ne_nil _ _)]
    simp [isBlank]

theorem toList_template (s : String) :
    (Expression.template s).toList = ['{', '%'] ++ ([' '] ++ s.toList ++ [' ']) ++ ['%', '}'] := by
  simp [Expression.template]

theorem strip_of_not_delimited (h : ¬ Delimited (trim text.toList)) :
    strip text = String.ofList (trim text.toList) := by
  rw [strip, withoutDelimiters?_eq_none_iff.2 h]
  rfl

theorem strip_delimited (h : text.toList = ['{', '%'] ++ m ++ ['%', '}']) :
    strip text = String.ofList (trim m) := by
  rw [strip, h, (tight_delimited m).trim_eq, withoutDelimiters?_eq_some_iff.2 rfl]
  rfl

theorem tight_strip (text : String) : Tight (strip text).toList := by
  rw [strip, String.toList_ofList]
  cases withoutDelimiters? (trim text.toList) with
  | none => exact tight_trim _
  | some m => exact tight_trim m

/-- The blanks that a template has between delimiters and expression are dropped again. -/
theorem strip_template (s : String) :
    strip (Expression.template s) = String.ofList (trim s.toList) := by
  have hblank : Blank [' '] := by simp [Blank, isBlank]
  rw [strip_delimited (toList_template s), trim_append_of_blank hblank hblank]

theorem rawTemplate_rawTemplate (text : String) :
    rawTemplate (rawTemplate text) = rawTemplate text := by
  have hstrip : strip (Expression.template (strip text)) = strip text := by
    rw [strip_template, (tight_strip text).trim_eq, String.ofList_toList]
  simp only [rawTemplate, template, expression, hstrip]

/-- Delimiters around an expression that has none make no difference, whatever blanks there are. -/
theorem rawTemplate_delimited {before after : String} (hbefore : Blank before.toList)
    (hafter : Blank after.toList) (h : ¬ Delimited (trim text.toList)) :
    rawTemplate ("\x7b%" ++ before ++ text ++ after ++ "%\x7d") = rawTemplate text := by
  have htext : ("\x7b%" ++ before ++ text ++ after ++ "%\x7d").toList =
      ['{', '%'] ++ (before.toList ++ text.toList ++ after.toList) ++ ['%', '}'] := by simp
  have hstrip : strip ("\x7b%" ++ before ++ text ++ after ++ "%\x7d") = strip text := by
    rw [strip_delimited htext, trim_append_of_blank hbefore hafter, strip_of_not_delimited h]
  simp only [rawTemplate, template, expression, hstrip]

/-- A template given as a raw expression is taken for what it was made of, without the white space
at its ends. A raw expression given as the template it makes makes the same template, and so does
one that is put between delimiters when it had none. -/
theorem raw_of_template :
    (∀ c : Condition, Trims c.expression.toList (raw c.template).expression.toList) ∧
    (∀ text, rawTemplate (rawTemplate text) = rawTemplate text) ∧
    ∀ text before after : String, Blank before.toList → Blank after.toList →
      ¬ Delimited (trim text.toList) →
      rawTemplate ("\x7b%" ++ before ++ text ++ after ++ "%\x7d") = rawTemplate text := by
  refine ⟨fun c => ?_, rawTemplate_rawTemplate, fun text before after hbefore hafter h =>
    rawTemplate_delimited hbefore hafter h⟩
  have hraw : (raw c.template).expression = String.ofList (trim c.expression.toList) :=
    strip_template c.expression
  rw [hraw, String.toList_ofList]
  exact trims_trim c.expression.toList

/-- Delimiters that overlap are no delimiters. -/
theorem raw_of_template_overlapping :
    Blank "\t".toList ∧ Blank "\u2003".toList ∧ ¬ Delimited (trim "\x7b%\x7d".toList) ∧
      rawTemplate ("\x7b%" ++ "\t" ++ "\x7b%\x7d" ++ "\u2003" ++ "%\x7d") =
        rawTemplate "\x7b%\x7d" := by
  have hbefore : Blank "\t".toList := by simp [Blank, isBlank]
  have hafter : Blank "\u2003".toList := by simp [Blank, isBlank]
  have htext : ¬ Delimited (trim "\x7b%\x7d".toList) :=
    withoutDelimiters?_eq_none_iff.1 (by decide)
  exact ⟨hbefore, hafter, htext, raw_of_template.2.2 _ _ _ hbefore hafter htext⟩

end LifecycleFlow.Condition
