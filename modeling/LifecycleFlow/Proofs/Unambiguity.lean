import LifecycleFlow.Proofs.Lexemes

/-!
# Reading conditions back from their text

A reader takes the text of a structured condition apart again. The word of reference characters at
the front and the character after it tell the form of the condition, so that nothing inside a string
or a part between parentheses is taken for a part of the condition itself. Main statement: two
structured conditions have the same text exactly if they are the same tree with literals that are
written alike.
-/
namespace LifecycleFlow

namespace Comparison

/-- The operator that is written as a text. -/
def ofText? (text : String) : Option Comparison :=
  [equal, notEqual, greater, greaterOrEqual, less, lessOrEqual, contains].find? (·.text = text)

theorem ofText?_text (op : Comparison) : ofText? op.text = some op := by
  cases op <;> rfl

theorem ne_blank_of_mem_text (op : Comparison) : ∀ c ∈ op.text.toList, c ≠ ' ' := by
  cases op <;> simp [text]

/-- An operator between two sides starts with a character that no reference holds. -/
theorem exists_text_eq_cons {op : Comparison} (h : op ≠ .contains) :
    ∃ c w, op.text.toList = c :: w ∧ c ≠ '(' ∧ Reference.mayHold c = false := by
  have hdelimiter := Reference.mayHold_eq_false_of_delimiter
  cases op with
  | equal => exact ⟨'=', [], rfl, by decide, hdelimiter _ (by simp)⟩
  | notEqual => exact ⟨'!', ['='], rfl, by decide, hdelimiter _ (by simp)⟩
  | greater => exact ⟨'>', [], rfl, by decide, hdelimiter _ (by simp)⟩
  | greaterOrEqual => exact ⟨'>', ['='], rfl, by decide, hdelimiter _ (by simp)⟩
  | less => exact ⟨'<', [], rfl, by decide, hdelimiter _ (by simp)⟩
  | lessOrEqual => exact ⟨'<', ['='], rfl, by decide, hdelimiter _ (by simp)⟩
  | contains => exact absurd rfl h

end Comparison

namespace Condition

/-- Conditions made of comparisons of references, and, or, not, true and false. -/
inductive Structured : Condition → Prop
  | compare {left op right names} (h : Reference.ofText? left = some names) :
      Structured (.compare left op right)
  | and {a b} (ha : Structured a) (hb : Structured b) : Structured (.and a b)
  | or {a b} (ha : Structured a) (hb : Structured b) : Structured (.or a b)
  | not {a} (ha : Structured a) : Structured (.not a)
  | always : Structured .always
  | never : Structured .never

/-- The same tree, with equal left sides, equal operators and literals that are written alike. -/
inductive Alike : Condition → Condition → Prop
  | compare {left op right right'} (h : right.Alike right') :
      Alike (.compare left op right) (.compare left op right')
  | and {a b a' b'} (ha : Alike a a') (hb : Alike b b') : Alike (.and a b) (.and a' b')
  | or {a b a' b'} (ha : Alike a a') (hb : Alike b b') : Alike (.or a b) (.or a' b')
  | not {a a'} (ha : Alike a a') : Alike (.not a) (.not a')
  | always : Alike .always .always
  | never : Alike .never .never

variable {number : String → Double} {a b c d : Condition}

theorem Alike.expression_eq (h : a.Alike b) : a.expression = b.expression := by
  induction h with
  | @compare left op right right' h => cases op <;> simp [expression, h.text_eq]
  | and _ _ iha ihb => simp [expression, iha, ihb]
  | or _ _ iha ihb => simp [expression, iha, ihb]
  | not _ iha => simp [expression, iha]
  | always => rfl
  | never => rfl

theorem Alike.of_common (ha : a.Alike d) (hb : b.Alike d) : a.Alike b := by
  induction ha generalizing b with
  | compare h =>
    cases hb with
    | compare h' => exact .compare (h.of_common h')
  | and _ _ iha ihb =>
    cases hb with
    | and ha hb => exact .and (iha ha) (ihb hb)
  | or _ _ iha ihb =>
    cases hb with
    | or ha hb => exact .or (iha ha) (ihb hb)
  | not _ iha =>
    cases hb with
    | not ha => exact .not (iha ha)
  | always => cases hb; exact .always
  | never => cases hb; exact .never

/-- Reads how two conditions between parentheses are joined. -/
def connective? (cs : List Char) :
    Option ((Condition → Condition → Condition) × List Char) :=
  ((Text.after? ") and (" cs).map (Condition.and, ·)).or
    ((Text.after? ") or (" cs).map (Condition.or, ·))

/-- Reads a condition up to the parenthesis that closes what it stands in, given a reader of
numbers; the fuel bounds the number of characters. -/
def read? (number : String → Double) (fuel : Nat) (cs : List Char) :
    Option (Condition × List Char) :=
  match fuel with
  | 0 => none
  | fuel + 1 =>
    let front := cs.takeWhile Reference.mayHold
    let word := String.ofList front
    match cs.dropWhile Reference.mayHold with
    | '(' :: r =>
      if word = "" then do
        let (a, r) ← read? number fuel r
        let (join, r) ← connective? r
        let (b, r) ← read? number fuel r
        let r ← Text.after? ")" r
        some (join a b, r)
      else if word = "$not" then do
        let (a, r) ← read? number fuel r
        let r ← Text.after? ")" r
        some (.not a, r)
      else if word = "$contains" then do
        let left := String.ofList (r.takeWhile Reference.mayHold)
        let r ← Text.after? ", " (r.dropWhile Reference.mayHold)
        let (right, r) ← Literal.read? number r
        let r ← Text.after? ")" r
        some (.compare left .contains right, r)
      else none
    | r =>
      if word = "true" then some (.always, r)
      else if word = "false" then some (.never, r)
      else do
        let op ← Comparison.ofText? (String.ofList (r.takeWhile (· ≠ ' ')))
        let r ← Text.after? " " (r.dropWhile (· ≠ ' '))
        let (right, r) ← Literal.read? number r
        -- blanks belong to references, so the one before the operator is still in front
        some (.compare (String.ofList front.dropLast) op right, r)

/-- The condition that a whole text is. -/
def ofText? (number : String → Double) (text : String) : Option Condition :=
  match read? number (text.length + 1) text.toList with
  | some (c, []) => some c
  | _ => none

/-- With enough fuel the reader takes these characters as this condition. -/
def ReadsAs (number : String → Double) (cs : List Char) (c : Condition) : Prop :=
  ∀ fuel r, cs.length ≤ fuel → Stops r → read? number (fuel + 1) (cs ++ r) = some (c, r)

variable {xs ys : List Char} {left : String} {op : Comparison} {l l' : Literal}

theorem ReadsAs.ofText?_eq {text : String} (h : ReadsAs number text.toList c) :
    ofText? number text = some c := by
  have hread := h text.length [] (Nat.le_of_eq String.length_toList) stops_nil
  rw [List.append_nil] at hread
  rw [ofText?, hread]

theorem connective?_and (r : List Char) :
    connective? (") and (".toList ++ r) = some (.and, r) := by
  rw [connective?, Text.after?_append]
  rfl

theorem connective?_or (r : List Char) :
    connective? (") or (".toList ++ r) = some (.or, r) := by
  have hand : Text.after? ") and (" (") or (".toList ++ r) = none := rfl
  rw [connective?, hand, Text.after?_append]
  rfl

theorem after?_close (r : List Char) : Text.after? ")" (')' :: r) = some r :=
  Text.after?_append ")" r

theorem mayHold_of_mem_keyword : ∀ word ∈ ["$not", "$contains", "true", "false"],
    ∀ c ∈ word.toList, Reference.mayHold c = true := by
  simp [Reference.mayHold, Reference.isNameChar, Text.isAlphanumeric]

theorem mayHold_eq_false_of_stops {r : List Char} (h : Stops r) :
    ∀ c ∈ r.head?, Reference.mayHold c = false := by
  intro c hc
  rw [h c hc]
  exact Reference.mayHold_eq_false_of_delimiter ')' (by simp)

theorem takeWhile_call {w : List Char} (hw : ∀ c ∈ w, Reference.mayHold c = true) (r : List Char) :
    (w ++ '(' :: r).takeWhile Reference.mayHold = w :=
  List.takeWhile_append_of_stop hw
    (by simpa using Reference.mayHold_eq_false_of_delimiter '(' (by simp))

theorem dropWhile_call {w : List Char} (hw : ∀ c ∈ w, Reference.mayHold c = true) (r : List Char) :
    (w ++ '(' :: r).dropWhile Reference.mayHold = '(' :: r :=
  List.dropWhile_append_of_stop hw
    (by simpa using Reference.mayHold_eq_false_of_delimiter '(' (by simp))

/-- Two conditions between parentheses are read as joined by what stands between them. -/
theorem ReadsAs.join {form : Condition → Condition → Condition} {between : String}
    (hform : ∀ r, connective? (between.toList ++ r) = some (form, r))
    (hstart : between.toList.head? = some ')')
    (ha : ReadsAs number xs a) (hb : ReadsAs number ys b) :
    ReadsAs number ('(' :: (xs ++ (between.toList ++ (ys ++ [')'])))) (form a b) := by
  intro fuel r hfuel hr
  simp only [List.length_cons, List.length_append] at hfuel
  obtain ⟨fuel, rfl⟩ : ∃ n, fuel = n + 1 := ⟨fuel - 1, by omega⟩
  let rest := xs ++ (between.toList ++ (ys ++ ')' :: r))
  have hleft := ha fuel (between.toList ++ (ys ++ ')' :: r)) (by omega) (by simp [Stops, hstart])
  have hright := hb fuel (')' :: r) (by omega) (stops_close r)
  have htake := takeWhile_call (w := []) (by simp) rest
  have hdrop := dropWhile_call (w := []) (by simp) rest
  have htext : '(' :: (xs ++ (between.toList ++ (ys ++ [')']))) ++ r = [] ++ '(' :: rest := by
    simp [rest]
  rw [htext, read?, htake, hdrop]
  simp only [String.ofList_nil, if_true, rest, hleft, hform, hright, after?_close,
    Option.bind_eq_bind, Option.bind_some]

theorem ReadsAs.not (ha : ReadsAs number xs a) :
    ReadsAs number ("$not".toList ++ '(' :: (xs ++ [')'])) (.not a) := by
  intro fuel r hfuel hr
  have hword := mayHold_of_mem_keyword "$not" (by simp)
  simp only [List.length_cons, List.length_append] at hfuel
  obtain ⟨fuel, rfl⟩ : ∃ n, fuel = n + 1 := ⟨fuel - 1, by omega⟩
  have hinner := ha fuel (')' :: r) (by omega) (stops_close r)
  have htext : "$not".toList ++ '(' :: (xs ++ [')']) ++ r =
      "$not".toList ++ '(' :: (xs ++ ')' :: r) := by simp
  have hne : "$not" ≠ "" := by decide
  rw [htext, read?, takeWhile_call hword, dropWhile_call hword, String.ofList_toList]
  simp only [hne, if_true, if_false, hinner, after?_close, Option.bind_eq_bind, Option.bind_some]

theorem readsAs_contains (hleft : ∀ c ∈ left.toList, Reference.mayHold c = true)
    (hl : ∀ r, Stops r → Literal.read? number (l.text.toList ++ r) = some (l', r)) :
    ReadsAs number (compare left .contains l).expression.toList (.compare left .contains l') := by
  intro fuel r _ _
  have hword := mayHold_of_mem_keyword "$contains" (by simp)
  have hcomma (t : List Char) : ∀ c ∈ (", ".toList ++ t).head?, Reference.mayHold c = false := by
    simpa using Reference.mayHold_eq_false_of_delimiter ',' (by simp)
  have htext : (compare left .contains l).expression.toList ++ r =
      "$contains".toList ++ '(' :: (left.toList ++ (", ".toList ++ (l.text.toList ++ ')' :: r))) := by
    simp [expression]
  have hempty : "$contains" ≠ "" := by decide
  have hnot : "$contains" ≠ "$not" := by decide
  rw [htext, read?, takeWhile_call hword, dropWhile_call hword, String.ofList_toList]
  simp only [hempty, hnot, if_true, if_false, List.takeWhile_append_of_stop hleft (hcomma _),
    List.dropWhile_append_of_stop hleft (hcomma _), Text.after?_append, hl _ (stops_close r),
    after?_close, String.ofList_toList, Option.bind_eq_bind, Option.bind_some]

theorem expression_compare (hop : op ≠ .contains) :
    (compare left op l).expression = left ++ " " ++ op.text ++ " " ++ l.text := by
  cases op <;> first | rfl | exact absurd rfl hop

/-- A word that ends in a blank is none of the words that are conditions by themselves. -/
theorem ofList_concat_blank_ne (word : String) (h : word.toList.getLast? ≠ some ' ')
    (cs : List Char) : String.ofList (cs ++ [' ']) ≠ word := by
  rintro rfl
  simp at h

theorem readsAs_compare (hop : op ≠ .contains)
    (hleft : ∀ c ∈ left.toList, Reference.mayHold c = true)
    (hl : ∀ r, Stops r → Literal.read? number (l.text.toList ++ r) = some (l', r)) :
    ReadsAs number (compare left op l).expression.toList (.compare left op l') := by
  intro fuel r _ hr
  obtain ⟨c, w, hcons, hcall, hstop⟩ := Comparison.exists_text_eq_cons hop
  let rest := " ".toList ++ (l.text.toList ++ r)
  have htext : (compare left op l).expression.toList ++ r =
      left.toList ++ [' '] ++ (op.text.toList ++ rest) := by
    simp [expression_compare hop, rest]
  have hfront : ∀ d ∈ left.toList ++ [' '], Reference.mayHold d = true := by
    intro d hd
    rcases List.mem_append.1 hd with hd | hd
    · exact hleft d hd
    · rw [List.mem_singleton.1 hd]
      simp [Reference.mayHold, Text.isBlank]
  have hafter : ∀ d ∈ (op.text.toList ++ rest).head?, Reference.mayHold d = false := by
    simpa [hcons] using hstop
  have hoperator : ∀ d ∈ op.text.toList, decide (d ≠ ' ') = true :=
    fun d hd => decide_eq_true (op.ne_blank_of_mem_text d hd)
  have hblank : ∀ d ∈ rest.head?, decide (d ≠ ' ') = false := by simp [rest]
  have htrue := ofList_concat_blank_ne "true" (by decide) left.toList
  have hfalse := ofList_concat_blank_ne "false" (by decide) left.toList
  rw [htext, read?, List.takeWhile_append_of_stop hfront hafter,
    List.dropWhile_append_of_stop hfront hafter]
  split
  · next heq =>
    rw [hcons] at heq
    exact absurd (List.cons.inj heq).1 hcall
  · simp only [htrue, hfalse, if_false, List.takeWhile_append_of_stop hoperator hblank,
      List.dropWhile_append_of_stop hoperator hblank, String.ofList_toList,
      Comparison.ofText?_text, rest, Text.after?_append, hl r hr, List.dropLast_concat,
      Option.bind_eq_bind, Option.bind_some]

/-- The two words that are conditions by themselves. -/
theorem readsAs_constant {word : String}
    (h : word = "true" ∧ c = .always ∨ word = "false" ∧ c = .never) :
    ReadsAs number word.toList c := by
  intro fuel r _ hr
  have hword : ∀ d ∈ word.toList, Reference.mayHold d = true := by
    rcases h with ⟨rfl, -⟩ | ⟨rfl, -⟩
    · exact mayHold_of_mem_keyword "true" (by simp)
    · exact mayHold_of_mem_keyword "false" (by simp)
  have hstop := mayHold_eq_false_of_stops hr
  rw [read?, List.takeWhile_append_of_stop hword hstop, List.dropWhile_append_of_stop hword hstop,
    String.ofList_toList]
  split
  · exact absurd (hr '(' rfl) (by decide)
  · rcases h with ⟨rfl, rfl⟩ | ⟨rfl, rfl⟩ <;> simp

/-- Every structured condition is read back, up to numbers that are written alike. The induction is
over the condition: each part of its text is followed by a parenthesis that closes it. -/
theorem exists_alike_readsAs
    (hnumber : ∀ x, Literal.numberLayout.textOf (number (Literal.numberLayout.textOf x)) =
      Literal.numberLayout.textOf x) (h : c.Structured) :
    ∃ d, c.Alike d ∧ ReadsAs number c.expression.toList d := by
  induction h with
  | @compare left op right names hleft =>
    have hleft := Reference.mayHold_of_ofText?_eq_some hleft
    obtain ⟨right', halike, hread⟩ := Literal.exists_alike_read? hnumber right
    refine ⟨_, .compare halike, ?_⟩
    by_cases hop : op = .contains
    · subst hop
      exact readsAs_contains hleft hread
    · exact readsAs_compare hop hleft hread
  | and _ _ iha ihb =>
    obtain ⟨a', ha, hreada⟩ := iha
    obtain ⟨b', hb, hreadb⟩ := ihb
    refine ⟨_, .and ha hb, ?_⟩
    simpa [expression] using hreada.join connective?_and rfl hreadb
  | or _ _ iha ihb =>
    obtain ⟨a', ha, hreada⟩ := iha
    obtain ⟨b', hb, hreadb⟩ := ihb
    refine ⟨_, .or ha hb, ?_⟩
    simpa [expression] using hreada.join connective?_or rfl hreadb
  | not _ iha =>
    obtain ⟨a', ha, hread⟩ := iha
    refine ⟨_, .not ha, ?_⟩
    simpa [expression] using hread.not
  | always => exact ⟨_, .always, readsAs_constant (.inl ⟨rfl, rfl⟩)⟩
  | never => exact ⟨_, .never, readsAs_constant (.inr ⟨rfl, rfl⟩)⟩

/-- The text of a structured condition says which condition it is: two of them have the same text
exactly if they are the same tree with literals that are written alike, and from the text alone such
a tree is read back. -/
theorem expression_unambiguous (ha : a.Structured) (hb : b.Structured) :
    (a.expression = b.expression ↔ a.Alike b) ∧
      ∃ d, ofText? Literal.numberWrittenAs a.expression = some d ∧ a.Alike d := by
  obtain ⟨a', halike, hreada⟩ := exists_alike_readsAs Literal.textOf_numberWrittenAs ha
  obtain ⟨b', hblike, hreadb⟩ := exists_alike_readsAs Literal.textOf_numberWrittenAs hb
  refine ⟨⟨fun h => ?_, Alike.expression_eq⟩, a', hreada.ofText?_eq, halike⟩
  have hsame : some a' = some b' := by
    rw [← hreada.ofText?_eq, ← hreadb.ofText?_eq, h]
  cases hsame
  exact halike.of_common hblike

/-- A string that holds the text between two conditions is not taken for two conditions. -/
theorem expression_unambiguous_connective_in_string :
    (and (compare "$a" .equal (.string "x")) (compare "$b" .equal (.string "y"))).expression ≠
        (compare "$a" .equal (.string "x\x22) and ($b = \x22y")).expression ∧
      ∃ d, ofText? Literal.numberWrittenAs
          (and (compare "$a" .equal (.string "x")) (compare "$b" .equal (.string "y"))).expression =
            some d ∧
        (and (compare "$a" .equal (.string "x")) (compare "$b" .equal (.string "y"))).Alike d := by
  have ha : Reference.ofText? "$a" = some ["a"] := by decide
  have hb : Reference.ofText? "$b" = some ["b"] := by decide
  obtain ⟨hiff, hread⟩ := expression_unambiguous (.and (.compare ha) (.compare hb))
    (.compare ha : (compare "$a" .equal (.string "x\x22) and ($b = \x22y")).Structured)
  refine ⟨fun h => ?_, hread⟩
  cases hiff.1 h

end Condition

end LifecycleFlow
