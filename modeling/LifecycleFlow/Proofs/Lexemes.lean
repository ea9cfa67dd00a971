import LifecycleFlow.Condition
import LifecycleFlow.Json.Reader
import LifecycleFlow.Proofs.Lists
import Mathlib.Data.List.TakeWhile
import Mathlib.Logic.Function.Basic
import Mathlib.Tactic.SplitIfs

/-!
# The pieces of a condition's text

References and literals inside a longer text. None of the characters that follow a reference can
belong to it, and a literal ends at its closing quote or before a closing parenthesis. Main
statements: the reader of strings undoes their escapes and stops at the closing quote, and every
literal is read back from its text, up to numbers that are written alike.
-/
namespace LifecycleFlow

namespace Text

/-- The rest of a text after a given beginning. -/
def after? (beginning : String) (cs : List Char) : Option (List Char) :=
  beginning.toList.isPrefixOf? cs

theorem after?_append (beginning : String) (r : List Char) :
    after? beginning (beginning.toList ++ r) = some r :=
  List.isPrefixOf?_eq_some_iff_append_eq.2 rfl

theorem isBlank_or_mem_dropWhile {c : Char} {cs : List Char} (h : c ∈ cs) :
    isBlank c = true ∨ c ∈ cs.dropWhile isBlank := by
  rw [← List.takeWhile_append_dropWhile (p := isBlank) (l := cs)] at h
  exact (List.mem_append.1 h).imp_left List.mem_takeWhile_imp

theorem isBlank_or_mem_trim {c : Char} {cs : List Char} (h : c ∈ cs) :
    isBlank c = true ∨ c ∈ trim cs := by
  rcases isBlank_or_mem_dropWhile h with h | h
  · exact .inl h
  · rw [trim, trimEnd, List.mem_reverse]
    exact isBlank_or_mem_dropWhile (List.mem_reverse.2 h)

end Text

namespace Json

variable {fuel : Nat} {r : List Char}

theorem number?_hexPair : ∀ n < 32, Text.number? 16 ('0' :: '0' :: hexPair n) = some n := by
  decide

theorem stringChars?_shortEscape {e c : Char} (he : e ≠ 'u') (hc : shortEscape? e = some c) :
    stringChars? (fuel + 1) ('\\' :: e :: r) =
      (stringChars? fuel r).map fun s => (c :: s.1, s.2) := by
  rw [stringChars?, hc]
  · cases stringChars? fuel r <;> rfl
  · simpa using he

theorem stringChars?_control {n : Nat} (h : n < 32) :
    stringChars? (fuel + 1) ('\\' :: 'u' :: '0' :: '0' :: (hexPair n ++ r)) =
      (stringChars? fuel r).map fun s => (Char.ofNat n :: s.1, s.2) := by
  have hfour : fourHex? ('0' :: '0' :: (hexPair n ++ r)) = some (n, r) := by
    simpa [fourHex?, hexPair] using number?_hexPair n h
  rw [stringChars?, hfour]
  have hhigh : ¬ (0xd800 ≤ n ∧ n < 0xdc00) := by omega
  have hlow : ¬ (0xdc00 ≤ n ∧ n < 0xe000) := by omega
  simp only [Option.bind_eq_bind, Option.bind_some, hhigh, hlow, if_false]
  cases stringChars? fuel r <;> rfl

theorem stringChars?_plain {c : Char} (hquote : c ≠ '\x22') (hescape : c ≠ '\\')
    (hcontrol : ¬ c.toNat < 32) :
    stringChars? (fuel + 1) (c :: r) =
      (stringChars? fuel r).map fun s => (c :: s.1, s.2) := by
  rw [stringChars?]
  · simp only [hcontrol, hescape, or_self, if_false]
    cases stringChars? fuel r <;> rfl
  all_goals simp_all

/-- The reader takes what is written for one character as that character. -/
theorem stringChars?_escapeChar (c : Char) :
    stringChars? (fuel + 1) (escapeChar c ++ r) =
      (stringChars? fuel r).map fun s => (c :: s.1, s.2) := by
  unfold escapeChar
  split_ifs with hquote hescape hb hf hn hr ht hcontrol
  · subst hquote; exact stringChars?_shortEscape (by decide) rfl
  · subst hescape; exact stringChars?_shortEscape (by decide) rfl
  · subst hb; exact stringChars?_shortEscape (by decide) rfl
  · subst hf; exact stringChars?_shortEscape (by decide) rfl
  · subst hn; exact stringChars?_shortEscape (by decide) rfl
  · subst hr; exact stringChars?_shortEscape (by decide) rfl
  · subst ht; exact stringChars?_shortEscape (by decide) rfl
  · rw [List.append_assoc]
    exact (stringChars?_control hcontrol).trans (by rw [Char.ofNat_toNat])
  · exact stringChars?_plain hquote hescape hcontrol

/-- The reader undoes the escapes of a string and stops at its closing quote. -/
theorem stringChars?_escaped (s : List Char) (h : s.length ≤ fuel) :
    stringChars? fuel (s.flatMap escapeChar ++ '\x22' :: r) = some (s, r) := by
  induction s generalizing fuel with
  | nil => cases fuel <;> rfl
  | cons c s ih =>
    obtain ⟨fuel, rfl⟩ : ∃ n, fuel = n + 1 := ⟨fuel - 1, by simp at h; omega⟩
    rw [List.flatMap_cons, List.append_assoc, stringChars?_escapeChar, ih (by simpa using h)]
    rfl

theorem one_le_length_escapeChar (c : Char) : 1 ≤ (escapeChar c).length := by
  unfold escapeChar
  split_ifs <;> simp

theorem length_le_length_escaped (s : List Char) : s.length ≤ (s.flatMap escapeChar).length := by
  induction s with
  | nil => simp
  | cons c s ih =>
    have := one_le_length_escapeChar c
    simp only [List.flatMap_cons, List.length_append, List.length_cons]
    omega

end Json

namespace Reference

/-- A character that a reference may hold, blanks around it included. -/
def mayHold (c : Char) : Bool :=
  isNameChar c || Text.isBlank c || c == '$' || c == '.'

theorem mayHold_eq_false_of_delimiter :
    ∀ c ∈ ['(', ')', ',', '=', '!', '<', '>'], mayHold c = false := by
  have hall : ['(', ')', ',', '=', '!', '<', '>'].all (! mayHold ·) = true := by decide +kernel
  intro c hc
  simpa using List.all_eq_true.1 hall c hc

/-- The pieces of a text hold all of it but its points. -/
theorem flatten_pieces (cs : List Char) : (pieces cs).flatten = cs.filter (· ≠ '.') := by
  induction cs with
  | nil => rfl
  | cons c cs ih =>
    rw [pieces, List.filter_cons]
    split_ifs with hc hkept
    · simp_all
    · simpa using ih
    · rw [← ih]
      cases pieces cs <;> simp
    · simp_all

/-- Every character of an accepted reference is one that references may hold. -/
theorem mayHold_of_ofText?_eq_some {s : String} {names : List String}
    (h : ofText? s = some names) : ∀ c ∈ s.toList, mayHold c = true := by
  intro c hc
  rw [ofText?] at h
  split at h
  · next body hbody =>
    dsimp only at h
    split_ifs at h with hnames
    rcases Text.isBlank_or_mem_trim hc with hblank | hmem
    · simp [mayHold, hblank]
    rw [hbody, List.mem_cons] at hmem
    rcases hmem with rfl | hmem
    · simp [mayHold]
    by_cases hpoint : c = '.'
    · simp [mayHold, hpoint]
    have hflat : c ∈ (pieces body).flatten := by
      rw [flatten_pieces]
      simpa using ⟨hmem, hpoint⟩
    obtain ⟨p, hp, hcp⟩ := List.mem_flatten.1 hflat
    have hname : isName p = true := List.all_eq_true.1 hnames p hp
    have hchar : isNameChar c = true := by
      rw [isName, Bool.and_eq_true, List.all_eq_true] at hname
      exact hname.2 c hcp
    simp [mayHold, hchar]
  · cases h

end Reference

namespace Decimal

/-- A character of a number without exponent. -/
def isNumeralChar (c : Char) : Bool :=
  c.isDigit || c == '-' || c == '.'

theorem isNumeralChar_of_isDigit {c : Char} (h : c.isDigit = true) : isNumeralChar c = true := by
  simp [isNumeralChar, h]

variable {l : Layout}

theorem isNumeralChar_of_mem_positionalText {digits : List Char} {point : Int}
    (h : ∀ c ∈ digits, isNumeralChar c = true) :
    ∀ c ∈ l.positionalText digits point, isNumeralChar c = true := by
  have hzeros : ∀ n, ∀ c ∈ List.replicate n '0', isNumeralChar c = true := by
    intro n c hc
    rw [List.eq_of_mem_replicate hc]
    rfl
  intro c hc
  rw [Layout.positionalText] at hc
  split_ifs at hc
  · simp only [List.mem_cons, List.mem_append] at hc
    rcases hc with rfl | rfl | hc | hc
    · rfl
    · rfl
    · exact hzeros _ c hc
    · exact h c hc
  · simp only [List.mem_append, List.mem_cons, List.not_mem_nil, or_false] at hc
    rcases hc with (hc | hc) | rfl | rfl
    · exact h c hc
    · exact hzeros _ c hc
    · rfl
    · rfl
  · simp only [List.append_nil, List.mem_append] at hc
    rcases hc with hc | hc
    · exact h c hc
    · exact hzeros _ c hc
  · simp only [List.mem_append, List.mem_cons] at hc
    rcases hc with hc | rfl | hc
    · exact h c (List.mem_of_mem_take hc)
    · rfl
    · exact h c (List.mem_of_mem_drop hc)

/-- A layout that never uses an exponent writes finite numbers with digits, a point and a sign. -/
theorem isNumeralChar_of_mem_text (hl : ∀ point, l.positional point = true) (x : FiniteDouble) :
    ∀ c ∈ (l.text x).toList, isNumeralChar c = true := by
  intro c hc
  rw [Layout.text, String.toList_ofList, List.mem_append] at hc
  rcases hc with hc | hc
  · split_ifs at hc
    · rw [List.mem_singleton.1 hc]
      rfl
    · cases hc
  · rw [Layout.magnitudeText] at hc
    split_ifs at hc with hzero hfraction
    · simp only [List.mem_cons, List.not_mem_nil, or_false] at hc
      rcases hc with rfl | rfl | rfl <;> rfl
    · rw [List.mem_singleton.1 hc]
      rfl
    · dsimp only at hc
      rw [if_pos (hl _)] at hc
      refine isNumeralChar_of_mem_positionalText (fun d hd => ?_) c hc
      exact isNumeralChar_of_isDigit (Nat.isDigit_of_mem_toDigits (by decide) (by decide) hd)

end Decimal

namespace Literal

/-- Literals that are written alike: equal ones, and numbers of one text. -/
inductive Alike : Literal → Literal → Prop
  | refl (l : Literal) : Alike l l
  | number {x y : Double} (h : numberLayout.textOf x = numberLayout.textOf y) :
      Alike (.number x) (.number y)

/-- The literal that a word other than a string stands for, given a reader of numbers. -/
def ofWord (number : String → Double) (word : String) : Literal :=
  if word = "true" then .bool true
  else if word = "false" then .bool false
  else if word = "null" then .null
  else .number (number word)

/-- Reads a literal up to its closing quote or a closing parenthesis. -/
def read? (number : String → Double) : List Char → Option (Literal × List Char)
  | '\x22' :: r =>
    (Json.stringChars? r.length r).map fun (s, r) => (.string (String.ofList s), r)
  | cs =>
    some (ofWord number (String.ofList (cs.takeWhile (· ≠ ')'))), cs.dropWhile (· ≠ ')'))

end Literal

/-- What follows a condition or a literal inside a text: nothing, or a closing parenthesis. -/
def Stops (r : List Char) : Prop :=
  ∀ c ∈ r.head?, c = ')'

@[simp] theorem stops_nil : Stops [] := by
  simp [Stops]

@[simp] theorem stops_close (r : List Char) : Stops (')' :: r) := by
  simp [Stops]

namespace Literal

open Decimal (isNumeralChar)

variable {number : String → Double} {r : List Char}

theorem Alike.text_eq {l l' : Literal} (h : l.Alike l') : l.text = l'.text := by
  cases h with
  | refl l => rfl
  | number h => exact h

theorem Alike.of_common {l l' m : Literal} (h : l.Alike m) (h' : l'.Alike m) : l.Alike l' := by
  cases h with
  | refl l =>
    cases h' with
    | refl l => exact .refl _
    | number h' => exact .number h'.symm
  | number h =>
    cases h' with
    | refl l => exact .number h
    | number h' => exact .number (h.trans h'.symm)

theorem read?_word {w : List Char} (hw : ∀ c ∈ w, c ≠ ')' ∧ c ≠ '\x22') (hr : Stops r) :
    read? number (w ++ r) = some (ofWord number (String.ofList w), r) := by
  have hinside : ∀ c ∈ w, decide (c ≠ ')') = true := fun c hc => decide_eq_true (hw c hc).1
  have hstop : ∀ c ∈ r.head?, decide (c ≠ ')') = false := fun c hc => by simp [hr c hc]
  rw [read?, List.takeWhile_append_of_stop hinside hstop,
    List.dropWhile_append_of_stop hinside hstop]
  intro t ht
  cases w with
  | nil =>
    obtain rfl : r = '\x22' :: t := ht
    exact absurd (hr '\x22' rfl) (by decide)
  | cons c w =>
    obtain rfl : c = '\x22' := (List.cons.inj ht).1
    exact (hw '\x22' List.mem_cons_self).2 rfl

theorem read?_quote (s : String) :
    read? number ((Json.quote s).toList ++ r) = some (.string s, r) := by
  have hfuel : s.toList.length ≤ (s.toList.flatMap Json.escapeChar ++ '\x22' :: r).length := by
    have := Json.length_le_length_escaped s.toList
    rw [List.length_append]
    omega
  rw [Json.quote, String.toList_ofList, Json.quotedChars, List.append_assoc, List.cons_append,
    List.singleton_append, read?, Json.stringChars?_escaped _ hfuel, Option.map_some]
  simp only [String.ofList_toList]

/-- A number is written in characters that end no literal, and never as one of the words for
other literals. -/
theorem numberText_plain (number : String → Double) (x : Double) :
    (∀ c ∈ (numberLayout.textOf x).toList, c ≠ ')' ∧ c ≠ '\x22') ∧
      ofWord number (numberLayout.textOf x) = .number (number (numberLayout.textOf x)) := by
  cases x with
  | finite x =>
    have hchars : ∀ c ∈ (numberLayout.text x).toList, isNumeralChar c = true :=
      Decimal.isNumeralChar_of_mem_text (fun _ => rfl) x
    have hne {word : String} (h : ∃ c ∈ word.toList, isNumeralChar c = false) :
        numberLayout.text x ≠ word := by
      rintro rfl
      obtain ⟨c, hc, hfalse⟩ := h
      rw [hchars c hc] at hfalse
      cases hfalse
    constructor
    · intro c hc
      have hnumeral := hchars c hc
      constructor <;> rintro rfl <;> cases hnumeral
    · rw [Decimal.Layout.textOf, ofWord, if_neg (hne ⟨'t', by decide, rfl⟩),
        if_neg (hne ⟨'f', by decide, rfl⟩), if_neg (hne ⟨'n', by decide, rfl⟩)]
  | infinite negative => cases negative <;> exact ⟨by simp [Decimal.Layout.textOf], rfl⟩
  | nan => exact ⟨by simp [Decimal.Layout.textOf], rfl⟩

/-- A number that is written as a given text, if there is one. -/
noncomputable def numberWrittenAs : String → Double :=
  have : Nonempty Double := ⟨.nan⟩
  Function.invFun numberLayout.textOf

theorem textOf_numberWrittenAs (x : Double) :
    numberLayout.textOf (numberWrittenAs (numberLayout.textOf x)) = numberLayout.textOf x :=
  have : Nonempty Double := ⟨.nan⟩
  Function.invFun_eq ⟨x, rfl⟩

/-- Every literal is read back as one that is written alike. -/
theorem exists_alike_read? (hnumber : ∀ x,
      numberLayout.textOf (number (numberLayout.textOf x)) = numberLayout.textOf x)
    (l : Literal) :
    ∃ l', l.Alike l' ∧ ∀ r, Stops r → read? number (l.text.toList ++ r) = some (l', r) := by
  cases l with
  | string s => exact ⟨_, .refl _, fun r _ => read?_quote s⟩
  | number x =>
    obtain ⟨hplain, hword⟩ := numberText_plain number x
    refine ⟨_, .number (hnumber x).symm, fun r hr => ?_⟩
    rw [text, read?_word hplain hr, String.ofList_toList, hword]
  | bool b =>
    refine ⟨_, .refl _, fun r hr => ?_⟩
    cases b <;> exact read?_word (by simp [text]) hr
  | null => exact ⟨_, .refl _, fun r hr => read?_word (by simp [text]) hr⟩

/-- Literals have the same text exactly if they are equal or numbers of one text. -/
theorem text_eq_iff_alike {l l' : Literal} : l.text = l'.text ↔ l.Alike l' := by
  obtain ⟨m, hm, hread⟩ := exists_alike_read? textOf_numberWrittenAs l
  obtain ⟨m', hm', hread'⟩ := exists_alike_read? textOf_numberWrittenAs l'
  refine ⟨fun h => ?_, Alike.text_eq⟩
  have hsame := hread [] stops_nil
  rw [h, hread' [] stops_nil] at hsame
  cases hsame
  exact hm.of_common hm'

end Literal

end LifecycleFlow
