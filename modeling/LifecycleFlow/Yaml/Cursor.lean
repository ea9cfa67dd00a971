/-!
# Reading YAML text

The characters of YAML text, places in it, and the gaps between words. A carriage return, a line
feed, both together and the next-line character are all the same break. Between two words of a scalar
spaces on one line are kept, a single line break is a space, and of several breaks all but the first
are kept; the line and paragraph separators stand for themselves. Main statement: an empty gap means
nothing.
-/
namespace LifecycleFlow.Yaml

def isAllowed (c : Char) : Bool :=
  let n := c.toNat
  n == 9 || n == 10 || n == 13 || (decide (32 ≤ n) && decide (n ≤ 126)) || n == 0x85 ||
    (decide (0xa0 ≤ n) && decide (n ≤ 0xd7ff)) || (decide (0xe000 ≤ n) && decide (n ≤ 0xfffd)) ||
    decide (0x10000 ≤ n)

/-- The text with one character for each line break. -/
def unifyBreaks : List Char → List Char
  | [] => []
  | '\r' :: '\n' :: r => '\n' :: unifyBreaks r
  | c :: r => (if c = '\r' ∨ c = '\u0085' then '\n' else c) :: unifyBreaks r

def isBreak (c : Char) : Bool :=
  c == '\n' || c == '\u2028' || c == '\u2029'

def isSpacing (c : Char) : Bool :=
  c == ' ' || c == '\t'

/-- A character that separates words: a space, a tab or a line break. -/
def isSeparator (c : Char) : Bool :=
  isSpacing c || isBreak c

/-- A character of a name: an ASCII letter or digit, an underscore or a hyphen. -/
def isNameChar (c : Char) : Bool :=
  c.isAlphanum || c == '_' || c == '-'

/-- A character that opens, closes or separates inside brackets. -/
def isFlowIndicator (c : Char) : Bool :=
  c == ',' || c == '[' || c == ']' || c == '{' || c == '}'

def atWordEnd : List Char → Bool
  | [] => true
  | c :: _ => isSeparator c

def atLineEnd : List Char → Bool
  | [] => true
  | c :: _ => isBreak c

/-- Whether one of the two document markers stands here; it counts at the start of a line only. -/
def atDocumentMarker : List Char → Bool
  | '-' :: '-' :: '-' :: r => atWordEnd r
  | '.' :: '.' :: '.' :: r => atWordEnd r
  | _ => false

structure Cursor where
  rest : List Char
  line : Nat := 0
  column : Nat := 0
  /-- The number of octets of the line before the place. -/
  offset : Nat := 0

def octetCount (cs : List Char) : Nat :=
  cs.foldl (fun n c => n + c.utf8Size) 0

namespace Cursor

def next (c : Cursor) : Cursor :=
  match c.rest with
  | [] => c
  | x :: r =>
    if isBreak x then ⟨r, c.line + 1, 0, 0⟩
    else ⟨r, c.line, c.column + 1, c.offset + x.utf8Size⟩

def skip (c : Cursor) (n : Nat) : Cursor :=
  { c with
    rest := c.rest.drop n
    column := c.column + n
    offset := c.offset + octetCount (c.rest.take n) }

/-- The characters of the line that satisfy a test, up to the first that does not, and the place
after them. -/
def span (c : Cursor) (p : Char → Bool) : List Char × Cursor :=
  let word := c.rest.takeWhile fun x => p x && !isBreak x
  (word, c.skip word.length)

def skipSpacing (c : Cursor) : Cursor :=
  (c.span isSpacing).2

/-- The start of the next line, if nothing but spaces and a comment comes before it; the end of
the text is such a start too. -/
def restOfLine? (c : Cursor) : Option Cursor :=
  let c := c.skipSpacing
  let c := match c.rest with
    | '#' :: _ => (c.span fun _ => true).2
    | _ => c
  if atLineEnd c.rest then some c.next else none

end Cursor

structure Gap where
  /-- Spaces and tabs, as long as no line break was met; the last one first. -/
  spaces : List Char := []
  /-- Whether a line break was met. -/
  broken : Bool := false
  /-- The first line break, unless it was escaped. -/
  first : Option Char := none
  /-- The later line breaks, the last one first. -/
  later : List Char := []

namespace Gap

def push (g : Gap) (c : Char) : Gap :=
  if isBreak c then
    if g.broken then { g with later := c :: g.later }
    else { g with spaces := [], broken := true, first := some c }
  else if g.broken then g
  else { g with spaces := c :: g.spaces }

/-- The gap after an escaped line break. -/
def escaped : Gap :=
  { broken := true }

def isEmpty (g : Gap) : Bool :=
  g.spaces.isEmpty && !g.broken

def text (g : Gap) : List Char :=
  if g.broken then
    if g.first = some '\n' then
      if g.later.isEmpty then [' '] else g.later.reverse
    else g.first.toList ++ g.later.reverse
  else g.spaces.reverse

@[simp] theorem text_empty : ({} : Gap).text = [] := rfl

end Gap

end LifecycleFlow.Yaml
