import LifecycleFlow.Text.Character
import LifecycleFlow.Yaml.Cursor

/-!
# Styles of scalars

Scalars without quotes, between quotes, and in blocks of indented lines. A plain scalar ends before a
colon that ends a word, before a comment, before a line that is not indented enough, before a
document marker and, inside brackets, before a bracket or a comma. Between single quotes the only
escape is the doubled quote; between double quotes a backslash names a character or hides a line
break. Literal blocks keep their line breaks, folded ones join lines that are not indented further;
the header says what becomes of the breaks at the end and may fix the indentation.
-/
namespace LifecycleFlow.Yaml

namespace PlainScalar

def endsAt (inFlow : Bool) : List Char → Bool
  | [] => true
  | c :: r => (c == ':' && atWordEnd r) || (inFlow && isFlowIndicator c)

/-- Whether a colon stands before an indicator, which inside brackets is refused. -/
def isBadColon (inFlow : Bool) : List Char → Bool
  | ':' :: c :: _ => inFlow && (isFlowIndicator c || c == '?')
  | _ => false

/-- Reads a plain scalar. `indent` is the least column of its later lines, `text` what was read so
far, the last character first. The answer also tells whether a line break was passed at the end. -/
def read? (fuel : Nat) (inFlow : Bool) (indent : Nat) (text : List Char) (gap : Gap) (c : Cursor) :
    Option (String × Bool × Cursor) :=
  let done := some (String.ofList text.reverse, gap.broken, c)
  match fuel with
  | 0 => none
  | fuel + 1 =>
    match c.rest with
    | [] => done
    | x :: _ =>
      if isSeparator x then
        if gap.broken && decide (c.column < indent) && x == '\t' then none
        else read? fuel inFlow indent text (gap.push x) c.next
      else if !gap.isEmpty && !inFlow && decide (c.column < indent) then done
      else if c.column = 0 && atDocumentMarker c.rest then done
      else if !gap.isEmpty && x == '#' then done
      else if isBadColon inFlow c.rest then none
      else if endsAt inFlow c.rest then done
      else read? fuel inFlow indent (x :: gap.text.reverseAux text) {} (c.skip 1)

end PlainScalar

namespace QuotedScalar

def hexChar? (digits : List Char) : Option Char := do
  let n ← Text.number? 16 digits
  if (0xd800 ≤ n ∧ n ≤ 0xdfff) ∨ 0x10ffff < n then none else some (Char.ofNat n)

def letterEscape? : Char → Option Char
  | '0' => some '\x00'
  | 'a' => some '\x07'
  | 'b' => some '\x08'
  | 't' => some '\t'
  | '\t' => some '\t'
  | 'n' => some '\n'
  | 'v' => some '\x0b'
  | 'f' => some '\x0c'
  | 'r' => some '\r'
  | 'e' => some '\x1b'
  | ' ' => some ' '
  | '\x22' => some '\x22'
  | '/' => some '/'
  | '\\' => some '\\'
  | 'N' => some '\u0085'
  | '_' => some '\u00a0'
  | 'L' => some '\u2028'
  | 'P' => some '\u2029'
  | _ => none

/-- The number of hexadecimal digits after a letter that announces a code point. -/
def hexLength? : Char → Option Nat
  | 'x' => some 2
  | 'u' => some 4
  | 'U' => some 8
  | _ => none

/-- One piece of a quoted scalar at a character that is no separator: the closing quote, an escaped
line break, or a character with the number of characters it takes in the text. -/
inductive Piece
  | close
  | hiddenBreak
  | char (c : Char) (length : Nat)

def piece? (single : Bool) : List Char → Option Piece
  | [] => none
  | c :: r =>
    if single then
      if c = '\x27' then
        match r with
        | '\x27' :: _ => some (.char '\x27' 2)
        | _ => some .close
      else some (.char c 1)
    else if c = '\x22' then some .close
    else if c = '\\' then
      match r with
      | [] => none
      | e :: digits =>
        if isBreak e then some .hiddenBreak
        else match hexLength? e with
          | some n =>
            if digits.length < n then none
            else (hexChar? (digits.take n)).map (.char · (n + 2))
          | none => (letterEscape? e).map (.char · 2)
    else some (.char c 1)

/-- Reads a quoted scalar after its opening quote. `text` is what was read so far, the last
character first. -/
def read? (fuel : Nat) (single : Bool) (text : List Char) (gap : Gap) (c : Cursor) :
    Option (String × Cursor) :=
  match fuel with
  | 0 => none
  | fuel + 1 =>
    match c.rest with
    | [] => none
    | x :: _ =>
      if isSeparator x then read? fuel single text (gap.push x) c.next
      else if c.column = 0 && atDocumentMarker c.rest then none
      else
        let text := gap.text.reverseAux text
        match piece? single c.rest with
        | none => none
        | some .close => some (String.ofList text.reverse, c.skip 1)
        | some .hiddenBreak => read? fuel single text .escaped (c.skip 1).next
        | some (.char y n) => read? fuel single (y :: text) {} (c.skip n)

end QuotedScalar

namespace BlockScalar

inductive Chomping
  | strip
  | clip
  | keep
  deriving DecidableEq

structure Header where
  chomping : Chomping := .clip
  indent : Option Nat := none

def chomping (c : Cursor) : Option Chomping × Cursor :=
  match c.rest with
  | '+' :: _ => (some .keep, c.skip 1)
  | '-' :: _ => (some .strip, c.skip 1)
  | _ => (none, c)

def indentation? (c : Cursor) : Option (Option Nat × Cursor) :=
  match c.rest with
  | x :: _ =>
    match Text.digit? 10 x with
    | some 0 => none
    | some n => some (some n, c.skip 1)
    | none => some (none, c)
  | [] => some (none, c)

def header? (c : Cursor) : Option (Header × Cursor) := do
  let (sign, c) := chomping c
  let (indent, c) ← indentation? c
  let (sign, c) := if sign.isNone && indent.isSome then chomping c else (sign, c)
  let c ← c.restOfLine?
  return ({ chomping := sign.getD .clip, indent }, c)

/-- Passes indentation and empty lines. `indent` is none while the indentation is not yet known; the
answer then holds the widest one met. Tabs in the indentation are refused. -/
def skipEmptyLines? (fuel : Nat) (indent : Option Nat) (widest : Nat) (breaks : List Char)
    (c : Cursor) : Option (List Char × Nat × Cursor) :=
  match fuel with
  | 0 => none
  | fuel + 1 =>
    let inside := match indent with
      | some n => decide (c.column < n)
      | none => true
    match c.rest with
    | ' ' :: _ =>
      if inside then skipEmptyLines? fuel indent widest breaks (c.skip 1)
      else some (breaks.reverse, widest, c)
    | x :: _ =>
      let widest := max widest c.column
      if inside && x == '\t' then none
      else if isBreak x then skipEmptyLines? fuel indent widest (x :: breaks) c.next
      else some (breaks.reverse, widest, c)
    | [] => some (breaks.reverse, max widest c.column, c)

structure Lines where
  /-- The text, the last character first. -/
  text : List Char := []
  /-- The break at the end of the last line. -/
  lastBreak : Option Char := none
  /-- The breaks of the empty lines after it. -/
  emptyLines : List Char := []
  /-- Whether the last line began with a space or tab. -/
  further : Bool := false

/-- The break between the last line and the next one: a folded scalar turns it into a space, or
drops it before empty lines, unless one of the two lines is indented further. -/
def Lines.join (l : Lines) (literal further : Bool) : List Char :=
  if !literal && l.lastBreak == some '\n' && !l.further && !further then
    if l.emptyLines.isEmpty then [' '] else l.emptyLines
  else l.lastBreak.toList ++ l.emptyLines

def lines? (fuel : Nat) (literal : Bool) (indent : Nat) (l : Lines) (c : Cursor) :
    Option (Lines × Cursor) :=
  match fuel with
  | 0 => none
  | fuel + 1 =>
    if c.column = indent && !c.rest.isEmpty then
      let further := (c.rest.head?).any isSpacing
      let (word, c) := c.span fun _ => true
      let text := word.reverseAux ((l.join literal further).reverseAux l.text)
      let lastBreak := c.rest.head?
      do
        let (emptyLines, _, c) ← skipEmptyLines? fuel (some indent) 0 [] c.next
        lines? fuel literal indent { text, lastBreak, emptyLines, further } c
    else some (l, c)

/-- Reads a block scalar after its indicator. `parent` is the column of the collection around it. -/
def read? (fuel : Nat) (literal : Bool) (parent : Option Nat) (c : Cursor) :
    Option (String × Cursor) := do
  let (header, c) ← header? c
  let fixed := header.indent.map fun n => parent.getD 0 + n
  let (emptyLines, widest, c) ← skipEmptyLines? fuel fixed 0 [] c
  let least := match parent with
    | some n => n + 1
    | none => 1
  let indent := fixed.getD (max widest least)
  let (l, c) ← lines? fuel literal indent { emptyLines } c
  let tail := match header.chomping with
    | .strip => []
    | .clip => l.lastBreak.toList
    | .keep => l.lastBreak.toList ++ l.emptyLines
  return (String.ofList (tail.reverseAux l.text).reverse, c)

end BlockScalar

end LifecycleFlow.Yaml
