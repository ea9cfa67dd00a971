import LifecycleFlow.Decimal
import LifecycleFlow.Yaml.ScalarStyle
import LifecycleFlow.Yaml.Tag

/-!
# From text to tokens

The tokens of YAML text, and splitting a text into them. Indentation opens and closes block
collections, and these starts and ends are tokens of their own. A key is recognised only when its
colon is met, so the place of every possible key is remembered until then; a key takes at most 1024
octets of one line.
-/
namespace LifecycleFlow.Yaml

inductive Token
  | version (major minor : Nat)
  | tagDirective (handle : String) (expansion : Address)
  | documentStart
  | documentEnd
  | blockSequenceStart
  | blockMappingStart
  | blockEnd
  | flowSequenceStart
  | flowSequenceEnd
  | flowMappingStart
  | flowMappingEnd
  | blockEntry
  | flowEntry
  | key
  | value
  | reference (name : String)
  | anchor (name : String)
  | tag (handle : String) (suffix : Address)
  | scalar (text : String) (plain : Bool)
  deriving DecidableEq

namespace Directive

/-- A part of a version number: one to nine digits. -/
def number? (c : Cursor) : Option (Nat × Cursor) :=
  let (digits, c) := c.span Char.isDigit
  if digits.isEmpty || decide (9 < digits.length) then none
  else some (Decimal.ofDigits 0 digits, c)

def version? (c : Cursor) : Option (Token × Cursor) := do
  let (major, c) ← number? c.skipSpacing
  match c.rest with
  | '.' :: _ => do
    let (minor, c) ← number? (c.skip 1)
    return (.version major minor, c)
  | _ => none

def tag? (c : Cursor) : Option (Token × Cursor) := do
  let (handle, c) ← Tag.handleAt? c.skipSpacing
  if handle ≠ ['!'] ∧ handle.getLast? ≠ some '!' then none
  if !(c.rest.head?).any isSpacing then none
  let (address, c) ← Tag.addressAt? true c.skipSpacing
  if address.isEmpty || !atWordEnd c.rest then none
  return (.tagDirective (String.ofList handle) address.cut, c)

def read? (c : Cursor) : Option (Token × Cursor) := do
  let (name, c) := c.span isNameChar
  if !atWordEnd c.rest then none
  let (token, c) ←
    if name = "YAML".toList then version? c
    else if name = "TAG".toList then tag? c
    else none
  let c ← c.restOfLine?
  return (token, c)

end Directive

/-- A place where a key may have begun. -/
structure PossibleKey where
  /-- The number of tokens before it. -/
  index : Nat
  line : Nat
  column : Nat
  offset : Nat
  /-- Whether nothing but a key can stand here. -/
  required : Bool
  deriving DecidableEq

structure Lexer where
  cursor : Cursor
  tokens : Array Token := #[]
  /-- The columns of the open block collections, the innermost first. -/
  columns : List Nat := []
  /-- The possible key of the innermost open bracket, or of the block outside all brackets. -/
  key : Option PossibleKey := none
  /-- The possible keys outside the innermost bracket. -/
  outerKeys : List (Option PossibleKey) := []
  /-- Whether a key may begin here. -/
  keyAllowed : Bool := true

namespace Lexer

def inFlow (l : Lexer) : Bool :=
  !l.outerKeys.isEmpty

def emit (l : Lexer) (t : Token) : Lexer :=
  { l with tokens := l.tokens.push t }

/-- Adds a token before those that follow a place. -/
def emitAt (l : Lexer) (index : Nat) (t : Token) : Lexer :=
  { l with tokens := l.tokens.insertIdxIfInBounds index t }

/-- Passes white space, comments and line breaks. A tab is no white space where a key may begin
outside brackets; a byte order mark may start a line. Outside brackets a key may begin after a line
break. -/
def skipBlank (fuel : Nat) (l : Lexer) : Lexer :=
  match fuel with
  | 0 => l
  | fuel + 1 =>
    match l.cursor.rest with
    | [] => l
    | c :: _ =>
      if isBreak c then
        skipBlank fuel { l with cursor := l.cursor.next, keyAllowed := l.keyAllowed || !l.inFlow }
      else if (c == '\ufeff' && l.cursor.column == 0) || c == ' ' ||
          (c == '\t' && (l.inFlow || !l.keyAllowed)) then
        skipBlank fuel { l with cursor := l.cursor.skip 1 }
      else if c == '#' then
        skipBlank fuel { l with cursor := (l.cursor.span fun _ => true).2 }
      else l

/-- Forgets the possible key of this level, unless it must be one. -/
def dropKey? (l : Lexer) : Option Lexer :=
  match l.key with
  | some k => if k.required then none else some { l with key := none }
  | none => some l

def saveKey? (l : Lexer) : Option Lexer :=
  if l.keyAllowed then do
    let required := !l.inFlow && l.columns.head? == some l.cursor.column
    let c := l.cursor
    let k := ⟨l.tokens.size, c.line, c.column, c.offset, required⟩
    let l ← l.dropKey?
    return { l with key := some k }
  else some l

/-- Keeps a possible key only while its line is not left and it is not too long. -/
def freshKey? (c : Cursor) : Option PossibleKey → Option (Option PossibleKey)
  | none => some none
  | some k =>
    if k.line < c.line ∨ k.offset + 1024 < c.offset then
      if k.required then none else some none
    else some (some k)

def dropStaleKeys? (l : Lexer) : Option Lexer := do
  let key ← freshKey? l.cursor l.key
  let outerKeys ← l.outerKeys.mapM (freshKey? l.cursor)
  return { l with key, outerKeys }

/-- Opens a block collection at a column, if the column lies further right than the innermost
one. -/
def openBlock (l : Lexer) (column : Nat) (index : Option Nat) (t : Token) : Lexer :=
  let further := match l.columns with
    | [] => true
    | n :: _ => decide (n < column)
  if l.inFlow || !further then l
  else
    let l := { l with columns := column :: l.columns }
    match index with
    | some i => l.emitAt i t
    | none => l.emit t

/-- Closes the block collections whose columns satisfy a test, from the innermost on. -/
def closeBlocks (l : Lexer) (p : Nat → Bool) : Lexer :=
  if l.inFlow then l
  else
    { l with
      tokens := (l.columns.takeWhile p).foldl (fun ts _ => ts.push .blockEnd) l.tokens
      columns := l.columns.dropWhile p }

/-- A token that takes some characters and stands by itself. -/
def punctuation (l : Lexer) (t : Token) (length : Nat) (keyAllowed : Bool) : Lexer :=
  { l.emit t with cursor := l.cursor.skip length, keyAllowed }

/-- A document marker: it ends all block collections. -/
def marker? (l : Lexer) (t : Token) : Option Lexer := do
  let l ← (l.closeBlocks fun _ => true).dropKey?
  return l.punctuation t 3 false

def directive? (l : Lexer) : Option Lexer := do
  let l ← (l.closeBlocks fun _ => true).dropKey?
  let (t, cursor) ← Directive.read? (l.cursor.skip 1)
  return { l.emit t with cursor, keyAllowed := false }

def openFlow? (l : Lexer) (t : Token) : Option Lexer := do
  let l ← l.saveKey?
  return { l.punctuation t 1 true with key := none, outerKeys := l.key :: l.outerKeys }

def closeFlow? (l : Lexer) (t : Token) : Option Lexer := do
  let l ← l.dropKey?
  let l := match l.outerKeys with
    | k :: r => { l with key := k, outerKeys := r }
    | [] => l
  return l.punctuation t 1 false

def flowEntry? (l : Lexer) : Option Lexer := do
  let l ← l.dropKey?
  return l.punctuation .flowEntry 1 true

def blockEntry? (l : Lexer) : Option Lexer := do
  if !l.inFlow && !l.keyAllowed then none
  let l ← (l.openBlock l.cursor.column none .blockSequenceStart).dropKey?
  return l.punctuation .blockEntry 1 true

def key? (l : Lexer) : Option Lexer := do
  if !l.inFlow && !l.keyAllowed then none
  let l ← (l.openBlock l.cursor.column none .blockMappingStart).dropKey?
  return l.punctuation .key 1 (!l.inFlow)

/-- A colon. If a possible key was remembered, it is one, and it begins a block mapping if none is
open at its column. -/
def value? (l : Lexer) : Option Lexer :=
  match l.key with
  | some k =>
    let l := (l.emitAt k.index .key).openBlock k.column (some k.index) .blockMappingStart
    some ({ l with key := none }.punctuation .value 1 false)
  | none =>
    if !l.inFlow && !l.keyAllowed then none
    else
      let l := l.openBlock l.cursor.column none .blockMappingStart
      some (l.punctuation .value 1 (!l.inFlow))

def name? (l : Lexer) (t : String → Token) : Option Lexer := do
  let l ← l.saveKey?
  let (name, cursor) ← Tag.readName? (l.cursor.skip 1)
  return { l.emit (t name) with cursor, keyAllowed := false }

def tag? (l : Lexer) : Option Lexer := do
  let l ← l.saveKey?
  let (handle, suffix, cursor) ← Tag.read? l.inFlow l.cursor
  return { l.emit (.tag handle suffix) with cursor, keyAllowed := false }

def blockScalar? (fuel : Nat) (l : Lexer) (literal : Bool) : Option Lexer := do
  let l ← l.dropKey?
  let (text, cursor) ← BlockScalar.read? fuel literal l.columns.head? (l.cursor.skip 1)
  return { l.emit (.scalar text false) with cursor, keyAllowed := true }

def quotedScalar? (fuel : Nat) (l : Lexer) (single : Bool) : Option Lexer := do
  let l ← l.saveKey?
  let (text, cursor) ← QuotedScalar.read? fuel single [] {} (l.cursor.skip 1)
  return { l.emit (.scalar text false) with cursor, keyAllowed := false }

def plainScalar? (fuel : Nat) (l : Lexer) : Option Lexer := do
  let l ← l.saveKey?
  let indent := match l.columns with
    | [] => 0
    | n :: _ => n + 1
  let (text, broken, cursor) ← PlainScalar.read? fuel l.inFlow indent [] {} l.cursor
  return { l.emit (.scalar text true) with cursor, keyAllowed := broken }

/-- Whether a plain scalar may begin with a character before the given rest. -/
def startsPlain (inFlow : Bool) (c : Char) (r : List Char) : Bool :=
  if c = '-' then !(r.head?).any isSpacing
  else if c = '?' ∨ c = ':' then !inFlow && !atWordEnd r
  else !(isSeparator c || isFlowIndicator c || "#&*!|>'\x22%@\x60".toList.contains c)

/-- Adds the next token, at a place where neither blanks nor the end of the text come first. -/
def token? (fuel : Nat) (l : Lexer) : Option Lexer :=
  match l.cursor.rest with
  | [] => none
  | c :: r =>
    let atStart := l.cursor.column == 0
    if atStart && c == '%' then l.directive?
    else if atStart && atDocumentMarker (c :: r) then
      l.marker? (if c = '-' then .documentStart else .documentEnd)
    else if c = '[' then l.openFlow? .flowSequenceStart
    else if c = '{' then l.openFlow? .flowMappingStart
    else if c = ']' then l.closeFlow? .flowSequenceEnd
    else if c = '}' then l.closeFlow? .flowMappingEnd
    else if c = ',' then l.flowEntry?
    else if c = '-' ∧ atWordEnd r then l.blockEntry?
    else if c = '?' ∧ (l.inFlow ∨ atWordEnd r) then l.key?
    else if c = ':' ∧ (l.inFlow ∨ atWordEnd r) then l.value?
    else if c = '*' then l.name? .reference
    else if c = '&' then l.name? .anchor
    else if c = '!' then l.tag?
    else if c = '|' ∧ !l.inFlow then l.blockScalar? fuel true
    else if c = '>' ∧ !l.inFlow then l.blockScalar? fuel false
    else if c = '\x27' then l.quotedScalar? fuel true
    else if c = '\x22' then l.quotedScalar? fuel false
    else if startsPlain l.inFlow c r then l.plainScalar? fuel
    else none

def run? (fuel : Nat) (l : Lexer) : Option (Array Token) :=
  match fuel with
  | 0 => none
  | fuel + 1 => do
    let l ← (l.skipBlank fuel).dropStaleKeys?
    let l := l.closeBlocks fun n => decide (l.cursor.column < n)
    if l.cursor.rest.isEmpty then
      let l ← (l.closeBlocks fun _ => true).dropKey?
      return l.tokens
    else run? fuel (← l.token? fuel)

end Lexer

/-- The tokens of a text, if it has any characters that YAML allows and no other. -/
def Token.ofText? (cs : List Char) : Option (List Token) :=
  if cs.all isAllowed then
    let cs := unifyBreaks cs
    (Lexer.run? (cs.length + 2) { cursor := { rest := cs } }).map Array.toList
  else none

end LifecycleFlow.Yaml
