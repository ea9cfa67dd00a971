import LifecycleFlow.Text.Character
import LifecycleFlow.Yaml.Cursor

/-!
# Tags and anchors

Tags and anchors as they are written. A tag is a handle with a suffix, or a whole address between
angle brackets. An address is octets: percent signs can announce any of them, grouped as UTF-8 groups
them, so it need not be text, and a zero octet ends it. Main statement: no zero octet is left in an
address that was cut there.
-/
namespace LifecycleFlow.Yaml

/-- The octets of a tag. -/
abbrev Address := List UInt8

namespace Address

def ofChars (cs : List Char) : Address :=
  cs.flatMap String.utf8EncodeChar

def ofType (name : String) : Address :=
  ofChars ("tag:yaml.org,2002:" ++ name).toList

/-- The octets before the first zero octet. -/
def cut (a : Address) : Address :=
  a.takeWhile fun o => o ≠ 0

def isText (a : Address) : Bool :=
  (String.fromUTF8? ⟨a.toArray⟩).isSome

/-- Whether a tag is local: it begins with an exclamation mark. -/
def isLocal (a : Address) : Bool :=
  a.head? == some 0x21

theorem zero_not_mem_cut (a : Address) : 0 ∉ a.cut := by
  intro h
  have hall := List.all_eq_true.1 (List.all_takeWhile (p := fun o : UInt8 => o ≠ 0) (l := a))
  simpa using hall 0 h

end Address

namespace Tag

/-- A character of a tag. Commas and square brackets may stand between angle brackets only. -/
def isAddressChar (verbatim : Bool) (c : Char) : Bool :=
  isNameChar c || ";/?:@&=+$.%!~*'()".toList.contains c ||
    (verbatim && (c == ',' || c == '[' || c == ']'))

def octet? : List Char → Option (UInt8 × List Char)
  | '%' :: a :: b :: r => (Text.number? 16 [a, b]).map fun n => (n.toUInt8, r)
  | _ => none

def following? (first : UInt8) : Option Nat :=
  if first < 0x80 then some 0
  else if first < 0xc0 then none
  else if first < 0xe0 then some 1
  else if first < 0xf0 then some 2
  else if first < 0xf8 then some 3
  else none

def continuation? (n : Nat) (cs : List Char) : Option (Address × List Char) :=
  match n with
  | 0 => some ([], cs)
  | n + 1 => do
    let (o, r) ← octet? cs
    if o < 0x80 ∨ 0xc0 ≤ o then none
    let (more, r) ← continuation? n r
    return (o :: more, r)

/-- The octets that announce a character together. The character itself may be none of Unicode. -/
def octets? (cs : List Char) : Option (Address × List Char) := do
  let (first, r) ← octet? cs
  let (more, r) ← continuation? (← following? first) r
  return (first :: more, r)

def address? (fuel : Nat) (verbatim : Bool) (cs : List Char) : Option (Address × List Char) :=
  match fuel, cs with
  | 0, _ => none
  | _, [] => some ([], [])
  | fuel + 1, c :: r =>
    if !isAddressChar verbatim c then some ([], c :: r)
    else do
      let (part, r) ← if c = '%' then octets? (c :: r) else some (Address.ofChars [c], r)
      let (more, r) ← address? fuel verbatim r
      return (part ++ more, r)

def addressAt? (verbatim : Bool) (c : Cursor) : Option (Address × Cursor) := do
  let (address, rest) ← address? (c.rest.length + 1) verbatim c.rest
  return (address, c.skip (c.rest.length - rest.length))

/-- A handle at a place: an exclamation mark, letters, and a closing exclamation mark if there is
one. -/
def handleAt? (c : Cursor) : Option (List Char × Cursor) :=
  match c.rest with
  | '!' :: _ =>
    let (word, c) := (c.skip 1).span isNameChar
    match c.rest with
    | '!' :: _ => some ('!' :: word ++ ['!'], c.skip 1)
    | _ => some ('!' :: word, c)
  | _ => none

/-- Reads a tag: its handle and its suffix. A tag that is whole by itself has an empty handle. -/
def read? (inFlow : Bool) (c : Cursor) : Option (String × Address × Cursor) := do
  let (handle, suffix, c) ←
    match c.rest with
    | '!' :: '<' :: _ => do
      let (address, c) ← addressAt? true (c.skip 2)
      if address.isEmpty then none
      match c.rest with
      | '>' :: _ => some ([], address.cut, c.skip 1)
      | _ => none
    | _ => do
      let (handle, c) ← handleAt? c
      let (address, c) ← addressAt? false c
      if 1 < handle.length ∧ handle.getLast? = some '!' then
        if address.isEmpty then none
        some (handle, address.cut, c)
      else
        let suffix := (Address.ofChars (handle.drop 1) ++ address).cut
        some (if suffix.isEmpty then ([], Address.ofChars ['!'], c) else (['!'], suffix, c))
  if atWordEnd c.rest || (inFlow && c.rest.head? == some ',') then
    return (String.ofList handle, suffix, c)
  else none

def readName? (c : Cursor) : Option (String × Cursor) :=
  let (name, c) := c.span isNameChar
  let ends := atWordEnd c.rest ||
    (c.rest.head?).any fun x => "?:,]\x7d%@\x60".toList.contains x
  if name.isEmpty || !ends then none else some (String.ofList name, c)

end Tag

end LifecycleFlow.Yaml
