/-!
# Directives in message templates

Some messages are built by reading a text as a template with no arguments. In a template a
`%` starts a directive: flags among `# 0 + -` and the space, an optional argument index in
brackets, a width, an optional precision after a `.` (itself with an optional index), an
optional index again, and then the verb character.

With no arguments every directive but `%%` is an error, written into the text in place of the
directive:

* a `*` width or precision writes `%!(BADWIDTH)` or `%!(BADPREC)`;
* a directive that read a `[` anywhere becomes `%!v(BADINDEX)`, and any other `%!v(MISSING)`,
  where `v` is its verb;
* a template that ends before the verb gets `%!(NOVERB)`.

An index is `[`, digits, `]`. A `[` that is not followed by a `]` spans the `[` alone; a `]`
after it spans through the first `]`. The last index before the verb is read only when the one
read last, if any, was not a well-formed number. A run of digits is read while its value is at
most a million; a width or precision with a longer run takes the rest of the template.
-/

namespace Abla

namespace Template

/-- Whether a character is a directive flag. -/
def isFlag (c : Char) : Bool := c = '#' || c = '0' || c = '+' || c = '-' || c = ' '

/-- The value of a run of decimal digits. -/
def numeralValue (ds : List Char) : Nat :=
  ds.foldl (fun n d => 10 * n + (d.toNat - '0'.toNat)) 0

/-- Whether a run of digits is too long to read: some digit follows a prefix worth more than a
million. Prefixes only grow, so the prefix without the last digit decides. -/
def tooLong (ds : List Char) : Bool :=
  ds.length ≥ 2 && numeralValue ds.dropLast > 1000000

/-- Whether the text between an index's brackets is a number. -/
def isIndexNumber (ds : List Char) : Bool :=
  !ds.isEmpty && ds.all Char.isDigit && !tooLong ds

/-- An argument index read at the head of a text. -/
structure IndexRead where
  /-- The number of characters it spans. -/
  width : Nat
  /-- Whether it is a number in brackets. -/
  wellFormed : Bool
  deriving Repr, DecidableEq

/-- The argument index at the head of a text, if the text starts with `[`. Texts shorter than
three characters and texts with no `]` give a one-character index. -/
def readIndex (cs : List Char) : Option IndexRead :=
  match cs with
  | '[' :: rest =>
    if cs.length < 3 then some ⟨1, false⟩
    else match rest.findIdx? (· = ']') with
      | some i => some ⟨i + 2, isIndexNumber (rest.take i)⟩
      | none => some ⟨1, false⟩
  | _ => none

/-- The state of a directive being read: what it has written so far, whether it has read a
`[`, whether the index read last was well formed, and the rest of the template. -/
structure Reading where
  notes : List Char
  sawIndex : Bool
  afterIndex : Bool
  rest : List Char

/-- Reads an optional index; without one, the last index is no longer the last thing read. -/
def Reading.index (r : Reading) : Reading :=
  match readIndex r.rest with
  | some i => { r with sawIndex := true, afterIndex := i.wellFormed, rest := r.rest.drop i.width }
  | none => { r with afterIndex := false }

/-- Reads a width or precision: a `*` writes its note, digits are skipped. A run of digits too
long to read takes the rest of the template with it. -/
def Reading.amount (r : Reading) (note : String) : Reading :=
  match r.rest with
  | '*' :: rest => { r with notes := r.notes ++ note.toList, afterIndex := false, rest }
  | cs =>
    let ds := cs.takeWhile Char.isDigit
    { r with rest := if tooLong ds then [] else cs.drop ds.length }

/-- Reads a directive's precision, if a `.` with something after it comes next. -/
def Reading.precision (r : Reading) : Reading :=
  match r.rest with
  | '.' :: rest@(_ :: _) => ({ r with rest } : Reading).index.amount "%!(BADPREC)"
  | _ => r

/-- Reads what stands between a directive's flags and its verb. -/
def Reading.beforeVerb (cs : List Char) : Reading :=
  let r := ({ notes := [], sawIndex := false, afterIndex := false, rest := cs } : Reading).index
  let r := (r.amount "%!(BADWIDTH)").precision
  if r.afterIndex then r else r.index

/-- One directive read after its `%`: the text it expands to and the rest of the template. -/
def directive (cs : List Char) : List Char × List Char :=
  let r := Reading.beforeVerb (cs.dropWhile isFlag)
  match r.rest with
  | [] => (r.notes ++ "%!(NOVERB)".toList, [])
  | v :: rest =>
    let text := if v = '%' then ['%']
      else if r.sawIndex then "%!".toList ++ [v] ++ "(BADINDEX)".toList
      else "%!".toList ++ [v] ++ "(MISSING)".toList
    (r.notes ++ text, rest)

/-- Expands the directives of a template that is given no arguments. -/
def expand (cs : List Char) : List Char :=
  match cs with
  | [] => []
  | c :: rest =>
    if c = '%' then
      let (text, after) := directive rest
      if after.length ≤ rest.length then text ++ expand after else text
    else c :: expand rest
termination_by cs.length

end Template

/-- The text of a template read with no arguments. -/
def expandTemplate (s : String) : String := String.ofList (Template.expand s.toList)

end Abla
