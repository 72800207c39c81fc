import Abla.Text.Utf8

/-!
# Lines from a buffered reader

Input is read through a buffer of 4096 bytes, and a line is what the buffer delivers at a time:
the bytes up to the next line feed, without it and without a carriage return just before it.
When a whole buffer holds no line feed, the buffer is delivered alone as a line; a carriage
return at its end stays behind, to be read with the line feed that may follow it. A long line
thus arrives in pieces of 4096 bytes, and a line of exactly 4096 bytes is followed by an empty
one. The last line needs no line feed and keeps a carriage return at its end.

Pieces are decoded as UTF-8, so a character cut by a buffer boundary becomes one U+FFFD per byte
on either side.
-/

namespace Abla

namespace LineReader

/-- The size of the reader's buffer in bytes. -/
def bufferSize : Nat := 4096

/-- The line feed. -/
def lineFeed : UInt8 := 10

/-- The carriage return. -/
def carriageReturn : UInt8 := 13

/-- Drops a carriage return at the end of a line. -/
def dropReturn (l : List UInt8) : List UInt8 :=
  if l.getLast? = some carriageReturn then l.dropLast else l

/-- The next line the reader delivers from the bytes that are left, and the bytes after it. -/
def next (bs : List UInt8) : List UInt8 × List UInt8 :=
  let before := bs.takeWhile (· ≠ lineFeed)
  if bufferSize ≤ before.length then
    let chunk := bs.take bufferSize
    if chunk.getLast? = some carriageReturn then (chunk.dropLast, bs.drop (bufferSize - 1))
    else (chunk, bs.drop bufferSize)
  else
    match bs.drop before.length with
    | [] => (before, [])
    | _ :: rest => (dropReturn before, rest)

/-- Reading a line from bytes that are left leaves fewer bytes. -/
theorem next_rest_lt (bs : List UInt8) (h : bs ≠ []) : (next bs).2.length < bs.length := by
  have hpos : 0 < bs.length := List.length_pos_iff.mpr h
  have hle : (bs.takeWhile (· ≠ lineFeed)).length ≤ bs.length :=
    (List.takeWhile_prefix _).length_le
  unfold next
  simp only
  split
  · rename_i hfull
    split <;> simp only [List.length_drop, bufferSize] at * <;> omega
  · split
    · simp only [List.length_nil]; omega
    · rename_i rest heq
      have hlen := congrArg List.length heq
      simp only [List.length_drop, List.length_cons] at hlen
      simp only
      omega

/-- The lines the reader delivers from bytes, until they run out. -/
def lines (bs : List UInt8) : List (List UInt8) :=
  if h : bs = [] then []
  else
    have : (next bs).2.length < bs.length := next_rest_lt bs h
    (next bs).1 :: lines (next bs).2
termination_by bs.length

end LineReader

/-- The lines of an input as the buffered reader delivers them, decoded as UTF-8. -/
def readerLines (input : String) : List String :=
  (LineReader.lines input.toUTF8.toList).map decodeReplacing

end Abla
