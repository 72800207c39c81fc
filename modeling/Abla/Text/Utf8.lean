/-!
# Decoding UTF-8 with replacement

Bytes are read as UTF-8 one well-formed sequence at a time: a byte below `0x80` alone, or a
lead byte with the continuation bytes its range allows (the shortest form only, no surrogates,
nothing above U+10FFFF). A byte that starts no well-formed sequence becomes U+FFFD on its own,
so a character cut in two gives one U+FFFD for each of its bytes.
-/

namespace Abla

namespace Utf8

/-- Whether a byte lies in a closed range. -/
def within (b : UInt8) (lo hi : Nat) : Bool := lo ≤ b.toNat && b.toNat ≤ hi

/-- Whether a byte continues a sequence. -/
def isCont (b : UInt8) : Bool := within b 0x80 0xBF

/-- The low six bits of a continuation byte. -/
def low (b : UInt8) : Nat := b.toNat % 64

/-- The well-formed sequence that a lead byte starts before the given bytes: its code point and
the number of continuation bytes it takes. -/
def lead? (b : UInt8) (rest : List UInt8) : Option (Nat × Nat) :=
  if b.toNat < 0x80 then some (b.toNat, 0)
  else if within b 0xC2 0xDF then
    match rest with
    | c :: _ => if isCont c then some ((b.toNat % 32) * 64 + low c, 1) else none
    | [] => none
  else if within b 0xE0 0xEF then
    match rest with
    | c :: d :: _ =>
      let second := if b.toNat = 0xE0 then within c 0xA0 0xBF
        else if b.toNat = 0xED then within c 0x80 0x9F else isCont c
      if second && isCont d then some ((b.toNat % 16) * 4096 + low c * 64 + low d, 2) else none
    | _ => none
  else if within b 0xF0 0xF4 then
    match rest with
    | c :: d :: e :: _ =>
      let second := if b.toNat = 0xF0 then within c 0x90 0xBF
        else if b.toNat = 0xF4 then within c 0x80 0x8F else isCont c
      if second && isCont d && isCont e then
        some ((b.toNat % 8) * 262144 + low c * 4096 + low d * 64 + low e, 3)
      else none
    | _ => none
  else none

/-- The characters of bytes, each byte that starts no well-formed sequence read as U+FFFD. -/
def decode : List UInt8 → List Char
  | [] => []
  | b :: rest =>
    match lead? b rest with
    | some (n, k) => Char.ofNat n :: decode (rest.drop k)
    | none => '�' :: decode rest
termination_by bs => bs.length
decreasing_by
  all_goals simp only [List.length_cons, List.length_drop]
  all_goals omega

end Utf8

/-- The text of bytes, each byte that starts no well-formed sequence read as U+FFFD. -/
def decodeReplacing (bs : List UInt8) : String := String.ofList (Utf8.decode bs)

end Abla
