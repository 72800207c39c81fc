/-!
# Semantic versions

A version is written `vMAJOR[.MINOR[.PATCH[-PRERELEASE][+BUILD]]]`: numbers without leading
zeros, a pre-release of dot-separated identifiers of letters, digits and `-` (numeric ones
without leading zeros), and build metadata, which does not count in comparisons. A missing
minor or patch number is zero. Versions compare by major, minor and patch number, and then
a pre-release comes before the release; pre-releases compare identifier by identifier,
numbers below words.
-/

namespace Abla

namespace Semver

/-- A parsed version: its numbers as written, and its pre-release with the leading `-`. -/
structure Version where
  major : String
  minor : String
  patch : String
  pre : String
  deriving DecidableEq, Repr, Inhabited

/-- A number at the head of a text: digits, with no leading zero unless it is `0`. -/
def number (cs : List Char) : Option (List Char × List Char) :=
  match cs with
  | c :: _ =>
    if c.isDigit then
      let ds := cs.takeWhile Char.isDigit
      if c = '0' && ds.length ≠ 1 then none else some (ds, cs.drop ds.length)
    else none
  | [] => none

/-- Characters of pre-release and build identifiers. -/
def isIdentChar (c : Char) : Bool :=
  ('A' ≤ c && c ≤ 'Z') || ('a' ≤ c && c ≤ 'z') || c.isDigit || c = '-'

/-- A number with a leading zero. -/
def isBadNum (cs : List Char) : Bool := cs.all Char.isDigit && cs.length > 1 && cs.head? = some '0'

/-- Whether the identifiers of a pre-release or build part, separated by dots, are all
non-empty and made of identifier characters; a pre-release also refuses numbers with leading
zeros. -/
def identsOk (pre : Bool) (cs : List Char) : Bool :=
  let parts := (String.ofList cs).splitOn "."
  cs.all (fun c => isIdentChar c || c = '.') &&
    parts.all fun p => !p.isEmpty && !(pre && isBadNum p.toList)

/-- Parses a version. -/
def parse (v : String) : Option Version :=
  match v.toList with
  | 'v' :: rest => do
    let (major, r) ← number rest
    match r with
    | [] => some ⟨String.ofList major, "0", "0", ""⟩
    | '.' :: r => do
      let (minor, r) ← number r
      match r with
      | [] => some ⟨String.ofList major, String.ofList minor, "0", ""⟩
      | '.' :: r => do
        let (patch, r) ← number r
        let preLen := if r.head? = some '-' then (r.takeWhile (· ≠ '+')).length else 0
        let pre := r.take preLen
        let r := r.drop preLen
        if preLen > 0 && !identsOk true (pre.drop 1) then none
        else if r.head? = some '+' then
          if identsOk false (r.drop 1) then
            some ⟨String.ofList major, String.ofList minor, String.ofList patch, String.ofList pre⟩
          else none
        else if r.isEmpty then
          some ⟨String.ofList major, String.ofList minor, String.ofList patch, String.ofList pre⟩
        else none
      | _ => none
    | _ => none
  | _ => none

/-- Whether a text is a valid version. -/
def isValid (v : String) : Bool := (parse v).isSome

/-- The major prefix of a version, `vMAJOR`, or `""` for an invalid version. -/
def major (v : String) : String :=
  match parse v with
  | some p => "v" ++ p.major
  | none => ""

/-- Compares two numbers written without leading zeros. -/
def compareNum (x y : String) : Ordering :=
  if x = y then .eq
  else if x.length < y.length then .lt
  else if x.length > y.length then .gt
  else if x < y then .lt else .gt

/-- Compares two lists of pre-release identifiers. -/
def comparePreIdents : List String → List String → Ordering
  | [], [] => .eq
  | [], _ => .lt
  | _, [] => .gt
  | x :: xs, y :: ys =>
    if x = y then comparePreIdents xs ys
    else
      let nx := x.toList.all Char.isDigit
      let ny := y.toList.all Char.isDigit
      if nx ≠ ny then (if nx then .lt else .gt)
      else if nx && x.length ≠ y.length then (if x.length < y.length then .lt else .gt)
      else if x < y then .lt else .gt

/-- Compares two pre-release parts; a release, with none, comes after any pre-release. -/
def comparePre (x y : String) : Ordering :=
  if x = y then .eq
  else if x.isEmpty then .gt
  else if y.isEmpty then .lt
  else comparePreIdents ((x.drop 1).toString.splitOn ".") ((y.drop 1).toString.splitOn ".")

/-- Compares two versions; an invalid version comes before every valid one. -/
def compare (v w : String) : Ordering :=
  match parse v, parse w with
  | none, none => .eq
  | none, _ => .lt
  | _, none => .gt
  | some a, some b =>
    match compareNum a.major b.major with
    | .eq =>
      match compareNum a.minor b.minor with
      | .eq =>
        match compareNum a.patch b.patch with
        | .eq => comparePre a.pre b.pre
        | o => o
      | o => o
    | o => o

end Semver

end Abla
