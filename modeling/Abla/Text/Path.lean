/-!
# Slash-separated paths

Unit names and output files are paths whose elements are separated by `/`. `Path.clean` gives
the shortest path naming the same file by purely lexical rules: runs of slashes become one,
`.` elements go, an element followed by `..` goes with it, and a `..` at the start of a
rooted path goes. An empty result is `.`. `Path.join`, `Path.dir`, `Path.base` and
`Path.ext` build on it.
-/

namespace Abla

namespace Path

/-- Whether a path is rooted. -/
def isAbs (p : String) : Bool := p.startsWith "/"

/-- Drops the elements `.` and folds `..` into the element before it. The kept elements are in
reverse order in `acc`; a `..` that cannot fold is kept unless the path is rooted. -/
def fold (rooted : Bool) : List String → List String → List String
  | acc, [] => acc
  | acc, e :: es =>
    if e = "" ∨ e = "." then fold rooted acc es
    else if e = ".." then
      match acc with
      | a :: rest => if a = ".." then fold rooted (e :: acc) es else fold rooted rest es
      | [] => if rooted then fold rooted [] es else fold rooted [e] es
    else fold rooted (e :: acc) es

/-- The shortest lexically equal path. -/
def clean (p : String) : String :=
  let rooted := isAbs p
  let elems := (fold rooted [] (p.splitOn "/")).reverse
  let body := "/".intercalate elems
  if rooted then "/" ++ body
  else if body = "" then "." else body

/-- Joins two paths with a slash and cleans the result; an empty part is left out. -/
def join (a b : String) : String :=
  if a = "" then (if b = "" then "" else clean b)
  else if b = "" then clean a
  else clean (a ++ "/" ++ b)

/-- All but the last element of a path, cleaned; `.` for a path of one element. -/
def dir (p : String) : String :=
  let cs := p.toList
  let upto := (cs.reverse.dropWhile (· ≠ '/')).reverse
  clean (String.ofList upto)

/-- The last element of a path, trailing slashes removed; `.` for the empty path and `/` for
a path of slashes only. -/
def base (p : String) : String :=
  if p = "" then "."
  else
    let cs := (p.toList.reverse.dropWhile (· = '/')).reverse
    if cs = [] then "/"
    else String.ofList (cs.reverse.takeWhile (· ≠ '/')).reverse

/-- The extension of a path: from the last `.` of its last element on, or `""`. -/
def ext (p : String) : String :=
  let last := (p.toList.reverse.takeWhile (· ≠ '/')).reverse
  match (last.reverse.findIdx? (· = '.')) with
  | some i => String.ofList (last.drop (last.length - 1 - i))
  | none => ""

/-- A path made absolute against a working directory, cleaned. -/
def resolve (cwd p : String) : String :=
  if isAbs p then clean p else join cwd p

end Path

end Abla
