/-!
# Identifiers of projects

A valid identifier is a non-empty run of ASCII letters, underscores and, after the first
character, ASCII digits.
-/

namespace Abla

/-- Whether a text is a valid identifier. -/
def isValidIdentifier (s : String) : Bool :=
  match s.toList with
  | [] => false
  | c :: cs => (c.isAlpha || c = '_') && cs.all (fun d => d.isAlpha || d = '_' || d.isDigit)

end Abla
