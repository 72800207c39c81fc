/-!
# Types of the LLVM target

The LLVM types that Abla programs lower to: integers of a bit width, pointers, `void`,
function types and arrays. `Ty.text` is the LLVM spelling: `i32`, `i8*`, `i32 (i32, i8*)*`,
`[3 x i8]`.
-/

namespace Abla.Ir

/-- An LLVM type. -/
inductive Ty where
  | int (bits : Nat)
  | ptr (pointee : Ty)
  | void
  | func (ret : Ty) (params : List Ty)
  | array (len : Nat) (elem : Ty)
  deriving Repr, Inhabited

namespace Ty

/-- `i32`. -/
abbrev i32 : Ty := .int 32
/-- `i1`. -/
abbrev i1 : Ty := .int 1
/-- `i8`. -/
abbrev i8 : Ty := .int 8
/-- `i8*`. -/
abbrev i8ptr : Ty := .ptr .i8

mutual

/-- The LLVM spelling of a type. -/
def text : Ty → String
  | .int n => "i" ++ toString n
  | .ptr t => t.text ++ "*"
  | .void => "void"
  | .func r ps => r.text ++ " (" ++ textList ps ++ ")"
  | .array n t => "[" ++ toString n ++ " x " ++ t.text ++ "]"

/-- The spellings of parameter types, separated by commas. -/
def textList : List Ty → String
  | [] => ""
  | [t] => t.text
  | t :: u :: us => t.text ++ ", " ++ textList (u :: us)

end

mutual

/-- Whether two types are the same type. -/
def same : Ty → Ty → Bool
  | .int a, .int b => a == b
  | .ptr a, .ptr b => same a b
  | .void, .void => true
  | .func r ps, .func s qs => same r s && sameList ps qs
  | .array n a, .array m b => n == m && same a b
  | _, _ => false

/-- Whether two lists of types are the same, position by position. -/
def sameList : List Ty → List Ty → Bool
  | [], [] => true
  | a :: as, b :: bs => same a b && sameList as bs
  | _, _ => false

end

/-- The function type a pointer to a function points to. -/
def pointee? : Ty → Option (Ty × List Ty)
  | .ptr (.func r ps) => some (r, ps)
  | _ => none

end Ty

end Abla.Ir
