import Abla.Typing.Type
import Abla.Ir.Type
import Abla.Report.Error

/-!
# From data types to LLVM types

`Int` is `i32`, `String` is `i8*`, `Bool` is `i1` and `Void` is `void`; a function type is a
pointer to an LLVM function type whose missing return is `void`. Parameters are mapped before
the return type, so the first class type met in that order is the one reported. A class type
has no LLVM form.
-/

namespace Abla

/-- The LLVM type of a primitive type. -/
def Prim.toIr : Prim → Ir.Ty
  | .int => .i32
  | .string => .i8ptr
  | .bool => .i1
  | .void => .void

mutual

/-- The LLVM type of a data type, or an `unknown type` error for a class type. -/
def DataType.toIr : DataType → Except CompileError Ir.Ty
  | .prim p => .ok p.toIr
  | .func ps r => do
    let params ← DataType.toIrList ps
    let ret ← DataType.retToIr r
    .ok (.ptr (.func ret params))
  | t@(.user _ _) =>
    .error { kind := .unknownType, message := "type `" ++ t.repr ++ "` has no backend representation" }

/-- The LLVM types of a list of data types, in order. -/
def DataType.toIrList : List DataType → Except CompileError (List Ir.Ty)
  | [] => .ok []
  | t :: ts => do
    let a ← t.toIr
    let as ← DataType.toIrList ts
    .ok (a :: as)

/-- The LLVM type of a return type; a missing return type is `void`. -/
def DataType.retToIr : Option DataType → Except CompileError Ir.Ty
  | none => .ok .void
  | some t => t.toIr

end

/-- The LLVM type of a type that may be missing; a missing type is an internal error. -/
def DataType.toIr? : Option DataType → Except CompileError Ir.Ty
  | none => .error (.internal "missing type")
  | some t => t.toIr

end Abla
