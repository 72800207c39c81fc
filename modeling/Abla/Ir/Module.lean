import Abla.Ir.Type

/-!
# LLVM modules

The part of LLVM that Abla programs lower to. A module holds private constant strings and
functions. A function defined here has one block, `entry`, holding arithmetic, comparisons
and calls and ending in a `ret`; a declared function has no block. Instructions are numbered
within their function from zero, in order, and an operand names an earlier instruction by
that number.
-/

namespace Abla.Ir

/-- An integer comparison. -/
inductive Pred where
  | eq | ne | sgt | slt | sge | sle
  deriving DecidableEq, Repr, Inhabited

/-- The LLVM name of a comparison. -/
def Pred.name : Pred → String
  | .eq => "eq"
  | .ne => "ne"
  | .sgt => "sgt"
  | .slt => "slt"
  | .sge => "sge"
  | .sle => "sle"

/-- An arithmetic instruction. -/
inductive Arith where
  | add | sub | mul | sdiv
  deriving DecidableEq, Repr, Inhabited

/-- The LLVM name of an arithmetic instruction. -/
def Arith.name : Arith → String
  | .add => "add"
  | .sub => "sub"
  | .mul => "mul"
  | .sdiv => "sdiv"

/-- A value an instruction uses. -/
inductive Operand where
  /-- An `i32` constant. -/
  | int (n : Int)
  /-- An `i1` constant. -/
  | bool (b : Bool)
  /-- A parameter of the enclosing function. -/
  | param (name : String) (ty : Ty)
  /-- A function, as a pointer of the given type. -/
  | func (name : String) (ty : Ty)
  /-- The address of the first byte of a string global of `len` bytes. -/
  | string (global : String) (len : Nat)
  /-- The result of an earlier instruction of the same function. -/
  | inst (index : Nat) (ty : Ty)
  deriving Repr, Inhabited

/-- The type of an operand. -/
def Operand.ty : Operand → Ty
  | .int _ => .i32
  | .bool _ => .i1
  | .param _ t => t
  | .func _ t => t
  | .string _ _ => .i8ptr
  | .inst _ t => t

/-- An instruction. -/
inductive Inst where
  | arith (op : Arith) (a b : Operand)
  | icmp (pred : Pred) (a b : Operand)
  /-- A call, and the type of its result. -/
  | call (callee : Operand) (args : List Operand) (ret : Ty)
  deriving Repr, Inhabited

/-- The type of an instruction's result. -/
def Inst.ty : Inst → Ty
  | .arith _ a _ => a.ty
  | .icmp _ _ _ => .i1
  | .call _ _ r => r

/-- A basic block: its instructions and its `ret`, once it has one; `some none` returns
nothing. -/
structure Block where
  name : String
  insts : Array Inst := #[]
  ret : Option (Option Operand) := none
  deriving Repr, Inhabited

/-- How a function is linked. -/
inductive Linkage where
  | none
  | internal
  | external
  deriving DecidableEq, Repr, Inhabited

/-- The LLVM name of a linkage; empty for the default. -/
def Linkage.name : Linkage → String
  | .none => ""
  | .internal => "internal"
  | .external => "external"

/-- A function parameter. -/
structure Param where
  name : String
  ty : Ty
  deriving Repr, Inhabited

/-- A function: defined when it has a block, declared otherwise. All use the C calling
convention. -/
structure Func where
  name : String
  linkage : Linkage := .none
  ret : Ty
  params : List Param := []
  blocks : Array Block := #[]
  deriving Repr, Inhabited

namespace Func

/-- The type of a pointer to the function. -/
def ptrTy (f : Func) : Ty := .ptr (.func f.ret (f.params.map (·.ty)))

/-- The function as an operand. -/
def operand (f : Func) : Operand := .func f.name f.ptrTy

/-- The number of instructions in the function. -/
def instCount (f : Func) : Nat := f.blocks.foldl (fun n b => n + b.insts.size) 0

end Func

/-- A private constant string, stored with a terminating zero byte. -/
structure Global where
  name : String
  text : String
  deriving Repr, Inhabited

/-- The number of bytes a string global holds, its terminating zero included. -/
def Global.size (g : Global) : Nat := g.text.utf8ByteSize + 1

/-- A module: string globals and functions, in the order they were added. -/
structure Module where
  globals : Array Global := #[]
  funcs : Array Func := #[]
  deriving Repr, Inhabited

namespace Module

/-- Adds a function; gives its index. -/
def addFunc (m : Module) (f : Func) : Module × Nat := ({ m with funcs := m.funcs.push f }, m.funcs.size)

/-- Changes the function at an index. -/
def modifyFunc (m : Module) (i : Nat) (g : Func → Func) : Module :=
  { m with funcs := m.funcs.modify i g }

/-- Appends an instruction to the last block of a function; gives the operand for its result. -/
def append (m : Module) (i : Nat) (inst : Inst) : Module × Operand :=
  let n := match m.funcs[i]? with
    | some f => f.instCount
    | none => 0
  let m' := m.modifyFunc i fun f =>
    { f with blocks := f.blocks.modify (f.blocks.size - 1) fun b => { b with insts := b.insts.push inst } }
  (m', .inst n inst.ty)

/-- Ends the last block of a function with a `ret`. -/
def setRet (m : Module) (i : Nat) (v : Option Operand) : Module :=
  m.modifyFunc i fun f =>
    { f with blocks := f.blocks.modify (f.blocks.size - 1) fun b => { b with ret := some v } }

end Module

end Abla.Ir
