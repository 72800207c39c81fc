import Abla.Report.Error

/-!
# The generator's stacks

While a function is generated, the generator keeps a stack of blocks it emits into, each
with a flag telling whether the block has returned, and a stack of values that expressions
leave behind. Taking from an empty stack, or emitting into a block that has returned, is an
internal error.
-/

namespace Abla

/-- A block being filled: its contents, its scope and whether it has returned. -/
structure Frame (β : Type) where
  block : β
  scope : Nat
  returned : Bool := false
  deriving Inhabited

/-- The block stack, innermost last, and the value stack, top last. -/
structure GenStack (β ν : Type) where
  blocks : List (Frame β) := []
  values : List ν := []
  deriving Inhabited

namespace GenStack

variable {β ν : Type}

/-- The error of a missing block. -/
def noBlock : CompileError := .internal "block stack is empty"

/-- Pushes a block. -/
def pushBlock (g : GenStack β ν) (b : β) (scope : Nat) : GenStack β ν :=
  { g with blocks := g.blocks ++ [⟨b, scope, false⟩] }

/-- The innermost block. -/
def current (g : GenStack β ν) : Except CompileError (Frame β) :=
  match g.blocks.getLast? with
  | some f => .ok f
  | none => .error noBlock

/-- Pops the innermost block. -/
def popBlock (g : GenStack β ν) : Except CompileError (Frame β × GenStack β ν) := do
  let f ← g.current
  .ok (f, { g with blocks := g.blocks.dropLast })

/-- Replaces the innermost block. -/
def setCurrent (g : GenStack β ν) (f : Frame β) : GenStack β ν :=
  { g with blocks := g.blocks.dropLast ++ [f] }

/-- Marks the innermost block as returned. -/
def markReturned (g : GenStack β ν) : Except CompileError (GenStack β ν) := do
  let f ← g.current
  .ok (g.setCurrent { f with returned := true })

/-- The innermost block, if more may be emitted into it; the span is that of the code to
emit. -/
def emitTarget (g : GenStack β ν) (span : Option Span) : Except CompileError (Frame β) := do
  let f ← g.current
  if f.returned then .error { kind := .internalState, span := span, message := "emission into a terminated block" }
  else .ok f

/-- Pushes a value. -/
def pushValue (g : GenStack β ν) (v : ν) : GenStack β ν := { g with values := g.values ++ [v] }

/-- Pops the top value. -/
def popValue (g : GenStack β ν) : Except CompileError (ν × GenStack β ν) :=
  match g.values.getLast? with
  | some v => .ok (v, { g with values := g.values.dropLast })
  | none => .error (.internal "value stack is empty")

/-- The top value, if any. -/
def topValue (g : GenStack β ν) : Option ν := g.values.getLast?

/-- The number of values. -/
def depth (g : GenStack β ν) : Nat := g.values.length

/-- Keeps only the bottom `n` values. -/
def truncate (g : GenStack β ν) (n : Nat) : GenStack β ν := { g with values := g.values.take n }

/-- Drops all values. -/
def clearValues (g : GenStack β ν) : GenStack β ν := { g with values := [] }

/-- Drops all blocks and values. -/
def reset (_ : GenStack β ν) : GenStack β ν := {}

@[simp] theorem depth_pushValue (g : GenStack β ν) (v : ν) : (g.pushValue v).depth = g.depth + 1 := by
  simp [pushValue, depth]

@[simp] theorem popValue_pushValue (g : GenStack β ν) (v : ν) :
    (g.pushValue v).popValue = .ok (v, g) := by
  simp [pushValue, popValue]

end GenStack

end Abla
