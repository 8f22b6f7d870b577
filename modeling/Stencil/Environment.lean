import Stencil.SortedNames
import Stencil.Value

/-!
# Environments

The variables that a template sees while it is evaluated.  At the bottom lies
the data of the caller, which is never written.  Above it stands the frame of
the program, which lives as long as the evaluation, and above that one frame
for every loop body being run.  A name stands for its innermost definition.
-/

namespace Stencil

/-- Definitions in frames over data. -/
structure Environment where
  data : Fields
  /-- The frame of the program. -/
  program : Fields := ∅
  /-- The frames of loop bodies, innermost first. -/
  loops : List Fields := []
  deriving Repr, Inhabited

namespace Environment

/-- All frames, innermost first. -/
def frames (environment : Environment) : List Fields :=
  environment.loops ++ [environment.program]

/-- The number of frames above the frame of the program. -/
def depth (environment : Environment) : Nat :=
  environment.loops.length

/-- Open an empty frame. -/
def push (environment : Environment) : Environment :=
  { environment with loops := ∅ :: environment.loops }

/-- Close the innermost frame; the frame of the program cannot be closed. -/
def pop? (environment : Environment) : Option (Fields × Environment) :=
  match environment.loops with
  | [] => none
  | frame :: loops => some (frame, { environment with loops })

/-- Close the innermost frame, if it is not the frame of the program. -/
def pop (environment : Environment) : Environment :=
  { environment with loops := environment.loops.tail }

def define (environment : Environment) (name : String) (value : Value) :
    Environment :=
  match environment.loops with
  | [] => { environment with program := environment.program.put name value }
  | frame :: loops =>
      { environment with loops := frame.put name value :: loops }

def get? (environment : Environment) (name : String) : Option Value :=
  (environment.frames.findSome? fun frame => frame.get? name).or
    (environment.data.get? name)

/-- The names that have a value, in increasing order. -/
def visibleNames (environment : Environment) : List String :=
  sortedNames (environment.frames.flatMap Named.names ++ environment.data.names)

@[simp] theorem depth_push (environment : Environment) :
    environment.push.depth = environment.depth + 1 := rfl

@[simp] theorem depth_define (environment : Environment) (name : String)
    (value : Value) :
    (environment.define name value).depth = environment.depth := by
  unfold define
  split <;> simp_all [depth]

end Environment

end Stencil
