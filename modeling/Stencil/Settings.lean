/-!
# Settings

What can be chosen about the treatment of templates.
-/

namespace Stencil

/-- How templates are parsed and evaluated. -/
structure Settings where
  /-- How deep blocks and macro calls may be nested. -/
  maxDepth : Nat := 256
  /-- Whether one line break directly after a block directive is dropped. -/
  trimLineBreaks : Bool := true
  deriving DecidableEq, Repr

instance : Inhabited Settings := ⟨{}⟩

end Stencil
