/-!
# Sorted names

Names for people are listed in increasing order of their characters, each once.
-/

namespace Stencil

/-- Names in increasing order, each once. -/
def sortedNames (names : List String) : List String :=
  (names.mergeSort fun left right => decide (left ≤ right)).eraseDups

end Stencil
