import BuildMatrix.Matrix.Plan

/-!
# Matrix expansion

A build matrix is a list of axes and a list of exclusions. Its expansion is the Cartesian product
of the axes in lexicographic order, the last axis varying fastest, without the excluded plans.
-/

namespace BuildMatrix

/-- One axis of the build matrix, such as `python-version` with the values `3.7` and `3.8`. -/
structure Axis where
  name : String
  values : List String
deriving DecidableEq, Repr

/-- Declared axes, and the partial assignments that are left out of their product. -/
structure Matrix where
  axes : List Axis
  exclusions : List Exclusion := []
deriving DecidableEq, Repr

namespace Matrix

/-- All ways to choose one value of each axis. -/
def combinations : List Axis → List (List (String × String))
  | [] => [[]]
  | axis :: axes =>
    axis.values.flatMap fun value => (combinations axes).map fun rest => (axis.name, value) :: rest

/-- The plans of a matrix. A matrix without axes has none. -/
def expand (m : Matrix) : List Plan :=
  if m.axes.isEmpty then []
  else ((combinations m.axes).map Plan.mk).filter fun plan =>
    !(m.exclusions.any fun rule => plan.agrees rule)

end Matrix

end BuildMatrix
