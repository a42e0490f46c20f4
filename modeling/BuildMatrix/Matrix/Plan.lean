import BuildMatrix.Matrix.Slug
import BuildMatrix.Text.Split

/-!
# Run plans

A run plan is one combination of axis values. It is executed as one run of the pipeline, in
isolation from the runs of the other plans.
-/

namespace BuildMatrix

/-- One combination of axis values, in the order in which the axes are declared. -/
structure Plan where
  assignments : List (String × String)
deriving DecidableEq, Repr

/-- A partial assignment of axis values. Plans that agree with it everywhere are not run. -/
abbrev Exclusion := List (String × String)

namespace Plan

/-- The value of the first axis with the given name. -/
def get? (plan : Plan) (axis : String) : Option String :=
  (plan.assignments.find? fun a => a.1 == axis).map (·.2)

/-- The name under which a plan is reported, such as `python-version=3.8, os=ubuntu`. -/
def label (plan : Plan) : String :=
  Text.joinWith ", " (plan.assignments.map fun a => a.1 ++ "=" ++ a.2)

/-- The axis names and values of a plan, joined by dashes. -/
def dashedText (plan : Plan) : String :=
  Text.joinWith "-" (plan.assignments.map fun a => a.1 ++ "-" ++ a.2)

/-- The name of a plan's directories, such as `python-version-3-8`. -/
def slug (plan : Plan) : String := String.ofList (Slug.ofChars plan.dashedText.toList)

/-- Whether the plan has the value that the rule gives, for each axis that the rule names. -/
def agrees (plan : Plan) (rule : Exclusion) : Bool :=
  rule.all fun a => plan.get? a.1 == some a.2

end Plan

end BuildMatrix
