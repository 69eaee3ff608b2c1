import ReleaseUpgrade.Object.Shape

/-!
# Label selectors and tolerations

The two small types that objects of several kinds share.
-/

namespace ReleaseUpgrade

/-- a condition on the value of one label -/
structure Requirement where
  key : String
  operator : String
  values : Option (List String) := none
  deriving DecidableEq

/-- conditions on the labels of an object: labels it must have and requirements it must meet -/
structure LabelSelector where
  expressions : Option (List Requirement) := none
  labels : Option (Dict String) := none
  deriving DecidableEq

/-- a taint that is accepted -/
structure Toleration where
  key : Option String := none
  operator : Option String := none
  value : Option String := none
  effect : Option String := none
  seconds : Option Int := none
  deriving DecidableEq

namespace Requirement

def ofJson? (j : Json) : Option Requirement := do
  let fs ← Shape.open? j
  some {
    key := ← Shape.memberOr fs "key" "" Json.str?
    operator := ← Shape.memberOr fs "operator" "" Json.str?
    values := ← Shape.member? fs "values" (Json.list? Json.str?) }

def toJson (r : Requirement) : Json :=
  .ofFields [("key", some (.str r.key)), ("operator", some (.str r.operator)),
    ("values", r.values.map Json.ofStrings)]

end Requirement

namespace LabelSelector

def ofJson? (j : Json) : Option LabelSelector := do
  let fs ← Shape.open? j
  some {
    expressions := ← Shape.member? fs "matchExpressions" (Json.list? Requirement.ofJson?)
    labels := ← Shape.member? fs "matchLabels" (Json.dict? Json.str?) }

def toJson (s : LabelSelector) : Json :=
  .ofFields [("matchExpressions", s.expressions.map fun rs => .arr (rs.map Requirement.toJson)),
    ("matchLabels", s.labels.map Json.ofStringDict)]

end LabelSelector

namespace Toleration

def ofJson? (j : Json) : Option Toleration := do
  let fs ← Shape.open? j
  let text (name : String) := Shape.member? fs name Json.str?
  some {
    key := ← text "key"
    operator := ← text "operator"
    value := ← text "value"
    effect := ← text "effect"
    seconds := ← Shape.member? fs "tolerationSeconds" Json.int64? }

def toJson (t : Toleration) : Json :=
  .ofFields [("key", t.key.map Json.str), ("operator", t.operator.map Json.str),
    ("value", t.value.map Json.str), ("effect", t.effect.map Json.str),
    ("tolerationSeconds", t.seconds.map Json.int)]

end Toleration

end ReleaseUpgrade
