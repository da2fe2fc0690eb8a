import Sc4snmp.Lib.Dict
import Sc4snmp.Lib.PyVal

/-!
# Profile configurations

A profile as it is written in the configuration: what to poll, how often and under
which condition.  Of the keys a profile may have, those the code reads.

## Main definitions

* `VarbindItem`, `ProfileCondition`, `ConditionValue`, `ConditionClause`, `ProfileBody`.
-/

namespace Sc4snmp

/-- An element of a varbind: a name or an index. -/
inductive VarbindItem
  | str (s : String)
  | int (i : ℤ)
  deriving DecidableEq, Repr, Inhabited

/-- `str(item)`. -/
def VarbindItem.format : VarbindItem → String
  | .str s => s
  | .int i => toString i

/-- The `condition` of a profile. -/
structure ProfileCondition where
  type : Option String := none
  field : Option String := none
  patterns : Option (List String) := none
  deriving DecidableEq, Repr

/-- An element of a list in a condition. -/
inductive ConditionItem
  | int (i : ℤ)
  | float (x : Float)
  | str (s : String)
  | bool (b : Bool)
  /-- Nothing, a list or a mapping. -/
  | other
  deriving DecidableEq, Repr

/-- The value of a condition. -/
inductive ConditionValue
  | scalar (item : ConditionItem)
  | list (items : List ConditionItem)
  deriving DecidableEq, Repr

/-- One of the `conditions` of a conditional profile. -/
structure ConditionClause where
  field : String
  operation : String
  value : ConditionValue
  negateOperation : PyVal := .none
  deriving DecidableEq, Repr

/-- A profile. -/
structure ProfileBody where
  frequency : Option ℤ := none
  varBinds : Option (List (List VarbindItem)) := none
  condition : Option ProfileCondition := none
  conditions : Option (List ConditionClause) := none
  deriving DecidableEq, Repr

/-- `profile.get("condition", {}).get("type")`. -/
def ProfileBody.conditionType (body : ProfileBody) : Option String :=
  body.condition.bind ProfileCondition.type

end Sc4snmp
