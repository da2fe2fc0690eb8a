import Sc4snmp.Snmp.ProcessSnmpData
import Sc4snmp.Snmp.TrapCoercion

/-!
# The translation of a trap varbind

`_resolve_trap_varbind` of `snmp/tasks.py`.  pysnmp is given the name and the value as they are.
If that raises its `SmiError`, the object is looked up by its identifier, and the value is
coerced for the node that is found there.  What has no translation raises `SmiError`, which the
callers catch.  Anything else that pysnmp raises, and the `ValueError` of `int` for a value of too
many digits, leaves the task.

What pysnmp does is a parameter.  It finds the same for the same modules of a builder.

## Main definitions

* `PySnmp`, `SmiFailure` — pysnmp's part, and what it raises.
* `resolveTrapVarbind` — the source.
* `translated`, `Settles` — the translation of a varbind, and that none other than `SmiError` is
  raised.

## Main results

* `resolveTrapVarbind_eq` — the second attempt with the coerced value never gives anything.
-/

namespace Sc4snmp

/-! ### pysnmp -/

/-- What a call of pysnmp raises: its `SmiError`, or another exception. -/
inductive SmiFailure
  | smiError
  | other (err : PyError)

/-- The place of an object: its module, its symbol and what follows. -/
structure NodeLocation where
  modName : String
  symName : String
  suffix : List ℤ

/-- What the code reads of the node of an identity. -/
structure IdentityNode where
  mibNode : Option MibNode
  /-- `__class__.__name__` is `NotificationType`. -/
  isNotificationType : Bool

/-- What pysnmp does, over the MIB modules of a builder. -/
structure PySnmp (B : Type) where
  /-- `builder.load_modules`, and whether it returns. -/
  loadModules : B → String → B × Bool
  /-- How a varbind of an answer reads when the builder has more modules. -/
  reread : B → ResponseVarbind → ResponseVarbind
  /-- `ObjectType(ObjectIdentity(name), value).resolve_with_mib`. -/
  resolveObject : B → String → TrapValue → Except SmiFailure ResponseVarbind
  /-- `get_node_location`, whose result is three things or an exception. -/
  nodeLocation : B → List ℤ → Except SmiFailure NodeLocation
  /-- `ObjectIdentity(*identity_args).resolve_with_mib`, and `get_mib_node` of it. -/
  resolveIdentity : B → NodeLocation → Except SmiFailure IdentityNode
  /-- `resolve_with_mib` of an `ObjectType` of that identity and a value. -/
  resolveLocated : B → NodeLocation → TrapValue → Except SmiFailure ResponseVarbind

variable {B : Type}

/-! ### The source -/

/-- `0`, or digits the first of which is not zero. -/
def isOidComponent : List Char → Bool
  | [] => false
  | c :: cs =>
    (c = '0' && cs.isEmpty) ||
      ('1' ≤ c && c ≤ '9' && cs.all fun d => (Text.decimalValue d).isSome)

/-- `OID_VALIDATOR`; the end is also in front of a last newline. -/
def oidValidator (s : String) : Bool :=
  let cs := s.toList
  let cs := if cs.getLast? = some (Char.ofNat 10) then cs.dropLast else cs
  match Text.splitChars '.' cs with
  | [c] :: components => c ∈ ['0', '1', '2'] && components.all isOidComponent
  | _ => false

/-- `rfc1905.unSpecified`. -/
def unSpecified : Asn1Item := .other ""

/-- `_value_for_trap_resolve`. -/
def valueForTrapResolve (value : String) : TrapValue :=
  if Text.isBlank value then .asn1 unSpecified else .str value

/-- `_oid_tuple`; a `ValueError` of `int` becomes a `SmiError`. -/
def oidTuple (oid : String) : Except SmiFailure (List ℤ) :=
  ((Text.splitOn '.' oid).mapM fun x => (PyVal.str x).toInt).mapError fun _ => .smiError

/-- The location of a name; a `TypeError` and a `ValueError` become `SmiError` too. -/
def locateTrapVarbind (py : PySnmp B) (builder : B) (name : String) :
    Except SmiFailure NodeLocation := do
  (py.nodeLocation builder (← oidTuple name)).mapError fun
    | .other .typeError => .smiError
    | .other .valueError => .smiError
    | failure => failure

/-- `_coerce_trap_varbind_value` raises no `SmiError`. -/
def coerceAt (node : IdentityNode) (value : TrapValue) : Except SmiFailure TrapValue :=
  (coerceTrapVarbindValue value node.mibNode).mapError .other

/-- The identity of a location, with the value coerced for its node. -/
def resolveCoerced (py : PySnmp B) (builder : B) (loc : NodeLocation) (value : TrapValue) :
    Except SmiFailure ResponseVarbind := do
  let node ← py.resolveIdentity builder loc
  py.resolveLocated builder loc (← coerceAt node value)

/-- `_object_type_from_resolved_identity`. -/
def objectTypeFromResolvedIdentity (py : PySnmp B) (builder : B) (loc : NodeLocation)
    (value : TrapValue) : Except SmiFailure ResponseVarbind := do
  let node ← py.resolveIdentity builder loc
  if !node.isNotificationType && !(node.mibNode.any fun mibNode => mibNode.getSyntax.isSome) then
    .error .smiError
  else py.resolveLocated builder loc (← coerceAt node value)

/-- `try` and `except SmiError: pass`, with what comes behind. -/
def exceptSmiError {α : Type} (attempt rest : Except SmiFailure α) : Except SmiFailure α :=
  match attempt with
  | .error .smiError => rest
  | result => result

/-- `_resolve_trap_varbind`. -/
def resolveTrapVarbind (py : PySnmp B) (builder : B) (pair : String × String) :
    Except SmiFailure ResponseVarbind :=
  let value := valueForTrapResolve pair.2
  exceptSmiError (py.resolveObject builder pair.1 value)
    (if !oidValidator pair.1 then .error .smiError
    else do
      let loc ← locateTrapVarbind py builder pair.1
      exceptSmiError (resolveCoerced py builder loc value)
        (objectTypeFromResolvedIdentity py builder loc value))

/-! ### The second attempt -/

/-- What has no translation with the coerced value has none in the second attempt. -/
theorem objectTypeFromResolvedIdentity_of_smiError {py : PySnmp B} {builder : B}
    {loc : NodeLocation} {value : TrapValue}
    (h : resolveCoerced py builder loc value = .error .smiError) :
    objectTypeFromResolvedIdentity py builder loc value = .error .smiError := by
  unfold resolveCoerced at h
  unfold objectTypeFromResolvedIdentity
  cases hnode : py.resolveIdentity builder loc with
  | error failure =>
    rw [hnode] at h
    exact h
  | ok node =>
    rw [hnode] at h
    show (if _ then _ else _) = _
    split
    · rfl
    · exact h

/-- **The second attempt never gives anything.** -/
theorem resolveTrapVarbind_eq (py : PySnmp B) (builder : B) (pair : String × String) :
    resolveTrapVarbind py builder pair =
      exceptSmiError (py.resolveObject builder pair.1 (valueForTrapResolve pair.2))
        (if !oidValidator pair.1 then .error .smiError
        else do
          resolveCoerced py builder (← locateTrapVarbind py builder pair.1)
            (valueForTrapResolve pair.2)) := by
  unfold resolveTrapVarbind
  dsimp only
  congr 1
  split
  · rfl
  · cases locateTrapVarbind py builder pair.1 with
    | error failure => rfl
    | ok loc =>
      show exceptSmiError (resolveCoerced py builder loc _) _ = resolveCoerced py builder loc _
      unfold exceptSmiError
      split
      · next h => rw [objectTypeFromResolvedIdentity_of_smiError h, h]
      · rfl

/-! ### Translations -/

/-- The translation of a varbind, if it has one. -/
def translated (py : PySnmp B) (builder : B) (pair : String × String) : Option ResponseVarbind :=
  (resolveTrapVarbind py builder pair).toOption

/-- The translation of a varbind raises nothing that is not caught. -/
def Settles (py : PySnmp B) (builder : B) (pair : String × String) : Prop :=
  ∀ err, resolveTrapVarbind py builder pair ≠ .error (.other err)

/-- What the coercion raises is not caught. -/
theorem not_settles_of_coerce {py : PySnmp B} {builder : B} {pair : String × String}
    {loc : NodeLocation} {node : IdentityNode} {err : PyError}
    (hobject : py.resolveObject builder pair.1 (valueForTrapResolve pair.2) = .error .smiError)
    (hoid : oidValidator pair.1 = true) (hloc : locateTrapVarbind py builder pair.1 = .ok loc)
    (hnode : py.resolveIdentity builder loc = .ok node)
    (hcoerce : coerceTrapVarbindValue (valueForTrapResolve pair.2) node.mibNode = .error err) :
    ¬ Settles py builder pair := by
  intro h
  refine h err ?_
  rw [resolveTrapVarbind_eq, hobject, hoid, hloc]
  have hcoerced : coerceAt node (valueForTrapResolve pair.2) = .error (.other err) := by
    rw [coerceAt, hcoerce]
    rfl
  show resolveCoerced py builder loc (valueForTrapResolve pair.2) = _
  rw [resolveCoerced, hnode]
  show (coerceAt node (valueForTrapResolve pair.2) >>= _) = _
  rw [hcoerced]
  rfl

end Sc4snmp
