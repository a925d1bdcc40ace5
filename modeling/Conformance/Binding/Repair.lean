import Conformance.LanguageVersion
import Conformance.Modifiers

/-!
Which modifiers and bodies a member may have, and what is made of a
declaration that breaks a rule.

Each rule set is a list of repairs, tried in order. A repair that applies
leaves a complaint and changes the draft, so that later repairs see a draft
that keeps the earlier rules. An interface member ends up abstract, or with an
implementation that is virtual unless the member is sealed, private or static.
-/

namespace Conformance

/-- What is wrong with the modifiers or the body of a member. -/
inductive Complaint where
  /-- The member may not have a modifier. -/
  | invalid (modifier : Modifier)
  /-- The language version lacks the feature that the member uses. -/
  | unavailable (feature : Feature) (version : LanguageVersion)
  /-- The member is abstract and has a body. -/
  | abstractWithBody
  /-- The member is extern and has a body. -/
  | externalWithBody
  /-- The member is extern and abstract. -/
  | externalAndAbstract
  /-- The member is abstract and sealed. -/
  | abstractAndSealed
  /-- The member is abstract and virtual. -/
  | abstractAndVirtual
  /-- The member is sealed without overriding anything. -/
  | sealedNotOverride
  /-- The member is private and abstract or virtual. -/
  | privateAndDispatched
  /-- The member is static and takes part in dispatch. -/
  | staticAndDispatched
  /-- The member is abstract in a type that is not. -/
  | abstractInConcreteType
  /-- The member has no body and needs one. -/
  | missingBody
deriving DecidableEq, Repr

/-- A member under repair. -/
structure Draft where
  modifiers : Modifiers
  hasBody : Bool
  /-- Whether an earlier repair has already said why a body is missing. -/
  bodyExcused : Bool := false
  complaints : List Complaint := []
deriving DecidableEq, Repr

namespace Draft

/-- Has a body, or is extern and gets one from elsewhere. -/
def hasImplementation (draft : Draft) : Bool := draft.hasBody || draft.modifiers.isExternal

/-- Replaces the modifiers. -/
def mapModifiers (f : Modifiers → Modifiers) (draft : Draft) : Draft :=
  { draft with modifiers := f draft.modifiers }

/-- Sets whether there is a body. -/
def withBody (hasBody : Bool) (draft : Draft) : Draft :=
  { draft with hasBody }

/-- Removes the modifiers that make a member abstract or virtual. -/
def withoutDispatch (draft : Draft) : Draft :=
  draft.mapModifiers fun m => { m with isVirtual := false, isAbstract := false }

/-- Whether a member is abstract or virtual. -/
def isDispatched (draft : Draft) : Bool := draft.modifiers.isVirtual || draft.modifiers.isAbstract

end Draft

/-- One rule, and what is done to a member that breaks it. -/
structure Repair where
  applies : Draft → Bool
  /-- What is reported. A repair without complaint adds what is implied. -/
  complaint? : Option Complaint := none
  change : Draft → Draft

/-- Tries a repair. -/
def Draft.repair (draft : Draft) (r : Repair) : Draft :=
  if r.applies draft then
    { r.change draft with complaints := draft.complaints ++ r.complaint?.toList }
  else draft

/-- Tries repairs in order. -/
def Draft.repairAll (draft : Draft) (repairs : List Repair) : Draft :=
  repairs.foldl Draft.repair draft

namespace Repair

/-- An abstract member has no body. -/
def abstractWithBody : Repair where
  applies d := d.modifiers.isAbstract && d.hasBody
  complaint? := some .abstractWithBody
  change := Draft.withBody false

/-- An extern member has no body. -/
def externalWithBody : Repair where
  applies d := d.modifiers.isExternal && d.hasBody
  complaint? := some .externalWithBody
  change := Draft.withBody false

/-- An abstract member is not extern. -/
def externalAndAbstract : Repair where
  applies d := d.modifiers.isAbstract && d.modifiers.isExternal
  complaint? := some .externalAndAbstract
  change := Draft.mapModifiers fun m => { m with isExternal := false }

/-- An abstract member is not sealed. -/
def abstractAndSealed : Repair where
  applies d := d.modifiers.isAbstract && d.modifiers.isSealed
  complaint? := some .abstractAndSealed
  change := Draft.mapModifiers fun m => { m with isSealed := false }

/-- An abstract member is not marked virtual. -/
def abstractAndVirtual : Repair where
  applies d := d.modifiers.isAbstract && d.modifiers.isVirtual
  complaint? := some .abstractAndVirtual
  change := Draft.mapModifiers fun m => { m with isVirtual := false }

/-- A private member is neither abstract nor virtual. -/
def privateAndDispatched : Repair where
  applies d := d.modifiers.isPrivate && d.isDispatched
  complaint? := some .privateAndDispatched
  change d := { d.withoutDispatch with bodyExcused := true }

/-! ## Members of interfaces -/

/-- An interface member overrides nothing. -/
def interfaceOverride : Repair where
  applies d := d.modifiers.isOverride
  complaint? := some (.invalid .override)
  change := Draft.mapModifiers fun m => { m with isOverride := false }

/-- A sealed interface member has an implementation. -/
def sealedWithoutBody : Repair where
  applies d := d.modifiers.isSealed && !d.hasImplementation
  complaint? := some .sealedNotOverride
  change := Draft.mapModifiers fun m => { m with isSealed := false }

/-- A sealed interface member is not virtual. -/
def sealedAndVirtual : Repair where
  applies d := d.modifiers.isSealed && d.modifiers.isVirtual
  complaint? := some (.invalid .sealed)
  change := Draft.mapModifiers fun m => { m with isSealed := false }

/-- A static interface member is neither abstract nor virtual. -/
def staticAndDispatched : Repair where
  applies d := d.modifiers.isStatic && d.isDispatched
  complaint? := some .staticAndDispatched
  change d := { d.withoutDispatch with bodyExcused := true }

/-- Whether an interface member needs a body that it does not have. -/
def lacksBody (d : Draft) : Bool :=
  !d.hasImplementation && !d.modifiers.isAbstract &&
    (d.modifiers.isVirtual || d.modifiers.isPrivate || d.modifiers.isStatic)

/-- A virtual, private or static interface member has an implementation. -/
def interfaceMissingBody : Repair where
  applies d := lacksBody d && !d.bodyExcused
  complaint? := some .missingBody
  change := Draft.withBody true

/-- A member whose dispatch was taken away is given a body. -/
def interfaceExcusedBody : Repair where
  applies d := lacksBody d && d.bodyExcused
  change := Draft.withBody true

/-- An interface member without an implementation is abstract. -/
def impliedAbstract : Repair where
  applies d := !d.hasImplementation
  change := Draft.mapModifiers fun m => { m with isAbstract := true }

/-- An interface member with an implementation is virtual unless it is sealed,
private or static. -/
def impliedVirtual : Repair where
  applies d := d.hasImplementation &&
    !(d.modifiers.isSealed || d.modifiers.isPrivate || d.modifiers.isStatic)
  change := Draft.mapModifiers fun m => { m with isVirtual := true }

/-- An interface member without an accessibility is public. -/
def impliedPublic : Repair where
  applies d := d.modifiers.accessibility?.isNone
  change := Draft.mapModifiers fun m => { m with isPublic := true }

/-- The rules for members of interfaces. -/
def ofInterface : List Repair :=
  [interfaceOverride, abstractWithBody, externalWithBody, externalAndAbstract, abstractAndSealed,
    abstractAndVirtual, sealedWithoutBody, sealedAndVirtual, privateAndDispatched,
    staticAndDispatched, interfaceMissingBody, interfaceExcusedBody, impliedAbstract,
    impliedVirtual, impliedPublic]

/-! ## Members of classes and structs -/

/-- A static member takes no part in dispatch. -/
def staticInClass : Repair where
  applies d := d.modifiers.isStatic && (d.isDispatched || d.modifiers.isOverride)
  complaint? := some .staticAndDispatched
  change := Draft.mapModifiers fun m =>
    { m with isVirtual := false, isAbstract := false, isOverride := false }

/-- A sealed member overrides one of a base class. -/
def sealedNotOverride : Repair where
  applies d := d.modifiers.isSealed && !d.modifiers.isOverride
  complaint? := some .sealedNotOverride
  change := Draft.mapModifiers fun m => { m with isSealed := false }

/-- An abstract member belongs to an abstract type. -/
def abstractInConcreteType (ownerIsAbstract : Bool) : Repair where
  applies d := d.modifiers.isAbstract && !ownerIsAbstract
  complaint? := some .abstractInConcreteType
  change := id

/-- A method has a body unless it is abstract or extern. -/
def missingBody (needsBody : Bool) : Repair where
  applies d := needsBody && !d.hasImplementation && !d.modifiers.isAbstract
  complaint? := some .missingBody
  change := Draft.withBody true

/-- A member of a class without an accessibility is private. -/
def impliedPrivate : Repair where
  applies d := d.modifiers.accessibility?.isNone
  change := Draft.mapModifiers fun m => { m with isPrivate := true }

/-- The rules for members of classes and structs. -/
def ofClass (ownerIsAbstract needsBody : Bool) : List Repair :=
  [abstractWithBody, externalWithBody, externalAndAbstract, abstractAndVirtual, staticInClass,
    privateAndDispatched, sealedNotOverride, abstractAndSealed,
    abstractInConcreteType ownerIsAbstract, missingBody needsBody, impliedPrivate]

/-! ## Explicit implementations -/

/-- An explicit implementation may not have this modifier. -/
def invalidForExplicit (modifier : Modifier) : Repair where
  applies d := d.modifiers.has modifier
  complaint? := some (.invalid modifier)
  change := Draft.mapModifiers fun m => m \ .ofList [modifier]

/-- The modifiers that an explicit implementation may not have: those that
give an accessibility, and those that say how calls are dispatched. -/
def explicitInvalid : List Modifier :=
  Modifier.all.filter fun modifier => modifier ≠ .external ∧ modifier ≠ .async

/-- The rules for explicit implementations, in whatever type. -/
def ofExplicit (needsBody : Bool) : List Repair :=
  explicitInvalid.map invalidForExplicit ++ [externalWithBody, missingBody needsBody]

end Repair

/-- The rule set that a member is checked against. -/
inductive Container where
  | interfaceType
  | classType
  /-- A member that names the interface it implements, in any type. -/
  | explicit
deriving DecidableEq, Repr

/-- What is known of the place of a member. -/
structure MemberRules where
  container : Container
  /-- Whether the type of the member is abstract. -/
  ownerIsAbstract : Bool
  /-- Whether the member itself has a body, and not its accessors. -/
  needsBody : Bool
  /-- The language version, if it lacks bodies and modifiers in interfaces. -/
  outdated? : Option LanguageVersion
deriving DecidableEq, Repr

namespace MemberRules

/-- The repairs of a rule set. -/
def repairs (rules : MemberRules) : List Repair :=
  match rules.container with
  | .interfaceType => Repair.ofInterface
  | .classType => Repair.ofClass rules.ownerIsAbstract rules.needsBody
  | .explicit => Repair.ofExplicit rules.needsBody

/-- The version that is too old for an interface member with these modifiers
and body. Only `new` is allowed in all versions. -/
def tooOld? (rules : MemberRules) (declared : Modifiers) (hasBody : Bool) :
    Option LanguageVersion :=
  if rules.container = .interfaceType ∧ (hasBody ∨ { declared with isNew := false } ≠ ∅) then
    rules.outdated?
  else none

/-- Checks a member, and makes of it what the rules allow. A member that the
language version is too old for becomes public and abstract. -/
def apply (rules : MemberRules) (declared : Modifiers) (hasBody : Bool) : Draft :=
  match rules.tooOld? declared hasBody with
  | some version =>
    { modifiers := { isNew := declared.isNew, isPublic := true, isAbstract := true }
      hasBody := false
      complaints := [.unavailable .defaultInterfaceImplementation version] }
  | none => ({ modifiers := declared, hasBody } : Draft).repairAll rules.repairs

end MemberRules

end Conformance
