import Conformance.Binding.Member
import Conformance.Proofs.Symbol.WellFormed
import Conformance.Symbol.Signature

/-!
Outlines of symbols.

The outline of an assembly holds what resolution and the checks look at in symbols
of other assemblies, with names in place of ids, so that outlines of different tables
can be compared. It leaves out the targets of explicit implementations: they follow
from outlines.
-/

namespace Conformance

/-! ## Members -/

/-- What resolution and the checks look at in a member. -/
structure MemberOutline where
  key : SignatureKey
  signature : Signature
  explicitInterface : Option String
  isStatic : Bool
  isPublic : Bool
  isPrivate : Bool
  /-- Types can implement the member. -/
  implementable : Bool
  /-- Types can implement the member explicitly. -/
  candidate : Bool
  /-- The member can be implemented, and implements itself. -/
  implemented : Bool
deriving DecidableEq

/-- A member with its accessors. -/
structure BlockOutline where
  head : MemberOutline
  accessors : List MemberOutline
deriving DecidableEq

namespace MemberSymbol

/-- Whether a member of a type can be implemented, given whether the type is an
interface. -/
def implementableIn (member : MemberSymbol) (inside : Bool) : Bool :=
  inside && !member.isExplicit &&
    (member.modifiers.isAbstract || member.modifiers.isVirtual || member.modifiers.isSealed) &&
    !member.modifiers.isStatic && !member.isPrivate

/-- The outline of a member of a type, given whether the type is an interface. -/
def outline (member : MemberSymbol) (inside : Bool) : MemberOutline where
  key := .ofMember member
  signature := member.signature
  explicitInterface := member.explicitInterface
  isStatic := member.modifiers.isStatic
  isPublic := member.isPublic
  isPrivate := member.isPrivate
  implementable := member.implementableIn inside
  candidate := member.implementableIn inside && !member.modifiers.isSealed
  implemented := member.implementableIn inside && member.hasImplementation

/-- Outlines agree if accessibility does and, where members can be implemented,
dispatch does. -/
theorem outline_congr {first second : MemberSymbol} {inside : Bool}
    (key : SignatureKey.ofMember second = SignatureKey.ofMember first)
    (signature : second.signature = first.signature)
    (explicitInterface : second.explicitInterface = first.explicitInterface)
    (isStatic : second.modifiers.isStatic = first.modifiers.isStatic)
    (access : second.modifiers.accessibility? = first.modifiers.accessibility?)
    (dispatch : inside = true → first.explicitInterface = none → first.isPrivate = false →
      second.modifiers.isAbstract = first.modifiers.isAbstract ∧
        second.modifiers.isVirtual = first.modifiers.isVirtual ∧
        second.modifiers.isSealed = first.modifiers.isSealed ∧
        second.hasImplementation = first.hasImplementation) :
    second.outline inside = first.outline inside := by
  have accessibility : second.accessibility = first.accessibility := by
    rw [MemberSymbol.accessibility, MemberSymbol.accessibility, access]
  have isPrivate : second.isPrivate = first.isPrivate := by
    rw [MemberSymbol.isPrivate, MemberSymbol.isPrivate, accessibility]
  have isPublic : second.isPublic = first.isPublic := by
    rw [MemberSymbol.isPublic, MemberSymbol.isPublic, accessibility]
  have isExplicit : second.isExplicit = first.isExplicit := by
    rw [MemberSymbol.isExplicit, MemberSymbol.isExplicit, explicitInterface]
  by_cases reached : inside = true ∧ first.explicitInterface = none ∧ first.isPrivate = false
  · obtain ⟨abstract, virtual, sealed, body⟩ := dispatch reached.1 reached.2.1 reached.2.2
    simp only [outline, implementableIn, key, signature, explicitInterface, isStatic, isPublic,
      isExplicit, isPrivate, abstract, virtual, sealed, body]
  · -- Neither member can be implemented, so dispatch does not matter.
    have closed (member : MemberSymbol) (isExplicit : member.isExplicit = first.isExplicit)
        (isPrivate : member.isPrivate = first.isPrivate) :
        member.implementableIn inside = false := by
      rw [implementableIn, isExplicit, isPrivate, MemberSymbol.isExplicit]
      cases inside <;> cases known : first.explicitInterface <;> cases hidden : first.isPrivate <;>
        simp_all
    simp only [outline, key, signature, explicitInterface, isStatic, isPublic, isPrivate,
      closed first rfl rfl, closed second isExplicit isPrivate, Bool.false_and]

end MemberSymbol

namespace MemberBlock

/-- The outline of the symbols of a block. -/
def outline (block : MemberBlock) (inside : Bool) : BlockOutline where
  head := block.head.outline inside
  accessors := block.accessors.map (·.outline inside)

end MemberBlock

/-! ## Types and assemblies -/

/-- What binding, resolution and the checks look at in a type. -/
structure TypeOutline where
  name : String
  kind : TypeKind
  isSealed : Bool
  base : Option String
  interfaces : List String
  members : List BlockOutline
deriving DecidableEq

/-- What is looked at in an assembly. -/
structure AssemblyOutline where
  references : List String
  types : List TypeOutline
deriving DecidableEq

namespace SymbolTable

variable (table : SymbolTable)

/-- The outline of a member of a type with its accessors. -/
def blockOutline (inside : Bool) (member : MemberSymbol) : BlockOutline where
  head := member.outline inside
  accessors := (table.accessorsOf member).map (·.2.outline inside)

/-- The outline of a type. -/
def typeOutline (type : TypeSymbol) : TypeOutline where
  name := type.name
  kind := type.kind
  isSealed := type.isSealed
  base := (type.base.bind table.type?).map TypeSymbol.name
  interfaces := (type.interfaces.filterMap table.type?).map TypeSymbol.name
  members := (table.membersOf type).map fun entry => table.blockOutline type.isInterface entry.2

/-- The outline of an assembly. -/
def assemblyOutline (assembly : AssemblySymbol) : AssemblyOutline where
  references := (assembly.references.filterMap table.assembly?).map AssemblySymbol.name
  types := (assembly.types.filterMap table.type?).map table.typeOutline

variable {table}

/-- Types can implement a member if its outline says so. -/
theorem isImplementable_eq {member : MemberSymbol} {type : TypeSymbol}
    (found : table.type? member.owner = some type) :
    table.isImplementable member = member.implementableIn type.isInterface := by
  rw [isImplementable, MemberSymbol.implementableIn, found, Option.any_some]

theorem isExplicitCandidate_eq {member : MemberSymbol} {type : TypeSymbol}
    (found : table.type? member.owner = some type) :
    table.isExplicitCandidate member = (member.outline type.isInterface).candidate := by
  rw [isExplicitCandidate, isImplementable_eq found]
  rfl

end SymbolTable

end Conformance
