import Conformance.Binding.Heritage
import Conformance.Symbol.Signature

/-!
Targets of explicit implementations.

A member that names an interface is bound to the first member of it that can be
implemented so and has the same signature; its accessors are bound to those of
that member. Targets depend on no other targets, so all of them are found in
one table and then entered.
-/

namespace Conformance

/-- The targets of a member and its accessors, and what is wrong with them. -/
structure TargetBinding where
  targets : List (MemberId × ExplicitTarget) := []
  diagnostics : List Diagnostic := []
deriving DecidableEq, Repr

namespace SymbolTable

/-- The member of an interface that an explicit implementation is bound to. -/
def explicitTarget? (table : SymbolTable) (interface : TypeSymbol) (member : MemberSymbol) :
    Option (MemberId × MemberSymbol) :=
  (table.membersOf interface).find? fun candidate =>
    table.isExplicitCandidate candidate.2 && member.matchesSignature candidate.2

/-- Binds an accessor of a member that is bound to `target`. -/
def bindAccessorTarget (table : SymbolTable) (interface : TypeId) (target : MemberSymbol)
    (accessor : MemberId × MemberSymbol) : TargetBinding :=
  let found := do
    let (kind, _) ← accessor.2.clause?
    let id ← target.accessor? kind
    let member ← table.member? id
    if table.isExplicitCandidate member then some id else none
  match found with
  | some id => { targets := [(accessor.1, ⟨interface, id⟩)] }
  | none =>
    { diagnostics := [.breach .accessorNotInInterface accessor.2.span
        [.member (table.displayMember accessor.2), .member (table.displayMember target)]] }

/-- Binds a member that names an interface, as seen from an assembly. -/
def bindTarget (table : SymbolTable) (assembly : AssemblyId) (id : MemberId)
    (member : MemberSymbol) (interface : String) : TargetBinding :=
  match table.resolve? assembly interface with
  | none => { diagnostics := [nameNotFound interface member.span] }
  | some (typeId, type) =>
    if !type.isInterface then
      { diagnostics := [.breach .explicitNotInterface member.span [.type interface]] }
    else
      match table.explicitTarget? type member with
      | none =>
        { diagnostics :=
            [.breach .explicitNotFound member.span [.member (table.displayMember member)]] }
      | some (targetId, target) =>
        let accessors := (table.accessorsOf member).map (table.bindAccessorTarget typeId target)
        { targets := (id, ⟨typeId, targetId⟩) :: accessors.flatMap TargetBinding.targets
          diagnostics := accessors.flatMap TargetBinding.diagnostics }

/-- The targets of the explicit implementations in a type. -/
def targetsOf (table : SymbolTable) (assembly : AssemblyId) (id : TypeId) : List TargetBinding :=
  match table.type? id with
  | none => []
  | some type =>
    (table.membersOf type).filterMap fun (id, member) =>
      member.explicitInterface.map (table.bindTarget assembly id member)

/-- Enters a target. -/
def setTarget (table : SymbolTable) (entry : MemberId × ExplicitTarget) : SymbolTable :=
  table.modifyMember entry.1 fun member => { member with target := some entry.2 }

end SymbolTable

end Conformance
