import Conformance.Proofs.Binding.Heritage
import Conformance.Proofs.Lists
import Conformance.Proofs.Symbol.WellFormed
import Mathlib.Data.List.Find

/-!
What an extension of a symbol table leaves as it is.

The symbols of a closed table refer to nothing but each other, so whatever is
read off them stays the same when symbols are added.
-/

namespace Conformance

namespace SymbolTable

variable {before after : SymbolTable} (grown : before.Extends after)

include grown

/-! ## Links -/

theorem Extends.links {id other : TypeId} (linked : before.Links id other) :
    after.Links id other := by
  obtain ⟨type, found, link⟩ := linked
  exact ⟨type, grown.type found, link⟩

theorem Extends.pathsWithin {bound : Nat} (short : after.PathsWithin bound) :
    before.PathsWithin bound :=
  fun path chain => short path (chain.imp fun _ _ linked => grown.links linked)

/-! ## Members -/

theorem Extends.membersOf (closed : before.Closed) {id : TypeId} {type : TypeSymbol}
    (found : before.type? id = some type) : after.membersOf type = before.membersOf type := by
  unfold SymbolTable.membersOf
  refine List.filterMap_congr fun member listed => ?_
  obtain ⟨symbol, foundMember⟩ := closed.member found listed
  rw [foundMember, grown.member foundMember]

theorem Extends.accessorsOf (closed : before.Closed) {id : MemberId} {member : MemberSymbol}
    (found : before.member? id = some member) :
    after.accessorsOf member = before.accessorsOf member := by
  unfold SymbolTable.accessorsOf
  refine List.filterMap_congr fun accessor listed => ?_
  obtain ⟨symbol, foundAccessor⟩ := closed.accessor found listed
  rw [foundAccessor, grown.member foundAccessor]

theorem Extends.isImplementable (closed : before.Closed) {id : MemberId} {member : MemberSymbol}
    (found : before.member? id = some member) :
    after.isImplementable member = before.isImplementable member := by
  obtain ⟨owner, foundOwner⟩ := closed.owner found
  rw [SymbolTable.isImplementable, SymbolTable.isImplementable, foundOwner, grown.type foundOwner]

theorem Extends.isExplicitCandidate (closed : before.Closed) {id : MemberId}
    {member : MemberSymbol} (found : before.member? id = some member) :
    after.isExplicitCandidate member = before.isExplicitCandidate member := by
  rw [SymbolTable.isExplicitCandidate, SymbolTable.isExplicitCandidate,
    grown.isImplementable closed found]

/-- Members of types that were there were there. -/
theorem Extends.member_of_owner (wellFormed : before.WellFormed) (laid : after.Laid)
    {id : MemberId} {member : MemberSymbol} (found : after.member? id = some member)
    {type : TypeSymbol} (owner : before.type? member.owner = some type) :
    before.member? id = some member := by
  have head {id : MemberId} {member : MemberSymbol} (found : after.member? id = some member)
      (noClause : member.clause? = none) (owner : before.type? member.owner = some type) :
      before.member? id = some member := by
    obtain ⟨_, foundType, listed⟩ := laid.listed found noClause
    cases foundType.symm.trans (grown.type owner)
    obtain ⟨original, known⟩ := wellFormed.closed.member owner listed
    cases found.symm.trans (grown.member known)
    exact known
  cases clause : member.clause? with
  | none => exact head found clause owner
  | some entry =>
    obtain ⟨kind, parentId⟩ := entry
    obtain ⟨parent, foundParent, noClause, sameOwner, has⟩ := laid.clause found clause
    have knownParent := head foundParent noClause (sameOwner ▸ owner)
    obtain ⟨original, known⟩ :=
      wellFormed.closed.accessor knownParent (MemberSymbol.mem_accessors.mpr ⟨kind, has⟩)
    cases found.symm.trans (grown.member known)
    exact known

/-! ## Names -/

theorem Extends.typesOf {id : AssemblyId} {assembly : AssemblySymbol}
    (found : before.assembly? id = some assembly) :
    after.typesOf id = assembly.types ∧ before.typesOf id = assembly.types := by
  rw [SymbolTable.typesOf, SymbolTable.typesOf, found, grown.assembly found]
  exact ⟨rfl, rfl⟩

theorem Extends.typeIn? (laid : before.Laid) {id : AssemblyId} {assembly : AssemblySymbol}
    (found : before.assembly? id = some assembly) (name : String) :
    after.typeIn? id name = before.typeIn? id name := by
  obtain ⟨types, typesBefore⟩ := grown.typesOf found
  rw [SymbolTable.typeIn?, SymbolTable.typeIn?, types, typesBefore]
  refine List.find?_congr fun typeId listed => ?_
  obtain ⟨type, foundType, _⟩ := laid.type found listed
  rw [foundType, grown.type foundType]

/-- Names mean the same from an assembly whose references were there. -/
theorem Extends.typeSeenFrom? (laid : before.Laid) {id : AssemblyId} {assembly : AssemblySymbol}
    (found : before.assembly? id = some assembly)
    (references : ∀ reference ∈ assembly.references, ∃ symbol,
      before.assembly? reference = some symbol) (name : String) :
    after.typeSeenFrom? id name = before.typeSeenFrom? id name := by
  rw [SymbolTable.typeSeenFrom?, SymbolTable.typeSeenFrom?, grown.typeIn? laid found, found,
    grown.assembly found]
  congr 1
  refine findSome?_congr fun reference listed => ?_
  obtain ⟨symbol, foundReference⟩ := references reference listed
  exact grown.typeIn? laid foundReference name

theorem Extends.resolve? (laid : before.Laid) {id : AssemblyId} {assembly : AssemblySymbol}
    (found : before.assembly? id = some assembly)
    (references : ∀ reference ∈ assembly.references, ∃ symbol,
      before.assembly? reference = some symbol) (name : String) :
    after.resolve? id name = before.resolve? id name := by
  rw [SymbolTable.resolve?, SymbolTable.resolve?, grown.typeSeenFrom? laid found references]
  cases seen : before.typeSeenFrom? id name with
  | none => rfl
  | some typeId =>
    obtain ⟨type, foundType, _⟩ := typeSeenFrom?_some seen
    simp only [Option.bind_eq_bind, Option.bind_some, foundType, grown.type foundType]

end SymbolTable

end Conformance
