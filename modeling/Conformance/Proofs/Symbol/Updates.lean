import Conformance.Proofs.Symbol.Closed

/-!
What the changes to a symbol table do to lookups.

Every change adds a symbol at the end or modifies one symbol. Later tables
extend earlier ones (`SymbolTable.Extends`): they have the same symbols under
the same ids, and more.
-/

namespace Conformance

namespace SymbolTable

variable {table : SymbolTable}

theorem type?_eq_none {id : TypeId} : table.type? id = none ↔ table.types.size ≤ id.index := by
  simp [type?]

theorem member?_eq_none {id : MemberId} :
    table.member? id = none ↔ table.members.size ≤ id.index := by
  simp [member?]

theorem assembly?_eq_none {id : AssemblyId} :
    table.assembly? id = none ↔ table.assemblies.size ≤ id.index := by
  simp [assembly?]

theorem lt_of_type? {id : TypeId} {type : TypeSymbol} (found : table.type? id = some type) :
    id.index < table.types.size := by
  by_contra outside
  rw [type?_eq_none.mpr (by omega)] at found
  contradiction

theorem lt_of_member? {id : MemberId} {member : MemberSymbol}
    (found : table.member? id = some member) : id.index < table.members.size := by
  by_contra outside
  rw [member?_eq_none.mpr (by omega)] at found
  contradiction

theorem lt_of_assembly? {id : AssemblyId} {assembly : AssemblySymbol}
    (found : table.assembly? id = some assembly) : id.index < table.assemblies.size := by
  by_contra outside
  rw [assembly?_eq_none.mpr (by omega)] at found
  contradiction

theorem exists_type? {id : TypeId} (inside : id.index < table.types.size) :
    ∃ type, table.type? id = some type :=
  ⟨table.types[id.index], by simp [type?, inside]⟩

theorem exists_member? {id : MemberId} (inside : id.index < table.members.size) :
    ∃ member, table.member? id = some member :=
  ⟨table.members[id.index], by simp [member?, inside]⟩

/-! ## Single changes -/

section changes

variable (table)

@[simp] theorem types_modifyType_size (id : TypeId) (f : TypeSymbol → TypeSymbol) :
    (table.modifyType id f).types.size = table.types.size := by
  simp [modifyType]

@[simp] theorem members_modifyMember_size (id : MemberId) (f : MemberSymbol → MemberSymbol) :
    (table.modifyMember id f).members.size = table.members.size := by
  simp [modifyMember]

@[simp] theorem assembly?_modifyType (id : TypeId) (f : TypeSymbol → TypeSymbol)
    (other : AssemblyId) : (table.modifyType id f).assembly? other = table.assembly? other := rfl

@[simp] theorem member?_modifyType (id : TypeId) (f : TypeSymbol → TypeSymbol) (other : MemberId) :
    (table.modifyType id f).member? other = table.member? other := rfl

theorem type?_modifyType (id other : TypeId) (f : TypeSymbol → TypeSymbol) :
    (table.modifyType id f).type? other =
      if id = other then (table.type? other).map f else table.type? other := by
  obtain ⟨index⟩ := id
  obtain ⟨place⟩ := other
  simp only [type?, modifyType, Array.getElem?_modify, TypeId.mk.injEq]

@[simp] theorem assembly?_modifyMember (id : MemberId) (f : MemberSymbol → MemberSymbol)
    (other : AssemblyId) : (table.modifyMember id f).assembly? other = table.assembly? other := rfl

@[simp] theorem type?_modifyMember (id : MemberId) (f : MemberSymbol → MemberSymbol)
    (other : TypeId) : (table.modifyMember id f).type? other = table.type? other := rfl

theorem member?_modifyMember (id other : MemberId) (f : MemberSymbol → MemberSymbol) :
    (table.modifyMember id f).member? other =
      if id = other then (table.member? other).map f else table.member? other := by
  obtain ⟨index⟩ := id
  obtain ⟨place⟩ := other
  simp only [member?, modifyMember, Array.getElem?_modify, MemberId.mk.injEq]

@[simp] theorem assembly?_addMember (member : MemberSymbol) (id : AssemblyId) :
    (table.addMember member).assembly? id = table.assembly? id := rfl

@[simp] theorem type?_addMember (member : MemberSymbol) (id : TypeId) :
    (table.addMember member).type? id = table.type? id := rfl

@[simp] theorem type?_addAssembly (assembly : AssemblySymbol) (id : TypeId) :
    (table.addAssembly assembly).type? id = table.type? id := rfl

@[simp] theorem member?_addAssembly (assembly : AssemblySymbol) (id : MemberId) :
    (table.addAssembly assembly).member? id = table.member? id := rfl

theorem assembly?_addAssembly (assembly : AssemblySymbol) (id : AssemblyId) :
    (table.addAssembly assembly).assembly? id =
      if id = table.nextAssembly then some assembly else table.assembly? id := by
  obtain ⟨index⟩ := id
  simp only [assembly?, addAssembly, nextAssembly, Array.getElem?_push, AssemblyId.mk.injEq]

@[simp] theorem member?_addType (type : TypeSymbol) (id : MemberId) :
    (table.addType type).member? id = table.member? id := rfl

theorem type?_addType (type : TypeSymbol) (id : TypeId) :
    (table.addType type).type? id =
      if id = table.nextType then some type else table.type? id := by
  obtain ⟨index⟩ := id
  simp only [type?, addType, nextType, Array.getElem?_push, TypeId.mk.injEq]

theorem assembly?_addType (type : TypeSymbol) (id : AssemblyId) :
    (table.addType type).assembly? id =
      if type.assembly = id then (table.assembly? id).map fun assembly =>
        { assembly with types := assembly.types ++ [table.nextType] }
      else table.assembly? id := by
  obtain ⟨index⟩ := id
  have same : (type.assembly = ⟨index⟩) ↔ type.assembly.index = index := by
    cases type.assembly
    exact AssemblyId.mk.injEq .. ▸ Iff.rfl
  simp only [assembly?, addType, Array.getElem?_modify, same]

end changes

/-! ## Extensions -/

/-- One table has every symbol of another, under the same id. -/
structure Extends (before after : SymbolTable) : Prop where
  assembly : ∀ {id symbol}, before.assembly? id = some symbol → after.assembly? id = some symbol
  type : ∀ {id symbol}, before.type? id = some symbol → after.type? id = some symbol
  member : ∀ {id symbol}, before.member? id = some symbol → after.member? id = some symbol

theorem Extends.refl (table : SymbolTable) : table.Extends table := ⟨id, id, id⟩

theorem Extends.trans {before middle after : SymbolTable} (first : before.Extends middle)
    (second : middle.Extends after) : before.Extends after where
  assembly found := second.assembly (first.assembly found)
  type found := second.type (first.type found)
  member found := second.member (first.member found)

end SymbolTable

end Conformance
