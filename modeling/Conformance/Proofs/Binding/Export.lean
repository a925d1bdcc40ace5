import Conformance.Proofs.Binding.Exported
import Conformance.Proofs.Resolution.Memory
import Conformance.Proofs.Symbol.Correspondence

/-!
Assemblies as they are exported.

The export of an assembly of a closed table never fails
(`SymbolTable.Closed.exportAssembly`), and declares its members as binding made
them (`SymbolTable.Traced.exported_members`).
-/

namespace Conformance

namespace SymbolTable

section

variable (table : SymbolTable)

/-- The declaration that a type is exported as. -/
def exportedType (type : TypeSymbol) : TypeDecl where
  name := type.name
  kind := type.kind
  modifiers := type.modifiers
  base := (type.base.bind table.type?).map TypeSymbol.name
  interfaces := (type.interfaces.filterMap table.type?).map TypeSymbol.name
  members := (table.membersOf type).filterMap fun entry => table.exportMember? entry.2

/-- The declaration that an assembly is exported as. -/
def exportedAssembly (assembly : AssemblySymbol) : AssemblyDecl where
  name := assembly.name
  coreLibrary := assembly.coreLibrary
  references := (assembly.references.filterMap table.assembly?).map AssemblySymbol.name
  types := (assembly.types.filterMap table.type?).map table.exportedType

end

variable {table : SymbolTable}

theorem mapM_type {ids : List TypeId} (known : ∀ id ∈ ids, ∃ type, table.type? id = some type) :
    ids.mapM table.type = .ok (ids.filterMap table.type?) := by
  induction ids with
  | nil => rfl
  | cons id ids ih =>
    obtain ⟨type, found⟩ := known id List.mem_cons_self
    rw [List.mapM_cons, type_eq_ok found, ih fun other listed =>
      known other (List.mem_cons_of_mem _ listed), List.filterMap_cons, found]
    rfl

theorem mapM_exportType {types : List TypeSymbol}
    (exports : ∀ type ∈ types, table.exportType type = .ok (table.exportedType type)) :
    types.mapM table.exportType = .ok (types.map table.exportedType) := by
  induction types with
  | nil => rfl
  | cons type types ih =>
    rw [List.mapM_cons, exports type List.mem_cons_self, ih fun other listed =>
      exports other (List.mem_cons_of_mem _ listed)]
    rfl

/-- The export of a type does not fail. -/
theorem Closed.exportType (closed : table.Closed) {id : TypeId} {type : TypeSymbol}
    (found : table.type? id = some type) :
    table.exportType type = .ok (table.exportedType type) := by
  have interfaces := mapM_type fun _ listed => closed.interface found listed
  have base : type.base.mapM table.type = .ok (type.base.bind table.type?) := by
    cases known : type.base with
    | none => rfl
    | some base =>
      obtain ⟨symbol, foundBase⟩ := closed.base found known
      rw [Option.bind_some, foundBase, Option.mapM_some, type_eq_ok foundBase]
      rfl
  unfold SymbolTable.exportType
  rw [base, interfaces]
  rfl

/-- The export of an assembly does not fail. -/
theorem Closed.exportAssembly (closed : table.Closed) (assembly : AssemblySymbol) :
    table.exportAssembly assembly = .ok (table.exportedAssembly assembly) := by
  have types : (assembly.types.filterMap table.type?).mapM table.exportType =
      .ok ((assembly.types.filterMap table.type?).map table.exportedType) := by
    refine mapM_exportType fun type listed => ?_
    obtain ⟨typeId, _, foundType⟩ := List.mem_filterMap.mp listed
    exact closed.exportType foundType
  unfold SymbolTable.exportAssembly
  rw [types]
  rfl

/-- The types of the export, one for each type of the assembly. -/
theorem Laid.exported_types (laid : table.Laid) {id : AssemblyId} {assembly : AssemblySymbol}
    (found : table.assembly? id = some assembly) :
    List.Forall₂ (fun typeId decl => ∃ type, table.type? typeId = some type ∧
      decl = table.exportedType type) assembly.types (table.exportedAssembly assembly).types := by
  have types : (table.exportedAssembly assembly).types =
      assembly.types.filterMap fun typeId => (table.type? typeId).map table.exportedType := by
    show (assembly.types.filterMap table.type?).map table.exportedType = _
    rw [List.map_filterMap]
  rw [types]
  refine forall₂_filterMap fun typeId listed => ?_
  obtain ⟨type, foundType, _⟩ := laid.type found listed
  exact ⟨table.exportedType type, by rw [foundType]; rfl, type, foundType, rfl⟩

/-- The members of the export of a type, one for each of its members. -/
theorem Traced.exported_members (traced : table.Traced) (laid : table.Laid) {typeId : TypeId}
    {type : TypeSymbol} (found : table.type? typeId = some type) :
    List.Forall₂ (fun m decl => ∃ (source : MemberDecl) (scope : MemberScope)
        (target : Option ExplicitTarget), scope.ownerIsInterface = type.isInterface ∧
      table.Carries type.assembly m (source.bind scope m) ∧
      table.member? m = some { (source.bind scope m).head with target } ∧
      decl = source.exported scope m) type.members (table.exportedType type).members := by
  have members : (table.exportedType type).members = type.members.filterMap fun m =>
      (table.member? m).bind table.exportMember? := by
    rw [exportedType, membersOf, List.filterMap_filterMap]
    refine List.filterMap_congr fun m _ => ?_
    cases table.member? m <;> rfl
  rw [members]
  refine forall₂_filterMap fun m listed => ?_
  obtain ⟨assembly, foundAssembly, inside⟩ := laid.assembly found
  obtain ⟨source, scope, _, isInterface, carries⟩ :=
    (traced foundAssembly).members inside found listed
  have head : table.member? m = some { (source.bind scope m).head with
      target := table.expectedTarget? type.assembly (source.bind scope m).head } :=
    carries 0 _ rfl
  refine ⟨source.exported scope m, ?_, source, scope, _, isInterface, carries, head, rfl⟩
  rw [head, Option.bind_some]
  exact carries.exportMember? _

end SymbolTable

end Conformance
