import Conformance.Proofs.Binding.Relabelling
import Conformance.Proofs.Compilation.Built
import Conformance.Proofs.Symbol.Correspondence

/-!
Assemblies that are given other names.

Binding does not look at the names of assemblies, so it commutes with giving all of them other
names (`SymbolTable.rename_bind`). With names that are all different, the table becomes orderly
(`SymbolTable.BindsAll.orderly`), whatever its assemblies were called.
-/

namespace Conformance

namespace SymbolTable

/-- The table with other names for its assemblies. -/
def rename (names : Nat → String) (table : SymbolTable) : SymbolTable :=
  table.withAssemblies
    (table.assemblies.mapIdx fun index assembly => { assembly with name := names index })

variable (names : Nat → String)

section

variable (table : SymbolTable)

theorem assembly?_rename (id : AssemblyId) : (table.rename names).assembly? id =
    (table.assembly? id).map fun assembly => { assembly with name := names id.index } := by
  show (table.assemblies.mapIdx _)[id.index]? = _
  rw [Array.getElem?_mapIdx]
  rfl

theorem nextAssembly_rename : (table.rename names).nextAssembly = table.nextAssembly :=
  congrArg AssemblyId.mk Array.size_mapIdx

theorem relabels_rename : table.Relabels (table.rename names) where
  types := rfl
  members := rfl
  assemblies id := by
    rw [assembly?_rename]
    cases table.assembly? id with
    | none => exact .none
    | some assembly => exact .some rfl

end

variable {names} {table : SymbolTable}

theorem assembly?_rename_of_some {id : AssemblyId} {assembly : AssemblySymbol}
    (found : table.assembly? id = some assembly) :
    (table.rename names).assembly? id = some { assembly with name := names id.index } := by
  rw [assembly?_rename, found, Option.map_some]

theorem assembly?_of_rename {id : AssemblyId} {renamed : AssemblySymbol}
    (found : (table.rename names).assembly? id = some renamed) : ∃ assembly,
      table.assembly? id = some assembly ∧ renamed = { assembly with name := names id.index } := by
  rw [assembly?_rename] at found
  rcases Option.map_eq_some_iff.mp found with ⟨assembly, known, rfl⟩
  exact ⟨assembly, known, rfl⟩

/-- Binding commutes with giving assemblies other names. -/
theorem rename_bind (wellFormed : table.WellFormed) (renamed : (table.rename names).WellFormed)
    (decl : AssemblyDecl) (references : List AssemblyId) (mode : BindMode) :
    (table.bind decl references mode).table.rename names =
      ((table.rename names).bind { decl with name := names table.nextAssembly.index } references
        mode).table := by
  have sameTypes : ({ decl with name := names table.nextAssembly.index } : AssemblyDecl).types =
      decl.types := rfl
  have same := (table.relabels_rename names).bind sameTypes references mode wellFormed renamed
  generalize known : (table.rename names).bind { decl with
    name := names table.nextAssembly.index } references mode = binding at same
  have assemblies : ((table.bind decl references mode).table.rename names).assemblies =
      binding.table.assemblies := by
    refine Array.ext_getElem? fun index => ?_
    show ((table.bind decl references mode).table.rename names).assembly? ⟨index⟩ =
      binding.table.assembly? ⟨index⟩
    rw [← known, assembly?_rename, bind_eq wellFormed.untangling_keeps.fault,
      bind_eq renamed.untangling_keeps.fault, wellFormed.assembly?_targeting,
      renamed.assembly?_targeting, assembly?_declaring, assembly?_declaring, nextAssembly_rename,
      assembly?_rename]
    split
    · rename_i new
      rw [← new]
      rfl
    · rfl
  rcases same with ⟨⟨types, members, _⟩, _⟩
  rw [eq_withAssemblies (s := (table.bind decl references mode).table) types members, ← assemblies]
  rfl

/-- A table that is bound anew with other names. -/
theorem BindsAll.rename (binds : BindsAll ∅ table) : BindsAll ∅ (table.rename names) := by
  induction binds with
  | refl => exact .refl
  | tail earlier step ih =>
    rcases step with ⟨decl, references, mode, known, rfl⟩
    rw [rename_bind (BindsAll.made earlier .empty).wellFormed (ih.made .empty).wellFormed]
    refine ih.tail ⟨_, references, mode, fun reference listed => ?_, rfl⟩
    rcases known reference listed with ⟨symbol, found⟩
    exact ⟨_, assembly?_rename_of_some found⟩

/-- With different names for its assemblies, a table is orderly. -/
theorem BindsAll.orderly (binds : BindsAll ∅ table) (apart : names.Injective) :
    (table.rename names).Orderly where
  wellFormed := (binds.rename.made .empty).wellFormed
  traced := binds.rename.traced .empty traced_empty
  distinct {first second a b} foundFirst foundSecond same := by
    rcases assembly?_of_rename foundFirst with ⟨_, _, rfl⟩
    rcases assembly?_of_rename foundSecond with ⟨_, _, rfl⟩
    exact congrArg AssemblyId.mk (apart same)

end SymbolTable

end Conformance
