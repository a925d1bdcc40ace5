import Conformance.Proofs.Binding.Intact
import Conformance.Proofs.Resolution.Transport
import Conformance.Proofs.Symbol.Places

/-!
What binding leaves as it was.

Binding an assembly adds symbols to a table and changes none that were there: not when links
are resolved, when cycles are cut, when members are declared or when targets are bound. So
names that meant something mean the same, runtime flags are what they were, and queries have
the answers that they had (`SymbolTable.BoundFrom.bind_preserves`).
-/

namespace Conformance

namespace SymbolTable

/-- A table has all that another has, at the same ids, and answers about it as the other does.
Interface lists and resolutions are compared from memories that remember nothing about types;
runtime flags from any memory. -/
structure Preserves (before after : SymbolTable) : Prop where
  symbols : before.Extends after
  assemblyNamed : ∀ {name id}, before.assemblyNamed? name = some id →
    after.assemblyNamed? name = some id
  typeIn : ∀ {id name typeId}, before.typeIn? id name = some typeId →
    after.typeIn? id name = some typeId
  typeSeenFrom : ∀ {id name typeId}, before.typeSeenFrom? id name = some typeId →
    after.typeSeenFrom? id name = some typeId
  /-- No name that meant nothing in an assembly that was there means something now. -/
  unseen : ∀ {id assembly name}, before.assembly? id = some assembly →
    before.typeSeenFrom? id name = none → after.typeSeenFrom? id name = none
  readRuntime : ∀ {id assembly} (memory : Memory), before.assembly? id = some assembly →
    (after.readRuntime id).answer memory = (before.readRuntime id).answer memory
  setRuntime : ∀ {id assembly} (value : Bool) (memory : Memory),
    before.assembly? id = some assembly →
      (after.setRuntime id value).answer memory = (before.setRuntime id value).answer memory
  flatten : ∀ {memory other : Memory} {id type}, memory.IsFresh → other.IsFresh →
    before.type? id = some type → ∃ list left leftOther,
      (before.flatten id).answer memory = (.ok list, left) ∧
      (after.flatten id).answer other = (.ok list, leftOther)
  resolve : ∀ {memory other : Memory} {typeId type id member}, memory.IsFresh → other.IsFresh →
    before.type? typeId = some type → before.member? id = some member →
      ∃ resolution left leftOther,
        (before.resolve typeId id).answer memory = (.ok resolution, left) ∧
        (after.resolve typeId id).answer other = (.ok resolution, leftOther)

variable {table : SymbolTable}

/-- Names have a meaning only in assemblies that are there. -/
theorem exists_assembly?_of_typesOf {id : AssemblyId} {typeId : TypeId}
    (listed : typeId ∈ table.typesOf id) : ∃ assembly, table.assembly? id = some assembly := by
  cases found : table.assembly? id with
  | some assembly => exact ⟨assembly, rfl⟩
  | none =>
    rw [SymbolTable.typesOf, found] at listed
    exact absurd listed List.not_mem_nil

theorem exists_assembly?_of_typeIn? {id : AssemblyId} {name : String} {typeId : TypeId}
    (named : table.typeIn? id name = some typeId) :
    ∃ assembly, table.assembly? id = some assembly :=
  exists_assembly?_of_typesOf (List.mem_of_find?_eq_some named)

theorem exists_assembly?_of_typeSeenFrom? {id : AssemblyId} {name : String} {typeId : TypeId}
    (seen : table.typeSeenFrom? id name = some typeId) :
    ∃ assembly, table.assembly? id = some assembly := by
  cases found : table.assembly? id with
  | some assembly => exact ⟨assembly, rfl⟩
  | none =>
    rw [SymbolTable.typeSeenFrom?, found] at seen
    rcases Option.or_eq_some_iff.mp seen with own | ⟨_, referenced⟩
    · obtain ⟨assembly, known⟩ := exists_assembly?_of_typeIn? own
      rw [found] at known
      cases known
    · cases referenced

/-- An extension of a well-formed table answers as the table does, if references lead to
assemblies that are there. -/
theorem Extends.preserves {after : SymbolTable} (grown : table.Extends after)
    (wellFormed : table.WellFormed)
    (references : ∀ {id assembly}, table.assembly? id = some assembly →
      ∀ reference ∈ assembly.references, ∃ symbol, table.assembly? reference = some symbol) :
    table.Preserves after where
  symbols := grown
  assemblyNamed named := grown.assemblyNamed? named
  typeIn named := by
    obtain ⟨_, found⟩ := exists_assembly?_of_typeIn? named
    rw [grown.typeIn? wellFormed.laid found, named]
  typeSeenFrom seen := by
    obtain ⟨_, found⟩ := exists_assembly?_of_typeSeenFrom? seen
    rw [grown.typeSeenFrom? wellFormed.laid found (references found), seen]
  unseen found unseen := by
    rw [grown.typeSeenFrom? wellFormed.laid found (references found), unseen]
  readRuntime {id _} memory found := by
    have declared : after.declaredRuntime id = table.declaredRuntime id := by
      rw [declaredRuntime, declaredRuntime, found, grown.assembly found]
    unfold SymbolTable.readRuntime
    rw [declared]
  setRuntime value memory found := by
    unfold SymbolTable.setRuntime
    rw [found, grown.assembly found]
  flatten fresh freshOther found := grown.flatten wellFormed fresh freshOther found
  resolve fresh freshOther found foundMember :=
    grown.resolve wellFormed fresh freshOther found foundMember

/-- Binding only adds to a table: whatever the declaration, its references and the mode, it
leaves every symbol, name, flag and answer as it was. -/
theorem BoundFrom.bind_preserves {decls : List AssemblyDecl} (bound : BoundFrom decls table)
    (decl : AssemblyDecl) (references : List AssemblyId) (mode : BindMode) :
    table.Preserves (table.bind decl references mode).table := by
  have grown := (bind_bound bound.wellFormed decl references mode).grown
  refine grown.preserves bound.wellFormed fun found reference listed => ?_
  obtain ⟨_, known⟩ := (bound.invariant.1.assembly found).references reference listed
  exact known

/-- A second assembly with the name of the interface's assembly: its base classes form a ring
that is cut, and it has an interface of the same name and an explicit implementation. -/
def spareLamps : AssemblyDecl where
  name := "Lamps"
  types :=
    [{ name := "Lamp", kind := .interfaceType, members := [.method { name := "Dim" }] },
     { name := "Bulb", kind := .classType, base := some "Tube" },
     { name := "Tube", kind := .classType, base := some "Bulb", interfaces := ["Lamp"],
       members := [.method { name := "Dim", explicitInterface := some "Lamp", hasBody := true }] }]

/-- Binding the assembly reports the ring, and leaves everything as it was. -/
theorem desk_preserves :
    desk.Preserves (desk.bind spareLamps [⟨0⟩, ⟨1⟩] (.source .latest)).table ∧
      (desk.bind spareLamps [⟨0⟩, ⟨1⟩] (.source .latest)).diagnostics.map Diagnostic.code = [146] ∧
      desk.assemblyNamed? "Lamps" = some ⟨0⟩ := by
  have first : BoundFrom [lamps] ((∅ : SymbolTable).bind lamps [] .metadata).table :=
    .bind .empty lamps .metadata nofun
  have known : ∀ reference ∈ [(⟨0⟩ : AssemblyId)], ∃ symbol,
      ((∅ : SymbolTable).bind lamps [] .metadata).table.assembly? reference = some symbol := by
    intro reference listed
    obtain rfl := List.mem_singleton.mp listed
    exact ⟨_, (bind_bound wellFormed_empty lamps [] .metadata).symbol⟩
  exact ⟨(first.bind desks (.source .latest) known).bind_preserves spareLamps _ _,
    by decide +kernel, by decide +kernel⟩

end SymbolTable

end Conformance
