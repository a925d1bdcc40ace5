import Conformance.Manifest.Basic
import Conformance.Proofs.Binding.Export
import Conformance.Proofs.Binding.Relabelling
import Conformance.Proofs.Compilation.Built

/-!
Ports to other runtimes.

A port of a table, or of a compilation, has other core libraries and is the same in all else.
What is compiled against ports of compilations, and with another setting of the runtime flag,
is a port (`Compilation.Ports.ofDecl`), and so are the compilations of two manifests that
differ in nothing else (`Manifest.Ports.compileAll`).
-/

namespace Conformance

/-- Two declarations are the same but for their core libraries. -/
def AssemblyDecl.Ports (first second : AssemblyDecl) : Prop :=
  second = { first with coreLibrary := second.coreLibrary }

/-- Two entries are the same but for core libraries and settings of the runtime flag. -/
structure ManifestEntry.Ports (first second : ManifestEntry) : Prop where
  decl : first.decl.Ports second.decl
  options : second.options = { first.options with runtimeSupport := second.options.runtimeSupport }

/-- Two manifests list the same assemblies, but for core libraries and settings of the runtime
flag. -/
def Manifest.Ports (first second : Manifest) : Prop :=
  List.Forall₂ ManifestEntry.Ports first.assemblies second.assemblies

/-- Two assemblies are the same but for their core libraries. -/
def AssemblySymbol.Ports (first second : AssemblySymbol) : Prop :=
  second = { first with coreLibrary := second.coreLibrary }

theorem AssemblySymbol.Ports.sameButLabel {first second : AssemblySymbol}
    (ports : first.Ports second) : first.SameButLabel second := by
  rw [AssemblySymbol.SameButLabel]
  rw [ports]

theorem AssemblySymbol.Ports.name {first second : AssemblySymbol} (ports : first.Ports second) :
    second.name = first.name := by
  rw [ports]

/-! ## Tables -/

namespace SymbolTable

/-- Two tables are the same but for the core libraries of assemblies. -/
structure Ports (s t : SymbolTable) : Prop where
  types : t.types = s.types
  members : t.members = s.members
  assemblies : ∀ id, Option.Rel AssemblySymbol.Ports (s.assembly? id) (t.assembly? id)

namespace Ports

theorem refl (table : SymbolTable) : table.Ports table where
  types := rfl
  members := rfl
  assemblies id := by
    cases table.assembly? id with
    | none => exact .none
    | some symbol => exact .some rfl

variable {s t : SymbolTable} (ports : s.Ports t)

include ports

theorem relabels : s.Relabels t where
  types := ports.types
  members := ports.members
  assemblies id := rel_imp (ports.assemblies id) fun _ _ same => same.sameButLabel

theorem assemblies_ports :
    List.Forall₂ AssemblySymbol.Ports s.assemblies.toList t.assemblies.toList :=
  forall₂_of_getElem? fun position => by
    rw [Array.getElem?_toList, Array.getElem?_toList]
    exact ports.assemblies ⟨position⟩

theorem eq_withAssemblies : t = s.withAssemblies t.assemblies :=
  SymbolTable.eq_withAssemblies ports.types ports.members

theorem map_name (id : AssemblyId) :
    (t.assembly? id).map AssemblySymbol.name = (s.assembly? id).map AssemblySymbol.name :=
  map_eq_map_of_rel (ports.assemblies id) fun _ _ same => same.name

/-- Names of assemblies mean the same in both tables. -/
theorem assemblyNamed? : t.assemblyNamed? = s.assemblyNamed? := by
  funext name
  have sameNames : t.assemblies.map AssemblySymbol.name = s.assemblies.map AssemblySymbol.name := by
    refine Array.ext_getElem? fun index => ?_
    rw [Array.getElem?_map, Array.getElem?_map]
    exact ports.map_name ⟨index⟩
  have byNames (table : SymbolTable) : table.assemblyNamed? name =
      ((table.assemblies.map AssemblySymbol.name).findIdx? fun other =>
        decide (other = name)).map AssemblyId.mk := by
    rw [SymbolTable.assemblyNamed?, Array.findIdx?_map]
    rfl
  rw [byNames, byNames, sameNames]

/-- Ports of a declaration are bound alike. -/
theorem bind {first second : AssemblyDecl} (same : first.Ports second)
    (references : List AssemblyId) (mode : BindMode) (wellFormed : s.WellFormed)
    (wellFormedPort : t.WellFormed) :
    (s.bind first references mode).table.Ports (t.bind second references mode).table ∧
      (t.bind second references mode).assembly = (s.bind first references mode).assembly ∧
      (t.bind second references mode).diagnostics = (s.bind first references mode).diagnostics := by
  have sameTypes : second.types = first.types := by rw [same]
  have sameName : second.name = first.name := by rw [same]
  rcases ports.relabels.bind sameTypes references mode wellFormed wellFormedPort with
    ⟨relabels, assembly, diagnostics⟩
  refine ⟨⟨relabels.types, relabels.members, fun id => ?_⟩, assembly, diagnostics⟩
  rw [bind_eq wellFormed.untangling_keeps.fault, bind_eq wellFormedPort.untangling_keeps.fault,
    wellFormed.assembly?_targeting, wellFormedPort.assembly?_targeting, assembly?_declaring,
    assembly?_declaring, ports.relabels.nextAssembly, ports.types, sameTypes, sameName]
  split
  · exact .some rfl
  · exact ports.assemblies id

/-- The export of a port is a port of the export. -/
theorem exportedAssembly {first second : AssemblySymbol} (same : first.Ports second) :
    (s.exportedAssembly first).Ports (t.exportedAssembly second) := by
  have references : ((second.references.filterMap t.assembly?).map AssemblySymbol.name) =
      (first.references.filterMap s.assembly?).map AssemblySymbol.name := by
    rw [List.map_filterMap, List.map_filterMap, funext ports.map_name, same]
  have types : (second.types.filterMap t.type?).map t.exportedType =
      (first.types.filterMap s.type?).map s.exportedType := by
    rw [ports.eq_withAssemblies, same]
    rfl
  rw [AssemblyDecl.Ports, SymbolTable.exportedAssembly, references, types, same.name]
  rfl

end Ports

end SymbolTable

/-! ## Compilations -/

namespace Compilation

open SymbolTable (Made Ports)

/-- Two compilations are the same, but for core libraries and settings of the runtime flag. -/
structure Ports (first second : Compilation) : Prop where
  table : first.table.Ports second.table
  assembly : second.assembly = first.assembly
  options : second.options = { first.options with runtimeSupport := second.options.runtimeSupport }
  bindingDiagnostics : second.bindingDiagnostics = first.bindingDiagnostics

theorem Ports.name {first second : Compilation} (ports : first.Ports second) :
    second.name = first.name := by
  rw [Compilation.name, Compilation.name, ports.assembly, ports.table.map_name]

theorem copyAssembly_ports {source port target targetPort : SymbolTable} (same : source.Ports port)
    (closed : source.Closed) (closedPort : port.Closed) (targets : target.Ports targetPort)
    (made : Made target) (madePort : Made targetPort) {first second : AssemblySymbol}
    (ports : first.Ports second) :
    (copyAssembly source target first).Ports (copyAssembly port targetPort second) := by
  have exports := same.exportedAssembly ports
  have references : (port.exportedAssembly second).references =
      (source.exportedAssembly first).references := by rw [exports]
  unfold copyAssembly
  rw [ports.name, targets.assemblyNamed?, closed.exportAssembly, closedPort.exportAssembly]
  split
  · exact targets
  · show (target.bind _ _ .metadata).table.Ports (targetPort.bind _ _ .metadata).table
    rw [references]
    exact (targets.bind exports _ .metadata made.wellFormed madePort.wellFormed).1

theorem copyAssemblies_ports {source port target targetPort : SymbolTable}
    (same : source.Ports port) (closed : source.Closed) (closedPort : port.Closed)
    (targets : target.Ports targetPort) (made : Made target) (madePort : Made targetPort)
    {assemblies images : List AssemblySymbol}
    (listed : List.Forall₂ AssemblySymbol.Ports assemblies images) :
    (assemblies.foldl (copyAssembly source) target).Ports
      (images.foldl (copyAssembly port) targetPort) := by
  induction listed generalizing target targetPort with
  | nil => exact targets
  | @cons first second _ _ ports _ ih =>
    exact ih (copyAssembly_ports same closed closedPort targets made madePort ports)
      ((copyAssembly_binds source target first).made made)
      ((copyAssembly_binds port targetPort second).made madePort)

theorem Ports.copyInto {first second : Compilation} (ports : first.Ports second)
    (built : first.Built) (builtPort : second.Built) {target targetPort : SymbolTable}
    (targets : target.Ports targetPort) (made : Made target) (madePort : Made targetPort) :
    (first.copyInto target).Ports (second.copyInto targetPort) := by
  unfold Compilation.copyInto
  rw [← Array.foldl_toList, ← Array.foldl_toList]
  exact copyAssemblies_ports ports.table built.closed builtPort.closed targets made madePort
    ports.table.assemblies_ports

/-- Ports of references are copied alike. -/
theorem addReferences_ports {references images : List Compilation}
    (ports : List.Forall₂ Compilation.Ports references images)
    (built : ∀ reference ∈ references, reference.Built)
    (builtPort : ∀ reference ∈ images, reference.Built) {state port : SymbolTable × List AssemblyId}
    (targets : state.1.Ports port.1) (made : Made state.1) (madePort : Made port.1)
    (direct : port.2 = state.2) :
    (references.foldl addReference state).1.Ports (images.foldl addReference port).1 ∧
      (images.foldl addReference port).2 = (references.foldl addReference state).2 := by
  induction ports generalizing state port with
  | nil => exact ⟨targets, direct⟩
  | @cons first second _ _ same _ ih =>
    have copied := same.copyInto (built first List.mem_cons_self)
      (builtPort second List.mem_cons_self) targets made madePort
    refine ih (fun other listed => built other (List.mem_cons_of_mem _ listed))
      (fun other listed => builtPort other (List.mem_cons_of_mem _ listed)) copied
      ((first.copyInto_binds state.1).made made) ((second.copyInto_binds port.1).made madePort) ?_
    show port.2 ++ ((second.copyInto port.1).assemblyNamed? second.name).toList =
      state.2 ++ ((first.copyInto state.1).assemblyNamed? first.name).toList
    rw [direct, copied.assemblyNamed?, same.name]

/-- What is compiled against ports is a port. -/
theorem Ports.ofDecl {first second : ManifestEntry} (same : first.Ports second)
    {references images : List Compilation}
    (ports : List.Forall₂ Compilation.Ports references images)
    (built : ∀ reference ∈ references, reference.Built)
    (builtPort : ∀ reference ∈ images, reference.Built) :
    (ofDecl first.decl references first.options).Ports
      (ofDecl second.decl images second.options) := by
  have start : Made ((∅, []) : SymbolTable × List AssemblyId).1 := .empty
  rcases addReferences_ports ports built builtPort (.refl _) start start rfl
    with ⟨targets, direct⟩
  have version : second.options.version = first.options.version := by rw [same.options]
  rcases targets.bind same.decl (references.foldl addReference (∅, [])).2
    (.source first.options.version)
    ((addReferences_bindsAll references (∅, [])).made .empty).wellFormed
    ((addReferences_bindsAll images (∅, [])).made .empty).wellFormed
    with ⟨tables, assembly, diagnostics⟩
  have compiled (entry : ManifestEntry) (references : List Compilation) :
      Compilation.ofDecl entry.decl references entry.options =
        let state := references.foldl addReference (∅, [])
        let binding := state.1.bind entry.decl state.2 (.source entry.options.version)
        ⟨binding.table, binding.assembly, entry.options, binding.diagnostics⟩ := rfl
  rw [compiled, compiled]
  simp only [direct, version]
  exact ⟨tables, assembly, same.options, diagnostics⟩

end Compilation

/-! ## Manifests -/

namespace Manifest

variable {done images : List Compilation} (ports : List.Forall₂ Compilation.Ports done images)

/-- A compilation that is done, and the one that is done in its place. -/
def DoneAlike (done images : List Compilation) (first second : Compilation) : Prop :=
  first ∈ done ∧ second ∈ images ∧ first.Ports second

include ports

theorem compiled?_ports (name : String) :
    Option.Rel (DoneAlike done images) (compiled? done name) (compiled? images name) := by
  have reversed := List.forall₂_reverse_iff.mpr ports
  have found := forall₂_find? reversed (p := fun compilation => decide (compilation.name = name))
    (q := fun compilation => decide (compilation.name = name)) fun _ _ same => by rw [same.name]
  refine rel_imp found ?_
  rintro first second ⟨position, inDone, inImages⟩
  obtain ⟨_, again, same⟩ := exists_getElem?_of_forall₂ reversed inDone
  cases inImages.symm.trans again
  exact ⟨List.mem_reverse.mp (List.mem_of_getElem? inDone),
    List.mem_reverse.mp (List.mem_of_getElem? inImages), same⟩

theorem referencesOf_ports {first second : ManifestEntry} (same : first.Ports second)
    {references : List Compilation} (found : referencesOf done first = .ok references) :
    ∃ others, referencesOf images second = .ok others ∧
      List.Forall₂ (DoneAlike done images) references others := by
  have names : second.decl.references = first.decl.references := by rw [same.decl]
  unfold referencesOf at found ⊢
  rw [names]
  refine forall₂_mapM_ok (fun name reference known => ?_) found
  have related := compiled?_ports ports name
  generalize compiled? done name = last at known related
  generalize compiled? images name = other at related ⊢
  cases related with
  | none => cases known
  | some alike =>
    cases known
    exact ⟨_, rfl, alike⟩

/-- Entries that are ports are compiled to ports. -/
theorem compileEntries_ports (built : ∀ compilation ∈ done, compilation.Built)
    (builtPort : ∀ compilation ∈ images, compilation.Built) {entries others : List ManifestEntry}
    (same : List.Forall₂ ManifestEntry.Ports entries others) {all : List Compilation}
    (compiled : compileEntries done entries = .ok all) :
    ∃ allPorts, compileEntries images others = .ok allPorts ∧
      List.Forall₂ Compilation.Ports all allPorts ∧ (∀ compilation ∈ all, compilation.Built) ∧
      ∀ compilation ∈ allPorts, compilation.Built := by
  induction same generalizing done images with
  | nil =>
    cases compiled
    exact ⟨images, rfl, ports, built, builtPort⟩
  | @cons first second entries others head _ ih =>
    unfold compileEntries at compiled ⊢
    cases found : referencesOf done first with
    | error error =>
      rw [found] at compiled
      cases compiled
    | ok references =>
      rw [found] at compiled
      rcases referencesOf_ports ports head found with ⟨others, again, related⟩
      rw [again]
      have builtReferences : ∀ reference ∈ references, reference.Built := fun reference listed =>
        let ⟨_, _, inside, _⟩ := exists_of_mem_forall₂ related listed
        built reference inside
      have builtOthers : ∀ reference ∈ others, reference.Built := fun reference listed =>
        let ⟨_, _, _, inside, _⟩ := exists_of_mem_forall₂ related.flip listed
        builtPort reference inside
      have ported := Compilation.Ports.ofDecl head (related.imp fun _ _ alike => alike.2.2)
        builtReferences builtOthers
      refine ih (List.rel_append ports (.cons ported .nil)) (fun compilation inside => ?_)
        (fun compilation inside => ?_) compiled
      · rcases List.mem_append.mp inside with earlier | last
        · exact built compilation earlier
        · rw [List.mem_singleton.mp last]
          exact .ofDecl _ builtReferences _
      · rcases List.mem_append.mp inside with earlier | last
        · exact builtPort compilation earlier
        · rw [List.mem_singleton.mp last]
          exact .ofDecl _ builtOthers _

end Manifest

/-- Manifests that are ports are compiled to ports. -/
theorem Manifest.Ports.compileAll {first second : Manifest} (ports : first.Ports second)
    {all : List Compilation} (compiled : first.compileAll = .ok all) :
    ∃ others, second.compileAll = .ok others ∧ List.Forall₂ Compilation.Ports all others ∧
      (∀ compilation ∈ all, compilation.Built) ∧ ∀ compilation ∈ others, compilation.Built :=
  compileEntries_ports .nil nofun nofun ports compiled

end Conformance
