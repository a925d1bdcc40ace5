import Conformance.Proofs.Binding.Mirrors
import Conformance.Proofs.Compilation.Copying
import Conformance.Proofs.Compilation.Renaming

/-!
Assemblies that are exported and imported again.

The assemblies of one table are imported into another, each after those that it references
(`SymbolTable.Imports`). What is imported is an image of what was exported
(`SymbolTable.Imports.round_trip`). Names of assemblies play no part in this: both tables are given
names under which an assembly is called what its import is, and no two others are alike
(`SymbolTable.Naming`), so that the tables correspond.
-/

namespace Conformance

namespace SymbolTable

/-! ## Sequences of imports -/

/-- Assemblies of a table are imported into another, against imports of the assemblies that they
reference, and others are bound there too. The pairs are those of assemblies and their imports. -/
inductive Imports (s : SymbolTable) : SymbolTable → List (AssemblyId × AssemblyId) → Prop where
  | empty : Imports s ∅ []
  | bind {t : SymbolTable} {pairs : List (AssemblyId × AssemblyId)} (imports : Imports s t pairs)
      (decl : AssemblyDecl) {references : List AssemblyId}
      (known : ∀ reference ∈ references, ∃ symbol, t.assembly? reference = some symbol)
      (mode : BindMode) : Imports s (t.bind decl references mode).table pairs
  | copy {t : SymbolTable} {pairs : List (AssemblyId × AssemblyId)} (imports : Imports s t pairs)
      {a : AssemblyId} {A : AssemblySymbol} (found : s.assembly? a = some A)
      (fresh : ∀ b, (a, b) ∉ pairs) {references : List AssemblyId}
      (imported : List.Forall₂ (fun r q => (r, q) ∈ pairs) A.references references)
      {decl : AssemblyDecl} (exported : s.exportAssembly A = .ok decl) :
      Imports s (t.importAssembly decl references).table (pairs ++ [(a, t.nextAssembly)])

variable {s t : SymbolTable} {pairs : List (AssemblyId × AssemblyId)}

/-- The imports are there. -/
theorem Imports.bound (imports : s.Imports t pairs) : BindsAll ∅ t ∧
    ∀ pair ∈ pairs, ∃ B, t.assembly? pair.2 = some B := by
  induction imports with
  | empty => exact ⟨.refl, nofun⟩
  | @bind t pairs _ decl references known mode ih =>
    rcases ih with ⟨binds, images⟩
    have grown := (bind_bound (binds.made .empty).wellFormed decl references mode).grown
    refine ⟨binds.tail ⟨decl, references, mode, known, rfl⟩, fun pair listed => ?_⟩
    rcases images pair listed with ⟨B, found⟩
    exact ⟨B, grown.assembly found⟩
  | @copy t pairs _ a A found _ references imported decl _ ih =>
    rcases ih with ⟨binds, images⟩
    have bound := bind_bound (binds.made .empty).wellFormed decl references .metadata
    have known : ∀ q ∈ references, ∃ symbol, t.assembly? q = some symbol := by
      intro q listed
      rcases exists_of_mem_forall₂ (List.Forall₂.flip imported) listed with ⟨r, _, paired⟩
      exact images (r, q) paired
    refine ⟨binds.tail ⟨decl, references, .metadata, known, rfl⟩, fun pair listed => ?_⟩
    rcases List.mem_append.mp listed with earlier | last
    · rcases images pair earlier with ⟨B, foundImage⟩
      exact ⟨B, bound.grown.assembly foundImage⟩
    · cases List.mem_singleton.mp last
      exact ⟨_, bound.assembly ▸ bound.symbol⟩

/-- An assembly is imported once, and an import is one of one assembly. -/
theorem Imports.unique (imports : s.Imports t pairs) {a a' b b' : AssemblyId}
    (first : (a, b) ∈ pairs) (second : (a', b') ∈ pairs) : a = a' ↔ b = b' := by
  induction imports with
  | empty => cases first
  | bind _ _ _ _ ih => exact ih first second
  | @copy t pairs imports c _ _ fresh _ _ _ _ ih =>
    have new {a b : AssemblyId} (listed : (a, b) ∈ pairs) : a ≠ c ∧ b ≠ t.nextAssembly := by
      refine ⟨fun same => fresh b (same ▸ listed), fun same => ?_⟩
      rcases imports.bound.2 _ listed with ⟨B, found⟩
      have inside := lt_of_assembly? found
      simp only [same] at inside
      exact Nat.lt_irrefl _ inside
    rcases List.mem_append.mp first with one | one <;>
      rcases List.mem_append.mp second with two | two
    · exact ih one two
    · cases List.mem_singleton.mp two
      exact iff_of_false (new one).1 (new one).2
    · cases List.mem_singleton.mp one
      exact iff_of_false (new two).1.symm (new two).2.symm
    · cases List.mem_singleton.mp one
      cases List.mem_singleton.mp two
      exact iff_of_true rfl rfl

/-- Interfaces are abstract. -/
theorem BindsAll.isAbstract (binds : BindsAll ∅ t) {x : TypeId} {X : TypeSymbol}
    (found : t.type? x = some X) (isInterface : X.isInterface = true) : X.isAbstract = true := by
  induction binds generalizing X with
  | refl => cases found
  | @tail before after earlier step ih =>
    rcases step with ⟨decl, references, mode, _, rfl⟩
    have wellFormed := (BindsAll.made earlier .empty).wellFormed
    have bound := bind_bound wellFormed decl references mode
    rcases bound.wellFormed.laid.assembly found with ⟨A, foundAssembly, listed⟩
    by_cases new : X.assembly = (before.bind decl references mode).assembly
    · rw [new, bound.symbol] at foundAssembly
      cases foundAssembly
      rcases mem_typeIds.mp listed with ⟨above, below⟩
      have inside : x.index - before.types.size < decl.types.length := by omega
      rcases bound.types (List.getElem?_eq_getElem inside) with ⟨Y, foundAgain, bindsType⟩
      rw [Nat.add_sub_cancel' above] at foundAgain
      cases found.symm.trans foundAgain
      rw [bindsType.shell] at isInterface ⊢
      have kind : decl.types[x.index - before.types.size].kind = .interfaceType :=
        of_decide_eq_true isInterface
      show (if decl.types[x.index - before.types.size].kind = .interfaceType then _
        else _ : Modifiers).isAbstract = true
      rw [if_pos kind]
    · rcases wellFormed.laid.type (bound.others foundAssembly new) listed with ⟨Y, foundBefore, _⟩
      cases found.symm.trans (bound.grown.type foundBefore)
      exact ih foundBefore isInterface

/-! ## Names -/

/-- Names for the assemblies of two tables: all are different, but for those of assemblies and
their imports. -/
structure Naming (pairs : List (AssemblyId × AssemblyId)) (names images : Nat → String) :
    Prop where
  first : names.Injective
  second : images.Injective
  paired : ∀ {a b}, images b.index = names a.index ↔ (a, b) ∈ pairs

/-- The number of an assembly in the table with imports: for an import, twice that of the assembly
it is one of, and an odd number for the others. -/
def imageNumber (pairs : List (AssemblyId × AssemblyId)) (index : Nat) : Nat :=
  match pairs.find? fun pair => pair.2.index == index with
  | some pair => 2 * pair.1.index
  | none => 2 * index + 1

theorem imageNumber_cases (pairs : List (AssemblyId × AssemblyId)) (index : Nat) :
    (∃ a, (a, ⟨index⟩) ∈ pairs ∧ imageNumber pairs index = 2 * a.index) ∨
      (∀ a, (a, ⟨index⟩) ∉ pairs) ∧ imageNumber pairs index = 2 * index + 1 := by
  unfold imageNumber
  cases found : pairs.find? fun pair => pair.2.index == index with
  | some pair =>
    have same : pair.2.index = index := by simpa using List.find?_some found
    refine .inl ⟨pair.1, ?_, rfl⟩
    rw [← same]
    exact List.mem_of_find?_eq_some found
  | none =>
    refine .inr ⟨fun a listed => ?_, rfl⟩
    exact List.find?_eq_none.mp found _ listed (beq_self_eq_true index)

theorem Imports.imageNumber (imports : s.Imports t pairs) {a b : AssemblyId} :
    imageNumber pairs b.index = 2 * a.index ↔ (a, b) ∈ pairs := by
  rcases imageNumber_cases pairs b.index with ⟨c, paired, number⟩ | ⟨alone, number⟩
  · constructor
    · intro same
      have origin : c = a := congrArg AssemblyId.mk (by omega)
      exact origin ▸ paired
    · intro listed
      rw [number, (imports.unique paired listed).mpr rfl]
  · exact iff_of_false (by omega) (alone a)

theorem Imports.injective_imageNumber (imports : s.Imports t pairs) :
    (SymbolTable.imageNumber pairs).Injective := by
  intro i j same
  rcases imageNumber_cases pairs i with ⟨a, one, left⟩ | ⟨_, left⟩ <;>
    rcases imageNumber_cases pairs j with ⟨c, two, right⟩ | ⟨_, right⟩
  · have origin : a = c := congrArg AssemblyId.mk (by omega)
    exact congrArg AssemblyId.index ((imports.unique one two).mp origin)
  all_goals omega

theorem Imports.exists_naming (imports : s.Imports t pairs) :
    ∃ names images, Naming pairs names images := by
  have apart := injective_ofList_replicate 'a'
  have doubled : Function.Injective fun index => 2 * index :=
    fun _ _ same => Nat.eq_of_mul_eq_mul_left Nat.two_pos same
  refine ⟨_, _, apart.comp doubled, apart.comp imports.injective_imageNumber, ?_⟩
  exact apart.eq_iff.trans imports.imageNumber

/-! ## Copies -/

section

variable {names images : Nat → String} {all : List (AssemblyId × AssemblyId)}
  (naming : Naming all names images) (binds : BindsAll ∅ s) (imports : s.Imports t pairs)
  {a : AssemblyId} {A : AssemblySymbol} (found : s.assembly? a = some A)

include naming binds imports found

/-- The next assembly to import, under the names of a naming. -/
theorem Imports.importable
    (copied : ∀ {r q}, (r, q) ∈ pairs → ∃ R Q, (s.rename names).Copied (t.rename images) r q R Q)
    {references : List AssemblyId}
    (imported : List.Forall₂ (fun r q => (r, q) ∈ pairs) A.references references)
    (next : (a, t.nextAssembly) ∈ all) :
    (s.rename names).Importable (t.rename images) a { A with name := names a.index } where
  first := binds.orderly naming.first
  second := imports.bound.1.orderly naming.second
  found := assembly?_rename_of_some found
  references {r R} listed foundFirst := by
    rcases exists_of_mem_forall₂ imported listed with ⟨q, _, paired⟩
    rcases copied paired with ⟨R', Q, copied⟩
    cases foundFirst.symm.trans copied.first
    exact ⟨q, Q, copied.second, copied.name, copied.outline⟩
  fresh := by
    rw [assemblyNamed?_eq_none]
    rintro ⟨b, B, foundImage, same⟩
    rcases assembly?_of_rename foundImage with ⟨_, known, rfl⟩
    -- The name is that of the next assembly, which is not there.
    have last : b = t.nextAssembly :=
      congrArg AssemblyId.mk (naming.second (same.trans (naming.paired.mpr next).symm))
    have inside := lt_of_assembly? known
    rw [last] at inside
    exact Nat.lt_irrefl _ inside

/-- Giving names commutes with importing an assembly. -/
theorem Imports.rename_importAssembly
    (copied : ∀ {r q}, (r, q) ∈ pairs → ∃ R Q, (s.rename names).Copied (t.rename images) r q R Q)
    {references : List AssemblyId}
    (imported : List.Forall₂ (fun r q => (r, q) ∈ pairs) A.references references)
    (next : (a, t.nextAssembly) ∈ all) :
    (t.importAssembly (s.exportedAssembly A) references).table.rename images =
      (t.rename images).importing
        ((s.rename names).exportedAssembly { A with name := names a.index }) := by
  have importable := imports.importable naming binds found copied imported next
  have binding := rename_bind (imports.bound.1.made .empty).wellFormed
    importable.second.wellFormed (s.exportedAssembly A) references .metadata
  have sameName : images t.nextAssembly.index = names a.index := naming.paired.mpr next
  have same : references = (t.rename images).referencedBy
      ((s.rename names).exportedAssembly { A with name := names a.index }) := by
    have distinct : (t.rename images).DistinctNames := importable.second.distinct
    have unique : Relator.RightUnique ((s.rename names).SharesName (t.rename images)) :=
      distinct.sharesName_rightUnique
    refine List.right_unique_forall₂' unique (imported.imp ?_)
      (importable.references_related.imp ?_)
    · intro r q paired
      rcases copied paired with ⟨R, Q, copied⟩
      exact ⟨R, Q, copied.first, copied.second, copied.name⟩
    · rintro r q ⟨R, Q, foundR, foundQ, name, _⟩
      exact ⟨R, Q, foundR, foundQ, name⟩
  rw [importAssembly, binding, sameName, importing, ← same]
  rfl

end

/-- What was imported is a copy, under the names of a naming. -/
theorem Imports.copied (imports : s.Imports t pairs) {names images : Nat → String}
    {all : List (AssemblyId × AssemblyId)} (naming : Naming all names images)
    (binds : BindsAll ∅ s) (listed : pairs ⊆ all) {a b : AssemblyId} (paired : (a, b) ∈ pairs) :
    ∃ A B, (s.rename names).Copied (t.rename images) a b A B := by
  induction imports generalizing a b with
  | empty => cases paired
  | @bind t pairs imports decl references known mode ih =>
    rcases ih listed paired with ⟨A, B, copied⟩
    have orderly := imports.bound.1.orderly naming.second
    have wellFormed := (imports.bound.1.made .empty).wellFormed
    refine ⟨A, B, copied.extends orderly ?_⟩
    rw [rename_bind wellFormed orderly.wellFormed]
    exact (bind_bound orderly.wellFormed _ references mode).grown
  | @copy t pairs imports c C found fresh references imported decl exported ih =>
    have earlier : pairs ⊆ all := fun pair inside => listed (List.mem_append_left _ inside)
    have next : (c, t.nextAssembly) ∈ all := listed (List.mem_append_right _ List.mem_cons_self)
    cases exported.symm.trans
      (SymbolTable.Closed.exportAssembly (binds.made .empty).wellFormed.closed C)
    have importable := imports.importable naming binds found (ih earlier) imported next
    rw [imports.rename_importAssembly naming binds found (ih earlier) imported next]
    rcases List.mem_append.mp paired with old | new
    · rcases ih earlier old with ⟨A, B, copied⟩
      exact ⟨A, B, copied.extends importable.second importable.bound.grown⟩
    · cases List.mem_singleton.mp new
      rcases importable.copied fun {x X} => binds.isAbstract with ⟨B, copied⟩
      rw [nextAssembly_rename] at copied
      exact ⟨_, B, copied⟩

/-! ## Images -/

/-- The outlines of the assemblies of a table, by their names. -/
def catalogue (table : SymbolTable) : Catalogue := fun name =>
  ((table.assemblyNamed? name).bind table.assembly?).map table.assemblyOutline

theorem Orderly.catalogue {table : SymbolTable} (orderly : table.Orderly) {id : AssemblyId}
    {assembly : AssemblySymbol} (found : table.assembly? id = some assembly) :
    table.catalogue assembly.name = some (table.assemblyOutline assembly) := by
  have distinct : table.DistinctNames := orderly.distinct
  rw [SymbolTable.catalogue, distinct.assemblyNamed? found, Option.bind_some, found,
    Option.map_some]

/-- What one of two tables has under a name, the first one if both have something. -/
def jointCatalogue (first second : SymbolTable) : Catalogue := fun name =>
  (first.catalogue name).or (second.catalogue name)

theorem Orderly.genuine_joint (orderly : s.Orderly) : Genuine (s.jointCatalogue t) s := by
  refine ⟨orderly, fun {id assembly} found => ?_⟩
  rw [jointCatalogue, orderly.catalogue found, Option.some_or]

/-- Under the names of a naming, both tables have the same under one name. -/
theorem Imports.genuine_joint (imports : s.Imports t pairs) {names images : Nat → String}
    (naming : Naming pairs names images) (binds : BindsAll ∅ s) :
    Genuine ((s.rename names).jointCatalogue (t.rename images)) (t.rename images) := by
  have first := binds.orderly naming.first
  have second := imports.bound.1.orderly naming.second
  refine ⟨second, fun {b B} found => ?_⟩
  unfold jointCatalogue
  cases named : (s.rename names).assemblyNamed? B.name with
  | none =>
    have absent : (s.rename names).catalogue B.name = none := by
      rw [SymbolTable.catalogue, named]
      rfl
    rw [absent, Option.none_or, second.catalogue found]
  | some a =>
    rcases assemblyNamed?_some named with ⟨A, foundFirst, same⟩
    have name : A.name = names a.index := by
      rcases assembly?_of_rename foundFirst with ⟨_, _, rfl⟩
      rfl
    have image : B.name = images b.index := by
      rcases assembly?_of_rename found with ⟨_, _, rfl⟩
      rfl
    have paired : (a, b) ∈ pairs := naming.paired.mp (image.symm.trans (same.symm.trans name))
    rcases imports.copied naming binds (List.Subset.refl _) paired with ⟨_, _, copied⟩
    cases foundFirst.symm.trans copied.first
    cases found.symm.trans copied.second
    rw [← same, first.catalogue foundFirst, Option.some_or, copied.outline]

/-- A table with imports is extended to one that corresponds to the table they are from: all other
assemblies are imported too. -/
theorem Imports.exists_corresponding (imports : s.Imports t pairs) {names images : Nat → String}
    (naming : Naming pairs names images) (binds : BindsAll ∅ s) :
    ∃ last : SymbolTable, last.Orderly ∧ (t.rename images).Extends last ∧
      (s.rename names).Corresponds last := by
  have genuine := (binds.orderly naming.first).genuine_joint (t := t.rename images)
  have copies := Compilation.copyAssemblies_copies genuine (imports.genuine_joint naming binds)
    [] rfl nofun
  refine ⟨_, copies.genuine.orderly, copies.grown, genuine.corresponds copies.genuine ?_⟩
  rintro name ⟨id, assembly, found, same⟩
  refine (copies.names name).mpr (.inr ⟨assembly, ?_, same⟩)
  exact Array.mem_toList_iff.mpr (Array.mem_of_getElem? found)

/-- What was imported is an image of what it was imported from. -/
theorem Imports.mirrors (imports : s.Imports t pairs) (binds : BindsAll ∅ s) :
    ∃ (type : TypeId → TypeId) (member : MemberId → MemberId), type.Injective ∧
      member.Injective ∧ ∀ pair ∈ pairs, s.MirrorsAssembly t type member pair.1 pair.2 := by
  rcases imports.exists_naming with ⟨names, images, naming⟩
  rcases imports.exists_corresponding naming binds with ⟨last, orderly, grown, corresponds⟩
  have first := binds.orderly naming.first
  have second := imports.bound.1.orderly naming.second
  refine ⟨_, _, typeMap_injective first orderly, memberMap_injective first orderly,
    fun pair paired => ?_⟩
  rcases imports.copied naming binds (List.Subset.refl _) paired with ⟨_, _, copied⟩
  rcases copied.mirrors first second orderly grown corresponds with
    ⟨_, _, renamed, renamedImage, types, mirrors⟩
  rcases assembly?_of_rename renamed with ⟨A, found, rfl⟩
  rcases assembly?_of_rename renamedImage with ⟨B, foundImage, rfl⟩
  exact ⟨A, B, found, foundImage, types, mirrors⟩

/-- An assembly is exported and imported where the assemblies that it references were imported. Its
copy is an image of it, position by position, and so are the copies made before. Members keep their
modifiers and bodies, unless their modifiers are lossy. -/
theorem Imports.round_trip (imports : s.Imports t pairs) (binds : BindsAll ∅ s) {a : AssemblyId}
    {A : AssemblySymbol} (found : s.assembly? a = some A) (fresh : ∀ b, (a, b) ∉ pairs)
    {references : List AssemblyId}
    (imported : List.Forall₂ (fun r q => (r, q) ∈ pairs) A.references references) :
    ∃ decl, s.exportAssembly A = .ok decl ∧ (t.importAssembly decl references).fault? = none ∧
      ∃ (type : TypeId → TypeId) (member : MemberId → MemberId), type.Injective ∧
        member.Injective ∧
        ∀ pair ∈ pairs ++ [(a, (t.importAssembly decl references).assembly)],
          s.MirrorsAssembly (t.importAssembly decl references).table type member pair.1 pair.2 := by
  have exported := (binds.made .empty).wellFormed.closed.exportAssembly A
  have wellFormed := (imports.bound.1.made .empty).wellFormed
  refine ⟨_, exported, ?_, ?_⟩
  · rw [importAssembly, bind_eq wellFormed.untangling_keeps.fault]
  · have next : (t.importAssembly (s.exportedAssembly A) references).assembly = t.nextAssembly :=
      (bind_bound wellFormed _ references .metadata).assembly
    rw [next]
    exact (imports.copy found fresh imported exported).mirrors binds

end SymbolTable

/-! ## A class that is exported -/

/-- An interface with a method. -/
def voices : AssemblyDecl where
  name := "Voices"
  types :=
    [{ name := "IVoice", kind := .interfaceType, members := [.method { name := "Sing" }] }]

/-- A class that implements it, with an abstract method that is given no accessibility. -/
def choir : AssemblyDecl where
  name := "Choir"
  references := ["Voices"]
  types :=
    [{ name := "Singer", kind := .classType, modifiers := { isAbstract := true },
       interfaces := ["IVoice"],
       members :=
        [.method { name := "Sing", explicitInterface := some "IVoice", hasBody := true },
          .method { name := "Rest", modifiers := { isAbstract := true } }] }]

/-- The table with the interface. -/
def voiced : SymbolTable := ((∅ : SymbolTable).bind voices [] (.source .v8_0)).table

/-- The table with both. -/
def chorus : SymbolTable := (voiced.bind choir [⟨0⟩] (.source .v8_0)).table

/-- The assembly of the interface there. -/
def voicesSymbol : AssemblySymbol where
  name := "Voices"
  types := [⟨0⟩]

/-- The assembly of the class there. -/
def choirSymbol : AssemblySymbol where
  name := "Choir"
  references := [⟨0⟩]
  types := [⟨1⟩]

/-- The table that the interface was imported into. -/
def echo : SymbolTable :=
  ((∅ : SymbolTable).importAssembly (chorus.exportedAssembly voicesSymbol) []).table

theorem chorus_binds : SymbolTable.BindsAll ∅ chorus := by
  refine .tail (.single ⟨voices, [], .source .v8_0, nofun, rfl⟩)
    ⟨choir, [⟨0⟩], .source .v8_0, fun reference listed => ?_, rfl⟩
  cases List.mem_singleton.mp listed
  exact ⟨voicesSymbol, by decide +kernel⟩

theorem chorus_exports (assembly : AssemblySymbol) :
    chorus.exportAssembly assembly = .ok (chorus.exportedAssembly assembly) :=
  (chorus_binds.made .empty).wellFormed.closed.exportAssembly assembly

theorem echo_imports : chorus.Imports echo [(⟨0⟩, ⟨0⟩)] :=
  .copy (a := ⟨0⟩) (A := voicesSymbol) .empty (by decide +kernel) nofun .nil
    (chorus_exports voicesSymbol)

/-- The class is imported after the interface. -/
theorem choir_round_trip : ∃ decl, chorus.exportAssembly choirSymbol = .ok decl ∧
    (echo.importAssembly decl [⟨0⟩]).fault? = none ∧
      ∃ (type : TypeId → TypeId) (member : MemberId → MemberId), type.Injective ∧
        member.Injective ∧
        ∀ pair ∈ [(⟨0⟩, ⟨0⟩)] ++ [(⟨1⟩, (echo.importAssembly decl [⟨0⟩]).assembly)],
          chorus.MirrorsAssembly (echo.importAssembly decl [⟨0⟩]).table type member pair.1 pair.2 :=
  echo_imports.round_trip chorus_binds (a := ⟨1⟩) (A := choirSymbol) (by decide +kernel)
    (by simp) (.cons List.mem_cons_self .nil)

/-- The class is bound without a complaint. Its private method is abstract before it is exported,
and has a body after it is imported. -/
theorem choir_loses_abstract : (voiced.bind choir [⟨0⟩] (.source .v8_0)).diagnostics = [] ∧
    (chorus.member? ⟨2⟩).map MemberSymbol.marks =
      some ({ isPrivate := true, isAbstract := true }, false) ∧
    ∃ decl, chorus.exportAssembly choirSymbol = .ok decl ∧
      ((echo.importAssembly decl [⟨0⟩]).table.member? ⟨2⟩).map MemberSymbol.marks =
        some ({ isPrivate := true }, true) :=
  ⟨by decide +kernel, by decide +kernel, _, chorus_exports choirSymbol, by decide +kernel⟩

end Conformance
