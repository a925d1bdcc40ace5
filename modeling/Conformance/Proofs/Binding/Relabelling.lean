import Conformance.Proofs.Binding.Bound

/-!
Names and core libraries of assemblies.

Binding looks at neither: tables whose assemblies differ in them only are bound alike
(`SymbolTable.Relabels.bind`). Every phase but the look-up of names runs on types and members,
so exchanging the assemblies of a table commutes with it.
-/

namespace Conformance

/-- Two assemblies are the same but for their names and core libraries. -/
def AssemblySymbol.SameButLabel (first second : AssemblySymbol) : Prop :=
  second = { first with name := second.name, coreLibrary := second.coreLibrary }

namespace SymbolTable

/-- The symbols of two tables are the same, but for the names and core libraries of
assemblies. -/
structure Relabels (s t : SymbolTable) : Prop where
  types : t.types = s.types
  members : t.members = s.members
  assemblies : ∀ id, Option.Rel AssemblySymbol.SameButLabel (s.assembly? id) (t.assembly? id)

/-! ## Assemblies exchanged -/

/-- The table with other assemblies. -/
def withAssemblies (assemblies : Array AssemblySymbol) (table : SymbolTable) : SymbolTable :=
  { table with assemblies }

variable {s t : SymbolTable}

theorem eq_withAssemblies (types : t.types = s.types) (members : t.members = s.members) :
    t = s.withAssemblies t.assemblies := by
  rcases s with ⟨_, _, _⟩
  rcases t with ⟨_, _, _⟩
  cases types
  cases members
  rfl

end SymbolTable

/-! ## Cycles

Links are followed and cut in the types of a table, whatever else the table holds. -/

/-- A map of tables that leaves their types as they are, and commutes with changing one. -/
structure SymbolTable.KeepsTypes (f : SymbolTable → SymbolTable) : Prop where
  types : ∀ table, (f table).types = table.types
  modifyType : ∀ table id change, (f table).modifyType id change = f (table.modifyType id change)

/-- The state with its table mapped. -/
def Untangling.map (f : SymbolTable → SymbolTable) (state : Untangling) : Untangling :=
  { state with table := f state.table }

namespace SymbolTable.KeepsTypes

variable {f : SymbolTable → SymbolTable} (keeps : KeepsTypes f) (table : SymbolTable)
  (state : Untangling)

include keeps

theorem type? (id : TypeId) : (f table).type? id = table.type? id := by
  rw [SymbolTable.type?, SymbolTable.type?, keeps.types]

theorem displayType (id : TypeId) : (f table).displayType id = table.displayType id := by
  rw [SymbolTable.displayType, SymbolTable.displayType, keeps.type?]

theorem setHeritages (entries : List (TypeId × Heritage)) :
    (f table).setHeritages entries = f (table.setHeritages entries) :=
  List.foldl_hom f fun table entry => keeps.modifyType table entry.1 _

theorem basesReach (target : TypeId) (steps : Nat) (id : TypeId) :
    (f table).basesReach target steps id = table.basesReach target steps id := by
  induction steps generalizing id with
  | zero => rfl
  | succ steps ih =>
    unfold SymbolTable.basesReach
    simp only [ih, keeps.type?]

theorem baseChain (id : TypeId) : (f table).baseChain id = table.baseChain id := by
  have walk (steps : Nat) (visited : List TypeId) (id : TypeId) :
      (f table).walkBases steps visited id = table.walkBases steps visited id := by
    induction steps generalizing visited id with
    | zero => rfl
    | succ steps ih =>
      unfold walkBases
      simp only [ih, keeps.type?]
  exact walk maxDepth [] id

theorem searchInterfaces (target : TypeId) (steps : Nat) (visited pending : List TypeId) :
    (f table).searchInterfaces target steps visited pending =
      table.searchInterfaces target steps visited pending := by
  induction steps generalizing visited pending with
  | zero => rfl
  | succ steps ih =>
    cases pending with
    | nil => rfl
    | cons id pending =>
      unfold SymbolTable.searchInterfaces
      simp only [ih, keeps.type?]

theorem interfacesReach (target id : TypeId) :
    (f table).interfacesReach target id = table.interfacesReach target id := by
  rw [SymbolTable.interfacesReach, SymbolTable.interfacesReach, interfaceLinks, interfaceLinks,
    keeps.types, keeps.searchInterfaces]

theorem cutIf (closes : Except Fault Bool) (rule : Rule) (id other : TypeId)
    (cut : TypeSymbol → TypeSymbol) :
    (state.map f).cutIf closes rule id other cut = (state.cutIf closes rule id other cut).map f := by
  have report : (state.map f).report rule id other = (state.report rule id other).map f := by
    unfold Untangling.report
    rw [Untangling.map, keeps.type?, keeps.displayType, keeps.displayType]
    rfl
  unfold Untangling.cutIf
  rw [report]
  split
  · rfl
  · rfl
  · simp only [Untangling.map, keeps.modifyType]

theorem cutBase (id : TypeId) : (state.map f).cutBase id = (state.cutBase id).map f := by
  have fault : (state.map f).fault? = state.fault? := rfl
  have type : (state.map f).table.type? id = state.table.type? id := keeps.type? ..
  unfold Untangling.cutBase
  rw [fault, type]
  split
  · rfl
  · cases (state.table.type? id).bind TypeSymbol.base with
    | none => rfl
    | some base =>
      have reaches : (state.map f).table.basesReach id maxDepth base =
          state.table.basesReach id maxDepth base := keeps.basesReach ..
      simp only
      rw [reaches, keeps.cutIf]

theorem cutInterface (id inherited : TypeId) :
    (state.map f).cutInterface id inherited = (state.cutInterface id inherited).map f := by
  have fault : (state.map f).fault? = state.fault? := rfl
  have reaches : (state.map f).table.interfacesReach id inherited =
      state.table.interfacesReach id inherited := keeps.interfacesReach ..
  unfold Untangling.cutInterface
  rw [fault, reaches]
  split
  · rfl
  · rw [keeps.cutIf]

theorem cutInterfaces (id : TypeId) :
    (state.map f).cutInterfaces id = (state.cutInterfaces id).map f := by
  have type : (state.map f).table.type? id = state.table.type? id := keeps.type? ..
  unfold Untangling.cutInterfaces
  rw [type]
  cases state.table.type? id with
  | none => rfl
  | some symbol =>
    simp only
    split
    · exact List.foldl_hom (Untangling.map f) fun state inherited =>
        keeps.cutInterface state id inherited
    · rfl

theorem breakCycles (types : List TypeId) :
    (f table).breakCycles types = (table.breakCycles types).map f := by
  have start : ({ table := f table } : Untangling) = ({ table } : Untangling).map f := rfl
  unfold SymbolTable.breakCycles
  rw [start, List.foldl_hom (Untangling.map f) keeps.cutBase,
    List.foldl_hom (Untangling.map f) keeps.cutInterfaces]

end SymbolTable.KeepsTypes

namespace SymbolTable

section

variable (assemblies : Array AssemblySymbol) (table : SymbolTable)

theorem keepsTypes_withAssemblies : KeepsTypes (withAssemblies assemblies) :=
  ⟨fun _ => rfl, fun _ _ _ => rfl⟩

theorem addBlock_withAssemblies (block : MemberBlock) :
    (table.withAssemblies assemblies).addBlock block =
      (table.addBlock block).withAssemblies assemblies := by
  have symbols : block.symbols.foldl addMember (table.withAssemblies assemblies) =
      (block.symbols.foldl addMember table).withAssemblies assemblies :=
    List.foldl_hom (withAssemblies assemblies) fun _ _ => rfl
  unfold addBlock
  rw [symbols]
  rfl

/-- Members are bound alike whatever the assemblies are. -/
theorem foldl_bindMembers_withAssemblies (mode : BindMode) (entries : List (TypeId × TypeDecl))
    (state : SymbolTable × List Diagnostic) :
    entries.foldl (bindMembers mode) (state.1.withAssemblies assemblies, state.2) =
      ((entries.foldl (bindMembers mode) state).1.withAssemblies assemblies,
        (entries.foldl (bindMembers mode) state).2) := by
  refine List.foldl_hom (fun state : SymbolTable × List Diagnostic =>
    (state.1.withAssemblies assemblies, state.2)) fun state entry => ?_
  have type : (state.1.withAssemblies assemblies).type? entry.1 = state.1.type? entry.1 := rfl
  unfold bindMembers
  rw [type]
  cases state.1.type? entry.1 with
  | none => rfl
  | some symbol =>
    refine List.foldl_hom (fun state : SymbolTable × List Diagnostic =>
      (state.1.withAssemblies assemblies, state.2)) fun state decl => ?_
    exact Prod.ext (addBlock_withAssemblies assemblies state.1 _) rfl

theorem setTargets_withAssemblies (entries : List (MemberId × ExplicitTarget)) :
    (table.withAssemblies assemblies).setTargets entries =
      (table.setTargets entries).withAssemblies assemblies :=
  List.foldl_hom (withAssemblies assemblies) fun _ _ => rfl

/-- The targets of members depend on assemblies only through what names mean. -/
theorem targetsOf_withAssemblies (assembly : AssemblyId)
    (resolves : (table.withAssemblies assemblies).resolve? assembly = table.resolve? assembly) :
    (table.withAssemblies assemblies).targetsOf assembly = table.targetsOf assembly := by
  have binds : (table.withAssemblies assemblies).bindTarget assembly =
      table.bindTarget assembly := by
    unfold bindTarget
    rw [resolves]
    rfl
  unfold targetsOf
  rw [binds]
  rfl

end

/-! ## Binding -/

namespace Relabels

variable {s t : SymbolTable} (same : s.Relabels t)

include same

theorem assemblies_related : List.Forall₂ AssemblySymbol.SameButLabel s.assemblies.toList
    t.assemblies.toList :=
  forall₂_of_getElem? fun position => by
    rw [Array.getElem?_toList, Array.getElem?_toList]
    exact same.assemblies ⟨position⟩

theorem nextAssembly : t.nextAssembly = s.nextAssembly :=
  congrArg AssemblyId.mk same.assemblies_related.length_eq.symm

theorem type? (id : TypeId) : t.type? id = s.type? id := by
  rw [SymbolTable.type?, SymbolTable.type?, same.types]

theorem member? (id : MemberId) : t.member? id = s.member? id := by
  rw [SymbolTable.member?, SymbolTable.member?, same.members]

theorem map_assembly? {α : Type} (read : AssemblySymbol → α)
    (reads : ∀ first second, first.SameButLabel second → read second = read first)
    (id : AssemblyId) : (t.assembly? id).map read = (s.assembly? id).map read :=
  map_eq_map_of_rel (same.assemblies id) reads

theorem typesOf (id : AssemblyId) : t.typesOf id = s.typesOf id := by
  rw [SymbolTable.typesOf, SymbolTable.typesOf,
    same.map_assembly? AssemblySymbol.types (fun _ _ alike => by rw [alike])]

/-- Names of types mean the same in both tables. -/
theorem resolve? (assembly : AssemblyId) : t.resolve? assembly = s.resolve? assembly := by
  funext name
  simp only [SymbolTable.resolve?, typeSeenFrom?, typeIn?, same.typesOf, same.type?,
    same.map_assembly? AssemblySymbol.references (fun _ _ alike => by rw [alike])]

variable {first second : AssemblyDecl} (sameTypes : second.types = first.types)
  (references : List AssemblyId) (mode : BindMode)

include sameTypes

theorem declaring : (s.declaring first references mode).Relabels
    (t.declaring second references mode) where
  types := by
    refine Array.ext_getElem? fun index => ?_
    have declared : (t.declaring second references mode).type? ⟨index⟩ =
        (s.declaring first references mode).type? ⟨index⟩ := by
      rw [type?_declaring, type?_declaring, same.types, same.type?, same.nextAssembly, sameTypes]
    exact declared
  members := by
    refine Array.ext_getElem? fun index => ?_
    have declared : (t.declaring second references mode).member? ⟨index⟩ =
        (s.declaring first references mode).member? ⟨index⟩ := by
      rw [member?_declaring, member?_declaring, same.member?]
    exact declared
  assemblies id := by
    rw [assembly?_declaring, assembly?_declaring, same.nextAssembly, same.types, sameTypes]
    split
    · exact .some rfl
    · exact same.assemblies id

theorem typeEntries : t.typeEntries second = s.typeEntries first := by
  rw [SymbolTable.typeEntries, SymbolTable.typeEntries, same.types, sameTypes]

theorem heritages : t.heritages second references mode = s.heritages first references mode := by
  rw [SymbolTable.heritages, SymbolTable.heritages, same.typeEntries sameTypes,
    same.nextAssembly, (same.declaring sameTypes references mode).resolve?]

/-! Each phase is run on the table with the assemblies that are declared in the other one. -/

theorem inheriting : t.inheriting second references mode =
    (s.inheriting first references mode).withAssemblies
      (t.declaring second references mode).assemblies := by
  have declared := same.declaring sameTypes references mode
  have exchanged : t.declaring second references mode =
      (s.declaring first references mode).withAssemblies
        (t.declaring second references mode).assemblies :=
    eq_withAssemblies declared.types declared.members
  have entered := (keepsTypes_withAssemblies
    (t.declaring second references mode).assemblies).setHeritages
      (s.declaring first references mode) (s.heritages first references mode)
  rw [← exchanged] at entered
  rw [SymbolTable.inheriting, same.heritages sameTypes, entered]
  rfl

theorem untangling : t.untangling second references mode =
    (s.untangling first references mode).map
      (withAssemblies (t.declaring second references mode).assemblies) := by
  rw [SymbolTable.untangling, same.inheriting sameTypes,
    (keepsTypes_withAssemblies _).breakCycles, same.types, sameTypes]
  rfl

theorem populating : t.populating second references mode =
    ((s.populating first references mode).1.withAssemblies
      (t.declaring second references mode).assemblies,
      (s.populating first references mode).2) := by
  rw [SymbolTable.populating, same.untangling sameTypes, same.typeEntries sameTypes]
  exact foldl_bindMembers_withAssemblies _ mode _
    ((s.untangling first references mode).table, [])

variable (wellFormed : s.WellFormed)

include wellFormed

/-- Between the declaration of types and their members, no phase looks at an assembly. -/
theorem populating_relabels : (s.populating first references mode).1.Relabels
    (t.populating second references mode).1 := by
  have declared := same.declaring sameTypes references mode
  have members : (s.untangling first references mode).table.SameButMembers
    (s.populating first references mode).1 := wellFormed.closed.sameButMembers_populating
  have cut : (s.inheriting first references mode).Trims
    (s.untangling first references mode).table := wellFormed.untangling_keeps.trims
  have links : (s.declaring first references mode).SameButLinks
    (s.inheriting first references mode) := sameButLinks_inheriting
  rw [same.populating sameTypes]
  refine ⟨rfl, rfl, fun id => ?_⟩
  rw [SymbolTable.assembly?, members.assemblies, cut.assemblies, links.assemblies]
  exact declared.assemblies id

theorem targetsOf : (t.populating second references mode).1.targetsOf t.nextAssembly =
    (s.populating first references mode).1.targetsOf s.nextAssembly := by
  have relabels := same.populating_relabels sameTypes references mode wellFormed
  rw [same.populating sameTypes] at relabels ⊢
  rw [same.nextAssembly]
  exact targetsOf_withAssemblies _ _ _ (relabels.resolve? _)

theorem targeting : t.targeting second references mode =
    (s.targeting first references mode).withAssemblies
      (t.declaring second references mode).assemblies := by
  rw [SymbolTable.targeting, targetEntries, same.targetsOf sameTypes references mode wellFormed,
    same.populating sameTypes, setTargets_withAssemblies, same.types, sameTypes]
  rfl

/-- Declarations with the same types are bound alike in both tables. -/
theorem bind (wellFormedSecond : t.WellFormed) :
    (s.bind first references mode).table.Relabels (t.bind second references mode).table ∧
      (t.bind second references mode).assembly = (s.bind first references mode).assembly ∧
      (t.bind second references mode).diagnostics = (s.bind first references mode).diagnostics := by
  have targeting := same.targeting sameTypes references mode wellFormed
  have types : (t.targeting second references mode).types =
      (s.targeting first references mode).types := by
    rw [targeting]
    rfl
  have members : (t.targeting second references mode).members =
      (s.targeting first references mode).members := by
    rw [targeting]
    rfl
  rw [bind_eq wellFormed.untangling_keeps.fault, bind_eq wellFormedSecond.untangling_keeps.fault]
  refine ⟨⟨types, members, fun id => ?_⟩, same.nextAssembly, ?_⟩
  · rw [wellFormed.assembly?_targeting, wellFormedSecond.assembly?_targeting]
    exact (same.declaring sameTypes references mode).assemblies id
  · rw [same.targetsOf sameTypes references mode wellFormed, same.heritages sameTypes,
      same.untangling sameTypes, same.populating sameTypes, same.types, sameTypes]
    rfl

end Relabels

end SymbolTable

end Conformance
