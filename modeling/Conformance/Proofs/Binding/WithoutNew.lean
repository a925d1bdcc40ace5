import Conformance.Proofs.Binding.Erasure

/-!
Binding tables without `new`.

No phase of binding looks at `new` in a table, so binding commutes with taking it out of the table
and of the declaration (`SymbolTable.bind_withoutNew`).
-/

namespace Conformance

/-- What binding leads to, without `new` and what is reported of it. -/
def Binding.withoutNew (binding : Binding) : Binding :=
  { binding with
    table := binding.table.withoutNew
    diagnostics := ignoringNew binding.diagnostics }

namespace SymbolTable

variable (table : SymbolTable)

/-! ## Look-ups -/

/-- The member without `new`, with its id. -/
def entryWithoutNew (entry : MemberId × MemberSymbol) : MemberId × MemberSymbol :=
  (entry.1, entry.2.withoutNew)

theorem keepsTypes_withoutNew : KeepsTypes withoutNew := ⟨fun _ => rfl, fun _ _ _ => rfl⟩

theorem nextMember_withoutNew : table.withoutNew.nextMember = table.nextMember :=
  congrArg MemberId.mk Array.size_map

theorem member?_withoutNew (id : MemberId) :
    table.withoutNew.member? id = (table.member? id).map MemberSymbol.withoutNew :=
  Array.getElem?_map

theorem lookup_withoutNew (ids : List MemberId) :
    (ids.filterMap fun id => (table.withoutNew.member? id).map fun member => (id, member)) =
      (ids.filterMap fun id => (table.member? id).map fun member => (id, member)).map
        entryWithoutNew := by
  rw [List.map_filterMap]
  refine List.filterMap_congr fun id _ => ?_
  rw [member?_withoutNew, Option.map_map, Option.map_map]
  rfl

theorem membersOf_withoutNew (type : TypeSymbol) : table.withoutNew.membersOf type =
    (table.membersOf type).map entryWithoutNew :=
  table.lookup_withoutNew type.members

theorem accessorsOf_withoutNew (member : MemberSymbol) :
    table.withoutNew.accessorsOf member.withoutNew =
      (table.accessorsOf member).map entryWithoutNew :=
  table.lookup_withoutNew member.accessors

theorem displayMember_withoutNew (member : MemberSymbol) :
    table.withoutNew.displayMember member.withoutNew = table.displayMember member := by
  have clause : member.withoutNew.clause? = member.clause? := rfl
  unfold displayMember
  rw [clause]
  cases member.clause? with
  | none => rfl
  | some clause =>
    simp only [member?_withoutNew]
    cases table.member? clause.2 <;> rfl

/-! ## Targets -/

theorem explicitTarget?_withoutNew (interface : TypeSymbol) (member : MemberSymbol) :
    table.withoutNew.explicitTarget? interface member.withoutNew =
      (table.explicitTarget? interface member).map entryWithoutNew := by
  unfold explicitTarget?
  rw [membersOf_withoutNew, List.find?_map]
  rfl

theorem bindAccessorTarget_withoutNew (interface : TypeId) (target : MemberSymbol)
    (accessor : MemberId × MemberSymbol) :
    table.withoutNew.bindAccessorTarget interface target.withoutNew
        (entryWithoutNew accessor) =
      table.bindAccessorTarget interface target accessor := by
  have found (id : MemberId) : ((table.withoutNew.member? id).bind fun member =>
      if table.withoutNew.isExplicitCandidate member then some id else none) =
        (table.member? id).bind fun member =>
          if table.isExplicitCandidate member then some id else none := by
    rw [member?_withoutNew, Option.bind_map]
    rfl
  have clause : (entryWithoutNew accessor).2.clause? = accessor.2.clause? := rfl
  have accessors : target.withoutNew.accessor? = target.accessor? := rfl
  have named : table.withoutNew.displayMember (entryWithoutNew accessor).2 =
      table.displayMember accessor.2 := table.displayMember_withoutNew accessor.2
  unfold bindAccessorTarget
  simp only [Option.bind_eq_bind, found, clause, accessors, named, displayMember_withoutNew]
  rfl

theorem bindTarget_withoutNew (assembly : AssemblyId) (id : MemberId) (member : MemberSymbol)
    (interface : String) :
    table.withoutNew.bindTarget assembly id member.withoutNew interface =
      table.bindTarget assembly id member interface := by
  have resolves : table.withoutNew.resolve? assembly interface =
      table.resolve? assembly interface := rfl
  have span : member.withoutNew.span = member.span := rfl
  unfold bindTarget
  rw [resolves]
  cases table.resolve? assembly interface with
  | none => rfl
  | some entry =>
    simp only [explicitTarget?_withoutNew, span, displayMember_withoutNew]
    cases table.explicitTarget? entry.2 member with
    | none => rfl
    | some target =>
      have accessors : (table.withoutNew.accessorsOf member.withoutNew).map
          (table.withoutNew.bindAccessorTarget entry.1 target.2.withoutNew) =
            (table.accessorsOf member).map (table.bindAccessorTarget entry.1 target.2) := by
        rw [accessorsOf_withoutNew, List.map_map]
        exact List.map_congr_left fun accessor _ =>
          table.bindAccessorTarget_withoutNew entry.1 target.2 accessor
      simp only [Option.map_some, entryWithoutNew, accessors]

theorem targetsOf_withoutNew (assembly : AssemblyId) (id : TypeId) :
    table.withoutNew.targetsOf assembly id = table.targetsOf assembly id := by
  have type : table.withoutNew.type? id = table.type? id := rfl
  unfold targetsOf
  rw [type]
  cases table.type? id with
  | none => rfl
  | some type =>
    simp only [membersOf_withoutNew, List.filterMap_map]
    refine List.filterMap_congr fun entry _ => ?_
    have binds := funext (table.bindTarget_withoutNew assembly entry.1 entry.2)
    show entry.2.explicitInterface.map (table.withoutNew.bindTarget assembly entry.1
      entry.2.withoutNew) = _
    rw [binds]

theorem setTargets_withoutNew (entries : List (MemberId × ExplicitTarget)) :
    table.withoutNew.setTargets entries = (table.setTargets entries).withoutNew := by
  refine List.foldl_hom withoutNew fun table entry => ?_
  have members : (table.members.map MemberSymbol.withoutNew).modify entry.1.index
      (fun member => { member with target := some entry.2 }) =
        (table.members.modify entry.1.index
          fun member => { member with target := some entry.2 }).map MemberSymbol.withoutNew := by
    refine Array.ext_getElem? fun index => ?_
    rw [Array.getElem?_map, Array.getElem?_modify, Array.getElem?_modify, Array.getElem?_map]
    split
    · cases table.members[index]? <;> rfl
    · rfl
  show SymbolTable.mk _ _ _ = _
  rw [withoutNew, members]
  rfl

/-! ## Members -/

theorem addBlock_withoutNew (block : MemberBlock) :
    table.withoutNew.addBlock block.withoutNew = (table.addBlock block).withoutNew := by
  have added (table : SymbolTable) (member : MemberSymbol) :
      table.withoutNew.addMember member.withoutNew = (table.addMember member).withoutNew := by
    rw [addMember, addMember, withoutNew, withoutNew, Array.map_push]
  have symbols : block.withoutNew.symbols.foldl addMember table.withoutNew =
      (block.symbols.foldl addMember table).withoutNew := by
    show (block.symbols.map MemberSymbol.withoutNew).foldl addMember table.withoutNew = _
    rw [List.foldl_map]
    exact List.foldl_hom withoutNew added
  unfold addBlock
  rw [symbols, nextMember_withoutNew]
  rfl

/-- Members are bound alike in the order of the types. -/
theorem foldl_bindMembers_withoutNew (mode : BindMode) (entries : List (TypeId × TypeDecl))
    (state : SymbolTable × List Diagnostic) :
    (entries.map fun entry => (entry.1, entry.2.withoutNew)).foldl (bindMembers mode)
        (state.1.withoutNew, ignoringNew state.2) =
      ((entries.foldl (bindMembers mode) state).1.withoutNew,
        ignoringNew (entries.foldl (bindMembers mode) state).2) := by
  rw [List.foldl_map]
  refine List.foldl_hom (fun state : SymbolTable × List Diagnostic =>
    (state.1.withoutNew, ignoringNew state.2)) fun state entry => ?_
  have type : state.1.withoutNew.type? entry.1 = state.1.type? entry.1 := rfl
  unfold bindMembers
  rw [type]
  cases state.1.type? entry.1 with
  | none => rfl
  | some type =>
    show (entry.2.members.map MemberDecl.withoutNew).foldl _ _ = _
    rw [List.foldl_map]
    refine List.foldl_hom (fun state : SymbolTable × List Diagnostic =>
      (state.1.withoutNew, ignoringNew state.2)) fun state decl => ?_
    unfold bindMember
    rw [nextMember_withoutNew, decl.bind_withoutNew]
    exact Prod.ext (addBlock_withoutNew _ _) (ignoringNew_append _ _).symm

/-! ## Binding -/

section phases

variable (decl : AssemblyDecl) (references : List AssemblyId) (mode : BindMode)

theorem declaring_withoutNew : table.withoutNew.declaring decl.withoutNew references mode =
    (table.declaring decl references mode).withoutNew := by
  have declared (table : SymbolTable) (assembly : AssemblyId) (decls : List TypeDecl) :
      table.withoutNew.declareTypes assembly (decls.map TypeDecl.withoutNew) =
        (table.declareTypes assembly decls).withoutNew := by
    unfold declareTypes
    rw [List.foldl_map]
    exact List.foldl_hom withoutNew fun _ _ => rfl
  exact declared (table.addAssembly _) table.nextAssembly decl.types

theorem typeEntries_withoutNew : table.withoutNew.typeEntries decl.withoutNew =
    (table.typeEntries decl).map fun entry => (entry.1, entry.2.withoutNew) := by
  show (typeIds table.types.size (decl.types.map TypeDecl.withoutNew).length).zip
    (decl.types.map TypeDecl.withoutNew) = _
  rw [List.length_map, List.zip_map_right]
  rfl

theorem heritages_withoutNew : table.withoutNew.heritages decl.withoutNew references mode =
    table.heritages decl references mode := by
  unfold heritages
  rw [typeEntries_withoutNew, declaring_withoutNew, List.map_map]
  rfl

theorem untangling_withoutNew : table.withoutNew.untangling decl.withoutNew references mode =
    (table.untangling decl references mode).map withoutNew := by
  have length : decl.withoutNew.types.length = decl.types.length := List.length_map _
  unfold untangling inheriting
  rw [declaring_withoutNew, heritages_withoutNew, keepsTypes_withoutNew.setHeritages,
    keepsTypes_withoutNew.breakCycles, length]
  rfl

theorem populating_withoutNew : table.withoutNew.populating decl.withoutNew references mode =
    ((table.populating decl references mode).1.withoutNew,
      ignoringNew (table.populating decl references mode).2) := by
  unfold populating
  rw [untangling_withoutNew, typeEntries_withoutNew]
  exact foldl_bindMembers_withoutNew mode _ ((table.untangling decl references mode).table, [])

theorem targeting_withoutNew : table.withoutNew.targeting decl.withoutNew references mode =
    (table.targeting decl references mode).withoutNew := by
  have length : decl.withoutNew.types.length = decl.types.length := List.length_map _
  have targets (table : SymbolTable) : table.withoutNew.targetEntries = table.targetEntries := by
    funext assembly types
    rw [targetEntries, targetEntries, funext (table.targetsOf_withoutNew assembly)]
  unfold targeting
  rw [populating_withoutNew, setTargets_withoutNew, targets, length]
  rfl

/-- Where a walk comes to a type that does not exist, binding ends. -/
theorem bind_of_fault {fault : Fault}
    (faulted : (table.untangling decl references mode).fault? = some fault) :
    table.bind decl references mode =
      { table := (table.untangling decl references mode).table
        assembly := table.nextAssembly
        types := typeIds table.types.size decl.types.length
        diagnostics := []
        fault? := some fault } := by
  have types : (table.declaring decl references mode).typesOf table.nextAssembly =
      typeIds table.types.size decl.types.length := typesOf_declaring
  unfold declaring at types
  unfold untangling inheriting heritages typeEntries declaring setHeritages at faulted
  unfold bind
  simp only [types, faulted]
  rfl

/-- Binding without `new` leads to the same as binding, but for `new` and what is reported of
it. -/
theorem bind_withoutNew : table.withoutNew.bind decl.withoutNew references mode =
    (table.bind decl references mode).withoutNew := by
  have length : decl.withoutNew.types.length = decl.types.length := List.length_map _
  have untangling := table.untangling_withoutNew decl references mode
  have sameFault : (table.withoutNew.untangling decl.withoutNew references mode).fault? =
      (table.untangling decl references mode).fault? := by
    rw [untangling]
    rfl
  cases faulted : (table.untangling decl references mode).fault? with
  | some fault =>
    rw [bind_of_fault _ _ _ _ faulted, bind_of_fault _ _ _ _ (sameFault.trans faulted), untangling,
      length]
    rfl
  | none =>
    have reported (diagnostics : List Diagnostic) :
        mode.reported (ignoringNew diagnostics) = ignoringNew (mode.reported diagnostics) := by
      cases mode <;> rfl
    have heritages : ignoringNew ((table.heritages decl references mode).flatMap
        fun entry => entry.2.diagnostics) =
          (table.heritages decl references mode).flatMap fun entry => entry.2.diagnostics :=
      (table.heritages_report decl references mode).ignoringNew (by decide)
    have cycles : ignoringNew (table.untangling decl references mode).diagnostics =
        (table.untangling decl references mode).diagnostics :=
      (table.untangling_report decl references mode).ignoringNew (by decide)
    have targets (types : List TypeId) :
        ignoringNew ((types.flatMap ((table.populating decl references mode).1.targetsOf
          table.nextAssembly)).flatMap TargetBinding.diagnostics) =
          (types.flatMap ((table.populating decl references mode).1.targetsOf
            table.nextAssembly)).flatMap TargetBinding.diagnostics :=
      (targets_report _ _ _).ignoringNew (by decide)
    rw [bind_eq faulted, bind_eq (sameFault.trans faulted), targeting_withoutNew,
      heritages_withoutNew, untangling, populating_withoutNew, length]
    unfold Binding.withoutNew
    have next : table.withoutNew.nextAssembly = table.nextAssembly := rfl
    have found := funext
      ((table.populating decl references mode).1.targetsOf_withoutNew table.nextAssembly)
    simp only [← reported, ignoringNew_append, heritages, cycles, targets, next, found]
    rfl

end phases

end SymbolTable

end Conformance
