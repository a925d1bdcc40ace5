import Conformance.Manifest.Basic
import Conformance.Proofs.Compilation.Run
import Conformance.Proofs.Resolution.WithoutNew

/-!
Compilations without `new`.

Members are exported and imported with their `new`, so it reaches all compilations that reference
an assembly, and makes no difference there either: compiling commutes with taking it out
(`Compilation.ofDecl_withoutNew`), and a compilation and the one without `new` answer every request
alike, but for what is reported of `new` (`Compilation.reply_withoutNew`).
-/

namespace Conformance

/-! ## Exports -/

theorem exportAccessor_withoutNew (member : Modifiers) (accessor : MemberSymbol) :
    exportAccessor member.withoutNew accessor.withoutNew =
      (exportAccessor member accessor).withoutNew := by
  have written : accessor.modifiers.withoutNew ∩ .accesses =
      (accessor.modifiers ∩ .accesses).withoutNew := by
    refine Modifiers.ext_has fun modifier => ?_
    rw [Modifiers.has_inter, Modifiers.has_withoutNew, Modifiers.has_withoutNew,
      Modifiers.has_inter, Bool.and_right_comm]
  have kept (narrower : Prop) [Decidable narrower] :
      (if narrower then accessor.modifiers.withoutNew ∩ .accesses else ∅) =
        Modifiers.withoutNew (if narrower then accessor.modifiers ∩ .accesses else ∅) := by
    split
    · exact written
    · rfl
  exact congrArg (AccessorDecl.mk · accessor.hasBody .unknown) (kept _)

namespace SymbolTable

variable (table : SymbolTable)

theorem exportAccessor?_withoutNew (member : MemberSymbol) (id : Option MemberId) :
    table.withoutNew.exportAccessor? member.withoutNew id =
      (table.exportAccessor? member id).map AccessorDecl.withoutNew := by
  unfold exportAccessor?
  cases id with
  | none => rfl
  | some id =>
    rw [Option.bind_some, Option.bind_some, member?_withoutNew, Option.map_map, Option.map_map]
    exact Option.map_congr fun accessor _ => exportAccessor_withoutNew member.modifiers accessor

theorem exportMember?_withoutNew (member : MemberSymbol) :
    table.withoutNew.exportMember? member.withoutNew =
      (table.exportMember? member).map MemberDecl.withoutNew := by
  have property (getter setter : Option MemberId) :
      table.withoutNew.exportProperty member.withoutNew getter setter =
        (table.exportProperty member getter setter).withoutNew := by
    unfold exportProperty
    rw [exportAccessor?_withoutNew, exportAccessor?_withoutNew]
    rfl
  have kind : member.withoutNew.kind = member.kind := rfl
  unfold exportMember?
  rw [kind]
  cases member.kind with
  | method => rfl
  | property isIndexer getter setter =>
    cases isIndexer <;> simp only [property] <;> rfl
  | event adder remover =>
    simp only [exportAccessor?_withoutNew]
    rfl
  | accessor kind parent => rfl

theorem exportType_withoutNew (type : TypeSymbol) :
    table.withoutNew.exportType type = (table.exportType type).map TypeDecl.withoutNew := by
  have members : (table.withoutNew.membersOf type).filterMap
      (fun entry => table.withoutNew.exportMember? entry.2) =
        ((table.membersOf type).filterMap fun entry => table.exportMember? entry.2).map
          MemberDecl.withoutNew := by
    rw [membersOf_withoutNew, List.filterMap_map, List.map_filterMap]
    exact List.filterMap_congr fun entry _ => table.exportMember?_withoutNew entry.2
  have known : table.withoutNew.type = table.type := rfl
  unfold exportType
  rw [members, known]
  cases type.base.mapM table.type with
  | error fault => rfl
  | ok base =>
    cases type.interfaces.mapM table.type <;> rfl

theorem exportAssembly_withoutNew (assembly : AssemblySymbol) :
    table.withoutNew.exportAssembly assembly =
      (table.exportAssembly assembly).map AssemblyDecl.withoutNew := by
  have exported (types : List TypeSymbol) : types.mapM table.withoutNew.exportType =
      (types.mapM table.exportType).map (List.map TypeDecl.withoutNew) := by
    rw [funext table.exportType_withoutNew]
    exact map_mapM table.exportType TypeDecl.withoutNew types
  have known : table.withoutNew.type? = table.type? := rfl
  unfold exportAssembly
  rw [known, exported]
  cases (assembly.types.filterMap table.type?).mapM table.exportType <;> rfl

end SymbolTable

/-! ## Compiling -/

namespace Compilation

/-- The compilation without `new`, and what else is reported of it. -/
def withoutNew (compilation : Compilation) : Compilation :=
  { compilation with
    table := compilation.table.withoutNew
    bindingDiagnostics := ignoringNew compilation.bindingDiagnostics }

theorem copyAssembly_withoutNew (source target : SymbolTable) (assembly : AssemblySymbol) :
    copyAssembly source.withoutNew target.withoutNew assembly =
      (copyAssembly source target assembly).withoutNew := by
  have named : target.withoutNew.assemblyNamed? = target.assemblyNamed? := rfl
  unfold copyAssembly
  rw [named, source.exportAssembly_withoutNew]
  split
  · rfl
  · cases source.exportAssembly assembly with
    | error fault => rfl
    | ok decl =>
      have bound := target.bind_withoutNew decl (decl.references.filterMap target.assemblyNamed?)
        .metadata
      exact congrArg Binding.table bound

theorem copyInto_withoutNew (compilation : Compilation) (target : SymbolTable) :
    compilation.withoutNew.copyInto target.withoutNew =
      (compilation.copyInto target).withoutNew := by
  unfold copyInto
  rw [← Array.foldl_toList, ← Array.foldl_toList]
  exact List.foldl_hom SymbolTable.withoutNew fun target assembly =>
    copyAssembly_withoutNew compilation.table target assembly

theorem addReferences_withoutNew (references : List Compilation)
    (state : SymbolTable × List AssemblyId) :
    (references.map withoutNew).foldl addReference (state.1.withoutNew, state.2) =
      ((references.foldl addReference state).1.withoutNew,
        (references.foldl addReference state).2) := by
  rw [List.foldl_map]
  refine List.foldl_hom (fun state : SymbolTable × List AssemblyId =>
    (state.1.withoutNew, state.2)) fun state reference => ?_
  unfold addReference
  rw [copyInto_withoutNew]
  rfl

/-- What is compiled without `new` is what is compiled, without `new`. -/
theorem ofDecl_withoutNew (decl : AssemblyDecl) (references : List Compilation)
    (options : CompilationOptions) :
    ofDecl decl.withoutNew (references.map withoutNew) options =
      (ofDecl decl references options).withoutNew := by
  have copied := addReferences_withoutNew references (∅, [])
  have start : (∅ : SymbolTable).withoutNew = ∅ :=
    congrArg (SymbolTable.mk #[] #[]) Array.map_empty
  rw [start] at copied
  unfold ofDecl
  rw [copied]
  simp only [SymbolTable.bind_withoutNew]
  rfl

end Compilation

/-! ## Checks -/

namespace Lookups

open SymbolTable (entryWithoutNew keepsTypes_withoutNew member?_withoutNew membersOf_withoutNew
  accessorsOf_withoutNew displayMember_withoutNew)

variable {m : Type → Type} [Monad m] (lookups : Lookups m) (table : SymbolTable)
  (assembly : AssemblyId) (typeId : TypeId) (type : TypeSymbol)

theorem display_withoutNew (id : MemberId) :
    table.withoutNew.display id = table.display id := by
  unfold SymbolTable.display
  rw [member?_withoutNew, Option.map_map]
  exact congrArg (Option.getD · "")
    (Option.map_congr fun member _ => table.displayMember_withoutNew member)

theorem notImplemented_withoutNew :
    notImplemented table.withoutNew = notImplemented table := by
  funext typeId type id close
  unfold notImplemented SymbolTable.memberArgument
  simp only [display_withoutNew]
  rfl

theorem checkReturnType_withoutNew (id : MemberId) (member : MemberSymbol) (found : MemberId) :
    checkReturnType table.withoutNew typeId type id member.withoutNew found =
      checkReturnType table typeId type id member found := by
  unfold checkReturnType SymbolTable.memberArgument
  rw [member?_withoutNew, Option.any_map, display_withoutNew, display_withoutNew]
  rfl

theorem checkDefaultUse_withoutNew (id : MemberId) (member : MemberSymbol) :
    lookups.checkDefaultUse table.withoutNew assembly type id member.withoutNew =
      lookups.checkDefaultUse table assembly type id member := by
  have site : table.withoutNew.useSite type member.withoutNew = table.useSite type member := by
    unfold SymbolTable.useSite
    rw [displayMember_withoutNew]
    rfl
  unfold checkDefaultUse
  rw [defaultBody_withoutNew, site]
  rfl

theorem checkClause_withoutNew (accessor : MemberId × MemberSymbol) :
    lookups.checkClause table.withoutNew assembly typeId type (entryWithoutNew accessor) =
      lookups.checkClause table assembly typeId type accessor := by
  unfold checkClause
  simp only [entryWithoutNew, resolve_withoutNew, notImplemented_withoutNew,
    checkDefaultUse_withoutNew]
  rfl

theorem checkMember_withoutNew [LawfulMonad m] (member : MemberId × MemberSymbol) :
    lookups.checkMember table.withoutNew assembly typeId type (entryWithoutNew member) =
      lookups.checkMember table assembly typeId type member := by
  have clauses : (table.withoutNew.accessorsOf member.2.withoutNew).mapM
      (lookups.checkClause table.withoutNew assembly typeId type) =
        (table.accessorsOf member.2).mapM (lookups.checkClause table assembly typeId type) := by
    rw [accessorsOf_withoutNew, List.mapM_map]
    exact congrArg (List.mapM · _)
      (funext (lookups.checkClause_withoutNew table assembly typeId type))
  unfold checkMember
  simp only [entryWithoutNew, resolve_withoutNew, notImplemented_withoutNew,
    checkDefaultUse_withoutNew, checkReturnType_withoutNew, clauses]

theorem checkImplementations_withoutNew [LawfulMonad m] :
    lookups.checkImplementations table.withoutNew assembly typeId type =
      lookups.checkImplementations table assembly typeId type := by
  have members (interface : TypeSymbol) : ((table.withoutNew.membersOf interface).filter
      fun member => table.withoutNew.isImplementable member.2) =
        ((table.membersOf interface).filter fun member =>
          table.isImplementable member.2).map entryWithoutNew := by
    rw [membersOf_withoutNew, List.filter_map]
    rfl
  have checked : lookups.checkMember table.withoutNew assembly typeId type ∘ entryWithoutNew =
      lookups.checkMember table assembly typeId type :=
    funext (lookups.checkMember_withoutNew table assembly typeId type)
  unfold checkImplementations
  simp only [members, ← List.map_flatMap, List.mapM_map, checked]
  rfl

theorem checkExplicit_withoutNew :
    lookups.checkExplicit table.withoutNew typeId type =
      lookups.checkExplicit table typeId type := by
  unfold checkExplicit SymbolTable.memberArgument
  simp only [membersOf_withoutNew, List.filterMap_map, display_withoutNew]
  rfl

theorem checkBodies_withoutNew :
    lookups.checkBodies table.withoutNew assembly type =
      lookups.checkBodies table assembly type := by
  have bodied : ((table.withoutNew.membersOf type).filter fun member =>
      member.2.hasImplementation || (table.withoutNew.accessorsOf member.2).any fun accessor =>
        accessor.2.hasImplementation) =
          ((table.membersOf type).filter fun member =>
            member.2.hasImplementation || (table.accessorsOf member.2).any fun accessor =>
              accessor.2.hasImplementation).map entryWithoutNew := by
    rw [membersOf_withoutNew, List.filter_map]
    refine congrArg (List.map _) (List.filter_congr fun member _ => ?_)
    show (_ || (table.withoutNew.accessorsOf member.2.withoutNew).any _) = _
    rw [accessorsOf_withoutNew, List.any_map]
    rfl
  unfold checkBodies
  simp only [bodied, List.isEmpty_map, List.map_map]
  rfl

theorem ignoringNew_checkHiding : ignoringNew (checkHiding table type) = [] :=
  List.filter_eq_nil_iff.mpr fun diagnostic inside about =>
    of_decide_eq_true about (.inl (checkHiding_report diagnostic inside))

/-- Only what is reported of hiding depends on `new`. -/
theorem checkType_withoutNew [LawfulMonad m] :
    ignoringNew <$> lookups.checkType table.withoutNew assembly typeId =
      ignoringNew <$> lookups.checkType table assembly typeId := by
  have known : table.withoutNew.type? typeId = table.type? typeId := rfl
  unfold checkType
  rw [known]
  cases table.type? typeId with
  | none => rfl
  | some type =>
    simp only [checkBodies_withoutNew, checkExplicit_withoutNew, checkImplementations_withoutNew]
    split
    · rfl
    · simp only [map_bind, map_pure, ignoringNew_append, ignoringNew_checkHiding]

theorem implementationEntries_withoutNew :
    lookups.implementationEntries table.withoutNew typeId =
      lookups.implementationEntries table typeId := by
  have members : implementableMembers table.withoutNew = implementableMembers table := by
    funext type
    unfold implementableMembers
    have within (member : MemberId × MemberSymbol) :
        entryWithoutNew member :: table.withoutNew.accessorsOf (entryWithoutNew member).2 =
          (member :: table.accessorsOf member.2).map entryWithoutNew := by
      rw [List.map_cons, ← accessorsOf_withoutNew]
      rfl
    rw [membersOf_withoutNew, List.flatMap_map]
    simp only [within, ← List.map_flatMap, List.filterMap_map]
    rfl
  have entry : lookups.implementationEntry table.withoutNew typeId =
      lookups.implementationEntry table typeId := by
    funext id
    unfold implementationEntry
    simp only [resolve_withoutNew, display_withoutNew, funext (display_withoutNew table)]
    rfl
  unfold implementationEntries
  rw [members, entry]
  rfl

end Lookups

/-! ## Requests -/

/-- The answer to a request, without the diagnostics about `new`. -/
def Request.ignoringNew {α : Type} : Request α → α → α
  | .check _ => Conformance.ignoringNew
  | .diagnostics => Except.map Conformance.ignoringNew
  | _ => id

namespace Compilation

variable (compilation : Compilation)

section

variable {m : Type → Type} [Monad m] [LawfulMonad m] (lookups : Lookups m)

/-- Checks that agree but for `new`, one after another, agree but for `new`. -/
theorem ignoringNew_mapM {first second : TypeId → m (List Diagnostic)} (types : List TypeId)
    (agree : ∀ id, ignoringNew <$> first id = ignoringNew <$> second id) :
    (fun reports => ignoringNew reports.flatten) <$> types.mapM first =
      (fun reports => ignoringNew reports.flatten) <$> types.mapM second := by
  have each (check : TypeId → m (List Diagnostic)) :
      (fun reports => ignoringNew reports.flatten) <$> types.mapM check =
        List.flatten <$> types.mapM fun id => ignoringNew <$> check id := by
    rw [map_mapM, Functor.map_map]
    exact congrArg (· <$> _) (funext fun reports => List.filter_flatten)
  rw [each, each, funext agree]

theorem checkTypes_withoutNew (token : CancellationToken) :
    Except.map ignoringNew <$> compilation.withoutNew.checkTypes lookups token =
      Except.map ignoringNew <$> compilation.checkTypes lookups token := by
  have types : compilation.withoutNew.types = compilation.types := rfl
  have checks := ignoringNew_mapM compilation.types
    fun id => lookups.checkType_withoutNew compilation.table compilation.assembly id
  unfold checkTypes
  rw [types]
  split
  · rfl
  · cases token.check with
    | error stop => rfl
    | ok =>
      have wrapped := congrArg
        (Functor.map fun report => (Except.ok report : Except Cancelled (List Diagnostic))) checks
      simp only [Functor.map_map, bind_pure_comp] at wrapped ⊢
      exact wrapped

theorem check_withoutNew (token : CancellationToken) :
    Except.map ignoringNew <$> compilation.withoutNew.check lookups token =
      Except.map ignoringNew <$> compilation.check lookups token := by
  have split (compilation : Compilation) :
      Except.map ignoringNew <$> compilation.check lookups token =
        Except.map (ignoringNew compilation.bindingDiagnostics ++ ·) <$>
          Except.map ignoringNew <$> compilation.checkTypes lookups token := by
    have append (result : Except Cancelled (List Diagnostic)) :
        (result.map (compilation.bindingDiagnostics ++ ·)).map ignoringNew =
          (result.map ignoringNew).map (ignoringNew compilation.bindingDiagnostics ++ ·) := by
      cases result with
      | error stop => rfl
      | ok report => exact congrArg Except.ok (ignoringNew_append _ _)
    unfold check
    simp only [bind_pure_comp, Functor.map_map, append]
  have again : ignoringNew compilation.withoutNew.bindingDiagnostics =
      ignoringNew compilation.bindingDiagnostics :=
    List.filter_filter.trans (List.filter_congr fun diagnostic _ => Bool.and_self _)
  rw [split, split, checkTypes_withoutNew, again]

omit [LawfulMonad m] in
theorem implementationMap_withoutNew :
    compilation.withoutNew.implementationMap lookups = compilation.implementationMap lookups := by
  have types : compilation.withoutNew.types = compilation.types := rfl
  unfold implementationMap
  rw [types]
  simp only [withoutNew, funext (lookups.implementationEntries_withoutNew compilation.table)]

theorem perform_withoutNew {α : Type} (request : Request α) :
    request.ignoringNew <$> compilation.withoutNew.perform lookups request =
      request.ignoringNew <$> compilation.perform lookups request := by
  cases request with
  | interfaces id => rfl
  | implementation typeId id =>
    exact congrArg _ (lookups.resolve_withoutNew compilation.table typeId id)
  | implementationMap => exact congrArg _ (compilation.implementationMap_withoutNew lookups)
  | check id => exact lookups.checkType_withoutNew compilation.table compilation.assembly id
  | diagnostics => exact compilation.check_withoutNew lookups {}
  | runtime id => rfl

end

/-- The answers that two compilations give are the same, but for what is reported of `new`, and
they remember the same. -/
theorem reply_withoutNew {α : Type} (request : Request α) (memory : Memory) :
    (compilation.withoutNew.reply request memory).2 = (compilation.reply request memory).2 ∧
      (compilation.withoutNew.reply request memory).1.map request.ignoringNew =
        (compilation.reply request memory).1.map request.ignoringNew := by
  have mapped (query : QueryM α) : (request.ignoringNew <$> query).answer memory =
      ((query.answer memory).1.map request.ignoringNew, (query.answer memory).2) := by
    rw [map_eq_pure_bind, QueryM.answer_bind]
    rcases query.answer memory with ⟨_ | _, after⟩ <;> rfl
  have same := congrArg (QueryM.answer · memory)
    (compilation.perform_withoutNew compilation.table.remembering request)
  simp only [mapped, Prod.mk.injEq] at same
  have remembering := compilation.table.remembering_withoutNew
  unfold reply
  rw [show compilation.withoutNew.table.remembering = compilation.table.remembering
    from remembering]
  exact same.symm

/-- Two compilations remember the same, and give the same answers but for what is reported of
`new`, whatever they are asked for and whatever was asked before. -/
structure AlikeButNew (first second : Compilation) : Prop where
  name : second.name = first.name
  memory : second.memory = first.memory
  remembers : ∀ {α : Type} (request : Request α) (memory : Memory),
    (second.reply request memory).2 = (first.reply request memory).2
  answers : ∀ {α : Type} (request : Request α) (memory : Memory),
    (second.reply request memory).1.map request.ignoringNew =
      (first.reply request memory).1.map request.ignoringNew

theorem AlikeButNew.of_withoutNew {first second : Compilation}
    (same : second.withoutNew = first.withoutNew) : AlikeButNew first second where
  name := by
    have named (compilation : Compilation) : compilation.withoutNew.name = compilation.name := rfl
    rw [← named, same, named]
  memory := by
    have fresh (compilation : Compilation) : compilation.withoutNew.memory = compilation.memory :=
      rfl
    rw [← fresh, same, fresh]
  remembers request memory := by
    rw [← (second.reply_withoutNew request memory).1, ← (first.reply_withoutNew request memory).1,
      same]
  answers request memory := by
    rw [← (second.reply_withoutNew request memory).2, ← (first.reply_withoutNew request memory).2,
      same]

end Compilation

end Conformance
