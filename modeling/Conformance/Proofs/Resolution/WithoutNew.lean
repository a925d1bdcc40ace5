import Conformance.Proofs.Binding.WithoutNew
import Conformance.Resolution.Flattening

/-!
Resolution without `new`.

Nothing that resolution looks at depends on `new`: interface lists, levels, runtime flags and
the rule itself are the same in a table and in the table without it
(`SymbolTable.remembering_withoutNew`, `Lookups.resolve_withoutNew`).
-/

namespace Conformance

namespace SymbolTable

variable (table : SymbolTable)

theorem flattenFrom_withoutNew (depth : Nat) (path : List TypeId) (id : TypeId) :
    table.withoutNew.flattenFrom depth path id = table.flattenFrom depth path id := by
  induction depth generalizing path id with
  | zero =>
    unfold flattenFrom
    rfl
  | succ depth ih =>
    have type : table.withoutNew.type = table.type := rfl
    unfold flattenFrom
    simp only [ih, type]

theorem boundEntries_withoutNew (id : MemberId) (member : MemberSymbol) :
    LevelTable.boundEntries table.withoutNew id member.withoutNew =
      LevelTable.boundEntries table id member := by
  unfold LevelTable.boundEntries
  rw [accessorsOf_withoutNew, show (id, member.withoutNew) = entryWithoutNew (id, member) from rfl,
    ← List.map_cons, List.filterMap_map]
  rfl

theorem ofType_withoutNew (type : TypeSymbol) :
    LevelTable.ofType table.withoutNew type = LevelTable.ofType table type := by
  have bound (entry : MemberId × MemberSymbol) :=
    table.boundEntries_withoutNew entry.1 entry.2
  unfold LevelTable.ofType
  rw [membersOf_withoutNew, List.filterMap_map, List.flatMap_map]
  simp only [entryWithoutNew, bound]
  rfl

theorem remembering_withoutNew : table.withoutNew.remembering = table.remembering := by
  have interfaces : table.withoutNew.flatten = table.flatten :=
    funext (table.flattenFrom_withoutNew maxDepth [])
  have level : table.withoutNew.levelOf = table.levelOf := by
    have type : table.withoutNew.type = table.type := rfl
    unfold levelOf
    simp only [type, ofType_withoutNew]
  unfold remembering
  rw [interfaces, level]
  rfl

end SymbolTable

namespace Lookups

open SymbolTable (member?_withoutNew)

variable {m : Type → Type} [Monad m] (lookups : Lookups m) (table : SymbolTable)

theorem defaultBody_withoutNew (id : MemberId) (assembly : AssemblyId) :
    lookups.defaultBody table.withoutNew id assembly = lookups.defaultBody table id assembly := by
  unfold defaultBody
  rw [member?_withoutNew, Option.any_map]
  rfl

theorem orDefault_withoutNew (type : TypeSymbol) (id : MemberId) (resolution : Resolution) :
    lookups.orDefault table.withoutNew type id resolution =
      lookups.orDefault table type id resolution := by
  unfold orDefault
  rw [defaultBody_withoutNew]

theorem findExplicit_withoutNew (interface : TypeId) (id : MemberId) (levels : List TypeId) :
    lookups.findExplicit table.withoutNew interface id levels =
      lookups.findExplicit table interface id levels := by
  have bound (candidate : MemberId) : ((table.withoutNew.member? candidate).any fun member =>
      member.isBoundTo interface id) =
        (table.member? candidate).any fun member => member.isBoundTo interface id := by
    rw [member?_withoutNew, Option.any_map]
    rfl
  induction levels with
  | nil => rfl
  | cons level rest ih =>
    unfold findExplicit
    simp only [ih, bound]

theorem scan_withoutNew (close : Option CloseMismatch) (ids : List MemberId) :
    scan table.withoutNew close ids = scan table close ids := by
  have mismatch (id : MemberId) :
      (table.withoutNew.member? id).bind mismatch? = (table.member? id).bind mismatch? := by
    rw [member?_withoutNew, Option.bind_map]
    rfl
  induction ids generalizing close with
  | nil => rfl
  | cons id rest ih =>
    unfold scan
    simp only [ih, mismatch]

theorem findImplicit_withoutNew (key : SignatureKey) (close : Option CloseMismatch)
    (levels : List TypeId) :
    lookups.findImplicit table.withoutNew key close levels =
      lookups.findImplicit table key close levels := by
  induction levels generalizing close with
  | nil => rfl
  | cons level rest ih =>
    unfold findImplicit
    simp only [ih, scan_withoutNew]

theorem resolveMember_withoutNew (typeId : TypeId) (type : TypeSymbol) (id : MemberId)
    (member : MemberSymbol) :
    lookups.resolveMember table.withoutNew typeId type id member.withoutNew =
      lookups.resolveMember table typeId type id member := by
  have chain := SymbolTable.keepsTypes_withoutNew.baseChain table typeId
  unfold resolveMember
  simp only [orDefault_withoutNew, findExplicit_withoutNew, findImplicit_withoutNew, chain]
  rfl

theorem accessor?_withoutNew (id : MemberId) (kind : AccessorKind) :
    (table.withoutNew.member? id).bind (·.accessor? kind) =
      (table.member? id).bind (·.accessor? kind) := by
  rw [member?_withoutNew, Option.bind_map]
  rfl

theorem resolveClause_withoutNew (id : MemberId) (accessor : MemberSymbol) (kind : AccessorKind)
    (parent : Resolution) :
    resolveClause table.withoutNew id accessor.withoutNew kind parent =
      resolveClause table id accessor kind parent := by
  have close : closeAccessor table.withoutNew kind = closeAccessor table kind := by
    unfold closeAccessor
    simp only [accessor?_withoutNew]
  unfold resolveClause
  rw [close]
  cases parent.implementation with
  | none => rfl
  | some found =>
    simp only [accessor?_withoutNew]
    cases (table.member? found.member).bind (·.accessor? kind) with
    | none => rfl
    | some clause =>
      simp only [Option.bind_some, member?_withoutNew]
      cases table.member? clause <;> rfl

theorem whenImplemented_withoutNew (typeId : TypeId) (member : MemberSymbol)
    (resolution : m Resolution) :
    lookups.whenImplemented table.withoutNew typeId member.withoutNew resolution =
      lookups.whenImplemented table typeId member resolution := rfl

/-- What implements a member does not depend on `new`. -/
theorem resolve_withoutNew (typeId : TypeId) (id : MemberId) :
    lookups.resolve table.withoutNew typeId id = lookups.resolve table typeId id := by
  have type : table.withoutNew.type? typeId = table.type? typeId := rfl
  unfold resolve
  rw [type, member?_withoutNew]
  cases table.type? typeId with
  | none => rfl
  | some type =>
    cases table.member? id with
    | none => rfl
    | some member =>
      have clause : member.withoutNew.clause? = member.clause? := rfl
      simp only [Option.map_some, whenImplemented_withoutNew, clause]
      cases member.clause? with
      | none => simp only [resolveMember_withoutNew]
      | some entry =>
        simp only [member?_withoutNew]
        cases table.member? entry.2 with
        | none => rfl
        | some parent =>
          simp only [Option.map_some, whenImplemented_withoutNew, resolveMember_withoutNew,
            resolveClause_withoutNew, orDefault_withoutNew]

end Lookups

end Conformance
