import Conformance.Compilation.Check
import Conformance.Compilation.ImplementationMap
import Conformance.Proofs.Resolution.Lifting

/-!
Checks and reports under lookups that agree.

What is asked for about one table does not depend on who gives the answers:
lookups that give the same ones lead to the same resolutions, diagnostics and
implementation maps, in whichever monads they run.
-/

namespace Conformance

/-- The lookups in one table have the same answers. -/
structure Lookups.Agree {m n : Type → Type} [Monad m] [Monad n] (L : Lifting m n)
    (table : SymbolTable) (first : Lookups m) (second : Lookups n) : Prop where
  interfaces : ∀ {id symbol}, table.type? id = some symbol →
    L.rel Eq (first.interfaces id) (second.interfaces id)
  level : ∀ {id symbol}, table.type? id = some symbol →
    L.rel Eq (first.level id) (second.level id)
  runtime : ∀ id, L.rel Eq (first.runtime id) (second.runtime id)

namespace Lookups.Agree

variable {m n : Type → Type} [Monad m] [Monad n] {L : Lifting m n} {table : SymbolTable}
  {first : Lookups m} {second : Lookups n}

theorem defaultBody (agree : Agree L table first second) (id : MemberId) (assembly : AssemblyId) :
    L.rel Eq (first.defaultBody table id assembly) (second.defaultBody table id assembly) := by
  unfold Lookups.defaultBody
  split
  · refine L.bind (agree.runtime assembly) ?_
    rintro supported _ rfl
    split <;> exact L.pure rfl
  · exact L.pure rfl

theorem checkDefaultUse (agree : Agree L table first second) (assembly : AssemblyId)
    (type : TypeSymbol) (id : MemberId) (member : MemberSymbol) :
    L.rel Eq (first.checkDefaultUse table assembly type id member)
      (second.checkDefaultUse table assembly type id member) := by
  unfold Lookups.checkDefaultUse
  split
  · exact L.pure rfl
  · refine L.bind (agree.defaultBody id assembly) ?_
    rintro body _ rfl
    split <;> exact L.pure rfl

theorem checkBodies (agree : Agree L table first second) (assembly : AssemblyId)
    (type : TypeSymbol) :
    L.rel Eq (first.checkBodies table assembly type) (second.checkBodies table assembly type) := by
  unfold Lookups.checkBodies
  extract_lets bodied
  split
  · exact L.pure rfl
  · refine L.bind (agree.runtime assembly) ?_
    rintro supported _ rfl
    split <;> exact L.pure rfl

theorem checkExplicit (agree : Agree L table first second) {typeId : TypeId} {type : TypeSymbol}
    (found : table.type? typeId = some type) :
    L.rel Eq (first.checkExplicit table typeId type)
      (second.checkExplicit table typeId type) := by
  refine L.bind (agree.interfaces found) ?_
  rintro interfaces _ rfl
  exact L.pure rfl

variable [LawfulMonad m] [LawfulMonad n]

theorem related (agree : Agree L table first second) :
    Related L (Embedding.refl table) first second where
  interfaces found := L.mono (agree.interfaces found) fun a b same => by simp [same]
  level found := L.mono (agree.level found) fun a b same => by simp [same]
  runtime {id symbol image} found foundImage := by
    obtain rfl : symbol = image := Option.some.inj (found.symm.trans foundImage)
    exact L.mono (agree.runtime symbol.assembly) fun _ _ _ => trivial

/-- Lookups that agree resolve members to the same answers. -/
theorem resolve (agree : Agree L table first second) (closed : table.Closed) (typeId : TypeId)
    (id : MemberId) :
    L.rel Eq (first.resolve table typeId id) (second.resolve table typeId id) :=
  L.mono (agree.related.resolve closed typeId id) fun a b same => by simp [same]

/-! ## Checks -/

theorem checkClause (agree : Agree L table first second) (closed : table.Closed)
    (assembly : AssemblyId) (typeId : TypeId) (type : TypeSymbol)
    (accessor : MemberId × MemberSymbol) :
    L.rel Eq (first.checkClause table assembly typeId type accessor)
      (second.checkClause table assembly typeId type accessor) := by
  unfold Lookups.checkClause
  split
  · refine L.bind (agree.resolve closed typeId accessor.1) ?_
    rintro resolution _ rfl
    cases resolution.source? with
    | none => exact L.pure rfl
    | some source =>
      cases source with
      | default => exact agree.checkDefaultUse assembly type accessor.1 accessor.2
      | _ => exact L.pure rfl
  · exact L.pure rfl

theorem checkMember (agree : Agree L table first second) (closed : table.Closed)
    (assembly : AssemblyId) (typeId : TypeId) (type : TypeSymbol)
    (member : MemberId × MemberSymbol) :
    L.rel Eq (first.checkMember table assembly typeId type member)
      (second.checkMember table assembly typeId type member) := by
  refine L.bind (agree.resolve closed typeId member.1) ?_
  rintro resolution _ rfl
  have clauses : L.rel Eq
      ((table.accessorsOf member.2).mapM (first.checkClause table assembly typeId type))
      ((table.accessorsOf member.2).mapM (second.checkClause table assembly typeId type)) :=
    L.mapM_eq fun accessor _ => agree.checkClause closed assembly typeId type accessor
  cases resolution.implementation with
  | none => exact L.pure rfl
  | some implementation =>
    obtain ⟨found, source⟩ := implementation
    cases source with
    | default => exact agree.checkDefaultUse assembly type member.1 member.2
    | _ =>
      refine L.bind clauses ?_
      rintro diagnostics _ rfl
      exact L.pure rfl

theorem checkImplementations (agree : Agree L table first second) (closed : table.Closed)
    (assembly : AssemblyId) {typeId : TypeId} {type : TypeSymbol}
    (found : table.type? typeId = some type) :
    L.rel Eq (first.checkImplementations table assembly typeId type)
      (second.checkImplementations table assembly typeId type) := by
  refine L.bind (agree.interfaces found) ?_
  rintro interfaces _ rfl
  refine L.bind (L.mapM_eq fun member _ =>
    agree.checkMember closed assembly typeId type member) ?_
  rintro diagnostics _ rfl
  exact L.pure rfl

/-- Lookups that agree find the same faults in a type. -/
theorem checkType (agree : Agree L table first second) (closed : table.Closed)
    (assembly : AssemblyId) (typeId : TypeId) :
    L.rel Eq (first.checkType table assembly typeId)
      (second.checkType table assembly typeId) := by
  unfold Lookups.checkType
  cases found : table.type? typeId with
  | none => exact L.pure rfl
  | some type =>
    simp only
    split
    · exact agree.checkBodies assembly type
    · refine L.bind (agree.checkExplicit found) ?_
      rintro explicit _ rfl
      refine L.bind (agree.checkImplementations closed assembly found) ?_
      rintro implementations _ rfl
      exact L.pure rfl

/-! ## Implementation maps -/

theorem implementationEntry (agree : Agree L table first second) (closed : table.Closed)
    (typeId : TypeId) (id : MemberId) :
    L.rel Eq (first.implementationEntry table typeId id)
      (second.implementationEntry table typeId id) := by
  refine L.bind (agree.resolve closed typeId id) ?_
  rintro resolution _ rfl
  exact L.pure rfl

theorem implementationEntries (agree : Agree L table first second) (closed : table.Closed)
    (typeId : TypeId) :
    L.rel Eq (first.implementationEntries table typeId)
      (second.implementationEntries table typeId) := by
  unfold Lookups.implementationEntries
  cases found : table.type? typeId with
  | none => exact L.pure rfl
  | some type =>
    split
    · refine L.bind (agree.interfaces found) ?_
      rintro interfaces _ rfl
      exact L.mapM_eq fun id _ => agree.implementationEntry closed typeId id
    · exact L.pure rfl

end Lookups.Agree

/-! ## Compilations -/

namespace Compilation

variable {m n : Type → Type} [Monad m] [Monad n] [LawfulMonad m] [LawfulMonad n]
  {L : Lifting m n} {first : Lookups m} {second : Lookups n}

/-- Lookups that agree lead to the same implementation map. -/
theorem implementationMap_agree (compilation : Compilation)
    (agree : Lookups.Agree L compilation.table first second) (closed : compilation.table.Closed) :
    L.rel Eq (compilation.implementationMap first) (compilation.implementationMap second) := by
  refine L.bind (L.mapM_eq fun typeId _ => agree.implementationEntries closed typeId) ?_
  rintro entries _ rfl
  exact L.pure rfl

/-- Lookups that agree lead to the same diagnostics. -/
theorem check_agree (compilation : Compilation)
    (agree : Lookups.Agree L compilation.table first second) (closed : compilation.table.Closed)
    (token : CancellationToken) :
    L.rel Eq (compilation.check first token) (compilation.check second token) := by
  have types : L.rel Eq (compilation.checkTypes first token)
      (compilation.checkTypes second token) := by
    unfold checkTypes
    split
    · exact L.pure rfl
    · cases token.check with
      | error stop => exact L.pure rfl
      | ok =>
        refine L.bind (L.mapM_eq fun typeId _ =>
          agree.checkType closed compilation.assembly typeId) ?_
        rintro diagnostics _ rfl
        exact L.pure rfl
  refine L.bind types ?_
  rintro result _ rfl
  exact L.pure rfl

end Compilation

end Conformance
