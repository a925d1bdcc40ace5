import Conformance.Proofs.Binding.Regular
import Conformance.Proofs.Compilation.Checks

/-!
What it means that the checks report no error.

A class or struct that is checked without errors has an implementation of every
member that it has to implement (`Lookups.fills_head`), and of its accessors
(`Lookups.fills_clause`). The checks ask for the accessors of a member only if a
property or event implements it; where the body of the interface does, the accessors
have bodies too.
-/

namespace Conformance

theorem Silent.false_of_error {diagnostics : List Diagnostic} (silent : Silent diagnostics)
    {diagnostic : Diagnostic} (inside : diagnostic ∈ diagnostics)
    (isError : diagnostic.isError = true) : False := by
  rw [silent diagnostic inside] at isError
  cases isError

theorem Silent.of_flatten {lists : List (List Diagnostic)} (silent : Silent lists.flatten)
    {diagnostics : List Diagnostic} (inside : diagnostics ∈ lists) : Silent diagnostics :=
  silent.subset fun _ listed => List.mem_flatten.mpr ⟨diagnostics, inside, listed⟩

/-- A resolution fills the slot of an interface member: there is an implementation;
one that is found by its signature returns what the member returns; and a body of
the member itself can be called. -/
structure Resolution.Fills (table : SymbolTable) (callable : Prop) (member : MemberSymbol)
    (resolution : Resolution) : Prop where
  implemented : ∃ found, resolution.implementation = some found
  returns : ∀ {found}, resolution.implementation = some ⟨found, .implicit⟩ →
    member.clause? = none → ∃ candidate, table.member? found = some candidate ∧
      candidate.signature.returnType = member.signature.returnType ∧
      candidate.signature.returnsByRef = member.signature.returnsByRef
  callable : resolution.source? = some .default → callable

namespace Lookups

variable (lookups : Lookups Id) {table : SymbolTable} {assembly : AssemblyId} {typeId : TypeId}
  {type : TypeSymbol} {id : MemberId} {member : MemberSymbol}

/-! ## Checks without errors -/

theorem isError_notImplemented (close : Option CloseMismatch) :
    (notImplemented table typeId type id close).isError = true := by
  unfold notImplemented
  rcases close with _ | ⟨candidate, reason⟩
  · rfl
  · cases reason <;> rfl

theorem isError_useSite : (table.useSite type member).isError = true := by
  unfold SymbolTable.useSite
  extract_lets display diagnostic
  split <;> rfl

/-- The body of a member of a referenced assembly is used only if the runtime can
call it. -/
theorem runtime_of_silent_use
    (silent : Silent (lookups.checkDefaultUse table assembly type id member).run)
    (found : table.member? id = some member) (bodied : member.hasImplementation = true)
    (other : (table.type? member.owner).map TypeSymbol.assembly ≠ some assembly) :
    (lookups.runtime assembly).run = true := by
  by_contra unsupported
  rw [lookups.checkDefaultUse_run found bodied, if_neg (not_or.mpr ⟨other, unsupported⟩)] at silent
  exact silent.false_of_error List.mem_cons_self isError_useSite

section

variable {lookups}

/-- An implementation by signature that is not reported returns the same. -/
theorem returns_of_silent {found : MemberId}
    (silent : Silent (checkReturnType table typeId type id member found)) :
    ∃ candidate, table.member? found = some candidate ∧
      candidate.signature.returnType = member.signature.returnType ∧
      candidate.signature.returnsByRef = member.signature.returnsByRef := by
  unfold checkReturnType at silent
  split at silent
  · rename_i same
    cases known : table.member? found with
    | none =>
      rw [known] at same
      cases same
    | some candidate =>
      rw [known] at same
      exact ⟨candidate, rfl, by simpa [MemberSymbol.returnsSame] using same⟩
  · exact (silent.false_of_error List.mem_cons_self rfl).elim

variable (laid : table.Laid) (foundType : table.type? typeId = some type)
  (silent : Silent (lookups.checkImplementations table assembly typeId type).run)

include laid silent

/-- The members of the interfaces of a type are checked. -/
theorem checkMember_silent (found : table.member? id = some member)
    (noClause : member.clause? = none) (implementable : table.isImplementable member = true)
    (inside : member.owner ∈ (lookups.interfaces typeId).run) :
    Silent (lookups.checkMember table assembly typeId type (id, member)).run := by
  rcases laid.listed found noClause with ⟨interface, foundInterface, listed⟩
  rw [checkImplementations_run] at silent
  refine silent.of_flatten (List.mem_map.mpr
    ⟨(id, member), List.mem_flatMap.mpr ⟨interface, ?_, ?_⟩, rfl⟩)
  · exact List.mem_filterMap.mpr ⟨member.owner, inside, foundInterface⟩
  · exact List.mem_filter.mpr ⟨SymbolTable.mem_membersOf listed found, implementable⟩

omit silent in
/-- Where an interface is checked, the runtime can call the bodies of its members and
of their accessors. -/
theorem runtime_of_silent_bodies {interface : TypeSymbol}
    (silent : Silent (lookups.checkBodies table assembly interface).run)
    (foundOwner : table.type? member.owner = some interface)
    (found : table.member? id = some member) (bodied : member.hasImplementation = true) :
    (lookups.runtime assembly).run = true := by
  have reported : ∃ entry ∈ table.membersOf interface, (entry.2.hasImplementation ||
      (table.accessorsOf entry.2).any fun accessor => accessor.2.hasImplementation) = true := by
    cases clause : member.clause? with
    | none =>
      rcases laid.listed found clause with ⟨_, foundAgain, listed⟩
      cases foundOwner.symm.trans foundAgain
      exact ⟨(id, member), SymbolTable.mem_membersOf listed found, by rw [bodied, Bool.true_or]⟩
    | some entry =>
      rcases laid.clause found clause with ⟨parent, foundParent, noClause, owner, has⟩
      rcases laid.listed foundParent noClause with ⟨_, foundAgain, listed⟩
      rw [owner] at foundAgain
      cases foundOwner.symm.trans foundAgain
      refine ⟨(entry.2, parent), SymbolTable.mem_membersOf listed foundParent, ?_⟩
      have isAccessor := SymbolTable.mem_accessorsOf
        (MemberSymbol.mem_accessors.mpr ⟨entry.1, has⟩) found
      rw [List.any_eq_true.mpr ⟨_, isAccessor, bodied⟩, Bool.or_true]
  rcases reported with ⟨entry, listed, hasBody⟩
  have kept := List.mem_filter (p := fun entry : MemberId × MemberSymbol =>
    entry.2.hasImplementation || (table.accessorsOf entry.2).any fun accessor =>
      accessor.2.hasImplementation) |>.mpr ⟨listed, hasBody⟩
  by_contra unsupported
  rw [checkBodies_run, if_neg (fun empty => List.ne_nil_of_mem kept (List.isEmpty_iff.mp empty)),
    if_neg unsupported] at silent
  exact silent.false_of_error (List.mem_map_of_mem kept) rfl

variable (own : ∀ {interfaceId interface}, table.type? interfaceId = some interface →
    interface.isInterface = true → interface.assembly = assembly →
      Silent (lookups.checkBodies table assembly interface).run)

omit silent in
include own in
/-- A body that a type relies on can be called, as far as its own interfaces and its
use are not reported. -/
theorem runtime_of_silent
    (silent : Silent (lookups.checkDefaultUse table assembly type id member).run)
    (found : table.member? id = some member) (implementable : table.isImplementable member = true)
    (bodied : member.hasImplementation = true) : (lookups.runtime assembly).run = true := by
  by_cases other : (table.type? member.owner).map TypeSymbol.assembly = some assembly
  · rcases Option.map_eq_some_iff.mp other with ⟨interface, foundOwner, isOwn⟩
    have isInterface : interface.isInterface = true := by
      rw [SymbolTable.isImplementable_eq foundOwner] at implementable
      exact (MemberDecl.implementableIn_iff.mp implementable).1
    exact runtime_of_silent_bodies laid (own foundOwner isInterface isOwn) foundOwner found bodied
  · exact lookups.runtime_of_silent_use silent found bodied other

include foundType own

/-- What is checked without errors is implemented. -/
theorem fills_head (found : table.member? id = some member) (noClause : member.clause? = none)
    (implementable : table.isImplementable member = true)
    (inside : member.owner ∈ (lookups.interfaces typeId).run) :
    (lookups.resolve table typeId id).run.Fills table ((lookups.runtime assembly).run = true)
      member := by
  have checked := checkMember_silent laid silent found noClause implementable inside
  have bodied (fromBody : (lookups.resolve table typeId id).run.source? = some .default) :=
    hasImplementation_of_default laid foundType found fromBody
  rw [checkMember_run] at checked
  generalize (lookups.resolve table typeId id).run = resolution at checked bodied ⊢
  obtain ⟨implementation, close⟩ := resolution
  cases implementation with
  | none => exact (checked.false_of_error List.mem_cons_self (isError_notImplemented close)).elim
  | some implementation =>
    obtain ⟨candidate, source⟩ := implementation
    cases source with
    | explicit => exact ⟨⟨_, rfl⟩, nofun, nofun⟩
    | implicit =>
      refine ⟨⟨_, rfl⟩, fun {other} same _ => ?_, nofun⟩
      cases same
      exact returns_of_silent (checked.subset (List.subset_append_left _ _))
    | default =>
      exact ⟨⟨_, rfl⟩, nofun, fun _ =>
        runtime_of_silent laid own checked found implementable (bodied rfl)⟩

/-- So are the accessors of what is checked, if their members have to be implemented
and have bodies where the accessors do. -/
theorem fills_clause {kind : AccessorKind} {parentId : MemberId} {parent : MemberSymbol}
    (found : table.member? id = some member) (clause : member.clause? = some (kind, parentId))
    (foundParent : table.member? parentId = some parent)
    (implementable : table.isImplementable member = true)
    (regular : table.isImplementable parent = true)
    (complete : parent.hasImplementation = true → member.hasImplementation = true)
    (inside : member.owner ∈ (lookups.interfaces typeId).run) :
    (lookups.resolve table typeId id).run.Fills table ((lookups.runtime assembly).run = true)
      member := by
  rcases laid.of_clause found clause foundParent with ⟨noClause, owner, has⟩
  have insideParent : parent.owner ∈ (lookups.interfaces typeId).run := by rwa [owner]
  have head := fills_head laid foundType silent own foundParent noClause regular insideParent
  have checked := checkMember_silent laid silent foundParent noClause regular insideParent
  rcases head.implemented with ⟨⟨candidate, source⟩, implemented⟩
  have noReturn {target : MemberId} (_ : (lookups.resolve table typeId id).run.implementation =
      some ⟨target, .implicit⟩) (none : member.clause? = none) : ∃ candidate,
        table.member? target = some candidate ∧
        candidate.signature.returnType = member.signature.returnType ∧
        candidate.signature.returnsByRef = member.signature.returnsByRef := by
    rw [clause] at none
    cases none
  by_cases isDefault : source = .default
  · -- The member implements itself, and so does the accessor.
    have fromBody : (lookups.resolve table typeId parentId).run.source? = some .default := by
      rw [Resolution.source?, implemented, isDefault]
      rfl
    have bodied := hasImplementation_of_default laid foundType foundParent fromBody
    have itself := resolve_clause_of_default foundType found clause foundParent noClause
      implementable inside (complete bodied) fromBody
    exact ⟨⟨_, itself⟩, noReturn, fun _ => head.callable fromBody⟩
  · -- The member is implemented by another, so its accessors are checked.
    have clauses : Silent (lookups.checkClause table assembly typeId type (id, member)).run := by
      have listed := List.mem_map_of_mem (f := fun accessor =>
        (lookups.checkClause table assembly typeId type accessor).run)
        (SymbolTable.mem_accessorsOf (MemberSymbol.mem_accessors.mpr ⟨kind, has⟩) found)
      rw [checkMember_run] at checked
      simp only [implemented] at checked
      cases source with
      | default => exact absurd rfl isDefault
      | explicit => exact (checked.subset (List.subset_append_right _ _)).of_flatten listed
      | implicit => exact (checked.subset (List.subset_append_right _ _)).of_flatten listed
    have bodied (fromBody : (lookups.resolve table typeId id).run.source? = some .default) :=
      hasImplementation_of_default laid foundType found fromBody
    rw [checkClause_run, if_pos implementable] at clauses
    generalize (lookups.resolve table typeId id).run = resolution at clauses bodied noReturn ⊢
    obtain ⟨implementation, close⟩ := resolution
    cases implementation with
    | none => exact (clauses.false_of_error List.mem_cons_self (isError_notImplemented close)).elim
    | some implementation =>
      refine ⟨⟨_, rfl⟩, noReturn, fun fromBody => ?_⟩
      rw [fromBody] at clauses
      exact runtime_of_silent laid own clauses found implementable (bodied fromBody)

end

/-- A type without errors is a class or struct whose interfaces are implemented, or an
interface whose bodies can be called. -/
theorem checkType_silent (silent : Silent (lookups.checkType table assembly typeId).run)
    (foundType : table.type? typeId = some type) :
    if type.isInterface then Silent (lookups.checkBodies table assembly type).run
    else Silent (lookups.checkImplementations table assembly typeId type).run := by
  rw [lookups.checkType_run foundType] at silent
  split
  · rename_i isInterface
    rwa [if_pos isInterface] at silent
  · rename_i isNone
    rw [if_neg isNone] at silent
    exact silent.subset fun _ listed => List.mem_append_left _ (List.mem_append_right _ listed)

end Lookups

namespace Compilation

/-- A compilation without errors is bound without errors, and so is each of its types
checked. -/
theorem silent_of_check {lookups : Lookups Id} {compilation : Compilation}
    {diagnostics : List Diagnostic}
    (checked : (compilation.check lookups {}).run = .ok diagnostics) (silent : Silent diagnostics) :
    Silent compilation.bindingDiagnostics ∧ ∀ typeId ∈ compilation.types,
      Silent (lookups.checkType compilation.table compilation.assembly typeId).run := by
  rw [compilation.check_run] at checked
  cases checked
  refine ⟨silent.subset (List.subset_append_left _ _), fun typeId listed => ?_⟩
  exact silent.subset fun _ inside =>
    List.mem_append_right _ (List.mem_flatMap.mpr ⟨typeId, listed, inside⟩)

end Compilation

end Conformance
