import Conformance.Resolution.Level

/-!
Which member implements an interface member for a type.

* A member that types can implement, of an interface that the type implements,
  has an answer; no other has.
* An explicit implementation comes first. The type and its base types are
  searched, the most derived one first, as far as they implement the interface.
* Otherwise the same types are searched for a public instance member with the
  signature. Static members and those that are not public are passed over, and
  the first of them is remembered; a member of another kind under the same name
  ends the search.
* Otherwise the interface member implements itself, if it has a body.
* An accessor is implemented by the accessor of whatever implements its member.

What resolution has to know of interface lists and levels it asks for through
`Lookups`, so that the same rule can be run with and without memory.
-/

namespace Conformance

/-- How an implementation was found. -/
inductive ImplementationSource where
  | explicit
  | implicit
  /-- The body of the interface member itself. -/
  | default
deriving DecidableEq, Repr

/-- The word for a source in reports. -/
def ImplementationSource.name : ImplementationSource → String
  | explicit => "explicit"
  | implicit => "implicit"
  | default => "default"

/-- The member that implements an interface member. -/
structure Implementation where
  member : MemberId
  source : ImplementationSource
deriving DecidableEq, Repr

/-- Why a member with the right signature was passed over. -/
inductive MismatchReason where
  | static
  | notPublic
deriving DecidableEq, Repr

/-- A member that was passed over. -/
structure CloseMismatch where
  candidate : MemberId
  reason : MismatchReason
deriving DecidableEq, Repr

/-- The answer to the question what implements an interface member. -/
structure Resolution where
  implementation : Option Implementation := none
  /-- The most derived member that was passed over. -/
  closeMismatch : Option CloseMismatch := none
deriving DecidableEq, Repr

namespace Resolution

/-- There is no implementation. -/
def missing : Resolution := {}

/-- The implementing member. -/
def member? (resolution : Resolution) : Option MemberId :=
  resolution.implementation.map Implementation.member

/-- How the implementing member was found. -/
def source? (resolution : Resolution) : Option ImplementationSource :=
  resolution.implementation.map Implementation.source

end Resolution

/-- What an interface member offers to types that do not implement it. -/
inductive DefaultBody where
  /-- It has no body. -/
  | missing
  /-- It implements itself. -/
  | usable (member : MemberId)
  /-- It implements itself, but the runtime cannot call it. -/
  | unsupported (member : MemberId)
deriving DecidableEq, Repr

namespace DefaultBody

/-- The implementing member, whether or not the runtime can call it. -/
def member? : DefaultBody → Option MemberId
  | missing => none
  | usable member => some member
  | unsupported member => some member

/-- Whether the runtime cannot call the body that there is. -/
def isUnsupported : DefaultBody → Bool
  | unsupported _ => true
  | _ => false

end DefaultBody

/-- What resolution asks for. -/
structure Lookups (m : Type → Type) where
  /-- The interfaces that a type implements. -/
  interfaces : TypeId → m (List TypeId)
  /-- The members that a type declares. -/
  level : TypeId → m LevelTable
  /-- Whether the runtime of an assembly can call bodies of interfaces. -/
  runtime : AssemblyId → m Bool

namespace Lookups

variable {m : Type → Type} [Monad m]

/-- Whether a type implements an interface. -/
def implements (lookups : Lookups m) (id interface : TypeId) : m Bool := do
  return decide (interface ∈ (← lookups.interfaces id))

/-! ## Bodies of interface members -/

/-- What an interface member offers to code of an assembly. The flag of the
assembly is read only if there is a body. -/
def defaultBody (lookups : Lookups m) (table : SymbolTable) (id : MemberId)
    (assembly : AssemblyId) : m DefaultBody := do
  if (table.member? id).any MemberSymbol.hasImplementation then
    if ← lookups.runtime assembly then return .usable id else return .unsupported id
  else return .missing

/-- The resolution, completed by the body of the interface member. -/
def orDefault (lookups : Lookups m) (table : SymbolTable) (type : TypeSymbol) (id : MemberId)
    (resolution : Resolution) : m Resolution := do
  if resolution.implementation.isSome then return resolution
  let body ← lookups.defaultBody table id type.assembly
  return { resolution with implementation := body.member?.map fun member => ⟨member, .default⟩ }

/-! ## Explicit implementations -/

/-- The first level that has an explicit implementation of an interface member. -/
def findExplicit (lookups : Lookups m) (table : SymbolTable) (interface : TypeId)
    (id : MemberId) : List TypeId → m (Option MemberId)
  | [] => return none
  | level :: rest => do
    if ← lookups.implements level interface then
      match (← lookups.level level).explicit? id with
      | some candidate =>
        if (table.member? candidate).any fun member => member.isBoundTo interface id then
          return some candidate
        else lookups.findExplicit table interface id rest
      | none => lookups.findExplicit table interface id rest
    else lookups.findExplicit table interface id rest

/-! ## Implementations by signature -/

/-- Why a member cannot implement one of the same signature. -/
def mismatch? (member : MemberSymbol) : Option MismatchReason :=
  if member.modifiers.isStatic then some .static
  else if !member.isPublic then some .notPublic
  else none

/-- The first member that fits, among those of one level with the signature.
`close` is the first member that was passed over so far. -/
def scan (table : SymbolTable) (close : Option CloseMismatch) : List MemberId → Resolution
  | [] => { closeMismatch := close }
  | id :: rest =>
    match (table.member? id).bind mismatch? with
    | none => { implementation := some ⟨id, .implicit⟩, closeMismatch := close }
    | some reason => scan table (close.or (some ⟨id, reason⟩)) rest

/-- The first level that has a member that fits. -/
def findImplicit (lookups : Lookups m) (table : SymbolTable) (key : SignatureKey)
    (close : Option CloseMismatch) : List TypeId → m Resolution
  | [] => return { closeMismatch := close }
  | level :: rest => do
    let members ← lookups.level level
    let resolution := scan table close (members.candidates key)
    if resolution.implementation.isSome || members.hides key then return resolution
    else lookups.findImplicit table key resolution.closeMismatch rest

/-! ## Resolution -/

/-- What implements a member of an interface that the type implements. -/
def resolveMember (lookups : Lookups m) (table : SymbolTable) (typeId : TypeId)
    (type : TypeSymbol) (id : MemberId) (member : MemberSymbol) : m Resolution := do
  if type.isInterface then lookups.orDefault table type id .missing
  else
    let chain := table.baseChain typeId
    match ← lookups.findExplicit table member.owner id chain with
    | some found => return { implementation := some ⟨found, .explicit⟩ }
    | none =>
      let resolution ← lookups.findImplicit table (.ofMember member) none chain
      lookups.orDefault table type id resolution

/-- The accessor of a member that was passed over, or the member itself. -/
def closeAccessor (table : SymbolTable) (kind : AccessorKind) (close : CloseMismatch) :
    CloseMismatch :=
  { close with
    candidate := ((table.member? close.candidate).bind (·.accessor? kind)).getD close.candidate }

/-- What implements an accessor, before the body of the accessor itself is
looked at, given what implements its member. -/
def resolveClause (table : SymbolTable) (id : MemberId) (accessor : MemberSymbol)
    (kind : AccessorKind) (parent : Resolution) : Resolution :=
  let close := parent.closeMismatch.map (closeAccessor table kind)
  match parent.implementation with
  | none => { closeMismatch := close }
  | some found =>
    let clause? := ((table.member? found.member).bind (·.accessor? kind)).bind fun clause =>
      (table.member? clause).map fun symbol => (clause, symbol)
    match found.source with
    | .default => .missing
    | .explicit =>
      { implementation := clause?.bind fun (clause, symbol) =>
          if symbol.isBoundTo accessor.owner id then some ⟨clause, .explicit⟩ else none
        closeMismatch := close }
    | .implicit =>
      match clause? with
      | some (clause, symbol) =>
        if symbol.isPublic then { implementation := some ⟨clause, .implicit⟩ }
        else { closeMismatch := some ⟨clause, .notPublic⟩ }
      | none => { closeMismatch := close }

/-- Runs a resolution for a member that types can implement, if the type
implements its interface. -/
def whenImplemented (lookups : Lookups m) (table : SymbolTable) (typeId : TypeId)
    (member : MemberSymbol) (resolution : m Resolution) : m Resolution := do
  if table.isImplementable member then
    if ← lookups.implements typeId member.owner then resolution else return .missing
  else return .missing

/-- What implements an interface member for a type. -/
def resolve (lookups : Lookups m) (table : SymbolTable) (typeId : TypeId) (id : MemberId) :
    m Resolution := do
  match table.type? typeId, table.member? id with
  | some type, some member =>
    lookups.whenImplemented table typeId member do
      match member.clause? with
      | none => lookups.resolveMember table typeId type id member
      | some (kind, parentId) =>
        match table.member? parentId with
        | none => return .missing
        | some parent =>
          let resolution ← lookups.whenImplemented table typeId parent
            (lookups.resolveMember table typeId type parentId parent)
          lookups.orDefault table type id (resolveClause table id member kind resolution)
  | _, _ => return .missing

end Lookups

end Conformance
