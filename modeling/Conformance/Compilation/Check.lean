import Conformance.Compilation.Basic
import Conformance.Symbol.Display

/-!
The checks on the types of an assembly.

For a class or struct: every member of the interfaces that it implements has an
implementation of the right return type that the runtime can call, explicit
implementations belong to these interfaces, and members hide inherited ones
only if they say so. For an interface: the runtime can call the bodies that it
declares.
-/

namespace Conformance

/-- A type as an argument of a diagnostic. -/
def SymbolTable.typeArgument (table : SymbolTable) (id : TypeId) : Argument :=
  .type (table.displayType id)

/-- A member as an argument of a diagnostic. -/
def SymbolTable.memberArgument (table : SymbolTable) (id : MemberId) : Argument :=
  .member (table.display id)

/-! ## Bodies that the runtime cannot call -/

/-- The diagnostic for a body that an interface of this assembly declares. -/
def MemberSymbol.declarationSite (member : MemberSymbol) : Diagnostic :=
  .breach .runtimeLacksDefaults member.span []

/-- The diagnostic for a type that relies on the body of a member of a
referenced assembly. -/
def SymbolTable.useSite (table : SymbolTable) (type : TypeSymbol) (member : MemberSymbol) :
    Diagnostic :=
  let display := Argument.member (table.displayMember member)
  let diagnostic : Diagnostic :=
    .breach .runtimeLacksDefaultFor type.interfaceListSpan [display, .type type.name]
  if member.span.isUnknown then diagnostic
  else diagnostic.withNote ⟨member.span, Rule.declaredHere.code, [display]⟩

namespace Lookups

variable {m : Type → Type} [Monad m]

/-! ## Implementation of interfaces -/

/-- The diagnostic for a member without implementation. It names the member
that came closest. -/
def notImplemented (table : SymbolTable) (typeId : TypeId) (type : TypeSymbol) (id : MemberId)
    (close : Option CloseMismatch) : Diagnostic :=
  let arguments := [table.typeArgument typeId, table.memberArgument id]
  match close with
  | none => .breach .notImplemented type.interfaceListSpan arguments
  | some ⟨candidate, .static⟩ =>
    .breach .candidateStatic type.interfaceListSpan (arguments ++ [table.memberArgument candidate])
  | some ⟨candidate, .notPublic⟩ =>
    .breach .candidateNotPublic type.interfaceListSpan
      (arguments ++ [table.memberArgument candidate])

/-- Checks that an implementation found by its signature returns what the
interface member returns. -/
def checkReturnType (table : SymbolTable) (typeId : TypeId) (type : TypeSymbol) (id : MemberId)
    (member : MemberSymbol) (found : MemberId) : List Diagnostic :=
  if (table.member? found).any fun candidate => candidate.returnsSame member then []
  else
    let expected :=
      if member.signature.returnsByRef then "ref " ++ member.signature.returnType
      else member.signature.returnType
    [.breach .candidateReturnType type.interfaceListSpan
      [table.typeArgument typeId, table.memberArgument id, table.memberArgument found,
        .type expected]]

/-- Checks that the runtime can call the body of an interface member that a
type relies on. Bodies of the own assembly are reported where they are
declared. -/
def checkDefaultUse (lookups : Lookups m) (table : SymbolTable) (assembly : AssemblyId)
    (type : TypeSymbol) (id : MemberId) (member : MemberSymbol) : m (List Diagnostic) := do
  if ((table.type? member.owner).map TypeSymbol.assembly) = some assembly then return []
  if (← lookups.defaultBody table id assembly).isUnsupported then
    return [table.useSite type member]
  else return []

/-- Checks an accessor of a member that is implemented by a property or event. -/
def checkClause (lookups : Lookups m) (table : SymbolTable) (assembly : AssemblyId)
    (typeId : TypeId) (type : TypeSymbol) (accessor : MemberId × MemberSymbol) :
    m (List Diagnostic) := do
  if table.isImplementable accessor.2 then
    let resolution ← lookups.resolve table typeId accessor.1
    match resolution.source? with
    | none => return [notImplemented table typeId type accessor.1 resolution.closeMismatch]
    | some .default => lookups.checkDefaultUse table assembly type accessor.1 accessor.2
    | some _ => return []
  else return []

/-- Checks one member of an interface that a type implements. -/
def checkMember (lookups : Lookups m) (table : SymbolTable) (assembly : AssemblyId)
    (typeId : TypeId) (type : TypeSymbol) (member : MemberId × MemberSymbol) :
    m (List Diagnostic) := do
  let resolution ← lookups.resolve table typeId member.1
  match resolution.implementation with
  | none => return [notImplemented table typeId type member.1 resolution.closeMismatch]
  | some ⟨_, .default⟩ => lookups.checkDefaultUse table assembly type member.1 member.2
  | some ⟨found, source⟩ =>
    let returned :=
      if source = .implicit then checkReturnType table typeId type member.1 member.2 found else []
    let clauses ← (table.accessorsOf member.2).mapM
      (lookups.checkClause table assembly typeId type)
    return returned ++ clauses.flatten

/-- Checks the members of the interfaces that a type implements. -/
def checkImplementations (lookups : Lookups m) (table : SymbolTable) (assembly : AssemblyId)
    (typeId : TypeId) (type : TypeSymbol) : m (List Diagnostic) := do
  let interfaces ← lookups.interfaces typeId
  let members := (interfaces.filterMap table.type?).flatMap fun interface =>
    (table.membersOf interface).filter fun member => table.isImplementable member.2
  return (← members.mapM (lookups.checkMember table assembly typeId type)).flatten

/-! ## Explicit implementations -/

/-- Checks that explicit implementations belong to interfaces that the type
implements. -/
def checkExplicit (lookups : Lookups m) (table : SymbolTable) (typeId : TypeId)
    (type : TypeSymbol) : m (List Diagnostic) := do
  let interfaces ← lookups.interfaces typeId
  return (table.membersOf type).filterMap fun (id, member) =>
    match member.target with
    | none => none
    | some target =>
      if target.interface ∈ interfaces then none
      else some (.breach .explicitNotListed member.span
        [table.memberArgument id, table.typeArgument target.interface])

/-! ## Hiding -/

/-- Whether a member hides an inherited one of its name. Methods hide methods,
and indexers indexers, only by their parameters. -/
def hidesInherited (key inherited : SignatureKey) : Bool :=
  match key.shape, inherited.shape with
  | .method, .method => decide (key.parameters = inherited.parameters)
  | .indexer, .indexer => decide (key.parameters = inherited.parameters)
  | _, _ => true

/-- The most derived member of some base types that a member hides. -/
def hiddenMember? (table : SymbolTable) (member : MemberSymbol) (bases : List TypeId) :
    Option MemberId :=
  bases.findSome? fun base =>
    (table.type? base).bind fun type =>
      ((table.membersOf type).find? fun (_, candidate) =>
        decide (candidate.name = member.name) && !candidate.isPrivate && !candidate.isExplicit &&
          hidesInherited (.ofMember member) (.ofMember candidate)).map Prod.fst

/-- Checks that members are declared with `new` if they hide an inherited one,
and only then. -/
def checkHiding (table : SymbolTable) (type : TypeSymbol) : List Diagnostic :=
  let bases := (type.base.map table.baseChain).getD []
  (table.membersOf type).filterMap fun (id, member) =>
    if member.isExplicit || member.modifiers.isOverride then none
    else
      match hiddenMember? table member bases, member.isNew with
      | some hidden, false =>
        some (.breach .hidesInheritedMember member.span
          [table.memberArgument id, table.memberArgument hidden])
      | none, true => some (.breach .hidesNothing member.span [table.memberArgument id])
      | _, _ => none

/-! ## Interfaces -/

/-- Checks that the runtime can call the bodies that an interface declares. Its
flag is read only if there are bodies. -/
def checkBodies (lookups : Lookups m) (table : SymbolTable) (assembly : AssemblyId)
    (type : TypeSymbol) : m (List Diagnostic) := do
  let bodied := (table.membersOf type).filter fun (_, member) =>
    member.hasImplementation ||
      (table.accessorsOf member).any fun (_, accessor) => accessor.hasImplementation
  if bodied.isEmpty then return []
  if ← lookups.runtime assembly then return []
  return bodied.map fun (_, member) => member.declarationSite

/-! ## Types -/

/-- Runs all checks on a type of an assembly. -/
def checkType (lookups : Lookups m) (table : SymbolTable) (assembly : AssemblyId)
    (typeId : TypeId) : m (List Diagnostic) := do
  match table.type? typeId with
  | none => return []
  | some type =>
    if type.isInterface then lookups.checkBodies table assembly type
    else
      let explicit ← lookups.checkExplicit table typeId type
      let implementations ← lookups.checkImplementations table assembly typeId type
      return explicit ++ implementations ++ checkHiding table type

end Lookups

/-! ## Cancellation -/

/-- A flag that stops a run of the checks. -/
structure CancellationToken where
  isCancelled : Bool := false
deriving DecidableEq, Repr

/-- A run of the checks was stopped. -/
inductive Cancelled where
  | cancelled
deriving DecidableEq, Repr

/-- The message for a run that was stopped. -/
def Cancelled.message : Cancelled → String
  | cancelled => "operation cancelled"

namespace CancellationToken

/-- Raises the flag. -/
def cancel (token : CancellationToken) : CancellationToken :=
  { token with isCancelled := true }

/-- Fails if the flag is raised. -/
def check (token : CancellationToken) : Except Cancelled Unit :=
  if token.isCancelled then .error .cancelled else .ok ()

end CancellationToken

namespace Compilation

variable {m : Type → Type} [Monad m]

/-- Checks the types of an assembly one after another, in their order, as a single thread does
that is not interrupted. The token is looked at before each type, and nothing cancels it in
between, so it stops all checks or none. -/
def checkTypes (lookups : Lookups m) (compilation : Compilation) (token : CancellationToken) :
    m (Except Cancelled (List Diagnostic)) := do
  if compilation.types.isEmpty then return .ok []
  match token.check with
  | .error stop => return .error stop
  | .ok () =>
    let diagnostics ← compilation.types.mapM
      (lookups.checkType compilation.table compilation.assembly)
    return .ok diagnostics.flatten

/-- The diagnostics of a compilation: those of binding, then those of the checks. -/
def check (lookups : Lookups m) (compilation : Compilation) (token : CancellationToken) :
    m (Except Cancelled (List Diagnostic)) := do
  return (← compilation.checkTypes lookups token).map (compilation.bindingDiagnostics ++ ·)

/-- The diagnostics of a compilation, with their messages. -/
def diagnostics (lookups : Lookups m) (compilation : Compilation) :
    m (List RenderedDiagnostic) := do
  match ← compilation.check lookups {} with
  | .ok diagnostics => return diagnostics.map Diagnostic.render
  | .error _ => return []

end Compilation

end Conformance
