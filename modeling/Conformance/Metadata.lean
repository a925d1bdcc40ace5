import Conformance.Binding.Assembly

/-!
Metadata: assemblies turned back into declarations, and members that are
recognised in another table.

The export of an assembly carries the modifiers that binding made, and no
locations. Ids do not survive it; a `MemberKey` does.
-/

namespace Conformance

/-! ## Export -/

/-- An accessor of a member with the given modifiers. An accessibility is
written only if it is not that of the member. -/
def exportAccessor (member : Modifiers) (accessor : MemberSymbol) : AccessorDecl :=
  let access := accessor.modifiers.accessibility?
  { modifiers :=
      if access.isSome ∧ access ≠ member.accessibility? then accessor.modifiers ∩ .accesses else ∅
    hasBody := accessor.hasBody }

namespace SymbolTable

/-- The accessor with an id, as a declaration. -/
def exportAccessor? (table : SymbolTable) (member : MemberSymbol) (id : Option MemberId) :
    Option AccessorDecl :=
  (id.bind table.member?).map (exportAccessor member.modifiers)

/-- The declaration of a property or an indexer. -/
def exportProperty (table : SymbolTable) (member : MemberSymbol) (getter setter : Option MemberId) :
    PropertyDecl where
  name := member.name
  explicitInterface := member.explicitInterface
  modifiers := member.modifiers
  type := member.signature.returnType
  parameters := member.signature.parameters
  returnsByRef := member.signature.returnsByRef
  getter := table.exportAccessor? member getter
  setter := table.exportAccessor? member setter

/-- The declaration of a member. Accessors have none: they are part of that of
their member. -/
def exportMember? (table : SymbolTable) (member : MemberSymbol) : Option MemberDecl :=
  match member.kind with
  | .method =>
    some (.method
      { name := member.name
        explicitInterface := member.explicitInterface
        modifiers := member.modifiers
        parameters := member.signature.parameters
        returnType := member.signature.returnType
        returnsByRef := member.signature.returnsByRef
        hasBody := member.hasBody })
  | .property false getter setter => some (.property (table.exportProperty member getter setter))
  | .property true getter setter => some (.indexer (table.exportProperty member getter setter))
  | .event adder remover =>
    some (.event
      { name := member.name
        explicitInterface := member.explicitInterface
        modifiers := member.modifiers
        type := member.signature.returnType
        adder := table.exportAccessor? member adder
        remover := table.exportAccessor? member remover })
  | .accessor _ _ => none

/-- The declaration of a type, if all the types that it names exist. -/
def exportType (table : SymbolTable) (type : TypeSymbol) : Except Fault TypeDecl := do
  let base ← type.base.mapM table.type
  let interfaces ← type.interfaces.mapM table.type
  return {
    name := type.name
    kind := type.kind
    modifiers := type.modifiers
    base := base.map TypeSymbol.name
    interfaces := interfaces.map TypeSymbol.name
    members := (table.membersOf type).filterMap fun entry => table.exportMember? entry.2 }

/-- The declaration of an assembly. -/
def exportAssembly (table : SymbolTable) (assembly : AssemblySymbol) :
    Except Fault AssemblyDecl := do
  let types ← (assembly.types.filterMap table.type?).mapM table.exportType
  return {
    name := assembly.name
    coreLibrary := assembly.coreLibrary
    references := (assembly.references.filterMap table.assembly?).map AssemblySymbol.name
    types }

/-- Binds the export of an assembly. -/
def importAssembly (table : SymbolTable) (decl : AssemblyDecl) (references : List AssemblyId) :
    Binding :=
  table.bind decl references .metadata

end SymbolTable

/-! ## Members across tables -/

/-- What tells a member from all others, in whichever table it stands. -/
structure MemberKey where
  assembly : String
  type : String
  /-- The interface that an explicit implementation names. -/
  explicitInterface : Option String
  /-- The key of the member that an accessor is a clause of. -/
  parent : Option SignatureKey
  signature : SignatureKey
deriving DecidableEq, Repr

namespace SymbolTable

/-- The key of a member. -/
def keyOf (table : SymbolTable) (member : MemberSymbol) : MemberKey :=
  let owner := table.type? member.owner
  { assembly :=
      ((owner.bind fun owner => table.assembly? owner.assembly).map AssemblySymbol.name).getD ""
    type := (owner.map TypeSymbol.name).getD ""
    explicitInterface := member.explicitInterface
    parent := (member.clause?.bind fun clause => table.member? clause.2).map SignatureKey.ofMember
    signature := .ofMember member }

/-- The member with a key: the first in the first type of its name, in the
first assembly of its name. -/
def memberOfKey? (table : SymbolTable) (key : MemberKey) : Option MemberId := do
  let assembly ← table.assemblyNamed? key.assembly
  let typeId ← table.typeIn? assembly key.type
  let type ← table.type? typeId
  let (id, member) ← (table.membersOf type).find? fun entry =>
    decide (entry.2.explicitInterface = key.explicitInterface) &&
      decide (SignatureKey.ofMember entry.2 = key.parent.getD key.signature)
  if key.parent.isNone then return id
  let (accessor, _) ← (table.accessorsOf member).find? fun entry =>
    decide (SignatureKey.ofMember entry.2 = key.signature)
  return accessor

end SymbolTable

end Conformance
