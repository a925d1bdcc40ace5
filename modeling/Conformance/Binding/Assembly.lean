import Conformance.Binding.Member
import Conformance.Binding.Target

/-!
Binding an assembly.

Declarations are turned into symbols in four phases: all types are declared, so
that names can mean them; their base types and interface lists are looked up,
and cycles broken; their members are made; and explicit implementations are
bound to what they implement.
-/

namespace Conformance

/-- Where declarations come from. -/
inductive BindMode where
  /-- Source: each breach of a rule is reported. -/
  | source (version : LanguageVersion)
  /-- The export of a compiled assembly. It is trusted: nothing is reported,
  and every feature of the language is there. -/
  | metadata
deriving DecidableEq, Repr

namespace BindMode

/-- Whether declarations come from the export of a compiled assembly. -/
def isMetadata : BindMode → Bool
  | source _ => false
  | metadata => true

/-- The language version, if it lacks a feature. -/
def outdated? (mode : BindMode) (feature : Feature) : Option LanguageVersion :=
  match mode with
  | source version => if version.supports feature then none else some version
  | metadata => none

/-- What is reported of the diagnostics that were found. -/
def reported (mode : BindMode) (diagnostics : List Diagnostic) : List Diagnostic :=
  if mode.isMetadata then [] else diagnostics

end BindMode

/-- What binding an assembly leads to. -/
structure Binding where
  table : SymbolTable
  assembly : AssemblyId
  /-- The types of the assembly, in the order of their declarations. -/
  types : List TypeId
  diagnostics : List Diagnostic
  /-- The table held links to types that do not exist. The assembly is then
  left without members. -/
  fault? : Option Fault := none

namespace SymbolTable

/-! ## Types -/

/-- The symbol of a type before anything is known of other types. Interfaces
are abstract without saying so. -/
def shell (assembly : AssemblyId) (decl : TypeDecl) : TypeSymbol where
  name := decl.name
  kind := decl.kind
  assembly := assembly
  modifiers :=
    if decl.kind = .interfaceType then { decl.modifiers with isAbstract := true }
    else decl.modifiers
  span := decl.span
  interfaceListSpan := decl.heritageSpan

/-- Declares the types of an assembly. -/
def declareTypes (table : SymbolTable) (assembly : AssemblyId) (decls : List TypeDecl) :
    SymbolTable :=
  decls.foldl (fun table decl => table.addType (shell assembly decl)) table

/-- Enters what a type inherits from. -/
def setHeritage (table : SymbolTable) (id : TypeId) (heritage : Heritage) : SymbolTable :=
  table.modifyType id fun type =>
    { type with base := heritage.base, interfaces := heritage.interfaces }

/-! ## Members -/

/-- What the members of a type have to know of it. -/
def memberScope (mode : BindMode) (id : TypeId) (type : TypeSymbol) : MemberScope where
  owner := id
  ownerName := type.name
  ownerIsInterface := type.isInterface
  ownerIsAbstract := type.isAbstract
  outdated? := mode.outdated? .defaultInterfaceImplementation

/-- Adds the symbols of a member, and lists the member in its type. -/
def addBlock (table : SymbolTable) (block : MemberBlock) : SymbolTable :=
  let id := table.nextMember
  (block.symbols.foldl addMember table).modifyType block.head.owner fun type =>
    { type with members := type.members ++ [id] }

/-- Binds one member of a type. -/
def bindMember (scope : MemberScope) (state : SymbolTable × List Diagnostic) (decl : MemberDecl) :
    SymbolTable × List Diagnostic :=
  let block := decl.bind scope state.1.nextMember
  (state.1.addBlock block, state.2 ++ block.diagnostics)

/-- Binds the members of a type. -/
def bindMembers (mode : BindMode) (state : SymbolTable × List Diagnostic)
    (entry : TypeId × TypeDecl) : SymbolTable × List Diagnostic :=
  match state.1.type? entry.1 with
  | none => state
  | some type => entry.2.members.foldl (bindMember (memberScope mode entry.1 type)) state

/-! ## Assemblies -/

/-- Binds a declaration as a new assembly that is compiled against `references`. -/
def bind (table : SymbolTable) (decl : AssemblyDecl) (references : List AssemblyId)
    (mode : BindMode) : Binding :=
  let assembly := table.nextAssembly
  let registered := table.addAssembly
    { name := decl.name
      coreLibrary := decl.coreLibrary
      references
      isMetadata := mode.isMetadata }
  let declared := registered.declareTypes assembly decl.types
  let types := declared.typesOf assembly
  let entries := types.zip decl.types
  let heritages := entries.map fun entry =>
    (entry.1, entry.2.bindHeritage (declared.resolve? assembly))
  let inherited := heritages.foldl (fun table entry => table.setHeritage entry.1 entry.2) declared
  let untangled := inherited.breakCycles types
  match untangled.fault? with
  | some fault =>
    { table := untangled.table, assembly, types, diagnostics := [], fault? := some fault }
  | none =>
    let members := entries.foldl (bindMembers mode) (untangled.table, [])
    let bindings := types.flatMap (members.1.targetsOf assembly)
    { table := (bindings.flatMap TargetBinding.targets).foldl setTarget members.1
      assembly
      types
      diagnostics := mode.reported
        (heritages.flatMap (fun entry => entry.2.diagnostics) ++ untangled.diagnostics ++
          members.2 ++ bindings.flatMap TargetBinding.diagnostics) }

end SymbolTable

end Conformance
