import Conformance.Symbol.Basic

/-!
Symbol tables.

A table keeps assemblies, types and members in the order in which they were
added, and the id of each is its place in that order. Nothing is ever taken
out, so an id stays good. Tables that were not made by binding may hold links
to types that do not exist; looking such a type up is a `Fault`.
-/

namespace Conformance

/-- A misuse of a symbol table. Binding declarations never leads to one. -/
inductive Fault where
  /-- A type is needed that the table does not have. -/
  | unknownType (id : TypeId)
  /-- A runtime flag is set after it was read or set. -/
  | frozenRuntime (assembly : String) (value : Bool)
deriving DecidableEq, Repr

/-- The message of a fault, where it has one. -/
def Fault.message? : Fault → Option String
  | unknownType _ => none
  | frozenRuntime assembly value =>
    some ("runtime support flag of assembly '" ++ assembly ++ "' is frozen; cannot set it to " ++
      (if value then "true" else "false"))

/-- The symbols of a set of assemblies. -/
structure SymbolTable where
  assemblies : Array AssemblySymbol := #[]
  types : Array TypeSymbol := #[]
  members : Array MemberSymbol := #[]

namespace SymbolTable

/-- The table without symbols. -/
def empty : SymbolTable := {}

instance : EmptyCollection SymbolTable := ⟨empty⟩

instance : Inhabited SymbolTable := ⟨empty⟩

/-! ## Lookup by id -/

def assembly? (table : SymbolTable) (id : AssemblyId) : Option AssemblySymbol :=
  table.assemblies[id.index]?

def type? (table : SymbolTable) (id : TypeId) : Option TypeSymbol :=
  table.types[id.index]?

def member? (table : SymbolTable) (id : MemberId) : Option MemberSymbol :=
  table.members[id.index]?

/-- The type with an id, or the fault that there is none. -/
def type (table : SymbolTable) (id : TypeId) : Except Fault TypeSymbol :=
  match table.type? id with
  | some type => .ok type
  | none => .error (.unknownType id)

/-! ## Adding symbols -/

/-- The id that the next assembly gets. -/
def nextAssembly (table : SymbolTable) : AssemblyId := ⟨table.assemblies.size⟩

/-- The id that the next type gets. -/
def nextType (table : SymbolTable) : TypeId := ⟨table.types.size⟩

/-- The id that the next member gets. -/
def nextMember (table : SymbolTable) : MemberId := ⟨table.members.size⟩

/-- Adds an assembly. -/
def addAssembly (table : SymbolTable) (assembly : AssemblySymbol) : SymbolTable :=
  { table with assemblies := table.assemblies.push assembly }

/-- Adds a type, and lists it in its assembly. -/
def addType (table : SymbolTable) (type : TypeSymbol) : SymbolTable :=
  { table with
    types := table.types.push type
    assemblies := table.assemblies.modify type.assembly.index fun assembly =>
      { assembly with types := assembly.types ++ [table.nextType] } }

/-- Adds a member. Its type or parent has to list it. -/
def addMember (table : SymbolTable) (member : MemberSymbol) : SymbolTable :=
  { table with members := table.members.push member }

/-- Changes a type. -/
def modifyType (table : SymbolTable) (id : TypeId) (f : TypeSymbol → TypeSymbol) : SymbolTable :=
  { table with types := table.types.modify id.index f }

/-- Changes a member. -/
def modifyMember (table : SymbolTable) (id : MemberId) (f : MemberSymbol → MemberSymbol) :
    SymbolTable :=
  { table with members := table.members.modify id.index f }

/-! ## Lookup by name -/

/-- The first assembly of a name. -/
def assemblyNamed? (table : SymbolTable) (name : String) : Option AssemblyId :=
  (table.assemblies.findIdx? fun assembly => decide (assembly.name = name)).map AssemblyId.mk

/-- The types of an assembly, in the order of their declarations. -/
def typesOf (table : SymbolTable) (assembly : AssemblyId) : List TypeId :=
  ((table.assembly? assembly).map AssemblySymbol.types).getD []

/-- The first type of a name in one assembly. -/
def typeIn? (table : SymbolTable) (assembly : AssemblyId) (name : String) : Option TypeId :=
  (table.typesOf assembly).find? fun id => (table.type? id).any fun type => type.name = name

/-- The type that a name means in an assembly: its own first, then those of its
references in their order. -/
def typeSeenFrom? (table : SymbolTable) (assembly : AssemblyId) (name : String) : Option TypeId :=
  (table.typeIn? assembly name).or
    (((table.assembly? assembly).map AssemblySymbol.references).getD [] |>.findSome?
      fun reference => table.typeIn? reference name)

/-- The members of a type with their ids, in the order of their declarations. -/
def membersOf (table : SymbolTable) (type : TypeSymbol) : List (MemberId × MemberSymbol) :=
  type.members.filterMap fun id => (table.member? id).map fun member => (id, member)

/-- The accessors of a member with their ids, in the order of their declarations. -/
def accessorsOf (table : SymbolTable) (member : MemberSymbol) : List (MemberId × MemberSymbol) :=
  member.accessors.filterMap fun id => (table.member? id).map fun accessor => (id, accessor)

/-- The first member of a name in a type. -/
def memberNamed? (table : SymbolTable) (type : TypeSymbol) (name : String) : Option MemberId :=
  ((table.membersOf type).find? fun entry => entry.2.name = name).map Prod.fst

/-! ## Interface members -/

/-- Whether types can implement a member: it belongs to an interface, is no
explicit implementation, is abstract, virtual or sealed, and is neither static
nor private. A sealed member can only be implemented by itself. -/
def isImplementable (table : SymbolTable) (member : MemberSymbol) : Bool :=
  (table.type? member.owner).any TypeSymbol.isInterface &&
    !member.isExplicit &&
    (member.modifiers.isAbstract || member.modifiers.isVirtual || member.modifiers.isSealed) &&
    !member.modifiers.isStatic &&
    !member.isPrivate

/-- Whether an explicit implementation may be bound to a member. -/
def isExplicitCandidate (table : SymbolTable) (member : MemberSymbol) : Bool :=
  table.isImplementable member && !member.modifiers.isSealed

/-! ## Base types -/

/-- The largest number of types that a walk along base types visits. -/
def maxDepth : Nat := 256

/-- A walk along base types that has passed `visited`. It ends after `steps`
types, before a type that it has passed, and after an id without a type. -/
def walkBases (table : SymbolTable) : Nat → List TypeId → TypeId → List TypeId
  | 0, _, _ => []
  | steps + 1, visited, id =>
    if id ∈ visited then []
    else
      match (table.type? id).bind TypeSymbol.base with
      | some base => id :: table.walkBases steps (id :: visited) base
      | none => [id]

/-- A type and its base types, the most derived one first. -/
def baseChain (table : SymbolTable) (id : TypeId) : List TypeId :=
  table.walkBases maxDepth [] id

/-- The types of a base chain, or the fault that one of them does not exist. -/
def checkedBaseChain (table : SymbolTable) (id : TypeId) : Except Fault (List TypeId) :=
  match (table.baseChain id).find? fun id => (table.type? id).isNone with
  | some missing => .error (.unknownType missing)
  | none => .ok (table.baseChain id)

end SymbolTable

end Conformance
