import Conformance.Declaration.Basic

/-!
Symbols: what binding makes of declarations.

Symbols refer to each other by the ids under which a `SymbolTable` keeps them.
A type lists its members, and a property, indexer or event has its accessors;
each member knows its type, and each accessor the member it is a clause of.
-/

namespace Conformance

/-- The place of an assembly in a symbol table. -/
structure AssemblyId where
  index : Nat
deriving DecidableEq, Repr

/-- The place of a type in a symbol table. -/
structure TypeId where
  index : Nat
deriving DecidableEq, Repr

/-- The place of a member in a symbol table. -/
structure MemberId where
  index : Nat
deriving DecidableEq, Repr

/-- An assembly. -/
structure AssemblySymbol where
  name : String
  coreLibrary : Option CoreLibrary := none
  /-- The assemblies that this one was compiled against. -/
  references : List AssemblyId := []
  /-- Whether the assembly was read from metadata and not from source. -/
  isMetadata : Bool := false
  /-- The types of the assembly, in the order of their declarations. -/
  types : List TypeId := []
deriving DecidableEq, Repr

/-- A type. -/
structure TypeSymbol where
  name : String
  kind : TypeKind
  assembly : AssemblyId
  modifiers : Modifiers := ∅
  base : Option TypeId := none
  /-- The interfaces that the declaration lists, in its order. -/
  interfaces : List TypeId := []
  /-- The members in the order of their declarations, without accessors. -/
  members : List MemberId := []
  span : Span := .unknown
  /-- Where errors about the implementation of interfaces are reported. -/
  interfaceListSpan : Span := .unknown
deriving DecidableEq, Repr

namespace TypeSymbol

/-- Whether a type is an interface. -/
def isInterface (type : TypeSymbol) : Bool := decide (type.kind = .interfaceType)

/-- Whether a type is abstract. Every bound interface is. -/
def isAbstract (type : TypeSymbol) : Bool := type.modifiers.isAbstract

/-- Whether nothing can be derived from a type. -/
def isSealed (type : TypeSymbol) : Bool :=
  type.modifiers.isSealed || decide (type.kind = .structType)

end TypeSymbol

/-- What a member is, and which accessors it has. -/
inductive MemberKind where
  | method
  | property (isIndexer : Bool) (getter setter : Option MemberId)
  | event (adder remover : Option MemberId)
  /-- A clause of the property, indexer or event `parent`. -/
  | accessor (kind : AccessorKind) (parent : MemberId)
deriving DecidableEq, Repr

/-- The parameters of a member and what it returns. -/
structure Signature where
  parameters : List Parameter := []
  returnType : String := voidType
  returnsByRef : Bool := false
deriving DecidableEq, Repr

/-- The interface member that an explicit implementation is bound to. -/
structure ExplicitTarget where
  interface : TypeId
  member : MemberId
deriving DecidableEq, Repr

/-- A member. -/
structure MemberSymbol where
  name : String
  kind : MemberKind
  owner : TypeId
  signature : Signature := {}
  /-- The modifiers of the declaration. -/
  declared : Modifiers := ∅
  /-- The modifiers that binding made of those of the declaration. -/
  modifiers : Modifiers := ∅
  /-- What an explicit implementation is bound to. -/
  target : Option ExplicitTarget := none
  /-- The interface that an explicit implementation names. -/
  explicitInterface : Option String := none
  hasBody : Bool := false
  span : Span := .unknown
deriving DecidableEq, Repr

namespace MemberSymbol

/-- Declared with `new`. -/
def isNew (member : MemberSymbol) : Bool := member.declared.isNew

/-- Has a body, or is extern and gets one from elsewhere. -/
def hasImplementation (member : MemberSymbol) : Bool :=
  member.hasBody || member.modifiers.isExternal

/-- Whether a member names the interface that it implements. -/
def isExplicit (member : MemberSymbol) : Bool := member.explicitInterface.isSome

/-- Who may use a member. Explicit implementations give no accessibility: they
are reached through their interface only, and count as private. -/
def accessibility (member : MemberSymbol) : Accessibility :=
  member.modifiers.accessibility?.getD .privateAccess

/-- Whether only its own type may use a member. -/
def isPrivate (member : MemberSymbol) : Bool :=
  decide (member.accessibility = .privateAccess)

/-- Whether everyone may use a member. -/
def isPublic (member : MemberSymbol) : Bool :=
  decide (member.accessibility = .publicAccess)

/-- Whether a member is an indexer. -/
def isIndexer (member : MemberSymbol) : Bool :=
  match member.kind with
  | .property isIndexer _ _ => isIndexer
  | _ => false

/-- The accessors of a member, in the order of their declarations. -/
def accessors (member : MemberSymbol) : List MemberId :=
  match member.kind with
  | .property _ getter setter => getter.toList ++ setter.toList
  | .event adder remover => adder.toList ++ remover.toList
  | _ => []

/-- The accessor of one kind. -/
def accessor? (member : MemberSymbol) (kind : AccessorKind) : Option MemberId :=
  match member.kind, kind with
  | .property _ getter _, .get => getter
  | .property _ _ setter, .set => setter
  | .event adder _, .add => adder
  | .event _ remover, .remove => remover
  | _, _ => none

/-- Which clause of which member an accessor is. -/
def clause? (member : MemberSymbol) : Option (AccessorKind × MemberId) :=
  match member.kind with
  | .accessor kind parent => some (kind, parent)
  | _ => none

end MemberSymbol

end Conformance
