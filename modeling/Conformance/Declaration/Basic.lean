import Conformance.Kind
import Conformance.Modifiers
import Conformance.Span

/-!
Declarations: what a front end, or the export of a compiled assembly, hands to
binding. Names are plain texts and modifiers are those that were written.
-/

namespace Conformance

/-- The library that an assembly takes the facilities of its runtime from. -/
structure CoreLibrary where
  name : String
  /-- The facilities that the runtime has. -/
  runtimeFeatures : List String := []
deriving DecidableEq, Repr

namespace CoreLibrary

/-- The facility of calling a body that an interface declares. -/
def defaultImplementations : String := "DefaultImplementationsOfInterfaces"

/-- A library of a runtime with all the facilities that resolution asks for. -/
def modern : CoreLibrary where
  name := "System.Runtime"
  runtimeFeatures := [defaultImplementations]

/-- A library of a runtime that cannot call bodies declared by interfaces. -/
def legacy : CoreLibrary where
  name := "mscorlib"

/-- Whether the runtime can call bodies declared by interfaces. -/
def supportsDefaults (library : CoreLibrary) : Bool :=
  decide (defaultImplementations ∈ library.runtimeFeatures)

end CoreLibrary

/-- A parameter of a method or an indexer. -/
structure Parameter where
  type : String
  refKind : RefKind := .byValue
deriving DecidableEq, Repr

/-- One clause of a property, an indexer or an event. -/
structure AccessorDecl where
  modifiers : Modifiers := ∅
  hasBody : Bool := false
  span : Span := .unknown
deriving DecidableEq, Repr

/-- The return type of methods that return nothing. -/
def voidType : String := "void"

/-- A method. -/
structure MethodDecl where
  name : String
  /-- The interface that an explicit implementation names. -/
  explicitInterface : Option String := none
  modifiers : Modifiers := ∅
  parameters : List Parameter := []
  returnType : String := voidType
  returnsByRef : Bool := false
  hasBody : Bool := false
  span : Span := .unknown
deriving DecidableEq, Repr

/-- A property or an indexer. -/
structure PropertyDecl where
  name : String := ""
  /-- The interface that an explicit implementation names. -/
  explicitInterface : Option String := none
  modifiers : Modifiers := ∅
  type : String
  /-- The parameters of an indexer. -/
  parameters : List Parameter := []
  returnsByRef : Bool := false
  getter : Option AccessorDecl := none
  setter : Option AccessorDecl := none
  span : Span := .unknown
deriving DecidableEq, Repr

/-- An event. One that is declared without accessors has both, with bodies that
are made for it. -/
structure EventDecl where
  name : String
  /-- The interface that an explicit implementation names. -/
  explicitInterface : Option String := none
  modifiers : Modifiers := ∅
  type : String
  adder : Option AccessorDecl := none
  remover : Option AccessorDecl := none
  span : Span := .unknown
deriving DecidableEq, Repr

/-- A member of a type. -/
inductive MemberDecl where
  | method (decl : MethodDecl)
  | property (decl : PropertyDecl)
  | indexer (decl : PropertyDecl)
  | event (decl : EventDecl)
deriving DecidableEq, Repr

/-- The name of every indexer. -/
def indexerName : String := "this"

/-- The name of a member. -/
def MemberDecl.name : MemberDecl → String
  | method decl => decl.name
  | property decl => decl.name
  | indexer _ => indexerName
  | event decl => decl.name

/-- A type. -/
structure TypeDecl where
  name : String
  kind : TypeKind
  modifiers : Modifiers := ∅
  /-- The base class. An interface named here counts as the first entry of the
  interface list. -/
  base : Option String := none
  interfaces : List String := []
  members : List MemberDecl := []
  span : Span := .unknown
  /-- The location of the list of base type and interfaces. -/
  interfaceListSpan : Span := .unknown
deriving DecidableEq, Repr

/-- An assembly. -/
structure AssemblyDecl where
  name : String
  coreLibrary : Option CoreLibrary := none
  /-- The names of the assemblies that this one is compiled against. -/
  references : List String := []
  types : List TypeDecl := []
deriving DecidableEq, Repr

end Conformance
