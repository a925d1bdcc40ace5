import Conformance.Declaration.Basic

/-!
Building declarations step by step. Each function sets one part; those named
for a single entry add it at the end of its list.
-/

namespace Conformance

namespace AccessorDecl

/-- An accessor without a body. -/
def bodiless : AccessorDecl := {}

/-- An accessor with a body. -/
def bodied : AccessorDecl := { hasBody := true }

def withModifiers (decl : AccessorDecl) (modifiers : Modifiers) : AccessorDecl :=
  { decl with modifiers }

def withSpan (decl : AccessorDecl) (span : Span) : AccessorDecl :=
  { decl with span }

end AccessorDecl

namespace MethodDecl

def withModifiers (decl : MethodDecl) (modifiers : Modifiers) : MethodDecl :=
  { decl with modifiers }

def withParameters (decl : MethodDecl) (parameters : List Parameter) : MethodDecl :=
  { decl with parameters }

def returning (decl : MethodDecl) (returnType : String) : MethodDecl :=
  { decl with returnType }

/-- Makes a method return a reference. -/
def returningRef (decl : MethodDecl) (returnType : String) : MethodDecl :=
  { decl with returnType, returnsByRef := true }

def withBody (decl : MethodDecl) : MethodDecl :=
  { decl with hasBody := true }

/-- Makes a method the explicit implementation of one of an interface. -/
def explicitlyFor (decl : MethodDecl) (interface : String) : MethodDecl :=
  { decl with explicitInterface := some interface }

def withSpan (decl : MethodDecl) (span : Span) : MethodDecl :=
  { decl with span }

end MethodDecl

namespace PropertyDecl

/-- An indexer with the given parameters. -/
def ofParameters (type : String) (parameters : List Parameter) : PropertyDecl :=
  { name := indexerName, type, parameters }

def withModifiers (decl : PropertyDecl) (modifiers : Modifiers) : PropertyDecl :=
  { decl with modifiers }

def withGetter (decl : PropertyDecl) (getter : AccessorDecl) : PropertyDecl :=
  { decl with getter := some getter }

def withSetter (decl : PropertyDecl) (setter : AccessorDecl) : PropertyDecl :=
  { decl with setter := some setter }

/-- Makes a property the explicit implementation of one of an interface. -/
def explicitlyFor (decl : PropertyDecl) (interface : String) : PropertyDecl :=
  { decl with explicitInterface := some interface }

def withSpan (decl : PropertyDecl) (span : Span) : PropertyDecl :=
  { decl with span }

/-- A property as a member: an indexer if it has parameters. -/
def toMember (decl : PropertyDecl) : MemberDecl :=
  if decl.parameters.isEmpty then .property decl else .indexer decl

end PropertyDecl

namespace EventDecl

def withModifiers (decl : EventDecl) (modifiers : Modifiers) : EventDecl :=
  { decl with modifiers }

def withAccessors (decl : EventDecl) (adder remover : AccessorDecl) : EventDecl :=
  { decl with adder := some adder, remover := some remover }

/-- Makes an event the explicit implementation of one of an interface. -/
def explicitlyFor (decl : EventDecl) (interface : String) : EventDecl :=
  { decl with explicitInterface := some interface }

def withSpan (decl : EventDecl) (span : Span) : EventDecl :=
  { decl with span }

end EventDecl

namespace TypeDecl

def withModifiers (decl : TypeDecl) (modifiers : Modifiers) : TypeDecl :=
  { decl with modifiers }

def withBase (decl : TypeDecl) (base : String) : TypeDecl :=
  { decl with base := some base }

/-- Adds interfaces at the end of the interface list. -/
def withInterfaces (decl : TypeDecl) (interfaces : List String) : TypeDecl :=
  { decl with interfaces := decl.interfaces ++ interfaces }

def withMember (decl : TypeDecl) (member : MemberDecl) : TypeDecl :=
  { decl with members := decl.members ++ [member] }

def withSpan (decl : TypeDecl) (span : Span) : TypeDecl :=
  { decl with span }

def withInterfaceListSpan (decl : TypeDecl) (span : Span) : TypeDecl :=
  { decl with interfaceListSpan := span }

end TypeDecl

namespace AssemblyDecl

def withCoreLibrary (decl : AssemblyDecl) (coreLibrary : CoreLibrary) : AssemblyDecl :=
  { decl with coreLibrary := some coreLibrary }

def withType (decl : AssemblyDecl) (type : TypeDecl) : AssemblyDecl :=
  { decl with types := decl.types ++ [type] }

end AssemblyDecl

end Conformance
