import Conformance.Declaration.Basic
import Conformance.Json.Basic

/-!
Declarations as JSON trees.

Parts that are absent, and lists and flags that a reader would fill in by
itself, are left out; all other fields are written. Modifiers stand in the
order in which they are displayed.
-/

namespace Conformance

open Json (nat string array object)

/-- A field that is always written. -/
def Json.field (name : String) (value : Json) : List (String × Json) := [(name, value)]

/-- A field that is written only if a condition holds. -/
def Json.fieldIf (condition : Bool) (name : String) (value : Json) : List (String × Json) :=
  if condition then [(name, value)] else []

/-- A field that is written only if it has a value. -/
def Json.fieldOf {α : Type} (name : String) (encode : α → Json) : Option α → List (String × Json)
  | some value => [(name, encode value)]
  | none => []

open Json (field fieldIf fieldOf)

/-- Spans. -/
def Span.encode (span : Span) : Json :=
  object (field "file" (string span.file) ++ field "start" (nat span.start.toNat) ++
    field "length" (nat span.length.toNat))

/-- Modifiers. -/
def Modifiers.encode (modifiers : Modifiers) : Json :=
  Json.strings (modifiers.toList.map Modifier.keyword)

/-- Core libraries. -/
def CoreLibrary.encode (library : CoreLibrary) : Json :=
  object (field "name" (string library.name) ++
    field "runtimeFeatures" (Json.strings library.runtimeFeatures))

/-- Parameters. -/
def Parameter.encode (decl : Parameter) : Json :=
  object (field "type" (string decl.type) ++ field "refKind" (string decl.refKind.keyword))

/-- Accessors. -/
def AccessorDecl.encode (decl : AccessorDecl) : Json :=
  object (field "modifiers" decl.modifiers.encode ++ field "hasBody" (.bool decl.hasBody) ++
    field "span" decl.span.encode)

/-- The fields of a method. -/
def MethodDecl.encodeFields (decl : MethodDecl) : List (String × Json) :=
  field "name" (string decl.name) ++
    fieldOf "explicitInterface" string decl.explicitInterface ++
    field "modifiers" decl.modifiers.encode ++
    field "parameters" (array (decl.parameters.map Parameter.encode)) ++
    field "returnType" (string decl.returnType) ++
    fieldIf decl.returnsByRef "returnsByRef" (.bool true) ++
    field "hasBody" (.bool decl.hasBody) ++
    field "span" decl.span.encode

/-- The fields of a property or an indexer. -/
def PropertyDecl.encodeFields (decl : PropertyDecl) : List (String × Json) :=
  field "name" (string decl.name) ++
    fieldOf "explicitInterface" string decl.explicitInterface ++
    field "modifiers" decl.modifiers.encode ++
    field "type" (string decl.type) ++
    fieldIf (!decl.parameters.isEmpty) "parameters"
      (array (decl.parameters.map Parameter.encode)) ++
    fieldIf decl.returnsByRef "returnsByRef" (.bool true) ++
    fieldOf "getter" AccessorDecl.encode decl.getter ++
    fieldOf "setter" AccessorDecl.encode decl.setter ++
    field "span" decl.span.encode

/-- The fields of an event. -/
def EventDecl.encodeFields (decl : EventDecl) : List (String × Json) :=
  field "name" (string decl.name) ++
    fieldOf "explicitInterface" string decl.explicitInterface ++
    field "modifiers" decl.modifiers.encode ++
    field "type" (string decl.type) ++
    fieldOf "adder" AccessorDecl.encode decl.adder ++
    fieldOf "remover" AccessorDecl.encode decl.remover ++
    field "span" decl.span.encode

/-- The field that tells the kinds of members apart. -/
def memberTag : String := "member"

/-- The kinds of members that declarations tell apart. -/
inductive MemberTag where
  | method
  | property
  | indexer
  | event
deriving DecidableEq, Repr

namespace MemberTag

/-- All kinds of members, in the order of their numbers. -/
def all : List MemberTag := [method, property, indexer, event]

/-- The word for a kind of member. -/
def keyword : MemberTag → String
  | method => "method"
  | property => "property"
  | indexer => "indexer"
  | event => "event"

/-- A member of the given kind, with the given fields. -/
def encode (tag : MemberTag) (fields : List (String × Json)) : Json :=
  object (field memberTag (string tag.keyword) ++ fields)

end MemberTag

/-- Members. -/
def MemberDecl.encode : MemberDecl → Json
  | method decl => MemberTag.method.encode decl.encodeFields
  | property decl => MemberTag.property.encode decl.encodeFields
  | indexer decl => MemberTag.indexer.encode decl.encodeFields
  | event decl => MemberTag.event.encode decl.encodeFields

/-- Types. -/
def TypeDecl.encode (decl : TypeDecl) : Json :=
  object (field "name" (string decl.name) ++
    field "kind" (string decl.kind.keyword) ++
    field "modifiers" decl.modifiers.encode ++
    fieldOf "base" string decl.base ++
    fieldIf (!decl.interfaces.isEmpty) "interfaces" (Json.strings decl.interfaces) ++
    field "members" (array (decl.members.map MemberDecl.encode)) ++
    field "span" decl.span.encode ++
    field "interfaceListSpan" decl.interfaceListSpan.encode)

/-- Assemblies. -/
def AssemblyDecl.encode (decl : AssemblyDecl) : Json :=
  object (field "name" (string decl.name) ++
    fieldOf "coreLibrary" CoreLibrary.encode decl.coreLibrary ++
    fieldIf (!decl.references.isEmpty) "references" (Json.strings decl.references) ++
    field "types" (array (decl.types.map TypeDecl.encode)))

end Conformance
