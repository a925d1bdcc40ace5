import Conformance.Declaration.Encoding
import Conformance.Json.Decoding
import Conformance.Json.Reader

/-!
Declarations read from JSON trees.

Each kind of object has a `Layout`: the value that its fields are put into, the
fields that it must have, and what every field sets. Members are always
collected before they are decoded, since their tag may stand behind other
fields; types and assemblies may be.
-/

namespace Conformance

open Json (Decoder Layout Manner decodeString decodeUInt32 decodeList decodeNullable
  decodeKeyword decodeTag decodeBool)

/-- Spans. -/
def Span.layout : Layout Span where
  start := .unknown
  required := []
  fields :=
    [ ("file", fun tree span => do return { span with file := ← decodeString tree }),
      ("start", fun tree span => do return { span with start := ← decodeUInt32 tree }),
      ("length", fun tree span => do return { span with length := ← decodeUInt32 tree }) ]

/-- Modifiers: a list of keywords in any order, with or without repetitions. -/
def Modifiers.decode (manner : Manner) : Decoder Modifiers := fun tree => do
  return .ofList (← decodeList (decodeKeyword Modifier.spellings manner) tree)

/-- Core libraries. -/
def CoreLibrary.layout : Layout CoreLibrary where
  start := { name := "" }
  required := ["name"]
  fields :=
    [ ("name", fun tree library => do return { library with name := ← decodeString tree }),
      ("runtimeFeatures", fun tree library => do
        return { library with runtimeFeatures := ← decodeList decodeString tree }) ]

/-- Ways of passing an argument. -/
def RefKind.decode : Manner → Decoder RefKind :=
  decodeKeyword (RefKind.all.map fun kind => (kind.keyword, kind))

/-- Kinds of types. -/
def TypeKind.decode : Manner → Decoder TypeKind :=
  decodeKeyword (TypeKind.all.map fun kind => (kind.keyword, kind))

/-- Parameters. -/
def Parameter.layout : Layout Parameter where
  start := { type := "" }
  required := ["type"]
  fields :=
    [ ("type", fun tree decl => do return { decl with type := ← decodeString tree }),
      ("refKind", fun tree decl => do
        return { decl with refKind := ← RefKind.decode .collected tree }) ]

/-- Accessors. -/
def AccessorDecl.layout : Layout AccessorDecl where
  start := {}
  required := []
  fields :=
    [ ("modifiers", fun tree decl => do
        return { decl with modifiers := ← Modifiers.decode .collected tree }),
      ("hasBody", fun tree decl => do return { decl with hasBody := ← decodeBool tree }),
      ("span", fun tree decl => do return { decl with span := ← Span.layout.decode tree }) ]

/-- Methods. -/
def MethodDecl.layout : Layout MethodDecl where
  start := { name := "" }
  required := ["name"]
  fields :=
    [ ("name", fun tree decl => do return { decl with name := ← decodeString tree }),
      ("explicitInterface", fun tree decl => do
        return { decl with explicitInterface := ← decodeNullable decodeString tree }),
      ("modifiers", fun tree decl => do
        return { decl with modifiers := ← Modifiers.decode .collected tree }),
      ("parameters", fun tree decl => do
        return { decl with parameters := ← decodeList Parameter.layout.decode tree }),
      ("returnType", fun tree decl => do return { decl with returnType := ← decodeString tree }),
      ("returnsByRef", fun tree decl => do return { decl with returnsByRef := ← decodeBool tree }),
      ("hasBody", fun tree decl => do return { decl with hasBody := ← decodeBool tree }),
      ("span", fun tree decl => do return { decl with span := ← Span.layout.decode tree }) ]

/-- Properties and indexers. -/
def PropertyDecl.layout : Layout PropertyDecl where
  start := { type := "" }
  required := ["type"]
  fields :=
    [ ("name", fun tree decl => do return { decl with name := ← decodeString tree }),
      ("explicitInterface", fun tree decl => do
        return { decl with explicitInterface := ← decodeNullable decodeString tree }),
      ("modifiers", fun tree decl => do
        return { decl with modifiers := ← Modifiers.decode .collected tree }),
      ("type", fun tree decl => do return { decl with type := ← decodeString tree }),
      ("parameters", fun tree decl => do
        return { decl with parameters := ← decodeList Parameter.layout.decode tree }),
      ("returnsByRef", fun tree decl => do return { decl with returnsByRef := ← decodeBool tree }),
      ("getter", fun tree decl => do
        return { decl with getter := ← decodeNullable AccessorDecl.layout.decode tree }),
      ("setter", fun tree decl => do
        return { decl with setter := ← decodeNullable AccessorDecl.layout.decode tree }),
      ("span", fun tree decl => do return { decl with span := ← Span.layout.decode tree }) ]

/-- Events. -/
def EventDecl.layout : Layout EventDecl where
  start := { name := "", type := "" }
  required := ["name", "type"]
  fields :=
    [ ("name", fun tree decl => do return { decl with name := ← decodeString tree }),
      ("explicitInterface", fun tree decl => do
        return { decl with explicitInterface := ← decodeNullable decodeString tree }),
      ("modifiers", fun tree decl => do
        return { decl with modifiers := ← Modifiers.decode .collected tree }),
      ("type", fun tree decl => do return { decl with type := ← decodeString tree }),
      ("adder", fun tree decl => do
        return { decl with adder := ← decodeNullable AccessorDecl.layout.decode tree }),
      ("remover", fun tree decl => do
        return { decl with remover := ← decodeNullable AccessorDecl.layout.decode tree }),
      ("span", fun tree decl => do return { decl with span := ← Span.layout.decode tree }) ]

/-- Kinds of members. -/
def MemberTag.decode : Manner → Decoder MemberTag :=
  decodeTag (MemberTag.all.map fun tag => (tag.keyword, tag))

/-- A member of a known kind, from what stands beside the tag. -/
def MemberTag.decodeRest (tag : MemberTag) (rest : Json) : Except DecodeError MemberDecl :=
  match tag with
  | method => do return .method (← MethodDecl.layout.decode rest)
  | property => do return .property (← PropertyDecl.layout.decode rest)
  | indexer => do return .indexer (← PropertyDecl.layout.decode rest)
  | event => do return .event (← EventDecl.layout.decode rest)

/-- Members. The tag may stand anywhere in the object, so the whole object is
looked at before any other field of it is decoded. In an array it comes first. -/
def MemberDecl.decode (manner : Manner) : Decoder MemberDecl
  | .object fields =>
    if !(Json.object fields).isReadable then .error .malformed
    else
      match fields.filter fun field => field.1 = memberTag with
      | [] => .error (.missingField memberTag)
      | [(_, tag)] => do
        (← MemberTag.decode manner tag).decodeRest
          (.object (fields.filter fun field => field.1 ≠ memberTag))
      | _ => .error (.repeatedField memberTag)
  | .array items =>
    if !(Json.array items).isReadable then .error .malformed
    else
      match items with
      | [] => .error (.missingField memberTag)
      | tag :: rest => do (← MemberTag.decode manner tag).decodeRest (.array rest)
  | tree => Json.refuse tree

/-- Types. -/
def TypeDecl.layout (manner : Manner) : Layout TypeDecl where
  start := { name := "", kind := .classType }
  required := ["name", "kind"]
  fields :=
    [ ("name", fun tree decl => do return { decl with name := ← decodeString tree }),
      ("kind", fun tree decl => do return { decl with kind := ← TypeKind.decode manner tree }),
      ("modifiers", fun tree decl => do
        return { decl with modifiers := ← Modifiers.decode manner tree }),
      ("base", fun tree decl => do return { decl with base := ← decodeNullable decodeString tree }),
      ("interfaces", fun tree decl => do
        return { decl with interfaces := ← decodeList decodeString tree }),
      ("members", fun tree decl => do
        return { decl with members := ← decodeList (MemberDecl.decode manner) tree }),
      ("span", fun tree decl => do return { decl with span := ← Span.layout.decode tree }),
      ("interfaceListSpan", fun tree decl => do
        return { decl with interfaceListSpan := ← Span.layout.decode tree }) ]

/-- Assemblies. -/
def AssemblyDecl.layout (manner : Manner) : Layout AssemblyDecl where
  start := { name := "" }
  required := ["name"]
  fields :=
    [ ("name", fun tree decl => do return { decl with name := ← decodeString tree }),
      ("coreLibrary", fun tree decl => do
        return { decl with coreLibrary := ← decodeNullable CoreLibrary.layout.decode tree }),
      ("references", fun tree decl => do
        return { decl with references := ← decodeList decodeString tree }),
      ("types", fun tree decl => do
        return { decl with types := ← decodeList (TypeDecl.layout manner).decode tree }) ]

/-- The assembly that a text holds. -/
def AssemblyDecl.read (text : String) : Except DecodeError AssemblyDecl :=
  let document := Json.read text
  Json.decodeDocument (AssemblyDecl.layout .streamed).decode document.tree document.complete

end Conformance
