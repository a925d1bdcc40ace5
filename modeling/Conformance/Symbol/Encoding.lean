import Conformance.Declaration.Encoding
import Conformance.Symbol.Display
import Conformance.Symbol.Signature

/-!
Symbols as JSON trees, for inspection: what binding made of the declarations,
with ids as numbers, and with what follows from the modifiers spelled out.
-/

namespace Conformance

open Json (nat string array object field ofOption)

/-- Ids of assemblies. -/
def AssemblyId.encode (id : AssemblyId) : Json := nat id.index

/-- Ids of types. -/
def TypeId.encode (id : TypeId) : Json := nat id.index

/-- Ids of members. -/
def MemberId.encode (id : MemberId) : Json := nat id.index

/-! ## Signatures -/

/-- A parameter as a pair of its type and the keyword for its way of passing. -/
def Parameter.encodePair (parameter : Parameter) : Json :=
  array [string parameter.type, ofOption string parameter.refKind.modifier?]

/-- Keys of signatures. -/
def SignatureKey.encode (key : SignatureKey) : Json :=
  object (field "kind" (string key.shape.name) ++
    field "name" (string key.name) ++
    field "parameters" (array (key.parameters.map Parameter.encodePair)) ++
    field "arity" (nat key.arity))

/-- Targets of explicit implementations. -/
def ExplicitTarget.encode (target : ExplicitTarget) : Json :=
  array [target.interface.encode, target.member.encode]

namespace SymbolTable

/-! ## Members -/

/-- The words for what holds of a member. -/
def memberTraits (table : SymbolTable) (member : MemberSymbol) : List String :=
  let traits :=
    [("static", member.modifiers.isStatic), ("abstract", member.modifiers.isAbstract),
      ("virtual", member.modifiers.isVirtual), ("sealed", member.modifiers.isSealed),
      ("extern", member.modifiers.isExternal), ("override", member.modifiers.isOverride),
      ("private", member.isPrivate), ("public", member.isPublic), ("new", member.isNew),
      ("body", member.hasBody), ("implementation", member.hasImplementation),
      ("explicit", member.isExplicit), ("method", decide (member.kind = .method)),
      ("indexer", member.isIndexer), ("implementable", table.isImplementable member),
      ("explicit_candidate", table.isExplicitCandidate member)]
  (traits.filter Prod.snd).map Prod.fst

/-- The fields of a member of any kind. -/
def encodeMemberFields (table : SymbolTable) (id : MemberId) (member : MemberSymbol) :
    List (String × Json) :=
  field "id" id.encode ++
    field "name" (string member.name) ++
    field "display" (string (table.displayMember member)) ++
    field "kind" (string (MemberShape.ofKind member.kind).name) ++
    field "owner" member.owner.encode ++
    field "parameters" (array (member.signature.parameters.map Parameter.encodePair)) ++
    field "returns" (string member.signature.returnType) ++
    field "returns_by_ref" (.bool member.signature.returnsByRef) ++
    field "declared" (string (toString member.declared)) ++
    field "modifiers" (string (toString member.modifiers)) ++
    field "accessibility" (string member.accessibility.name) ++
    field "explicit_interface" (ofOption string member.explicitInterface) ++
    field "explicit_target" (ofOption ExplicitTarget.encode member.target) ++
    field "flags" (Json.strings (table.memberTraits member)) ++
    field "span" (string (toString member.span))

/-- The fields that only some kinds of members have. `encodeAccessor` is used
for the accessors of a member. -/
def encodeKindFields (table : SymbolTable) (encodeAccessor : MemberId × MemberSymbol → Json)
    (member : MemberSymbol) : List (String × Json) :=
  match member.kind with
  | .method => []
  | .accessor kind parent => field "accessor" (array [string kind.keyword, parent.encode])
  | _ => field "accessors" (array ((table.accessorsOf member).map encodeAccessor))

/-- A member, without the accessors that it has. -/
def encodeClause (table : SymbolTable) (entry : MemberId × MemberSymbol) : Json :=
  object (table.encodeMemberFields entry.1 entry.2 ++
    table.encodeKindFields (fun _ => .null) entry.2)

/-- A member, with its accessors. -/
def encodeMember (table : SymbolTable) (entry : MemberId × MemberSymbol) : Json :=
  object (table.encodeMemberFields entry.1 entry.2 ++
    table.encodeKindFields table.encodeClause entry.2)

/-! ## Types and assemblies -/

/-- A type, with its members. -/
def encodeType (table : SymbolTable) (id : TypeId) (type : TypeSymbol) : Json :=
  object (field "id" id.encode ++
    field "name" (string type.name) ++
    field "kind" (string type.kind.keyword) ++
    field "assembly" type.assembly.encode ++
    field "modifiers" (string (toString type.modifiers)) ++
    field "interface" (.bool type.isInterface) ++
    field "abstract" (.bool type.isAbstract) ++
    field "sealed" (.bool type.isSealed) ++
    field "base" (ofOption TypeId.encode type.base) ++
    field "interfaces" (array (type.interfaces.map TypeId.encode)) ++
    field "members" (array ((table.membersOf type).map table.encodeMember)) ++
    field "span" (string (toString type.span)) ++
    field "interface_list_span" (string (toString type.interfaceListSpan)))

/-- An assembly, with its types. `isFrozen` says whether its runtime flag is
fixed. -/
def encodeAssembly (table : SymbolTable) (isFrozen : AssemblyId → Bool) (id : AssemblyId)
    (assembly : AssemblySymbol) : Json :=
  object (field "id" id.encode ++
    field "name" (string assembly.name) ++
    field "core_library" (ofOption CoreLibrary.encode assembly.coreLibrary) ++
    field "references" (array (assembly.references.map AssemblyId.encode)) ++
    field "metadata" (.bool assembly.isMetadata) ++
    field "frozen" (.bool (isFrozen id)) ++
    field "types" (array (assembly.types.filterMap fun id =>
      (table.type? id).map (table.encodeType id))))

/-- All assemblies of a table. -/
def encode (table : SymbolTable) (isFrozen : AssemblyId → Bool) : Json :=
  array (table.assemblies.toList.zipIdx.map fun (assembly, index) =>
    table.encodeAssembly isFrozen ⟨index⟩ assembly)

end SymbolTable

end Conformance
