import Conformance.Binding.Repair
import Conformance.Diagnostic.Basic
import Conformance.Symbol.Display

/-!
Members made of their declarations.

A declaration is bound to a block of symbols: the member itself, and after it
its accessors. A block depends on the declaration, on its type and on the id
that the member gets, and on nothing else in the table.
-/

namespace Conformance

/-! ## Parts of declarations -/

/-- An accessor of a declaration, with the signature that its member gives it. -/
structure Clause where
  kind : AccessorKind
  decl : AccessorDecl
  signature : Signature
deriving DecidableEq, Repr

namespace MemberDecl

def modifiers : MemberDecl → Modifiers
  | method decl => decl.modifiers
  | property decl => decl.modifiers
  | indexer decl => decl.modifiers
  | event decl => decl.modifiers

def explicitInterface : MemberDecl → Option String
  | method decl => decl.explicitInterface
  | property decl => decl.explicitInterface
  | indexer decl => decl.explicitInterface
  | event decl => decl.explicitInterface

def span : MemberDecl → Span
  | method decl => decl.span
  | property decl => decl.span
  | indexer decl => decl.span
  | event decl => decl.span

/-- The signature of a property or an indexer, which its getter shares. -/
def propertySignature (decl : PropertyDecl) : Signature where
  parameters := decl.parameters
  returnType := decl.type
  returnsByRef := decl.returnsByRef

/-- The signature of an accessor that takes a value after the parameters. -/
def valueSignature (parameters : List Parameter) (type : String) : Signature where
  parameters := parameters ++ [{ type }]

/-- The signature of a member. -/
def signature : MemberDecl → Signature
  | method decl =>
    { parameters := decl.parameters
      returnType := decl.returnType
      returnsByRef := decl.returnsByRef }
  | property decl => propertySignature decl
  | indexer decl => propertySignature decl
  | event decl => { returnType := decl.type }

/-- The accessors of a property or an indexer. -/
def propertyClauses (decl : PropertyDecl) : List Clause :=
  (decl.getter.map fun getter => Clause.mk .get getter (propertySignature decl)).toList ++
    (decl.setter.map fun setter =>
      Clause.mk .set setter (valueSignature decl.parameters decl.type)).toList

/-- The accessors of a member. An event always has both. -/
def clauses : MemberDecl → List Clause
  | method _ => []
  | property decl => propertyClauses decl
  | indexer decl => propertyClauses decl
  | event decl =>
    [⟨.add, decl.adder.getD {}, valueSignature [] decl.type⟩,
      ⟨.remove, decl.remover.getD {}, valueSignature [] decl.type⟩]

/-- Whether a member or one of its accessors is declared with a body. -/
def declaresBody : MemberDecl → Bool
  | method decl => decl.hasBody
  | decl => decl.clauses.any fun clause => clause.decl.hasBody

/-- Whether a member has a body itself. -/
def isMethod : MemberDecl → Bool
  | method _ => true
  | _ => false

/-- Whether a member is a property or an indexer. -/
def isProperty : MemberDecl → Bool
  | property _ => true
  | indexer _ => true
  | _ => false

/-- Whether an accessor of a class member must be declared with a body. Those
of properties are made if they are left out, and so are both of an event that
is declared without accessors. -/
def bodiesRequired : MemberDecl → Bool
  | event decl => decl.adder.isSome || decl.remover.isSome
  | _ => false

/-- What a member is, if the first of its accessors gets the id `first`. -/
def kindAt (decl : MemberDecl) (first : MemberId) : MemberKind :=
  let second : MemberId := ⟨first.index + 1⟩
  let property (isIndexer : Bool) (decl : PropertyDecl) : MemberKind :=
    .property isIndexer (decl.getter.map fun _ => first)
      (decl.setter.map fun _ => if decl.getter.isSome then second else first)
  match decl with
  | .method _ => .method
  | .property decl => property false decl
  | .indexer decl => property true decl
  | .event _ => .event (some first) (some second)

end MemberDecl

/-! ## Complaints as diagnostics -/

/-- A complaint about the member of the given name, in a type of the given name. -/
def Complaint.toDiagnostic (complaint : Complaint) (span : Span) (display owner : String) :
    Diagnostic :=
  let about (rule : Rule) : Diagnostic := .breach rule span [.member display]
  match complaint with
  | .invalid modifier => .breach .modifierNotValid span [.text modifier.keyword]
  | .unavailable feature version =>
    .breach .featureNotAvailable span
      [.text feature.name, .text version.name, .text feature.since.name]
  | .abstractWithBody => about .abstractWithBody
  | .externalWithBody => about .externalWithBody
  | .externalAndAbstract => about .externalAndAbstract
  | .abstractAndSealed => about .abstractAndSealed
  | .abstractAndVirtual => about .abstractAndVirtual
  | .sealedNotOverride => about .sealedNotOverride
  | .privateAndDispatched => about .privateAndDispatched
  | .staticAndDispatched => about .staticAndDispatched
  | .abstractInConcreteType =>
    .breach .abstractInConcreteType span [.member display, .type owner]
  | .missingBody => about .missingBody

/-! ## Accessors -/

/-- An accessor under binding, with its location and its name. -/
structure PlacedClause where
  clause : Clause
  span : Span
  display : String

namespace PlacedClause

/-- The modifiers that an accessor is declared with. -/
def modifiers (placed : PlacedClause) : Modifiers := placed.clause.decl.modifiers

/-- Complains about each of the given modifiers. -/
def reject (placed : PlacedClause) (modifiers : Modifiers) : List Diagnostic :=
  modifiers.toList.map fun modifier =>
    .breach .modifierNotValid placed.span [.text modifier.keyword]

/-- Checks the accessibility that an accessor has of its own. It must be
narrower than that of its property, and an abstract property cannot have a
private accessor. -/
def checkAccess (placed : PlacedClause) (property : Modifiers) (display : String) :
    List Diagnostic :=
  match placed.modifiers.accessibility? with
  | none => []
  | some access =>
    if !access.isNarrowerThan (property.accessibility?.getD .publicAccess) then
      [.breach .accessorNotNarrower placed.span [.member placed.display, .member display]]
    else if access = .privateAccess ∧ property.isAbstract then
      [.breach .privateAccessorOfAbstract placed.span [.member placed.display]]
    else []

end PlacedClause

/-- Checks the modifiers of the accessors of a property or an indexer. At most
one of two may have an accessibility of its own. -/
def checkAccessors (clauses : List PlacedClause) (property : Modifiers) (display : String)
    (span : Span) : List Diagnostic :=
  let narrowed := clauses.filter fun placed => placed.modifiers.accessibility?.isSome
  let both :=
    if narrowed.isEmpty then []
    else if 1 < narrowed.length then
      [Diagnostic.breach .bothAccessorsNarrowed span [.member display]]
    else if clauses.length < 2 then
      [Diagnostic.breach .loneAccessorNarrowed span [.member display]]
    else []
  (clauses.flatMap fun placed => placed.reject (placed.modifiers \ .accesses)) ++
    both ++ narrowed.flatMap fun placed => placed.checkAccess property display

/-- The modifiers of an accessor: those of its member, with the accessibility
that it has of its own. A private accessor takes no part in dispatch. -/
def accessorModifiers (member : Modifiers) (access : Option Accessibility) : Modifiers :=
  match access with
  | none => member
  | some .privateAccess =>
    { member.withAccessibility .privateAccess with isVirtual := false, isAbstract := false }
  | some access => member.withAccessibility access

/-! ## Members -/

/-- What a member has to know of its type. -/
structure MemberScope where
  owner : TypeId
  ownerName : String
  ownerIsInterface : Bool
  ownerIsAbstract : Bool
  /-- The language version, if it lacks bodies and modifiers in interfaces. -/
  outdated? : Option LanguageVersion

namespace MemberScope

/-- The rule set for a member of a type. -/
def container (scope : MemberScope) (decl : MemberDecl) : Container :=
  if decl.explicitInterface.isSome then .explicit
  else if scope.ownerIsInterface then .interfaceType
  else .classType

/-- The rules for a member of a type. -/
def rules (scope : MemberScope) (decl : MemberDecl) : MemberRules where
  container := scope.container decl
  ownerIsAbstract := scope.ownerIsAbstract
  needsBody := decl.isMethod
  outdated? := scope.outdated?

end MemberScope

/-- The symbols of a declaration: the member, and its accessors. -/
structure MemberBlock where
  head : MemberSymbol
  accessors : List MemberSymbol
  diagnostics : List Diagnostic

namespace MemberBlock

/-- The symbols of a block, in the order of their ids. -/
def symbols (block : MemberBlock) : List MemberSymbol := block.head :: block.accessors

end MemberBlock

namespace MemberDecl

/-- Whether it has to be reported that an accessor has no body. In interfaces
that is so if the other one has a body: a property is not abstract by half. -/
def missesBody (decl : MemberDecl) (container : Container) (clause : Clause) : Bool :=
  !clause.decl.hasBody &&
    match container with
    | .interfaceType => decl.declaresBody
    | _ => decl.bodiesRequired

/-- Binds a declaration whose member gets the id `id`. -/
def bind (decl : MemberDecl) (scope : MemberScope) (id : MemberId) : MemberBlock :=
  let container := scope.container decl
  let draft := (scope.rules decl).apply decl.modifiers decl.declaresBody
  let implemented := !draft.modifiers.isAbstract && !draft.modifiers.isExternal
  let clauses := decl.clauses
  let head : MemberSymbol :=
    { name := decl.name
      kind := decl.kindAt ⟨id.index + 1⟩
      owner := scope.owner
      signature := decl.signature
      declared := decl.modifiers
      modifiers := draft.modifiers
      explicitInterface := decl.explicitInterface
      hasBody := if decl.isMethod then draft.hasBody else implemented && !clauses.isEmpty
      span := decl.span }
  let display := head.displayIn scope.ownerName
  let placed := clauses.map fun clause : Clause =>
    PlacedClause.mk clause (clause.decl.span.orElse decl.span)
      (MemberSymbol.displayClause display clause.kind)
  let accessor (placed : PlacedClause) : MemberSymbol :=
    { name := placed.clause.kind.memberName decl.name
      kind := .accessor placed.clause.kind id
      owner := scope.owner
      signature := placed.clause.signature
      declared := placed.modifiers
      modifiers := accessorModifiers draft.modifiers
        (if container = .explicit then none else placed.modifiers.accessibility?)
      explicitInterface := decl.explicitInterface
      hasBody := implemented
      span := placed.span }
  let modifierDiagnostics :=
    if decl.isProperty ∧ container ≠ .explicit then
      checkAccessors placed draft.modifiers display decl.span
    else placed.flatMap fun placed => placed.reject placed.modifiers
  let bodyDiagnostics := placed.filter fun placed =>
    implemented && decl.missesBody container placed.clause
  { head
    accessors := placed.map accessor
    diagnostics :=
      draft.complaints.map (·.toDiagnostic decl.span display scope.ownerName) ++
        modifierDiagnostics ++
        bodyDiagnostics.map fun placed =>
          Complaint.missingBody.toDiagnostic placed.span placed.display scope.ownerName }

end MemberDecl

end Conformance
