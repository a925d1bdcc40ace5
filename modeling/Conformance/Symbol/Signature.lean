import Conformance.Symbol.Basic

/-!
Matching of signatures.

Two members match when they are of the same shape and have the same name and
the same parameters, ways of passing included. What they return, and whether
they are static, takes no part.
-/

namespace Conformance

/-- What a member is, as far as matching goes. -/
inductive MemberShape where
  | method
  | property
  | indexer
  | event
  | accessor (kind : AccessorKind)
deriving DecidableEq, Repr

namespace MemberShape

/-- The shape of a kind of member. -/
def ofKind : MemberKind → MemberShape
  | .method => method
  | .property true _ _ => indexer
  | .property false _ _ => property
  | .event _ _ => event
  | .accessor kind _ => accessor kind

/-- The word for a shape. -/
def name : MemberShape → String
  | method => "method"
  | property => "property"
  | indexer => "indexer"
  | event => "event"
  | accessor kind => kind.keyword

/-- The place of a shape in their order. -/
def rank : MemberShape → Nat
  | method => 0
  | property => 1
  | indexer => 2
  | event => 3
  | accessor kind => 4 + kind.rank

end MemberShape

/-- What the signature of a member is in whichever table it stands. -/
structure SignatureKey where
  shape : MemberShape
  name : String
  parameters : List Parameter
deriving DecidableEq, Repr

namespace SignatureKey

/-- The key of a member. -/
def ofMember (member : MemberSymbol) : SignatureKey where
  shape := .ofKind member.kind
  name := member.name
  parameters := member.signature.parameters

/-- The number of parameters. -/
def arity (key : SignatureKey) : Nat := key.parameters.length

/-- The order of parameters: by type, then by way of passing. -/
def compareParameter (a b : Parameter) : Ordering :=
  (compare a.type b.type).then (compare a.refKind.rank b.refKind.rank)

/-- The order of parameter lists: by the first difference, and a list before
its continuations. -/
def compareParameters : List Parameter → List Parameter → Ordering
  | [], [] => .eq
  | [], _ :: _ => .lt
  | _ :: _, [] => .gt
  | a :: as, b :: bs => (compareParameter a b).then (compareParameters as bs)

/-- The order of keys: by shape, then by name, then by parameters. -/
def compareKeys (a b : SignatureKey) : Ordering :=
  ((compare a.shape.rank b.shape.rank).then (compare a.name b.name)).then
    (compareParameters a.parameters b.parameters)

end SignatureKey

namespace MemberSymbol

/-- Whether a member has the signature of another. -/
def matchesSignature (candidate target : MemberSymbol) : Bool :=
  decide (SignatureKey.ofMember candidate = SignatureKey.ofMember target)

/-- Whether a member is bound to exactly one interface member. -/
def isBoundTo (candidate : MemberSymbol) (interface : TypeId) (member : MemberId) : Bool :=
  decide (candidate.target = some ⟨interface, member⟩)

/-- Whether two members return the same, references told apart from values. -/
def returnsSame (candidate target : MemberSymbol) : Bool :=
  decide (candidate.signature.returnType = target.signature.returnType) &&
    decide (candidate.signature.returnsByRef = target.signature.returnsByRef)

end MemberSymbol

end Conformance
