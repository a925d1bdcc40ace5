import Conformance.Symbol.Signature
import Conformance.Symbol.Table

/-!
What a type itself contributes to the search for implementations.

The search goes through a type and its base types. At each level it sees the
members that the type declares, sorted into those that can be found by their
signature and those that are bound to an interface member.
-/

namespace Conformance

/-- The kinds of members that a type declares under one name. -/
structure NameShape where
  methods : Bool
  properties : Bool
  events : Bool
deriving DecidableEq, Repr

/-- The members that a type declares. -/
structure LevelTable where
  /-- The members that name no interface, by signature, in the order of their
  declarations. -/
  implicit : List (SignatureKey × MemberId) := []
  /-- The members and accessors that are bound to an interface member, by that
  member, in the order of their declarations. -/
  explicit : List (MemberId × MemberId) := []
deriving DecidableEq, Repr

namespace LevelTable

/-- What a member that is bound to a target contributes. -/
def boundEntries (table : SymbolTable) (id : MemberId) (member : MemberSymbol) :
    List (MemberId × MemberId) :=
  ((id, member) :: table.accessorsOf member).filterMap fun entry =>
    entry.2.target.map fun target => (target.member, entry.1)

/-- The table of a type. A member that names an interface without being bound
to a member of it implements nothing. -/
def ofType (table : SymbolTable) (type : TypeSymbol) : LevelTable where
  implicit := (table.membersOf type).filterMap fun (id, member) =>
    if member.target.isNone && !member.isExplicit then some (.ofMember member, id) else none
  explicit := (table.membersOf type).flatMap fun (id, member) =>
    if member.target.isSome then boundEntries table id member else []

/-- The members with a signature, in the order of their declarations. -/
def candidates (level : LevelTable) (key : SignatureKey) : List MemberId :=
  (level.implicit.filter fun entry => entry.1 = key).map Prod.snd

/-- The last member that is bound to an interface member. -/
def explicit? (level : LevelTable) (target : MemberId) : Option MemberId :=
  (level.explicit.reverse.find? fun entry => entry.1 = target).map Prod.snd

/-- Whether a member of a shape is declared under a name. -/
def declares (level : LevelTable) (name : String) (shape : MemberShape) : Bool :=
  level.implicit.any fun entry => entry.1.name = name ∧ entry.1.shape = shape

/-- The kinds of members that are declared under a name. -/
def shape (level : LevelTable) (name : String) : NameShape where
  methods := level.declares name .method
  properties := level.declares name .property
  events := level.declares name .event

/-- Whether the search for a signature ends at this level, because a member of
another kind hides its name. Methods of one name are overloads of each other,
and indexers are hidden by their signature only. -/
def hides (level : LevelTable) (key : SignatureKey) : Bool :=
  let shape := level.shape key.name
  match key.shape with
  | .method => shape.properties || shape.events
  | .property => shape.methods || shape.events
  | .event => shape.methods || shape.properties
  | .indexer => false
  | .accessor _ => false

end LevelTable

end Conformance
