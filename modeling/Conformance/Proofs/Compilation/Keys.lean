import Conformance.Proofs.Binding.Import
import Conformance.Proofs.Binding.Intact
import Conformance.Proofs.Compilation.Built
import Conformance.Proofs.Symbol.Counterparts
import Conformance.Proofs.Symbol.Extension

/-!
Keys of members.

A key holds names and signatures only, so it means something in every table. Where names tell
assemblies and types apart, and signatures the members of each type (`SymbolTable.KeysApart`), a
key belongs to one member and leads back to it. It leads to the member at the same place in every
table into which the assembly is imported, whatever else is bound there
(`SymbolTable.BindsAll.keysFaithful`).
-/

namespace Conformance

namespace SymbolTable

/-- Names tell the types of an assembly apart, and interfaces and signatures the members of each
type. -/
structure TellsApart (table : SymbolTable) (assembly : AssemblySymbol) : Prop where
  types : ∀ {x y X Y}, x ∈ assembly.types → y ∈ assembly.types → table.type? x = some X →
    table.type? y = some Y → X.name = Y.name → x = y
  members : ∀ {x X m n M N}, x ∈ assembly.types → table.type? x = some X → m ∈ X.members →
    n ∈ X.members → table.member? m = some M → table.member? n = some N →
    M.explicitInterface = N.explicitInterface →
    SignatureKey.ofMember M = SignatureKey.ofMember N → m = n

/-- No two assemblies have one name, no two types of an assembly, and no two members of a type
both name one interface and have one signature key. -/
structure KeysApart (table : SymbolTable) : Prop where
  assemblies : (table.assemblies.toList.map AssemblySymbol.name).Nodup
  types : ∀ assembly ∈ table.assemblies.toList,
    (assembly.types.map fun id => (table.type? id).map TypeSymbol.name).Nodup
  members : ∀ type ∈ table.types.toList, (type.members.map fun id =>
    (table.member? id).map fun member =>
      (member.explicitInterface, SignatureKey.ofMember member)).Nodup

instance (table : SymbolTable) : Decidable table.KeysApart :=
  decidable_of_iff (_ ∧ _ ∧ _)
    ⟨fun ⟨assemblies, types, members⟩ => ⟨assemblies, types, members⟩,
      fun ⟨assemblies, types, members⟩ => ⟨assemblies, types, members⟩⟩

theorem KeysApart.distinctNames {table : SymbolTable} (apart : table.KeysApart) :
    table.DistinctNames := by
  intro first second a b found foundToo same
  rw [assembly?, ← Array.getElem?_toList] at found foundToo
  obtain ⟨below, _⟩ := List.getElem?_eq_some_iff.mp found
  have names : (table.assemblies.toList.map AssemblySymbol.name)[first.index]? =
      (table.assemblies.toList.map AssemblySymbol.name)[second.index]? := by
    rw [List.getElem?_map, List.getElem?_map, found, foundToo, Option.map_some, Option.map_some,
      same]
  have places := (List.getElem?_inj (by rwa [List.length_map]) apart.assemblies).mp names
  exact congrArg AssemblyId.mk places

theorem KeysApart.tellsApart {table : SymbolTable} (apart : table.KeysApart) {a : AssemblyId}
    {A : AssemblySymbol} (found : table.assembly? a = some A) : table.TellsApart A where
  types {x y X Y} inside insideToo foundX foundY same := by
    have listed := Array.mem_toList_iff.mpr (Array.mem_of_getElem? found)
    refine List.inj_on_of_nodup_map (apart.types A listed) inside insideToo ?_
    rw [foundX, foundY, Option.map_some, Option.map_some, same]
  members {x X m n M N} _ foundX inside insideToo foundM foundN explicitInterface key := by
    have listed := Array.mem_toList_iff.mpr (Array.mem_of_getElem? foundX)
    refine List.inj_on_of_nodup_map (apart.members X listed) inside insideToo ?_
    rw [foundM, foundN, Option.map_some, Option.map_some, explicitInterface, key]

/-! ## Keys in one table -/

section

variable {table : SymbolTable} {A : AssemblySymbol}

/-- The name of a type leads to it. -/
theorem TellsApart.typeIn?_name (apart : table.TellsApart A) (laid : table.Laid) {a : AssemblyId}
    {x : TypeId} {X : TypeSymbol} (foundAssembly : table.assembly? a = some A)
    (inside : x ∈ A.types) (foundType : table.type? x = some X) :
    table.typeIn? a X.name = some x := by
  rw [typeIn?, typesOf, foundAssembly]
  refine find?_eq_some_of_unique inside ?_ fun y insideToo same => ?_
  · rw [foundType, Option.any_some, decide_eq_true rfl]
  · obtain ⟨Y, foundY, _⟩ := laid.type foundAssembly insideToo
    rw [foundY, Option.any_some, decide_eq_true_eq] at same
    exact apart.types insideToo inside foundY foundType same

/-- The interface that a member names and its key lead to it. -/
theorem TellsApart.find?_head (apart : table.TellsApart A) {x : TypeId} {X : TypeSymbol}
    {m : MemberId} {M : MemberSymbol} (inside : x ∈ A.types) (foundType : table.type? x = some X)
    (listed : m ∈ X.members) (foundMember : table.member? m = some M) :
    (table.membersOf X).find? (fun entry =>
      decide (entry.2.explicitInterface = M.explicitInterface) &&
        decide (SignatureKey.ofMember entry.2 = .ofMember M)) = some (m, M) := by
  refine find?_eq_some_of_unique (mem_membersOf listed foundMember) ?_ ?_
  · rw [decide_eq_true rfl, decide_eq_true rfl, Bool.and_true]
  · rintro ⟨n, N⟩ listedToo same
    obtain ⟨own, foundN⟩ := member?_of_mem_membersOf listedToo
    rw [Bool.and_eq_true, decide_eq_true_eq, decide_eq_true_eq] at same
    obtain rfl := apart.members inside foundType own listed foundN foundMember same.1 same.2
    exact Prod.ext rfl (Option.some.inj (foundN.symm.trans foundMember))

/-- The key of an accessor leads to it among those of its member. -/
theorem Laid.find?_clause (laid : table.Laid) {m c : MemberId} {M C : MemberSymbol}
    {kind : AccessorKind} (foundMember : table.member? m = some M)
    (reached : M.accessor? kind = some c) (found : table.member? c = some C) :
    (table.accessorsOf M).find? (fun entry =>
      decide (SignatureKey.ofMember entry.2 = .ofMember C)) = some (c, C) := by
  refine find?_eq_some_of_unique
    (mem_accessorsOf (MemberSymbol.mem_accessors.mpr ⟨kind, reached⟩) found)
    (decide_eq_true rfl) ?_
  rintro ⟨d, D⟩ listedToo same
  obtain ⟨own, foundD⟩ := member?_of_mem_accessorsOf listedToo
  obtain ⟨other, has⟩ := MemberSymbol.mem_accessors.mp own
  -- Accessors of one member differ in their shapes.
  have shapes := congrArg SignatureKey.shape (of_decide_eq_true same)
  simp only [SignatureKey.ofMember] at shapes
  rw [D.ofKind_of_clause? (laid.of_accessor foundMember has foundD).1,
    C.ofKind_of_clause? (laid.of_accessor foundMember reached found).1] at shapes
  cases shapes
  cases reached.symm.trans has
  exact Prod.ext rfl (Option.some.inj (foundD.symm.trans found))

end

section

variable {table : SymbolTable} (laid : table.Laid) {a : AssemblyId} {A : AssemblySymbol}
  {x : TypeId} {X : TypeSymbol} {m : MemberId} {M : MemberSymbol} {clause : Option AccessorKind}
  {c : MemberId} {C : MemberSymbol} (foundAssembly : table.assembly? a = some A)
  (inside : x ∈ A.types) (foundType : table.type? x = some X) (listed : m ∈ X.members)
  (foundMember : table.member? m = some M) (reached : table.clauseAt? m clause = some c)
  (found : table.member? c = some C)

include laid foundAssembly inside foundType listed foundMember reached found

/-- The key of a member, or of an accessor of it. -/
theorem Traced.keyOf (traced : table.Traced) (wellFormed : table.WellFormed) : table.keyOf C =
    { assembly := A.name
      type := X.name
      explicitInterface := M.explicitInterface
      parent := clause.map fun _ => .ofMember M
      signature := .ofMember C } := by
  obtain ⟨_, foundAgain, ownType⟩ := laid.type foundAssembly inside
  cases foundType.symm.trans foundAgain
  obtain ⟨own, noClause⟩ := laid.of_head foundType listed foundMember
  cases clause with
  | none =>
    cases reached
    cases foundMember.symm.trans found
    simp only [SymbolTable.keyOf, own, foundType, Option.bind_some, ownType, foundAssembly,
      Option.map_some, Option.getD_some, noClause, Option.bind_none, Option.map_none]
  | some kind =>
    rw [clauseAt?_accessor foundMember] at reached
    obtain ⟨isClause, sameOwner⟩ := laid.of_accessor foundMember reached found
    obtain ⟨explicitInterface, _⟩ := traced.accessor_shares wellFormed foundMember reached found
    simp only [SymbolTable.keyOf, sameOwner, own, foundType, Option.bind_some, ownType,
      foundAssembly, Option.map_some, Option.getD_some, isClause, foundMember, explicitInterface]

/-- A key leads to the member that it is the key of, if its assembly is the first of the name and
tells its types and members apart. -/
theorem Laid.memberOfKey? (named : table.assemblyNamed? A.name = some a)
    (apart : table.TellsApart A) : table.memberOfKey?
      { assembly := A.name
        type := X.name
        explicitInterface := M.explicitInterface
        parent := clause.map fun _ => .ofMember M
        signature := .ofMember C } = some c := by
  have typed := apart.typeIn?_name laid foundAssembly inside foundType
  have headed := apart.find?_head inside foundType listed foundMember
  cases clause with
  | none =>
    cases reached
    cases foundMember.symm.trans found
    simp only [SymbolTable.memberOfKey?, named, typed, foundType, Option.bind_eq_bind,
      Option.bind_some, Option.map_none, Option.getD_none, headed, Option.isNone_none, if_true]
    rfl
  | some kind =>
    rw [clauseAt?_accessor foundMember] at reached
    have clauses := laid.find?_clause foundMember reached found
    simp only [SymbolTable.memberOfKey?, named, typed, foundType, Option.bind_eq_bind,
      Option.bind_some, Option.map_some, Option.getD_some, headed, Option.isNone_some,
      Bool.false_eq_true, if_false, clauses]
    rfl

end

/-- Every member is an accessor of a member of a type of an assembly, or that member itself. -/
theorem Laid.exists_head {table : SymbolTable} (laid : table.Laid) {c : MemberId}
    {C : MemberSymbol} (found : table.member? c = some C) :
    ∃ X A m M clause, table.type? C.owner = some X ∧ table.assembly? X.assembly = some A ∧
      C.owner ∈ A.types ∧ m ∈ X.members ∧ table.member? m = some M ∧
      table.clauseAt? m clause = some c := by
  cases isClause : C.clause? with
  | none =>
    obtain ⟨X, foundType, listed⟩ := laid.listed found isClause
    obtain ⟨A, foundAssembly, inside⟩ := laid.assembly foundType
    exact ⟨X, A, c, C, none, foundType, foundAssembly, inside, listed, found, rfl⟩
  | some entry =>
    obtain ⟨kind, parentId⟩ := entry
    obtain ⟨parent, foundParent, noClause, owner, has⟩ := laid.clause found isClause
    obtain ⟨X, foundType, listed⟩ := laid.listed foundParent noClause
    obtain ⟨A, foundAssembly, inside⟩ := laid.assembly foundType
    refine ⟨X, A, parentId, parent, some kind, owner ▸ foundType, foundAssembly, owner ▸ inside,
      listed, foundParent, ?_⟩
    rw [clauseAt?_accessor foundParent, has]

/-! ## Imports -/

/-- Members of two tables have the same key, places aside, and so have their accessors. -/
def KeyedAlike (s t : SymbolTable) (m n : MemberId) : Prop :=
  ∃ M N, s.member? m = some M ∧ t.member? n = some N ∧
    N.explicitInterface = M.explicitInterface ∧
    SignatureKey.ofMember N = SignatureKey.ofMember M ∧
    ∀ kind {c}, M.accessor? kind = some c → ∃ C d D, s.member? c = some C ∧
      N.accessor? kind = some d ∧ t.member? d = some D ∧
      SignatureKey.ofMember D = SignatureKey.ofMember C

/-- Types of two tables have the same name, and members of the same keys. -/
def TypesKeyedAlike (s t : SymbolTable) (x y : TypeId) : Prop :=
  ∃ X Y, s.type? x = some X ∧ t.type? y = some Y ∧ Y.name = X.name ∧
    List.Forall₂ (s.KeyedAlike t) X.members Y.members

variable {s t other : SymbolTable}

theorem KeyedAlike.extend (grown : t.Extends other) {m n : MemberId} (alike : s.KeyedAlike t m n) :
    s.KeyedAlike other m n := by
  obtain ⟨M, N, found, foundImage, explicitInterface, key, accessors⟩ := alike
  refine ⟨M, N, found, grown.member foundImage, explicitInterface, key, fun kind c has => ?_⟩
  obtain ⟨C, d, D, foundC, hasImage, foundD, same⟩ := accessors kind has
  exact ⟨C, d, D, foundC, hasImage, grown.member foundD, same⟩

theorem TypesKeyedAlike.extend (grown : t.Extends other) {x y : TypeId}
    (alike : s.TypesKeyedAlike t x y) : s.TypesKeyedAlike other x y := by
  obtain ⟨X, Y, found, foundImage, name, members⟩ := alike
  exact ⟨X, Y, found, grown.type foundImage, name,
    members.imp fun _ _ => KeyedAlike.extend grown⟩

/-- What is reached from members of the same key has the same signature key. -/
theorem KeyedAlike.clauseAt? {m n : MemberId} (alike : s.KeyedAlike t m n)
    {clause : Option AccessorKind} {c : MemberId} {C : MemberSymbol}
    (reached : s.clauseAt? m clause = some c) (found : s.member? c = some C) :
    ∃ d D, t.clauseAt? n clause = some d ∧ t.member? d = some D ∧
      SignatureKey.ofMember D = SignatureKey.ofMember C := by
  obtain ⟨M, N, foundM, foundN, _, key, accessors⟩ := alike
  cases clause with
  | none =>
    cases reached
    cases foundM.symm.trans found
    exact ⟨n, N, rfl, foundN, key⟩
  | some kind =>
    rw [SymbolTable.clauseAt?_accessor foundM] at reached
    obtain ⟨C', d, D, foundC, has, foundD, same⟩ := accessors kind reached
    cases found.symm.trans foundC
    refine ⟨d, D, ?_, foundD, same⟩
    rw [SymbolTable.clauseAt?_accessor foundN, has]

/-- A member that is bound from an export has the key of the member that was exported. -/
theorem Reimports.keyedAlike (first : s.Laid) (second : t.Laid) {inside : Bool} {a b : AssemblyId}
    {m n : MemberId} (reimports : s.Reimports t inside a b m n) : s.KeyedAlike t m n := by
  obtain ⟨entry, image, isEntry, isImage, outline⟩ := reimports.outline
  obtain ⟨M, found, rfl⟩ := Option.map_eq_some_iff.mp isEntry
  obtain ⟨N, foundImage, rfl⟩ := Option.map_eq_some_iff.mp isImage
  have head := congrArg BlockOutline.head outline
  refine ⟨M, N, found, foundImage, congrArg MemberOutline.explicitInterface head,
    congrArg MemberOutline.key head, fun kind c has => ?_⟩
  obtain ⟨d, C, D, hasImage, foundC, foundD, _, _, _, _, same⟩ := accessor?_of_outlines first second
    found foundImage (congrArg BlockOutline.accessors outline) has
  exact ⟨C, d, D, foundC, hasImage, foundD, congrArg MemberOutline.key same⟩

/-- The types of an assembly that is imported have the names of those that were exported, and
their members the keys, in the same order. -/
theorem Traced.imported_keyedAlike (traced : s.Traced) (first : s.Laid) (second : t.WellFormed)
    {a : AssemblyId} {A : AssemblySymbol} (found : s.assembly? a = some A)
    (references : List AssemblyId) :
    List.Forall₂ (s.TypesKeyedAlike (t.importAssembly (s.exportedAssembly A) references).table)
      A.types (typeIds t.types.size (s.exportedAssembly A).types.length) := by
  have bound : Bound t (s.exportedAssembly A) references .metadata
    (t.importAssembly (s.exportedAssembly A) references) := bind_bound second _ _ _
  have exports := first.exported_types found
  rw [← exports.length_eq]
  refine forall₂_typeIds_of_getElem? fun {position x} inside => ?_
  obtain ⟨_, declared, X, foundType, rfl⟩ := exists_getElem?_of_forall₂ exports inside
  obtain ⟨Y, foundImage, bindsType⟩ := bound.types declared
  have isInterface : Y.isInterface = X.isInterface := by
    rw [bindsType.shell]
    rfl
  refine ⟨X, Y, foundType, foundImage, ?_, ?_⟩
  · rw [bindsType.shell]
    rfl
  · exact (traced.imported_members first foundType isInterface bindsType.members).imp
      fun _ _ => Reimports.keyedAlike first bound.wellFormed.laid

/-- What tells the types and members of an assembly apart tells those of an assembly with the
same names and keys apart. -/
theorem TellsApart.image (first : s.Laid) {a : AssemblyId} {A B : AssemblySymbol}
    (apart : s.TellsApart A) (found : s.assembly? a = some A)
    (types : List.Forall₂ (s.TypesKeyedAlike t) A.types B.types) : t.TellsApart B where
  types {y y' Y Y'} inside insideToo foundY foundY' same := by
    refine forall₂_apart (fun y y' => ∃ Y Y', t.type? y = some Y ∧ t.type? y' = some Y' ∧
      Y.name = Y'.name) types (first.types_nodup found) ?_ inside insideToo
      ⟨Y, Y', foundY, foundY', same⟩
    rintro x x' y y' inside insideToo ⟨X, Z, foundX, foundZ, name, _⟩
      ⟨X', Z', foundX', foundZ', name', _⟩ ⟨Y, Y', foundY, foundY', same⟩
    cases foundZ.symm.trans foundY
    cases foundZ'.symm.trans foundY'
    exact apart.types inside insideToo foundX foundX' (name.symm.trans (same.trans name'))
  members {y Y n n' N N'} listed foundY inside insideToo foundN foundN' explicitInterface key := by
    obtain ⟨x, own, X, Z, foundX, foundZ, _, members⟩ :=
      exists_of_mem_forall₂ (List.Forall₂.flip types) listed
    cases foundZ.symm.trans foundY
    refine forall₂_apart (fun n n' => ∃ N N', t.member? n = some N ∧
      t.member? n' = some N' ∧ N.explicitInterface = N'.explicitInterface ∧
      SignatureKey.ofMember N = SignatureKey.ofMember N') members (first.members_nodup foundX) ?_
      inside insideToo ⟨N, N', foundN, foundN', explicitInterface, key⟩
    rintro m m' n n' inside insideToo ⟨M, L, foundM, foundL, explicit, key, _⟩
      ⟨M', L', foundM', foundL', explicit', key', _⟩ ⟨N, N', foundN, foundN', same, sameKey⟩
    cases foundL.symm.trans foundN
    cases foundL'.symm.trans foundN'
    exact apart.members own foundX inside insideToo foundM foundM'
      (explicit.symm.trans (same.trans explicit')) (key.symm.trans (sameKey.trans key'))

/-- A key leads to the member at the same place of an assembly with the same names and keys, if
that assembly is the first of its name. -/
theorem TellsApart.across {a b : AssemblyId} {A B : AssemblySymbol} (apart : s.TellsApart A)
    (traced : s.Traced) (wellFormed : s.WellFormed) (laid : t.Laid)
    (found : s.assembly? a = some A) (foundImage : t.assembly? b = some B) (name : B.name = A.name)
    (named : t.assemblyNamed? A.name = some b)
    (types : List.Forall₂ (s.TypesKeyedAlike t) A.types B.types) {m : MemberId} {M : MemberSymbol}
    {X : TypeSymbol} (foundMember : s.member? m = some M) (foundType : s.type? M.owner = some X)
    (own : X.assembly = a) :
    ∃ place image, s.memberPlace? m = some place ∧ place.type.assembly = A.name ∧
      t.memberAt? place = some image ∧ t.memberOfKey? (s.keyOf M) = some image := by
  obtain ⟨X', A', head, H, clause, again, foundAgain, inside, listed, foundHead, reached⟩ :=
    wellFormed.laid.exists_head foundMember
  cases foundType.symm.trans again
  cases found.symm.trans (own ▸ foundAgain)
  obtain ⟨i, atType⟩ := List.getElem?_of_mem inside
  obtain ⟨j, atHead⟩ := List.getElem?_of_mem listed
  obtain ⟨y, atTypeImage, X', Y, foundAgain, foundY, typeName, members⟩ :=
    exists_getElem?_of_forall₂ types atType
  cases foundType.symm.trans foundAgain
  obtain ⟨n, atHeadImage, alike⟩ := exists_getElem?_of_forall₂ members atHead
  obtain ⟨d, D, reachedImage, foundD, key⟩ := alike.clauseAt? reached foundMember
  obtain ⟨H', N, foundAgain, foundN, explicitInterface, headKey, _⟩ := alike
  cases foundHead.symm.trans foundAgain
  refine ⟨⟨⟨A.name, i⟩, j, clause⟩, d, ?_, rfl, ?_, ?_⟩
  · exact (memberPlace?_iff wellFormed.laid).mpr ⟨M.owner, X, head, ⟨a, A, found, rfl, atType⟩,
      foundType, atHead, reached⟩
  · have typeAt : t.typeAt? ⟨A.name, i⟩ = some y := by
      refine Option.bind_eq_some_iff.mpr ⟨b, named, ?_⟩
      rw [typesOf, foundImage]
      exact atTypeImage
    exact Option.bind_eq_some_iff.mpr ⟨y, typeAt, Option.bind_eq_some_iff.mpr ⟨Y, foundY,
      Option.bind_eq_some_iff.mpr ⟨n, atHeadImage, reachedImage⟩⟩⟩
  · have leads := laid.memberOfKey? foundImage (List.mem_of_getElem? atTypeImage) foundY
      (List.mem_of_getElem? atHeadImage) foundN reachedImage foundD (name ▸ named)
      (apart.image wellFormed.laid found types)
    rw [Traced.keyOf wellFormed.laid found inside foundType listed foundHead reached foundMember
      traced wellFormed, ← leads, name, typeName, explicitInterface, headKey, key]

/-! ## Keys in all tables -/

/-- A key belongs to one member of a table, and leads back to it. In every table that the export
of the assembly of the member was imported into, under a name that no other assembly has there, it
leads to the member at the same place: at the same position in the type at the same position, and
to the same accessor of it. -/
structure KeysFaithful (table : SymbolTable) : Prop where
  injective : ∀ {m n M N}, table.member? m = some M → table.member? n = some N →
    table.keyOf M = table.keyOf N → m = n
  resolves : ∀ {m M}, table.member? m = some M → table.memberOfKey? (table.keyOf M) = some m
  across : ∀ {a A}, table.assembly? a = some A → ∃ decl, table.exportAssembly A = .ok decl ∧
    ∀ {target other references}, BindsAll ∅ target →
      BindsAll (target.importAssembly decl references).table other →
      (∀ {b B}, other.assembly? b = some B → B.name = A.name →
        b = (target.importAssembly decl references).assembly) →
      ∀ {m M X}, table.member? m = some M → table.type? M.owner = some X → X.assembly = a →
        ∃ place image, table.memberPlace? m = some place ∧ place.type.assembly = A.name ∧
          other.memberAt? place = some image ∧
          other.memberOfKey? (table.keyOf M) = some image

variable {table : SymbolTable} (binds : BindsAll ∅ table) (apart : table.KeysApart)

include binds apart

/-- A key leads back to its member. -/
theorem BindsAll.memberOfKey?_keyOf {m : MemberId} {M : MemberSymbol}
    (found : table.member? m = some M) : table.memberOfKey? (table.keyOf M) = some m := by
  have wellFormed := (binds.made .empty).wellFormed
  have traced : table.Traced := binds.traced .empty traced_empty
  obtain ⟨X, A, head, H, clause, foundType, foundAssembly, inside, listed, foundHead, reached⟩ :=
    wellFormed.laid.exists_head found
  have distinct : table.DistinctNames := apart.distinctNames
  rw [Traced.keyOf wellFormed.laid foundAssembly inside foundType listed foundHead reached found
    traced wellFormed]
  exact wellFormed.laid.memberOfKey? foundAssembly inside foundType listed foundHead reached found
    (distinct.assemblyNamed? foundAssembly) (apart.tellsApart foundAssembly)

/-- Where names and signatures tell its symbols apart, the keys of a table are faithful. -/
theorem BindsAll.keysFaithful : table.KeysFaithful where
  injective found foundToo same := by
    have leads := binds.memberOfKey?_keyOf apart found
    rw [same, binds.memberOfKey?_keyOf apart foundToo] at leads
    exact (Option.some.inj leads).symm
  resolves found := binds.memberOfKey?_keyOf apart found
  across {a A} foundAssembly := by
    have wellFormed := (binds.made .empty).wellFormed
    have traced : table.Traced := binds.traced .empty traced_empty
    refine ⟨_, wellFormed.closed.exportAssembly A, ?_⟩
    intro target other references bindsTarget later once m M X found foundType own
    have madeTarget := bindsTarget.made .empty
    have bound : Bound target (table.exportedAssembly A) references .metadata
        (target.importAssembly (table.exportedAssembly A) references) :=
      bind_bound madeTarget.wellFormed _ _ _
    have madeImport : Made (target.importAssembly (table.exportedAssembly A) references).table :=
      madeTarget.bind _ _ _
    have grown := later.extends madeImport
    have laid := (later.made madeImport).wellFormed.laid
    -- The import, and its place among the assemblies of the table.
    have foundImport := grown.assembly bound.symbol
    have named : other.assemblyNamed? A.name = some
        (target.importAssembly (table.exportedAssembly A) references).assembly := by
      obtain ⟨first, named⟩ := assemblyNamed?_isSome foundImport
      obtain ⟨B, foundFirst, sameName⟩ := assemblyNamed?_some named
      rw [once foundFirst sameName] at named
      exact named
    have types := (traced.imported_keyedAlike wellFormed.laid madeTarget.wellFormed foundAssembly
      references).imp fun _ _ => TypesKeyedAlike.extend grown
    exact (apart.tellsApart foundAssembly).across traced wellFormed laid foundAssembly foundImport
      rfl named types found foundType own

omit binds apart

/-- An interface and a class whose members share names: overloads, indexers, a property and an
event, implicit and explicit. -/
def mixer : AssemblyDecl where
  name := "Mixer"
  types :=
    [{ name := "Channel", kind := .interfaceType,
       members :=
         [.method { name := "Level" }, .method { name := "Level", parameters := [⟨"int", .byOut⟩] },
          .indexer { type := "int", parameters := [⟨"int", .byValue⟩], getter := some {} },
          .event { name := "Level", type := "Handler" }] },
     { name := "Strip", kind := .classType, interfaces := ["Channel"],
       members :=
         [.property { name := "Level", type := "int", getter := some {}, setter := some {} },
          .indexer { type := "int", parameters := [⟨"int", .byValue⟩], getter := some {} },
          .indexer { type := "int", parameters := [⟨"int", .byValue⟩],
                     explicitInterface := some "Channel", getter := some {} }] }]

/-- An assembly that is bound before the import. -/
def rack : AssemblyDecl where
  name := "Rack"
  types := [{ name := "Strip", kind := .classType, members := [.method { name := "Level" }] }]

/-- The table of the assembly alone. -/
def mixed : SymbolTable := ((∅ : SymbolTable).bind mixer [] (.source .latest)).table

/-- The keys of the assembly are faithful. Those of its members lead to the members that its export
is bound to, here after the one member of the other assembly. -/
theorem mixed_keysFaithful : mixed.KeysFaithful ∧
    ((mixed.exportAssembly { name := "Mixer", types := [⟨0⟩, ⟨1⟩] }).toOption.map fun decl =>
      mixed.members.toList.map fun member =>
        (((∅ : SymbolTable).bind rack [] .metadata).table.importAssembly decl []).table.memberOfKey?
          (mixed.keyOf member)) =
      some ((List.range 14).map fun index => some ⟨index + 1⟩) := by
  have binds : BindsAll ∅ mixed := .tail .refl ⟨mixer, [], .source .latest, nofun, rfl⟩
  exact ⟨binds.keysFaithful (by decide +kernel), by decide +kernel⟩

end SymbolTable

end Conformance
