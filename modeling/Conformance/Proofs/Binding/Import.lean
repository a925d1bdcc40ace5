import Conformance.Proofs.Binding.Export

/-!
Assemblies that are imported.

An assembly that is exported from one table and bound again in another, where
the assemblies that it references have the outlines that they had, gets the
outline that it had (`SymbolTable.Importable.outline`): names mean types at the
same places, no link is cut, and members are what they were.
-/

namespace Conformance

namespace SymbolTable

/-- The assemblies of a table that a declaration references. -/
def referencedBy (table : SymbolTable) (decl : AssemblyDecl) : List AssemblyId :=
  decl.references.filterMap table.assemblyNamed?

/-- The table with the types of an imported assembly declared. -/
abbrev declaringImport (table : SymbolTable) (decl : AssemblyDecl) : SymbolTable :=
  table.declaring decl (table.referencedBy decl) .metadata

/-- The table with the links of an imported assembly entered. -/
abbrev inheritingImport (table : SymbolTable) (decl : AssemblyDecl) : SymbolTable :=
  table.inheriting decl (table.referencedBy decl) .metadata

/-- The table with an imported assembly. -/
abbrev importing (table : SymbolTable) (decl : AssemblyDecl) : SymbolTable :=
  (table.importAssembly decl (table.referencedBy decl)).table

/-- A member of an assembly of one table, and the member that its export is bound to in an
assembly of another. -/
def Reimports (s t : SymbolTable) (inside : Bool) (a b : AssemblyId) (m n : MemberId) : Prop :=
  ∃ (source : MemberDecl) (scope again : MemberScope), scope.ownerIsInterface = inside ∧
    again.ownerIsInterface = inside ∧ again.outdated? = none ∧
    s.Carries a m (source.bind scope m) ∧ t.Carries b n ((source.exported scope m).bind again n)

/-- The members of a type, and those that are bound from the export of the type: on both sides
they are blocks, made of a declaration and of its export. -/
theorem Traced.imported_members {s t : SymbolTable} (traced : s.Traced) (laid : s.Laid)
    {x y : TypeId} {X Y : TypeSymbol} (found : s.type? x = some X)
    (isInterface : Y.isInterface = X.isInterface) {b : AssemblyId}
    (members : List.Forall₂ (fun n (decl : MemberDecl) =>
      t.Carries b n (decl.bind (memberScope .metadata y Y) n)) Y.members
      (s.exportedType X).members) :
    List.Forall₂ (s.Reimports t X.isInterface X.assembly b) X.members Y.members := by
  refine forall₂_comp (traced.exported_members laid found) (List.Forall₂.flip members) ?_
  rintro m decl n ⟨source, scope, target, owner, carries, foundMember, rfl⟩ carriesAgain
  exact ⟨source, scope, _, owner, isInterface, rfl, carries, carriesAgain⟩

/-- The outline of a member and that of the member that its export is bound to are the same. -/
theorem Reimports.outline {s t : SymbolTable} {inside : Bool} {a b : AssemblyId} {m n : MemberId}
    (reimports : s.Reimports t inside a b m n) : ∃ entry other,
      ((s.member? m).map fun member => (m, member)) = some entry ∧
      ((t.member? n).map fun member => (n, member)) = some other ∧
      t.blockOutline inside other.2 = s.blockOutline inside entry.2 := by
  obtain ⟨source, scope, again, rfl, owner, current, carries, carriesAgain⟩ := reimports
  have found : s.member? m = some _ := carries 0 _ rfl
  have foundAgain : t.member? n = some _ := carriesAgain 0 _ rfl
  refine ⟨_, _, by rw [found]; rfl, by rw [foundAgain]; rfl, ?_⟩
  rw [carriesAgain.blockOutline, carries.blockOutline]
  exact source.outline_exported scope m owner current n

/-- Members that are bound from the export of a type have the outlines of its members. -/
theorem Traced.imported_blocks {s t : SymbolTable} (traced : s.Traced) (laid : s.Laid)
    {x y : TypeId} {X Y : TypeSymbol} (found : s.type? x = some X)
    (isInterface : Y.isInterface = X.isInterface) {b : AssemblyId}
    (members : List.Forall₂ (fun n (decl : MemberDecl) =>
      t.Carries b n (decl.bind (memberScope .metadata y Y) n)) Y.members
      (s.exportedType X).members) :
    List.Forall₂ (fun m n => ∃ entry other,
      ((s.member? m).map fun member => (m, member)) = some entry ∧
      ((t.member? n).map fun member => (n, member)) = some other ∧
      t.blockOutline Y.isInterface other.2 = s.blockOutline X.isInterface entry.2)
      X.members Y.members := by
  rw [isInterface]
  exact (traced.imported_members laid found isInterface members).imp fun _ _ => Reimports.outline

/-- An assembly of one table can be imported into another: the assemblies that it
references are there, with the same outlines, and none of its name. -/
structure Importable (s t : SymbolTable) (a : AssemblyId) (A : AssemblySymbol) : Prop where
  first : s.Orderly
  second : t.Orderly
  found : s.assembly? a = some A
  references : ∀ {r R}, r ∈ A.references → s.assembly? r = some R →
    ∃ q Q, t.assembly? q = some Q ∧ Q.name = R.name ∧ t.assemblyOutline Q = s.assemblyOutline R
  fresh : t.assemblyNamed? A.name = none

namespace Importable

variable {s t : SymbolTable} {a : AssemblyId} {A : AssemblySymbol}
  (importable : s.Importable t a A)

include importable

theorem references_related :
    List.Forall₂ (fun r q => ∃ R Q, s.assembly? r = some R ∧ t.assembly? q = some Q ∧
      Q.name = R.name ∧ t.assemblyOutline Q = s.assemblyOutline R) A.references
      (t.referencedBy (s.exportedAssembly A)) := by
  have refs : t.referencedBy (s.exportedAssembly A) = A.references.filterMap fun r =>
      (s.assembly? r).bind fun R => t.assemblyNamed? R.name := by
    show ((A.references.filterMap s.assembly?).map AssemblySymbol.name).filterMap
      t.assemblyNamed? = _
    rw [List.filterMap_map, List.filterMap_filterMap]
    refine List.filterMap_congr fun r _ => ?_
    cases s.assembly? r <;> rfl
  rw [refs]
  refine forall₂_filterMap fun r listed => ?_
  obtain ⟨R, foundFirst⟩ := importable.first.exists_reference importable.found r listed
  obtain ⟨q, Q, foundSecond, name, outline⟩ := importable.references listed foundFirst
  refine ⟨q, ?_, R, Q, foundFirst, foundSecond, name, outline⟩
  rw [foundFirst, Option.bind_some, ← name]
  have distinct : t.DistinctNames := importable.second.distinct
  exact distinct.assemblyNamed? foundSecond

/-! ## Names -/

theorem types_length : (s.exportedAssembly A).types.length = A.types.length :=
  (importable.first.wellFormed.laid.exported_types importable.found).length_eq.symm

/-- The type of the imported assembly at the position of one of the original. -/
theorem new_type {position : Nat} {x : TypeId} (inside : A.types[position]? = some x) :
    ∃ X, s.type? x = some X ∧
      (s.exportedAssembly A).types[position]? = some (s.exportedType X) := by
  have exports := importable.first.wellFormed.laid.exported_types importable.found
  obtain ⟨_, declared, X, found, rfl⟩ := exists_getElem?_of_forall₂ exports inside
  exact ⟨X, found, declared⟩

theorem declared : (t.declaringImport (s.exportedAssembly A)).assembly? t.nextAssembly = some
    { name := A.name
      coreLibrary := A.coreLibrary
      references := t.referencedBy (s.exportedAssembly A)
      isMetadata := true
      types := typeIds t.types.size A.types.length } := by
  rw [assembly?_declaring, if_pos rfl, importable.types_length]
  rfl

/-- The imported assembly sees types of the same names as the original. -/
theorem view : s.SameView (t.declaringImport (s.exportedAssembly A)) a t.nextAssembly where
  own := by
    refine ⟨A, _, importable.found, importable.declared, rfl, ?_⟩
    refine forall₂_typeIds_of_getElem? fun {position x} inside => ?_
    obtain ⟨X, found, declared⟩ := importable.new_type inside
    exact ⟨X, _, found, type?_declaring_new declared, rfl, rfl⟩
  references {first second} foundFirst foundSecond := by
    cases importable.found.symm.trans foundFirst
    cases importable.declared.symm.trans foundSecond
    refine importable.references_related.imp ?_
    rintro r q ⟨R, Q, foundR, foundQ, name, outline⟩
    have heads := sameHeads_of_outlines importable.first importable.second foundR foundQ name
      (congrArg AssemblyOutline.types outline)
    refine ⟨R, Q, foundR, assembly?_declaring_of_some foundQ, name, ?_⟩
    refine forall₂_imp_mem heads.types ?_
    rintro x _ y listed ⟨X, Y, foundX, foundY, same⟩
    exact ⟨X, Y, foundX, type?_declaring_of_some foundY, same⟩

/-! ## Links -/

/-- The name of a link means a type at the same place for the imported assembly. -/
theorem link {x link : TypeId} {X : TypeSymbol} (listed : x ∈ A.types)
    (found : s.type? x = some X) (linked : X.base = some link ∨ link ∈ X.interfaces) :
    ∃ L other O, s.type? link = some L ∧
      (t.declaringImport (s.exportedAssembly A)).resolve? t.nextAssembly L.name =
        some (other, O) ∧
      s.Twins (t.declaringImport (s.exportedAssembly A)) link other ∧ O.kind = L.kind := by
  obtain ⟨L, foundLink, seen⟩ :=
    (importable.first.traced importable.found).links listed found linked
  have resolved : s.resolve? a L.name = some (link, L) := by
    rw [SymbolTable.resolve?, seen]
    simp only [Option.bind_eq_bind, Option.bind_some, foundLink]
    rfl
  have means := importable.view.names.resolve? L.name
  rw [resolved] at means
  generalize known : (t.declaringImport (s.exportedAssembly A)).resolve? t.nextAssembly L.name =
    meant at means
  cases means with
  | @some _ entry related =>
    exact ⟨L, entry.1, entry.2, foundLink, known, related.1, related.2.2.2.2⟩

theorem laid_declaring : (t.declaringImport (s.exportedAssembly A)).Laid :=
  importable.second.wellFormed.laid.declaring

/-- The name of a base type means the base type's twin, which is a class. -/
theorem base_link {x : TypeId} {X : TypeSymbol} (listed : x ∈ A.types)
    (found : s.type? x = some X) : ∃ base,
      Option.Rel (s.Twins (t.declaringImport (s.exportedAssembly A))) X.base base ∧
      Option.Rel (fun name id => (s.exportedType X).kind = .classType ∧ ∃ type,
        (t.declaringImport (s.exportedAssembly A)).resolve? t.nextAssembly name = some (id, type) ∧
          type.kind = .classType) (s.exportedType X).base base := by
  cases base : X.base with
  | none =>
    refine ⟨none, .none, ?_⟩
    rw [exportedType, base]
    exact .none
  | some link =>
    obtain ⟨L, other, O, foundLink, resolved, twins, kind⟩ :=
      importable.link listed found (.inl base)
    obtain ⟨isClass, symbol, foundSymbol, isClassBase⟩ :=
      importable.first.wellFormed.linked.base found base
    cases foundLink.symm.trans foundSymbol
    refine ⟨some other, .some twins, ?_⟩
    rw [exportedType, base, Option.bind_some, foundLink]
    exact .some ⟨isClass, O, resolved, kind.trans isClassBase⟩

/-- The names of an interface list mean the twins of its entries, which are interfaces. -/
theorem interface_links {x : TypeId} {X : TypeSymbol} (listed : x ∈ A.types)
    (found : s.type? x = some X) : ∃ interfaces,
      List.Forall₂ (s.Twins (t.declaringImport (s.exportedAssembly A))) X.interfaces interfaces ∧
      List.Forall₂ (fun name id => ∃ type,
        (t.declaringImport (s.exportedAssembly A)).resolve? t.nextAssembly name = some (id, type) ∧
          type.isInterface = true) (s.exportedType X).interfaces interfaces := by
  have related : List.Forall₂ (fun link other =>
      s.Twins (t.declaringImport (s.exportedAssembly A)) link other ∧ ∃ L, s.type? link = some L ∧
        ∃ O, (t.declaringImport (s.exportedAssembly A)).resolve? t.nextAssembly L.name =
          some (other, O) ∧ O.isInterface = true) X.interfaces
      (X.interfaces.filterMap fun link => (s.type? link).bind fun L =>
        ((t.declaringImport (s.exportedAssembly A)).resolve? t.nextAssembly L.name).map
          Prod.fst) := by
    refine forall₂_filterMap fun link inList => ?_
    obtain ⟨L, other, O, foundLink, resolved, twins, kind⟩ :=
      importable.link listed found (.inr inList)
    obtain ⟨symbol, foundSymbol, isInterface⟩ :=
      importable.first.wellFormed.linked.interface found inList
    cases foundLink.symm.trans foundSymbol
    refine ⟨other, ?_, twins, L, foundLink, O, resolved, ?_⟩
    · rw [foundLink, Option.bind_some, resolved]
      rfl
    · rw [TypeSymbol.isInterface, kind]
      exact isInterface
  exact ⟨_, related.imp fun _ _ both => both.1,
    forall₂_map_filterMap (related.imp fun _ _ both => both.2)⟩

/-- The links of the imported types lead to the places where those of the
original types lead. -/
theorem inherits {position : Nat} {x : TypeId} (inside : A.types[position]? = some x) :
    ∃ X Y, s.type? x = some X ∧
      (t.inheritingImport (s.exportedAssembly A)).type? ⟨t.types.size + position⟩ = some Y ∧
      Y.name = X.name ∧ Y.kind = X.kind ∧
      Option.Rel (s.Twins (t.declaringImport (s.exportedAssembly A))) X.base Y.base ∧
      List.Forall₂ (s.Twins (t.declaringImport (s.exportedAssembly A))) X.interfaces
        Y.interfaces := by
  obtain ⟨X, found, declared⟩ := importable.new_type inside
  have listed := List.mem_of_getElem? inside
  obtain ⟨base, bases, resolvedBase⟩ := importable.base_link listed found
  obtain ⟨interfaces, twins, resolved⟩ := importable.interface_links listed found
  have distinct := forall₂_nodup twins
    (fun one two => Twins.left_unique importable.laid_declaring importable.first.distinct one two)
    (importable.first.wellFormed.linked.nodup found)
  have heritage := TypeDecl.bindHeritage_resolved resolvedBase resolved distinct
  refine ⟨X, _, found, type?_inheriting_new declared, rfl, rfl, ?_, ?_⟩
  · rw [Heritage.enter, heritage.1]
    exact bases
  · rw [Heritage.enter, heritage.2]
    exact twins

/-! ## Cycles -/

/-- An imported type stands at the place of a type of the original assembly. -/
theorem position_of_new {y z : TypeId}
    (twins : s.Twins (t.declaringImport (s.exportedAssembly A)) y z)
    (new : t.types.size ≤ z.index) :
    ∃ position : Nat, A.types[position]? = some y ∧ z = ⟨t.types.size + position⟩ := by
  obtain ⟨place, ⟨c, C, foundFirst, nameFirst, inFirst⟩,
      ⟨b, B, foundSecond, nameSecond, inSecond⟩⟩ :=
    twins.place
  by_cases own : b = t.nextAssembly
  · subst own
    cases importable.declared.symm.trans foundSecond
    cases importable.first.distinct foundFirst importable.found (nameFirst.trans nameSecond.symm)
    cases foundFirst.symm.trans importable.found
    obtain ⟨within, _⟩ := List.getElem?_eq_some_iff.mp inSecond
    rw [length_typeIds] at within
    rw [getElem?_typeIds within] at inSecond
    exact ⟨place.position, inFirst, (Option.some.inj inSecond).symm⟩
  · rw [assembly?_declaring, if_neg own] at foundSecond
    obtain ⟨Z, foundType, _⟩ := importable.second.wellFormed.laid.type foundSecond
      (List.mem_of_getElem? inSecond)
    exact absurd (lt_of_type? foundType) (Nat.not_lt_of_le new)

omit importable in
theorem type?_inheritingImport_cases {z : TypeId} {Z : TypeSymbol}
    (found : (t.inheritingImport (s.exportedAssembly A)).type? z = some Z) :
    t.type? z = some Z ∨ t.types.size ≤ z.index := by
  by_cases old : z.index < t.types.size
  · obtain ⟨Z', known⟩ := exists_type? old
    cases found.symm.trans (type?_inheriting_of_some known)
    exact .inl known
  · exact .inr (Nat.le_of_not_lt old)

/-- Walks along base types that were there do not come to new types. -/
theorem basesReach_old {x : TypeId} (new : t.types.size ≤ x.index) (steps : Nat) {z : TypeId}
    {Z : TypeSymbol} (found : t.type? z = some Z) :
    (t.inheritingImport (s.exportedAssembly A)).basesReach x steps z = .ok false := by
  induction steps generalizing z Z with
  | zero =>
    have apart : z ≠ x := fun same => Nat.not_lt_of_le new (same ▸ lt_of_type? found)
    rw [SymbolTable.basesReach, if_neg apart]
  | succ steps ih =>
    have apart : z ≠ x := fun same => Nat.not_lt_of_le new (same ▸ lt_of_type? found)
    rw [SymbolTable.basesReach, if_neg apart]
    simp only [show (t.inheritingImport (s.exportedAssembly A)).type? z = some Z from
      type?_inheriting_of_some found]
    cases base : Z.base with
    | none => rfl
    | some other =>
      obtain ⟨O, foundBase⟩ := importable.second.wellFormed.closed.base found base
      exact ih foundBase

/-- A walk along base types comes back if the original walk does. -/
theorem basesReach_new {x x' : TypeId}
    (twins : s.Twins (t.declaringImport (s.exportedAssembly A)) x x')
    (new : t.types.size ≤ x'.index) (steps : Nat) {y y' : TypeId}
    (twinsStart : s.Twins (t.declaringImport (s.exportedAssembly A)) y y')
    (free : s.basesReach x steps y = .ok false) :
    (t.inheritingImport (s.exportedAssembly A)).basesReach x' steps y' = .ok false := by
  have image {y y' : TypeId} (apart : y ≠ x)
      (twinsStart : s.Twins (t.declaringImport (s.exportedAssembly A)) y y') : y' ≠ x' := by
    rintro rfl
    exact apart (Twins.left_unique importable.laid_declaring importable.first.distinct twinsStart
      twins)
  induction steps generalizing y y' with
  | zero => rw [SymbolTable.basesReach, if_neg (image (ne_of_basesReach free) twinsStart)]
  | succ steps ih =>
    have apartFirst := ne_of_basesReach free
    have apart := image apartFirst twinsStart
    by_cases old : y'.index < t.types.size
    · obtain ⟨Y', found⟩ := exists_type? old
      exact importable.basesReach_old new _ found
    · obtain ⟨position, inside, rfl⟩ :=
        importable.position_of_new twinsStart (Nat.le_of_not_lt old)
      obtain ⟨Y, Y', found, foundImage, _, _, bases, _⟩ := importable.inherits inside
      rw [SymbolTable.basesReach, if_neg apart]
      rw [SymbolTable.basesReach, if_neg apartFirst] at free
      simp only [found] at free
      simp only [foundImage]
      generalize Y.base = base at bases free
      generalize Y'.base = other at bases ⊢
      cases bases with
      | none => rfl
      | some related => exact ih related free

/-- A path along interface lists to a new type follows one of the original. -/
theorem reaches_new {x x' : TypeId}
    (twins : s.Twins (t.declaringImport (s.exportedAssembly A)) x x')
    (new : t.types.size ≤ x'.index) {y' : TypeId}
    (path : Relation.ReflTransGen (t.inheritingImport (s.exportedAssembly A)).Lists y' x') :
    t.types.size ≤ y'.index ∧ ∀ y, s.Twins (t.declaringImport (s.exportedAssembly A)) y y' →
      Relation.ReflTransGen s.Lists y x := by
  induction path using Relation.ReflTransGen.head_induction_on with
  | refl =>
    refine ⟨new, fun y twinsStart => ?_⟩
    cases Twins.left_unique importable.laid_declaring importable.first.distinct twins twinsStart
    exact .refl
  | head step _ ih =>
    obtain ⟨Y', found, listed⟩ := step
    rcases type?_inheritingImport_cases found with old | isNew
    · -- What was there lists nothing that is new.
      obtain ⟨O, foundOld⟩ := importable.second.wellFormed.closed.interface old listed
      exact absurd (lt_of_type? foundOld) (Nat.not_lt_of_le ih.1)
    · refine ⟨isNew, fun y twinsStart => ?_⟩
      obtain ⟨position, inside, rfl⟩ := importable.position_of_new twinsStart isNew
      obtain ⟨Y, Y'', foundFirst, foundImage, _, _, _, interfaces⟩ := importable.inherits inside
      cases found.symm.trans foundImage
      obtain ⟨z, listedFirst, related⟩ :=
        exists_of_mem_forall₂ (List.Forall₂.flip interfaces) listed
      exact .head ⟨Y, foundFirst, listedFirst⟩ (ih.2 z related)

/-- No link of the imported types comes back to its type. -/
theorem untangled {position : Nat} {x : TypeId} (inside : A.types[position]? = some x) :
    (t.inheritingImport (s.exportedAssembly A)).Untangled ⟨t.types.size + position⟩ := by
  obtain ⟨X, Y, found, foundImage, _, kind, bases, interfaces⟩ := importable.inherits inside
  have original :=
    (importable.first.traced importable.found).untangled (List.mem_of_getElem? inside)
  have new : t.types.size ≤ (⟨t.types.size + position⟩ : TypeId).index := Nat.le_add_right ..
  have twins : s.Twins (t.declaringImport (s.exportedAssembly A)) x ⟨t.types.size + position⟩ := by
    obtain ⟨within, _⟩ := List.getElem?_eq_some_iff.mp inside
    obtain ⟨first, second, foundFirst, foundSecond, heads⟩ := importable.view.own
    cases foundFirst.symm.trans importable.found
    cases foundSecond.symm.trans importable.declared
    exact heads.twins importable.found importable.declared inside (getElem?_typeIds within)
  constructor
  · intro Y' base foundAgain hasBase
    cases foundImage.symm.trans foundAgain
    obtain ⟨origin, known, related⟩ := exists_of_rel_some_right bases hasBase
    exact importable.basesReach_new twins new _ related (original.base X _ found known)
  · intro Y' foundAgain isInterface other listed path
    cases foundImage.symm.trans foundAgain
    obtain ⟨origin, listedFirst, related⟩ :=
      exists_of_mem_forall₂ (List.Forall₂.flip interfaces) listed
    have isInterfaceFirst : X.isInterface = true := by
      rw [TypeSymbol.isInterface, ← kind]
      exact isInterface
    exact original.interfaces X found isInterfaceFirst origin listedFirst
      ((importable.reaches_new twins new path).2 origin related)

/-! ## The imported assembly -/

omit importable in
theorem importing_eq {table : SymbolTable} (wellFormed : table.WellFormed) (decl : AssemblyDecl) :
    table.importing decl = table.targeting decl (table.referencedBy decl) .metadata :=
  congrArg Binding.table (bind_eq wellFormed.untangling_keeps.fault)

theorem bound : Bound t (s.exportedAssembly A) (t.referencedBy (s.exportedAssembly A)) .metadata
    (t.importAssembly (s.exportedAssembly A) (t.referencedBy (s.exportedAssembly A))) :=
  bind_bound importable.second.wellFormed _ _ _

/-- Types at the same place have the same name once the import is done. -/
theorem twins_name {x y : TypeId}
    (twins : s.Twins (t.declaringImport (s.exportedAssembly A)) x y) :
    ∃ X Y, s.type? x = some X ∧
      (t.importing (s.exportedAssembly A)).type?
        y = some Y ∧ Y.name = X.name := by
  obtain ⟨X, Y, found, foundImage, name, _⟩ := twins.heads
  obtain ⟨Z, foundLast, rest⟩ := importable.second.wellFormed.type?_targeting foundImage
  refine ⟨X, Z, found, ?_, ?_⟩
  · rw [importing_eq importable.second.wellFormed]
    exact foundLast
  · rw [rest]
    exact name

/-- An imported type has the links of the original type, and its members are made
of the exports of the members there. -/
theorem imported_type {position : Nat} {x : TypeId} (inside : A.types[position]? = some x) :
    ∃ X Y, s.type? x = some X ∧
      (t.importing (s.exportedAssembly A)).type?
        ⟨t.types.size + position⟩ = some Y ∧ Y.name = X.name ∧ Y.kind = X.kind ∧
      Y.isSealed = X.isSealed ∧
      Option.Rel (s.Twins (t.declaringImport (s.exportedAssembly A))) X.base Y.base ∧
      List.Forall₂ (s.Twins (t.declaringImport (s.exportedAssembly A))) X.interfaces
        Y.interfaces ∧
      List.Forall₂ (fun n (decl : MemberDecl) =>
        (t.importing (s.exportedAssembly A)).Carries t.nextAssembly n
            (decl.bind (memberScope .metadata ⟨t.types.size + position⟩ Y) n))
        Y.members (s.exportedType X).members := by
  obtain ⟨X, linked, found, foundLinked, name, kind, bases, interfaces⟩ :=
    importable.inherits inside
  obtain ⟨X', again, declared⟩ := importable.new_type inside
  cases found.symm.trans again
  obtain ⟨Y, foundLast, bindsType⟩ := importable.bound.types declared
  have untangled : ∀ id ∈ typeIds t.types.size (s.exportedAssembly A).types.length,
      (t.inheritingImport (s.exportedAssembly A)).Untangled id := by
    intro id listed
    obtain ⟨above, below⟩ := mem_typeIds.mp listed
    have within : id.index - t.types.size < A.types.length := by
      rw [← importable.types_length]
      omega
    have free := importable.untangled (List.getElem?_eq_getElem within)
    rwa [Nat.add_sub_cancel' above] at free
  have foundTargeting : (t.importing (s.exportedAssembly A)).type? _ = some Y := foundLast
  rw [importing_eq importable.second.wellFormed] at foundTargeting
  have heritage := importable.second.wellFormed.heritage_targeting untangled declared foundTargeting
  rw [type?_inheriting_new declared] at foundLinked
  cases foundLinked
  have members := bindsType.members
  rw [importable.bound.assembly] at members
  refine ⟨X, Y, found, foundLast, ?_, ?_, ?_, ?_, ?_, members⟩
  · rw [heritage]
    exact name
  · rw [heritage]
    exact kind
  · rw [heritage]
    exact isSealed_shell t.nextAssembly (s.exportedType X)
  · rw [heritage]
    exact bases
  · rw [heritage]
    exact interfaces

/-- An imported type has the outline of the original type. -/
theorem imported_typeOutline {position : Nat} {x : TypeId}
    (inside : A.types[position]? = some x) :
    ∃ X Y, s.type? x = some X ∧
      (t.importing (s.exportedAssembly A)).type?
        ⟨t.types.size + position⟩ = some Y ∧
      (t.importing (s.exportedAssembly A)).typeOutline Y = s.typeOutline X := by
  obtain ⟨X, Y, found, foundLast, name, kind, isSealed, bases, interfaces, members⟩ :=
    importable.imported_type inside
  have closed := importable.bound.wellFormed.closed
  have base : ((Y.base.bind (t.importing (s.exportedAssembly A)).type?).map TypeSymbol.name) =
        (X.base.bind s.type?).map TypeSymbol.name := by
    rw [Option.map_bind, Option.map_bind]
    refine bind_eq_bind_of_rel bases fun link other twins => ?_
    obtain ⟨L, O, foundLink, foundOther, same⟩ := importable.twins_name twins
    rw [Function.comp_apply, Function.comp_apply, foundLink, foundOther, Option.map_some,
      Option.map_some, same]
  have listed := (map_filterMap_eq_iff
    (fun _ inList => importable.first.wellFormed.closed.interface found inList)
    (fun _ inList => closed.interface foundLast inList)).mpr
      (interfaces.imp fun _ _ twins => importable.twins_name twins)
  have isInterface : Y.isInterface = X.isInterface := by
    rw [TypeSymbol.isInterface, TypeSymbol.isInterface, kind]
  have blocks := Traced.imported_blocks importable.first.traced importable.first.wellFormed.laid
    found isInterface members
  have exists_first : ∀ m ∈ X.members, ∃ entry,
      ((s.member? m).map fun member => (m, member)) = some entry := fun m inList => by
    obtain ⟨M, foundMember⟩ := importable.first.wellFormed.closed.member found inList
    exact ⟨(m, M), by rw [foundMember]; rfl⟩
  have exists_second : ∀ n ∈ Y.members, ∃ entry,
      (((t.importing (s.exportedAssembly A)).member? n).map fun member => (n, member)) =
          some entry := fun n inList => by
    obtain ⟨N, foundMember⟩ := closed.member foundLast inList
    exact ⟨(n, N), by rw [foundMember]; rfl⟩
  refine ⟨X, Y, found, foundLast, ?_⟩
  unfold typeOutline
  rw [name, kind, isSealed, base, listed]
  congr 1
  exact (map_filterMap_eq_iff exists_first exists_second).mpr blocks

/-- An imported assembly has the name and the outline of the original. -/
theorem outline : ∃ B, (t.importing (s.exportedAssembly A)).assembly? t.nextAssembly = some B ∧
      B.name = A.name ∧
      (t.importing (s.exportedAssembly A)).assemblyOutline B =
          s.assemblyOutline A := by
  have grown := importable.bound.grown
  have symbol := importable.bound.symbol
  rw [importable.bound.assembly] at symbol
  refine ⟨_, symbol, rfl, ?_⟩
  unfold assemblyOutline
  have references : ((t.referencedBy (s.exportedAssembly A)).filterMap
      (t.importing (s.exportedAssembly A)).assembly?).map AssemblySymbol.name =
        (A.references.filterMap s.assembly?).map AssemblySymbol.name := by
    refine (map_filterMap_eq_iff (importable.first.exists_reference importable.found)
      fun q listed => ?_).mpr ?_
    · obtain ⟨r, _, _, Q, _, foundQ, _⟩ :=
        exists_of_mem_forall₂ (List.Forall₂.flip importable.references_related) listed
      exact ⟨Q, grown.assembly foundQ⟩
    · refine importable.references_related.imp ?_
      rintro r q ⟨R, Q, foundR, foundQ, name, _⟩
      exact ⟨R, Q, foundR, grown.assembly foundQ, name⟩
  have types : List.Forall₂ (fun x y => ∃ X Y, s.type? x = some X ∧
      (t.importing (s.exportedAssembly A)).type? y = some Y ∧
      (t.importing (s.exportedAssembly A)).typeOutline Y = s.typeOutline X)
      A.types (typeIds t.types.size (s.exportedAssembly A).types.length) := by
    rw [importable.types_length]
    exact forall₂_typeIds_of_getElem? importable.imported_typeOutline
  have typeOutlines := (map_filterMap_eq_iff (importable.first.exists_type importable.found)
    fun y listed => ?_).mpr types
  · rw [AssemblyOutline.mk.injEq]
    exact ⟨references, typeOutlines⟩
  · obtain ⟨_, _, _, Y, _, foundY, _⟩ :=
      exists_of_mem_forall₂ (List.Forall₂.flip types) listed
    exact ⟨Y, foundY⟩

end Importable

end SymbolTable

end Conformance
