import Conformance.Proofs.Binding.Import
import Conformance.Proofs.Binding.Settled
import Conformance.Proofs.Symbol.Transfer

/-!
Imported assemblies as images of the original ones.

Maps of types and members send the symbols of an assembly to those of its import, position by
position, with the same signatures, links and targets (`SymbolTable.MirrorsAssembly`). Modifiers
and bodies are the same too, unless the modifiers of a member are lossy. The maps go by places, so
one pair of them does for all assemblies that are imported into a table
(`SymbolTable.Copied.mirrors`).
-/

namespace Conformance

section

variable (type : TypeId → TypeId) (member : MemberId → MemberId)

/-- A member and its image in another table, modifiers and bodies aside. -/
structure MemberSymbol.Mirrors (source image : MemberSymbol) : Prop where
  name : image.name = source.name
  kind : image.kind = source.kind.map member
  owner : image.owner = type source.owner
  signature : image.signature = source.signature
  explicitInterface : image.explicitInterface = source.explicitInterface
  target : image.target = source.target.map (ExplicitTarget.map type member)

/-- A type and its image in another table. -/
structure TypeSymbol.Mirrors (source image : TypeSymbol) : Prop where
  name : image.name = source.name
  kind : image.kind = source.kind
  modifiers : image.modifiers = source.modifiers
  base : image.base = source.base.map type
  interfaces : image.interfaces = source.interfaces.map type
  members : image.members = source.members.map member

end

namespace SymbolTable

/-- A member and its accessors, with their ids. -/
def block (table : SymbolTable) (id : MemberId) (member : MemberSymbol) :
    List (MemberId × MemberSymbol) :=
  (id, member) :: table.accessorsOf member

section

variable (s t : SymbolTable) (type : TypeId → TypeId) (member : MemberId → MemberId)

/-- A member and its accessors have images, with the same modifiers and bodies unless the modifiers
of the member are lossy. -/
def MirrorsBlock (m : MemberId) : Prop :=
  ∃ M N, s.member? m = some M ∧ t.member? (member m) = some N ∧
    List.Forall₂ (fun source image => image.1 = member source.1 ∧
      source.2.Mirrors type member image.2) (s.block m M) (t.block (member m) N) ∧
    ((t.block (member m) N).map (·.2.marks) = (s.block m M).map (·.2.marks) ↔
      ¬ M.modifiers.IsLossy ((s.accessorsOf M).map (·.2.declared)))

/-- A type and its members have images. -/
def MirrorsType (x : TypeId) : Prop :=
  ∃ X Y, s.type? x = some X ∧ t.type? (type x) = some Y ∧ X.Mirrors type member Y ∧
    ∀ m ∈ X.members, s.MirrorsBlock t type member m

/-- The types of one assembly are the images of those of another. -/
def MirrorsAssembly (a b : AssemblyId) : Prop :=
  ∃ A B, s.assembly? a = some A ∧ t.assembly? b = some B ∧ B.types = A.types.map type ∧
    ∀ x ∈ A.types, s.MirrorsType t type member x

end

variable {s t : SymbolTable}

/-! ## Blocks -/

/-- The symbols of a block stand in the table. -/
theorem Carries.block_symbols {assembly : AssemblyId} {id : MemberId} {decl : MemberDecl}
    {scope : MemberScope} (carries : s.Carries assembly id (decl.bind scope id))
    {member : MemberSymbol} (found : s.member? id = some member) :
    (s.block id member).map Prod.snd = (decl.bind scope id).symbols.map fun symbol =>
      { symbol with target := s.expectedTarget? assembly symbol } := by
  have head : s.member? id = some { (decl.bind scope id).head with
      target := s.expectedTarget? assembly (decl.bind scope id).head } := carries 0 _ rfl
  cases found.symm.trans head
  have ids : ({ (decl.bind scope id).head with
      target := s.expectedTarget? assembly (decl.bind scope id).head } : MemberSymbol).accessors =
      (List.range' (id.index + 1) decl.clauses.length).map MemberId.mk :=
    decl.bind_head_accessors scope id
  unfold block MemberBlock.symbols accessorsOf
  rw [List.map_cons, List.map_cons, ids, List.filterMap_map, List.map_filterMap,
    MemberDecl.bind_accessors, List.map_map]
  congr 1
  refine filterMap_consecutive fun position clause listed => ?_
  simp only [Function.comp_apply, carries.clause listed]
  rfl

/-- What is read of the symbols of a block in the table, targets aside. -/
theorem Carries.map_block {α : Type} {assembly : AssemblyId} {id : MemberId} {decl : MemberDecl}
    {scope : MemberScope} (carries : s.Carries assembly id (decl.bind scope id))
    {member : MemberSymbol} (found : s.member? id = some member) (read : MemberSymbol → α)
    (reads : ∀ symbol target, read { symbol with target } = read symbol) :
    (s.block id member).map (fun entry => read entry.2) =
      (decl.bind scope id).symbols.map read := by
  have symbols := congrArg (List.map read) (carries.block_symbols found)
  rw [List.map_map, List.map_map] at symbols
  exact symbols.trans (List.map_congr_left fun symbol _ => reads symbol _)

namespace Reimports

variable {inside : Bool} {a b : AssemblyId} {m n : MemberId} {M N : MemberSymbol}
  (reimports : s.Reimports t inside a b m n) (found : s.member? m = some M)
  (foundImage : t.member? n = some N)

include reimports found foundImage

/-- Signatures and named interfaces are kept. -/
theorem headings : (t.block n N).map (fun entry => (entry.2.signature, entry.2.explicitInterface)) =
    (s.block m M).map fun entry => (entry.2.signature, entry.2.explicitInterface) := by
  rcases reimports with ⟨source, scope, again, rfl, owner, current, carries, carriesAgain⟩
  let read (symbol : MemberSymbol) := (symbol.signature, symbol.explicitInterface)
  refine (carriesAgain.map_block foundImage read fun _ _ => rfl).trans
    (Eq.trans ?_ (carries.map_block found read fun _ _ => rfl).symm)
  have explicit := source.exported_explicitInterface scope m
  unfold MemberBlock.symbols
  rw [List.map_cons, List.map_cons, MemberDecl.bind_accessors, MemberDecl.bind_accessors,
    MemberDecl.exported_clauses, List.map_map, List.map_map, List.map_map]
  congr 1
  · exact Prod.ext (source.exported_signature scope m) explicit
  · exact List.map_congr_left fun clause _ => Prod.ext rfl explicit

/-- Modifiers and bodies are kept, unless the modifiers of the member are lossy. -/
theorem marks_iff : (t.block n N).map (·.2.marks) = (s.block m M).map (·.2.marks) ↔
    ¬ M.modifiers.IsLossy ((s.accessorsOf M).map (·.2.declared)) := by
  rcases reimports with ⟨source, scope, again, rfl, owner, current, carries, carriesAgain⟩
  have declared := carries.map_block found MemberSymbol.declared fun _ _ => rfl
  have modifiers := carries.map_block found MemberSymbol.modifiers fun _ _ => rfl
  unfold block MemberBlock.symbols at declared modifiers
  rw [List.map_cons, List.map_cons, List.cons.injEq] at declared modifiers
  rw [carriesAgain.map_block foundImage MemberSymbol.marks fun _ _ => rfl,
    carries.map_block found MemberSymbol.marks fun _ _ => rfl,
    source.marks_exported_iff scope m owner current, modifiers.1, declared.2,
    MemberDecl.bind_accessors, List.map_map]
  rfl

end Reimports

/-! ## Copies -/

/-- An assembly of one table stands in another too, where its export was bound. -/
structure Copied (s t : SymbolTable) (a b : AssemblyId) (A B : AssemblySymbol) : Prop where
  first : s.assembly? a = some A
  second : t.assembly? b = some B
  name : B.name = A.name
  outline : t.assemblyOutline B = s.assemblyOutline A
  types : List.Forall₂ (fun x y => ∃ X Y, s.type? x = some X ∧ t.type? y = some Y ∧
    Y.modifiers = X.modifiers ∧
      List.Forall₂ (s.Reimports t X.isInterface a b) X.members Y.members) A.types B.types

/-- Adding assemblies does not change a copy. -/
theorem Copied.extends {t' : SymbolTable} {a b : AssemblyId} {A B : AssemblySymbol}
    (copied : s.Copied t a b A B) (orderly : t.Orderly) (grown : t.Extends t') :
    s.Copied t' a b A B where
  first := copied.first
  second := grown.assembly copied.second
  name := copied.name
  outline := (grown.assemblyOutline orderly copied.second).trans copied.outline
  types := by
    refine copied.types.imp ?_
    rintro x y ⟨X, Y, found, foundImage, modifiers, members⟩
    refine ⟨X, Y, found, grown.type foundImage, modifiers, members.imp ?_⟩
    rintro m n ⟨source, scope, again, owner, ownerAgain, current, carries, carriesAgain⟩
    exact ⟨source, scope, again, owner, ownerAgain, current, carries,
      grown.carries orderly.wellFormed.closed orderly.wellFormed.laid copied.second
        (orderly.exists_reference copied.second) carriesAgain⟩

/-- An assembly is copied by importing its export. -/
theorem Importable.copied {a : AssemblyId} {A : AssemblySymbol} (importable : s.Importable t a A)
    (abstract : ∀ {x X}, s.type? x = some X → X.isInterface = true → X.isAbstract = true) :
    ∃ B, s.Copied (t.importing (s.exportedAssembly A)) a t.nextAssembly A B := by
  rcases importable.outline with ⟨B, foundImage, name, outline⟩
  refine ⟨B, importable.found, foundImage, name, outline, ?_⟩
  have symbol := importable.bound.symbol
  rw [importable.bound.assembly, foundImage] at symbol
  cases symbol
  rw [importable.types_length]
  refine forall₂_typeIds_of_getElem? fun {position x} inside => ?_
  rcases importable.imported_type inside with
    ⟨X, Y, found, foundType, _, kind, _, _, _, members⟩
  rcases importable.new_type inside with ⟨_, again, declared⟩
  cases found.symm.trans again
  rcases importable.bound.types declared with ⟨_, foundBound, bindsType⟩
  cases foundType.symm.trans foundBound
  have isInterface : Y.isInterface = X.isInterface := by
    rw [TypeSymbol.isInterface, TypeSymbol.isInterface, kind]
  have own : X.assembly = a := by
    rcases importable.first.wellFormed.laid.type importable.found
      (List.mem_of_getElem? inside) with ⟨_, foundAgain, own⟩
    cases found.symm.trans foundAgain
    exact own
  refine ⟨X, Y, found, foundType, ?_, ?_⟩
  · rw [bindsType.shell]
    show (if X.kind = .interfaceType then { X.modifiers with isAbstract := true }
      else X.modifiers) = X.modifiers
    split
    · rename_i kind
      have known := abstract found (decide_eq_true kind)
      rw [TypeSymbol.isAbstract] at known
      rw [← known]
    · rfl
  · rw [← own]
    exact Traced.imported_members importable.first.traced importable.first.wellFormed.laid found
      isInterface members

section

variable {t' : SymbolTable} (first : s.Orderly) (second : t.Orderly) (last : t'.Orderly)
  (grown : t.Extends t') (corresponds : s.Corresponds t')

include first second last grown corresponds

/-- The image of a member whose export was bound. -/
theorem Reimports.mirrors {inside : Bool} {a b : AssemblyId} {m : MemberId}
    (reimports : s.Reimports t inside a b m (s.memberMap t' m)) :
    s.MirrorsBlock t (s.typeMap t') (s.memberMap t') m := by
  obtain ⟨M, N, found, foundImage⟩ : ∃ M N, s.member? m = some M ∧
      t.member? (s.memberMap t' m) = some N := by
    rcases reimports with ⟨source, scope, again, _, _, _, carries, carriesAgain⟩
    exact ⟨_, _, carries 0 _ rfl, carriesAgain 0 _ rfl⟩
  let e := corresponds.embedding first last
  rcases e.member?_some found with ⟨image, foundLast, alike⟩
  cases foundLast.symm.trans (grown.member foundImage)
  have pairs : List.Forall₂ e.Pairs (s.block m M) (t.block (s.memberMap t' m) N) := by
    unfold block
    rw [← grown.accessorsOf second.wellFormed.closed foundImage]
    exact .cons ⟨rfl, alike⟩ (e.accessorsOf alike)
  have headings := (reimports.headings found foundImage).symm
  rw [← List.forall₂_eq_eq_eq, List.forall₂_map_left_iff, List.forall₂_map_right_iff] at headings
  refine ⟨M, N, found, foundImage, ?_, reimports.marks_iff found foundImage⟩
  refine List.Forall₂.mp ?_ pairs headings
  rintro ⟨id, source⟩ ⟨other, image⟩ ⟨rfl, alike⟩ heading
  rw [Prod.mk.injEq] at heading
  exact ⟨rfl, alike.name, alike.kind, alike.owner, heading.1.symm, heading.2.symm, alike.target⟩

/-- The images of the symbols of an assembly that was copied. -/
theorem Copied.mirrors {a b : AssemblyId} {A B : AssemblySymbol} (copied : s.Copied t a b A B) :
    s.MirrorsAssembly t (s.typeMap t') (s.memberMap t') a b := by
  have later := copied.extends second grown
  have heads := sameHeads_of_outlines first last later.first later.second later.name
    (congrArg AssemblyOutline.types later.outline)
  have images : List.Forall₂ (fun x y => s.typeMap t' x = y) A.types B.types := by
    refine forall₂_of_getElem? fun position => ?_
    have related := forall₂_getElem? heads.types position
    generalize inFirst : A.types[position]? = x at related ⊢
    generalize inSecond : B.types[position]? = y at related ⊢
    cases related with
    | none => exact .none
    | some _ =>
      exact .some ((heads.twins later.first later.second inFirst inSecond).typeMap first last)
  have types := map_eq_of_forall₂ images
  have copies := copied.types
  rw [types, List.forall₂_map_right_iff, List.forall₂_same] at copies
  refine ⟨A, B, copied.first, copied.second, types, fun x listed => ?_⟩
  rcases copies x listed with ⟨X, Y, found, foundImage, modifiers, members⟩
  rcases corresponds.type first last found with ⟨y, Y', counterparts⟩
  cases counterparts.twins.typeMap first last
  cases counterparts.second.symm.trans (grown.type foundImage)
  have alike := counterparts.alike first last
  refine ⟨X, Y, found, foundImage, ?_, fun m inside => ?_⟩
  · exact ⟨congrArg TypeOutline.name counterparts.outline,
      congrArg TypeOutline.kind counterparts.outline, modifiers, alike.base, alike.interfaces,
      alike.members⟩
  · rw [alike.members, List.forall₂_map_right_iff, List.forall₂_same] at members
    exact (members m inside).mirrors first second last grown corresponds

end

end SymbolTable

end Conformance
