import Conformance.Proofs.Compilation.Run
import Conformance.Proofs.Symbol.Faithful
import Conformance.Report.Basic

/-!
Checks and reports along an embedding.

The checks of an assembly look at the locations and names of symbols too, and display them.
Along a faithful embedding they find the same faults in the types of an assembly and in their
images (`Lookups.RelatedAt.checkType`), so two compilations with such an embedding have the same
report if they have the same diagnostics (`Compilation.Faithful.reportWith`).
-/

namespace Conformance

variable {s t : SymbolTable}

/-! ## Members that exist -/

namespace Embedding

variable (e : Embedding s t)

/-- A member of a table, with its id, and its image. -/
structure MemberPair (source image : MemberId × MemberSymbol) : Prop where
  id : image.1 = e.member source.1
  first : s.member? source.1 = some source.2
  second : t.member? (e.member source.1) = some image.2
  alike : MemberSymbol.Alike s t e.type e.member source.2 image.2

/-- A type of a table, with its id, and its image. -/
structure TypePair (id : TypeId) (source image : TypeSymbol) : Prop where
  first : s.type? id = some source
  second : t.type? (e.type id) = some image
  alike : TypeSymbol.Alike e.type e.member source image

theorem memberPairs_membersOf {source image : TypeSymbol}
    (alike : TypeSymbol.Alike e.type e.member source image) :
    List.Forall₂ e.MemberPair (s.membersOf source) (t.membersOf image) := by
  refine forall₂_imp_mem (e.membersOf alike) fun a listed b listedImage pair => ?_
  obtain ⟨_, found⟩ := SymbolTable.member?_of_mem_membersOf listed
  obtain ⟨_, foundImage⟩ := SymbolTable.member?_of_mem_membersOf listedImage
  exact ⟨pair.1, found, pair.1 ▸ foundImage, pair.2⟩

theorem memberPairs_accessorsOf {source image : MemberSymbol}
    (alike : MemberSymbol.Alike s t e.type e.member source image) :
    List.Forall₂ e.MemberPair (s.accessorsOf source) (t.accessorsOf image) := by
  refine forall₂_imp_mem (e.accessorsOf alike) fun a listed b listedImage pair => ?_
  obtain ⟨_, found⟩ := SymbolTable.member?_of_mem_accessorsOf listed
  obtain ⟨_, foundImage⟩ := SymbolTable.member?_of_mem_accessorsOf listedImage
  exact ⟨pair.1, found, pair.1 ▸ foundImage, pair.2⟩

theorem typePairs (ids : List TypeId) :
    List.Forall₂ (TypeSymbol.Alike e.type e.member) (ids.filterMap s.type?)
      ((ids.map e.type).filterMap t.type?) := by
  rw [List.filterMap_map]
  have same : List.Forall₂ Eq ids ids := List.forall₂_refl ids
  refine List.rel_filterMap (fun id other equal => ?_) same
  rw [← equal]
  exact e.types id

end Embedding

/-- Lookups in two tables have related answers, and one about the runtime of an assembly. -/
structure Lookups.RelatedAt {m n : Type → Type} [Monad m] [Monad n] (L : Lifting m n)
    (e : Embedding s t) (own image : AssemblyId) (first : Lookups m) (second : Lookups n) : Prop
    extends Lookups.Related L e first second where
  ownRuntime : L.rel Eq (first.runtime own) (second.runtime image)

namespace Embedding.Faithful

variable {e : Embedding s t} {own image : AssemblyId} (faithful : e.Faithful own image)

include faithful

/-! ## Diagnostics -/

theorem typeArgument (id : TypeId) : t.typeArgument (e.type id) = s.typeArgument id := by
  rw [SymbolTable.typeArgument, SymbolTable.typeArgument, faithful.displayType]

theorem memberArgument (id : MemberId) : t.memberArgument (e.member id) = s.memberArgument id := by
  rw [SymbolTable.memberArgument, SymbolTable.memberArgument, faithful.display]

theorem useSite {x : TypeId} {X Y : TypeSymbol} (types : e.TypePair x X Y)
    {a b : MemberId × MemberSymbol} (members : e.MemberPair a b) :
    t.useSite Y b.2 = s.useSite X a.2 := by
  unfold SymbolTable.useSite
  rw [faithful.displayMember members.first members.second,
    faithful.typeName types.first types.second,
    faithful.interfaceListSpan types.first types.second, faithful.span members.first members.second]

theorem notImplemented {x : TypeId} {X Y : TypeSymbol} (types : e.TypePair x X Y) (id : MemberId)
    (close : Option CloseMismatch) :
    Lookups.notImplemented t (e.type x) Y (e.member id) (close.map (CloseMismatch.map e.member)) =
      Lookups.notImplemented s x X id close := by
  unfold Lookups.notImplemented
  rw [faithful.typeArgument, faithful.memberArgument,
    faithful.interfaceListSpan types.first types.second]
  cases close with
  | none => rfl
  | some mismatch =>
    obtain ⟨candidate, reason⟩ := mismatch
    cases reason <;> simp only [Option.map_some, CloseMismatch.map, faithful.memberArgument]

theorem returnsSame {m : MemberId} {M N : MemberSymbol} (found : s.member? m = some M)
    (foundImage : t.member? (e.member m) = some N) (id : MemberId) :
    ((t.member? (e.member id)).any fun candidate => candidate.returnsSame N) =
      (s.member? id).any fun candidate => candidate.returnsSame M := by
  cases known : s.member? id with
  | none =>
    rw [e.member?_none known]
    rfl
  | some candidate =>
    obtain ⟨other, knownImage, _⟩ := e.member?_some known
    rw [knownImage, Option.any_some, Option.any_some, MemberSymbol.returnsSame,
      MemberSymbol.returnsSame, faithful.signature known knownImage,
      faithful.signature found foundImage]

theorem checkReturnType {x : TypeId} {X Y : TypeSymbol} (types : e.TypePair x X Y)
    {a b : MemberId × MemberSymbol} (members : e.MemberPair a b) (found : MemberId) :
    Lookups.checkReturnType t (e.type x) Y b.1 b.2 (e.member found) =
      Lookups.checkReturnType s x X a.1 a.2 found := by
  unfold Lookups.checkReturnType
  rw [faithful.returnsSame members.first members.second, members.id, faithful.typeArgument,
    faithful.memberArgument, faithful.memberArgument,
    faithful.interfaceListSpan types.first types.second,
    faithful.signature members.first members.second]

/-! ## Hiding -/

theorem hiddenMember? {a b : MemberId × MemberSymbol} (members : e.MemberPair a b)
    (bases : List TypeId) : Option.Rel (fun c d => d = e.member c)
      (Lookups.hiddenMember? s a.2 bases) (Lookups.hiddenMember? t b.2 (bases.map e.type)) := by
  have same : List.Forall₂ (fun base image => image = e.type base) bases (bases.map e.type) :=
    List.forall₂_map_right_iff.mpr (List.forall₂_same.mpr fun _ _ => rfl)
  unfold Lookups.hiddenMember?
  refine forall₂_findSome? same fun base image equal => ?_
  subst equal
  cases found : s.type? base with
  | none =>
    rw [e.type?_none found]
    exact .none
  | some type =>
    obtain ⟨typeImage, foundImage, alike⟩ := e.type?_some found
    have hidden := forall₂_find?_related (e.memberPairs_membersOf alike)
      (p := fun candidate => decide (candidate.2.name = a.2.name) && !candidate.2.isPrivate &&
        !candidate.2.isExplicit && Lookups.hidesInherited (.ofMember a.2) (.ofMember candidate.2))
      (q := fun candidate => decide (candidate.2.name = b.2.name) && !candidate.2.isPrivate &&
        !candidate.2.isExplicit && Lookups.hidesInherited (.ofMember b.2) (.ofMember candidate.2))
      fun c d candidates => by
        rw [candidates.alike.name, members.alike.name, candidates.alike.isExplicit,
          faithful.isPrivate candidates.first candidates.second, candidates.alike.key,
          members.alike.key]
    rw [foundImage, Option.bind_some, Option.bind_some]
    exact rel_map hidden fun _ _ pair => pair.id

section own

variable (laid : s.Laid) {x : TypeId} {X Y : TypeSymbol} (types : e.TypePair x X Y)
  (isOwn : X.assembly = own)

include laid types isOwn

/-- Members of the assembly are declared as their images are, and so are their accessors. -/
theorem sameTexts : List.Forall₂ (fun a b => e.MemberPair a b ∧ a.2.SameText b.2 ∧
      List.Forall₂ (fun c d => c.2.SameText d.2) (s.accessorsOf a.2) (t.accessorsOf b.2))
    (s.membersOf X) (t.membersOf Y) := by
  refine forall₂_imp_mem (e.memberPairs_membersOf types.alike) fun a listed b _ pair => ?_
  obtain ⟨_, owner, _⟩ := laid.of_mem_membersOf types.first listed
  have foundOwner : s.type? a.2.owner = some X := owner ▸ types.first
  refine ⟨pair, faithful.text pair.first pair.second foundOwner isOwn, ?_⟩
  refine forall₂_imp_mem (e.memberPairs_accessorsOf pair.alike) fun c inside d _ clause => ?_
  obtain ⟨_, _, _, same⟩ := laid.of_mem_accessorsOf pair.first inside
  exact faithful.text clause.first clause.second (same.symm ▸ foundOwner) isOwn

theorem checkHiding : Lookups.checkHiding t Y = Lookups.checkHiding s X := by
  have bases : (Y.base.map t.baseChain).getD [] =
      ((X.base.map s.baseChain).getD []).map e.type := by
    rw [types.alike.base]
    cases X.base with
    | none => rfl
    | some base => exact e.baseChain base
  unfold Lookups.checkHiding
  rw [bases]
  refine filterMap_eq_of_forall₂ (faithful.sameTexts laid types isOwn) fun a b same => ?_
  obtain ⟨pair, text, _⟩ := same
  have hidden := faithful.hiddenMember? pair ((X.base.map s.baseChain).getD [])
  simp only [pair.alike.isExplicit, text.modifiers, text.isNew, text.span, pair.id,
    faithful.memberArgument]
  generalize Lookups.hiddenMember? s a.2 _ = c at hidden ⊢
  generalize Lookups.hiddenMember? t b.2 _ = d at hidden ⊢
  cases hidden with
  | none => cases a.2.isNew <;> rfl
  | some equal =>
    subst equal
    cases a.2.isNew with
    | false => simp only [faithful.memberArgument]
    | true => rfl

end own

end Embedding.Faithful

namespace Lookups.RelatedAt

variable {m n : Type → Type} [Monad m] [Monad n] {L : Lifting m n} {e : Embedding s t}
  {own image : AssemblyId} {first : Lookups m} {second : Lookups n}
  (related : RelatedAt L e own image first second) (faithful : e.Faithful own image)

include related

theorem defaultBody {a b : MemberId × MemberSymbol} (pair : e.MemberPair a b)
    (implementable : s.isImplementable a.2 = true) :
    L.rel (fun x y => y.isUnsupported = x.isUnsupported) (first.defaultBody s a.1 own)
      (second.defaultBody t b.1 image) := by
  unfold Lookups.defaultBody
  rw [pair.id, pair.first, pair.second, Option.any_some, Option.any_some,
    pair.alike.body implementable]
  split
  · refine L.bind related.ownRuntime fun supported other same => ?_
    subst same
    split <;> exact L.pure rfl
  · exact L.pure rfl

include faithful

theorem checkDefaultUse {x : TypeId} {X Y : TypeSymbol} (types : e.TypePair x X Y)
    {a b : MemberId × MemberSymbol} (pair : e.MemberPair a b)
    (implementable : s.isImplementable a.2 = true) :
    L.rel Eq (first.checkDefaultUse s own X a.1 a.2)
      (second.checkDefaultUse t image Y b.1 b.2) := by
  have declared : ((t.type? b.2.owner).map TypeSymbol.assembly = some image) ↔
      ((s.type? a.2.owner).map TypeSymbol.assembly = some own) := by
    rw [pair.alike.owner]
    cases found : s.type? a.2.owner with
    | none =>
      rw [e.type?_none found]
      exact iff_of_false nofun nofun
    | some owner =>
      obtain ⟨ownerImage, foundImage, _⟩ := e.type?_some found
      rw [foundImage, Option.map_some, Option.map_some, Option.some_inj, Option.some_inj]
      exact faithful.assembly found foundImage
  unfold Lookups.checkDefaultUse
  simp only [declared]
  split
  · exact L.pure rfl
  · refine L.bind (related.defaultBody pair implementable) fun body other same => ?_
    rw [same, faithful.useSite types pair]
    split <;> exact L.pure rfl

theorem checkBodies (laid : s.Laid) {x : TypeId} {X Y : TypeSymbol} (types : e.TypePair x X Y)
    (isOwn : X.assembly = own) :
    L.rel Eq (first.checkBodies s own X) (second.checkBodies t image Y) := by
  unfold Lookups.checkBodies
  extract_lets bodied images
  have related_bodied : List.Forall₂ (fun a b => e.MemberPair a b ∧ a.2.SameText b.2 ∧
      List.Forall₂ (fun c d => c.2.SameText d.2) (s.accessorsOf a.2) (t.accessorsOf b.2))
      bodied images := by
    refine List.rel_filter (fun a b same => ?_) (faithful.sameTexts laid types isOwn)
    obtain ⟨_, text, clauses⟩ := same
    simp only [text.hasImplementation,
      any_eq_of_forall₂ clauses fun _ _ clause => clause.hasImplementation]
  have sites : bodied.map (fun entry => entry.2.declarationSite) =
      images.map fun entry => entry.2.declarationSite :=
    map_eq_map_of_forall₂ related_bodied fun a b same => by
      rw [MemberSymbol.declarationSite, MemberSymbol.declarationSite, same.2.1.span]
  have empty : images.isEmpty = bodied.isEmpty := by
    rw [← List.isEmpty_map (f := fun entry : MemberId × MemberSymbol => entry.2.declarationSite),
      ← sites, List.isEmpty_map]
  rw [empty]
  split
  · exact L.pure rfl
  · refine L.bind related.ownRuntime fun supported other same => ?_
    subst same
    split
    · exact L.pure rfl
    · exact L.pure sites

theorem checkExplicit {x : TypeId} {X Y : TypeSymbol} (types : e.TypePair x X Y) :
    L.rel Eq (first.checkExplicit s x X) (second.checkExplicit t (e.type x) Y) := by
  refine L.bind (related.interfaces types.first) fun interfaces images equal => L.pure ?_
  subst equal
  refine (filterMap_eq_of_forall₂ (e.memberPairs_membersOf types.alike) fun a b pair => ?_).symm
  simp only [pair.alike.target, faithful.span pair.first pair.second, pair.id,
    faithful.memberArgument]
  cases a.2.target with
  | none => rfl
  | some target =>
    simp only [Option.map_some, ExplicitTarget.map, e.mem_map_type, faithful.typeArgument]

section closed

variable (closed : s.Closed) {x : TypeId} {X Y : TypeSymbol} (types : e.TypePair x X Y)

include closed types

theorem checkClause {a b : MemberId × MemberSymbol} (pair : e.MemberPair a b) :
    L.rel Eq (first.checkClause s own x X a) (second.checkClause t image (e.type x) Y b) := by
  unfold Lookups.checkClause
  rw [pair.alike.implementable]
  split
  · rename_i implementable
    rw [pair.id]
    refine L.bind (related.resolve closed x a.1) fun resolution other equal => ?_
    subst equal
    rw [Resolution.source?_map]
    cases resolution.source? with
    | none =>
      refine L.pure ?_
      rw [Resolution.map, faithful.notImplemented types]
    | some source =>
      cases source with
      | default =>
        have used := related.checkDefaultUse faithful types pair implementable
        rwa [pair.id] at used
      | _ => exact L.pure rfl
  · exact L.pure rfl

variable [LawfulMonad m] [LawfulMonad n]

theorem checkMember {a b : MemberId × MemberSymbol} (pair : e.MemberPair a b)
    (implementable : s.isImplementable a.2 = true) :
    L.rel Eq (first.checkMember s own x X a) (second.checkMember t image (e.type x) Y b) := by
  have clauses : L.rel Eq ((s.accessorsOf a.2).mapM (first.checkClause s own x X))
      ((t.accessorsOf b.2).mapM (second.checkClause t image (e.type x) Y)) :=
    L.mapM_congr (e.memberPairs_accessorsOf pair.alike) fun _ _ clause =>
      related.checkClause faithful closed types clause
  have used := related.checkDefaultUse faithful types pair implementable
  have returned (found : MemberId) := faithful.checkReturnType types pair found
  unfold Lookups.checkMember
  rw [pair.id] at used returned ⊢
  refine L.bind (related.resolve closed x a.1) fun resolution other equal => ?_
  subst equal
  obtain ⟨implementation, close⟩ := resolution
  cases implementation with
  | none => exact L.pure (congrArg (fun diagnostic => [diagnostic])
      (faithful.notImplemented types a.1 close).symm)
  | some implementation =>
    obtain ⟨found, source⟩ := implementation
    cases source with
    | default => exact used
    | _ =>
      refine L.bind clauses fun diagnostics other equal => L.pure ?_
      simp only [equal, returned]

theorem checkImplementations :
    L.rel Eq (first.checkImplementations s own x X)
      (second.checkImplementations t image (e.type x) Y) := by
  refine L.bind (related.interfaces types.first) fun interfaces images equal => ?_
  subst equal
  have members : List.Forall₂ (fun a b => e.MemberPair a b ∧ s.isImplementable a.2 = true)
      ((interfaces.filterMap s.type?).flatMap fun interface =>
        (s.membersOf interface).filter fun member => s.isImplementable member.2)
      (((interfaces.map e.type).filterMap t.type?).flatMap fun interface =>
        (t.membersOf interface).filter fun member => t.isImplementable member.2) := by
    refine List.rel_flatMap (e.typePairs interfaces) fun source image alike => ?_
    have filtered := List.rel_filter (p := fun member => s.isImplementable member.2)
      (q := fun member => t.isImplementable member.2)
      (fun a b pair => by simp only [pair.alike.implementable]) (e.memberPairs_membersOf alike)
    exact forall₂_imp_mem filtered fun a listed b _ pair => ⟨pair, (List.mem_filter.mp listed).2⟩
  refine L.bind (L.mapM_congr members fun a b pair =>
    related.checkMember faithful closed types pair.1 pair.2) fun diagnostics other equal => ?_
  exact L.pure (congrArg List.flatten equal)

end closed

section wellFormed

variable (wellFormed : s.WellFormed)

include wellFormed

theorem implementationEntry (x : TypeId) (id : MemberId) :
    L.rel Eq (first.implementationEntry s x id)
      (second.implementationEntry t (e.type x) (e.member id)) := by
  refine L.bind (related.resolve wellFormed.closed x id) fun resolution _ equal => L.pure ?_
  subst equal
  rw [Resolution.member?_map, Resolution.source?_map, faithful.displayType, faithful.display,
    Option.map_map]
  congr 2
  exact funext fun id => (faithful.display id).symm

variable [LawfulMonad m] [LawfulMonad n]

/-- The implementation map has the same entries for a type and its image. -/
theorem implementationEntries (x : TypeId) :
    L.rel Eq (first.implementationEntries s x) (second.implementationEntries t (e.type x)) := by
  unfold Lookups.implementationEntries
  cases found : s.type? x with
  | none =>
    rw [e.type?_none found]
    exact L.pure rfl
  | some X =>
    obtain ⟨Y, foundImage, alike⟩ := e.type?_some found
    rw [foundImage]
    simp only [Option.any_some, alike.isInterface]
    split
    · refine L.bind (related.interfaces found) fun interfaces _ equal => ?_
      subst equal
      have members : List.Forall₂ (fun id image => image = e.member id)
          ((interfaces.filterMap s.type?).flatMap (implementableMembers s))
          (((interfaces.map e.type).filterMap t.type?).flatMap (implementableMembers t)) := by
        refine List.rel_flatMap (e.typePairs interfaces) fun source image alike => ?_
        refine List.rel_filterMap (fun a b pair => ?_) (List.rel_flatMap
          (e.memberPairs_membersOf alike) fun a b pair =>
            .cons pair (e.memberPairs_accessorsOf pair.alike))
        simp only [pair.alike.implementable]
        split
        · exact .some pair.id
        · exact .none
      refine L.mapM_congr members fun id image equal => ?_
      subst equal
      exact related.implementationEntry faithful wellFormed x id
    · exact L.pure rfl

/-- The same faults are found in a type of the assembly and in its image. -/
theorem checkType {x : TypeId} (isOwn : ∀ {X}, s.type? x = some X → X.assembly = own) :
    L.rel Eq (first.checkType s own x) (second.checkType t image (e.type x)) := by
  unfold Lookups.checkType
  cases found : s.type? x with
  | none =>
    rw [e.type?_none found]
    exact L.pure rfl
  | some X =>
    obtain ⟨Y, foundImage, alike⟩ := e.type?_some found
    have types : e.TypePair x X Y := ⟨found, foundImage, alike⟩
    rw [foundImage]
    simp only [alike.isInterface]
    split
    · exact related.checkBodies faithful wellFormed.laid types (isOwn found)
    · refine L.bind (related.checkExplicit faithful types) fun explicit _ equal => ?_
      subst equal
      refine L.bind (related.checkImplementations faithful wellFormed.closed types)
        fun implementations _ equal => ?_
      subst equal
      rw [faithful.checkHiding wellFormed.laid types (isOwn found)]
      exact L.pure rfl

end wellFormed

end Lookups.RelatedAt

/-! ## Compilations -/

namespace Compilation

/-- A compilation is that of an assembly which another compiles too, in a table that looks the
same from there. -/
structure Faithful (first second : Compilation) (e : Embedding first.table second.table) :
    Prop where
  symbols : e.Faithful first.assembly second.assembly
  types : second.types = first.types.map e.type
  name : second.name = first.name
  bindingDiagnostics : second.bindingDiagnostics = first.bindingDiagnostics
  flag : first.runtimeFlag first.assembly = second.runtimeFlag second.assembly

namespace Faithful

variable {first second : Compilation} {e : Embedding first.table second.table}
  (faithful : first.Faithful second e)

include faithful

section

variable {m n : Type → Type} [Monad m] [Monad n] [LawfulMonad m] [LawfulMonad n]
  {L : Lifting m n} {lookups : Lookups m} {others : Lookups n}
  (related : Lookups.RelatedAt L e first.assembly second.assembly lookups others)
  (wellFormed : first.table.WellFormed)

include related wellFormed

/-- The same faults are found in the types of both. -/
theorem checkTypes : List.Forall₂ (fun x y => L.rel Eq
      (lookups.checkType first.table first.assembly x)
      (others.checkType second.table second.assembly y)) first.types second.types := by
  rw [faithful.types]
  refine List.forall₂_map_right_iff.mpr (List.forall₂_same.mpr fun x listed => ?_)
  refine related.checkType faithful.symbols wellFormed fun {X} found => ?_
  obtain ⟨X', again, isOwn⟩ := (mem_types wellFormed.laid).mp listed
  cases found.symm.trans again
  exact isOwn

theorem implementationMap :
    L.rel Eq (first.implementationMap lookups) (second.implementationMap others) := by
  have pairs : List.Forall₂ (fun x y => y = e.type x) first.types second.types := by
    rw [faithful.types]
    exact List.forall₂_map_right_iff.mpr (List.forall₂_same.mpr fun _ _ => rfl)
  refine L.bind (L.mapM_congr pairs fun x y same => ?_) fun entries _ equal => ?_
  · subst same
    exact related.implementationEntries faithful.symbols wellFormed x
  · subst equal
    exact L.pure rfl

theorem reportWith {diagnostics : m (List RenderedDiagnostic)}
    {images : n (List RenderedDiagnostic)} (same : L.rel Eq diagnostics images)
    (implementations : Bool) : L.rel Eq (first.reportWith lookups diagnostics implementations)
      (second.reportWith others images implementations) := by
  have entries : L.rel Eq (some <$> first.implementationMap lookups)
      (some <$> second.implementationMap others) := by
    rw [map_eq_pure_bind, map_eq_pure_bind]
    refine L.bind (faithful.implementationMap related wellFormed) fun entries _ equal => ?_
    subst equal
    exact L.pure rfl
  unfold Compilation.reportWith
  rw [faithful.name]
  refine L.bind same fun diagnostics _ equal => ?_
  subst equal
  cases implementations with
  | false =>
    refine L.bind (L.pure (Eq.refl none)) fun _ _ equal => ?_
    subst equal
    exact L.pure rfl
  | true =>
    refine L.bind entries fun _ _ equal => ?_
    subst equal
    exact L.pure rfl

end

end Faithful

end Compilation

end Conformance
