import Conformance.Proofs.Binding.Cycles

/-!
Heritages and cycles in two tables, side by side.

Where names mean related types, declarations get heritages with related entries
(`TypeDecl.bindHeritage_related`). Where related types have related links, a link of one
closes a cycle just if that of the other does, so breaking the cycles of related types
keeps their links related and reports the same (`SymbolTable.Aligned.breakCycles`).
-/

namespace Conformance

variable {R : TypeId → TypeId → Prop}

/-! ## Heritages -/

/-- The entries of two heritages are related, and the same is wrong with both. -/
structure Heritage.Related (R : TypeId → TypeId → Prop) (first second : Heritage) : Prop where
  base : Option.Rel R first.base second.base
  interfaces : List.Forall₂ R first.interfaces second.interfaces
  diagnostics : second.diagnostics = first.diagnostics

/-- A name means related types, which look the same to declarations that name them. -/
structure SameMeaning (R : TypeId → TypeId → Prop) (first second : TypeId × TypeSymbol) :
    Prop where
  related : R first.1 second.1
  name : second.2.name = first.2.name
  kind : second.2.kind = first.2.kind
  isSealed : second.2.isSealed = first.2.isSealed

theorem SameMeaning.isInterface {first second : TypeId × TypeSymbol}
    (same : SameMeaning R first second) : second.2.isInterface = first.2.isInterface := by
  rw [TypeSymbol.isInterface, TypeSymbol.isInterface, same.kind]

namespace Heritage.Related

variable {first second : Heritage}

theorem report (related : Related R first second) (diagnostic : Diagnostic) :
    Related R (first.report diagnostic) (second.report diagnostic) where
  base := related.base
  interfaces := related.interfaces
  diagnostics := by rw [Heritage.report, Heritage.report, related.diagnostics]

theorem list (unique : Relator.BiUnique R) (related : Related R first second) {x y : TypeId}
    (types : R x y) : Related R (first.list x) (second.list y) := by
  have listed : x ∈ first.interfaces ↔ y ∈ second.interfaces :=
    List.rel_mem unique types related.interfaces
  unfold Heritage.list
  by_cases inside : x ∈ first.interfaces
  · rw [if_pos inside, if_pos (listed.mp inside)]
    exact related
  · rw [if_neg inside, if_neg (mt listed.mpr inside)]
    exact ⟨related.base, List.rel_append related.interfaces (.cons types .nil),
      related.diagnostics⟩

end Heritage.Related

namespace TypeDecl

variable (decl : TypeDecl) {first second : String → Option (TypeId × TypeSymbol)}

theorem bindBase_related (name : String) {a b : TypeId × TypeSymbol} (same : SameMeaning R a b) :
    Heritage.Related R (decl.bindBase name a.1 a.2) (decl.bindBase name b.1 b.2) := by
  obtain ⟨related, called, kind, isSealed⟩ := same
  cases known : a.2.kind with
  | interfaceType =>
    simp only [bindBase, kind, known]
    exact ⟨.none, .cons related .nil, rfl⟩
  | classType =>
    cases own : decl.kind with
    | classType =>
      simp only [bindBase, kind, known, own, isSealed, called]
      exact ⟨.some related, .nil, rfl⟩
    | _ =>
      simp only [bindBase, kind, known, own]
      exact ⟨.none, .nil, rfl⟩
  | structType =>
    cases own : decl.kind <;> simp only [bindBase, kind, known, own, called] <;>
      exact ⟨.none, .nil, rfl⟩

variable (unique : Relator.BiUnique R)
  (means : ∀ name, Option.Rel (SameMeaning R) (first name) (second name))

include unique means

theorem bindInterface_related {heritage other : Heritage}
    (related : Heritage.Related R heritage other) (name : String) :
    Heritage.Related R (decl.bindInterface first heritage name)
      (decl.bindInterface second other name) := by
  have meant := means name
  unfold bindInterface
  generalize first name = a at meant ⊢
  generalize second name = b at meant ⊢
  cases meant with
  | none => exact related.report _
  | @some a b same =>
    simp only [same.isInterface]
    split
    · exact related.list unique same.related
    · exact related.report _

/-- If names mean related types, declarations get related heritages. -/
theorem bindHeritage_related :
    Heritage.Related R (decl.bindHeritage first) (decl.bindHeritage second) := by
  have fold (names : List String) {heritage other : Heritage}
      (related : Heritage.Related R heritage other) :
      Heritage.Related R (names.foldl (decl.bindInterface first) heritage)
        (names.foldl (decl.bindInterface second) other) := by
    induction names generalizing heritage other with
    | nil => exact related
    | cons name names ih => exact ih (decl.bindInterface_related unique means related name)
  refine fold decl.interfaces ?_
  cases decl.base with
  | none => exact ⟨.none, .nil, rfl⟩
  | some name =>
    have meant := means name
    simp only
    generalize first name = a at meant ⊢
    generalize second name = b at meant ⊢
    cases meant with
    | none => exact ⟨.none, .nil, rfl⟩
    | some same => exact decl.bindBase_related name same

end TypeDecl

/-! ## Related links -/

/-- Two types are called the same, are reported at the same location and have related links. -/
structure TypeSymbol.Aligned (R : TypeId → TypeId → Prop) (first second : TypeSymbol) : Prop where
  name : second.name = first.name
  kind : second.kind = first.kind
  interfaceListSpan : second.interfaceListSpan = first.interfaceListSpan
  base : Option.Rel R first.base second.base
  interfaces : List.Forall₂ R first.interfaces second.interfaces

theorem TypeSymbol.Aligned.isInterface {first second : TypeSymbol}
    (aligned : first.Aligned R second) : second.isInterface = first.isInterface := by
  rw [TypeSymbol.isInterface, TypeSymbol.isInterface, aligned.kind]

namespace SymbolTable

/-- Types that a one to one relation relates are in two tables, with related links. -/
structure Aligned (R : TypeId → TypeId → Prop) (s t : SymbolTable) : Prop where
  unique : Relator.BiUnique R
  types : ∀ {x y}, R x y → ∃ X Y, s.type? x = some X ∧ t.type? y = some Y ∧ X.Aligned R Y

namespace Aligned

variable {s t : SymbolTable} (aligned : Aligned R s t)

include aligned

theorem eq_iff {x y z w : TypeId} (first : R x y) (second : R z w) : x = z ↔ y = w :=
  Relator.rel_eq aligned.unique first second

theorem flip : Aligned (fun y x => R x y) t s where
  unique := ⟨fun _ _ _ first second => aligned.unique.2 first second,
    fun _ _ _ first second => aligned.unique.1 first second⟩
  types related := by
    obtain ⟨X, Y, found, foundImage, same⟩ := aligned.types related
    exact ⟨Y, X, foundImage, found, same.name.symm, same.kind.symm, same.interfaceListSpan.symm,
      rel_flip same.base, List.Forall₂.flip same.interfaces⟩

theorem displayType {x y : TypeId} (related : R x y) : t.displayType y = s.displayType x := by
  obtain ⟨X, Y, found, foundImage, same⟩ := aligned.types related
  rw [SymbolTable.displayType, SymbolTable.displayType, found, foundImage]
  exact same.name

/-- Base types have the same names. -/
theorem baseName {X Y : TypeSymbol} (same : X.Aligned R Y) :
    (Y.base.bind t.type?).map TypeSymbol.name = (X.base.bind s.type?).map TypeSymbol.name := by
  rw [Option.map_bind, Option.map_bind]
  refine bind_eq_bind_of_rel same.base fun x y link => ?_
  obtain ⟨A, B, found, foundImage, alike⟩ := aligned.types link
  rw [Function.comp_apply, Function.comp_apply, found, foundImage, Option.map_some,
    Option.map_some, alike.name]

/-- So have the entries of interface lists. -/
theorem interfaceNames {X Y : TypeSymbol} (same : X.Aligned R Y) :
    (Y.interfaces.filterMap t.type?).map TypeSymbol.name =
      (X.interfaces.filterMap s.type?).map TypeSymbol.name := by
  have exists_first : ∀ x ∈ X.interfaces, ∃ A, s.type? x = some A := fun x listed => by
    obtain ⟨y, _, link⟩ := exists_of_mem_forall₂ same.interfaces listed
    obtain ⟨A, _, found, _⟩ := aligned.types link
    exact ⟨A, found⟩
  have exists_second : ∀ y ∈ Y.interfaces, ∃ B, t.type? y = some B := fun y listed => by
    obtain ⟨x, _, link⟩ := exists_of_mem_forall₂ (List.Forall₂.flip same.interfaces) listed
    obtain ⟨_, B, _, found, _⟩ := aligned.types link
    exact ⟨B, found⟩
  refine (map_filterMap_eq_iff exists_first exists_second).mpr (same.interfaces.imp ?_)
  intro x y link
  obtain ⟨A, B, found, foundImage, alike⟩ := aligned.types link
  exact ⟨A, B, found, foundImage, alike.name⟩

/-! ## Walks and searches -/

/-- Walks along base types come to related types in the same number of steps. -/
theorem basesReach {target image : TypeId} (targets : R target image) (steps : Nat)
    {x y : TypeId} (related : R x y) : ∃ reached,
      s.basesReach target steps x = .ok reached ∧ t.basesReach image steps y = .ok reached := by
  have same := aligned.eq_iff related targets
  induction steps generalizing x y with
  | zero =>
    unfold SymbolTable.basesReach
    by_cases there : x = target
    · exact ⟨true, if_pos there, if_pos (same.mp there)⟩
    · exact ⟨false, if_neg there, if_neg (mt same.mpr there)⟩
  | succ steps ih =>
    unfold SymbolTable.basesReach
    by_cases there : x = target
    · exact ⟨true, if_pos there, if_pos (same.mp there)⟩
    · obtain ⟨X, Y, found, foundImage, alike⟩ := aligned.types related
      have base := alike.base
      simp only [if_neg there, if_neg (mt same.mpr there), found, foundImage]
      generalize X.base = a at base ⊢
      generalize Y.base = b at base ⊢
      cases base with
      | none => exact ⟨false, rfl, rfl⟩
      | some link => exact ih link (aligned.eq_iff link targets)

/-- A path along interface lists leads to related types. -/
theorem reaches {x y target image : TypeId} (related : R x y) (targets : R target image)
    (path : Relation.ReflTransGen s.Lists x target) :
    Relation.ReflTransGen t.Lists y image := by
  induction path using Relation.ReflTransGen.head_induction_on generalizing y with
  | refl => exact (aligned.eq_iff related targets).mp rfl ▸ .refl
  | head step _ ih =>
    obtain ⟨X, found, listed⟩ := step
    obtain ⟨X', Y, foundAgain, foundImage, same⟩ := aligned.types related
    cases found.symm.trans foundAgain
    obtain ⟨other, listedImage, link⟩ := exists_of_mem_forall₂ same.interfaces listed
    exact .head ⟨Y, foundImage, listedImage⟩ (ih link)

/-- Searches along interface lists come to related types. -/
theorem interfacesReach (closed : s.Closed) (closedImage : t.Closed) {x y target image : TypeId}
    (related : R x y) (targets : R target image) : ∃ reached,
      s.interfacesReach target x = .ok reached ∧ t.interfacesReach image y = .ok reached := by
  obtain ⟨X, Y, found, foundImage, _⟩ := aligned.types related
  by_cases path : Relation.ReflTransGen s.Lists x target
  · have pathImage := aligned.reaches related targets path
    refine ⟨true, ?_, ?_⟩
    · exact (interfacesReach_iff closed ⟨X, found⟩).resolve_right fun missed => missed.2 path
    · exact (interfacesReach_iff closedImage ⟨Y, foundImage⟩).resolve_right
        fun missed => missed.2 pathImage
  · have noPath : ¬ Relation.ReflTransGen t.Lists y image :=
      fun back => path (aligned.flip.reaches related targets back)
    exact ⟨false, interfacesReach_false closed ⟨X, found⟩ path,
      interfacesReach_false closedImage ⟨Y, foundImage⟩ noPath⟩

/-- Related types stay related if both are changed alike. -/
theorem modifyType {x y : TypeId} (related : R x y) {f g : TypeSymbol → TypeSymbol}
    (keeps : ∀ {X Y : TypeSymbol}, X.Aligned R Y → (f X).Aligned R (g Y)) :
    Aligned R (s.modifyType x f) (t.modifyType y g) where
  unique := aligned.unique
  types {z w} others := by
    obtain ⟨X, Y, found, foundImage, same⟩ := aligned.types others
    have own := aligned.eq_iff related others
    rw [type?_modifyType, type?_modifyType, found, foundImage]
    by_cases there : x = z
    · rw [if_pos there, if_pos (own.mp there)]
      exact ⟨f X, g Y, rfl, rfl, keeps same⟩
    · rw [if_neg there, if_neg (mt own.mpr there)]
      exact ⟨X, Y, rfl, rfl, same⟩

end Aligned

end SymbolTable

/-! ## Untangling -/

namespace Untangling

/-- Two tables are untangled alike: related types have related links, and the same was
reported. -/
structure Aligned (R : TypeId → TypeId → Prop) (first second : Untangling) : Prop where
  tables : SymbolTable.Aligned R first.table second.table
  closed : first.table.Closed ∧ second.table.Closed
  faults : first.fault? = none ∧ second.fault? = none
  diagnostics : second.diagnostics = first.diagnostics

variable {first second : Untangling}

/-- Links of related types that close cycles are taken out of both. -/
theorem Aligned.cutIf (aligned : Aligned R first second) {x y other image : TypeId}
    (related : R x y) (others : R other image) (reached : Bool) (rule : Rule)
    {cut cutImage : TypeSymbol → TypeSymbol} (trims : ∀ type : TypeSymbol, type.Trimmed (cut type))
    (trimsImage : ∀ type : TypeSymbol, type.Trimmed (cutImage type))
    (keeps : ∀ {X Y : TypeSymbol}, X.Aligned R Y → (cut X).Aligned R (cutImage Y)) :
    Aligned R (first.cutIf (.ok reached) rule x other cut)
      (second.cutIf (.ok reached) rule y image cutImage) := by
  cases reached with
  | false => exact aligned
  | true =>
    refine ⟨aligned.tables.modifyType related keeps,
      ⟨(SymbolTable.Trims.modifyType x trims).closed aligned.closed.1,
        (SymbolTable.Trims.modifyType y trimsImage).closed aligned.closed.2⟩, aligned.faults, ?_⟩
    obtain ⟨X, Y, found, foundImage, same⟩ := aligned.tables.types related
    simp only [Untangling.cutIf, Untangling.report, found, foundImage, aligned.diagnostics,
      aligned.tables.displayType related, aligned.tables.displayType others, Option.map_some,
      same.interfaceListSpan]

theorem Aligned.cutBase (aligned : Aligned R first second) {x y : TypeId} (related : R x y) :
    Aligned R (first.cutBase x) (second.cutBase y) := by
  obtain ⟨X, Y, found, foundImage, same⟩ := aligned.tables.types related
  have base := same.base
  unfold Untangling.cutBase
  simp only [aligned.faults.1, aligned.faults.2, Option.isSome_none, Bool.false_eq_true, if_false,
    found, foundImage, Option.bind_some]
  generalize X.base = a at base ⊢
  generalize Y.base = b at base ⊢
  cases base with
  | none => exact aligned
  | some link =>
    obtain ⟨reached, walk, walkImage⟩ :=
      aligned.tables.basesReach related SymbolTable.maxDepth link
    simp only [walk, walkImage]
    have trims (type : TypeSymbol) : type.Trimmed { type with base := none } :=
      ⟨rfl, .inl rfl, .refl _⟩
    exact aligned.cutIf related link reached _ trims trims fun same =>
      ⟨same.name, same.kind, same.interfaceListSpan, .none, same.interfaces⟩

theorem Aligned.cutInterface (aligned : Aligned R first second) {x y other image : TypeId}
    (related : R x y) (others : R other image) :
    Aligned R (first.cutInterface x other) (second.cutInterface y image) := by
  obtain ⟨reached, search, searchImage⟩ :=
    aligned.tables.interfacesReach aligned.closed.1 aligned.closed.2 others related
  have trims (inherited : TypeId) (type : TypeSymbol) :
      type.Trimmed { type with interfaces := type.interfaces.filter (· ≠ inherited) } :=
    ⟨rfl, .inr rfl, List.filter_sublist⟩
  unfold Untangling.cutInterface
  simp only [aligned.faults.1, aligned.faults.2, Option.isSome_none, Bool.false_eq_true, if_false,
    search, searchImage]
  refine aligned.cutIf related others reached _ (trims other) (trims image) fun same =>
    ⟨same.name, same.kind, same.interfaceListSpan, same.base, ?_⟩
  refine List.rel_filter ?_ same.interfaces
  intro z w link
  simp only [decide_eq_true_eq, aligned.tables.eq_iff link others, ne_eq]

theorem Aligned.cutInterfaces (aligned : Aligned R first second) {x y : TypeId}
    (related : R x y) : Aligned R (first.cutInterfaces x) (second.cutInterfaces y) := by
  obtain ⟨X, Y, found, foundImage, same⟩ := aligned.tables.types related
  have fold {links images : List TypeId} (linked : List.Forall₂ R links images)
      {first second : Untangling} (aligned : Aligned R first second) :
      Aligned R (links.foldl (Untangling.cutInterface x) first)
        (images.foldl (Untangling.cutInterface y) second) := by
    induction linked generalizing first second with
    | nil => exact aligned
    | cons link _ ih => exact ih (aligned.cutInterface related link)
  unfold Untangling.cutInterfaces
  simp only [found, foundImage, same.isInterface]
  split
  · exact fold same.interfaces aligned
  · exact aligned

end Untangling

/-- The cycles of related types are broken alike. -/
theorem SymbolTable.Aligned.breakCycles {s t : SymbolTable} (aligned : Aligned R s t)
    (closed : s.Closed) (closedImage : t.Closed) {types images : List TypeId}
    (related : List.Forall₂ R types images) :
    Untangling.Aligned R (s.breakCycles types) (t.breakCycles images) := by
  have fold {step step' : Untangling → TypeId → Untangling} {first second : Untangling}
      (keeps : ∀ {u v x y}, Untangling.Aligned R u v → R x y →
        Untangling.Aligned R (step u x) (step' v y))
      (start : Untangling.Aligned R first second) :
      Untangling.Aligned R (types.foldl step first) (images.foldl step' second) := by
    induction related generalizing first second with
    | nil => exact start
    | cons head _ ih => exact ih (keeps start head)
  exact fold (fun aligned related => aligned.cutInterfaces related)
    (fold (fun aligned related => aligned.cutBase related)
      ⟨aligned, ⟨closed, closedImage⟩, ⟨rfl, rfl⟩, rfl⟩)

end Conformance
