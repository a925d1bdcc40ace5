import Conformance.Proofs.Compilation.Permutation
import Conformance.Proofs.Manifest.Closure
import Conformance.Proofs.Manifest.Locality

/-!
Manifests with references in another order.

The references of an assembly are the compilations of entries before it, which do not notice
that its references are listed in another order (`Manifest.Ordered.sameEntries_reference`). If
no two of them declare types of one name, the assembly has one report for both orders by every
schedule (`Manifest.reportOn_withReferences`).
-/

namespace Conformance

namespace ManifestEntry

/-- The entry with other references, if it is that of the assembly of a name. -/
def withReferences (entry : ManifestEntry) (assembly : String) (references : List String) :
    ManifestEntry :=
  if entry.name = assembly then { entry with decl := { entry.decl with references } } else entry

theorem name_withReferences (entry : ManifestEntry) (assembly : String)
    (references : List String) : (entry.withReferences assembly references).name = entry.name := by
  unfold withReferences
  split <;> rfl

theorem withReferences_of_ne {entry : ManifestEntry} {assembly : String}
    (other : entry.name ≠ assembly) (references : List String) :
    entry.withReferences assembly references = entry :=
  if_neg other

end ManifestEntry

namespace Manifest

open Compilation (ofDecl Compiles)
open ManifestEntry (References)

/-- The manifest with other references for the assembly of a name. -/
def withReferences (manifest : Manifest) (assembly : String) (references : List String) :
    Manifest where
  assemblies := manifest.assemblies.map fun entry => entry.withReferences assembly references

/-- Of the assemblies of some names, no two declare types of one name. -/
def DeclareApart (entries : List ManifestEntry) (names : List String) : Prop :=
  ∀ first ∈ entries, ∀ second ∈ entries, first.name ∈ names → second.name ∈ names →
    ∀ type ∈ first.decl.types, ∀ other ∈ second.decl.types, type.name = other.name →
      first = second

variable {manifest : Manifest} {entry : ManifestEntry} {references : List String}

/-! ## Order -/

/-- What an assembly references leads to entries before it. -/
theorem Ordered.before (ordered : manifest.Ordered) (listed : entry ∈ manifest.assemblies)
    {lib other : String} (referenced : lib ∈ entry.decl.references)
    (path : Relation.ReflTransGen (References manifest.assemblies) lib other) :
    ∃ before ∈ manifest.assemblies, before.name = other ∧ before.name ≠ entry.name := by
  obtain ⟨position, found⟩ := List.getElem?_of_mem listed
  obtain ⟨earlier, before, below, foundBefore, called⟩ : ∃ (earlier : Nat) (before : ManifestEntry),
      earlier < position ∧ manifest.assemblies[earlier]? = some before ∧ before.name = other := by
    induction path with
    | refl => exact ordered.listed found referenced
    | tail _ step ih =>
      obtain ⟨earlier, before, below, foundBefore, called⟩ := ih
      obtain ⟨again, isListed, name, leads⟩ := step
      obtain rfl : again = before := List.inj_on_of_nodup_map ordered.distinct isListed
        (List.mem_of_getElem? foundBefore) (name.trans called.symm)
      obtain ⟨first, entry, beforeThat, foundFirst, called⟩ := ordered.listed foundBefore leads
      exact ⟨first, entry, beforeThat.trans below, foundFirst, called⟩
  refine ⟨before, List.mem_of_getElem? foundBefore, called, fun same => ?_⟩
  have isSame : (manifest.assemblies.map ManifestEntry.name)[earlier]? =
      (manifest.assemblies.map ManifestEntry.name)[position]? := by
    rw [List.getElem?_map, List.getElem?_map, foundBefore, found, Option.map_some,
      Option.map_some, same]
  obtain ⟨inside, _⟩ := List.getElem?_eq_some_iff.mp foundBefore
  have one := (List.getElem?_inj (by rwa [List.length_map]) ordered.distinct).mp isSame
  exact absurd one (Nat.ne_of_lt below)

/-- What an assembly references does not notice how its references are listed. -/
theorem Ordered.sameEntries_reference (ordered : manifest.Ordered)
    (listed : entry ∈ manifest.assemblies) {lib : String}
    (referenced : lib ∈ entry.decl.references) (references : List String) :
    manifest.SameEntries (manifest.withReferences entry.name references) lib := by
  intro other path
  obtain ⟨before, isListed, called, apart⟩ := ordered.before listed referenced path
  refine ⟨before, isListed, called, List.mem_map.mpr ⟨before, isListed, ?_⟩⟩
  exact ManifestEntry.withReferences_of_ne apart references

/-- Manifests stay ordered if references are listed in another order. -/
theorem Ordered.withReferences (ordered : manifest.Ordered) (listed : entry ∈ manifest.assemblies)
    (permuted : entry.decl.references.Perm references) :
    (manifest.withReferences entry.name references).Ordered where
  nonempty none := ordered.nonempty (List.map_eq_nil_iff.mp none)
  distinct := by
    have names : (manifest.withReferences entry.name references).assemblies.map
        ManifestEntry.name = manifest.assemblies.map ManifestEntry.name := by
      rw [Manifest.withReferences, List.map_map]
      exact List.map_congr_left fun other _ => other.name_withReferences _ _
    rw [names]
    exact ordered.distinct
  listed {position image name} found referenced := by
    have known : (manifest.assemblies.map fun other =>
      other.withReferences entry.name references)[position]? = some image := found
    rw [List.getElem?_map] at known
    obtain ⟨original, foundOriginal, rfl⟩ := Option.map_eq_some_iff.mp known
    have isReference : name ∈ original.decl.references := by
      by_cases own : original.name = entry.name
      · obtain rfl : original = entry := List.inj_on_of_nodup_map ordered.distinct
          (List.mem_of_getElem? foundOriginal) listed own
        rw [ManifestEntry.withReferences, if_pos rfl] at referenced
        exact permuted.mem_iff.mpr referenced
      · rwa [ManifestEntry.withReferences_of_ne own] at referenced
    obtain ⟨earlier, other, below, foundOther, called⟩ := ordered.listed foundOriginal isReference
    refine ⟨earlier, other.withReferences entry.name references, below, ?_,
      (other.name_withReferences _ _).trans called⟩
    show (manifest.assemblies.map _)[earlier]? = _
    rw [List.getElem?_map, foundOther, Option.map_some]

/-- An assembly is compiled against the same compilations in any order of its references. -/
theorem Ordered.mem_references_iff (ordered : manifest.Ordered)
    (listed : entry ∈ manifest.assemblies) (permuted : entry.decl.references.Perm references)
    {done others libs images : List Compilation}
    (compiled : List.Forall₂ (IsCompiled done) manifest.assemblies done)
    (compiledToo : List.Forall₂ (IsCompiled others)
      (manifest.withReferences entry.name references).assemblies others)
    (related : List.Forall₂ (fun name lib => lib ∈ done ∧ lib.name = name)
      entry.decl.references libs)
    (relatedToo : List.Forall₂ (fun name lib => lib ∈ others ∧ lib.name = name)
      references images)
    (lib : Compilation) : lib ∈ images ↔ lib ∈ libs := by
  -- A reference is compiled alike in both manifests.
  have one {lib other : Compilation} (isDone : lib ∈ done) (isOther : other ∈ others)
      (referenced : lib.name ∈ entry.decl.references) (name : other.name = lib.name) :
      lib = other :=
    compilation_eq ordered (ordered.withReferences listed permuted) compiled compiledToo isDone
      isOther name (ordered.sameEntries_reference listed referenced references)
  constructor
  · intro inside
    obtain ⟨isOther, referenced⟩ := mem_of_referenced relatedToo inside
    obtain ⟨known, inLibs, isDone, name⟩ :=
      exists_of_mem_forall₂ related (permuted.mem_iff.mpr referenced)
    rwa [← one isDone isOther (mem_of_referenced related inLibs).2 name.symm]
  · intro inside
    obtain ⟨isDone, referenced⟩ := mem_of_referenced related inside
    obtain ⟨other, inImages, isOther, name⟩ :=
      exists_of_mem_forall₂ relatedToo (permuted.mem_iff.mp referenced)
    rwa [one isDone isOther referenced name]

/-! ## Names of types -/

/-- Outlines that are listed declare types of one name only if entries do. -/
theorem Progress.apart {catalogue : Catalogue} {entries : List ManifestEntry}
    {done : List Compilation} (progress : Progress catalogue entries done) {names : List String}
    (known : ∀ name ∈ names, ∃ entry ∈ entries, entry.name = name)
    (apart : DeclareApart entries names) : catalogue.Apart names := by
  have declared {name : String} (inside : name ∈ names) {outline : AssemblyOutline}
      (listed : catalogue name = some outline) {type : TypeOutline} (isType : type ∈ outline.types) :
      ∃ entry ∈ entries, entry.name = name ∧ ∃ decl ∈ entry.decl.types, decl.name = type.name := by
    obtain ⟨entry, isEntry, rfl⟩ := known name inside
    obtain ⟨_, _, _, compiles, _⟩ := exists_of_mem_forall₂ progress.compiled isEntry
    obtain ⟨again, listedAgain, names⟩ := compiles.typeNames
    cases listed.symm.trans listedAgain
    obtain ⟨decl, isDecl, called⟩ := List.mem_map.mp (names ▸ List.mem_map_of_mem isType)
    exact ⟨entry, isEntry, rfl, decl, isDecl, called⟩
  intro name other outline another type otherType inside insideToo listed listedToo isType
    isTypeToo same
  obtain ⟨entry, isEntry, rfl, decl, isDecl, called⟩ := declared inside listed isType
  obtain ⟨entryToo, isEntryToo, rfl, declToo, isDeclToo, calledToo⟩ :=
    declared insideToo listedToo isTypeToo
  rw [apart entry isEntry entryToo isEntryToo inside insideToo decl isDecl declToo isDeclToo
    (called.trans (same.trans calledToo.symm))]

/-! ## Reports -/

/-- If no two references of an assembly declare types of one name, the assembly has by every
schedule one report for all orders of its references. -/
theorem reportOn_withReferences (valid : manifest.validate = .ok ())
    (listed : entry ∈ manifest.assemblies) (permuted : entry.decl.references.Perm references)
    (apart : DeclareApart manifest.assemblies entry.decl.references) (implementations : Bool)
    (schedule : List Nat) :
    (manifest.withReferences entry.name references).validate = .ok () ∧ ∃ report,
      (do reportOn (← manifest.compileAll) (some entry.name) implementations schedule) =
          .ok report ∧
        (do reportOn (← (manifest.withReferences entry.name references).compileAll)
              (some entry.name) implementations schedule) = .ok report := by
  have ordered := validate_iff_ordered.mp valid
  have orderedToo := ordered.withReferences listed permuted
  have validToo := validate_iff_ordered.mpr orderedToo
  refine ⟨validToo, ?_⟩
  obtain ⟨done, catalogue, compiled, progress⟩ := compileAll_progress valid
  obtain ⟨others, _, compiledToo, progressToo⟩ := compileAll_progress validToo
  obtain ⟨isCompiled, _⟩ := compileAll_isCompiled compiled
  obtain ⟨isCompiledToo, _⟩ := compileAll_isCompiled compiledToo
  obtain ⟨compilation, inside, own⟩ := exists_of_mem_forall₂ isCompiled listed
  have listedToo : entry.withReferences entry.name references ∈
      (manifest.withReferences entry.name references).assemblies := List.mem_map_of_mem listed
  obtain ⟨image, insideToo, ownToo⟩ := exists_of_mem_forall₂ isCompiledToo listedToo
  have called : compilation.name = entry.name := IsCompiled.name own
  have calledToo : image.name = entry.name :=
    (IsCompiled.name ownToo).trans (entry.name_withReferences _ _)
  rw [ManifestEntry.withReferences, if_pos rfl] at ownToo
  obtain ⟨libs, same, related⟩ := own
  obtain ⟨images, sameToo, relatedToo⟩ := ownToo
  have isLib : ∀ lib ∈ libs, lib ∈ done ∧ lib.name ∈ entry.decl.references := fun _ =>
    mem_of_referenced related
  have sameLibs := ordered.mem_references_iff listed permuted isCompiled isCompiledToo related
    relatedToo
  have fresh : ∀ lib ∈ libs, ¬ lib.table.HasAssembly entry.decl.name := by
    intro lib inLibs has
    obtain ⟨isDone, referenced⟩ := isLib lib inLibs
    obtain ⟨_, _, again, other⟩ :=
      ordered.before listed referenced ((progress.hasAssembly_iff isDone _).mp has)
    exact other again
  have names : libs.map Compilation.name = entry.decl.references := names_of_referenced related
  have listedLibs : ∀ name ∈ libs.map Compilation.name, ∃ other ∈ manifest.assemblies,
      other.name = name := by
    rw [names]
    intro name referenced
    obtain ⟨other, isEntry, called, _⟩ := ordered.before listed referenced .refl
    exact ⟨other, isEntry, called⟩
  obtain ⟨report, reported, reportedToo⟩ := Compilation.ofDecl_report_of_mem_iff sameLibs
    (fun lib inLibs => progress.genuine (isLib lib inLibs).1)
    (fun lib inLibs => progress.hasOwn (isLib lib inLibs).1) entry.decl entry.options fresh
    (progress.apart listedLibs (names ▸ apart)) implementations schedule
  refine ⟨report, ?_, ?_⟩
  · rw [compiled, ← called]
    exact reportOn_of_mem inside (progress.names ▸ progress.distinct) (same ▸ reported)
  · rw [compiledToo, ← calledToo]
    exact reportOn_of_mem insideToo (progressToo.names ▸ progressToo.distinct)
      (sameToo ▸ reportedToo)

/-- An assembly with two classes for interfaces of two others, both of which know a third. -/
def door : ManifestEntry where
  decl :=
    { name := "Door"
      references := ["Hinges", "Latches", "Parts"]
      types :=
        [ { name := "Panel"
            kind := .classType
            interfaces := ["Latch", "Hinge"]
            members := [.method { name := "Turn", modifiers := .ofList [.publicAccess] }] },
          { name := "Frame", kind := .classType, interfaces := ["Hinge"] } ] }

/-- A manifest with `door` and what it references. -/
def workshop : Manifest where
  assemblies :=
    [ { decl := { name := "Parts", types := [{ name := "Part", kind := .interfaceType }] } },
      { decl :=
          { name := "Hinges"
            references := ["Parts"]
            types :=
              [ { name := "Hinge"
                  kind := .interfaceType
                  interfaces := ["Part"]
                  members := [.method { name := "Turn" }] } ] } },
      { decl :=
          { name := "Latches"
            references := ["Parts"]
            types :=
              [ { name := "Latch"
                  kind := .interfaceType
                  interfaces := ["Part"]
                  members := [.method { name := "Close" }] } ] } },
      door ]

/-- The report on `door`, whose classes are checked in turns, does not depend on the order of its
references. -/
theorem workshop_reportOn :
    (workshop.withReferences "Door" ["Parts", "Latches", "Hinges"]).validate = .ok () ∧ ∃ report,
      (do reportOn (← workshop.compileAll) (some "Door") true [1, 0, 1, 0, 0]) = .ok report ∧
        (do reportOn (← (workshop.withReferences "Door" ["Parts", "Latches", "Hinges"]).compileAll)
              (some "Door") true [1, 0, 1, 0, 0]) = .ok report := by
  have valid : workshop.validate = .ok () := by decide
  have listed : door ∈ workshop.assemblies := by decide
  have permuted : door.decl.references.Perm ["Parts", "Latches", "Hinges"] := by decide
  have apart : DeclareApart workshop.assemblies door.decl.references := by
    unfold DeclareApart
    decide
  exact reportOn_withReferences valid listed permuted apart true [1, 0, 1, 0, 0]

end Manifest

end Conformance
