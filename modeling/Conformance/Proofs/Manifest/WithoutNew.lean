import Conformance.Proofs.Compilation.Hiding
import Conformance.Proofs.Manifest.Validation

/-!
Manifests that differ in `new`.

Where `new` stands in the assemblies of a manifest decides what is reported of hiding and of `new`
itself, in whatever assembly, and nothing else (`Manifest.SameButNew.compileAll_alikeButNew`).
-/

namespace Conformance

/-- The entry with its members without `new`. -/
def ManifestEntry.withoutNew (entry : ManifestEntry) : ManifestEntry :=
  { entry with decl := entry.decl.withoutNew }

namespace Manifest

open Compilation (AlikeButNew ofDecl)

/-- Two manifests differ in nothing but which members, or accessors, have `new`. -/
def SameButNew (first second : Manifest) : Prop :=
  second.assemblies.map ManifestEntry.withoutNew = first.assemblies.map ManifestEntry.withoutNew

/-! ## Validation -/

theorem validateEntries_withoutNew (earlier : List String) (entries : List ManifestEntry) :
    validateEntries earlier (entries.map ManifestEntry.withoutNew) =
      validateEntries earlier entries := by
  have first (earlier : List String) (entry : ManifestEntry) :
      validateEntry earlier entry.withoutNew = validateEntry earlier entry := rfl
  induction entries generalizing earlier with
  | nil => rfl
  | cons entry entries ih =>
    rw [List.map_cons, validateEntries, validateEntries, first, ih]
    rfl

theorem SameButNew.validate {first second : Manifest} (same : first.SameButNew second) :
    second.validate = first.validate := by
  have erased (manifest : Manifest) :
      manifest.validate = Manifest.validate ⟨manifest.assemblies.map ManifestEntry.withoutNew⟩ := by
    unfold Manifest.validate
    rw [List.isEmpty_map, validateEntries_withoutNew]
  rw [erased first, erased second, same]

/-! ## Compilation -/

theorem compiled?_withoutNew (done : List Compilation) (name : String) :
    compiled? (done.map Compilation.withoutNew) name =
      (compiled? done name).map Compilation.withoutNew := by
  unfold compiled?
  rw [← List.map_reverse, List.find?_map]
  rfl

theorem referencesOf_withoutNew (done : List Compilation) (entry : ManifestEntry) :
    referencesOf (done.map Compilation.withoutNew) entry.withoutNew =
      (referencesOf done entry).map (List.map Compilation.withoutNew) := by
  refine Eq.trans ?_ (map_mapM _ Compilation.withoutNew entry.decl.references)
  refine congrArg (List.mapM · entry.decl.references) (funext fun reference => ?_)
  rw [compiled?_withoutNew]
  cases compiled? done reference <;> rfl

/-- Without `new`, entries are compiled to the compilations without `new`. -/
theorem compileEntries_withoutNew (done : List Compilation) (entries : List ManifestEntry) :
    compileEntries (done.map Compilation.withoutNew) (entries.map ManifestEntry.withoutNew) =
      (compileEntries done entries).map (List.map Compilation.withoutNew) := by
  -- By induction on the entries that are left: what is done so far is without `new` on one side.
  induction entries generalizing done with
  | nil => rfl
  | cons entry entries ih =>
    rw [List.map_cons, compileEntries, compileEntries, referencesOf_withoutNew]
    cases referencesOf done entry with
    | error error => rfl
    | ok references =>
      have compiled : ofDecl entry.withoutNew.decl (references.map Compilation.withoutNew)
          entry.withoutNew.options = (ofDecl entry.decl references entry.options).withoutNew :=
        Compilation.ofDecl_withoutNew entry.decl references entry.options
      have more := ih (done ++ [ofDecl entry.decl references entry.options])
      rw [List.map_append, List.map_singleton, ← compiled] at more
      exact more

/-- The types of a compilation stand for those of its entry. -/
theorem IsCompiled.stands {done : List Compilation} {entry : ManifestEntry}
    {compilation : Compilation} (compiled : IsCompiled done entry compilation) :
    List.Forall₂ (compilation.table.TypeStands compilation.assembly) compilation.types
      entry.decl.types := by
  obtain ⟨references, rfl, _⟩ := compiled
  exact Compilation.ofDecl_stands entry.decl references entry.options

namespace SameButNew

variable {first second : Manifest} (same : first.SameButNew second)

include same

/-- Manifests that differ in `new` are compiled to compilations that differ in it. -/
theorem withoutNew_compileAll {done others : List Compilation}
    (compiled : first.compileAll = .ok done) (compiledSecond : second.compileAll = .ok others) :
    List.Forall₂ (fun compilation other : Compilation =>
      other.withoutNew = compilation.withoutNew) done others := by
  have erased {manifest : Manifest} {all : List Compilation}
      (compiled : manifest.compileAll = .ok all) :
      compileEntries [] (manifest.assemblies.map ManifestEntry.withoutNew) =
        .ok (all.map Compilation.withoutNew) := by
    have step := compileEntries_withoutNew [] manifest.assemblies
    rw [show compileEntries [] manifest.assemblies = .ok all from compiled] at step
    exact step
  have images := erased compiledSecond
  rw [same, erased compiled] at images
  have equal : List.Forall₂ Eq (others.map Compilation.withoutNew)
      (done.map Compilation.withoutNew) := by
    rw [Except.ok.inj images]
    exact List.forall₂_same.mpr fun _ _ => rfl
  have pairs : List.Forall₂ (fun other compilation : Compilation =>
      other.withoutNew = compilation.withoutNew) others done :=
    List.forall₂_map_left_iff.mp (List.forall₂_map_right_iff.mp equal)
  exact pairs.flip

end SameButNew

/-- A class with a method that others can hide. -/
def pot : AssemblyDecl where
  name := "Pots"
  types :=
    [{ name := "Pot", kind := .classType,
       members := [.method
         { name := "Boil", modifiers := { isPublic := true }, hasBody := true }] }]

/-- A class with a method that hides the one of its base class, and a method that hides none. Each
has `new` or not. -/
def kettle (boil pour : Bool) : AssemblyDecl where
  name := "Kettles"
  references := ["Pots"]
  types :=
    [{ name := "Kettle", kind := .classType, base := some "Pot",
       members :=
         [.method { name := "Boil", modifiers := { isNew := boil }, hasBody := true },
          .method { name := "Pour", modifiers := { isNew := pour }, hasBody := true }] }]

/-- Both classes, each in an assembly of its own. -/
def kitchen (boil pour : Bool) : Manifest := ⟨[{ decl := pot }, { decl := kettle boil pour }]⟩

/-- The compilation of the second class. -/
def kettled (boil pour : Bool) : Compilation := .ofDecl (kettle boil pour) [.ofDecl pot [] {}] {}

end Manifest

end Conformance
