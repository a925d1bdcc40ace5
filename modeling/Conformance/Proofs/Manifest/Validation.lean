import Conformance.Proofs.Compilation.Built
import Conformance.Proofs.Manifest.Compiled

/-!
What validation accepts, and how the accepted is compiled.

A manifest passes validation if and only if it is ordered
(`Manifest.validate_iff_ordered`). Each of its compilations is that of the entry at its
position, against compilations of the assemblies that the entry references
(`Manifest.compileEntries_isCompiled`).
-/

namespace Conformance

namespace Manifest

open Compilation (ofDecl)

/-- Each of some entries references names that are known or those of entries before it. -/
def EachListed (known : List String) (entries : List ManifestEntry) : Prop :=
  ∀ {position : Nat} {entry : ManifestEntry} {name : String}, entries[position]? = some entry →
    name ∈ entry.decl.references → name ∈ known ∨ ∃ (earlier : Nat) (other : ManifestEntry),
      earlier < position ∧ entries[earlier]? = some other ∧ other.name = name

/-- A manifest lists something, each name once, and each assembly after those that it
references. -/
structure Ordered (manifest : Manifest) : Prop where
  nonempty : manifest.assemblies ≠ []
  distinct : (manifest.assemblies.map ManifestEntry.name).Nodup
  listed : ∀ {position : Nat} {entry : ManifestEntry} {name : String},
    manifest.assemblies[position]? = some entry → name ∈ entry.decl.references →
      ∃ (earlier : Nat) (other : ManifestEntry), earlier < position ∧
        manifest.assemblies[earlier]? = some other ∧ other.name = name

/-! ## Validation -/

theorem validateEntry_iff {known : List String} {entry : ManifestEntry} :
    validateEntry known entry = .ok () ↔
      (∀ name ∈ entry.decl.references, name ∈ known) ∧ entry.name ∉ known := by
  refine ⟨validateEntry_ok, fun ⟨listed, fresh⟩ => ?_⟩
  have none : entry.decl.references.find? (fun reference => reference ∉ known) = none :=
    List.find?_eq_none.mpr fun name inside => by simpa using listed name inside
  unfold validateEntry
  rw [none]
  exact if_neg fresh

theorem eachListed_cons {known : List String} {entry : ManifestEntry}
    {rest : List ManifestEntry} : EachListed known (entry :: rest) ↔
      (∀ name ∈ entry.decl.references, name ∈ known) ∧
        EachListed (entry.name :: known) rest := by
  constructor
  · intro listed
    constructor
    · intro name inside
      have first : (entry :: rest)[0]? = some entry := rfl
      rcases listed first inside with isKnown | ⟨_, _, below, _⟩
      · exact isKnown
      · exact absurd below (Nat.not_lt_zero _)
    · intro position other name found inside
      have later : (entry :: rest)[position + 1]? = some other := found
      rcases listed later inside with isKnown | ⟨earlier, before, below, foundBefore, same⟩
      · exact .inl (List.mem_cons_of_mem _ isKnown)
      · cases earlier with
        | zero =>
          cases foundBefore
          exact .inl (same ▸ List.mem_cons_self)
        | succ earlier =>
          exact .inr ⟨earlier, before, Nat.lt_of_succ_lt_succ below, foundBefore, same⟩
  · rintro ⟨first, others⟩ position other name found inside
    cases position with
    | zero =>
      cases found
      exact .inl (first name inside)
    | succ position =>
      rcases others found inside with isKnown | ⟨earlier, before, below, foundBefore, same⟩
      · rcases List.mem_cons.mp isKnown with rfl | isKnown
        · exact .inr ⟨0, entry, Nat.succ_pos _, rfl, rfl⟩
        · exact .inl isKnown
      · exact .inr ⟨earlier + 1, before, Nat.succ_lt_succ below, foundBefore, same⟩

theorem validateEntries_iff {known : List String} {entries : List ManifestEntry} :
    validateEntries known entries = .ok () ↔
      (entries.map ManifestEntry.name).Nodup ∧
        (∀ entry ∈ entries, entry.name ∉ known) ∧ EachListed known entries := by
  induction entries generalizing known with
  | nil => exact ⟨fun _ => ⟨.nil, nofun, fun found => nomatch found⟩, fun _ => rfl⟩
  | cons entry rest ih =>
    have steps : validateEntries known (entry :: rest) = .ok () ↔
        validateEntry known entry = .ok () ∧
          validateEntries (entry.name :: known) rest = .ok () := by
      rw [validateEntries]
      cases validateEntry known entry with
      | error _ => exact ⟨nofun, nofun⟩
      | ok _ => exact ⟨fun valid => ⟨rfl, valid⟩, And.right⟩
    rw [steps, validateEntry_iff, ih, eachListed_cons, List.map_cons, List.nodup_cons,
      List.forall_mem_cons]
    constructor
    · rintro ⟨⟨first, fresh⟩, distinct, others, listed⟩
      refine ⟨⟨fun inside => ?_, distinct⟩, ⟨fresh, fun other inside isKnown => ?_⟩, first, listed⟩
      · obtain ⟨other, isOther, same⟩ := List.mem_map.mp inside
        exact others other isOther (same ▸ List.mem_cons_self)
      · exact others other inside (List.mem_cons_of_mem _ isKnown)
    · rintro ⟨⟨once, distinct⟩, ⟨fresh, others⟩, first, listed⟩
      refine ⟨⟨first, fresh⟩, distinct, fun other inside isKnown => ?_, listed⟩
      rcases List.mem_cons.mp isKnown with same | isKnown
      · exact once (same ▸ List.mem_map_of_mem inside)
      · exact others other inside isKnown

/-- Validation accepts the ordered manifests. -/
theorem validate_iff_ordered {manifest : Manifest} :
    manifest.validate = .ok () ↔ manifest.Ordered := by
  have nonempty : manifest.validate = .ok () ↔
      manifest.assemblies ≠ [] ∧ validateEntries [] manifest.assemblies = .ok () := by
    unfold validate
    cases manifest.assemblies with
    | nil => exact ⟨nofun, fun listed => absurd rfl listed.1⟩
    | cons entry rest => exact ⟨fun valid => ⟨List.cons_ne_nil _ _, valid⟩, And.right⟩
  rw [nonempty, validateEntries_iff]
  constructor
  · rintro ⟨some, distinct, _, listed⟩
    exact ⟨some, distinct, fun found inside => (listed found inside).resolve_left List.not_mem_nil⟩
  · rintro ⟨some, distinct, listed⟩
    exact ⟨some, distinct, fun _ _ => List.not_mem_nil, fun found inside =>
      .inr (listed found inside)⟩

/-! ## Compilation -/

/-- A compilation is that of an entry, against compilations out of some that are done. -/
def IsCompiled (done : List Compilation) (entry : ManifestEntry) (compilation : Compilation) :
    Prop :=
  ∃ references, compilation = ofDecl entry.decl references entry.options ∧
    List.Forall₂ (fun name reference => reference ∈ done ∧ reference.name = name)
      entry.decl.references references

theorem IsCompiled.mono {done more : List Compilation} {entry : ManifestEntry}
    {compilation : Compilation} (compiled : IsCompiled done entry compilation)
    (kept : done ⊆ more) : IsCompiled more entry compilation := by
  obtain ⟨references, same, related⟩ := compiled
  exact ⟨references, same, related.imp fun _ _ ⟨inside, name⟩ => ⟨kept inside, name⟩⟩

/-- A compilation of an entry has the name of the entry. -/
theorem IsCompiled.name {done : List Compilation} {entry : ManifestEntry}
    {compilation : Compilation} (compiled : IsCompiled done entry compilation) :
    compilation.name = entry.name := by
  obtain ⟨references, rfl, _⟩ := compiled
  have made := (Compilation.addReferences_binds references).1.made .empty
  unfold Compilation.name ofDecl
  generalize references.foldl Compilation.addReference (∅, []) = state at made ⊢
  have bound := SymbolTable.bind_bound made.wellFormed entry.decl state.2
    (.source entry.options.version)
  simp only [bound.symbol, Option.map_some, Option.getD_some, ManifestEntry.name]

theorem referencesOf_ok {done : List Compilation} {entry : ManifestEntry}
    {references : List Compilation} (found : referencesOf done entry = .ok references) :
    List.Forall₂ (fun name reference => reference ∈ done ∧ reference.name = name)
      entry.decl.references references := by
  refine (forall₂_of_mapM_ok found).imp fun name reference known => ?_
  cases named : compiled? done name with
  | none =>
    rw [named] at known
    cases known
  | some compilation =>
    rw [named] at known
    cases known
    have same := List.find?_some (p := fun other : Compilation => other.name = name) named
    exact ⟨List.mem_reverse.mp (List.mem_of_find?_eq_some named), of_decide_eq_true same⟩

/-- What is compiled is the compilation of its entry, and is built if what was done before
is. -/
theorem compileEntries_isCompiled {entries : List ManifestEntry} {done all : List Compilation}
    (compiled : compileEntries done entries = .ok all) :
    (∃ new, all = done ++ new ∧ List.Forall₂ (IsCompiled all) entries new) ∧
      ((∀ compilation ∈ done, compilation.Built) → ∀ compilation ∈ all, compilation.Built) := by
  induction entries generalizing done with
  | nil =>
    cases compiled
    exact ⟨⟨[], (List.append_nil _).symm, .nil⟩, id⟩
  | cons entry rest ih =>
    unfold compileEntries at compiled
    cases found : referencesOf done entry with
    | error error =>
      rw [found] at compiled
      cases compiled
    | ok references =>
      rw [found] at compiled
      obtain ⟨⟨new, same, related⟩, builtAll⟩ := ih compiled
      have known := referencesOf_ok found
      have first : IsCompiled done entry (ofDecl entry.decl references entry.options) :=
        ⟨references, rfl, known⟩
      rw [List.append_assoc] at same
      refine ⟨⟨_ :: new, same, .cons (first.mono (same ▸ List.subset_append_left _ _)) related⟩,
        fun built => builtAll fun compilation inside => ?_⟩
      rcases List.mem_append.mp inside with old | own
      · exact built compilation old
      · obtain rfl := List.mem_singleton.mp own
        refine .ofDecl entry.decl (fun reference listed => ?_) entry.options
        obtain ⟨_, _, isDone, _⟩ := exists_of_mem_forall₂ (List.Forall₂.flip known) listed
        exact built reference isDone

/-- The compilations of a manifest are those of its entries. -/
theorem compileAll_isCompiled {manifest : Manifest} {done : List Compilation}
    (compiled : manifest.compileAll = .ok done) :
    List.Forall₂ (IsCompiled done) manifest.assemblies done ∧
      ∀ compilation ∈ done, compilation.Built := by
  obtain ⟨⟨new, same, related⟩, built⟩ := compileEntries_isCompiled compiled
  rw [show new = done from same.symm] at related
  exact ⟨related, built nofun⟩

end Manifest

end Conformance
