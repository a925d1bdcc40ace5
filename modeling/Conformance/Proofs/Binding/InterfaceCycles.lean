import Conformance.Proofs.Binding.BaseCycles

/-!
Interface lists after cycles are broken.

The search that looks for a cycle of interfaces is not limited, so every cycle is found:
if no interface came back to itself before an assembly is bound, none does afterwards.
Only entries on declared cycles are taken out, the others stay in their order, and source
is told of each entry once, by names that no other entry has
(`SymbolTable.Closed.interfaceCycles_broken`).
-/

namespace Conformance

namespace SymbolTable

/-- No interface comes back to itself along interface lists. -/
def AcyclicInterfaces (table : SymbolTable) : Prop :=
  ∀ {id type}, table.type? id = some type → type.isInterface = true →
    ¬ Relation.TransGen table.Lists id id

/-- The names of an interface and of an entry of its list, as a diagnostic gives them. -/
def linkNames (table : SymbolTable) (link : TypeId × TypeId) : List Argument :=
  [.type (table.displayType link.1), .type (table.displayType link.2)]

end SymbolTable

/-- In a state of untangling, some entries were taken out of the declared interface lists,
and each was reported. All of them were on cycles of interfaces that were looked at. -/
structure Untangling.CutsEntries (declared : SymbolTable) (ids : List TypeId) (state : Untangling)
    (links : List (TypeId × TypeId)) : Prop where
  interfaces : ∀ id, (state.table.type? id).map TypeSymbol.interfaces =
    (declared.type? id).map fun type => type.interfaces.filter fun other => (id, other) ∉ links
  nodup : links.Nodup
  cyclic : ∀ link ∈ links, link.1 ∈ ids ∧
    (∃ type, declared.type? link.1 = some type ∧ type.isInterface = true) ∧
      declared.Lists link.1 link.2 ∧ Relation.ReflTransGen declared.Lists link.2 link.1
  reported : state.diagnostics.filter (fun diagnostic => diagnostic.Breaks [.circularInterface]) =
    links.map (declared.linkReport .circularInterface)

namespace Untangling

variable {declared : SymbolTable} {ids : List TypeId} {state : Untangling}
  {links : List (TypeId × TypeId)} {id other : TypeId}

/-- Links to base types are another matter. -/
theorem CutsEntries.cutBase (cuts : state.CutsEntries declared ids links) (id : TypeId) :
    (state.cutBase id).CutsEntries declared ids links := by
  unfold Untangling.cutBase
  split
  · exact cuts
  · split
    · exact cuts
    · rename_i base _
      unfold cutIf
      split
      · exact ⟨cuts.interfaces, cuts.nodup, cuts.cyclic, cuts.reported⟩
      · exact cuts
      · refine ⟨fun place => ?_, cuts.nodup, cuts.cyclic, ?_⟩
        · have kept : ((state.table.modifyType id fun type =>
              { type with base := none }).type? place).map TypeSymbol.interfaces =
                (state.table.type? place).map TypeSymbol.interfaces := by
            rw [SymbolTable.type?_modifyType]
            split
            · rw [Option.map_map]
              rfl
            · rfl
          exact kept.trans (cuts.interfaces place)
        · refine (List.filter_append ..).trans ?_
          rw [cuts.reported]
          exact List.append_nil _

/-- What is listed when the types are declared is a type while cycles are cut. -/
theorem Keeps.exists_listed (keeps : state.Keeps declared ids) (closed : declared.Closed)
    (lists : declared.Lists id other) : ∃ type, state.table.type? other = some type := by
  rcases lists with ⟨_, found, inside⟩
  rcases closed.interface found inside with ⟨symbol, foundOther⟩
  rcases keeps.trims.type? foundOther with ⟨image, foundNow, _⟩
  exact ⟨image, foundNow⟩

/-- One entry of the list of an interface that is still there is taken out, or it stays. -/
theorem CutsEntries.cutInterface (closed : declared.Closed) (keeps : state.Keeps declared ids)
    (cuts : state.CutsEntries declared ids links) (listed : id ∈ ids)
    (isInterface : ∃ type, declared.type? id = some type ∧ type.isInterface = true)
    (lists : declared.Lists id other) (fresh : (id, other) ∉ links) :
    (state.cutInterface id other).CutsEntries declared ids links ∨
      (state.cutInterface id other).CutsEntries declared ids (links ++ [(id, other)]) := by
  have known := keeps.exists_listed closed lists
  unfold Untangling.cutInterface
  simp only [keeps.noFault, Bool.false_eq_true, if_false]
  have decided : state.table.interfacesReach id other = .ok true ∨ _ :=
    SymbolTable.interfacesReach_iff (keeps.trims.closed closed) known
  rcases decided with hit | ⟨missed, _⟩
  · right
    simp only [hit]
    have back : Relation.ReflTransGen declared.Lists other id := by
      rcases SymbolTable.reaches_of_searchInterfaces hit with ⟨start, only, path⟩
      exact keeps.trims.reaches (List.mem_singleton.mp only ▸ path)
    refine ⟨fun place => ?_, ?_, fun link inside => ?_, ?_⟩
    · rw [cutIf, SymbolTable.type?_modifyType]
      have before := cuts.interfaces place
      by_cases same : id = place
      · subst same
        have cut := congrArg (Option.map (List.filter (· ≠ other))) before
        rw [Option.map_map, Option.map_map] at cut
        rw [if_pos rfl, Option.map_map]
        refine cut.trans (Option.map_congr fun type _ => ?_)
        simp [List.filter_filter, and_comm]
      · rw [if_neg same]
        refine before.trans (Option.map_congr fun type _ => ?_)
        simp [Ne.symm same]
    · exact nodup_append_singleton cuts.nodup fresh
    · rcases List.mem_append.mp inside with earlier | last
      · exact cuts.cyclic link earlier
      · obtain rfl := List.mem_singleton.mp last
        exact ⟨listed, isInterface, lists, back⟩
    · have report : (state.cutIf (.ok true) .circularInterface id other fun type =>
          { type with interfaces := type.interfaces.filter (· ≠ other) }).diagnostics =
            state.diagnostics ++ [state.table.linkReport .circularInterface (id, other)] := rfl
      rw [report, List.filter_append, cuts.reported, keeps.trims.linkReport, List.map_append]
      rfl
  · left
    simp only [missed]
    exact cuts

/-- The entries of the list of an interface are taken out one by one. As no entry is listed
twice, none is taken out twice. -/
theorem CutsEntries.foldl_cutInterface (closed : declared.Closed)
    (keeps : state.Keeps declared ids) (cuts : state.CutsEntries declared ids links)
    (listed : id ∈ ids)
    (isInterface : ∃ type, declared.type? id = some type ∧ type.isInterface = true)
    {others : List TypeId} (distinct : others.Nodup)
    (each : ∀ other ∈ others, declared.Lists id other ∧ (id, other) ∉ links) :
    ∃ more, (others.foldl (Untangling.cutInterface id) state).CutsEntries declared ids more := by
  induction others generalizing state links with
  | nil => exact ⟨links, cuts⟩
  | cons other others ih =>
    rw [List.nodup_cons] at distinct
    rcases each other List.mem_cons_self with ⟨lists, fresh⟩
    have keepsNext :=
      (cutInterface_spec closed keeps listed (keeps.exists_listed closed lists)).1
    rcases cuts.cutInterface closed keeps listed isInterface lists fresh with same | cut
    · exact ih keepsNext same distinct.2 fun next inside =>
        each next (List.mem_cons_of_mem _ inside)
    · refine ih keepsNext cut distinct.2 fun next inside => ?_
      rcases each next (List.mem_cons_of_mem _ inside) with ⟨listsNext, freshNext⟩
      refine ⟨listsNext, fun earlier => ?_⟩
      rcases List.mem_append.mp earlier with old | last
      · exact freshNext old
      · cases List.mem_singleton.mp last
        exact distinct.1 inside

theorem CutsEntries.cutInterfaces (closed : declared.Closed) (keeps : state.Keeps declared ids)
    (cuts : state.CutsEntries declared ids links) (listed : id ∈ ids)
    (distinct : ∀ type, declared.type? id = some type → type.interfaces.Nodup) :
    ∃ more, (state.cutInterfaces id).CutsEntries declared ids more := by
  unfold Untangling.cutInterfaces
  cases found : state.table.type? id with
  | none => exact ⟨links, cuts⟩
  | some type =>
    simp only
    split
    · rename_i isInterface
      rcases keeps.trims.type?_of_after found with ⟨original, foundBefore, trimmed⟩
      have left := cuts.interfaces id
      rw [found, foundBefore] at left
      have entries : type.interfaces =
          original.interfaces.filter fun other => (id, other) ∉ links := Option.some.inj left
      refine cuts.foldl_cutInterface closed keeps listed ⟨original, foundBefore, ?_⟩ ?_ ?_
      · rw [trimmed.rest] at isInterface
        exact isInterface
      · exact (distinct original foundBefore).sublist trimmed.interfaces
      · intro other inside
        rw [entries, List.mem_filter, decide_eq_true_iff] at inside
        exact ⟨⟨original, foundBefore, inside.1⟩, inside.2⟩
    · exact ⟨links, cuts⟩

end Untangling

namespace SymbolTable

/-- Breaking cycles takes entries out of interface lists, all of them on cycles, and reports
each of them once. -/
theorem Closed.breakCycles_cutsEntries {declared : SymbolTable} (closed : declared.Closed)
    {types : List TypeId} (distinct : ∀ id ∈ types, ∀ type, declared.type? id = some type →
      type.interfaces.Nodup) :
    ∃ links, (declared.breakCycles types).CutsEntries declared types links := by
  have start : Untangling.Keeps declared types { table := declared } :=
    ⟨rfl, .refl declared, fun _ _ => rfl⟩
  have none : Untangling.CutsEntries declared types { table := declared } [] :=
    ⟨fun _ => by simp, .nil, nofun, rfl⟩
  have bases : (types.foldl Untangling.cutBase { table := declared }).CutsEntries declared types
      [] :=
    List.foldlRecOn types Untangling.cutBase
      (motive := fun state : Untangling => state.CutsEntries declared types []) none
      fun state cuts id _ => cuts.cutBase id
  have keepsBases := (Untangling.foldl_cutBase_spec closed start fun _ inside => inside).1
  have lists := List.foldlRecOn types Untangling.cutInterfaces
    (motive := fun state : Untangling => state.Keeps declared types ∧
      ∃ links, state.CutsEntries declared types links) ⟨keepsBases, [], bases⟩
    fun state spec id listed => by
      rcases spec with ⟨keeps, links, cuts⟩
      exact ⟨(Untangling.cutInterfaces_spec closed keeps listed).1,
        cuts.cutInterfaces closed keeps listed (distinct id listed)⟩
  exact lists.2

/-! ## Interface lists after binding -/

variable {table : SymbolTable} {decl : AssemblyDecl} {references : List AssemblyId}
  {mode : BindMode} {id other : TypeId}

theorem SameButMembers.map_interfaces {before after : SymbolTable}
    (same : before.SameButMembers after) (id : TypeId) :
    (after.type? id).map TypeSymbol.interfaces = (before.type? id).map TypeSymbol.interfaces :=
  map_eq_map_of_rel (same.types id) fun _ _ rest => by rw [rest]

/-- A type that was there lists types that were there. -/
theorem Closed.lists_inheriting (closed : table.Closed) {type : TypeSymbol}
    (found : table.type? id = some type)
    (lists : (table.inheriting decl references mode).Lists id other) :
    table.Lists id other ∧ ∃ symbol, table.type? other = some symbol := by
  rcases lists with ⟨symbol, foundAfter, listed⟩
  cases foundAfter.symm.trans (type?_inheriting_of_some found)
  exact ⟨⟨type, found, listed⟩, closed.interface found listed⟩

/-- Breaking cycles leaves no interface that comes back to itself. -/
theorem Closed.acyclicInterfaces_bind (closed : table.Closed) (acyclic : table.AcyclicInterfaces) :
    (table.bind decl references mode).table.AcyclicInterfaces := by
  have keeps : (table.untangling decl references mode).Keeps (table.inheriting decl references mode)
    (typeIds table.types.size decl.types.length) := closed.untangling_keeps
  have same : (table.untangling decl references mode).table.SameButMembers
    (table.targeting decl references mode) := closed.sameButMembers_targeting
  rw [bind_eq keeps.fault]
  intro id last foundLast isInterface path
  rcases same.type?_of_after foundLast with ⟨type, found, members⟩
  rcases keeps.trims.type?_of_after found with ⟨original, foundBefore, trimmed⟩
  have lists {id other : TypeId} (link : (table.targeting decl references mode).Lists id other) :
      (table.untangling decl references mode).table.Lists id other := by
    rcases link with ⟨symbol, foundAfter, listed⟩
    rcases same.type?_of_after foundAfter with ⟨before, foundNow, rest⟩
    rw [rest] at listed
    exact ⟨before, foundNow, listed⟩
  have round : Relation.TransGen (table.untangling decl references mode).table.Lists id id :=
    Relation.TransGen.mono (fun _ _ link => lists link) _ _ path
  rw [members] at isInterface
  rcases type?_inheriting_cases foundBefore with old | ⟨position, typeDecl, listed, rfl, _⟩
  · have declared : Relation.TransGen (table.inheriting decl references mode).Lists id id :=
      Relation.TransGen.mono (fun _ _ link => keeps.trims.lists link) _ _ round
    have start : original.isInterface = true := by
      rw [trimmed.rest] at isInterface
      exact isInterface
    exact acyclic old start (walk_inheriting Lists closed.lists_inheriting ⟨original, old⟩ declared)
  · rcases List.getElem?_eq_some_iff.mp listed with ⟨inside, _⟩
    have new : (⟨table.types.size + position⟩ : TypeId) ∈
        typeIds table.types.size decl.types.length := add_mem_typeIds inside
    have free : (table.untangling decl references mode).table.ListFree
        ⟨table.types.size + position⟩ :=
      ((breakCycles_untangled closed.inheriting _).2 _ new).interfaces
    rcases Relation.TransGen.head'_iff.mp round with ⟨other, ⟨symbol, foundNow, entry⟩, back⟩
    cases found.symm.trans foundNow
    exact free type found isInterface other entry back

/-! ### Names of entries -/

/-- What a declared type lists is what its name means. -/
theorem seen_of_lists (new : table.type? id = none)
    (lists : (table.inheriting decl references mode).Lists id other) :
    (table.declaring decl references mode).typeSeenFrom? table.nextAssembly
      ((table.inheriting decl references mode).displayType other) = some other := by
  rcases lists with ⟨type, found, listed⟩
  rcases type?_inheriting_cases found with old | ⟨position, typeDecl, _, rfl, rfl⟩
  · rw [new] at old
    cases old
  · rcases (typeDecl.bindHeritage_named _).interfaces listed with ⟨name, symbol, resolved, _⟩
    rcases resolve?_some resolved with ⟨seen, foundSymbol, rfl⟩
    rcases sameButLinks_inheriting.type? foundSymbol with ⟨image, foundImage, rest⟩
    rw [displayType, foundImage, rest]
    exact seen

/-- On a cycle through a declared type, its name means the type itself. -/
theorem Closed.seen_of_cycle (closed : table.Closed) (new : table.type? id = none)
    (cycle : Relation.TransGen (table.inheriting decl references mode).Lists id id) :
    (table.declaring decl references mode).typeSeenFrom? table.nextAssembly
      ((table.inheriting decl references mode).displayType id) = some id := by
  rcases Relation.TransGen.tail'_iff.mp cycle with ⟨before, _, last⟩
  cases old : table.type? before with
  | none => exact seen_of_lists old last
  | some type =>
    rcases (closed.lists_inheriting old last).2 with ⟨symbol, found⟩
    rw [new] at found
    cases found

/-- A declared type lists another one that comes back to it. -/
structure ClosesCycle (table : SymbolTable) (decl : AssemblyDecl) (references : List AssemblyId)
    (mode : BindMode) (link : TypeId × TypeId) : Prop where
  new : table.type? link.1 = none
  lists : (table.inheriting decl references mode).Lists link.1 link.2
  back : Relation.ReflTransGen (table.inheriting decl references mode).Lists link.2 link.1

/-- A name means one type, so no two entries on cycles have the same names. -/
theorem Closed.eq_of_linkNames (closed : table.Closed) {first second : TypeId × TypeId}
    (one : table.ClosesCycle decl references mode first)
    (two : table.ClosesCycle decl references mode second)
    (same : (table.inheriting decl references mode).linkNames first =
      (table.inheriting decl references mode).linkNames second) : first = second := by
  simp only [linkNames, List.cons.injEq, Argument.type.injEq, and_true] at same
  have owner := closed.seen_of_cycle one.new (.head' one.lists one.back)
  have entry := seen_of_lists one.new one.lists
  rw [same.1, closed.seen_of_cycle two.new (.head' two.lists two.back)] at owner
  rw [same.2, seen_of_lists two.new two.lists] at entry
  exact Prod.ext (Option.some.inj owner.symm) (Option.some.inj entry.symm)

/-- Of the reports on links with different names, one names each. -/
theorem countP_linkReport {links : List (TypeId × TypeId)} (nodup : links.Nodup)
    (named : ∀ first ∈ links, ∀ second ∈ links,
      table.linkNames first = table.linkNames second → first = second)
    {link : TypeId × TypeId} (inside : link ∈ links) (rule : Rule) :
    (links.map (table.linkReport rule)).countP
      (fun diagnostic => diagnostic.arguments = table.linkNames link) = 1 := by
  rw [List.countP_map, ← List.count_eq_one_of_mem nodup inside]
  refine List.countP_congr fun other listed => ?_
  show decide (table.linkNames other = table.linkNames link) = true ↔ _
  rw [decide_eq_true_iff, beq_iff_eq]
  exact ⟨named other listed link inside, congrArg _⟩

/-- What binding makes of the declared interface lists: it comes to an end without fault, and
takes out the entries of a list of links and no others, so that those that stay keep their
order. Each entry taken out is one of an interface and lies on a cycle, so the lists of classes
and structs are as declared. Source is told of these entries only, and of each of them once. -/
structure CutEntries (declared : SymbolTable) (mode : BindMode) (binding : Binding) : Prop where
  fault : binding.fault? = none
  cut : ∃ links : List (TypeId × TypeId),
    (∀ id, (binding.table.type? id).map TypeSymbol.interfaces =
      (declared.type? id).map fun type => type.interfaces.filter fun other => (id, other) ∉ links) ∧
    (∀ link ∈ links, (∃ type, declared.type? link.1 = some type ∧ type.isInterface = true) ∧
      declared.Lists link.1 link.2 ∧ Relation.ReflTransGen declared.Lists link.2 link.1) ∧
    binding.diagnostics.filter (fun diagnostic => diagnostic.Breaks [.circularInterface]) =
      mode.reported (links.map (declared.linkReport .circularInterface)) ∧
    (mode.isMetadata = false → ∀ link ∈ links, binding.diagnostics.countP (fun diagnostic =>
      diagnostic.Breaks [.circularInterface] ∧ diagnostic.arguments = declared.linkNames link) = 1)
  others : ∀ {id type}, declared.type? id = some type → type.isInterface = false →
    (binding.table.type? id).map TypeSymbol.interfaces = some type.interfaces

/-- Binding takes out entries of interface lists that are on cycles, and no others. -/
theorem Closed.cutEntries (closed : table.Closed) (decl : AssemblyDecl)
    (references : List AssemblyId) (mode : BindMode) :
    CutEntries (table.inheriting decl references mode) mode (table.bind decl references mode) := by
  have noFault : (table.untangling decl references mode).fault? = none :=
    closed.untangling_keeps.fault
  have old {id : TypeId} (listed : id ∈ typeIds table.types.size decl.types.length) :
      table.type? id = none := type?_eq_none.mpr (mem_typeIds.mp listed).1
  have distinct : ∀ id ∈ typeIds table.types.size decl.types.length, ∀ type,
      (table.inheriting decl references mode).type? id = some type → type.interfaces.Nodup := by
    intro id listed type found
    rcases type?_inheriting_cases found with earlier | ⟨_, typeDecl, _, _, rfl⟩
    · rw [old listed] at earlier
      cases earlier
    · exact (typeDecl.bindHeritage_named _).nodup
  rcases closed.inheriting.breakCycles_cutsEntries distinct with ⟨links, cuts⟩
  have same : (table.untangling decl references mode).table.SameButMembers
    (table.targeting decl references mode) := closed.sameButMembers_targeting
  have interfaces (id : TypeId) : ((table.bind decl references mode).table.type? id).map
      TypeSymbol.interfaces = ((table.inheriting decl references mode).type? id).map fun type =>
        type.interfaces.filter fun other => (id, other) ∉ links := by
    rw [bind_eq noFault]
    exact (same.map_interfaces id).trans (cuts.interfaces id)
  have reported : (table.bind decl references mode).diagnostics.filter
      (fun diagnostic => diagnostic.Breaks [.circularInterface]) = mode.reported
        (links.map ((table.inheriting decl references mode).linkReport .circularInterface)) := by
    rw [filter_cycles_bind noFault (by decide)]
    exact congrArg mode.reported cuts.reported
  refine ⟨?_, ⟨links, interfaces, fun link inside => (cuts.cyclic link inside).2, reported, ?_⟩, ?_⟩
  · rw [bind_eq noFault]
  · intro source link inside
    have closes (link : TypeId × TypeId) (inside : link ∈ links) :
        table.ClosesCycle decl references mode link := by
      rcases cuts.cyclic link inside with ⟨listed, _, lists, back⟩
      exact ⟨old listed, lists, back⟩
    have once := countP_linkReport cuts.nodup (fun first inFirst second inSecond =>
      closed.eq_of_linkNames (closes first inFirst) (closes second inSecond)) inside
        .circularInterface
    rw [BindMode.reported, source, if_neg Bool.false_ne_true] at reported
    rw [← reported, List.countP_filter] at once
    rw [← once]
    refine List.countP_congr fun diagnostic _ => ?_
    simp only [decide_eq_true_iff, Bool.and_eq_true]
    exact and_comm
  · intro id type found noInterface
    rw [interfaces, found, Option.map_some, List.filter_eq_self.mpr]
    intro other _
    refine decide_eq_true fun inside => ?_
    rcases (cuts.cyclic _ inside).2.1 with ⟨symbol, foundSymbol, isInterface⟩
    cases found.symm.trans foundSymbol
    rw [noInterface] at isInterface
    cases isInterface

/-- If no interface came back to itself before an assembly is bound, none does afterwards.
Only entries on declared cycles are taken out. -/
theorem Closed.interfaceCycles_broken (closed : table.Closed) (acyclic : table.AcyclicInterfaces)
    (decl : AssemblyDecl) (references : List AssemblyId) (mode : BindMode) :
    (table.bind decl references mode).table.AcyclicInterfaces ∧
      CutEntries (table.inheriting decl references mode) mode (table.bind decl references mode) :=
  ⟨closed.acyclicInterfaces_bind acyclic, closed.cutEntries decl references mode⟩

theorem acyclicInterfaces_empty : (∅ : SymbolTable).AcyclicInterfaces := by
  intro id type found
  cases found

end SymbolTable

/-- A compiled interface on no cycle. -/
def cleats : AssemblyDecl where
  name := "Cleats"
  types := [{ name := "ICleat", kind := .interfaceType }]

/-- Interfaces on overlapping cycles. -/
def knots : AssemblyDecl where
  name := "Knots"
  references := ["Cleats"]
  types := [
    { name := "IBow", kind := .interfaceType, interfaces := ["ICleat", "ILoop", "IHitch"] },
    { name := "ILoop", kind := .interfaceType, interfaces := ["IHitch", "IBow"] },
    { name := "IHitch", kind := .interfaceType, interfaces := ["IBow", "ICleat"] },
    { name := "Rope", kind := .classType, interfaces := ["IBow"] }]

namespace SymbolTable

/-- The first of the knots leads into both cycles: it loses two entries, and then no cycle
is left to break. -/
theorem knots_broken :
    let docked := ((∅ : SymbolTable).bind cleats [] .metadata).table
    let tied := docked.bind knots [⟨0⟩] (.source .latest)
    docked.Closed ∧ docked.AcyclicInterfaces ∧ tied.table.AcyclicInterfaces ∧
      CutEntries (docked.inheriting knots [⟨0⟩] (.source .latest)) (.source .latest) tied ∧
      tied.table.types.toList.map TypeSymbol.interfaces =
        [[], [⟨0⟩], [⟨3⟩, ⟨1⟩], [⟨1⟩, ⟨0⟩], [⟨1⟩]] ∧
      tied.diagnostics.map Diagnostic.arguments = [[.type "IBow", .type "ILoop"],
        [.type "IBow", .type "IHitch"]] := by
  have closed : ((∅ : SymbolTable).bind cleats [] .metadata).table.Closed :=
    (Made.empty.bind cleats [] .metadata).wellFormed.closed
  rcases wellFormed_empty.closed.interfaceCycles_broken acyclicInterfaces_empty cleats []
    .metadata with ⟨acyclic, _⟩
  rcases closed.interfaceCycles_broken acyclic knots [⟨0⟩] (.source .latest) with ⟨broken, cut⟩
  exact ⟨closed, acyclic, broken, cut, by decide +kernel, by decide +kernel⟩

end SymbolTable

end Conformance
