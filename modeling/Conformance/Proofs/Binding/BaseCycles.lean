import Conformance.Proofs.Binding.Bound
import Conformance.Proofs.Binding.Reports

/-!
Base types after cycles are broken.

The walk that looks for a cycle of base types is limited, so it finds the cycles that
are no longer than its limit. If all declared cycles are, none is left
(`SymbolTable.Closed.acyclicBases_bind`). However long they are, only links on a cycle
are taken out, and each of these is reported once (`SymbolTable.Closed.cutBases`).
-/

namespace Conformance

namespace SymbolTable

/-! ## Walks of a given length -/

/-- The type that a number of links to base types lead to. -/
def baseAfter (table : SymbolTable) : Nat → TypeId → Option TypeId
  | 0, id => some id
  | count + 1, id => ((table.type? id).bind TypeSymbol.base).bind (table.baseAfter count)

/-- No type comes back to itself along base types. -/
def AcyclicBases (table : SymbolTable) : Prop :=
  ∀ id, ¬ Relation.TransGen table.Bases id id

/-- A type that comes back to itself along base types does so after a bounded number
of links. -/
def BaseCyclesWithin (table : SymbolTable) (bound : Nat) : Prop :=
  ∀ id, Relation.TransGen table.Bases id id →
    ∃ count, 0 < count ∧ count ≤ bound ∧ table.baseAfter count id = some id

variable {table before after : SymbolTable} {id other target : TypeId} {count : Nat}

theorem bases_iff : table.Bases id other ↔ (table.type? id).bind TypeSymbol.base = some other :=
  Option.bind_eq_some_iff.symm

theorem Bases.unique {first second : TypeId} (one : table.Bases id first)
    (two : table.Bases id second) : first = second :=
  Option.some.inj ((bases_iff.mp one).symm.trans (bases_iff.mp two))

theorem baseAfter_succ : table.baseAfter (count + 1) id = some target ↔
    ∃ other, table.Bases id other ∧ table.baseAfter count other = some target := by
  simp only [baseAfter, Option.bind_eq_some_iff, bases_iff]

theorem reflTransGen_of_baseAfter (walk : table.baseAfter count id = some target) :
    Relation.ReflTransGen table.Bases id target := by
  induction count generalizing id with
  | zero =>
    cases walk
    exact .refl
  | succ count ih =>
    rcases baseAfter_succ.mp walk with ⟨other, step, rest⟩
    exact .head step (ih rest)

theorem transGen_of_baseAfter (walk : table.baseAfter (count + 1) id = some target) :
    Relation.TransGen table.Bases id target := by
  rcases baseAfter_succ.mp walk with ⟨other, step, rest⟩
  exact .head' step (reflTransGen_of_baseAfter rest)

theorem exists_baseAfter (path : Relation.TransGen table.Bases id target) :
    ∃ count, table.baseAfter (count + 1) id = some target := by
  induction path using Relation.TransGen.head_induction_on with
  | single step => exact ⟨0, baseAfter_succ.mpr ⟨_, step, rfl⟩⟩
  | head step _ ih =>
    rcases ih with ⟨count, rest⟩
    exact ⟨count + 1, baseAfter_succ.mpr ⟨_, step, rest⟩⟩

/-- A walk in a table with fewer links is a walk. -/
theorem baseAfter_mono (fewer : ∀ {id other}, after.Bases id other → before.Bases id other)
    (walk : after.baseAfter count id = some target) :
    before.baseAfter count id = some target := by
  induction count generalizing id with
  | zero => exact walk
  | succ count ih =>
    rcases baseAfter_succ.mp walk with ⟨other, step, rest⟩
    exact baseAfter_succ.mpr ⟨other, fewer step, ih rest⟩

/-- A walk passes a type after every smaller number of links. -/
theorem exists_baseAfter_of_le {fewer : Nat} (shorter : fewer ≤ count)
    (walk : table.baseAfter count id = some target) :
    ∃ passed, table.baseAfter fewer id = some passed := by
  induction count generalizing id fewer with
  | zero =>
    obtain rfl := Nat.le_zero.mp shorter
    exact ⟨id, rfl⟩
  | succ count ih =>
    cases fewer with
    | zero => exact ⟨id, rfl⟩
    | succ fewer =>
      rcases baseAfter_succ.mp walk with ⟨other, step, rest⟩
      rcases ih (Nat.le_of_succ_le_succ shorter) rest with ⟨passed, start⟩
      exact ⟨passed, baseAfter_succ.mpr ⟨other, step, start⟩⟩

/-- The limited walk comes to what is in reach within the limit. -/
theorem basesReach_iff {steps : Nat} : table.basesReach target steps id = .ok true ↔
    ∃ count ≤ steps, table.baseAfter count id = some target := by
  induction steps generalizing id with
  | zero =>
    unfold basesReach
    constructor
    · intro hit
      split at hit
      · rename_i same
        exact ⟨0, Nat.le_refl 0, congrArg some same⟩
      · cases hit
    · intro within
      rcases within with ⟨count, bound, walk⟩
      obtain rfl := Nat.le_zero.mp bound
      rw [if_pos (Option.some.inj walk)]
  | succ steps ih =>
    unfold basesReach
    by_cases same : id = target
    · rw [if_pos same]
      exact ⟨fun _ => ⟨0, Nat.zero_le _, congrArg some same⟩, fun _ => rfl⟩
    · rw [if_neg same]
      constructor
      · intro hit
        cases found : table.type? id with
        | none =>
          rw [found] at hit
          cases hit
        | some type =>
          cases base : type.base with
          | none =>
            simp only [found, base] at hit
            cases hit
          | some next =>
            simp only [found, base] at hit
            rcases ih.mp hit with ⟨count, bound, walk⟩
            exact ⟨count + 1, Nat.succ_le_succ bound,
              baseAfter_succ.mpr ⟨next, ⟨type, found, base⟩, walk⟩⟩
      · intro within
        rcases within with ⟨count, bound, walk⟩
        cases count with
        | zero => exact absurd (Option.some.inj walk) same
        | succ count =>
          rcases baseAfter_succ.mp walk with ⟨next, ⟨type, found, base⟩, rest⟩
          simp only [found, base]
          exact ih.mpr ⟨count, Nat.le_of_succ_le_succ bound, rest⟩

/-- If links were only taken out, and no cycle was longer than the limited walk, then a
type that this walk does not come back to is on no cycle. -/
theorem BaseFree.not_transGen (free : after.BaseFree id)
    (fewer : ∀ {id other}, after.Bases id other → before.Bases id other)
    (within : before.BaseCyclesWithin (maxDepth + 1)) :
    ¬ Relation.TransGen after.Bases id id := by
  intro path
  have short : ∃ count ≤ maxDepth, after.baseAfter (count + 1) id = some id := by
    rcases exists_baseAfter path with ⟨long, walk⟩
    rcases within id (Relation.TransGen.mono (fun _ _ step => fewer step) _ _ path) with
      ⟨length, positive, bound, round⟩
    by_cases fits : long ≤ maxDepth
    · exact ⟨long, fits, walk⟩
    · -- The walk passes the type that the shorter one comes to: the same type.
      rcases exists_baseAfter_of_le (by omega : length ≤ long + 1) walk with ⟨passed, start⟩
      cases round.symm.trans (baseAfter_mono fewer start)
      refine ⟨length - 1, by omega, ?_⟩
      rw [Nat.sub_add_cancel positive]
      exact start
  rcases short with ⟨count, bound, walk⟩
  rcases baseAfter_succ.mp walk with ⟨base, ⟨type, found, known⟩, rest⟩
  have missed := free type base found known
  rw [basesReach_iff.mpr ⟨count, bound, rest⟩] at missed
  cases missed

theorem Trims.bases (trims : before.Trims after) (bases : after.Bases id other) :
    before.Bases id other := by
  rcases bases with ⟨type, found, known⟩
  rcases trims.type?_of_after found with ⟨original, foundBefore, trimmed⟩
  rcases trimmed.base with none | same
  · rw [none] at known
    cases known
  · exact ⟨original, foundBefore, same ▸ known⟩

theorem SameButMembers.bases_iff (same : before.SameButMembers after) :
    after.Bases id other ↔ before.Bases id other := by
  constructor
  · intro ⟨type, found, known⟩
    rcases same.type?_of_after found with ⟨original, foundBefore, rest⟩
    rw [rest] at known
    exact ⟨original, foundBefore, known⟩
  · intro ⟨type, found, known⟩
    rcases same.type? found with ⟨image, foundAfter, rest⟩
    refine ⟨image, foundAfter, ?_⟩
    rw [rest]
    exact known

/-! ## Links that are taken out -/

/-- The diagnostic for a link that is taken out. -/
def linkReport (table : SymbolTable) (rule : Rule) (link : TypeId × TypeId) : Diagnostic :=
  .breach rule (((table.type? link.1).map TypeSymbol.interfaceListSpan).getD .unknown)
    [.type (table.displayType link.1), .type (table.displayType link.2)]

/-- The diagnostic for a link to a base type that is on a cycle. -/
def circularBase (table : SymbolTable) (link : TypeId × TypeId) : Diagnostic :=
  table.linkReport .circularBase link

theorem Trims.map_type? (trims : before.Trims after) {α : Type} {f : TypeSymbol → α}
    (kept : ∀ {type other}, TypeSymbol.Trimmed type other → f other = f type) (id : TypeId) :
    (after.type? id).map f = (before.type? id).map f :=
  map_eq_map_of_rel (trims.types id) fun _ _ => kept

theorem Trims.displayType (trims : before.Trims after) (id : TypeId) :
    after.displayType id = before.displayType id := by
  have names : (after.type? id).map TypeSymbol.name = _ :=
    trims.map_type? (fun cut => by rw [cut.rest]) id
  rw [SymbolTable.displayType, SymbolTable.displayType, names]

/-- Links are reported alike before and after others are taken out. -/
theorem Trims.linkReport (trims : before.Trims after) (rule : Rule) (link : TypeId × TypeId) :
    after.linkReport rule link = before.linkReport rule link := by
  have spans : (after.type? link.1).map TypeSymbol.interfaceListSpan = _ :=
    trims.map_type? (fun cut => by rw [cut.rest]) link.1
  rw [SymbolTable.linkReport, SymbolTable.linkReport, spans, trims.displayType, trims.displayType]

theorem Trims.circularBase (trims : before.Trims after) (link : TypeId × TypeId) :
    after.circularBase link = before.circularBase link :=
  trims.linkReport .circularBase link

end SymbolTable

/-- In a state of untangling, the links of a list were taken out of the declared ones,
and each was reported. All of them were on cycles. -/
structure Untangling.Cuts (declared : SymbolTable) (state : Untangling)
    (links : List (TypeId × TypeId)) : Prop where
  nodup : links.Nodup
  bases : ∀ id other, state.table.Bases id other ↔
    declared.Bases id other ∧ (id, other) ∉ links
  cyclic : ∀ link ∈ links, declared.Bases link.1 link.2 ∧
    Relation.ReflTransGen declared.Bases link.2 link.1
  reported : state.diagnostics.filter (fun diagnostic => diagnostic.Breaks [.circularBase]) =
    links.map declared.circularBase

namespace SymbolTable

variable {table : SymbolTable} {id start stop : TypeId}

theorem bases_modifyType {f : TypeSymbol → TypeSymbol} (kept : ∀ type, (f type).base = type.base) :
    (table.modifyType id f).Bases start stop ↔ table.Bases start stop := by
  rw [bases_iff, bases_iff, type?_modifyType]
  split
  · cases table.type? start with
    | none => rfl
    | some type => simp [kept]
  · rfl

theorem bases_modifyType_none : (table.modifyType id fun type => { type with base := none }).Bases
    start stop ↔ table.Bases start stop ∧ start ≠ id := by
  rw [bases_iff, bases_iff, type?_modifyType]
  by_cases same : id = start
  · rw [if_pos same]
    cases table.type? start <;> simp [same]
  · rw [if_neg same]
    exact (and_iff_left (Ne.symm same)).symm

end SymbolTable

namespace Untangling

variable {declared : SymbolTable} {ids : List TypeId} {state : Untangling}
  {links : List (TypeId × TypeId)}

theorem Keeps.noFault (keeps : state.Keeps declared ids) : state.fault?.isSome = false := by
  rw [keeps.fault]
  rfl

theorem Cuts.cutBase (closed : declared.Closed) (keeps : state.Keeps declared ids)
    (cuts : state.Cuts declared links) (id : TypeId) :
    ∃ more, (state.cutBase id).Cuts declared more := by
  have closedNow := keeps.trims.closed closed
  unfold Untangling.cutBase
  simp only [keeps.noFault, Bool.false_eq_true, if_false]
  cases known : (state.table.type? id).bind TypeSymbol.base with
  | none => exact ⟨links, cuts⟩
  | some base =>
    rcases Option.bind_eq_some_iff.mp known with ⟨type, found, hasBase⟩
    rcases SymbolTable.basesReach_total closedNow id SymbolTable.maxDepth
      (closedNow.base found hasBase) with ⟨result, answered⟩
    simp only [answered]
    cases result with
    | false => exact ⟨links, cuts⟩
    | true =>
      have link : state.table.Bases id base := ⟨type, found, hasBase⟩
      rcases (cuts.bases id base).mp link with ⟨isDeclared, fresh⟩
      rcases SymbolTable.basesReach_iff.mp answered with ⟨_, _, walk⟩
      have back : Relation.ReflTransGen declared.Bases base id :=
        Relation.ReflTransGen.mono (fun _ _ step => keeps.trims.bases step) _ _
          (SymbolTable.reflTransGen_of_baseAfter walk)
      refine ⟨links ++ [(id, base)], ?_, fun start stop => ?_, fun other listed => ?_, ?_⟩
      · exact nodup_append_singleton cuts.nodup fresh
      · have left : (state.cutIf (.ok true) .circularBase id base fun type =>
            { type with base := none }).table.Bases start stop ↔
              state.table.Bases start stop ∧ start ≠ id := SymbolTable.bases_modifyType_none
        rw [left, cuts.bases, List.mem_append, List.mem_singleton, not_or, Prod.mk.injEq, and_assoc]
        refine and_congr_right fun hasLink => and_congr_right fun _ => ?_
        refine ⟨fun apart same => apart same.1, fun apart same => apart ⟨same, ?_⟩⟩
        exact (same ▸ hasLink).unique isDeclared
      · rcases List.mem_append.mp listed with earlier | last
        · exact cuts.cyclic other earlier
        · obtain rfl := List.mem_singleton.mp last
          exact ⟨isDeclared, back⟩
      · have report : (state.cutIf (.ok true) .circularBase id base fun type =>
            { type with base := none }).diagnostics =
              state.diagnostics ++ [state.table.circularBase (id, base)] := rfl
        rw [report, List.filter_append, cuts.reported, keeps.trims.circularBase, List.map_append]
        rfl

/-- Links between interfaces are another matter. -/
theorem Cuts.cutInterface (cuts : state.Cuts declared links) (id other : TypeId) :
    (state.cutInterface id other).Cuts declared links := by
  unfold Untangling.cutInterface
  split
  · exact cuts
  · unfold cutIf
    split
    · exact ⟨cuts.nodup, cuts.bases, cuts.cyclic, cuts.reported⟩
    · exact cuts
    · refine ⟨cuts.nodup, fun start stop => ?_, cuts.cyclic, ?_⟩
      · have kept : (state.table.modifyType id fun type =>
            { type with interfaces := type.interfaces.filter (· ≠ other) }).Bases start stop ↔
              state.table.Bases start stop := SymbolTable.bases_modifyType fun _ => rfl
        exact kept.trans (cuts.bases start stop)
      · refine (List.filter_append ..).trans ?_
        rw [cuts.reported]
        exact List.append_nil _

theorem Cuts.cutInterfaces (cuts : state.Cuts declared links) (id : TypeId) :
    (state.cutInterfaces id).Cuts declared links := by
  unfold Untangling.cutInterfaces
  cases state.table.type? id with
  | none => exact cuts
  | some type =>
    simp only
    split
    · exact List.foldlRecOn type.interfaces (Untangling.cutInterface id)
        (motive := fun state : Untangling => state.Cuts declared links) cuts
        fun state cuts other _ => cuts.cutInterface id other
    · exact cuts

end Untangling

namespace SymbolTable

/-- Breaking cycles takes links to base types out, all of them on cycles, and reports
each of them once. -/
theorem Closed.breakCycles_cuts {declared : SymbolTable} (closed : declared.Closed)
    (types : List TypeId) : ∃ links, (declared.breakCycles types).Cuts declared links := by
  have start : Untangling.Keeps declared types { table := declared } :=
    ⟨rfl, .refl declared, fun _ _ => rfl⟩
  have none : Untangling.Cuts declared { table := declared } [] :=
    ⟨.nil, fun _ _ => (and_iff_left List.not_mem_nil).symm, nofun, rfl⟩
  have bases : (types.foldl Untangling.cutBase { table := declared }).Keeps declared types ∧
      ∃ links, (types.foldl Untangling.cutBase { table := declared }).Cuts declared links := by
    refine List.foldlRecOn types Untangling.cutBase
      (motive := fun state : Untangling => state.Keeps declared types ∧
        ∃ links, state.Cuts declared links) ⟨start, [], none⟩ fun state spec id listed => ?_
    rcases spec with ⟨keeps, links, cuts⟩
    exact ⟨(Untangling.cutBase_spec closed keeps listed).1, cuts.cutBase closed keeps id⟩
  rcases bases.2 with ⟨links, cuts⟩
  exact ⟨links, List.foldlRecOn types Untangling.cutInterfaces
    (motive := fun state : Untangling => state.Cuts declared links) cuts
    fun state cuts id _ => cuts.cutInterfaces id⟩

/-! ## Base types after binding -/

/-- What binding makes of the declared links to base types: it comes to an end without
fault, and takes out the links of a list and no others. Each of them was on a cycle, and
source is told of each once. -/
structure CutBases (declared : SymbolTable) (mode : BindMode) (binding : Binding) : Prop where
  fault : binding.fault? = none
  cut : ∃ links : List (TypeId × TypeId), links.Nodup ∧
    (∀ id other, binding.table.Bases id other ↔ declared.Bases id other ∧ (id, other) ∉ links) ∧
    (∀ link ∈ links, declared.Bases link.1 link.2 ∧
      Relation.ReflTransGen declared.Bases link.2 link.1) ∧
    binding.diagnostics.filter (fun diagnostic => diagnostic.Breaks [.circularBase]) =
      mode.reported (links.map declared.circularBase)

variable {table : SymbolTable} {decl : AssemblyDecl} {references : List AssemblyId}
  {mode : BindMode}

/-- What is reported of cycles is reported while they are broken. -/
theorem filter_cycles_bind (noFault : (table.untangling decl references mode).fault? = none)
    {rule : Rule} (ofCycles : rule ∈ Rule.ofCycles) :
    (table.bind decl references mode).diagnostics.filter
        (fun diagnostic => diagnostic.Breaks [rule]) =
      mode.reported ((table.untangling decl references mode).diagnostics.filter
        fun diagnostic => diagnostic.Breaks [rule]) := by
  have apart : ∀ rules ∈ [Rule.ofHeritage, Rule.ofMembers, Rule.ofTargets], ∀ rule ∈ Rule.ofCycles,
      ∀ first ∈ rules, ∀ other ∈ [rule], first.code ≠ other.code := by decide
  have heritage := table.heritages_report decl references mode
  have members := table.populating_report decl references mode
  have targets := targets_report (table.populating decl references mode).1 table.nextAssembly
    (typeIds table.types.size decl.types.length)
  rw [bind_eq noFault]
  cases mode with
  | metadata => rfl
  | source version =>
    show List.filter _ (_ ++ _ ++ _ ++ _) = _
    rw [List.filter_append, List.filter_append, List.filter_append,
      heritage.filter_others (apart _ (by decide) rule ofCycles),
      members.filter_others (apart _ (by decide) rule ofCycles),
      targets.filter_others (apart _ (by decide) rule ofCycles), List.nil_append, List.append_nil,
      List.append_nil]
    rfl

/-- A walk along declared links from a type that was there is a walk along its own. -/
theorem walk_inheriting (links : SymbolTable → TypeId → TypeId → Prop)
    (kept : ∀ {id type other}, table.type? id = some type →
      links (table.inheriting decl references mode) id other →
        links table id other ∧ ∃ symbol, table.type? other = some symbol)
    {id other : TypeId} (old : ∃ type, table.type? id = some type)
    (path : Relation.TransGen (links (table.inheriting decl references mode)) id other) :
    Relation.TransGen (links table) id other := by
  induction path using Relation.TransGen.head_induction_on with
  | single link =>
    rcases old with ⟨type, found⟩
    exact .single (kept found link).1
  | head link _ ih =>
    rcases old with ⟨type, found⟩
    rcases kept found link with ⟨first, next⟩
    exact .head first (ih next)

/-- Types that were there do not come back to themselves through declared ones. -/
theorem Closed.transGen_inheriting (closed : table.Closed) {id other : TypeId}
    (old : ∃ type, table.type? id = some type)
    (path : Relation.TransGen (table.inheriting decl references mode).Bases id other) :
    Relation.TransGen table.Bases id other := by
  refine walk_inheriting Bases ?_ old path
  intro id type other found link
  rcases link with ⟨symbol, foundAfter, known⟩
  cases foundAfter.symm.trans (type?_inheriting_of_some found)
  exact ⟨⟨type, found, known⟩, closed.base found known⟩

theorem Closed.bases_bind (closed : table.Closed) {id other : TypeId} :
    (table.bind decl references mode).table.Bases id other ↔
      (table.untangling decl references mode).table.Bases id other := by
  have noFault : (table.untangling decl references mode).fault? = none :=
    closed.untangling_keeps.fault
  rw [bind_eq noFault]
  exact closed.sameButMembers_targeting.bases_iff

/-- Binding takes out links to base types that are on cycles, and no others. -/
theorem Closed.cutBases (closed : table.Closed) (decl : AssemblyDecl)
    (references : List AssemblyId) (mode : BindMode) :
    CutBases (table.inheriting decl references mode) mode (table.bind decl references mode) := by
  have noFault : (table.untangling decl references mode).fault? = none :=
    closed.untangling_keeps.fault
  rcases closed.inheriting.breakCycles_cuts (typeIds table.types.size decl.types.length) with
    ⟨links, cuts⟩
  refine ⟨?_, links, cuts.nodup, fun id other => closed.bases_bind.trans (cuts.bases id other),
    cuts.cyclic, ?_⟩
  · rw [bind_eq noFault]
  · rw [filter_cycles_bind noFault (by decide)]
    exact congrArg mode.reported cuts.reported

/-- If no declared cycle is longer than the limited walk, binding leaves none. -/
theorem Closed.acyclicBases_bind (closed : table.Closed) (acyclic : table.AcyclicBases)
    (within : (table.inheriting decl references mode).BaseCyclesWithin (maxDepth + 1)) :
    (table.bind decl references mode).table.AcyclicBases := by
  have keeps : (table.untangling decl references mode).Keeps (table.inheriting decl references mode)
    (typeIds table.types.size decl.types.length) := closed.untangling_keeps
  intro id path
  have round : Relation.TransGen (table.untangling decl references mode).table.Bases id id :=
    Relation.TransGen.mono (fun _ _ link => closed.bases_bind.mp link) _ _ path
  have declared : Relation.TransGen (table.inheriting decl references mode).Bases id id :=
    Relation.TransGen.mono (fun _ _ link => keeps.trims.bases link) _ _ round
  rcases Relation.TransGen.head'_iff.mp declared with ⟨_, ⟨type, found, _⟩, _⟩
  rcases type?_inheriting_cases found with old | ⟨position, typeDecl, listed, rfl, _⟩
  · exact acyclic id (closed.transGen_inheriting ⟨type, old⟩ declared)
  · rcases List.getElem?_eq_some_iff.mp listed with ⟨inside, _⟩
    have new : (⟨table.types.size + position⟩ : TypeId) ∈
        typeIds table.types.size decl.types.length := add_mem_typeIds inside
    have free : (table.untangling decl references mode).table.BaseFree _ :=
      ((breakCycles_untangled closed.inheriting _).2 _ new).base
    exact free.not_transGen (fun link => keeps.trims.bases link) within round

end SymbolTable

end Conformance
