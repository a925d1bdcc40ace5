import Conformance.Proofs.Resolution.Closure
import Conformance.Proofs.Resolution.Direct
import Conformance.Proofs.Resolution.Session

/-!
The rule of resolution over plain lists of members.

`SymbolTable.plainResolution` says what implements a member in terms of what
types declare and of which interfaces can be reached: no tables of levels, no
interface lists and no memory take part. On short paths, the resolver answers by
this rule, whatever it was asked before
(`SymbolTable.Session.resolve_eq_plainResolution`).
-/

namespace Conformance

/-- Whether a member can implement one with its signature. -/
def MemberSymbol.fits (member : MemberSymbol) : Bool :=
  member.isPublic && !member.modifiers.isStatic

/-- Why a member cannot implement one with its signature. -/
def MemberSymbol.unfitReason (member : MemberSymbol) : MismatchReason :=
  if member.modifiers.isStatic then .static else .notPublic

/-- Whether members of a shape share their names with those of other shapes. -/
def MemberShape.sharesNames : MemberShape → Bool
  | method | property | event => true
  | indexer | accessor _ => false

namespace SymbolTable

/-- A type and its base types up to one without base. -/
inductive BaseChain (table : SymbolTable) : TypeId → List TypeId → Prop where
  | top {id : TypeId} {type : TypeSymbol} (found : table.type? id = some type)
    (noBase : type.base = none) : BaseChain table id [id]
  | derived {id base : TypeId} {type : TypeSymbol} {chain : List TypeId}
    (found : table.type? id = some type) (hasBase : type.base = some base)
    (rest : BaseChain table base chain) : BaseChain table id (id :: chain)

/-- The members that a type declares, in their order. -/
def declaredMembers (table : SymbolTable) (id : TypeId) : List (MemberId × MemberSymbol) :=
  ((table.type? id).map table.membersOf).getD []

/-- The last member of a type that is bound to an interface member. -/
def boundMember? (table : SymbolTable) (level interface : TypeId) (id : MemberId) :
    Option MemberId :=
  (((table.declaredMembers level).filter fun entry =>
    entry.2.isBoundTo interface id).getLast?).map Prod.fst

/-- Whether a type declares a member of another kind under the name of a member. -/
def hidesName (table : SymbolTable) (level : TypeId) (member : MemberSymbol) : Bool :=
  (table.declaredMembers level).any fun entry =>
    !entry.2.isExplicit && decide (entry.2.name = member.name) &&
      (MemberShape.ofKind entry.2.kind).sharesNames && (MemberShape.ofKind member.kind).sharesNames &&
      decide (MemberShape.ofKind entry.2.kind ≠ MemberShape.ofKind member.kind)

/-- The types of a chain up to the first one that hides the name of a member. -/
def visibleLevels (table : SymbolTable) (member : MemberSymbol) : List TypeId → List TypeId
  | [] => []
  | level :: rest =>
    if table.hidesName level member then [level]
    else level :: table.visibleLevels member rest

/-- The members with the signature of a member that name no interface, the most
derived one first. -/
def signatureMatches (table : SymbolTable) (member : MemberSymbol) (levels : List TypeId) :
    List (MemberId × MemberSymbol) :=
  levels.flatMap fun level => (table.declaredMembers level).filter fun entry =>
    !entry.2.isExplicit && entry.2.matchesSignature member

/-- The first member that fits, and the first of those before it. -/
def firstFitting (candidates : List (MemberId × MemberSymbol)) : Resolution where
  implementation := (candidates.find? fun entry => entry.2.fits).map fun entry =>
    ⟨entry.1, .implicit⟩
  closeMismatch := (candidates.takeWhile fun entry => !entry.2.fits).head?.map fun entry =>
    ⟨entry.1, entry.2.unfitReason⟩

/-- What implements a member that is no accessor for a type with the given base
chain, given which types implement the interface of the member. -/
def plainResolution (table : SymbolTable) (implements : TypeId → Prop) [DecidablePred implements]
    (typeId : TypeId) (chain : List TypeId) (id : MemberId) (member : MemberSymbol) : Resolution :=
  if table.isImplementable member ∧ implements typeId then
    match (chain.filter implements).findSome? fun level =>
        table.boundMember? level member.owner id with
    | some found => { implementation := some ⟨found, .explicit⟩ }
    | none =>
      let resolution := firstFitting (table.signatureMatches member
        (table.visibleLevels member chain))
      if resolution.implementation.isNone ∧ member.hasImplementation then
        { resolution with implementation := some ⟨id, .default⟩ }
      else resolution
  else .missing

variable {table : SymbolTable}

/-! ## Base chains -/

theorem baseChain_of_walkBases (closed : table.Closed) {steps : Nat} {visited : List TypeId}
    {id : TypeId} {type : TypeSymbol} (found : table.type? id = some type)
    (short : table.PathsFrom steps id)
    (above : ∀ passed ∈ visited, Relation.TransGen table.Links passed id) :
    table.BaseChain id (table.walkBases steps visited id) := by
  induction steps generalizing visited id type with
  | zero => exact absurd (short [] (.singleton id)) (by simp)
  | succ steps ih =>
    have fresh : id ∉ visited := fun passed => short.acyclic (above id passed)
    rw [walkBases, if_neg fresh, found, Option.bind_some]
    cases known : type.base with
    | none => exact .top found known
    | some base =>
      obtain ⟨symbol, foundBase⟩ := closed.base found known
      have step : table.Links id base := ⟨type, found, .inl known⟩
      refine .derived found known (ih foundBase (short.link step) fun passed on => ?_)
      rcases List.mem_cons.mp on with rfl | earlier
      · exact .single step
      · exact (above passed earlier).tail step

/-- On short paths, base chains are not cut off. -/
theorem baseChain_complete (closed : table.Closed) (short : table.PathsWithin maxDepth)
    {id : TypeId} {type : TypeSymbol} (found : table.type? id = some type) :
    table.BaseChain id (table.baseChain id) :=
  baseChain_of_walkBases closed found (short.from id) fun _ passed => nomatch passed

/-- A type has one base chain. -/
theorem BaseChain.unique {id : TypeId} {chain other : List TypeId}
    (first : table.BaseChain id chain) (second : table.BaseChain id other) : chain = other := by
  induction first generalizing other with
  | top found noBase =>
    cases second with
    | top => rfl
    | derived foundAgain hasBase =>
      cases found.symm.trans foundAgain
      rw [noBase] at hasBase
      cases hasBase
  | derived found hasBase _ ih =>
    cases second with
    | top foundAgain noBase =>
      cases found.symm.trans foundAgain
      rw [noBase] at hasBase
      cases hasBase
    | derived foundAgain hasBaseAgain rest =>
      cases found.symm.trans foundAgain
      cases hasBase.symm.trans hasBaseAgain
      rw [ih rest]

/-! ## Explicit implementations of one level -/

theorem declaredMembers_of_found {id : TypeId} {type : TypeSymbol}
    (found : table.type? id = some type) : table.declaredMembers id = table.membersOf type := by
  rw [declaredMembers, found]
  rfl

theorem membersOf_head (laid : table.Laid) {id : TypeId} {type : TypeSymbol}
    (found : table.type? id = some type) {entry : MemberId × MemberSymbol}
    (listed : entry ∈ table.membersOf type) :
    table.member? entry.1 = some entry.2 ∧ entry.2.clause? = none := by
  obtain ⟨inside, foundMember⟩ := member?_of_mem_membersOf listed
  obtain ⟨member, foundAgain, _, noClause⟩ := laid.head found inside
  cases foundMember.symm.trans foundAgain
  exact ⟨foundMember, noClause⟩

section

variable (wellFormed : table.WellFormed) {id : MemberId} {member : MemberSymbol}
  (found : table.member? id = some member) (noClause : member.clause? = none)

include wellFormed found

/-- A member is bound to an interface member just if that is the member of its target. -/
theorem isBoundTo_iff {other : MemberId} {symbol : MemberSymbol}
    (foundOther : table.member? other = some symbol) :
    symbol.isBoundTo member.owner id = true ↔
      ∃ target, symbol.target = some target ∧ target.member = id := by
  rw [MemberSymbol.isBoundTo, decide_eq_true_iff]
  constructor
  · exact fun bound => ⟨_, bound, rfl⟩
  · rintro ⟨target, known, rfl⟩
    obtain ⟨image, foundImage, owner, _⟩ := wellFormed.targeted.target foundOther known
    cases found.symm.trans foundImage
    rw [known, owner]

include noClause

/-- What a member contributes to those that are bound to a member: itself, and
none of its accessors. -/
theorem filter_boundEntries {other : MemberId} {symbol : MemberSymbol}
    (foundOther : table.member? other = some symbol) :
    (if symbol.target.isSome then LevelTable.boundEntries table other symbol else []).filter
        (fun entry => decide (entry.1 = id)) =
      if symbol.isBoundTo member.owner id then [(id, other)] else [] := by
  have accessors : ((table.accessorsOf symbol).filterMap fun entry =>
      entry.2.target.map fun target => (target.member, entry.1)).filter
        (fun entry => decide (entry.1 = id)) = [] := by
    refine List.filter_eq_nil_iff.mpr fun entry listed => ?_
    obtain ⟨accessor, inside, bound⟩ := List.mem_filterMap.mp listed
    obtain ⟨target, known, rfl⟩ := Option.map_eq_some_iff.mp bound
    obtain ⟨has, foundAccessor⟩ := member?_of_mem_accessorsOf inside
    obtain ⟨kind, isAccessor⟩ := MemberSymbol.mem_accessors.mp has
    obtain ⟨isClause, _⟩ := wellFormed.laid.of_accessor foundOther isAccessor foundAccessor
    obtain ⟨image, foundImage, _, kinds⟩ := wellFormed.targeted.target foundAccessor known
    rw [decide_eq_true_iff]
    rintro rfl
    cases found.symm.trans foundImage
    rw [MemberSymbol.clauseKind?, MemberSymbol.clauseKind?, noClause, isClause] at kinds
    cases kinds
  have bound := isBoundTo_iff wellFormed found foundOther
  cases known : symbol.target with
  | none =>
    have free : ¬ symbol.isBoundTo member.owner id = true := by
      rw [bound, known]
      rintro ⟨_, same, _⟩
      cases same
    rw [if_neg free]
    rfl
  | some target =>
    rw [known] at bound
    rw [LevelTable.boundEntries, List.filterMap_cons, known]
    simp only [Option.isSome_some, if_true, Option.map_some, List.filter_cons, accessors,
      decide_eq_true_eq]
    by_cases same : target.member = id
    · rw [if_pos same, if_pos (bound.mpr ⟨target, rfl, same⟩), same]
    · rw [if_neg same, if_neg]
      rw [bound]
      rintro ⟨_, own, other⟩
      cases own
      exact same other

/-- The table of a level finds the last member that is bound to a member. -/
theorem explicit?_ofType {level : TypeId} {type : TypeSymbol}
    (foundLevel : table.type? level = some type) :
    (LevelTable.ofType table type).explicit? id =
      table.boundMember? level member.owner id := by
  have entries (members : List (MemberId × MemberSymbol))
      (inside : ∀ entry ∈ members, entry ∈ table.membersOf type) :
      (members.flatMap fun entry =>
        if entry.2.target.isSome then LevelTable.boundEntries table entry.1 entry.2
        else []).filter (fun entry => decide (entry.1 = id)) =
      (members.filter fun entry => entry.2.isBoundTo member.owner id).map
        fun entry => (id, entry.1) := by
    induction members with
    | nil => rfl
    | cons entry members ih =>
      obtain ⟨foundEntry, _⟩ := membersOf_head wellFormed.laid foundLevel
        (inside entry List.mem_cons_self)
      rw [List.flatMap_cons, List.filter_append,
        filter_boundEntries wellFormed found noClause foundEntry,
        ih fun other listed => inside other (List.mem_cons_of_mem _ listed), List.filter_cons]
      split <;> rfl
  rw [LevelTable.explicit?, ← List.head?_filter, List.filter_reverse, List.head?_reverse,
    boundMember?, declaredMembers_of_found foundLevel]
  have all := entries (table.membersOf type) fun _ listed => listed
  rw [show (LevelTable.ofType table type).explicit = (table.membersOf type).flatMap fun entry =>
    if entry.2.target.isSome then LevelTable.boundEntries table entry.1 entry.2 else [] from rfl,
    all, List.getLast?_map, Option.map_map]
  rfl

end

/-! ## Members of one level by signature -/

theorem implicit_ofType (wellFormed : table.WellFormed) {level : TypeId} {type : TypeSymbol}
    (foundLevel : table.type? level = some type) :
    (LevelTable.ofType table type).implicit =
      ((table.declaredMembers level).filter fun entry => !entry.2.isExplicit).map
        fun entry => (SignatureKey.ofMember entry.2, entry.1) := by
  have entries (members : List (MemberId × MemberSymbol))
      (inside : ∀ entry ∈ members, entry ∈ table.membersOf type) :
      members.filterMap (fun entry => if entry.2.target.isNone && !entry.2.isExplicit then
        some (SignatureKey.ofMember entry.2, entry.1) else none) =
      (members.filter fun entry => !entry.2.isExplicit).map
        fun entry => (SignatureKey.ofMember entry.2, entry.1) := by
    induction members with
    | nil => rfl
    | cons entry members ih =>
      obtain ⟨foundEntry, noClause⟩ := membersOf_head wellFormed.laid foundLevel
        (inside entry List.mem_cons_self)
      have free : (entry.2.target.isNone && !entry.2.isExplicit) = !entry.2.isExplicit := by
        cases known : entry.2.target with
        | none => rfl
        | some target => rw [wellFormed.targeted.explicit foundEntry noClause known]; rfl
      rw [List.filterMap_cons, List.filter_cons, free,
        ih fun other listed => inside other (List.mem_cons_of_mem _ listed)]
      cases entry.2.isExplicit <;> rfl
  rw [declaredMembers_of_found foundLevel]
  exact entries _ fun _ listed => listed

theorem candidates_ofType (wellFormed : table.WellFormed) {level : TypeId} {type : TypeSymbol}
    (foundLevel : table.type? level = some type) (member : MemberSymbol) :
    (LevelTable.ofType table type).candidates (.ofMember member) =
      (table.signatureMatches member [level]).map Prod.fst := by
  rw [LevelTable.candidates, implicit_ofType wellFormed foundLevel, signatureMatches,
    List.flatMap_singleton, List.filter_map, List.filter_filter, List.map_map]
  simp only [Function.comp_def, MemberSymbol.matchesSignature, Bool.and_comm]

theorem hides_ofType (wellFormed : table.WellFormed) {level : TypeId} {type : TypeSymbol}
    (foundLevel : table.type? level = some type) (member : MemberSymbol) :
    (LevelTable.ofType table type).hides (.ofMember member) = table.hidesName level member := by
  have declares (shape : MemberShape) :
      (LevelTable.ofType table type).declares member.name shape =
        (table.declaredMembers level).any fun entry =>
          !entry.2.isExplicit && decide (entry.2.name = member.name) &&
            decide (MemberShape.ofKind entry.2.kind = shape) := by
    rw [LevelTable.declares, implicit_ofType wellFormed foundLevel, List.any_map, List.any_filter]
    simp only [Function.comp_def, SignatureKey.ofMember, Bool.decide_and, Bool.and_assoc]
  have either (p q : MemberId × MemberSymbol → Bool) (items : List (MemberId × MemberSymbol)) :
      (items.any p || items.any q) = items.any fun entry => p entry || q entry := by
    induction items with
    | nil => rfl
    | cons item items ih =>
      simp only [List.any_cons, ← ih]
      cases p item <;> cases q item <;> simp
  unfold LevelTable.hides hidesName
  simp only [LevelTable.shape, SignatureKey.ofMember, declares]
  cases MemberShape.ofKind member.kind with
  | indexer => simp [MemberShape.sharesNames]
  | accessor kind => simp [MemberShape.sharesNames]
  | _ =>
    dsimp only
    rw [either]
    congr 1
    funext entry
    cases MemberShape.ofKind entry.2.kind <;> simp [MemberShape.sharesNames]

/-! ## The search -/

/-- Whether a member is passed over does not depend on why. -/
theorem mismatch?_eq (member : MemberSymbol) :
    Lookups.mismatch? member = if member.fits then none else some member.unfitReason := by
  unfold Lookups.mismatch? MemberSymbol.fits MemberSymbol.unfitReason
  cases member.modifiers.isStatic <;> cases member.isPublic <;> rfl

/-- What was passed over before stays the first mismatch. -/
def passedBefore (close : Option CloseMismatch) (resolution : Resolution) : Resolution :=
  { resolution with closeMismatch := close.or resolution.closeMismatch }

theorem firstFitting_cons (entry : MemberId × MemberSymbol)
    (entries : List (MemberId × MemberSymbol)) :
    firstFitting (entry :: entries) =
      if entry.2.fits then { implementation := some ⟨entry.1, .implicit⟩ }
      else passedBefore (some ⟨entry.1, entry.2.unfitReason⟩) (firstFitting entries) := by
  cases fits : entry.2.fits <;> simp [passedBefore, firstFitting, fits]

theorem passedBefore_passedBefore (first second : Option CloseMismatch) (resolution : Resolution) :
    passedBefore first (passedBefore second resolution) =
      passedBefore (first.or second) resolution := by
  simp [passedBefore, Option.or_assoc]

theorem scan_eq_firstFitting {entries : List (MemberId × MemberSymbol)}
    (found : ∀ entry ∈ entries, table.member? entry.1 = some entry.2)
    (close : Option CloseMismatch) :
    Lookups.scan table close (entries.map Prod.fst) = passedBefore close (firstFitting entries) := by
  induction entries generalizing close with
  | nil => cases close <;> rfl
  | cons entry entries ih =>
    rw [List.map_cons, Lookups.scan, found entry List.mem_cons_self, Option.bind_some,
      mismatch?_eq, firstFitting_cons]
    cases entry.2.fits with
    | true => simp [passedBefore]
    | false =>
      simp only [Bool.false_eq_true, if_false]
      rw [ih fun other inside => found other (List.mem_cons_of_mem _ inside),
        passedBefore_passedBefore]

/-- A search goes on just where nothing fits. -/
theorem firstFitting_append (first rest : List (MemberId × MemberSymbol)) :
    firstFitting (first ++ rest) =
      if (firstFitting first).implementation.isSome then firstFitting first
      else passedBefore (firstFitting first).closeMismatch (firstFitting rest) := by
  induction first with
  | nil => simp [firstFitting, passedBefore]
  | cons entry first ih =>
    rw [List.cons_append, firstFitting_cons, firstFitting_cons, ih]
    cases entry.2.fits with
    | true => rfl
    | false =>
      simp only [Bool.false_eq_true, if_false]
      have same : (passedBefore (some ⟨entry.1, entry.2.unfitReason⟩)
          (firstFitting first)).implementation = (firstFitting first).implementation := rfl
      rw [same]
      split
      · rfl
      · rw [passedBefore_passedBefore]
        rfl

/-! ## The rule -/

theorem member?_of_signatureMatches {member : MemberSymbol} {levels : List TypeId}
    {entry : MemberId × MemberSymbol} (listed : entry ∈ table.signatureMatches member levels) :
    table.member? entry.1 = some entry.2 := by
  obtain ⟨level, _, inside⟩ := List.mem_flatMap.mp listed
  have declared := (List.mem_filter.mp inside).1
  unfold declaredMembers at declared
  cases found : table.type? level with
  | none => simp [found] at declared
  | some type =>
    rw [found] at declared
    exact (member?_of_mem_membersOf declared).2

section

variable {lookups : Lookups Id}

variable (wellFormed : table.WellFormed)
  (levels : ∀ {level type}, table.type? level = some type →
    (lookups.level level).run = LevelTable.ofType table type)

include wellFormed levels

theorem findImplicit_eq (member : MemberSymbol) (close : Option CloseMismatch)
    {chain : List TypeId} (known : ∀ level ∈ chain, ∃ type, table.type? level = some type) :
    (lookups.findImplicit table (.ofMember member) close chain).run =
      passedBefore close (firstFitting (table.signatureMatches member
        (table.visibleLevels member chain))) := by
  induction chain generalizing close with
  | nil => cases close <;> rfl
  | cons level rest ih =>
    obtain ⟨type, found⟩ := known level List.mem_cons_self
    have further (close : Option CloseMismatch) := ih close fun other inside =>
      known other (List.mem_cons_of_mem _ inside)
    have scanned : Lookups.scan table close
        ((LevelTable.ofType table type).candidates (.ofMember member)) =
          passedBefore close (firstFitting (table.signatureMatches member [level])) := by
      rw [candidates_ofType wellFormed found]
      exact scan_eq_firstFitting (fun entry inside => member?_of_signatureMatches inside) close
    rw [Lookups.findImplicit_run, levels found, scanned, hides_ofType wellFormed found, further,
      visibleLevels]
    cases hidden : table.hidesName level member with
    | true => simp
    | false =>
      have both : table.signatureMatches member (level :: table.visibleLevels member rest) =
          table.signatureMatches member [level] ++
            table.signatureMatches member (table.visibleLevels member rest) := by
        simp [signatureMatches]
      have same : (passedBefore close
          (firstFitting (table.signatureMatches member [level]))).implementation =
            (firstFitting (table.signatureMatches member [level])).implementation := rfl
      simp only [Bool.or_false, Bool.false_eq_true, if_false]
      rw [both, firstFitting_append, same]
      split
      · rfl
      · rw [passedBefore_passedBefore]
        rfl

theorem findExplicit_eq {id : MemberId} {member : MemberSymbol}
    (found : table.member? id = some member) (noClause : member.clause? = none)
    {implements : TypeId → Prop} [DecidablePred implements] {chain : List TypeId}
    (known : ∀ level ∈ chain, (∃ type, table.type? level = some type) ∧
      (member.owner ∈ (lookups.interfaces level).run ↔ implements level)) :
    (lookups.findExplicit table member.owner id chain).run =
      (chain.filter implements).findSome? fun level =>
        table.boundMember? level member.owner id := by
  induction chain with
  | nil => rfl
  | cons level rest ih =>
    obtain ⟨⟨type, foundLevel⟩, same⟩ := known level List.mem_cons_self
    have further := ih fun other inside => known other (List.mem_cons_of_mem _ inside)
    rw [Lookups.findExplicit_run, levels foundLevel,
      explicit?_ofType wellFormed found noClause foundLevel, further, List.filter_cons]
    by_cases implemented : implements level
    · rw [if_pos (same.mpr implemented), if_pos (decide_eq_true implemented), List.findSome?_cons]
      cases bound : table.boundMember? level member.owner id with
      | none => rfl
      | some candidate =>
        have isBound : (table.member? candidate).any
            (fun symbol => symbol.isBoundTo member.owner id) = true := by
          obtain ⟨entry, last, rfl⟩ := Option.map_eq_some_iff.mp bound
          obtain ⟨declared, isBound⟩ := List.mem_filter.mp (List.mem_of_getLast? last)
          rw [declaredMembers_of_found foundLevel] at declared
          rw [(member?_of_mem_membersOf declared).2]
          exact isBound
        simp only [isBound, if_true]
    · rw [if_neg fun listed => implemented (same.mp listed),
        if_neg fun kept => implemented (of_decide_eq_true kept)]

/-- Whatever interface lists it is given, the resolver answers by the rule for these. -/
theorem resolve_eq {typeId : TypeId} {type : TypeSymbol}
    (foundType : table.type? typeId = some type) (isClass : type.isInterface = false)
    {id : MemberId} {member : MemberSymbol} (found : table.member? id = some member)
    (noClause : member.clause? = none) (implements : TypeId → Prop) [DecidablePred implements]
    (listed : ∀ {level symbol}, table.type? level = some symbol →
      (member.owner ∈ (lookups.interfaces level).run ↔ implements level)) :
    (lookups.resolve table typeId id).run =
      table.plainResolution implements typeId (table.baseChain typeId) id member := by
  have known : ∀ level ∈ table.baseChain typeId, ∃ type, table.type? level = some type :=
    fun level inside => wellFormed.closed.exists_of_mem_baseChain ⟨type, foundType⟩ inside
  have explicit : (lookups.findExplicit table member.owner id (table.baseChain typeId)).run =
      ((table.baseChain typeId).filter implements).findSome? _ :=
    findExplicit_eq wellFormed levels found noClause fun level inside => by
      obtain ⟨symbol, foundLevel⟩ := known level inside
      exact ⟨⟨symbol, foundLevel⟩, listed foundLevel⟩
  rw [Lookups.resolve_head foundType found noClause, Lookups.whenImplemented_run,
    Lookups.resolveMember_run, isClass, if_neg Bool.false_ne_true, explicit,
    findImplicit_eq wellFormed levels member none known, plainResolution]
  by_cases implementable : table.isImplementable member = true
  · by_cases implemented : implements typeId
    · rw [if_pos ⟨implementable, (listed foundType).mpr implemented⟩,
        if_pos ⟨implementable, implemented⟩]
      cases (List.filter implements (table.baseChain typeId)).findSome? fun level =>
          table.boundMember? level member.owner id with
      | some found => rfl
      | none => exact Lookups.orDefault_eq found type _
    · rw [if_neg fun both => implemented ((listed foundType).mp both.2),
        if_neg fun both => implemented both.2]
  · rw [if_neg fun both => implementable both.1, if_neg fun both => implementable both.1]

end

theorem level_pureLookups {runtime : AssemblyId → Bool} {level : TypeId} {type : TypeSymbol}
    (found : table.type? level = some type) :
    ((table.pureLookups runtime).level level).run = LevelTable.ofType table type := by
  show ((table.type? level).map (LevelTable.ofType table)).getD {} = _
  rw [found]
  rfl

/-- Without memory, the resolver answers by the rule. -/
theorem resolve_pureLookups (wellFormed : table.WellFormed) {runtime : AssemblyId → Bool}
    (short : table.PathsWithin maxDepth) (few : table.interfaceCount ≤ maxInterfaces)
    {typeId : TypeId} {type : TypeSymbol} (foundType : table.type? typeId = some type)
    (isClass : type.isInterface = false) {id : MemberId} {member : MemberSymbol}
    (found : table.member? id = some member) (noClause : member.clause? = none)
    {implements : TypeId → Prop} [DecidablePred implements]
    (implementing : ∀ level, implements level ↔ table.Implements level member.owner) :
    (table.pureLookups runtime).resolve table typeId id =
      table.plainResolution implements typeId (table.baseChain typeId) id member := by
  have longer : table.PathsWithin longestPath :=
    fun path chain => Nat.le_succ_of_le (short path chain)
  refine resolve_eq wellFormed level_pureLookups foundType isClass found noClause implements
    fun {level symbol} foundLevel => ?_
  rw [implementing]
  exact mem_interfacesOf wellFormed longer few foundLevel member.owner

open Classical in
/-- The resolver answers by the plain rule, whatever it was asked before, as long
as no path is cut off and no list is too long. -/
theorem Session.resolve_eq_plainResolution {memory : Memory}
    (session : Session table memory) (short : table.PathsWithin maxDepth)
    (few : table.interfaceCount ≤ maxInterfaces) {typeId : TypeId} {type : TypeSymbol}
    (foundType : table.type? typeId = some type) (isClass : type.isInterface = false)
    {id : MemberId} {member : MemberSymbol} (found : table.member? id = some member)
    (noClause : member.clause? = none) :
    ∃ chain, table.BaseChain typeId chain ∧
      ((table.resolve typeId id).answer memory).1 = .ok (table.plainResolution
        (fun level => table.Implements level member.owner) typeId chain id member) := by
  have wellFormed := session.made.wellFormed
  have longer : table.PathsWithin longestPath :=
    fun path chain => Nat.le_succ_of_le (short path chain)
  obtain ⟨runtime, known⟩ := session.coherent longer
  have agree := remembering_coherent wellFormed.closed longer runtime
  obtain ⟨resolution, after, answered, _, same⟩ :=
    agree.resolve wellFormed.closed typeId id memory known
  refine ⟨table.baseChain typeId, baseChain_complete wellFormed.closed short foundType, ?_⟩
  have answered' : (table.resolve typeId id).answer memory = (.ok resolution, after) := answered
  rw [answered', same, resolve_pureLookups wellFormed short few foundType isClass found noClause
    fun level => Iff.rfl]

end SymbolTable

/-- An assembly of an interface and a class that implements it. -/
def shapes : AssemblyDecl where
  name := "Shapes"
  types :=
    [ { name := "Shape"
        kind := .interfaceType
        members := [.method { name := "Area", returnType := "int" }] },
      { name := "Square"
        kind := .classType
        interfaces := ["Shape"]
        members := [.method
          { name := "Area"
            modifiers := .ofList [.publicAccess]
            returnType := "int"
            hasBody := true }] } ]

/-- The symbols of `shapes`. -/
def shapesTable : SymbolTable := ((∅ : SymbolTable).bind shapes [] (.source .latest)).table

theorem shapesTable_pathsWithin : shapesTable.PathsWithin SymbolTable.maxDepth := by
  refine SymbolTable.pathsWithin_of_rank TypeId.index (by decide) fun id other linked => ?_
  obtain ⟨type, found, link⟩ := linked
  have inside : id.index < 2 := SymbolTable.lt_of_type? found
  have links : ∀ index < 2, ∀ type ∈ shapesTable.type? ⟨index⟩,
      type.base = none ∧ ∀ other ∈ type.interfaces, other.index < index := by
    decide
  obtain ⟨noBase, below⟩ := links id.index inside type found
  rw [noBase] at link
  rcases link with base | listed
  · cases base
  · exact ⟨below other listed, Nat.lt_trans inside (by decide)⟩

open Classical in
/-- The rule for the method of `shapes`, after its interface list was asked for. -/
theorem shapesTable_resolve : ∃ chain, shapesTable.BaseChain ⟨1⟩ chain ∧
    ((shapesTable.resolve ⟨1⟩ ⟨0⟩).answer ((shapesTable.flatten ⟨1⟩).answer ∅).2).1 =
      .ok (shapesTable.plainResolution (fun level => shapesTable.Implements level ⟨0⟩) ⟨1⟩ chain ⟨0⟩
        ((shapesTable.member? ⟨0⟩).get (by decide))) :=
  SymbolTable.Session.resolve_eq_plainResolution
    (.flatten (.bind .start shapes [] (.source .latest)) ⟨1⟩) shapesTable_pathsWithin (by decide)
    (Option.some_get (by decide : (shapesTable.type? ⟨1⟩).isSome)).symm (by decide)
    (Option.some_get _).symm (by decide)

end Conformance
