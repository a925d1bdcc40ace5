import Conformance.Proofs.Symbol.Closed
import Conformance.Proofs.Symbol.Embedding
import Conformance.Resolution.Basic

/-!
Resolution under a relation of lookups.

The rule of resolution is one definition for all monads, so it is also compared
once for all of them. A `Lifting` turns relations of results into relations of
computations; lookups in two tables are related along an embedding if the
answers of each lookup are (`Lookups.Related`); and then so are the answers of
resolution (`Lookups.Related.resolve`).
-/

namespace Conformance

/-- A way to relate the computations of two monads by a relation of their
results. -/
structure Lifting (m n : Type → Type) [Monad m] [Monad n] where
  rel : {α β : Type} → (α → β → Prop) → m α → n β → Prop
  pure : ∀ {α β : Type} {r : α → β → Prop} {a : α} {b : β}, r a b → rel r (pure a) (pure b)
  bind : ∀ {α β γ δ : Type} {r : α → β → Prop} {q : γ → δ → Prop} {x : m α} {y : n β}
    {f : α → m γ} {g : β → n δ}, rel r x y → (∀ a b, r a b → rel q (f a) (g b)) →
      rel q (x >>= f) (y >>= g)

namespace Lifting

/-- Computations of a monad that is nothing but its results. -/
def same : Lifting Id Id where
  rel r a b := r a b
  pure results := results
  bind related next := next _ _ related

variable {m n : Type → Type} [Monad m] [Monad n] (L : Lifting m n)

/-- Folds whose steps are related are related. -/
theorem foldlM {α β σ τ : Type} {r : α → β → Prop} {q : σ → τ → Prop}
    {f : σ → α → m σ} {g : τ → β → n τ} {xs : List α} {ys : List β} {a : σ} {b : τ}
    (items : List.Forall₂ r xs ys) (start : q a b)
    (step : ∀ a b x y, x ∈ xs → q a b → r x y → L.rel q (f a x) (g b y)) :
    L.rel q (xs.foldlM f a) (ys.foldlM g b) := by
  induction items generalizing a b with
  | nil =>
    rw [List.foldlM_nil, List.foldlM_nil]
    exact L.pure start
  | cons head _ ih =>
    rw [List.foldlM_cons, List.foldlM_cons]
    refine L.bind (step a b _ _ List.mem_cons_self start head) fun c d next => ?_
    exact ih next fun a b x y listed => step a b x y (List.mem_cons_of_mem _ listed)

variable [LawfulMonad m] [LawfulMonad n]

theorem mono {α β : Type} {r q : α → β → Prop} {x : m α} {y : n β} (related : L.rel r x y)
    (weaker : ∀ a b, r a b → q a b) : L.rel q x y := by
  have bound := L.bind (f := Pure.pure) (g := Pure.pure) related
    fun a b results => L.pure (weaker a b results)
  rwa [bind_pure, bind_pure] at bound

/-- Computations that are related item by item are related as a whole. -/
theorem mapM {α β γ δ : Type} {r : α → β → Prop} {q : γ → δ → Prop} {f : α → m γ} {g : β → n δ}
    {xs : List α} {ys : List β} (items : List.Forall₂ r xs ys)
    (each : ∀ a b, a ∈ xs → r a b → L.rel q (f a) (g b)) :
    L.rel (List.Forall₂ q) (xs.mapM f) (ys.mapM g) := by
  induction items with
  | nil =>
    rw [List.mapM_nil, List.mapM_nil]
    exact L.pure .nil
  | cons head _ ih =>
    rw [List.mapM_cons, List.mapM_cons]
    refine L.bind (each _ _ List.mem_cons_self head) fun c d first => ?_
    refine L.bind (ih fun a b listed => each a b (List.mem_cons_of_mem _ listed)) ?_
    exact fun cs ds rest => L.pure (.cons first rest)

/-- Computations that are related item by item have one list of results, if items have one
result. -/
theorem mapM_congr {α β γ : Type} {r : α → β → Prop} {f : α → m γ} {g : β → n γ} {xs : List α}
    {ys : List β} (items : List.Forall₂ r xs ys)
    (each : ∀ a b, r a b → L.rel Eq (f a) (g b)) : L.rel Eq (xs.mapM f) (ys.mapM g) :=
  L.mono (L.mapM items fun a b _ => each a b) fun _ _ related => List.forall₂_eq_eq_eq ▸ related

/-- Computations over one list are related as a whole if they are so item by item. -/
theorem mapM_self {α γ δ : Type} {q : γ → δ → Prop} {f : α → m γ} {g : α → n δ} {xs : List α}
    (each : ∀ a ∈ xs, L.rel q (f a) (g a)) :
    L.rel (List.Forall₂ q) (xs.mapM f) (xs.mapM g) := by
  have items : List.Forall₂ Eq xs xs := List.forall₂_refl xs
  refine L.mapM items ?_
  rintro a _ listed rfl
  exact each a listed

theorem mapM_eq {α γ : Type} {f : α → m γ} {g : α → n γ} {xs : List α}
    (each : ∀ a ∈ xs, L.rel Eq (f a) (g a)) : L.rel Eq (xs.mapM f) (xs.mapM g) :=
  L.mono (L.mapM_self each) fun _ _ related => List.forall₂_eq_eq_eq ▸ related

end Lifting

/-! ## Answers under a map of ids -/

/-- The mismatch with its id replaced. -/
def CloseMismatch.map (f : MemberId → MemberId) (close : CloseMismatch) : CloseMismatch :=
  ⟨f close.candidate, close.reason⟩

/-- The implementation with its id replaced. -/
def Implementation.map (f : MemberId → MemberId) (found : Implementation) : Implementation :=
  ⟨f found.member, found.source⟩

/-- The resolution with its ids replaced. -/
def Resolution.map (f : MemberId → MemberId) (resolution : Resolution) : Resolution where
  implementation := resolution.implementation.map (Implementation.map f)
  closeMismatch := resolution.closeMismatch.map (CloseMismatch.map f)

@[simp] theorem Resolution.map_id (resolution : Resolution) : resolution.map id = resolution := by
  obtain ⟨implementation, close⟩ := resolution
  cases implementation <;> cases close <;> rfl

theorem Resolution.member?_map (f : MemberId → MemberId) (resolution : Resolution) :
    (resolution.map f).member? = resolution.member?.map f := by
  rw [Resolution.member?, Resolution.member?, Resolution.map, Option.map_map, Option.map_map]
  rfl

theorem Resolution.source?_map (f : MemberId → MemberId) (resolution : Resolution) :
    (resolution.map f).source? = resolution.source? := by
  rw [Resolution.source?, Resolution.source?, Resolution.map, Option.map_map]
  rfl

/-! ## Lookups -/

/-- The lookups in two tables have related answers about the types of the first. -/
structure Lookups.Related {m n : Type → Type} [Monad m] [Monad n] (L : Lifting m n)
    {s t : SymbolTable} (e : Embedding s t) (first : Lookups m) (second : Lookups n) : Prop where
  interfaces : ∀ {id symbol}, s.type? id = some symbol →
    L.rel (fun a b => b = a.map e.type) (first.interfaces id) (second.interfaces (e.type id))
  level : ∀ {id symbol}, s.type? id = some symbol →
    L.rel (fun a b => b = a.map e.member) (first.level id) (second.level (e.type id))
  runtime : ∀ {id symbol image}, s.type? id = some symbol → t.type? (e.type id) = some image →
    L.rel (fun _ _ => True) (first.runtime symbol.assembly) (second.runtime image.assembly)

namespace Lookups

variable {s t : SymbolTable} (e : Embedding s t)

theorem mismatch?_image {source image : MemberSymbol}
    (alike : MemberSymbol.Alike s t e.type e.member source image) :
    mismatch? image = mismatch? source := by
  rw [mismatch?, mismatch?, alike.isStatic, alike.isPublic]

theorem mismatch?_map (id : MemberId) :
    (t.member? (e.member id)).bind mismatch? = (s.member? id).bind mismatch? := by
  cases found : s.member? id with
  | none => rw [e.member?_none found]
  | some symbol =>
    obtain ⟨image, foundImage, alike⟩ := e.member?_some found
    rw [foundImage]
    exact mismatch?_image e alike

theorem scan_map (close : Option CloseMismatch) (ids : List MemberId) :
    scan t (close.map (CloseMismatch.map e.member)) (ids.map e.member) =
      (scan s close ids).map e.member := by
  induction ids generalizing close with
  | nil => rfl
  | cons id ids ih =>
    rw [List.map_cons, scan, scan, mismatch?_map]
    cases (s.member? id).bind mismatch? with
    | none => rfl
    | some reason =>
      rw [← ih]
      cases close <;> rfl

theorem isBoundTo_image {source image : MemberSymbol} (interface : TypeId) (id : MemberId)
    (alike : MemberSymbol.Alike s t e.type e.member source image) :
    image.isBoundTo (e.type interface) (e.member id) = source.isBoundTo interface id := by
  rw [MemberSymbol.isBoundTo, MemberSymbol.isBoundTo, alike.target]
  cases source.target with
  | none => rfl
  | some target =>
    obtain ⟨owner, member⟩ := target
    simp [ExplicitTarget.map, e.type_injective.eq_iff, e.member_injective.eq_iff]

theorem isBoundTo_map (interface : TypeId) (id candidate : MemberId) :
    ((t.member? (e.member candidate)).any fun member =>
      member.isBoundTo (e.type interface) (e.member id)) =
        ((s.member? candidate).any fun member => member.isBoundTo interface id) := by
  cases found : s.member? candidate with
  | none => rw [e.member?_none found]; rfl
  | some symbol =>
    obtain ⟨image, foundImage, alike⟩ := e.member?_some found
    rw [foundImage]
    exact isBoundTo_image e interface id alike

/-- The accessor of a member, with its symbol, and that of the image. -/
theorem clause_image (id : MemberId) (kind : AccessorKind) :
    Option.Rel e.Pairs
      (((s.member? id).bind (·.accessor? kind)).bind fun clause =>
        (s.member? clause).map fun symbol => (clause, symbol))
      (((t.member? (e.member id)).bind (·.accessor? kind)).bind fun clause =>
        (t.member? clause).map fun symbol => (clause, symbol)) := by
  cases found : s.member? id with
  | none => rw [e.member?_none found]; exact .none
  | some symbol =>
    obtain ⟨image, foundImage, alike⟩ := e.member?_some found
    rw [foundImage, Option.bind_some, Option.bind_some, alike.accessor]
    cases symbol.accessor? kind with
    | none => exact .none
    | some clause =>
      rw [Option.map_some, Option.bind_some, Option.bind_some]
      cases foundClause : s.member? clause with
      | none => rw [e.member?_none foundClause]; exact .none
      | some accessor =>
        obtain ⟨accessorImage, foundAccessor, alikeAccessor⟩ := e.member?_some foundClause
        rw [foundAccessor]
        exact .some ⟨rfl, alikeAccessor⟩

theorem closeAccessor_map (kind : AccessorKind) (close : CloseMismatch) :
    closeAccessor t kind (close.map e.member) = (closeAccessor s kind close).map e.member := by
  unfold closeAccessor CloseMismatch.map
  cases found : s.member? close.candidate with
  | none => simp only [e.member?_none found, Option.bind_none, Option.getD_none]
  | some symbol =>
    obtain ⟨image, foundImage, alike⟩ := e.member?_some found
    simp only [foundImage, Option.bind_some, alike.accessor]
    cases symbol.accessor? kind <;> rfl

theorem resolveClause_map (id : MemberId) {source image : MemberSymbol} (kind : AccessorKind)
    (alike : MemberSymbol.Alike s t e.type e.member source image) (parent : Resolution) :
    resolveClause t (e.member id) image kind (parent.map e.member) =
      (resolveClause s id source kind parent).map e.member := by
  have close : (parent.map e.member).closeMismatch.map (closeAccessor t kind) =
      (parent.closeMismatch.map (closeAccessor s kind)).map (CloseMismatch.map e.member) := by
    simp only [Resolution.map, Option.map_map, Function.comp_def, closeAccessor_map]
  unfold resolveClause
  rw [close]
  cases found : parent.implementation with
  | none => simp only [Resolution.map, found, Option.map_none]
  | some implementation =>
    have clauses := clause_image e implementation.member kind
    simp only [Resolution.map, found, Option.map_some, Implementation.map]
    generalize (((s.member? implementation.member).bind (·.accessor? kind)).bind fun clause =>
      (s.member? clause).map fun symbol => (clause, symbol)) = clause at clauses ⊢
    generalize (((t.member? (e.member implementation.member)).bind (·.accessor? kind)).bind
      fun clause => (t.member? clause).map fun symbol => (clause, symbol)) = other at clauses ⊢
    cases implementation.source with
    | default => rfl
    | explicit =>
      cases clauses with
      | none => rfl
      | @some x y pair =>
        have bound : y.2.isBoundTo image.owner (e.member id) = x.2.isBoundTo source.owner id :=
          alike.owner ▸ isBoundTo_image e source.owner id pair.2
        simp only [Option.bind_some, bound, pair.1]
        split <;> rfl
    | implicit =>
      cases clauses with
      | none => rfl
      | @some x y pair =>
        simp only [pair.2.isPublic, pair.1]
        split <;> rfl

/-! ## Resolution -/

namespace Related

variable {m n : Type → Type} [Monad m] [Monad n] {L : Lifting m n} {e} {first : Lookups m}
  {second : Lookups n}

theorem implements (related : Related L e first second) {id : TypeId} {symbol : TypeSymbol}
    (found : s.type? id = some symbol) (interface : TypeId) :
    L.rel Eq (first.implements id interface) (second.implements (e.type id) (e.type interface)) := by
  refine L.bind (related.interfaces found) ?_
  rintro ids _ rfl
  exact L.pure (by simp only [e.mem_map_type])

theorem defaultBody (related : Related L e first second) {typeId : TypeId}
    {type typeImage : TypeSymbol} (foundType : s.type? typeId = some type)
    (foundImage : t.type? (e.type typeId) = some typeImage) (id : MemberId)
    (bodies : (t.member? (e.member id)).any MemberSymbol.hasImplementation =
      (s.member? id).any MemberSymbol.hasImplementation) :
    L.rel (fun a b => b.member? = a.member?.map e.member)
      (first.defaultBody s id type.assembly)
      (second.defaultBody t (e.member id) typeImage.assembly) := by
  unfold Lookups.defaultBody
  rw [bodies]
  split
  · refine L.bind (related.runtime foundType foundImage) fun a b _ => ?_
    cases a <;> cases b <;> exact L.pure rfl
  · exact L.pure rfl

theorem orDefault (related : Related L e first second) {typeId : TypeId}
    {type typeImage : TypeSymbol} (foundType : s.type? typeId = some type)
    (foundImage : t.type? (e.type typeId) = some typeImage) (id : MemberId)
    (bodies : (t.member? (e.member id)).any MemberSymbol.hasImplementation =
      (s.member? id).any MemberSymbol.hasImplementation) (resolution : Resolution) :
    L.rel (fun a b => b = a.map e.member) (first.orDefault s type id resolution)
      (second.orDefault t typeImage (e.member id) (resolution.map e.member)) := by
  have some : (resolution.map e.member).implementation.isSome =
      resolution.implementation.isSome := Option.isSome_map
  unfold Lookups.orDefault
  rw [some]
  split
  · exact L.pure rfl
  · refine L.bind (related.defaultBody foundType foundImage id bodies) fun a b same => L.pure ?_
    rw [same]
    cases a <;> rfl

theorem findExplicit (related : Related L e first second) (interface : TypeId) (id : MemberId)
    {chain : List TypeId} (known : ∀ level ∈ chain, ∃ symbol, s.type? level = some symbol) :
    L.rel (fun a b => b = a.map e.member) (first.findExplicit s interface id chain)
      (second.findExplicit t (e.type interface) (e.member id) (chain.map e.type)) := by
  induction chain with
  | nil => exact L.pure rfl
  | cons level rest ih =>
    obtain ⟨symbol, found⟩ := known level List.mem_cons_self
    have further := ih fun other listed => known other (List.mem_cons_of_mem _ listed)
    refine L.bind (related.implements found interface) ?_
    rintro implemented _ rfl
    cases implemented with
    | false => exact further
    | true =>
      refine L.bind (related.level found) ?_
      rintro members _ rfl
      rw [LevelTable.explicit?_map e.member_injective]
      cases members.explicit? id with
      | none => exact further
      | some candidate =>
        simp only [Option.map_some, isBoundTo_map]
        split
        · exact L.pure rfl
        · exact further

theorem findImplicit (related : Related L e first second) (key : SignatureKey)
    (close : Option CloseMismatch) {chain : List TypeId}
    (known : ∀ level ∈ chain, ∃ symbol, s.type? level = some symbol) :
    L.rel (fun a b => b = a.map e.member) (first.findImplicit s key close chain)
      (second.findImplicit t key (close.map (CloseMismatch.map e.member)) (chain.map e.type)) := by
  induction chain generalizing close with
  | nil => exact L.pure rfl
  | cons level rest ih =>
    obtain ⟨symbol, found⟩ := known level List.mem_cons_self
    have further := fun close => ih close fun other listed =>
      known other (List.mem_cons_of_mem _ listed)
    refine L.bind (related.level found) ?_
    rintro members _ rfl
    have some (resolution : Resolution) : (resolution.map e.member).implementation.isSome =
        resolution.implementation.isSome := Option.isSome_map
    simp only [LevelTable.candidates_map, scan_map, LevelTable.hides_map, some]
    split
    · exact L.pure rfl
    · exact further _

theorem resolveMember (related : Related L e first second) (closed : s.Closed) {typeId : TypeId}
    {type typeImage : TypeSymbol} (foundType : s.type? typeId = some type)
    (foundImage : t.type? (e.type typeId) = some typeImage)
    (alikeTypes : TypeSymbol.Alike e.type e.member type typeImage) {id : MemberId}
    {member image : MemberSymbol} (found : s.member? id = some member)
    (foundMember : t.member? (e.member id) = some image)
    (alike : MemberSymbol.Alike s t e.type e.member member image)
    (implementable : s.isImplementable member = true) :
    L.rel (fun a b => b = a.map e.member) (first.resolveMember s typeId type id member)
      (second.resolveMember t (e.type typeId) typeImage (e.member id) image) := by
  have bodies : (t.member? (e.member id)).any MemberSymbol.hasImplementation =
      (s.member? id).any MemberSymbol.hasImplementation := by
    rw [found, foundMember]
    exact alike.body implementable
  have known : ∀ level ∈ s.baseChain typeId, ∃ symbol, s.type? level = some symbol :=
    fun level passed => closed.exists_of_mem_baseChain ⟨type, foundType⟩ passed
  unfold Lookups.resolveMember
  rw [alikeTypes.isInterface, alike.owner, alike.key, e.baseChain]
  split
  · exact related.orDefault foundType foundImage id bodies .missing
  · refine L.bind (related.findExplicit member.owner id known) ?_
    rintro explicit _ rfl
    cases explicit with
    | some target => exact L.pure rfl
    | none =>
      refine L.bind (related.findImplicit _ none known) ?_
      rintro resolution _ rfl
      exact related.orDefault foundType foundImage id bodies resolution

theorem whenImplemented (related : Related L e first second) {typeId : TypeId}
    {type : TypeSymbol} (foundType : s.type? typeId = some type) {member image : MemberSymbol}
    (alike : MemberSymbol.Alike s t e.type e.member member image) {x : m Resolution}
    {y : n Resolution}
    (results : s.isImplementable member = true → L.rel (fun a b => b = a.map e.member) x y) :
    L.rel (fun a b => b = a.map e.member) (first.whenImplemented s typeId member x)
      (second.whenImplemented t (e.type typeId) image y) := by
  unfold Lookups.whenImplemented
  rw [alike.implementable, alike.owner]
  split
  · rename_i implementable
    refine L.bind (related.implements foundType member.owner) ?_
    rintro implemented _ rfl
    cases implemented with
    | false => exact L.pure rfl
    | true => exact results implementable
  · exact L.pure rfl

/-- Related lookups resolve members to related answers. -/
theorem resolve (related : Related L e first second) (closed : s.Closed) (typeId : TypeId)
    (id : MemberId) :
    L.rel (fun a b => b = a.map e.member) (first.resolve s typeId id)
      (second.resolve t (e.type typeId) (e.member id)) := by
  unfold Lookups.resolve
  cases foundType : s.type? typeId with
  | none =>
    rw [e.type?_none foundType]
    exact L.pure rfl
  | some type =>
  obtain ⟨typeImage, foundTypeImage, alikeTypes⟩ := e.type?_some foundType
  rw [foundTypeImage]
  cases found : s.member? id with
  | none =>
    rw [e.member?_none found]
    exact L.pure rfl
  | some member =>
  obtain ⟨image, foundImage, alike⟩ := e.member?_some found
  rw [foundImage]
  refine related.whenImplemented foundType alike fun implementable => ?_
  rw [alike.clause]
  cases member.clause? with
  | none =>
    exact related.resolveMember closed foundType foundTypeImage alikeTypes found foundImage alike
      implementable
  | some clause =>
    obtain ⟨kind, parentId⟩ := clause
    simp only [Option.map_some]
    cases foundParent : s.member? parentId with
    | none =>
      rw [e.member?_none foundParent]
      exact L.pure rfl
    | some parent =>
      obtain ⟨parentImage, foundParentImage, alikeParent⟩ := e.member?_some foundParent
      rw [foundParentImage]
      refine L.bind (related.whenImplemented foundType alikeParent fun implementableParent =>
        related.resolveMember closed foundType foundTypeImage alikeTypes foundParent
          foundParentImage alikeParent implementableParent) ?_
      rintro resolution _ rfl
      rw [resolveClause_map e id kind alike]
      refine related.orDefault foundType foundTypeImage id ?_ _
      rw [found, foundImage]
      exact alike.body implementable

end Related

end Lookups

end Conformance
