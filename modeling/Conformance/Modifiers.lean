/-!
Declaration modifiers.

A `Modifiers` value is a set of keywords. Members carry two of them: the one
written in the declaration, and the one that binding makes of it.
-/

namespace Conformance

/-- A modifier keyword. -/
inductive Modifier where
  | new
  | publicAccess
  | protectedInternalAccess
  | protectedAccess
  | internalAccess
  | privateAccess
  | static
  | external
  | abstract
  | virtual
  | sealed
  | override
  | async
deriving DecidableEq, Repr

namespace Modifier

/-- All modifiers, in the order in which they are displayed. -/
def all : List Modifier :=
  [new, publicAccess, protectedInternalAccess, protectedAccess, internalAccess, privateAccess,
    static, external, abstract, virtual, sealed, override, async]

/-- How a modifier is spelled. -/
def keyword : Modifier → String
  | new => "new"
  | publicAccess => "public"
  | protectedInternalAccess => "protected internal"
  | protectedAccess => "protected"
  | internalAccess => "internal"
  | privateAccess => "private"
  | static => "static"
  | external => "extern"
  | abstract => "abstract"
  | virtual => "virtual"
  | sealed => "sealed"
  | override => "override"
  | async => "async"

/-- The spellings that declarations may use. -/
def spellings : List (String × Modifier) :=
  all.map (fun modifier => (modifier.keyword, modifier)) ++
    [("protectedInternal", protectedInternalAccess)]

/-- The bit of a modifier in the numeric form of a set. -/
def bit : Modifier → Nat
  | publicAccess => 1
  | protectedAccess => 2
  | internalAccess => 4
  | protectedInternalAccess => 8
  | privateAccess => 16
  | static => 32
  | virtual => 64
  | abstract => 128
  | sealed => 256
  | override => 512
  | external => 1024
  | async => 2048
  | new => 4096

end Modifier

/-- A set of modifiers. -/
@[ext] structure Modifiers where
  isNew : Bool := false
  isPublic : Bool := false
  isProtectedInternal : Bool := false
  isProtected : Bool := false
  isInternal : Bool := false
  isPrivate : Bool := false
  isStatic : Bool := false
  isExternal : Bool := false
  isAbstract : Bool := false
  isVirtual : Bool := false
  isSealed : Bool := false
  isOverride : Bool := false
  isAsync : Bool := false
deriving DecidableEq, Repr

/-- Who may use a member. -/
inductive Accessibility where
  | privateAccess
  | protectedAccess
  | internalAccess
  | protectedInternalAccess
  | publicAccess
deriving DecidableEq, Repr

namespace Modifiers

/-- The set without modifiers. -/
def empty : Modifiers := {}

instance : EmptyCollection Modifiers := ⟨empty⟩

instance : Inhabited Modifiers := ⟨empty⟩

/-- Whether a set has a modifier. -/
def has (m : Modifiers) : Modifier → Bool
  | .new => m.isNew
  | .publicAccess => m.isPublic
  | .protectedInternalAccess => m.isProtectedInternal
  | .protectedAccess => m.isProtected
  | .internalAccess => m.isInternal
  | .privateAccess => m.isPrivate
  | .static => m.isStatic
  | .external => m.isExternal
  | .abstract => m.isAbstract
  | .virtual => m.isVirtual
  | .sealed => m.isSealed
  | .override => m.isOverride
  | .async => m.isAsync

/-- The set of the modifiers that a test holds of. -/
def ofTest (test : Modifier → Bool) : Modifiers where
  isNew := test .new
  isPublic := test .publicAccess
  isProtectedInternal := test .protectedInternalAccess
  isProtected := test .protectedAccess
  isInternal := test .internalAccess
  isPrivate := test .privateAccess
  isStatic := test .static
  isExternal := test .external
  isAbstract := test .abstract
  isVirtual := test .virtual
  isSealed := test .sealed
  isOverride := test .override
  isAsync := test .async

@[simp, grind =] theorem has_ofTest (test : Modifier → Bool) (modifier : Modifier) :
    (ofTest test).has modifier = test modifier := by
  cases modifier <;> rfl

/-- Two sets with the same modifiers are equal. -/
theorem ext_has {a b : Modifiers} (h : ∀ modifier, a.has modifier = b.has modifier) : a = b := by
  ext
  · rw [show a.isNew = b.isNew from h .new]
  · rw [show a.isPublic = b.isPublic from h .publicAccess]
  · rw [show a.isProtectedInternal = b.isProtectedInternal from h .protectedInternalAccess]
  · rw [show a.isProtected = b.isProtected from h .protectedAccess]
  · rw [show a.isInternal = b.isInternal from h .internalAccess]
  · rw [show a.isPrivate = b.isPrivate from h .privateAccess]
  · rw [show a.isStatic = b.isStatic from h .static]
  · rw [show a.isExternal = b.isExternal from h .external]
  · rw [show a.isAbstract = b.isAbstract from h .abstract]
  · rw [show a.isVirtual = b.isVirtual from h .virtual]
  · rw [show a.isSealed = b.isSealed from h .sealed]
  · rw [show a.isOverride = b.isOverride from h .override]
  · rw [show a.isAsync = b.isAsync from h .async]

/-- The set of the modifiers of a list. -/
def ofList (modifiers : List Modifier) : Modifiers :=
  ofTest fun modifier => decide (modifier ∈ modifiers)

/-- The modifiers of a set, in the order in which they are displayed. -/
def toList (m : Modifiers) : List Modifier :=
  Modifier.all.filter m.has

instance : Union Modifiers := ⟨fun a b => ofTest fun modifier => a.has modifier || b.has modifier⟩

instance : Inter Modifiers := ⟨fun a b => ofTest fun modifier => a.has modifier && b.has modifier⟩

instance : SDiff Modifiers := ⟨fun a b => ofTest fun modifier => a.has modifier && !b.has modifier⟩

@[simp, grind =] theorem has_union (a b : Modifiers) (modifier : Modifier) :
    (a ∪ b).has modifier = (a.has modifier || b.has modifier) :=
  has_ofTest _ _

@[simp, grind =] theorem has_inter (a b : Modifiers) (modifier : Modifier) :
    (a ∩ b).has modifier = (a.has modifier && b.has modifier) :=
  has_ofTest _ _

@[simp, grind =] theorem has_sdiff (a b : Modifiers) (modifier : Modifier) :
    (a \ b).has modifier = (a.has modifier && !b.has modifier) :=
  has_ofTest _ _

/-- Whether a set has no modifier. -/
def isEmpty (m : Modifiers) : Bool := decide (m = ∅)

/-- The modifiers that give an accessibility. -/
def accesses : Modifiers where
  isPublic := true
  isProtectedInternal := true
  isProtected := true
  isInternal := true
  isPrivate := true

/-- The modifiers that give an accessibility other than public. -/
def restrictions : Modifiers :=
  { accesses with isPublic := false }

/-- The modifiers that say how calls are dispatched. -/
def dispatch : Modifiers where
  isVirtual := true
  isAbstract := true
  isOverride := true

/-- The accessibility that a set gives: the widest, if there are several. -/
def accessibility? (m : Modifiers) : Option Accessibility :=
  if m.isPublic then some .publicAccess
  else if m.isProtectedInternal then some .protectedInternalAccess
  else if m.isInternal then some .internalAccess
  else if m.isProtected then some .protectedAccess
  else if m.isPrivate then some .privateAccess
  else none

/-- The sum of the bits of a set. -/
def bits (m : Modifiers) : Nat :=
  m.toList.foldl (fun sum modifier => sum + modifier.bit) 0

instance : ToString Modifiers where
  toString m := " ".intercalate (m.toList.map Modifier.keyword)

end Modifiers

namespace Accessibility

/-- The modifier that gives an accessibility. -/
def modifier : Accessibility → Modifier
  | privateAccess => .privateAccess
  | protectedAccess => .protectedAccess
  | internalAccess => .internalAccess
  | protectedInternalAccess => .protectedInternalAccess
  | publicAccess => .publicAccess

/-- All accessibilities, the narrowest first. -/
def all : List Accessibility :=
  [privateAccess, protectedAccess, internalAccess, protectedInternalAccess, publicAccess]

/-- The name of an accessibility. -/
def name : Accessibility → String
  | privateAccess => "private"
  | protectedAccess => "protected"
  | internalAccess => "internal"
  | protectedInternalAccess => "protectedInternal"
  | publicAccess => "public"

/-- How wide an accessibility is. Neither of protected and internal is wider
than the other. -/
def width : Accessibility → Nat
  | privateAccess => 0
  | protectedAccess => 1
  | internalAccess => 1
  | protectedInternalAccess => 2
  | publicAccess => 3

/-- Whether an accessibility is strictly narrower than another. -/
def isNarrowerThan (a b : Accessibility) : Bool :=
  decide (a.width < b.width)

end Accessibility

/-- The set with its accessibility replaced. -/
def Modifiers.withAccessibility (m : Modifiers) (access : Accessibility) : Modifiers :=
  (m \ accesses) ∪ ofList [access.modifier]

end Conformance
