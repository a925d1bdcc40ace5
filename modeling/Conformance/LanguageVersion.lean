import Conformance.Text.Blank

/-!
Language versions, and the features that exist only from some version on.
-/

namespace Conformance

/-- The versions of the language that declarations can be bound for. -/
inductive LanguageVersion where
  | v7_0
  | v7_1
  | v7_2
  | v7_3
  | v8_0
  | latest
deriving DecidableEq, Repr

namespace LanguageVersion

instance : Inhabited LanguageVersion := ⟨latest⟩

/-- The place of a version in the order of their release. -/
def rank : LanguageVersion → Nat
  | v7_0 => 0
  | v7_1 => 1
  | v7_2 => 2
  | v7_3 => 3
  | v8_0 => 4
  | latest => 5

instance : LE LanguageVersion := ⟨fun a b => a.rank ≤ b.rank⟩

instance : LT LanguageVersion := ⟨fun a b => a.rank < b.rank⟩

instance (a b : LanguageVersion) : Decidable (a ≤ b) :=
  inferInstanceAs (Decidable (a.rank ≤ b.rank))

instance (a b : LanguageVersion) : Decidable (a < b) :=
  inferInstanceAs (Decidable (a.rank < b.rank))

/-- Which of two versions was released first. -/
def compare (a b : LanguageVersion) : Ordering :=
  Ord.compare a.rank b.rank

/-- The name of a version in diagnostics and declarations. -/
def name : LanguageVersion → String
  | v7_0 => "7.0"
  | v7_1 => "7.1"
  | v7_2 => "7.2"
  | v7_3 => "7.3"
  | v8_0 => "8.0"
  | latest => "latest"

/-- The version that a keyword names, in the form in which keywords are compared. -/
def ofKeyword? (word : String) : Option LanguageVersion :=
  if word = "7" ∨ word = "7.0" then some v7_0
  else if word = "7.1" then some v7_1
  else if word = "7.2" then some v7_2
  else if word = "7.3" then some v7_3
  else if word = "8" ∨ word = "8.0" then some v8_0
  else if word = "latest" ∨ word = "default" ∨ word = "preview" then some latest
  else none

/-- The version that a text names, blanks around it and letter case aside, or
the keyword that names none. -/
def parse (text : String) : Except String LanguageVersion :=
  match ofKeyword? (Text.keyword text) with
  | some version => .ok version
  | none => .error (Text.keyword text)

end LanguageVersion

/-- Features of the language that not every version has. -/
inductive Feature where
  /-- Interface members with bodies or with modifiers. -/
  | defaultInterfaceImplementation
deriving DecidableEq, Repr

namespace Feature

/-- The first version that has a feature. -/
def since : Feature → LanguageVersion
  | defaultInterfaceImplementation => .v8_0

/-- The name of a feature in diagnostics. -/
def name : Feature → String
  | defaultInterfaceImplementation => "default interface implementation"

end Feature

/-- Whether a version has a feature. -/
def LanguageVersion.supports (version : LanguageVersion) (feature : Feature) : Bool :=
  decide (feature.since ≤ version)

end Conformance
