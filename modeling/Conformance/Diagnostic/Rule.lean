/-!
The rules that declarations and types are checked against, with the code, the
category and the message template of each.
-/

namespace Conformance

/-- How serious a diagnostic is. -/
inductive Category where
  | warning
  | error
  | suggestion
  | message
deriving DecidableEq, Repr

/-- The name of a category in reports. -/
def Category.name : Category → String
  | warning => "Warning"
  | error => "Error"
  | suggestion => "Suggestion"
  | message => "Message"

/-- A rule that a diagnostic reports the breach of. -/
inductive Rule where
  | modifierNotValid
  | hidesInheritedMember
  | hidesNothing
  | staticAndDispatched
  | circularBase
  | externalWithBody
  | externalAndAbstract
  | sealedNotOverride
  | nameNotFound
  | accessorNotNarrower
  | bothAccessorsNarrowed
  | loneAccessorNarrowed
  | privateAccessorOfAbstract
  | abstractWithBody
  | missingBody
  | abstractAndSealed
  | abstractAndVirtual
  | sealedBase
  | abstractInConcreteType
  | listedNotInterface
  | circularInterface
  | notImplemented
  | explicitNotInterface
  | explicitNotFound
  | explicitNotListed
  | accessorNotInInterface
  | privateAndDispatched
  | candidateStatic
  | candidateNotPublic
  | candidateReturnType
  | featureNotAvailable
  | runtimeLacksDefaults
  | runtimeLacksDefaultFor
  | declaredHere
deriving DecidableEq, Repr

namespace Rule

/-- All rules, in the order of their codes. -/
def all : List Rule :=
  [modifierNotValid, hidesInheritedMember, hidesNothing, staticAndDispatched, circularBase,
    externalWithBody, externalAndAbstract, sealedNotOverride, nameNotFound, accessorNotNarrower,
    bothAccessorsNarrowed, loneAccessorNarrowed, privateAccessorOfAbstract, abstractWithBody,
    missingBody, abstractAndSealed, abstractAndVirtual, sealedBase, abstractInConcreteType,
    listedNotInterface, circularInterface, notImplemented, explicitNotInterface, explicitNotFound,
    explicitNotListed, accessorNotInInterface, privateAndDispatched, candidateStatic,
    candidateNotPublic, candidateReturnType, featureNotAvailable, runtimeLacksDefaults,
    runtimeLacksDefaultFor, declaredHere]

/-- The code of a rule. -/
def code : Rule → Nat
  | modifierNotValid => 106
  | hidesInheritedMember => 108
  | hidesNothing => 109
  | staticAndDispatched => 112
  | circularBase => 146
  | externalWithBody => 179
  | externalAndAbstract => 180
  | sealedNotOverride => 238
  | nameNotFound => 246
  | accessorNotNarrower => 273
  | bothAccessorsNarrowed => 274
  | loneAccessorNarrowed => 276
  | privateAccessorOfAbstract => 442
  | abstractWithBody => 500
  | missingBody => 501
  | abstractAndSealed => 502
  | abstractAndVirtual => 503
  | sealedBase => 509
  | abstractInConcreteType => 513
  | listedNotInterface => 527
  | circularInterface => 529
  | notImplemented => 535
  | explicitNotInterface => 538
  | explicitNotFound => 539
  | explicitNotListed => 540
  | accessorNotInInterface => 550
  | privateAndDispatched => 621
  | candidateStatic => 736
  | candidateNotPublic => 737
  | candidateReturnType => 738
  | featureNotAvailable => 8107
  | runtimeLacksDefaults => 8701
  | runtimeLacksDefaultFor => 8707
  | declaredHere => 9001

/-- The rule with a code. -/
def ofCode? (code : Nat) : Option Rule :=
  all.find? fun rule => decide (rule.code = code)

/-- The category of the diagnostics of a rule. -/
def category : Rule → Category
  | hidesInheritedMember => .warning
  | hidesNothing => .warning
  | declaredHere => .message
  | _ => .error

/-- The message template of a rule. -/
def template : Rule → String
  | modifierNotValid =>
    "The modifier '\x7b0\x7d' is not valid for this item"
  | hidesInheritedMember =>
    "'\x7b0\x7d' hides inherited member '\x7b1\x7d'. Use the new keyword if hiding was intended."
  | hidesNothing =>
    "The member '\x7b0\x7d' does not hide an accessible member. The new keyword is not required."
  | staticAndDispatched =>
    "A static member '\x7b0\x7d' cannot be marked as override, virtual, or abstract"
  | circularBase =>
    "Circular base type dependency involving '\x7b0\x7d' and '\x7b1\x7d'"
  | externalWithBody =>
    "'\x7b0\x7d' cannot be extern and declare a body"
  | externalAndAbstract =>
    "'\x7b0\x7d' cannot be both extern and abstract"
  | sealedNotOverride =>
    "'\x7b0\x7d' cannot be sealed because it is not an override"
  | nameNotFound =>
    "The type or namespace name '\x7b0\x7d' could not be found"
  | accessorNotNarrower =>
    "The accessibility modifier of the '\x7b0\x7d' accessor must be more restrictive " ++
      "than the property or indexer '\x7b1\x7d'"
  | bothAccessorsNarrowed =>
    "Cannot specify accessibility modifiers for both accessors of the property or " ++
      "indexer '\x7b0\x7d'"
  | loneAccessorNarrowed =>
    "'\x7b0\x7d': accessibility modifiers on accessors may only be used if the property " ++
      "or indexer has both a get and set accessor"
  | privateAccessorOfAbstract =>
    "'\x7b0\x7d': abstract properties cannot have private accessors"
  | abstractWithBody =>
    "'\x7b0\x7d' cannot declare a body because it is marked abstract"
  | missingBody =>
    "'\x7b0\x7d' must declare a body because it is not marked abstract, extern, or partial"
  | abstractAndSealed =>
    "'\x7b0\x7d' cannot be both abstract and sealed"
  | abstractAndVirtual =>
    "The abstract member '\x7b0\x7d' cannot be marked virtual"
  | sealedBase =>
    "'\x7b0\x7d': cannot derive from sealed type '\x7b1\x7d'"
  | abstractInConcreteType =>
    "'\x7b0\x7d' is abstract but it is contained in non-abstract type '\x7b1\x7d'"
  | listedNotInterface =>
    "Type '\x7b0\x7d' in interface list is not an interface"
  | circularInterface =>
    "Inherited interface '\x7b1\x7d' causes a cycle in the interface hierarchy of '\x7b0\x7d'"
  | notImplemented =>
    "'\x7b0\x7d' does not implement interface member '\x7b1\x7d'"
  | explicitNotInterface =>
    "'\x7b0\x7d' in explicit interface declaration is not an interface"
  | explicitNotFound =>
    "'\x7b0\x7d' in explicit interface declaration is not found among members of the " ++
      "interface that can be implemented"
  | explicitNotListed =>
    "'\x7b0\x7d': containing type does not implement interface '\x7b1\x7d'"
  | accessorNotInInterface =>
    "'\x7b0\x7d' adds an accessor not found in interface member '\x7b1\x7d'"
  | privateAndDispatched =>
    "'\x7b0\x7d': virtual or abstract members cannot be private"
  | candidateStatic =>
    "'\x7b0\x7d' does not implement instance interface member '\x7b1\x7d'. '\x7b2\x7d' " ++
      "cannot implement the interface member because it is static."
  | candidateNotPublic =>
    "'\x7b0\x7d' does not implement interface member '\x7b1\x7d'. '\x7b2\x7d' cannot " ++
      "implement an interface member because it is not public."
  | candidateReturnType =>
    "'\x7b0\x7d' does not implement interface member '\x7b1\x7d'. '\x7b2\x7d' cannot " ++
      "implement '\x7b1\x7d' because it does not have the matching return type of " ++
      "'\x7b3\x7d'."
  | featureNotAvailable =>
    "Feature '\x7b0\x7d' is not available in C# \x7b1\x7d. Please use language version " ++
      "\x7b2\x7d or greater."
  | runtimeLacksDefaults =>
    "Target runtime doesn't support default interface implementation."
  | runtimeLacksDefaultFor =>
    "Type '\x7b1\x7d' cannot implement interface member '\x7b0\x7d' with its default " ++
      "implementation because the target runtime doesn't support default interface " ++
      "implementation."
  | declaredHere =>
    "'\x7b0\x7d' is declared here."

end Rule

end Conformance
