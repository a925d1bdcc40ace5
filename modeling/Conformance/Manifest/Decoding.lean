import Conformance.Declaration.Decoding
import Conformance.Json.Reader
import Conformance.Manifest.Basic

/-!
Manifests read from JSON texts.

An assembly of a manifest is one object that holds the fields of a declaration
beside the options. The options are decoded as the object is read; all other
fields are collected, and the declaration is decoded from them after the whole
of the object.
-/

namespace Conformance

open Json (Decoder Layout decodeString decodeList decodeNullable)

/-- Language versions, by name. -/
def LanguageVersion.decode : Decoder LanguageVersion := fun tree => do
  match parse (← decodeString tree) with
  | .ok version => return version
  | .error word => throw (.notLanguageVersion word)

/-- The words for a truth value in an option. -/
def switchWords : List (String × Bool) :=
  [("true", true), ("1", true), ("yes", true), ("on", true),
    ("false", false), ("0", false), ("no", false), ("off", false)]

/-- Truth values, which may also be written as one of several words. -/
def decodeSwitch : Decoder Bool
  | .bool value => .ok value
  | .string text => match switchWords.lookup (Text.keyword text) with
    | some value => .ok value
    | none => .error (.notSwitch text)
  | tree => Json.refuse tree

/-- Options of a compilation. -/
def CompilationOptions.layout : Layout CompilationOptions where
  start := {}
  required := []
  fields :=
    [ ("languageVersion", fun tree options => do
        return { options with version := ← LanguageVersion.decode tree }),
      ("runtimeSupport", fun tree options => do
        return { options with runtimeSupport := ← decodeNullable decodeSwitch tree }) ]
  collects := true

/-- Assemblies of a manifest. -/
def ManifestEntry.decode : Decoder ManifestEntry
  | .object fields => do
    let options ← CompilationOptions.layout.decodeFields fields
    let decl ← (AssemblyDecl.layout .collected).decodeFields fields
    return { decl, options }
  | tree => Json.refuse tree

namespace Manifest

/-- Manifests. -/
def layout : Layout Manifest where
  start := { assemblies := [] }
  required := ["assemblies"]
  fields :=
    [ ("assemblies", fun tree manifest => do
        return { manifest with assemblies := ← decodeList ManifestEntry.decode tree }) ]

/-- The manifest that a text holds, whether or not it is a good one. -/
def read (text : String) : Except ManifestError Manifest :=
  let document := Json.read text
  (Json.decodeDocument layout.decode document.tree document.complete).mapError .invalid

/-- The manifest that a text holds, if it passes validation. -/
def parse (text : String) : Except ManifestError Manifest := do
  let manifest ← read text
  manifest.validate
  return manifest

end Manifest

end Conformance
