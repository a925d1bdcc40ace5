import Conformance.Resolution.Basic
import Conformance.Symbol.Encoding

/-!
Answers of resolution as JSON trees, for inspection.
-/

namespace Conformance

open Json (nat string array object field ofOption)

/-- Why a member was passed over. -/
def MismatchReason.name : MismatchReason → String
  | static => "static"
  | notPublic => "not_public"

/-- Bodies of interface members. -/
def DefaultBody.encode (body : DefaultBody) : Json :=
  let name := match body with
    | missing => "missing"
    | usable _ => "usable"
    | unsupported _ => "unsupported"
  array [string name, ofOption MemberId.encode body.member?, .bool body.isUnsupported]

/-- What a level says about the search for an interface member. -/
def LevelTable.encodeSearch (level : LevelTable) (target : MemberId) (key : SignatureKey) : Json :=
  let shape := level.shape key.name
  object (field "implicit" (array ((level.candidates key).map MemberId.encode)) ++
    field "explicit" (ofOption MemberId.encode (level.explicit? target)) ++
    field "shape" (array [.bool shape.methods, .bool shape.properties, .bool shape.events]) ++
    field "hides" (.bool (level.hides key)))

namespace SymbolTable

/-- A member by its id and name. -/
def encodeNamed (table : SymbolTable) (id : MemberId) : Json :=
  array [id.encode, string (table.display id)]

/-- Members that were passed over. -/
def encodeMismatch (table : SymbolTable) (close : CloseMismatch) : Json :=
  array [string close.reason.name, close.candidate.encode, string (table.display close.candidate)]

/-- Resolutions. -/
def encodeResolution (table : SymbolTable) (resolution : Resolution) : Json :=
  object (field "member" (ofOption table.encodeNamed resolution.member?) ++
    field "source" (ofOption (fun source => string source.name) resolution.source?) ++
    field "close_mismatch" (ofOption table.encodeMismatch resolution.closeMismatch))

end SymbolTable

end Conformance
