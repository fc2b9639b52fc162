import ProtoNaming.Naming.ExtensionPath

namespace ProtoNaming

structure TypeRow where
  kind : ElementKind
  fullName : String
  objectName : Option String
  className : Option String
  deriving DecidableEq

structure FieldRow where
  message : String
  name : String
  accessor : Option String
  valueKind : ValueKind
  unsigned : Bool
  wideIntAnnotation : Bool
  jsType : Option JsType
  presenceCheck : Bool
  sanitizedContent : Option SanitizedContent
  deriving DecidableEq

structure ExtensionRow where
  name : String
  extendee : Option String
  /-- The full name of the message it is declared in. -/
  scope : Option String
  accessor : Option String
  classPath : Option String
  objectPath : Option String
  importName : Option String
  lookupName : Option String
  deriving DecidableEq

/-- The names of everything in one file; those for a runtime that was not asked for are `none`. -/
structure Manifest where
  file : String
  package : String
  dialect : Dialect
  rootName : Option String
  classPackage : Option String
  outerClass : Option String
  types : List TypeRow
  fields : List FieldRow
  extensions : List ExtensionRow
  deriving DecidableEq

end ProtoNaming
