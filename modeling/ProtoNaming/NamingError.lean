namespace ProtoNaming

inductive NamingError where
  | unsupportedType (code : Int)
  /-- The full name of `element` is not under its file's package. -/
  | outsidePackage (element expectedPrefix : String)
  | notExtension (field : String)
  | unknownTarget (name : String)
  deriving DecidableEq

def NamingError.message : NamingError → String
  | unsupportedType code => "Unsupported protobuf field type: " ++ toString code
  | outsidePackage element expectedPrefix =>
    "Expected \"" ++ element ++ "\" to start with \"" ++ expectedPrefix ++ "\""
  | notExtension field => "Field \"" ++ field ++ "\" is not an extension"
  | unknownTarget name =>
    "Unknown target \"" ++ name ++ "\" (expected one of: class, namespaced)"

end ProtoNaming
