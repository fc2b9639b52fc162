import ProtoNaming.Schema.Basic

namespace ProtoNaming

/-- Only 64-bit integers can be held in another way by the namespaced runtime. -/
def FieldType.isWide (type : FieldType) : Bool := type.valueKind = .long

/-- What a text is safe to be used as. -/
inductive SanitizedContent where
  | html | js | css | uri | trustedResourceUri
  deriving DecidableEq

namespace SanitizedContent

def name : SanitizedContent → String
  | html => "html"
  | js => "js"
  | css => "css"
  | uri => "uri"
  | trustedResourceUri => "trusted_resource_uri"

/-- The well-known messages that carry such a text. -/
def wrappers : List (String × SanitizedContent) := [
  ("webutil.html.types.SafeHtmlProto", html),
  ("webutil.html.types.SafeScriptProto", js),
  ("webutil.html.types.SafeStyleProto", css),
  ("webutil.html.types.SafeStyleSheetProto", css),
  ("webutil.html.types.SafeUrlProto", uri),
  ("webutil.html.types.TrustedResourceUrlProto", trustedResourceUri)]

end SanitizedContent

namespace Field

def type? (f : Field) : Option FieldType := FieldType.ofCode? f.typeCode

def valueKind (f : Field) : Except NamingError ValueKind :=
  (FieldType.ofCode f.typeCode).map FieldType.valueKind

def isRepeated (f : Field) : Bool := f.label = 3

def isUnsigned (f : Field) : Bool := f.type?.any FieldType.isUnsigned

def hasWideIntAnnotation (f : Field) : Bool := f.type?.any FieldType.isWide && f.jsType.isSome

/-- Whether code has to ask for presence to tell an unset field from one that holds its default.
A repeated field and one with a declared default never need it; without explicit presence only
messages do. -/
def needsPresenceCheck (dialect : Dialect) (f : Field) : Except NamingError Bool :=
  if f.defaultValue.isSome || f.isRepeated then .ok false
  else match dialect with
    | .proto2 => .ok true
    | .proto3 => f.valueKind.map fun kind => kind = .message

def sanitizedContent (f : Field) : Option SanitizedContent :=
  if f.type? = some .message then
    f.typeName.bind fun name => SanitizedContent.wrappers.lookup name
  else none

end Field

end ProtoNaming
