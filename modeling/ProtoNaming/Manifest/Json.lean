import ProtoNaming.Json.Printer
import ProtoNaming.Manifest.Basic

namespace ProtoNaming

def TypeRow.toJson (r : TypeRow) : Json := .object [
  ("kind", .string r.kind.name),
  ("fullName", .string r.fullName),
  ("jsName", .ofOption .string r.objectName),
  ("javaName", .ofOption .string r.className)]

def FieldRow.toJson (r : FieldRow) : Json := .object [
  ("message", .string r.message),
  ("name", .string r.name),
  ("accessor", .ofOption .string r.accessor),
  ("valueKind", .string r.valueKind.name),
  ("unsigned", .bool r.unsigned),
  ("wideIntAnnotation", .bool r.wideIntAnnotation),
  ("jstype", .ofOption (.string ·.name) r.jsType),
  ("presenceCheck", .bool r.presenceCheck),
  ("sanitizedContent", .ofOption (.string ·.name) r.sanitizedContent)]

def ExtensionRow.toJson (r : ExtensionRow) : Json := .object [
  ("name", .string r.name),
  ("extendee", .ofOption .string r.extendee),
  ("scope", .ofOption .string r.scope),
  ("accessor", .ofOption .string r.accessor),
  ("classAccessPath", .ofOption .string r.classPath),
  ("namespacedAccessPath", .ofOption .string r.objectPath),
  ("jsImport", .ofOption .string r.importName),
  ("jsName", .ofOption .string r.lookupName)]

namespace Manifest

def toJson (m : Manifest) : Json := .object [
  ("file", .string m.file),
  ("package", .string m.package),
  ("syntax", .string m.dialect.name),
  ("namespace", .ofOption .string m.rootName),
  ("javaPackage", .ofOption .string m.classPackage),
  ("javaOuterClassname", .ofOption .string m.outerClass),
  ("types", .array (m.types.map TypeRow.toJson)),
  ("fields", .array (m.fields.map FieldRow.toJson)),
  ("extensions", .array (m.extensions.map ExtensionRow.toJson))]

/-- The text of a manifest as it is written to its file. -/
def render (m : Manifest) : String := m.toJson.render

end Manifest

end ProtoNaming
