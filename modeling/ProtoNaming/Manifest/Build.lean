import ProtoNaming.Manifest.Basic

namespace ProtoNaming

def nameIf (wanted : Bool) (name : Except NamingError String) :
    Except NamingError (Option String) :=
  if wanted then name.map some else .ok none

def TypeRow.build (file : File) (targets : List Target) (e : Element) :
    Except NamingError TypeRow := do
  return {
    kind := e.kind
    fullName := e.place.decl.fullName
    objectName := ← nameIf (targets.contains .namespaced) (file.objectName e.place.decl)
    className := ← nameIf (targets.contains .classBased) (file.className e.place.decl) }

def FieldRow.build (file : File) (targets : List Target) (message : Decl) (f : Field) :
    Except NamingError FieldRow := do
  return {
    message := message.fullName
    name := f.name
    accessor := if targets.contains .namespaced then some f.accessor else none
    valueKind := ← f.valueKind
    unsigned := f.isUnsigned
    wideIntAnnotation := f.hasWideIntAnnotation
    jsType := f.jsType
    presenceCheck := ← f.needsPresenceCheck file.dialect
    sanitizedContent := f.sanitizedContent }

def ExtensionRow.build (file : File) (targets : List Target) (f : Field) :
    Except NamingError ExtensionRow := do
  let withObjects := targets.contains .namespaced
  return {
    name := f.name
    extendee := f.extendee
    scope := f.scope.map (·.decl.fullName)
    accessor := if withObjects then some f.accessor else none
    classPath := ← nameIf (targets.contains .classBased) (file.accessPath f .classBased)
    objectPath := ← nameIf withObjects (file.accessPath f .namespaced)
    importName := ← nameIf withObjects (file.importName f)
    lookupName := ← nameIf withObjects (file.lookupName f) }

/-- The fields of a message with the message itself. -/
def Message.ownedFields (m : Message) : List (Decl × Field) :=
  m.fields.map fun f => (m.place.decl, f)

/-- Map entries have no rows of their own, and nothing inside them but extensions has. -/
def Message.isListed (m : Message) : Bool := !m.isMapEntry

def File.manifest (file : File) (targets : List Target) : Except NamingError Manifest := do
  let withClasses := targets.contains .classBased
  let types ← (file.elements Message.isListed).mapM (TypeRow.build file targets)
  let fields ← ((file.preorder Message.isListed).flatMap Message.ownedFields).mapM
    fun (message, f) => FieldRow.build file targets message f
  let extensions ← file.allExtensions.mapM (ExtensionRow.build file targets)
  return {
    file := file.name
    package := file.package
    dialect := file.dialect
    rootName := if targets.contains .namespaced then some file.rootName else none
    classPackage := if withClasses then some file.classPackage else none
    outerClass := if withClasses then some file.outerClass else none
    types := types
    fields := fields
    extensions := extensions }

end ProtoNaming
