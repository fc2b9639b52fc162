import ProtoNaming.Descriptor.Basic
import ProtoNaming.Schema.Basic

namespace ProtoNaming

/-- A name after that of what it is inside, which is empty outside packages. -/
def nameInside (parent name : String) : String :=
  if parent = "" then name else parent ++ "." ++ name

def Decl.inside (parent name : String) (index : Nat) : Decl :=
  ⟨name, nameInside parent name, index⟩

/-- References are written from the root, as `.foo.Bar`. -/
def withoutLeadingDot (name : String) : String :=
  match name.toList with
  | '.' :: cs => String.ofList cs
  | _ => name

namespace FieldDescriptor

def build (d : FieldDescriptor) : Except NamingError Field := do
  let code := d.typeCode.getD 0
  let _ ← FieldType.ofCode code
  return {
    name := d.name.getD ""
    number := d.number.getD 0
    typeCode := code
    typeName := d.typeName.map withoutLeadingDot
    label := d.label.getD 1
    defaultValue := d.defaultValue
    jsType := (d.options.bind (·.jsType)).map JsType.ofNumber
    owner := none
    isExtension := false
    extendee := none
    scope := none }

def buildMember (owner : Place) (d : FieldDescriptor) : Except NamingError Field := do
  return { ← d.build with owner := some owner }

def buildExtension (scope : Option Place) (d : FieldDescriptor) : Except NamingError Field := do
  return { ← d.build with
    isExtension := true
    extendee := d.extendee.map withoutLeadingDot
    scope := scope }

end FieldDescriptor

def EnumDescriptor.build (parent : String) (outer : List Decl) (index : Nat) (d : EnumDescriptor) :
    EnumType :=
  ⟨⟨.inside parent (d.name.getD "") index, outer⟩⟩

mutual

/-- A message inside `outer`, where full names start with `parent`. The fields come before what is
nested and the extensions after it, so that the first fault in this order is reported. -/
def MessageDescriptor.build (parent : String) (outer : List Decl) (index : Nat) :
    MessageDescriptor → Except NamingError Message
  | ⟨name, fields, nested, enums, extensions, options⟩ => do
    let decl := Decl.inside parent (name.getD "") index
    let place : Place := ⟨decl, outer⟩
    let fields ← fields.mapM (FieldDescriptor.buildMember place)
    let nested ← MessageDescriptor.buildAll decl.fullName (decl :: outer) 0 nested
    let extensions ← extensions.mapM (FieldDescriptor.buildExtension (some place))
    return {
      place := place
      isMapEntry := options.bind (·.mapEntry) == some true
      fields := fields
      nested := nested
      enums := enums.mapIdx (EnumDescriptor.build decl.fullName (decl :: outer))
      extensions := extensions }

def MessageDescriptor.buildAll (parent : String) (outer : List Decl) (index : Nat) :
    List MessageDescriptor → Except NamingError (List Message)
  | [] => return []
  | d :: ds => do
    let m ← MessageDescriptor.build parent outer index d
    let ms ← MessageDescriptor.buildAll parent outer (index + 1) ds
    return m :: ms

end

def FileDescriptor.build (d : FileDescriptor) : Except NamingError File := do
  let package := d.package.getD ""
  let messages ← MessageDescriptor.buildAll package [] 0 d.messages
  let extensions ← d.extensions.mapM (FieldDescriptor.buildExtension none)
  return {
    name := d.name.getD ""
    package := package
    dialect := Dialect.ofWord d.dialect
    javaPackage := d.options.bind (·.javaPackage)
    javaOuterClassname := d.options.bind (·.javaOuterClassname)
    javaMultipleFiles := d.options.bind (·.javaMultipleFiles) == some true
    messages := messages
    enums := d.enums.mapIdx (EnumDescriptor.build package [])
    extensions := extensions }

end ProtoNaming
