namespace ProtoNaming

/-- Here and below what was not written is `none`. -/
structure FileOptions where
  javaPackage : Option String := none
  javaOuterClassname : Option String := none
  javaMultipleFiles : Option Bool := none
  deriving DecidableEq

structure MessageOptions where
  mapEntry : Option Bool := none
  deriving DecidableEq

structure FieldOptions where
  jsType : Option Int := none
  deriving DecidableEq

structure FieldDescriptor where
  name : Option String := none
  extendee : Option String := none
  number : Option Int := none
  label : Option Int := none
  typeCode : Option Int := none
  typeName : Option String := none
  defaultValue : Option String := none
  options : Option FieldOptions := none
  oneofIndex : Option Int := none
  jsonName : Option String := none
  deriving DecidableEq

structure EnumDescriptor where
  name : Option String := none
  deriving DecidableEq

structure MessageDescriptor where
  name : Option String := none
  fields : List FieldDescriptor := []
  nested : List MessageDescriptor := []
  enums : List EnumDescriptor := []
  extensions : List FieldDescriptor := []
  options : Option MessageOptions := none
  deriving Inhabited

structure FileDescriptor where
  name : Option String := none
  package : Option String := none
  dependencies : List String := []
  messages : List MessageDescriptor := []
  enums : List EnumDescriptor := []
  extensions : List FieldDescriptor := []
  options : Option FileOptions := none
  dialect : Option String := none

end ProtoNaming
