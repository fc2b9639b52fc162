import ProtoNaming.Descriptor.Basic
import ProtoNaming.Wire.Record

namespace ProtoNaming

open Wire

def FileOptions.toRecord (o : FileOptions) : Record :=
  .ofText 1 o.javaPackage ++ .ofText 8 o.javaOuterClassname ++ .ofBool 10 o.javaMultipleFiles

def FileOptions.ofRecord (r : Record) : FileOptions where
  javaPackage := r.text? 1
  javaOuterClassname := r.text? 8
  javaMultipleFiles := r.bool? 10

def MessageOptions.toRecord (o : MessageOptions) : Record := .ofBool 7 o.mapEntry

def MessageOptions.ofRecord (r : Record) : MessageOptions where
  mapEntry := r.bool? 7

def FieldOptions.toRecord (o : FieldOptions) : Record := .ofInt 6 o.jsType

def FieldOptions.ofRecord (r : Record) : FieldOptions where
  jsType := r.int? 6

def FieldDescriptor.toRecord (d : FieldDescriptor) : Record :=
  .ofText 1 d.name ++ .ofText 2 d.extendee ++ .ofInt 3 d.number ++ .ofInt 4 d.label
    ++ .ofInt 5 d.typeCode ++ .ofText 6 d.typeName ++ .ofText 7 d.defaultValue
    ++ .ofRecord 8 (d.options.map FieldOptions.toRecord) ++ .ofInt 9 d.oneofIndex
    ++ .ofText 10 d.jsonName

def FieldDescriptor.ofRecord (r : Record) : FieldDescriptor where
  name := r.text? 1
  extendee := r.text? 2
  number := r.int? 3
  label := r.int? 4
  typeCode := r.int? 5
  typeName := r.text? 6
  defaultValue := r.text? 7
  options := (r.record? 8).map FieldOptions.ofRecord
  oneofIndex := r.int? 9
  jsonName := r.text? 10

def EnumDescriptor.toRecord (d : EnumDescriptor) : Record := .ofText 1 d.name

def EnumDescriptor.ofRecord (r : Record) : EnumDescriptor where
  name := r.text? 1

namespace MessageDescriptor

mutual

def toRecord : MessageDescriptor → Record
  | ⟨name, fields, nested, enums, extensions, options⟩ =>
    .ofText 1 name ++ .ofRecords 2 (fields.map FieldDescriptor.toRecord)
      ++ .ofRecords 3 (toRecords nested) ++ .ofRecords 4 (enums.map EnumDescriptor.toRecord)
      ++ .ofRecords 6 (extensions.map FieldDescriptor.toRecord)
      ++ .ofRecord 7 (options.map MessageOptions.toRecord)

def toRecords : List MessageDescriptor → List Record
  | [] => []
  | d :: ds => toRecord d :: toRecords ds

end

/-- A message from its own fields and the messages found inside it. -/
def assemble (r : Record) (nested : List MessageDescriptor) : MessageDescriptor where
  name := r.text? 1
  fields := (r.records 2).map FieldDescriptor.ofRecord
  nested := nested
  enums := (r.records 4).map EnumDescriptor.ofRecord
  extensions := (r.records 6).map FieldDescriptor.ofRecord
  options := (r.record? 7).map MessageOptions.ofRecord

mutual

def nestedOfRecord : List (Nat × Value) → List MessageDescriptor
  | [] => []
  | (number, value) :: rest =>
    (if number = 3 then nestedOfValue value else []) ++ nestedOfRecord rest

def nestedOfValue : Value → List MessageDescriptor
  | .record r => [assemble r (nestedOfRecord r)]
  | _ => []

end

def ofRecord (r : Record) : MessageDescriptor := assemble r (nestedOfRecord r)

theorem nestedOfRecord_eq (r : Record) : nestedOfRecord r = (r.records 3).map ofRecord := by
  induction r with
  | nil => simp [nestedOfRecord, Record.records, Record.values]
  | cons entry rest ih =>
    obtain ⟨number, value⟩ := entry
    by_cases hn : number = 3
    · cases value <;>
        simp [nestedOfRecord, nestedOfValue, hn, ih, ofRecord, Record.records, Record.values,
          List.filterMap_cons, Value.record?]
    · simp [nestedOfRecord, hn, ih, Record.records, Record.values]

end MessageDescriptor

def FileDescriptor.toRecord (d : FileDescriptor) : Record :=
  .ofText 1 d.name ++ .ofText 2 d.package ++ .ofTexts 3 d.dependencies
    ++ .ofRecords 4 (d.messages.map MessageDescriptor.toRecord)
    ++ .ofRecords 5 (d.enums.map EnumDescriptor.toRecord)
    ++ .ofRecords 7 (d.extensions.map FieldDescriptor.toRecord)
    ++ .ofRecord 8 (d.options.map FileOptions.toRecord) ++ .ofText 12 d.dialect

def FileDescriptor.ofRecord (r : Record) : FileDescriptor where
  name := r.text? 1
  package := r.text? 2
  dependencies := r.texts 3
  messages := (r.records 4).map MessageDescriptor.ofRecord
  enums := (r.records 5).map EnumDescriptor.ofRecord
  extensions := (r.records 7).map FieldDescriptor.ofRecord
  options := (r.record? 8).map FileOptions.ofRecord
  dialect := r.text? 12

end ProtoNaming
