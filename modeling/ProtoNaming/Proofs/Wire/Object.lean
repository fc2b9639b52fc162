import ProtoNaming.Plugin.Request
import ProtoNaming.Plugin.Response

namespace ProtoNaming

open Wire

namespace Wire

/-- The values of a list, with that of a field under its number after them. -/
def appendUnder {α : Type} (number : Nat) (read : Value → Option α) (as : List α)
    (field : Nat × Value) : List α :=
  if field.1 = number then as ++ (read field.2).toList else as

/-- The value of what is no list, that of a field under its number in place of an earlier one. -/
def replaceUnder {α : Type} (number : Nat) (read : Value → Option α) (a : Option α)
    (field : Nat × Value) : Option α :=
  if field.1 = number then (read field.2).or a else a

def Value.object? {α : Type} (read : Record → α) (v : Value) : Option α := v.record?.map read

end Wire

def FileOptions.absorb (o : FileOptions) (f : Nat × Value) : FileOptions where
  javaPackage := replaceUnder 1 Value.text? o.javaPackage f
  javaOuterClassname := replaceUnder 8 Value.text? o.javaOuterClassname f
  javaMultipleFiles := replaceUnder 10 Value.bool? o.javaMultipleFiles f

def MessageOptions.absorb (o : MessageOptions) (f : Nat × Value) : MessageOptions where
  mapEntry := replaceUnder 7 Value.bool? o.mapEntry f

def FieldOptions.absorb (o : FieldOptions) (f : Nat × Value) : FieldOptions where
  jsType := replaceUnder 6 Value.int? o.jsType f

def FieldDescriptor.absorb (o : FieldDescriptor) (f : Nat × Value) : FieldDescriptor where
  name := replaceUnder 1 Value.text? o.name f
  extendee := replaceUnder 2 Value.text? o.extendee f
  number := replaceUnder 3 Value.int? o.number f
  label := replaceUnder 4 Value.int? o.label f
  typeCode := replaceUnder 5 Value.int? o.typeCode f
  typeName := replaceUnder 6 Value.text? o.typeName f
  defaultValue := replaceUnder 7 Value.text? o.defaultValue f
  options := replaceUnder 8 (Value.object? FieldOptions.ofRecord) o.options f
  oneofIndex := replaceUnder 9 Value.int? o.oneofIndex f
  jsonName := replaceUnder 10 Value.text? o.jsonName f

def EnumDescriptor.absorb (o : EnumDescriptor) (f : Nat × Value) : EnumDescriptor where
  name := replaceUnder 1 Value.text? o.name f

def MessageDescriptor.absorb (o : MessageDescriptor) (f : Nat × Value) : MessageDescriptor where
  name := replaceUnder 1 Value.text? o.name f
  fields := appendUnder 2 (Value.object? FieldDescriptor.ofRecord) o.fields f
  nested := appendUnder 3 (Value.object? MessageDescriptor.ofRecord) o.nested f
  enums := appendUnder 4 (Value.object? EnumDescriptor.ofRecord) o.enums f
  extensions := appendUnder 6 (Value.object? FieldDescriptor.ofRecord) o.extensions f
  options := replaceUnder 7 (Value.object? MessageOptions.ofRecord) o.options f

def FileDescriptor.absorb (o : FileDescriptor) (f : Nat × Value) : FileDescriptor where
  name := replaceUnder 1 Value.text? o.name f
  package := replaceUnder 2 Value.text? o.package f
  dependencies := appendUnder 3 Value.text? o.dependencies f
  messages := appendUnder 4 (Value.object? MessageDescriptor.ofRecord) o.messages f
  enums := appendUnder 5 (Value.object? EnumDescriptor.ofRecord) o.enums f
  extensions := appendUnder 7 (Value.object? FieldDescriptor.ofRecord) o.extensions f
  options := replaceUnder 8 (Value.object? FileOptions.ofRecord) o.options f
  dialect := replaceUnder 12 Value.text? o.dialect f

def Request.absorb (o : Request) (f : Nat × Value) : Request where
  filesToGenerate := appendUnder 1 Value.text? o.filesToGenerate f
  parameter := replaceUnder 2 Value.text? o.parameter f
  files := appendUnder 15 (Value.object? FileDescriptor.ofRecord) o.files f

/-- A file's name and content are empty until they are given. -/
def OutputFile.absorb (o : OutputFile) (f : Nat × Value) : OutputFile where
  name := (replaceUnder 1 Value.text? (some o.name) f).getD ""
  content := (replaceUnder 15 Value.text? (some o.content) f).getD ""

def Response.absorb (o : Response) (f : Nat × Value) : Response where
  error := replaceUnder 1 Value.text? o.error f
  supportedFeatures := replaceUnder 2 Value.nat? o.supportedFeatures f
  files := appendUnder 15 (Value.object? OutputFile.ofRecord) o.files f

namespace Wire

namespace Record

variable {n : Nat} (r : Record) (f : Nat × Value)

theorem filterMap_values_concat {α : Type} (read : Value → Option α) :
    (values n (r ++ [f])).filterMap read = appendUnder n read ((values n r).filterMap read) f := by
  obtain ⟨k, v⟩ := f
  unfold values appendUnder
  rw [List.filterMap_append, List.filterMap_append]
  by_cases hk : k = n
  · simp only [hk, if_true, List.filterMap_cons, List.filterMap_nil]
    cases read v <;> rfl
  · simp [hk]

theorem getLast?_appendUnder {α : Type} (read : Value → Option α) (as : List α) :
    (appendUnder n read as f).getLast? = replaceUnder n read as.getLast? f := by
  unfold appendUnder replaceUnder
  split
  · rw [List.getLast?_append]
    cases read f.2 <;> rfl
  · rfl

theorem getD_replaceUnder {α : Type} (read : Value → Option α) (a : Option α) (d : α) :
    (replaceUnder n read (some (a.getD d)) f).getD d = (replaceUnder n read a f).getD d := by
  unfold replaceUnder
  split
  · cases read f.2 <;> rfl
  · rfl

theorem map_records_concat {α : Type} (read : Record → α) :
    (records n (r ++ [f])).map read =
      appendUnder n (Value.object? read) ((records n r).map read) f := by
  rw [records, filterMap_values_concat]
  unfold appendUnder Value.object?
  split
  · rw [List.map_append]
    cases f.2.record? <;> rfl
  · rfl

theorem map_record?_concat {α : Type} (read : Record → α) :
    (record? n (r ++ [f])).map read =
      replaceUnder n (Value.object? read) ((record? n r).map read) f := by
  rw [record?, ← List.getLast?_map, map_records_concat, getLast?_appendUnder, List.getLast?_map]
  rfl

end Record

end Wire

section

variable (r : Record) (f : Nat × Value)

open Wire.Record

theorem FileOptions.ofRecord_concat : ofRecord (r ++ [f]) = (ofRecord r).absorb f := by
  simp only [ofRecord, absorb, text?, texts, bool?, filterMap_values_concat, getLast?_appendUnder]

theorem MessageOptions.ofRecord_concat : ofRecord (r ++ [f]) = (ofRecord r).absorb f := by
  simp only [ofRecord, absorb, bool?, filterMap_values_concat, getLast?_appendUnder]

theorem FieldOptions.ofRecord_concat : ofRecord (r ++ [f]) = (ofRecord r).absorb f := by
  simp only [ofRecord, absorb, int?, filterMap_values_concat, getLast?_appendUnder]

theorem FieldDescriptor.ofRecord_concat : ofRecord (r ++ [f]) = (ofRecord r).absorb f := by
  simp only [ofRecord, absorb, text?, texts, int?, map_record?_concat, filterMap_values_concat,
    getLast?_appendUnder]

theorem EnumDescriptor.ofRecord_concat : ofRecord (r ++ [f]) = (ofRecord r).absorb f := by
  simp only [ofRecord, absorb, text?, texts, filterMap_values_concat, getLast?_appendUnder]

theorem MessageDescriptor.ofRecord_concat : ofRecord (r ++ [f]) = (ofRecord r).absorb f := by
  simp only [ofRecord, assemble, nestedOfRecord_eq, absorb, text?, texts, map_records_concat,
    map_record?_concat, filterMap_values_concat, getLast?_appendUnder]

theorem FileDescriptor.ofRecord_concat : ofRecord (r ++ [f]) = (ofRecord r).absorb f := by
  simp only [ofRecord, absorb, text?, texts, map_records_concat, map_record?_concat,
    filterMap_values_concat, getLast?_appendUnder]

theorem Request.ofRecord_concat : ofRecord (r ++ [f]) = (ofRecord r).absorb f := by
  simp only [ofRecord, absorb, text?, texts, map_records_concat, filterMap_values_concat,
    getLast?_appendUnder]

theorem OutputFile.ofRecord_concat : ofRecord (r ++ [f]) = (ofRecord r).absorb f := by
  simp only [ofRecord, absorb, text?, texts, getD_replaceUnder, filterMap_values_concat,
    getLast?_appendUnder]

theorem Response.ofRecord_concat : ofRecord (r ++ [f]) = (ofRecord r).absorb f := by
  simp only [ofRecord, absorb, text?, texts, nat?, map_records_concat, filterMap_values_concat,
    getLast?_appendUnder]

end

namespace Wire

/-- What a message of each type is read into. -/
def MessageType.Object : MessageType → Type
  | request => Request
  | file => FileDescriptor
  | message => MessageDescriptor
  | enum => EnumDescriptor
  | field => FieldDescriptor
  | fileOptions => FileOptions
  | messageOptions => MessageOptions
  | fieldOptions => FieldOptions
  | response => Response
  | responseFile => OutputFile

namespace MessageType

def ofRecord : (type : MessageType) → Record → type.Object
  | request => Request.ofRecord
  | file => FileDescriptor.ofRecord
  | message => MessageDescriptor.ofRecord
  | enum => EnumDescriptor.ofRecord
  | field => FieldDescriptor.ofRecord
  | fileOptions => FileOptions.ofRecord
  | messageOptions => MessageOptions.ofRecord
  | fieldOptions => FieldOptions.ofRecord
  | response => Response.ofRecord
  | responseFile => OutputFile.ofRecord

/-- The object without any field. -/
def empty : (type : MessageType) → type.Object
  | request => ({} : Request)
  | file => ({} : FileDescriptor)
  | message => ({} : MessageDescriptor)
  | enum => ({} : EnumDescriptor)
  | field => ({} : FieldDescriptor)
  | fileOptions => ({} : FileOptions)
  | messageOptions => ({} : MessageOptions)
  | fieldOptions => ({} : FieldOptions)
  | response => (⟨none, none, []⟩ : Response)
  | responseFile => (⟨"", ""⟩ : OutputFile)

def absorb : (type : MessageType) → type.Object → Nat × Value → type.Object
  | request => Request.absorb
  | file => FileDescriptor.absorb
  | message => MessageDescriptor.absorb
  | enum => EnumDescriptor.absorb
  | field => FieldDescriptor.absorb
  | fileOptions => FileOptions.absorb
  | messageOptions => MessageOptions.absorb
  | fieldOptions => FieldOptions.absorb
  | response => Response.absorb
  | responseFile => OutputFile.absorb

/-- Reads the bytes of a message of any type. -/
def decode (type : MessageType) (bs : List UInt8) : Except DecodeError type.Object :=
  (decodeRecord type bs).map type.ofRecord

theorem ofRecord_nil (type : MessageType) : type.ofRecord [] = type.empty := by
  cases type <;> rfl

theorem ofRecord_concat (type : MessageType) (r : Record) (f : Nat × Value) :
    type.ofRecord (r ++ [f]) = type.absorb (type.ofRecord r) f := by
  cases type
  case request => exact Request.ofRecord_concat r f
  case file => exact FileDescriptor.ofRecord_concat r f
  case message => exact MessageDescriptor.ofRecord_concat r f
  case enum => exact EnumDescriptor.ofRecord_concat r f
  case field => exact FieldDescriptor.ofRecord_concat r f
  case fileOptions => exact FileOptions.ofRecord_concat r f
  case messageOptions => exact MessageOptions.ofRecord_concat r f
  case fieldOptions => exact FieldOptions.ofRecord_concat r f
  case response => exact Response.ofRecord_concat r f
  case responseFile => exact OutputFile.ofRecord_concat r f

theorem ofRecord_append (type : MessageType) (r r' : Record) :
    type.ofRecord (r ++ r') = r'.foldl type.absorb (type.ofRecord r) := by
  induction r' generalizing r with
  | nil => rw [List.append_nil, List.foldl_nil]
  | cons f r' ih =>
    rw [List.foldl_cons, ← ofRecord_concat, ← ih, List.append_assoc, List.singleton_append]

/-- An object takes the fields of its message one after the other. -/
theorem ofRecord_eq_foldl (type : MessageType) (r : Record) :
    type.ofRecord r = r.foldl type.absorb type.empty := by
  rw [← ofRecord_nil, ← ofRecord_append, List.nil_append]

end MessageType

end Wire

end ProtoNaming
