import Mathlib.Data.List.Basic
import ProtoNaming.Manifest.Build
import ProtoNaming.Proofs.Schema.Regular

namespace ProtoNaming

/-- A field without what names are not made from. That it has a default stays. -/
def FieldDescriptor.stripped (d : FieldDescriptor) : FieldDescriptor :=
  { d with
    number := none
    defaultValue := d.defaultValue.map fun _ => ""
    oneofIndex := none
    jsonName := none }

def Field.stripped (f : Field) : Field :=
  { f with
    number := 0
    defaultValue := f.defaultValue.map fun _ => "" }

namespace MessageDescriptor

mutual

def stripped : MessageDescriptor → MessageDescriptor
  | ⟨name, fields, nested, enums, extensions, options⟩ => {
    name := name
    fields := fields.map FieldDescriptor.stripped
    nested := strippedAll nested
    enums := enums
    extensions := extensions.map FieldDescriptor.stripped
    options := options }

def strippedAll : List MessageDescriptor → List MessageDescriptor
  | [] => []
  | d :: ds => stripped d :: strippedAll ds

end

theorem strippedAll_eq_map (ds : List MessageDescriptor) : strippedAll ds = ds.map stripped := by
  induction ds with
  | nil => rfl
  | cons d ds ih => rw [strippedAll, ih, List.map_cons]

theorem stripped_eq (d : MessageDescriptor) :
    d.stripped = { d with
      fields := d.fields.map FieldDescriptor.stripped
      nested := d.nested.map stripped
      extensions := d.extensions.map FieldDescriptor.stripped } := by
  cases d
  rw [stripped, strippedAll_eq_map]

end MessageDescriptor

namespace Message

mutual

def stripped : Message → Message
  | ⟨place, isMapEntry, fields, nested, enums, extensions⟩ => {
    place := place
    isMapEntry := isMapEntry
    fields := fields.map Field.stripped
    nested := strippedAll nested
    enums := enums
    extensions := extensions.map Field.stripped }

def strippedAll : List Message → List Message
  | [] => []
  | m :: ms => stripped m :: strippedAll ms

end

theorem strippedAll_eq_map (ms : List Message) : strippedAll ms = ms.map stripped := by
  induction ms with
  | nil => rfl
  | cons m ms ih => rw [strippedAll, ih, List.map_cons]

theorem stripped_eq (m : Message) :
    m.stripped = { m with
      fields := m.fields.map Field.stripped
      nested := m.nested.map stripped
      extensions := m.extensions.map Field.stripped } := by
  cases m
  rw [stripped, strippedAll_eq_map]

end Message

def FileDescriptor.stripped (d : FileDescriptor) : FileDescriptor :=
  { d with
    dependencies := []
    messages := d.messages.map MessageDescriptor.stripped
    extensions := d.extensions.map FieldDescriptor.stripped }

def File.stripped (file : File) : File :=
  { file with
    messages := file.messages.map Message.stripped
    extensions := file.extensions.map Field.stripped }

namespace MessageDescriptor

theorem toMessages_stripped {ds : List MessageDescriptor} {parent : String} {outer : List Decl}
    (h : ∀ d ∈ ds, ∀ index,
      d.stripped.toMessage parent outer index = (d.toMessage parent outer index).stripped) :
    (ds.map stripped).mapIdx (toMessage parent outer) =
      (ds.mapIdx (toMessage parent outer)).map Message.stripped := by
  refine List.ext_getElem? fun i => ?_
  rw [List.getElem?_mapIdx, List.getElem?_map, List.getElem?_map, List.getElem?_mapIdx,
    Option.map_map, Option.map_map]
  exact Option.map_congr fun d hd => h d (List.mem_of_getElem? hd) i

theorem toMessage_stripped (d : MessageDescriptor) (parent : String) (outer : List Decl)
    (index : Nat) :
    d.stripped.toMessage parent outer index = (d.toMessage parent outer index).stripped := by
  induction d using MessageDescriptor.induction generalizing parent outer index with
  | step d ih =>
    have hnested (parent : String) (outer : List Decl) :
        (d.nested.map stripped).mapIdx (toMessage parent outer) =
          (d.nested.mapIdx (toMessage parent outer)).map Message.stripped :=
      toMessages_stripped fun n hn index => ih n hn parent outer index
    cases d
    simp only [stripped, toMessage, Message.stripped, strippedAll_eq_map,
      Message.strippedAll_eq_map, toMessages_eq_mapIdx, Nat.zero_add, hnested, List.map_map]
    rfl

theorem allFields_stripped (d : MessageDescriptor) :
    d.stripped.allFields = d.allFields.map FieldDescriptor.stripped := by
  induction d using MessageDescriptor.induction with
  | step d ih =>
    have hnested : (d.nested.map stripped).flatMap allFields =
        (d.nested.flatMap allFields).map FieldDescriptor.stripped := by
      rw [List.flatMap_map, List.map_flatMap]
      exact List.flatMap_congr ih
    rw [allFields_eq, allFields_eq, stripped_eq, List.map_append, List.map_append, hnested]

end MessageDescriptor

namespace FileDescriptor

variable (d : FileDescriptor)

theorem toFile_stripped : d.stripped.toFile = d.toFile.stripped := by
  have hmessages (package : String) :
      (d.messages.map MessageDescriptor.stripped).mapIdx (MessageDescriptor.toMessage package []) =
        (d.messages.mapIdx (MessageDescriptor.toMessage package [])).map Message.stripped :=
    MessageDescriptor.toMessages_stripped fun m _ index => m.toMessage_stripped package [] index
  simp only [toFile, stripped, File.stripped, hmessages, List.map_map]
  rfl

theorem allFields_stripped : d.stripped.allFields = d.allFields.map FieldDescriptor.stripped := by
  have hmessages : (d.messages.map MessageDescriptor.stripped).flatMap
      MessageDescriptor.allFields =
        (d.messages.flatMap MessageDescriptor.allFields).map FieldDescriptor.stripped := by
    rw [List.flatMap_map, List.map_flatMap]
    exact List.flatMap_congr fun m _ => m.allFields_stripped
  rw [allFields, allFields, List.map_append, ← hmessages]
  rfl

/-- Whether a file can be built does not depend on it either. -/
theorem supported_stripped_iff :
    (∀ f ∈ d.stripped.allFields, f.IsSupported) ↔ ∀ f ∈ d.allFields, f.IsSupported := by
  rw [d.allFields_stripped, List.forall_mem_map]
  exact Iff.rfl

end FileDescriptor

section

variable {keep : Message → Bool} (hk : ∀ m : Message, keep m.stripped = keep m)

include hk

theorem Message.preorder_stripped (m : Message) :
    m.stripped.preorder keep = (m.preorder keep).map stripped := by
  induction m using Message.induction with
  | step m ih =>
    have hnested : (m.nested.map stripped).flatMap (preorder keep) =
        (m.nested.flatMap (preorder keep)).map stripped := by
      rw [List.flatMap_map, List.map_flatMap]
      exact List.flatMap_congr ih
    rw [preorder_eq, preorder_eq, hk]
    split
    · rw [List.map_cons, ← hnested, stripped_eq]
    · rfl

theorem Message.elements_stripped (m : Message) : m.stripped.elements keep = m.elements keep := by
  induction m using Message.induction with
  | step m ih =>
    have hnested : (m.nested.map stripped).flatMap (elements keep) =
        m.nested.flatMap (elements keep) := by
      rw [List.flatMap_map]
      exact List.flatMap_congr ih
    rw [elements_eq, elements_eq, hk, ← hnested, stripped_eq]
    rfl

namespace File

variable (file : File)

theorem preorder_stripped :
    file.stripped.preorder keep = (file.preorder keep).map Message.stripped := by
  rw [preorder, preorder, Message.preorderAll_eq_flatMap, Message.preorderAll_eq_flatMap, stripped,
    List.flatMap_map, List.map_flatMap]
  exact List.flatMap_congr fun m _ => m.preorder_stripped hk

theorem elements_stripped : file.stripped.elements keep = file.elements keep := by
  rw [elements, elements, Message.elementsAll_eq_flatMap, Message.elementsAll_eq_flatMap, stripped,
    List.flatMap_map]
  congr 1
  exact List.flatMap_congr fun m _ => m.elements_stripped hk

end File

end

namespace File

variable (file : File)

theorem allExtensions_stripped :
    file.stripped.allExtensions = file.allExtensions.map Field.stripped := by
  have hmessages : ((file.preorder fun _ => true).map Message.stripped).flatMap Message.extensions =
      ((file.preorder fun _ => true).flatMap Message.extensions).map Field.stripped := by
    rw [List.flatMap_map, List.map_flatMap]
    exact List.flatMap_congr fun m _ => by rw [m.stripped_eq]
  rw [allExtensions, allExtensions, file.preorder_stripped fun _ => rfl, hmessages,
    List.map_append]
  rfl

theorem ownedFields_stripped {keep : Message → Bool}
    (hk : ∀ m : Message, keep m.stripped = keep m) :
    (file.stripped.preorder keep).flatMap Message.ownedFields =
      ((file.preorder keep).flatMap Message.ownedFields).map fun p => (p.1, p.2.stripped) := by
  rw [file.preorder_stripped hk, List.flatMap_map, List.map_flatMap]
  refine List.flatMap_congr fun m _ => ?_
  rw [m.stripped_eq, Message.ownedFields, Message.ownedFields, List.map_map, List.map_map]
  rfl

theorem declares_stripped (name : String) : file.stripped.declares name = file.declares name := by
  have hplace : (fun m : Message => decide (m.stripped.place.decl.name = name)) =
      fun m => decide (m.place.decl.name = name) := by
    funext m
    rw [m.stripped_eq]
  rw [declares, declares, stripped, List.any_map]
  exact congrArg (fun p => file.messages.any p || _) hplace

end File

end ProtoNaming
