import ProtoNaming.Plugin.Request
import ProtoNaming.Plugin.Response
import ProtoNaming.Proofs.Descriptor.Tree

namespace ProtoNaming

open Wire

namespace Wire.Record

variable {m n : Nat}

theorem values_append (r r' : Record) : values n (r ++ r') = values n r ++ values n r' :=
  List.filterMap_append

theorem values_map_mk {α : Type} (f : α → Value) (as : List α) :
    values n (as.map fun a => (m, f a)) = if m = n then as.map f else [] := by
  rw [values, List.filterMap_map]
  by_cases h : m = n
  · rw [if_pos h, ← List.filterMap_eq_map]
    exact congrArg (List.filterMap · as) (funext fun a => if_pos h)
  · rw [if_neg h, List.filterMap_eq_nil_iff]
    intro a _
    exact if_neg h

@[simp] theorem values_ofText (s : Option String) :
    values n (ofText m s) = if m = n then s.toList.map .text else [] := values_map_mk .text _

@[simp] theorem values_ofTexts (ss : List String) :
    values n (ofTexts m ss) = if m = n then ss.map .text else [] := values_map_mk .text _

@[simp] theorem values_ofInt (i : Option Int) :
    values n (ofInt m i) = if m = n then i.toList.map .int else [] := values_map_mk .int _

@[simp] theorem values_ofNat (k : Option Nat) :
    values n (ofNat m k) = if m = n then k.toList.map .nat else [] := values_map_mk .nat _

@[simp] theorem values_ofBool (b : Option Bool) :
    values n (ofBool m b) = if m = n then b.toList.map .bool else [] := values_map_mk .bool _

@[simp] theorem values_ofRecord (r : Option Record) :
    values n (ofRecord m r) = if m = n then r.toList.map .record else [] :=
  values_map_mk .record _

@[simp] theorem values_ofRecords (rs : List Record) :
    values n (ofRecords m rs) = if m = n then rs.map .record else [] := values_map_mk .record _

variable {r : Record}

theorem texts_of_values {ss : List String} (h : values n r = ss.map .text) : texts n r = ss := by
  rw [texts, h, List.filterMap_map]
  exact List.filterMap_some

theorem last_of_values {α : Type} {write : α → Value} {a : Option α} (read : Value → Option α)
    (h : values n r = a.toList.map write) (hr : ∀ a, read (write a) = some a) :
    ((values n r).filterMap read).getLast? = a := by
  rw [h]
  cases a with
  | none => rfl
  | some a => simp [hr]

theorem text?_of_values {s : Option String} (h : values n r = s.toList.map .text) :
    text? n r = s := last_of_values Value.text? h fun _ => rfl

theorem int?_of_values {i : Option Int} (h : values n r = i.toList.map .int) : int? n r = i :=
  last_of_values Value.int? h fun _ => rfl

theorem nat?_of_values {k : Option Nat} (h : values n r = k.toList.map .nat) : nat? n r = k :=
  last_of_values Value.nat? h fun _ => rfl

theorem bool?_of_values {b : Option Bool} (h : values n r = b.toList.map .bool) :
    bool? n r = b := last_of_values Value.bool? h fun _ => rfl

theorem map_records_of_values {α : Type} {write : α → Record} {read : Record → α} {as : List α}
    (h : values n r = (as.map write).map .record) (hr : ∀ a ∈ as, read (write a) = a) :
    (records n r).map read = as := by
  rw [records, h, List.filterMap_map]
  have hs : List.filterMap (Value.record? ∘ Value.record) (as.map write) = as.map write :=
    List.filterMap_some
  rw [hs, List.map_map]
  exact (List.map_congr_left hr).trans (List.map_id' as)

theorem map_record?_of_values {α : Type} {write : α → Record} {read : Record → α} {a : Option α}
    (h : values n r = (a.map write).toList.map .record) (hr : ∀ a, read (write a) = a) :
    (record? n r).map read = a := by
  rw [record?, records, h]
  cases a with
  | none => rfl
  | some a => exact congrArg some (hr a)

end Wire.Record

open Wire.Record

theorem FileOptions.ofRecord_toRecord (o : FileOptions) : ofRecord o.toRecord = o := by
  cases o
  simp only [ofRecord, mk.injEq]
  refine ⟨text?_of_values ?_, text?_of_values ?_, bool?_of_values ?_⟩ <;>
    simp [toRecord, values_append]

theorem MessageOptions.ofRecord_toRecord (o : MessageOptions) : ofRecord o.toRecord = o := by
  cases o
  simp only [ofRecord, mk.injEq]
  exact bool?_of_values (by simp [toRecord])

theorem FieldOptions.ofRecord_toRecord (o : FieldOptions) : ofRecord o.toRecord = o := by
  cases o
  simp only [ofRecord, mk.injEq]
  exact int?_of_values (by simp [toRecord])

theorem FieldDescriptor.ofRecord_toRecord (d : FieldDescriptor) : ofRecord d.toRecord = d := by
  cases d
  simp only [ofRecord, mk.injEq]
  refine ⟨text?_of_values ?_, text?_of_values ?_, int?_of_values ?_, int?_of_values ?_,
    int?_of_values ?_, text?_of_values ?_, text?_of_values ?_,
    map_record?_of_values ?_ FieldOptions.ofRecord_toRecord, int?_of_values ?_,
    text?_of_values ?_⟩ <;> simp [toRecord, values_append]

theorem EnumDescriptor.ofRecord_toRecord (d : EnumDescriptor) : ofRecord d.toRecord = d := by
  cases d
  simp only [ofRecord, mk.injEq]
  exact text?_of_values (by simp [toRecord])

theorem MessageDescriptor.toRecords_eq_map (ds : List MessageDescriptor) :
    toRecords ds = ds.map toRecord := by
  induction ds with
  | nil => rfl
  | cons d ds ih => rw [toRecords, ih, List.map_cons]

theorem MessageDescriptor.ofRecord_toRecord (d : MessageDescriptor) : ofRecord d.toRecord = d := by
  induction d using MessageDescriptor.induction with
  | step d ih =>
    cases d
    simp only [ofRecord, assemble, nestedOfRecord_eq, mk.injEq]
    refine ⟨text?_of_values ?_,
      map_records_of_values ?_ fun d _ => FieldDescriptor.ofRecord_toRecord d,
      map_records_of_values ?_ ih,
      map_records_of_values ?_ fun d _ => EnumDescriptor.ofRecord_toRecord d,
      map_records_of_values ?_ fun d _ => FieldDescriptor.ofRecord_toRecord d,
      map_record?_of_values ?_ MessageOptions.ofRecord_toRecord⟩ <;>
      simp [toRecord, toRecords_eq_map, values_append]

theorem FileDescriptor.ofRecord_toRecord (d : FileDescriptor) : ofRecord d.toRecord = d := by
  cases d
  simp only [ofRecord, mk.injEq]
  refine ⟨text?_of_values ?_, text?_of_values ?_, texts_of_values ?_,
    map_records_of_values ?_ fun d _ => MessageDescriptor.ofRecord_toRecord d,
    map_records_of_values ?_ fun d _ => EnumDescriptor.ofRecord_toRecord d,
    map_records_of_values ?_ fun d _ => FieldDescriptor.ofRecord_toRecord d,
    map_record?_of_values ?_ FileOptions.ofRecord_toRecord, text?_of_values ?_⟩ <;>
    simp [toRecord, values_append]

theorem Request.ofRecord_toRecord (r : Request) : ofRecord r.toRecord = r := by
  cases r
  simp only [ofRecord, mk.injEq]
  refine ⟨texts_of_values ?_, text?_of_values ?_,
    map_records_of_values ?_ fun d _ => FileDescriptor.ofRecord_toRecord d⟩ <;>
    simp [toRecord, values_append]

theorem OutputFile.ofRecord_toRecord (f : OutputFile) : ofRecord f.toRecord = f := by
  have hname : (f.toRecord.text? 1) = some f.name :=
    text?_of_values (by simp [toRecord, values_append])
  have hcontent : (f.toRecord.text? 15) = some f.content :=
    text?_of_values (by simp [toRecord, values_append])
  rw [ofRecord, hname, hcontent, Option.getD_some, Option.getD_some]

theorem Response.ofRecord_toRecord (r : Response) : ofRecord r.toRecord = r := by
  cases r
  simp only [ofRecord, mk.injEq]
  refine ⟨text?_of_values ?_, nat?_of_values ?_,
    map_records_of_values ?_ fun f _ => OutputFile.ofRecord_toRecord f⟩ <;>
    simp [toRecord, values_append]

end ProtoNaming
