import ProtoNaming.Plugin.Run
import ProtoNaming.Proofs.Descriptor.RoundTrip
import ProtoNaming.Proofs.Wire.Depth

namespace ProtoNaming

open Wire

namespace Wire.Record

variable {number : Nat} {type inner : MessageType}

theorem fits_ofText (hk : type.kind? number = some .text) (s : Option String) :
    Fits type (ofText number s) := by
  cases s with
  | none => exact .nil
  | some s => exact .value hk (.text s) .nil

theorem fits_ofTexts (hk : type.kind? number = some .text) (ss : List String) :
    Fits type (ofTexts number ss) := by
  induction ss with
  | nil => exact .nil
  | cons s _ ih => exact .value hk (.text s) ih

theorem fits_ofInt (hk : type.kind? number = some .int32) {i : Option Int}
    (h : ∀ n ∈ i, -2 ^ 31 ≤ n ∧ n < 2 ^ 31) : Fits type (ofInt number i) := by
  cases i with
  | none => exact .nil
  | some n => exact .value hk (.int32 (h n rfl).1 (h n rfl).2) .nil

theorem fits_ofBool (hk : type.kind? number = some .bool) (b : Option Bool) :
    Fits type (ofBool number b) := by
  cases b with
  | none => exact .nil
  | some b => exact .value hk (.bool b) .nil

theorem fits_ofRecords (hk : type.kind? number = some (.message inner)) {rs : List Record}
    (h : ∀ r ∈ rs, Fits inner r) : Fits type (ofRecords number rs) := by
  induction rs with
  | nil => exact .nil
  | cons r rs ih =>
    exact .message hk (h r List.mem_cons_self) (ih fun r hr => h r (List.mem_cons_of_mem _ hr))

theorem fits_ofRecord (hk : type.kind? number = some (.message inner)) {r : Option Record}
    (h : ∀ s ∈ r, Fits inner s) : Fits type (ofRecord number r) := by
  cases r with
  | none => exact .nil
  | some r => exact .message hk (h r rfl) .nil

end Wire.Record

open Wire.Record

def FieldDescriptor.HasInt32s (d : FieldDescriptor) : Prop :=
  ∀ i ∈ [d.number, d.label, d.typeCode, d.oneofIndex, d.options.bind (·.jsType)], ∀ n ∈ i,
    -2 ^ 31 ≤ n ∧ n < 2 ^ 31

instance (d : FieldDescriptor) : Decidable d.HasInt32s :=
  inferInstanceAs (Decidable (∀ _ ∈ _, _))

/-- The numbers of all fields and extensions are 32-bit ones. -/
def Request.HasInt32s (r : Request) : Prop := ∀ d ∈ r.files, ∀ f ∈ d.allFields, f.HasInt32s

instance (r : Request) : Decidable r.HasInt32s := inferInstanceAs (Decidable (∀ _ ∈ _, _))

theorem FieldDescriptor.fits_toRecord {d : FieldDescriptor} (h : d.HasInt32s) :
    Fits .field d.toRecord := by
  simp only [HasInt32s, List.forall_mem_cons] at h
  obtain ⟨hnumber, hlabel, hcode, hindex, hjs, -⟩ := h
  have options : ∀ r ∈ d.options.map FieldOptions.toRecord, Fits .fieldOptions r := by
    intro r hr
    obtain ⟨o, ho, rfl⟩ := Option.map_eq_some_iff.mp hr
    exact fits_ofInt rfl fun n hn => hjs n (by rw [ho]; exact hn)
  exact (fits_ofText rfl _).append (fits_ofText rfl _) |>.append (fits_ofInt rfl hnumber)
    |>.append (fits_ofInt rfl hlabel) |>.append (fits_ofInt rfl hcode)
    |>.append (fits_ofText rfl _) |>.append (fits_ofText rfl _)
    |>.append (fits_ofRecord rfl options) |>.append (fits_ofInt rfl hindex)
    |>.append (fits_ofText rfl _)

theorem fits_map_toRecord {ds : List FieldDescriptor} (h : ∀ d ∈ ds, d.HasInt32s) :
    ∀ r ∈ ds.map FieldDescriptor.toRecord, Fits .field r := by
  intro r hr
  obtain ⟨d, hd, rfl⟩ := List.mem_map.mp hr
  exact FieldDescriptor.fits_toRecord (h d hd)

theorem EnumDescriptor.fits_map_toRecord (ds : List EnumDescriptor) :
    ∀ r ∈ ds.map toRecord, Fits .enum r := by
  intro r hr
  obtain ⟨d, _, rfl⟩ := List.mem_map.mp hr
  exact fits_ofText rfl _

theorem MessageDescriptor.fits_toRecord (d : MessageDescriptor)
    (h : ∀ f ∈ d.allFields, f.HasInt32s) : Fits .message d.toRecord := by
  induction d using MessageDescriptor.induction with
  | step d ih =>
    rw [allFields_eq] at h
    simp only [List.mem_append, List.mem_flatMap] at h
    have nested : ∀ r ∈ d.nested.map toRecord, Fits .message r := by
      intro r hr
      obtain ⟨n, hn, rfl⟩ := List.mem_map.mp hr
      exact ih n hn fun f hf => h f (Or.inl (Or.inr ⟨n, hn, hf⟩))
    have options : ∀ r ∈ d.options.map MessageOptions.toRecord, Fits .messageOptions r := by
      intro r hr
      obtain ⟨o, _, rfl⟩ := Option.map_eq_some_iff.mp hr
      exact fits_ofBool rfl _
    have fields := fits_map_toRecord fun f hf => h f (Or.inl (Or.inl hf))
    have extensions := fits_map_toRecord fun f hf => h f (Or.inr hf)
    have enums := EnumDescriptor.fits_map_toRecord d.enums
    cases d
    rw [toRecord, toRecords_eq_map]
    exact (fits_ofText rfl _).append (fits_ofRecords rfl fields)
      |>.append (fits_ofRecords rfl nested) |>.append (fits_ofRecords rfl enums)
      |>.append (fits_ofRecords rfl extensions) |>.append (fits_ofRecord rfl options)

theorem FileDescriptor.fits_toRecord (d : FileDescriptor) (h : ∀ f ∈ d.allFields, f.HasInt32s) :
    Fits .file d.toRecord := by
  simp only [allFields, List.mem_append, List.mem_flatMap] at h
  have messages : ∀ r ∈ d.messages.map MessageDescriptor.toRecord, Fits .message r := by
    intro r hr
    obtain ⟨m, hm, rfl⟩ := List.mem_map.mp hr
    exact m.fits_toRecord fun f hf => h f (Or.inl ⟨m, hm, hf⟩)
  have options : ∀ r ∈ d.options.map FileOptions.toRecord, Fits .fileOptions r := by
    intro r hr
    obtain ⟨o, _, rfl⟩ := Option.map_eq_some_iff.mp hr
    exact (fits_ofText rfl _).append (fits_ofText rfl _) |>.append (fits_ofBool rfl _)
  have extensions := fits_map_toRecord fun f hf => h f (Or.inr hf)
  have enums := EnumDescriptor.fits_map_toRecord d.enums
  exact (fits_ofText rfl _).append (fits_ofText rfl _) |>.append (fits_ofTexts rfl _)
    |>.append (fits_ofRecords rfl messages) |>.append (fits_ofRecords rfl enums)
    |>.append (fits_ofRecords rfl extensions) |>.append (fits_ofRecord rfl options)
    |>.append (fits_ofText rfl _)

theorem Request.fits_toRecord {r : Request} (h : r.HasInt32s) : Fits .request r.toRecord := by
  have files : ∀ s ∈ r.files.map FileDescriptor.toRecord, Fits .file s := by
    intro s hs
    obtain ⟨d, hd, rfl⟩ := List.mem_map.mp hs
    exact d.fits_toRecord (h d hd)
  exact (fits_ofTexts rfl _).append (fits_ofText rfl _) |>.append (fits_ofRecords rfl files)

namespace Request

/-- How many messages are inside each other below the request. -/
def depth (r : Request) : Nat := Record.depth r.toRecord

theorem decode_encode_of_depth {r : Request} (hi : r.HasInt32s) (hl : r.encode.length < 2 ^ 32)
    (hd : r.depth ≤ maxDepth) : decode r.encode = .ok r := by
  rw [decode, decodeRecord, encode, Record.encode,
    readRecord_encodeFields (fits_toRecord hi) hl hd, Except.map, ofRecord_toRecord]

theorem decode_encode_of_too_deep {r : Request} (hi : r.HasInt32s)
    (hl : r.encode.length < 2 ^ 32) (hd : maxDepth < r.depth) :
    decode r.encode = .error .tooDeep := by
  rw [decode, decodeRecord, encode, Record.encode,
    readRecord_encodeFields_error (fits_toRecord hi) hl hd]
  rfl

end Request

theorem Plugin.run_of_decode_error {bytes : List UInt8} {e : DecodeError} (level : LogLevel)
    (h : Request.decode bytes = .error e) :
    Plugin.run level bytes = .fail level [] (.request e) := by
  rw [run, h]

/-- Reading a request takes back writing it, with every field that is present and no other, as long
as no message is more than a hundred levels below it; a deeper request is answered with an error. -/
theorem Request.decode_encode_iff_depth_le {r : Request} (hi : r.HasInt32s)
    (hl : r.encode.length < 2 ^ 32) :
    (decode r.encode = .ok r ↔ r.depth ≤ 100) ∧
      (¬r.depth ≤ 100 → ∀ level,
        (Plugin.run level r.encode).response =
          .make (some "maximum nesting depth exceeded") []) := by
  refine ⟨⟨fun h => Nat.le_of_not_lt fun hd => ?_, decode_encode_of_depth hi hl⟩,
    fun hd level => ?_⟩
  · rw [decode_encode_of_too_deep hi hl hd] at h
    cases h
  · rw [Plugin.run_of_decode_error level (decode_encode_of_too_deep hi hl (Nat.lt_of_not_le hd))]
    rfl

/-- A message with `n` messages inside each other below it. -/
def MessageDescriptor.tower : Nat → MessageDescriptor
  | 0 => {}
  | n + 1 => { nested := [tower n] }

/-- A request in which much is present and empty. -/
def Request.sparse : Request where
  filesToGenerate := ["a.proto", ""]
  parameter := some ""
  files := [{
    name := some "Möbius.proto"
    messages := [{
      nested := [{ options := some { mapEntry := some false } }]
      extensions := [{ number := some (-1), typeCode := some 0, options := some {} }] }]
    options := some {} }]

/-- A request of which the innermost message is `n + 2` levels below it. -/
def Request.nested (n : Nat) : Request where
  files := [{ messages := [.tower n] }]

theorem Request.decode_encode_sparse_and_nested :
    Request.sparse.HasInt32s ∧ Request.sparse.encode.length < 2 ^ 32 ∧
      decode Request.sparse.encode = .ok Request.sparse ∧
      (Request.nested 99).HasInt32s ∧ (Request.nested 99).encode.length < 2 ^ 32 ∧
      (Plugin.run .error (Request.nested 99).encode).response.error =
        some "maximum nesting depth exceeded" := by
  have hs : Request.sparse.HasInt32s := by decide
  have hls : Request.sparse.encode.length < 2 ^ 32 := by decide +kernel
  have hn : (Request.nested 99).HasInt32s := by decide +kernel
  have hln : (Request.nested 99).encode.length < 2 ^ 32 := by decide +kernel
  have hd : ¬(Request.nested 99).depth ≤ 100 := by decide +kernel
  refine ⟨hs, hls, (decode_encode_iff_depth_le hs hls).1.mpr (by decide), hn, hln, ?_⟩
  rw [(decode_encode_iff_depth_le hn hln).2 hd]
  rfl

end ProtoNaming
