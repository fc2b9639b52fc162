import ProtoNaming.Proofs.Plugin.Independence

namespace ProtoNaming

open Wire

namespace Wire.Record

variable {number : Nat} {type : MessageType}

theorem fits_ofNat (hk : type.kind? number = some .uint64) {n : Option Nat}
    (h : ∀ k ∈ n, k < 2 ^ 64) : Fits type (ofNat number n) := by
  cases n with
  | none => exact .nil
  | some k => exact .value hk (.uint64 (h k rfl)) .nil

theorem records_of_values {r : Record} {rs : List Record} (h : values number r = rs.map .record) :
    records number r = rs := by
  rw [records, h, List.filterMap_map]
  exact List.filterMap_some

end Wire.Record

open Wire.Record

/-- A message that starts with a text is read, if at all, as one that has a text there. -/
theorem Wire.exists_text_of_readRecord {levels limit number : Nat} {type : MessageType}
    {bs : List UInt8} {r : Record} (hk : type.kind? number = some .text)
    (h : readRecord levels type limit (encodeTag number 2 ++ bs) = .ok r) :
    ∃ s rest, r = (number, .text s) :: rest := by
  have hne := encodeTag_append_ne_nil number 2 bs
  rw [readRecord_eq] at h
  cases hcount : readUint32 limit bs with
  | error e =>
    have hv : readValue (innerReader levels) limit .text bs = .error e := by
      simp only [readValue, hcount, bind, Except.bind]
    have hfield : readField levels (innerReader levels) type limit (encodeTag number 2 ++ bs) =
        .error e := by
      rw [readField_known bs hk (by decide), hv]
      rfl
    rw [readFields_of_field_error hne hfield] at h
    cases h
  | ok counted =>
    obtain ⟨count, after⟩ := counted
    have hv : readValue (innerReader levels) limit .text bs =
        .ok (.text (String.ofList (Text.decodeUtf8 (after.take count))), after.drop count) := by
      simp only [readValue, hcount, bind, Except.bind, pure, Except.pure]
    have hfield : readField levels (innerReader levels) type limit (encodeTag number 2 ++ bs) =
        .ok (some (number, .text (String.ofList (Text.decodeUtf8 (after.take count)))),
          after.drop count) := by
      rw [readField_known bs hk (by decide), hv]
      rfl
    rw [readFields_of_field hfield] at h
    cases hrest : readFields levels (innerReader levels) type limit (after.drop count) with
    | error e =>
      rw [hrest] at h
      cases h
    | ok rest =>
      rw [hrest] at h
      cases h
      exact ⟨_, rest, rfl⟩

theorem OutputFile.fits_toRecord (f : OutputFile) : Fits .responseFile f.toRecord :=
  (fits_ofText rfl _).append (fits_ofText rfl _)

theorem OutputFile.depth_toRecord (f : OutputFile) : Record.depth f.toRecord = 0 := by
  rw [toRecord, depth_append, depth_ofText, depth_ofText, Nat.max_self]

namespace Response

theorem fits_toRecord {r : Response} (h : ∀ n ∈ r.supportedFeatures, n < 2 ^ 64) :
    Fits .response r.toRecord := by
  have files : ∀ s ∈ r.files.map OutputFile.toRecord, Fits .responseFile s := by
    intro s hs
    obtain ⟨f, _, rfl⟩ := List.mem_map.mp hs
    exact f.fits_toRecord
  exact (fits_ofText rfl _).append (fits_ofNat rfl h) |>.append (fits_ofRecords rfl files)

theorem depth_toRecord (r : Response) : Record.depth r.toRecord ≤ 1 := by
  have files : ∀ s ∈ r.files.map OutputFile.toRecord, Record.depth s ≤ 0 := by
    intro s hs
    obtain ⟨f, _, rfl⟩ := List.mem_map.mp hs
    exact Nat.le_of_eq f.depth_toRecord
  have hfiles : Record.depth (Record.ofRecords 15 (r.files.map OutputFile.toRecord)) ≤ 1 :=
    depth_ofRecords files
  rw [toRecord, depth_append, depth_append, depth_ofText, depth_ofNat]
  omega

theorem decodeRecord_encode {r : Response} (hf : ∀ n ∈ r.supportedFeatures, n < 2 ^ 64)
    (hl : r.encode.length < 2 ^ 32) : decodeRecord .response r.encode = .ok r.toRecord := by
  have hd : Record.depth r.toRecord ≤ maxDepth := Nat.le_trans r.depth_toRecord (by decide)
  exact readRecord_encodeFields (fits_toRecord hf) hl hd

theorem decode_encode {r : Response} (hf : ∀ n ∈ r.supportedFeatures, n < 2 ^ 64)
    (hl : r.encode.length < 2 ^ 32) : decode r.encode = .ok r := by
  rw [decode, decodeRecord_encode hf hl, Except.map, ofRecord_toRecord]

theorem make_of_ne_empty {error : Option String} (h : error ≠ some "") (files : List OutputFile) :
    make error files = ⟨error, some 1, files⟩ := by
  cases error with
  | none => rfl
  | some e =>
    have he : e ≠ "" := fun he => h (congrArg some he)
    simp [make, he]

theorem lt_of_mem_supportedFeatures {error : Option String} {files : List OutputFile} :
    ∀ n ∈ (make error files).supportedFeatures, n < 2 ^ 64 := by
  intro n hn
  cases hn
  decide

/-- However long the text of an error is, what is read of the response has an error. -/
theorem error_ne_none_of_decode {e : String} (he : e ≠ "") {files : List OutputFile} {r : Response}
    (h : decode (make (some e) files).encode = .ok r) : r.error ≠ none := by
  have hmake : make (some e) files = ⟨some e, some 1, files⟩ :=
    make_of_ne_empty (fun hs => he (Option.some.inj hs)) files
  have hbytes : (make (some e) files).encode = encodeTag 1 2 ++
      (encodeCounted (Text.encodeUtf8 e.toList) ++
        encodeFields (ofNat 2 (some 1) ++ ofRecords 15 (files.map OutputFile.toRecord))) := by
    rw [hmake]
    exact List.append_assoc _ _ _
  cases hd : decodeRecord .response (make (some e) files).encode with
  | error cause =>
    rw [decode, hd] at h
    cases h
  | ok record =>
    rw [decode, hd] at h
    cases h
    rw [hbytes] at hd
    obtain ⟨s, rest, rfl⟩ := exists_text_of_readRecord rfl hd
    simp [ofRecord, text?, texts, values, Value.text?]

end Response

namespace Plugin

theorem RunError.message_ne_empty (e : RunError) : e.message ≠ "" := by
  cases e with
  | request cause =>
    intro h
    have hhead := head?_decodeError cause
    rw [show cause.message = "" from h] at hhead
    rcases hhead with hhead | hhead <;> cases hhead
  | naming cause => exact cause.message_ne_empty

theorem response_of_firstFailure? {bytes : List UInt8} {e : RunError} (level : LogLevel)
    (h : firstFailure? bytes = some e) :
    (run level bytes).response = .make (some e.message) [] := by
  obtain ⟨files, hr⟩ := exists_run level bytes
  rw [hr, h]

end Plugin

namespace Response

/-- Reading a response takes back writing it, with the files' names and contents even where they
are empty, so that no two results have the same bytes; and no failure has an empty text, for then
it would be read as a success. -/
theorem decode_encode_make :
    (∀ error files, error ≠ some "" → (make error files).encode.length < 2 ^ 32 →
      decode (make error files).encode = .ok ⟨error, some 1, files⟩ ∧
      ∃ record, decodeRecord .response (make error files).encode = .ok record ∧
        record.records 15 =
          files.map fun f => [(1, .text f.name), (15, .text f.content)]) ∧
    (∀ error files error' files', error ≠ some "" → error' ≠ some "" →
      (make error files).encode.length < 2 ^ 32 →
      (make error files).encode = (make error' files').encode →
      error = error' ∧ files = files') ∧
    (∀ cause : Plugin.RunError, cause.message ≠ "") ∧
    ∀ level bytes cause, Plugin.firstFailure? bytes = some cause →
      (Plugin.run level bytes).response = make (some cause.message) [] ∧
      ∀ r, decode (Plugin.run level bytes).response.encode = .ok r → r.error ≠ none := by
  have hdecode : ∀ error files, error ≠ some "" → (make error files).encode.length < 2 ^ 32 →
      decode (make error files).encode = .ok ⟨error, some 1, files⟩ := by
    intro error files he hl
    rw [decode_encode lt_of_mem_supportedFeatures hl, make_of_ne_empty he]
  refine ⟨fun error files he hl => ⟨hdecode error files he hl, ?_⟩, ?_,
    Plugin.RunError.message_ne_empty, fun level bytes cause hc => ?_⟩
  · refine ⟨_, decodeRecord_encode lt_of_mem_supportedFeatures hl, ?_⟩
    have hfile (f : OutputFile) : f.toRecord = [(1, .text f.name), (15, .text f.content)] := rfl
    exact records_of_values (by simp [toRecord, make, values_append, hfile])
  · intro error files error' files' he he' hl hbytes
    have hread := hdecode error files he hl
    rw [hbytes, hdecode error' files' he' (hbytes ▸ hl)] at hread
    cases hread
    exact ⟨rfl, rfl⟩
  · have hresponse := Plugin.response_of_firstFailure? level hc
    refine ⟨hresponse, fun r hr => ?_⟩
    rw [hresponse] at hr
    exact error_ne_none_of_decode cause.message_ne_empty hr

/-- Files without a name or without content, and one whose name is no ASCII. -/
def blankFiles : List OutputFile := [⟨"", "x"⟩, ⟨"Ω.symbols.json", ""⟩, ⟨"", ""⟩]

theorem decode_encode_make_blankFiles :
    (none : Option String) ≠ some "" ∧ (make none blankFiles).encode.length < 2 ^ 32 ∧
      decode (make none blankFiles).encode = .ok ⟨none, some 1, blankFiles⟩ ∧
      (make none blankFiles).encode ≠ (make (some "no") blankFiles).encode ∧
      Plugin.firstFailure? (Request.nested 99).encode = some (.request .tooDeep) ∧
      ∃ r, decode (Plugin.run .info (Request.nested 99).encode).response.encode = .ok r ∧
        r.error ≠ none := by
  have he : (none : Option String) ≠ some "" := nofun
  have he' : some "no" ≠ some "" := by decide
  have hl : (make none blankFiles).encode.length < 2 ^ 32 := by decide +kernel
  have hd : Request.decode (Request.nested 99).encode = .error .tooDeep :=
    Request.decode_encode_of_too_deep (by decide +kernel) (by decide +kernel) (by decide +kernel)
  have hf : Plugin.firstFailure? (Request.nested 99).encode = some (.request .tooDeep) := by
    rw [Plugin.firstFailure?, hd]
  obtain ⟨hread, hdistinct, hmessage, hfail⟩ := decode_encode_make
  obtain ⟨hresponse, herror⟩ := hfail .info _ _ hf
  have htext : some (Plugin.RunError.request .tooDeep).message ≠ some "" :=
    fun h => hmessage _ (Option.some.inj h)
  have hshort : (make (some (Plugin.RunError.request .tooDeep).message) []).encode.length <
      2 ^ 32 := by decide +kernel
  have hr := (hread _ [] htext hshort).1
  rw [← hresponse] at hr
  refine ⟨he, hl, (hread none blankFiles he hl).1, fun hbytes => ?_, hf, _, hr, herror _ hr⟩
  exact nomatch (hdistinct none blankFiles (some "no") blankFiles he he' hl hbytes).1

end Response

end ProtoNaming
