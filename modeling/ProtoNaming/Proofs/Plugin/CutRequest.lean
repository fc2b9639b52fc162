import ProtoNaming.Proofs.Plugin.ResponseRoundTrip
import ProtoNaming.Proofs.Wire.Cut

namespace ProtoNaming

open Wire Text

def Wire.cutText (number : Nat) (s : String) (kept : List UInt8) : List UInt8 :=
  encodeTag number 2 ++ (encodeVarint (encodeUtf8 s.toList).length ++ kept)

namespace Request

/-- Bytes of a request that end inside one of its own texts, after the count of it, with the request
that they are read as: the text ends where they do, and nothing comes after it. -/
inductive EndsInText (r : Request) : List UInt8 → Request → Prop where
  | fileToGenerate {before after : List String} {name : String} {kept : List UInt8} :
      r.filesToGenerate = before ++ name :: after → IsCutOf kept (encodeUtf8 name.toList) →
      EndsInText r (encodeFields (Record.ofTexts 1 before) ++ cutText 1 name kept)
        { filesToGenerate := before ++ [String.ofList (decodeUtf8 kept)] }
  | parameter {text : String} {kept : List UInt8} :
      r.parameter = some text → IsCutOf kept (encodeUtf8 text.toList) →
      EndsInText r (encodeFields (Record.ofTexts 1 r.filesToGenerate) ++ cutText 2 text kept)
        { filesToGenerate := r.filesToGenerate
          parameter := some (String.ofList (decodeUtf8 kept)) }

end Request

theorem append_eq_append_cons {α : Type} {xs ys as cs : List α} {b : α}
    (h : xs ++ ys = as ++ b :: cs) :
    (∃ bs, xs = as ++ b :: bs) ∨ ∃ bs, as = xs ++ bs ∧ ys = bs ++ b :: cs := by
  rcases List.append_eq_append_iff.mp h with ⟨bs, ha, hy⟩ | ⟨bs, hx, hb⟩
  · exact .inr ⟨bs, ha, hy⟩
  · cases bs with
    | nil =>
      rw [List.append_nil] at hx
      exact .inr ⟨[], by rw [hx, List.append_nil], hb.symm⟩
    | cons c bs =>
      cases (List.cons.inj hb).1
      exact .inl ⟨bs, hx⟩

namespace Request

variable {r : Request}

theorem value_of_mem_toRecord {number : Nat} {v : Value} (h : (number, v) ∈ r.toRecord) :
    (∃ s, v = .text s ∧ MessageType.request.kind? number = some .text) ∨
      ∃ fields, v = .record fields ∧
        MessageType.request.kind? number = some (.message .file) := by
  simp only [toRecord, List.mem_append] at h
  rcases h with (h | h) | h
  · obtain ⟨s, _, hs⟩ := List.mem_map.mp h
    cases hs
    exact .inl ⟨s, rfl, rfl⟩
  · obtain ⟨s, _, hs⟩ := List.mem_map.mp h
    cases hs
    exact .inl ⟨s, rfl, rfl⟩
  · obtain ⟨fields, _, hf⟩ := List.mem_map.mp h
    cases hf
    exact .inr ⟨fields, rfl, rfl⟩

theorem exists_text_of_toRecord {before after : Record} {number : Nat} {s : String}
    (h : r.toRecord = before ++ (number, .text s) :: after) :
    (∃ names rest, r.filesToGenerate = names ++ s :: rest ∧ number = 1 ∧
      before = Record.ofTexts 1 names) ∨
    r.parameter = some s ∧ number = 2 ∧ before = Record.ofTexts 1 r.filesToGenerate := by
  rw [toRecord] at h
  rcases append_eq_append_cons h with ⟨rest, htexts⟩ | ⟨files, _, hfiles⟩
  · rcases append_eq_append_cons htexts with ⟨later, hnames⟩ | ⟨earlier, hbefore, hparameter⟩
    · left
      obtain ⟨names, others, hsplit, hb, hcons⟩ := List.map_eq_append_iff.mp hnames
      obtain ⟨name, rest, rfl, hname, _⟩ := List.map_eq_cons_iff.mp hcons
      cases hname
      exact ⟨names, rest, hsplit, rfl, hb.symm⟩
    · right
      cases hp : r.parameter with
      | none =>
        rw [hp] at hparameter
        cases earlier <;> cases hparameter
      | some text =>
        rw [hp] at hparameter
        rcases List.singleton_eq_append_iff.mp hparameter with ⟨rfl, hfield⟩ | ⟨_, hfield⟩
        · cases hfield
          rw [List.append_nil] at hbefore
          exact ⟨rfl, rfl, hbefore⟩
        · cases hfield
  · -- Only messages stand under the number of files.
    have hmem : (number, Value.text s) ∈
        Record.ofRecords 15 (r.files.map FileDescriptor.toRecord) := by
      rw [hfiles]
      exact List.mem_append_right _ List.mem_cons_self
    obtain ⟨fields, _, hf⟩ := List.mem_map.mp hmem
    cases hf

theorem length_encodeField_le {before after : Record} {number : Nat} {v : Value}
    (h : r.toRecord = before ++ (number, v) :: after) :
    (encodeFields before).length + (encodeField number v).length ≤ r.encode.length := by
  rw [encode, Record.encode, h, encodeFields_append, encodeFields, List.length_append,
    List.length_append]
  omega

theorem decode_of_endsInText (hl : r.encode.length < 2 ^ 32) {bytes : List UInt8} {given : Request}
    (h : r.EndsInText bytes given) : decode bytes = .ok given := by
  have htext {names : List String} {number : Nat} {s : String} {kept : List UInt8}
      {record : Record} (hk : MessageType.request.kind? number = some .text)
      (hr : r.toRecord = Record.ofTexts 1 names ++ (number, .text s) :: record)
      (hc : IsCutOf kept (encodeUtf8 s.toList)) :
      decodeRecord .request (encodeFields (Record.ofTexts 1 names) ++ cutText number s kept) =
        .ok (Record.ofTexts 1 names ++ [(number, .text (String.ofList (decodeUtf8 kept)))]) := by
    have hle := length_encodeField_le hr
    rw [encodeField, encodeCounted, List.length_append, List.length_append] at hle
    have hd : Record.depth (Record.ofTexts 1 names) ≤ maxDepth := by
      rw [Record.depth_ofTexts]
      exact Nat.zero_le _
    exact readRecord_of_cut_text (Record.fits_ofTexts rfl names) (by omega) hd hk (by omega) hc
  cases h with
  | @fileToGenerate before after name kept hnames hc =>
    have hr : r.toRecord = Record.ofTexts 1 before ++ (1, .text name) ::
        (Record.ofTexts 1 after ++ Record.ofText 2 r.parameter ++
          Record.ofRecords 15 (r.files.map FileDescriptor.toRecord)) := by
      simp [toRecord, hnames, Record.ofTexts]
    have hg : Record.ofTexts 1 before ++ [(1, .text (String.ofList (decodeUtf8 kept)))] =
        toRecord { filesToGenerate := before ++ [String.ofList (decodeUtf8 kept)] } := by
      simp [toRecord, Record.ofTexts, Record.ofText, Record.ofRecords]
    rw [decode, htext rfl hr hc, hg, Except.map, ofRecord_toRecord]
  | @parameter text kept hp hc =>
    have hr : r.toRecord = Record.ofTexts 1 r.filesToGenerate ++ (2, .text text) ::
        Record.ofRecords 15 (r.files.map FileDescriptor.toRecord) := by
      simp [toRecord, hp, Record.ofText]
    have hg : Record.ofTexts 1 r.filesToGenerate ++
        [(2, .text (String.ofList (decodeUtf8 kept)))] =
        toRecord { filesToGenerate := r.filesToGenerate
                   parameter := some (String.ofList (decodeUtf8 kept)) } := by
      simp [toRecord, Record.ofText, Record.ofRecords]
    rw [decode, htext rfl hr hc, hg, Except.map, ofRecord_toRecord]

/-- Bytes that end inside a field are refused, or they end inside a text. -/
theorem decode_of_cut (hi : r.HasInt32s) (hl : r.encode.length < 2 ^ 32) {bytes : List UInt8}
    (h : bytes <+: r.encode) (hinside : ∀ k, bytes ≠ encodeFields (r.toRecord.take k)) :
    (∃ e, decode bytes = .error e ∧ e.IsAtCut bytes.length) ∨
      ∃ given, r.EndsInText bytes given := by
  obtain ⟨before, number, v, after, cut, hr, rfl, hne, hcut⟩ := exists_field_of_cut h hinside
  have hmem : (number, v) ∈ r.toRecord := by
    rw [hr]
    exact List.mem_append_right _ List.mem_cons_self
  have hle := length_encodeField_le hr
  have hfits : Record.Fits .request before := by
    have hall := fits_toRecord hi
    rw [hr] at hall
    exact hall.of_append
  have hbefore : (encodeFields before).length < 2 ^ 32 := by omega
  have hlength {whole : List UInt8}
      (hv : encodeField number v = encodeTag number 2 ++ encodeCounted whole) :
      whole.length < 2 ^ 32 := by
    rw [hv, encodeCounted, List.length_append, List.length_append] at hle
    omega
  have hrefused {e : DecodeError}
      (he : readField maxDepth (innerReader maxDepth) .request (encodeFields before ++ cut).length
        cut = .error e)
      (hcause : e.IsAtCut (encodeFields before ++ cut).length) :
      ∃ e, decode (encodeFields before ++ cut) = .error e ∧
        e.IsAtCut (encodeFields before ++ cut).length := by
    obtain ⟨e', hread, hcause'⟩ := readRecord_of_cut_error hfits hbefore hne he hcause
    refine ⟨e', ?_, hcause'⟩
    rw [decode, decodeRecord, hread]
    rfl
  -- The field holds a text, which may end early, or a file, which may not.
  rcases value_of_mem_toRecord hmem with ⟨s, rfl, hk⟩ | ⟨fields, rfl, hk⟩
  · rcases readField_of_cut hk rfl (hlength rfl) hcut with hrange | ⟨kept, rfl, hkept⟩
    · exact .inl (hrefused hrange (.inr (.inl rfl)))
    · right
      rcases exists_text_of_toRecord hr with ⟨names, rest, hnames, rfl, rfl⟩ | ⟨hp, rfl, rfl⟩
      · exact ⟨_, .fileToGenerate hnames hkept⟩
      · exact ⟨_, .parameter hp hkept⟩
  · left
    rcases readField_of_cut hk rfl (hlength rfl) hcut with hrange | ⟨kept, rfl, hkept⟩
    · exact hrefused hrange (.inr (.inl rfl))
    · refine hrefused ?_ (.inr (.inr rfl))
      rw [readField_known _ hk (by decide), maxDepth, innerReader,
        readValue_message_of_cut (hlength rfl) hkept]
      rfl

theorem EndsInText.length_lt {bytes : List UInt8} {given : Request}
    (h : r.EndsInText bytes given) :
    bytes.length <
      (encodeFields
        (Record.ofTexts 1 r.filesToGenerate ++ Record.ofText 2 r.parameter)).length := by
  have hcut (number : Nat) {s : String} {kept : List UInt8}
      (hc : IsCutOf kept (encodeUtf8 s.toList)) :
      (cutText number s kept).length < (encodeField number (.text s)).length := by
    have hlt := hc.length_lt
    simp only [cutText, encodeField, encodeCounted, List.length_append]
    omega
  cases h with
  | @fileToGenerate before after name kept hnames hc =>
    have hlt := hcut 1 hc
    simp only [hnames, Record.ofTexts, List.map_append, List.map_cons, encodeFields_append,
      encodeFields, List.length_append]
    omega
  | @parameter text kept hp hc =>
    have hlt := hcut 2 hc
    simp only [hp, Record.ofText, Option.toList, List.map_cons, encodeFields_append, encodeFields,
      List.length_append]
    omega

theorem EndsInText.files_eq_nil {bytes : List UInt8} {given : Request}
    (h : r.EndsInText bytes given) : given.files = [] := by
  cases h <;> rfl

end Request

namespace Plugin

theorem response_of_decode_error {bytes : List UInt8} {e : DecodeError} (level : LogLevel)
    (h : Request.decode bytes = .error e) :
    (run level bytes).response = ⟨some e.message, some 1, []⟩ := by
  rw [run_of_decode_error level h]
  exact Response.make_of_ne_empty
    (fun hs => RunError.message_ne_empty (.request e) (Option.some.inj hs)) []

theorem answer_nil (parameter : String) :
    (answer parameter []).files = [] ∧
      ((answer parameter []).error = none ↔ ∃ options, Options.parse parameter = .ok options) := by
  rw [answer]
  cases Options.parse parameter with
  | error e => simp [Response.make, e.message_ne_empty]
  | ok options => simp [Response.make, outputs, pure, Except.pure, Except.map]

/-- Bytes of a request that end inside one of its fields are answered with an error, unless they end
inside a text. That one is taken to end there, with nothing after it, and the answer is the one
to what is left: it has no files, and an error where the parameter is refused. -/
theorem run_of_cut {r : Request} (hi : r.HasInt32s) (hl : r.encode.length < 2 ^ 32)
    {bytes : List UInt8} (h : bytes <+: r.encode)
    (hinside : ∀ k, bytes ≠ encodeFields (r.toRecord.take k)) (level : LogLevel) :
    ((¬∃ given, r.EndsInText bytes given) →
      ∃ e : DecodeError, Request.decode bytes = .error e ∧ e.IsAtCut bytes.length ∧
        (run level bytes).response = ⟨some e.message, some 1, []⟩) ∧
    ∀ given, r.EndsInText bytes given →
      Request.decode bytes = .ok given ∧ run level bytes = respond level given ∧
      (run level bytes).response.files = [] ∧
      ((run level bytes).response.error = none ↔
        ∃ options, Options.parse (given.parameter.getD "") = .ok options) := by
  constructor
  · intro hno
    rcases Request.decode_of_cut hi hl h hinside with ⟨e, hd, he⟩ | htext
    · exact ⟨e, hd, he, response_of_decode_error level hd⟩
    · exact absurd htext hno
  · intro given hgiven
    have hd := Request.decode_of_endsInText hl hgiven
    have hfiles : given.requestedFiles = [] := by
      rw [Request.requestedFiles, hgiven.files_eq_nil, List.filter_nil]
    refine ⟨hd, run_of_decode level hd, ?_⟩
    rw [run_eq_answer level hd, hfiles]
    exact answer_nil _

def pathAndFile : Request := requestFor ["a.proto"] [fileOf "a.proto" "A"]

theorem endsInText_pathAndFile :
    pathAndFile.EndsInText (pathAndFile.encode.take 4) { filesToGenerate := ["a."] } := by
  have hcut : IsCutOf [0x61, 0x2e] (encodeUtf8 "a.proto".toList) := ⟨by decide, by decide⟩
  have hbytes : pathAndFile.encode.take 4 =
      encodeFields (Record.ofTexts 1 []) ++ cutText 1 "a.proto" [0x61, 0x2e] := by
    decide +kernel
  have hkept : String.ofList (decodeUtf8 [0x61, 0x2e]) = "a." := by decide +kernel
  rw [hbytes, ← hkept]
  exact .fileToGenerate rfl hcut

/-- Bytes that end inside a path are answered, and not with an error. -/
theorem no_error_of_cut_pathAndFile :
    pathAndFile.HasInt32s ∧ pathAndFile.encode.length < 2 ^ 32 ∧
      pathAndFile.encode.take 4 <+: pathAndFile.encode ∧
      (∀ k, pathAndFile.encode.take 4 ≠ encodeFields (pathAndFile.toRecord.take k)) ∧
      (run .info (pathAndFile.encode.take 4)).response = ⟨none, some 1, []⟩ := by
  have hl : pathAndFile.encode.length < 2 ^ 32 := by decide +kernel
  refine ⟨by decide, hl, List.take_prefix _ _, ne_encodeFields_take (by decide +kernel), ?_⟩
  rw [run_eq_answer .info (Request.decode_of_endsInText hl endsInText_pathAndFile)]
  decide +kernel

theorem run_of_cut_pathAndFile :
    let long := pathAndFile.encode.dropLast
    let short := pathAndFile.encode.take 4
    pathAndFile.HasInt32s ∧ pathAndFile.encode.length < 2 ^ 32 ∧
      long <+: pathAndFile.encode ∧ (∀ k, long ≠ encodeFields (pathAndFile.toRecord.take k)) ∧
      (¬∃ given, pathAndFile.EndsInText long given) ∧
      (run .info long).response.error ≠ none ∧ (run .info long).response.files = [] ∧
      short <+: pathAndFile.encode ∧ (∀ k, short ≠ encodeFields (pathAndFile.toRecord.take k)) ∧
      pathAndFile.EndsInText short { filesToGenerate := ["a."] } ∧
      (run .info short).response.error = none ∧ (run .info short).response.files = [] := by
  intro long short
  have hi : pathAndFile.HasInt32s := by decide
  have hl : pathAndFile.encode.length < 2 ^ 32 := by decide +kernel
  have hlong : long <+: pathAndFile.encode := List.dropLast_prefix _
  have hshort : short <+: pathAndFile.encode := List.take_prefix _ _
  have hinside : ∀ k, long ≠ encodeFields (pathAndFile.toRecord.take k) :=
    ne_encodeFields_take (by decide +kernel)
  have hinside' : ∀ k, short ≠ encodeFields (pathAndFile.toRecord.take k) :=
    ne_encodeFields_take (by decide +kernel)
  have hno : ¬∃ given, pathAndFile.EndsInText long given := by
    rintro ⟨given, hgiven⟩
    have hlt := hgiven.length_lt
    exact absurd hlt (by decide +kernel)
  obtain ⟨e, _, _, hrefused⟩ := (run_of_cut hi hl hlong hinside .info).1 hno
  obtain ⟨_, _, hfiles, hok⟩ :=
    (run_of_cut hi hl hshort hinside' .info).2 _ endsInText_pathAndFile
  have hparsed : ∃ options, Options.parse "" = .ok options := ⟨⟨none, Target.all⟩, by decide⟩
  rw [hrefused]
  exact ⟨hi, hl, hlong, hinside, hno, nofun, rfl, hshort, hinside', endsInText_pathAndFile,
    hok.mpr hparsed, hfiles⟩

end Plugin

end ProtoNaming
