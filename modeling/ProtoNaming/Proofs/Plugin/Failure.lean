import ProtoNaming.Plugin.Run
import ProtoNaming.Proofs.Manifest.Total
import ProtoNaming.Proofs.Plugin.Options

namespace ProtoNaming.Plugin

open Wire

def requestedFields (requested : List String) (files : List FileDescriptor) :
    List FieldDescriptor :=
  (files.filter fun d => d.name.getD "" ∈ requested).flatMap FileDescriptor.allFields

/-- What goes wrong first with the bytes of a request: they are no request, or its parameter is
refused, or a requested file has a field that is not supported. -/
def firstFailure? (bytes : List UInt8) : Option RunError :=
  match Request.decode bytes with
  | .error e => some (.request e)
  | .ok request =>
    match Options.parse (request.parameter.getD "") with
    | .error e => some (.naming e)
    | .ok _ =>
      (firstUnsupported? (requestedFields request.filesToGenerate request.files)).map fun code =>
        .naming (.unsupportedType code)

theorem requestedFields_cons_of_mem {requested : List String} {d : FileDescriptor}
    (h : d.name.getD "" ∈ requested) (ds : List FileDescriptor) :
    requestedFields requested (d :: ds) = d.allFields ++ requestedFields requested ds := by
  have hd : decide (d.name.getD "" ∈ requested) = true := decide_eq_true h
  rw [requestedFields, List.filter_cons, if_pos hd, List.flatMap_cons, requestedFields]

theorem requestedFields_cons_of_not_mem {requested : List String} {d : FileDescriptor}
    (h : d.name.getD "" ∉ requested) (ds : List FileDescriptor) :
    requestedFields requested (d :: ds) = requestedFields requested ds := by
  have hd : ¬decide (d.name.getD "" ∈ requested) = true := by simpa using h
  rw [requestedFields, List.filter_cons, if_neg hd, requestedFields]

theorem mem_requestedFields {requested : List String} {ds : List FileDescriptor}
    {f : FieldDescriptor} :
    f ∈ requestedFields requested ds ↔
      ∃ d ∈ ds, d.name.getD "" ∈ requested ∧ f ∈ d.allFields := by
  simp [requestedFields, and_assoc]

theorem requestedFields_eraseDups (requested : List String) (ds : List FileDescriptor) :
    requestedFields requested.eraseDups ds = requestedFields requested ds := by
  unfold requestedFields
  simp only [List.mem_eraseDups]

theorem exists_product (targets : List Target) (d : FileDescriptor) :
    ∃ p, product targets d = checked d.allFields p := by
  cases hf : firstUnsupported? d.allFields with
  | some code =>
    refine ⟨none, ?_⟩
    rw [product, d.build_eq, checked_of_unsupported hf, checked_of_unsupported hf]
    rfl
  | none =>
    have hs := firstUnsupported?_eq_none_iff.mp hf
    obtain ⟨m, hm⟩ := d.exists_manifest hs targets
    by_cases hd : d.toFile.hasDeclarations = true
    · refine ⟨some ⟨⟨SourcePath.manifestPath d.toFile.name, m.render⟩, m.types.length⟩, ?_⟩
      rw [product, d.build_eq, checked_of_supported hs, checked_of_supported hs]
      simp only [Except.bind, bind, hd, hm]
      rfl
    · refine ⟨none, ?_⟩
      rw [product, d.build_eq, checked_of_supported hs, checked_of_supported hs]
      simp only [Except.bind, bind, hd]
      rfl

/-- Going through the files fails at the first field that is not supported and nowhere else. -/
theorem exists_generate (targets : List Target) (requested : List String)
    (ds : List FileDescriptor) :
    ∃ files, (generate targets requested ds).files =
      checked (requestedFields requested ds) files := by
  induction ds with
  | nil => exact ⟨[], rfl⟩
  | cons d ds ih =>
    obtain ⟨files, hfiles⟩ := ih
    by_cases hn : d.name.getD "" ∈ requested
    · obtain ⟨p, hp⟩ := exists_product targets d
      rw [requestedFields_cons_of_mem hn, generate, if_pos hn, hp]
      unfold checked at hfiles ⊢
      rw [firstUnsupported?_append]
      cases firstUnsupported? d.allFields with
      | some code => exact ⟨[], rfl⟩
      | none =>
        simp only [Option.none_or]
        cases p with
        | none => exact ⟨files, hfiles⟩
        | some p =>
          refine ⟨p.file :: files, ?_⟩
          simp only [hfiles]
          cases firstUnsupported? (requestedFields requested ds) <;> rfl
    · rw [requestedFields_cons_of_not_mem hn, generate, if_neg hn]
      exact ⟨files, hfiles⟩

theorem exists_run (level : LogLevel) (bytes : List UInt8) :
    ∃ files, (run level bytes).response =
      match firstFailure? bytes with
      | none => .make none files
      | some e => .make (some e.message) [] := by
  unfold run firstFailure?
  cases Request.decode bytes with
  | error e => exact ⟨[], rfl⟩
  | ok request =>
    simp only [respond]
    cases Options.parse (request.parameter.getD "") with
    | error e => exact ⟨[], rfl⟩
    | ok options =>
      obtain ⟨files, hfiles⟩ := exists_generate options.targets request.filesToGenerate.eraseDups
        request.files
      rw [requestedFields_eraseDups] at hfiles
      refine ⟨files, ?_⟩
      simp only [hfiles, checked]
      cases firstUnsupported? (requestedFields request.filesToGenerate request.files) <;> rfl

theorem head?_append {c : Char} {s : String} (h : s.toList.head? = some c) (t : String) :
    (s ++ t).toList.head? = some c := by
  rw [String.toList_append, List.head?_append, h, Option.some_or]

theorem head?_decodeError (e : DecodeError) :
    e.message.toList.head? = some 'i' ∨ e.message.toList.head? = some 'm' := by
  cases e with
  | outOfRange pos count limit =>
    exact .inl
      (head?_append (head?_append (head?_append (head?_append (head?_append rfl _) _) _) _) _)
  | spanOutOfRange => exact .inl rfl
  | invalidWireType wireType pos =>
    exact .inl (head?_append (head?_append (head?_append rfl _) _) _)
  | varintTooLong => exact .inl rfl
  | tooDeep => exact .inr rfl

theorem head?_unsupportedType (code : Int) :
    (NamingError.unsupportedType code).message.toList.head? = some 'U' :=
  head?_append rfl _

theorem head?_unknownTarget (name : String) :
    (NamingError.unknownTarget name).message.toList.head? = some 'U' :=
  head?_append (head?_append rfl _) _

theorem head?_outsidePackage (element expectedPrefix : String) :
    (NamingError.outsidePackage element expectedPrefix).message.toList.head? = some 'E' :=
  head?_append (head?_append (head?_append (head?_append rfl _) _) _) _

theorem exists_unknownTarget_of_parse {parameter : String} {e : NamingError}
    (h : Options.parse parameter = .error e) : ∃ name, e = .unknownTarget name := by
  obtain ⟨pieces, level, list, hcut, hlevel, hlist⟩ := Options.exists_lastValues parameter
  obtain ⟨name, _, he⟩ := (Options.parse_eq_error_iff hcut hlevel hlist).mp h
  exact ⟨_, he⟩

/-- The text of a failure is not empty and never the one about a name outside its package. -/
theorem head?_of_firstFailure? {bytes : List UInt8} {e : RunError}
    (h : firstFailure? bytes = some e) :
    ∃ c, e.message.toList.head? = some c ∧ c ≠ 'E' := by
  unfold firstFailure? at h
  cases hd : Request.decode bytes with
  | error cause =>
    rw [hd] at h
    cases h
    rcases head?_decodeError cause with hi | hm
    · exact ⟨'i', hi, by decide⟩
    · exact ⟨'m', hm, by decide⟩
  | ok request =>
    rw [hd] at h
    cases hp : Options.parse (request.parameter.getD "") with
    | error cause =>
      obtain ⟨name, rfl⟩ := exists_unknownTarget_of_parse hp
      simp only [hp] at h
      cases h
      exact ⟨'U', head?_unknownTarget name, by decide⟩
    | ok options =>
      simp only [hp] at h
      obtain ⟨code, _, rfl⟩ := Option.map_eq_some_iff.mp h
      exact ⟨'U', head?_unsupportedType code, by decide⟩

theorem isSome_firstFailure?_iff (bytes : List UInt8) :
    (firstFailure? bytes).isSome ↔
      (∃ e, Request.decode bytes = .error e) ∨
      ∃ request, Request.decode bytes = .ok request ∧
        ((∃ e, Options.parse (request.parameter.getD "") = .error e) ∨
          ∃ d ∈ request.files, d.name.getD "" ∈ request.filesToGenerate ∧
            ∃ f ∈ d.allFields, ¬f.IsSupported) := by
  unfold firstFailure?
  cases Request.decode bytes with
  | error e => simp
  | ok request =>
    simp only [reduceCtorEq, exists_false, false_or, Except.ok.injEq, exists_eq_left']
    cases Options.parse (request.parameter.getD "") with
    | error e => simp
    | ok options =>
      simp only [reduceCtorEq, exists_false, false_or]
      rw [Option.isSome_map, Option.isSome_iff_ne_none, ne_eq, firstUnsupported?_eq_none_iff]
      push Not
      constructor
      · rintro ⟨f, hf, hu⟩
        obtain ⟨d, hd, hn, hfd⟩ := mem_requestedFields.mp hf
        exact ⟨d, hd, hn, f, hfd, hu⟩
      · rintro ⟨d, hd, hn, f, hfd, hu⟩
        exact ⟨f, mem_requestedFields.mpr ⟨d, hd, hn, hfd⟩, hu⟩

/-- What a run answers is settled by the first failure, if any, and a failure is never about a name
outside its package. -/
theorem run_response (level : LogLevel) (bytes : List UInt8) :
    (run level bytes).response.supportedFeatures = some 1 ∧
    (run level bytes).response.error = (firstFailure? bytes).map RunError.message ∧
    ((run level bytes).response.error.isSome ↔
      (∃ e, Request.decode bytes = .error e) ∨
      ∃ request, Request.decode bytes = .ok request ∧
        ((∃ e, Options.parse (request.parameter.getD "") = .error e) ∨
          ∃ d ∈ request.files, d.name.getD "" ∈ request.filesToGenerate ∧
            ∃ f ∈ d.allFields, ¬(1 ≤ f.typeCode.getD 0 ∧ f.typeCode.getD 0 ≤ 18))) ∧
    ((run level bytes).response.error.isSome → (run level bytes).response.files = []) ∧
    ∀ element expectedPrefix,
      (run level bytes).response.error ≠
        some (NamingError.outsidePackage element expectedPrefix).message := by
  obtain ⟨files, hr⟩ := exists_run level bytes
  have herror : (run level bytes).response.error = (firstFailure? bytes).map RunError.message := by
    rw [hr]
    cases hf : firstFailure? bytes with
    | none => rfl
    | some e =>
      obtain ⟨c, hc, _⟩ := head?_of_firstFailure? hf
      have hne : e.message ≠ "" := by
        intro h
        rw [h] at hc
        cases hc
      simp [Response.make, hne]
  refine ⟨?_, herror, ?_, fun hs => ?_, fun element expectedPrefix h => ?_⟩
  · rw [hr]
    cases firstFailure? bytes <;> rfl
  · rw [herror, Option.isSome_map]
    exact isSome_firstFailure?_iff bytes
  · rw [herror, Option.isSome_map] at hs
    obtain ⟨e, he⟩ := Option.isSome_iff_exists.mp hs
    rw [hr, he]
    rfl
  · rw [herror] at h
    obtain ⟨e, he, hm⟩ := Option.map_eq_some_iff.mp h
    obtain ⟨c, hc, hne⟩ := head?_of_firstFailure? he
    rw [hm, head?_outsidePackage] at hc
    exact hne (Option.some.inj hc).symm

end ProtoNaming.Plugin
