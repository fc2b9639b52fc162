import ProtoNaming.Proofs.Plugin.Independence
import ProtoNaming.Proofs.SourcePath.Stem

namespace ProtoNaming

open SourcePath

def FileDescriptor.declaresAny (d : FileDescriptor) : Bool :=
  !(d.messages.isEmpty && d.enums.isEmpty && d.extensions.isEmpty)

def Request.manifestFiles (r : Request) : List FileDescriptor :=
  r.requestedFiles.filter FileDescriptor.declaresAny

theorem FileDescriptor.hasDeclarations_toFile (d : FileDescriptor) :
    d.toFile.hasDeclarations = d.declaresAny := by
  rw [Bool.eq_iff_iff]
  simp [File.hasDeclarations, toFile, declaresAny]

namespace Plugin

variable {targets : List Target}

theorem name_of_product {d : FileDescriptor} {p : Option Product} (h : product targets d = .ok p) :
    p.toList.map (·.file.name) =
      if d.declaresAny then [manifestPath (d.name.getD "")] else [] := by
  obtain ⟨file, hb, h⟩ := bind_eq_ok_iff.mp h
  obtain ⟨rfl, _⟩ := d.eq_of_build hb
  rw [d.hasDeclarations_toFile] at h
  split at h
  · next hd =>
    obtain ⟨m, _, h⟩ := bind_eq_ok_iff.mp h
    cases Except.ok.inj h
    rw [if_pos hd]
    rfl
  · next hd =>
    cases Except.ok.inj h
    rw [if_neg hd]
    rfl

theorem names_of_outputs {ds : List FileDescriptor} {files : List OutputFile}
    (h : outputs targets ds = .ok files) :
    files.map (·.name) =
      (ds.filter FileDescriptor.declaresAny).map fun d => manifestPath (d.name.getD "") := by
  induction ds generalizing files with
  | nil =>
    cases Except.ok.inj h
    rfl
  | cons d ds ih =>
    rw [outputs_cons] at h
    obtain ⟨p, hp, h⟩ := bind_eq_ok_iff.mp h
    cases ho : outputs targets ds with
    | error e =>
      rw [ho] at h
      cases h
    | ok later =>
      rw [ho] at h
      cases Except.ok.inj h
      have hname := name_of_product hp
      rw [List.map_append, ih ho, List.map_map, List.filter_cons]
      by_cases hd : d.declaresAny = true
      · rw [if_pos hd] at hname ⊢
        exact congrArg (· ++ _) hname
      · rw [if_neg hd] at hname ⊢
        exact congrArg (· ++ _) hname

theorem names_of_run {bytes : List UInt8} {request : Request} (level : LogLevel)
    (h : Request.decode bytes = .ok request)
    (hnone : (run level bytes).response.error = none) :
    (run level bytes).response.files.map (·.name) =
      request.manifestFiles.map fun d => manifestPath (d.name.getD "") := by
  rw [run_eq_answer level h] at hnone ⊢
  obtain ⟨options, files, _, hfiles, hanswer⟩ := answer_of_no_error hnone
  rw [hanswer]
  exact names_of_outputs hfiles

/-- Where the paths of a request are distinct, two files of its answer have one name if their paths
differ in their endings, and only then. So no names are the same if all paths end alike. -/
theorem nodup_names_iff_of_run {level : LogLevel} {bytes : List UInt8} {request : Request}
    (h : Request.decode bytes = .ok request)
    (hpaths : (request.files.map fun d => d.name.getD "").Nodup)
    (hnone : (run level bytes).response.error = none) :
    (run level bytes).response.files.map (·.name) =
      request.manifestFiles.map (fun d => manifestPath (d.name.getD "")) ∧
    (request.manifestFiles.Pairwise fun d e =>
      manifestPath (d.name.getD "") = manifestPath (e.name.getD "") ↔
        DifferInEnding (d.name.getD "") (e.name.getD "")) ∧
    (((run level bytes).response.files.map (·.name)).Nodup ↔
      request.manifestFiles.Pairwise fun d e =>
        ¬DifferInEnding (d.name.getD "") (e.name.getD "")) ∧
    ((∀ d ∈ request.manifestFiles, ∃ stem, d.name.getD "" = stem ++ ".proto") →
      ((run level bytes).response.files.map (·.name)).Nodup) := by
  have hnames := names_of_run level h hnone
  have hsub : request.manifestFiles.Sublist request.files :=
    List.filter_sublist.trans List.filter_sublist
  have hdistinct : request.manifestFiles.Pairwise fun d e => d.name.getD "" ≠ e.name.getD "" :=
    (List.pairwise_map.mp hpaths).sublist hsub
  have hclash : request.manifestFiles.Pairwise fun d e =>
      manifestPath (d.name.getD "") = manifestPath (e.name.getD "") ↔
        DifferInEnding (d.name.getD "") (e.name.getD "") := by
    refine hdistinct.imp fun {d e} hne => ?_
    rw [manifestPath_eq_iff]
    exact ⟨fun hstem => ⟨hne, hstem⟩, fun hd => hd.2⟩
  have hnodup : ((run level bytes).response.files.map (·.name)).Nodup ↔
      request.manifestFiles.Pairwise fun d e =>
        ¬DifferInEnding (d.name.getD "") (e.name.getD "") := by
    rw [hnames, List.Nodup, List.pairwise_map]
    constructor
    · intro hp
      exact (hp.and hclash).imp fun hde hd => hde.1 (hde.2.mpr hd)
    · intro hp
      exact (hp.and hclash).imp fun hde heq => hde.1 (hde.2.mp heq)
  refine ⟨hnames, hclash, hnodup, fun hproto => hnodup.mpr ?_⟩
  apply List.pairwise_of_forall_mem_list
  intro d hd e he
  exact not_differInEnding_of_proto (hproto d hd) (hproto e he)

def twoEndings : Request :=
  requestFor ["a.proto", "a.protodevel", "a/a.proto"]
    [fileOf "a.proto" "A", fileOf "a.protodevel" "B", fileOf "a/a.proto" "C"]

/-- Distinct paths do not make names distinct. -/
theorem shared_name_twoEndings :
    Request.decode twoEndings.encode = .ok twoEndings ∧
      (twoEndings.files.map fun d => d.name.getD "").Nodup ∧
      (run .info twoEndings.encode).response.error = none ∧
      (run .info twoEndings.encode).response.files.map (·.name) =
        ["a.symbols.json", "a.symbols.json", "a/a.symbols.json"] ∧
      ¬((run .info twoEndings.encode).response.files.map (·.name)).Nodup := by
  have hdecode : Request.decode twoEndings.encode = .ok twoEndings :=
    decode_requestFor (by decide +kernel)
  have hnames : (run .info twoEndings.encode).response.files.map (·.name) =
      ["a.symbols.json", "a.symbols.json", "a/a.symbols.json"] := by
    rw [run_eq_answer .info hdecode]
    decide +kernel
  have hnone : (run .info twoEndings.encode).response.error = none := by
    rw [run_eq_answer .info hdecode]
    decide +kernel
  refine ⟨hdecode, by decide, hnone, hnames, ?_⟩
  rw [hnames]
  decide

/-- Files with paths of different stems. The third has one stem with the first, but nothing in
it. -/
def nestedEndings : Request :=
  requestFor ["a.proto", "a.proto.protodevel", "a"]
    [fileOf "a.proto" "A", fileOf "a.proto.protodevel" "B", { name := some "a" }]

theorem nodup_names_iff_of_run_nestedEndings :
    Request.decode nestedEndings.encode = .ok nestedEndings ∧
      (nestedEndings.files.map fun d => d.name.getD "").Nodup ∧
      (run .info nestedEndings.encode).response.error = none ∧
      DifferInEnding "a.proto" "a" ∧ ¬DifferInEnding "a.proto" "a.proto.protodevel" ∧
      (run .info nestedEndings.encode).response.files.map (·.name) =
        ["a.symbols.json", "a.proto.symbols.json"] ∧
      ((run .info nestedEndings.encode).response.files.map (·.name)).Nodup := by
  have hdecode : Request.decode nestedEndings.encode = .ok nestedEndings :=
    decode_requestFor (by decide +kernel)
  have hpaths : (nestedEndings.files.map fun d => d.name.getD "").Nodup := by decide
  have hnone : (run .info nestedEndings.encode).response.error = none := by
    rw [run_eq_answer .info hdecode]
    decide +kernel
  obtain ⟨hnames, hclash, hnodup, _⟩ := nodup_names_iff_of_run hdecode hpaths hnone
  have hfiles : nestedEndings.manifestFiles =
      [fileOf "a.proto" "A", fileOf "a.proto.protodevel" "B"] := rfl
  rw [hfiles] at hnames hclash hnodup
  have hdiffer : ¬DifferInEnding "a.proto" "a.proto.protodevel" := fun hd =>
    absurd ((List.pairwise_pair.mp hclash).mpr hd) (by decide)
  have hstem : DifferInEnding "a.proto" "a" :=
    ⟨by decide, manifestPath_eq_iff.mp (by decide)⟩
  refine ⟨hdecode, hpaths, hnone, hstem, hdiffer, hnames.trans (by decide), hnodup.mpr ?_⟩
  exact List.pairwise_pair.mpr hdiffer

end Plugin

end ProtoNaming
