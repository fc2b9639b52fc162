import ProtoNaming.Proofs.Manifest.Rows

namespace ProtoNaming

/-- A name for a runtime, as long as that is one of the targets. -/
def Target.keep (targets : List Target) (t : Target) (name : Option String) : Option String :=
  if t ∈ targets then name else none

def TypeRow.masked (targets : List Target) (r : TypeRow) : TypeRow :=
  { r with
    objectName := Target.keep targets .namespaced r.objectName
    className := Target.keep targets .classBased r.className }

def FieldRow.masked (targets : List Target) (r : FieldRow) : FieldRow :=
  { r with accessor := Target.keep targets .namespaced r.accessor }

def ExtensionRow.masked (targets : List Target) (r : ExtensionRow) : ExtensionRow :=
  { r with
    accessor := Target.keep targets .namespaced r.accessor
    classPath := Target.keep targets .classBased r.classPath
    objectPath := Target.keep targets .namespaced r.objectPath
    importName := Target.keep targets .namespaced r.importName
    lookupName := Target.keep targets .namespaced r.lookupName }

def Manifest.masked (targets : List Target) (m : Manifest) : Manifest :=
  { m with
    rootName := Target.keep targets .namespaced m.rootName
    classPackage := Target.keep targets .classBased m.classPackage
    outerClass := Target.keep targets .classBased m.outerClass
    types := m.types.map (TypeRow.masked targets)
    fields := m.fields.map (FieldRow.masked targets)
    extensions := m.extensions.map (ExtensionRow.masked targets) }

theorem Target.mem_all (t : Target) : t ∈ all := by
  cases t <;> decide

theorem Target.contains_all (t : Target) : all.contains t = true :=
  List.contains_iff_mem.mpr t.mem_all

section

variable (targets : List Target)

theorem Target.ite_contains (t : Target) (name : String) :
    (if targets.contains t then some name else none) = keep targets t (some name) := by
  simp [keep]

/-- A name that is made for all runtimes is made for some of them, or left out. -/
theorem nameIf_contains {name : Except NamingError String} {t : Target} {s : Option String}
    (h : nameIf (Target.all.contains t) name = .ok s) :
    nameIf (targets.contains t) name = .ok (Target.keep targets t s) := by
  rw [nameIf, if_pos t.contains_all] at h
  cases name with
  | error e => cases h
  | ok n =>
    cases h
    rw [← Target.ite_contains, nameIf]
    split <;> rfl

variable {file : File}

theorem TypeRow.build_masked {e : Element} {row : TypeRow}
    (h : build file Target.all e = .ok row) :
    build file targets e = .ok (row.masked targets) := by
  obtain ⟨object, cls, ho, hc, rfl⟩ := build_eq_ok_iff.mp h
  exact build_eq_ok_iff.mpr ⟨_, _, nameIf_contains targets ho, nameIf_contains targets hc, rfl⟩

theorem FieldRow.build_masked {message : Decl} {f : Field} {row : FieldRow}
    (h : build file Target.all message f = .ok row) :
    build file targets message f = .ok (row.masked targets) := by
  obtain ⟨kind, needed, hk, hn, rfl⟩ := build_eq_ok_iff.mp h
  refine build_eq_ok_iff.mpr ⟨kind, needed, hk, hn, ?_⟩
  rw [Target.ite_contains targets]
  rfl

theorem ExtensionRow.build_masked {f : Field} {row : ExtensionRow}
    (h : build file Target.all f = .ok row) :
    build file targets f = .ok (row.masked targets) := by
  obtain ⟨classPath, objectPath, importName, lookupName, hc, ho, hi, hl, rfl⟩ :=
    build_eq_ok_iff.mp h
  refine build_eq_ok_iff.mpr ⟨_, _, _, _, nameIf_contains targets hc, nameIf_contains targets ho,
    nameIf_contains targets hi, nameIf_contains targets hl, ?_⟩
  rw [Target.ite_contains targets]
  rfl

theorem File.manifest_masked {m : Manifest} (h : file.manifest Target.all = .ok m) :
    file.manifest targets = .ok (m.masked targets) := by
  obtain ⟨types, fields, extensions, ht, hf, he, rfl⟩ := manifest_eq_ok_iff.mp h
  refine manifest_eq_ok_iff.mpr ⟨_, _, _,
    List.forall₂_map_right_iff.mpr (ht.imp fun _ _ => TypeRow.build_masked targets),
    List.forall₂_map_right_iff.mpr (hf.imp fun _ _ => FieldRow.build_masked targets),
    List.forall₂_map_right_iff.mpr (he.imp fun _ _ => ExtensionRow.build_masked targets), ?_⟩
  rw [Target.ite_contains targets, Target.ite_contains targets, Target.ite_contains targets]
  rfl

end

theorem Manifest.masked_congr {targets targets' : List Target}
    (h : ∀ t, t ∈ targets ↔ t ∈ targets') (m : Manifest) :
    m.masked targets = m.masked targets' := by
  have hkeep : Target.keep targets = Target.keep targets' := by
    funext t name
    simp only [Target.keep, h]
  have ht : TypeRow.masked targets = TypeRow.masked targets' := by
    funext r
    simp only [TypeRow.masked, hkeep]
  have hf : FieldRow.masked targets = FieldRow.masked targets' := by
    funext r
    simp only [FieldRow.masked, hkeep]
  have he : ExtensionRow.masked targets = ExtensionRow.masked targets' := by
    funext r
    simp only [ExtensionRow.masked, hkeep]
  simp only [Manifest.masked, hkeep, ht, hf, he]

namespace FileDescriptor

/-- Whatever runtimes are asked for there is a manifest: it is that for both with the names for the
others left out, so that only what the targets are counts. -/
theorem manifest_eq_masked {d : FileDescriptor} {file : File} (h : d.build = .ok file) :
    ∃ full, file.manifest [.classBased, .namespaced] = .ok full ∧
      (∀ targets, file.manifest targets = .ok (full.masked targets)) ∧
      ∀ targets targets', (∀ t, t ∈ targets ↔ t ∈ targets') →
        file.manifest targets = file.manifest targets' := by
  obtain ⟨rfl, hs⟩ := d.eq_of_build h
  obtain ⟨full, hfull⟩ := d.exists_manifest hs Target.all
  refine ⟨full, hfull, fun targets => File.manifest_masked targets hfull, ?_⟩
  intro targets targets' hsame
  rw [File.manifest_masked targets hfull, File.manifest_masked targets' hfull,
    full.masked_congr hsame]

/-- A file with an extension that both runtimes reach. -/
def withFlag : FileDescriptor where
  name := some "a.proto"
  package := some "p"
  messages := [{ name := some "M", fields := [{ name := some "id", typeCode := some 5 }] }]
  extensions := [{ name := some "is_set", typeCode := some 8, label := some 3 }]

theorem manifest_eq_masked_withFlag :
    withFlag.build = .ok withFlag.toFile ∧
      ∃ full, withFlag.toFile.manifest [.classBased, .namespaced] = .ok full ∧
        full.classPackage = some "p" ∧ full.rootName = some "proto.p" ∧
        full.extensions.map (·.classPath) = [some "p.A.isSet.getDescriptor()"] ∧
        full.extensions.map (·.objectPath) = [some "proto.p.isSetList"] ∧
        (∃ m, withFlag.toFile.manifest [.namespaced] = .ok m ∧
          m.classPackage = none ∧ m.rootName = some "proto.p" ∧
          m.extensions.map (·.classPath) = [none] ∧
          m.extensions.map (·.objectPath) = [some "proto.p.isSetList"]) ∧
        withFlag.toFile.manifest [.namespaced, .classBased, .namespaced] = .ok full := by
  have hb : withFlag.build = .ok withFlag.toFile := rfl
  obtain ⟨full, hfull, hmasked, hsame⟩ := manifest_eq_masked hb
  have hmembers : ∀ t, t ∈ [Target.namespaced, .classBased, .namespaced] ↔
      t ∈ [Target.classBased, .namespaced] := by
    intro t
    cases t <;> decide
  obtain rfl : full = _ := Except.ok.inj (hfull.symm.trans rfl)
  refine ⟨hb, _, hfull, rfl, rfl, ?_, ?_, ⟨_, hmasked [.namespaced], rfl, rfl, rfl, ?_⟩, ?_⟩
  · decide
  · decide
  · decide
  · rw [hsame _ [.classBased, .namespaced] hmembers, hfull]

end FileDescriptor

end ProtoNaming
