import ProtoNaming.Proofs.Manifest.Total
import ProtoNaming.Proofs.Schema.Stripped

namespace ProtoNaming

/-- Files that name things alike for the targets. The path and the options count for classes
only. -/
structure File.SameNames (targets : List Target) (file file' : File) : Prop where
  package : file'.package = file.package
  dialect : file'.dialect = file.dialect
  classes : .classBased ∈ targets → file'.classPackage = file.classPackage ∧
    file'.outerClass = file.outerClass ∧ file'.javaMultipleFiles = file.javaMultipleFiles

theorem nameIf_congr {wanted : Bool} {name name' : Except NamingError String}
    (h : wanted = true → name' = name) : nameIf wanted name' = nameIf wanted name := by
  cases wanted with
  | true => rw [h rfl]
  | false => rfl

namespace File.SameNames

variable {targets : List Target} {file file' : File} (h : SameNames targets file file')

include h

theorem rootName : file'.rootName = file.rootName := by
  rw [File.rootName, File.rootName, h.package]

theorem relativeName (d : Decl) : file'.relativeName d = file.relativeName d := by
  rw [File.relativeName, File.relativeName, File.packagePrefix, File.packagePrefix, h.package]

theorem objectName (d : Decl) : file'.objectName d = file.objectName d := by
  rw [File.objectName, File.objectName, h.relativeName, h.rootName]

theorem scopeObject (scope : Option Place) : file'.scopeObject scope = file.scopeObject scope := by
  cases scope with
  | none => rw [File.scopeObject, File.scopeObject, h.rootName]
  | some p => exact h.objectName p.decl

theorem accessPath_namespaced (f : Field) :
    file'.accessPath f .namespaced = file.accessPath f .namespaced := by
  simp only [File.accessPath, h.scopeObject]

theorem lookupName (f : Field) : file'.lookupName f = file.lookupName f := by
  simp only [File.lookupName, h.scopeObject]

theorem importName (f : Field) : file'.importName f = file.importName f := by
  simp only [File.importName, h.objectName, h.rootName]

section

variable (hc : .classBased ∈ targets)

include hc

theorem className (d : Decl) : file'.className d = file.className d := by
  obtain ⟨hpackage, houter, hmultiple⟩ := h.classes hc
  rw [File.className, File.className, h.relativeName, hpackage, houter, hmultiple]

theorem accessPath_classBased (f : Field) :
    file'.accessPath f .classBased = file.accessPath f .classBased := by
  obtain ⟨hpackage, houter, _⟩ := h.classes hc
  have hscope (scope : Option Place) : file'.scopeClass scope = file.scopeClass scope := by
    cases scope with
    | none =>
      rw [File.scopeClass, File.scopeClass, File.extensionClass, File.extensionClass, hpackage,
        houter]
    | some p => exact h.className hc p.decl
  simp only [File.accessPath, hscope]

end

theorem typeRow (e : Element) : TypeRow.build file' targets e = TypeRow.build file targets e := by
  have hclass : nameIf (targets.contains .classBased) (file'.className e.place.decl) =
      nameIf (targets.contains .classBased) (file.className e.place.decl) :=
    nameIf_congr fun hc => h.className (List.contains_iff_mem.mp hc) e.place.decl
  rw [TypeRow.build, TypeRow.build, h.objectName, hclass]

theorem fieldRow (message : Decl) (f : Field) :
    FieldRow.build file' targets message f = FieldRow.build file targets message f := by
  rw [FieldRow.build, FieldRow.build, h.dialect]

theorem extensionRow (f : Field) :
    ExtensionRow.build file' targets f = ExtensionRow.build file targets f := by
  have hclass : nameIf (targets.contains .classBased) (file'.accessPath f .classBased) =
      nameIf (targets.contains .classBased) (file.accessPath f .classBased) :=
    nameIf_congr fun hc => h.accessPath_classBased (List.contains_iff_mem.mp hc) f
  simp only [ExtensionRow.build, hclass, h.accessPath_namespaced, h.importName, h.lookupName]

end File.SameNames

section

variable {file : File} {targets : List Target}

theorem FieldRow.build_stripped (message : Decl) (f : Field) :
    build file targets message f.stripped = build file targets message f := by
  have hcheck : f.stripped.needsPresenceCheck file.dialect = f.needsPresenceCheck file.dialect := by
    simp only [Field.needsPresenceCheck, Field.stripped, Option.isSome_map]
    rfl
  rw [build, build, hcheck]
  rfl

end

theorem forall₂_of_map_eq {α β : Type} {R : α → β → Prop} {g : α → α}
    (hg : ∀ a b, R (g a) b ↔ R a b) {as as' : List α} (h : as'.map g = as.map g) {bs : List β}
    (hr : List.Forall₂ R as bs) : List.Forall₂ R as' bs := by
  have hmapped : List.Forall₂ R (as.map g) bs :=
    List.forall₂_map_left_iff.mpr (hr.imp fun a b hab => (hg a b).mpr hab)
  rw [← h, List.forall₂_map_left_iff] at hmapped
  exact hmapped.imp fun a b hab => (hg a b).mp hab

namespace File

variable {targets : List Target} {file file' : File}

/-- Files that name things alike, and are the same when stripped of what no row shows, have the same
manifest but for their paths. -/
theorem manifest_congr (h : SameNames targets file file')
    (helements : file'.elements Message.isListed = file.elements Message.isListed)
    (hfields : ((file'.preorder Message.isListed).flatMap Message.ownedFields).map
        (fun p => (p.1, p.2.stripped)) =
      ((file.preorder Message.isListed).flatMap Message.ownedFields).map
        fun p => (p.1, p.2.stripped))
    (hextensions : file'.allExtensions.map Field.stripped = file.allExtensions.map Field.stripped)
    {m : Manifest} (hm : file.manifest targets = .ok m) :
    file'.manifest targets = .ok { m with file := file'.name } := by
  obtain ⟨types, fields, extensions, ht, hf, he, rfl⟩ := manifest_eq_ok_iff.mp hm
  refine manifest_eq_ok_iff.mpr ⟨types, fields, extensions, ?_, ?_, ?_, ?_⟩
  · rw [helements]
    exact ht.imp fun e row hrow => (h.typeRow e).trans hrow
  · refine forall₂_of_map_eq (fun p row => ?_) hfields
      (hf.imp fun p row hrow => (h.fieldRow p.1 p.2).trans hrow)
    rw [FieldRow.build_stripped]
  · exact forall₂_of_map_eq (g := Field.stripped) (fun f row => Iff.rfl) hextensions
      (he.imp fun f row hrow => (h.extensionRow f).trans hrow)
  · have hclass {name name' : String} (hn : .classBased ∈ targets → name' = name) :
        (if targets.contains .classBased then some name' else none) =
          if targets.contains .classBased then some name else none := by
      by_cases hc : .classBased ∈ targets
      · rw [hn hc]
      · have hno : ¬targets.contains .classBased = true := fun hmem =>
          hc (List.contains_iff_mem.mp hmem)
        rw [if_neg hno, if_neg hno]
    rw [h.package, h.dialect, h.rootName, hclass fun hc => (h.classes hc).1,
      hclass fun hc => (h.classes hc).2.1]

theorem file_of_manifest {m : Manifest} (h : file.manifest targets = .ok m) :
    m.file = file.name := by
  obtain ⟨types, fields, extensions, _, _, _, rfl⟩ := manifest_eq_ok_iff.mp h
  rfl

theorem sameNames_of_stripped_eq (h : file'.stripped = file.stripped) :
    SameNames targets file file' := by
  obtain ⟨hname, hpackage, hdialect, hjava, houter, hmultiple, _⟩ := File.mk.inj h
  have hdeclares : file'.declares = file.declares := by
    funext name
    rw [← file'.declares_stripped, h, file.declares_stripped]
  refine ⟨hpackage, hdialect, fun _ => ⟨?_, ?_, hmultiple⟩⟩
  · rw [classPackage, classPackage, hjava, hpackage]
  · rw [outerClass, outerClass, houter, defaultOuterClass, defaultOuterClass, hname, hdeclares]

/-- No column shows what is stripped from a file. -/
theorem manifest_of_stripped_eq (h : file'.stripped = file.stripped) {m : Manifest}
    (hm : file.manifest targets = .ok m) : file'.manifest targets = .ok m := by
  have hlisted (n : Message) : n.stripped.isListed = n.isListed := by
    rw [n.stripped_eq]
    rfl
  have helements : file'.elements Message.isListed = file.elements Message.isListed := by
    rw [← file'.elements_stripped hlisted, h, file.elements_stripped hlisted]
  have hsame := manifest_congr (sameNames_of_stripped_eq h) helements
    (by rw [← file'.ownedFields_stripped hlisted, h, file.ownedFields_stripped hlisted])
    (by rw [← file'.allExtensions_stripped, h, file.allExtensions_stripped]) hm
  have hname : m.file = file'.name := by
    rw [file_of_manifest hm, (File.mk.inj h).1]
  rw [← hname] at hsame
  exact hsame

end File

namespace FileDescriptor

/-- Without classes the path and the options of a file change nothing in its manifest but the path.
Whatever the targets, its imports and the numbers, oneofs, names in JSON and texts of defaults of
its fields change nothing. -/
theorem manifest_of_stripped :
    (∀ (d : FileDescriptor) (name : Option String) (options : Option FileOptions) (file : File),
      d.build = .ok file → ∃ file', { d with name := name, options := options }.build = .ok file' ∧
        ∀ targets, .classBased ∉ targets → ∃ m, file.manifest targets = .ok m ∧
          file'.manifest targets = .ok { m with file := name.getD "" }) ∧
    ∀ (d d' : FileDescriptor) (file : File), d.build = .ok file → d'.stripped = d.stripped →
      ∃ file', d'.build = .ok file' ∧
        ∀ targets, ∃ m, file.manifest targets = .ok m ∧ file'.manifest targets = .ok m := by
  constructor
  · intro d name options file h
    obtain ⟨rfl, hs⟩ := d.eq_of_build h
    refine ⟨{ d with name := name, options := options }.toFile, ?_, fun targets hc => ?_⟩
    · rw [build_eq]
      exact checked_of_supported hs _
    · obtain ⟨m, hm⟩ := d.exists_manifest hs targets
      have hnames : File.SameNames targets d.toFile
          { d with name := name, options := options }.toFile :=
        ⟨rfl, rfl, fun hmem => absurd hmem hc⟩
      exact ⟨m, hm, File.manifest_congr hnames rfl rfl rfl hm⟩
  · intro d d' file h hsame
    obtain ⟨rfl, hs⟩ := d.eq_of_build h
    have hs' : ∀ f ∈ d'.allFields, f.IsSupported := by
      rw [← d'.supported_stripped_iff, hsame, d.supported_stripped_iff]
      exact hs
    have hfile : d'.toFile.stripped = d.toFile.stripped := by
      rw [← d'.toFile_stripped, hsame, d.toFile_stripped]
    refine ⟨d'.toFile, ?_, fun targets => ?_⟩
    · rw [build_eq]
      exact checked_of_supported hs' _
    · obtain ⟨m, hm⟩ := d.exists_manifest hs targets
      exact ⟨m, hm, File.manifest_of_stripped_eq hfile hm⟩

/-- A file with a default, an extension, and classes of its own. -/
def withDefault : FileDescriptor where
  name := some "a.proto"
  package := some "p"
  dependencies := ["b.proto"]
  messages := [{
    name := some "M"
    fields := [{
      name := some "id"
      number := some 1
      typeCode := some 3
      defaultValue := some "7"
      oneofIndex := some 0
      jsonName := some "id" }] }]
  extensions := [{ name := some "is_set", number := some 100, typeCode := some 8 }]
  options := some { javaPackage := some "q", javaMultipleFiles := some true }

/-- The same file with other imports, other numbers and another default. -/
def withOtherDefault : FileDescriptor :=
  { withDefault with
    dependencies := []
    messages := [{
      name := some "M"
      fields := [{
        name := some "id"
        number := some (-4)
        typeCode := some 3
        defaultValue := some "" }] }]
    extensions := [{ name := some "is_set", typeCode := some 8, jsonName := some "x" }] }

theorem manifest_of_stripped_withDefault :
    withDefault.build = .ok withDefault.toFile ∧ .classBased ∉ [Target.namespaced] ∧
      withOtherDefault.stripped = withDefault.stripped ∧
      (∃ moved m, { withDefault with name := some "c.proto", options := none }.build = .ok moved ∧
        withDefault.toFile.manifest [.namespaced] = .ok m ∧
        moved.manifest [.namespaced] = .ok { m with file := "c.proto" } ∧
        moved.manifest Target.all ≠ withDefault.toFile.manifest Target.all) ∧
      ∃ changed m, withOtherDefault.build = .ok changed ∧
        withDefault.toFile.manifest Target.all = .ok m ∧ changed.manifest Target.all = .ok m := by
  have hb : withDefault.build = .ok withDefault.toFile := rfl
  have hc : Target.classBased ∉ [Target.namespaced] := by decide
  have hs : withOtherDefault.stripped = withDefault.stripped := rfl
  obtain ⟨hpath, hstripped⟩ := manifest_of_stripped
  obtain ⟨moved, hmoved, hcolumns⟩ := hpath withDefault (some "c.proto") none _ hb
  obtain ⟨m, hm, hm'⟩ := hcolumns [.namespaced] hc
  obtain ⟨changed, hchanged, hrows⟩ := hstripped withDefault withOtherDefault _ hb hs
  obtain ⟨full, hfull, hfull'⟩ := hrows Target.all
  have hclasses : moved.manifest Target.all ≠ withDefault.toFile.manifest Target.all := by
    obtain rfl := Except.ok.inj hmoved
    decide
  exact ⟨hb, hc, hs, ⟨moved, m, hmoved, hm, hm', hclasses⟩, changed, full, hchanged, hfull, hfull'⟩

end FileDescriptor

end ProtoNaming
