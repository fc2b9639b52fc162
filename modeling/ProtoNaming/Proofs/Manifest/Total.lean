import ProtoNaming.Manifest.Build
import ProtoNaming.Proofs.Naming.Inside
import ProtoNaming.Proofs.Outcome

namespace ProtoNaming

theorem exists_forall₂ {α β : Type} {R : α → β → Prop} {as : List α}
    (h : ∀ a ∈ as, ∃ b, R a b) : ∃ bs, List.Forall₂ R as bs := by
  induction as with
  | nil => exact ⟨[], .nil⟩
  | cons a as ih =>
    obtain ⟨⟨b, hb⟩, has⟩ := List.forall_mem_cons.mp h
    obtain ⟨bs, hbs⟩ := ih has
    exact ⟨b :: bs, .cons hb hbs⟩

theorem exists_nameIf {name : Except NamingError String} (wanted : Bool)
    (h : ∃ s, name = .ok s) : ∃ s, nameIf wanted name = .ok s := by
  obtain ⟨s, rfl⟩ := h
  cases wanted with
  | true => exact ⟨some s, rfl⟩
  | false => exact ⟨none, rfl⟩

namespace Field

variable {f : Field}

theorem exists_valueKind (h : 1 ≤ f.typeCode ∧ f.typeCode ≤ 18) :
    ∃ kind, f.valueKind = .ok kind := by
  obtain ⟨type, ht⟩ := FieldType.ofCode_of_supported h
  exact ⟨type.valueKind, by rw [valueKind, ht]; rfl⟩

theorem exists_needsPresenceCheck (h : 1 ≤ f.typeCode ∧ f.typeCode ≤ 18) (dialect : Dialect) :
    ∃ needed, f.needsPresenceCheck dialect = .ok needed := by
  obtain ⟨kind, hk⟩ := exists_valueKind h
  unfold needsPresenceCheck
  split
  · exact ⟨false, rfl⟩
  · cases dialect with
    | proto2 => exact ⟨true, rfl⟩
    | proto3 => exact ⟨decide (kind = .message), by rw [hk]; rfl⟩

end Field

section

variable {file : File} {targets : List Target}

theorem TypeRow.build_eq_ok_iff {e : Element} {row : TypeRow} :
    build file targets e = .ok row ↔ ∃ object cls,
      nameIf (targets.contains .namespaced) (file.objectName e.place.decl) = .ok object ∧
      nameIf (targets.contains .classBased) (file.className e.place.decl) = .ok cls ∧
      row = ⟨e.kind, e.place.decl.fullName, object, cls⟩ := by
  constructor
  · intro h
    obtain ⟨object, ho, h⟩ := bind_eq_ok_iff.mp h
    obtain ⟨cls, hc, h⟩ := bind_eq_ok_iff.mp h
    exact ⟨object, cls, ho, hc, (Except.ok.inj h).symm⟩
  · rintro ⟨object, cls, ho, hc, rfl⟩
    rw [build, ho, hc]
    rfl

theorem FieldRow.build_eq_ok_iff {message : Decl} {f : Field} {row : FieldRow} :
    build file targets message f = .ok row ↔ ∃ kind needed,
      f.valueKind = .ok kind ∧ f.needsPresenceCheck file.dialect = .ok needed ∧
      row = {
        message := message.fullName
        name := f.name
        accessor := if targets.contains .namespaced then some f.accessor else none
        valueKind := kind
        unsigned := f.isUnsigned
        wideIntAnnotation := f.hasWideIntAnnotation
        jsType := f.jsType
        presenceCheck := needed
        sanitizedContent := f.sanitizedContent } := by
  constructor
  · intro h
    obtain ⟨kind, hk, h⟩ := bind_eq_ok_iff.mp h
    obtain ⟨needed, hn, h⟩ := bind_eq_ok_iff.mp h
    exact ⟨kind, needed, hk, hn, (Except.ok.inj h).symm⟩
  · rintro ⟨kind, needed, hk, hn, rfl⟩
    rw [build, hk, hn]
    rfl

theorem ExtensionRow.build_eq_ok_iff {f : Field} {row : ExtensionRow} :
    build file targets f = .ok row ↔ ∃ classPath objectPath importName lookupName,
      nameIf (targets.contains .classBased) (file.accessPath f .classBased) = .ok classPath ∧
      nameIf (targets.contains .namespaced) (file.accessPath f .namespaced) = .ok objectPath ∧
      nameIf (targets.contains .namespaced) (file.importName f) = .ok importName ∧
      nameIf (targets.contains .namespaced) (file.lookupName f) = .ok lookupName ∧
      row = {
        name := f.name
        extendee := f.extendee
        scope := f.scope.map (·.decl.fullName)
        accessor := if targets.contains .namespaced then some f.accessor else none
        classPath := classPath
        objectPath := objectPath
        importName := importName
        lookupName := lookupName } := by
  constructor
  · intro h
    obtain ⟨classPath, hc, h⟩ := bind_eq_ok_iff.mp h
    obtain ⟨objectPath, ho, h⟩ := bind_eq_ok_iff.mp h
    obtain ⟨importName, hi, h⟩ := bind_eq_ok_iff.mp h
    obtain ⟨lookupName, hl, h⟩ := bind_eq_ok_iff.mp h
    exact ⟨classPath, objectPath, importName, lookupName, hc, ho, hi, hl,
      (Except.ok.inj h).symm⟩
  · rintro ⟨classPath, objectPath, importName, lookupName, hc, ho, hi, hl, rfl⟩
    simp only [build, hc, ho, hi, hl]
    rfl

theorem File.manifest_eq_ok_iff {m : Manifest} :
    file.manifest targets = .ok m ↔ ∃ types fields extensions,
      List.Forall₂ (fun e row => TypeRow.build file targets e = .ok row)
        (file.elements Message.isListed) types ∧
      List.Forall₂ (fun p row => FieldRow.build file targets p.1 p.2 = .ok row)
        ((file.preorder Message.isListed).flatMap Message.ownedFields) fields ∧
      List.Forall₂ (fun f row => ExtensionRow.build file targets f = .ok row)
        file.allExtensions extensions ∧
      m = {
        file := file.name
        package := file.package
        dialect := file.dialect
        rootName := if targets.contains .namespaced then some file.rootName else none
        classPackage := if targets.contains .classBased then some file.classPackage else none
        outerClass := if targets.contains .classBased then some file.outerClass else none
        types := types
        fields := fields
        extensions := extensions } := by
  constructor
  · intro h
    obtain ⟨types, ht, h⟩ := bind_eq_ok_iff.mp h
    obtain ⟨fields, hf, h⟩ := bind_eq_ok_iff.mp h
    obtain ⟨extensions, he, h⟩ := bind_eq_ok_iff.mp h
    exact ⟨types, fields, extensions, mapM_eq_ok_iff.mp ht, mapM_eq_ok_iff.mp hf,
      mapM_eq_ok_iff.mp he, (Except.ok.inj h).symm⟩
  · rintro ⟨types, fields, extensions, ht, hf, he, rfl⟩
    simp only [manifest, mapM_eq_ok_iff.mpr ht, mapM_eq_ok_iff.mpr hf, mapM_eq_ok_iff.mpr he]
    rfl

end

section

variable {file : File} (targets : List Target)

theorem TypeRow.exists_build {e : Element} (h : Chain file.package e.place.chain) :
    ∃ row, build file targets e = .ok row := by
  obtain ⟨object, ho⟩ := exists_nameIf (targets.contains .namespaced) (File.exists_objectName h)
  obtain ⟨cls, hc⟩ := exists_nameIf (targets.contains .classBased) (File.exists_className h)
  exact ⟨_, build_eq_ok_iff.mpr ⟨object, cls, ho, hc, rfl⟩⟩

theorem FieldRow.exists_build (message : Decl) {f : Field}
    (h : 1 ≤ f.typeCode ∧ f.typeCode ≤ 18) : ∃ row, build file targets message f = .ok row := by
  obtain ⟨kind, hk⟩ := f.exists_valueKind h
  obtain ⟨needed, hn⟩ := f.exists_needsPresenceCheck h file.dialect
  exact ⟨_, build_eq_ok_iff.mpr ⟨kind, needed, hk, hn, rfl⟩⟩

theorem ExtensionRow.exists_build {f : Field} (he : f.isExtension = true)
    (hs : ∀ scope ∈ f.scope, Chain file.package scope.chain) :
    ∃ row, build file targets f = .ok row := by
  obtain ⟨classPath, hc⟩ := exists_nameIf (targets.contains .classBased)
    (File.exists_accessPath he hs .classBased)
  obtain ⟨objectPath, ho⟩ := exists_nameIf (targets.contains .namespaced)
    (File.exists_accessPath he hs .namespaced)
  obtain ⟨importName, hi⟩ := exists_nameIf (targets.contains .namespaced)
    (File.exists_importName he hs)
  obtain ⟨lookupName, hl⟩ := exists_nameIf (targets.contains .namespaced)
    (File.exists_lookupName he hs)
  exact ⟨_, build_eq_ok_iff.mpr
    ⟨classPath, objectPath, importName, lookupName, hc, ho, hi, hl, rfl⟩⟩

end

/-- Once the types of a descriptor's fields are supported, nothing more can go wrong with it. -/
theorem FileDescriptor.exists_manifest (d : FileDescriptor) (h : ∀ f ∈ d.allFields, f.IsSupported)
    (targets : List Target) : ∃ m, d.toFile.manifest targets = .ok m := by
  have htypes : ∀ e ∈ d.toFile.elements Message.isListed,
      ∃ row, TypeRow.build d.toFile targets e = .ok row := by
    intro e he
    have hc := d.chain_of_mem_elements he
    exact TypeRow.exists_build targets hc
  have hfields : ∀ p ∈ (d.toFile.preorder Message.isListed).flatMap Message.ownedFields,
      ∃ row, FieldRow.build d.toFile targets p.1 p.2 = .ok row := by
    intro p hp
    obtain ⟨m, hm, hp⟩ := List.mem_flatMap.mp hp
    obtain ⟨f, hf, rfl⟩ := List.mem_map.mp hp
    obtain ⟨n, outer, index, _, rfl, hn⟩ := d.exists_of_mem_preorder hm
    rw [MessageDescriptor.fields_toMessage] at hf
    obtain ⟨g, hg, rfl⟩ := List.mem_map.mp hf
    exact FieldRow.exists_build targets _ (h g (hn g (List.mem_append_left _ hg)))
  have hextensions : ∀ f ∈ d.toFile.allExtensions,
      ∃ row, ExtensionRow.build d.toFile targets f = .ok row := by
    intro f hf
    obtain ⟨he, hs⟩ := d.chain_of_mem_allExtensions hf
    exact ExtensionRow.exists_build targets he hs
  obtain ⟨types, ht⟩ := exists_forall₂ htypes
  obtain ⟨fields, hf⟩ := exists_forall₂ hfields
  obtain ⟨extensions, he⟩ := exists_forall₂ hextensions
  exact ⟨_, File.manifest_eq_ok_iff.mpr ⟨types, fields, extensions, ht, hf, he, rfl⟩⟩

end ProtoNaming
