import ProtoNaming.Proofs.Manifest.Rows
import ProtoNaming.Proofs.Naming.Qualified

namespace ProtoNaming

theorem Chain.fullName_ne_empty {package : String} {c : Decl} {outer : List Decl}
    (h : Chain package (c :: outer)) (hn : c.name ≠ "") : c.fullName ≠ "" := by
  rw [h.inside, nameInside]
  split
  · exact hn
  · intro he
    exact hn (String.append_eq_empty_iff.mp he).2

theorem Chain.exists_fullName_eq_append {package : String} {c o : Decl} {outer : List Decl}
    (h : Chain package (c :: outer)) (hn : ∀ e ∈ outer, e.name ≠ "") (ho : o ∈ outer) :
    ∃ rest, c.fullName = o.fullName ++ "." ++ rest := by
  induction outer generalizing c with
  | nil => cases ho
  | cons e outer ih =>
    have he := h.tail.fullName_ne_empty (hn e List.mem_cons_self)
    have hself := h.fullName_inside he
    rcases List.mem_cons.mp ho with rfl | ho
    · exact ⟨c.name, hself⟩
    · obtain ⟨rest, hr⟩ := ih h.tail (fun e' he' => hn e' (List.mem_cons_of_mem e he')) ho
      refine ⟨rest ++ "." ++ c.name, ?_⟩
      rw [hself, hr]
      simp only [String.append_assoc]

/-- What an extension is declared in: the file itself, or a message that is or is inside a
top-level one. -/
inductive ExtensionScope where
  | file
  | message (top m : Message)

def ExtensionScope.IsOutermost : ExtensionScope → Prop
  | file => True
  | message top m => m = top

namespace File

variable {file : File} {f : Field}

def scopedExtensions (file : File) : List (ExtensionScope × Field) :=
  file.extensions.map (fun f => (.file, f)) ++
    file.messages.flatMap fun top => (top.preorder fun _ => true).flatMap fun m =>
      m.extensions.map fun f => (.message top m, f)

/-- The file declares an extension itself, or a message in one of its top-level ones does. -/
def Declares (file : File) (f : Field) : ExtensionScope → Prop
  | .file => f ∈ file.extensions
  | .message top m =>
    top ∈ file.messages ∧ m ∈ top.preorder (fun _ => true) ∧ f ∈ m.extensions

theorem declares_of_mem_scopedExtensions {x : ExtensionScope × Field}
    (hx : x ∈ file.scopedExtensions) : file.Declares x.2 x.1 := by
  rcases List.mem_append.mp hx with hx | hx
  · obtain ⟨f, hf, rfl⟩ := List.mem_map.mp hx
    exact hf
  · obtain ⟨top, ht, hx⟩ := List.mem_flatMap.mp hx
    obtain ⟨m, hm, hx⟩ := List.mem_flatMap.mp hx
    obtain ⟨f, hf, rfl⟩ := List.mem_map.mp hx
    exact ⟨ht, hm, hf⟩

theorem map_snd_scopedExtensions (file : File) :
    file.scopedExtensions.map (·.2) = file.allExtensions := by
  have hself (scope : Message → ExtensionScope) (m : Message) :
      (m.extensions.map fun f => (scope m, f)).map (·.2) = m.extensions := by
    rw [List.map_map]
    exact List.map_id _
  have hfile : (file.extensions.map fun f => (ExtensionScope.file, f)).map (·.2) =
      file.extensions := by
    rw [List.map_map]
    exact List.map_id _
  rw [scopedExtensions, List.map_append, hfile, allExtensions, File.preorder,
    Message.preorderAll_eq_flatMap, List.flatMap_assoc, List.map_flatMap]
  congr 1
  refine List.flatMap_congr fun top _ => ?_
  rw [List.map_flatMap]
  exact List.flatMap_congr fun m _ => hself (.message top) m

end File

theorem nameIf_eq_ok_iff {wanted : Bool} (hw : wanted = true) {name : Except NamingError String}
    {s : Option String} : nameIf wanted name = .ok s ↔ ∃ t, name = .ok t ∧ s = some t := by
  rw [nameIf, if_pos hw]
  cases name with
  | error e => simp [Except.map]
  | ok t => simp [Except.map, eq_comm]

namespace ExtensionRow

variable {file : File} {targets : List Target} {f : Field} {row : ExtensionRow}

theorem exists_names (hc : .classBased ∈ targets) (ho : .namespaced ∈ targets)
    (h : build file targets f = .ok row) :
    row.accessor = some f.accessor ∧
    (∃ s, file.accessPath f .classBased = .ok s ∧ row.classPath = some s) ∧
    (∃ s, file.accessPath f .namespaced = .ok s ∧ row.objectPath = some s) ∧
    (∃ s, file.importName f = .ok s ∧ row.importName = some s) ∧
    ∃ s, file.lookupName f = .ok s ∧ row.lookupName = some s := by
  have hcb : targets.contains .classBased = true := List.contains_iff_mem.mpr hc
  have hob : targets.contains .namespaced = true := List.contains_iff_mem.mpr ho
  obtain ⟨classPath, objectPath, importName, lookupName, hclass, hobject, himport, hlookup, rfl⟩ :=
    build_eq_ok_iff.mp h
  exact ⟨if_pos hob, (nameIf_eq_ok_iff hcb).mp hclass, (nameIf_eq_ok_iff hob).mp hobject,
    (nameIf_eq_ok_iff hob).mp himport, (nameIf_eq_ok_iff hob).mp hlookup⟩

/-- How the names of an extension are made from those of its scope. -/
def Named (file : File) (f : Field) (row : ExtensionRow) : ExtensionScope → Prop
  | .file =>
    row.importName = some (file.rootName ++ "." ++ f.accessor) ∧
    row.objectPath = row.importName ∧ row.lookupName = row.importName
  | .message top m => ∃ outermost object cls,
    file.objectName top.place.decl = .ok outermost ∧
    file.objectName m.place.decl = .ok object ∧ file.className m.place.decl = .ok cls ∧
    row.classPath = some (cls ++ "." ++ f.memberName ++ ".getDescriptor()") ∧
    row.importName = some outermost ∧
    row.objectPath = some (outermost ++ "." ++ f.accessor) ∧
    row.lookupName = some (object ++ "." ++ f.accessor) ∧
    (m = top → object = outermost) ∧ (m ≠ top → ∃ rest, object = outermost ++ "." ++ rest)

theorem named_of_file (hc : .classBased ∈ targets) (ho : .namespaced ∈ targets)
    (he : f.isExtension = true) (hs : f.scope = none) (h : build file targets f = .ok row) :
    row.Named file f .file := by
  obtain ⟨_, _, ⟨path, hp, hpath⟩, ⟨name, hn, himport⟩, ⟨key, hk, hlookup⟩⟩ :=
    exists_names hc ho h
  have hholder : f.holder .namespaced = none := by rw [Field.holder, hs]; rfl
  rw [File.accessPath_namespaced he, hholder] at hp
  rw [File.importName_eq he, hholder] at hn
  rw [File.lookupName_eq he, hs] at hk
  cases hp
  cases hn
  cases hk
  exact ⟨himport, hpath.trans himport.symm, hlookup.trans himport.symm⟩

theorem named_of_message (hc : .classBased ∈ targets) (ho : .namespaced ∈ targets)
    (he : f.isExtension = true) {top m : Message} (hs : f.scope = some m.place)
    (hm : m.place.outermost = top.place ∧ (m = top ∨ top.place.decl ∈ m.place.outer))
    (hchain : Chain file.package m.place.chain) (hn : ∀ o ∈ m.place.outer, o.name ≠ "")
    (h : build file targets f = .ok row) : row.Named file f (.message top m) := by
  obtain ⟨_, ⟨classPath, hcp, hclass⟩, ⟨path, hp, hpath⟩, ⟨name, hi, himport⟩,
    ⟨key, hk, hlookup⟩⟩ := exists_names hc ho h
  have hholder : f.holder .namespaced = some top.place := by
    rw [Field.holder, hs, Option.map_some, hm.1]
  have htop := hchain.outermost
  rw [hm.1] at htop
  obtain ⟨_, _, _, hobject, hcls⟩ := File.names_of_chain hchain
  obtain ⟨_, _, _, houtermost, _⟩ := File.names_of_chain htop
  rw [File.accessPath_classBased he, hs, File.scopeClass, hcls] at hcp
  rw [File.accessPath_namespaced he, hholder, File.scopeObject, houtermost] at hp
  rw [File.importName_eq he, hholder] at hi
  rw [File.lookupName_eq he, hs, File.scopeObject, hobject] at hk
  cases hcp
  cases hp
  cases houtermost.symm.trans hi
  cases hk
  refine ⟨_, _, _, houtermost, hobject, hcls, hclass, himport, hpath, hlookup, fun heq => ?_,
    fun hne => ?_⟩
  · rw [heq]
  · obtain ⟨rest, hr⟩ := hchain.exists_fullName_eq_append hn (hm.2.resolve_left hne)
    refine ⟨rest, ?_⟩
    rw [hr]
    simp only [String.append_assoc]

theorem Named.objectPath_eq_lookupName_iff {scope : ExtensionScope} (h : row.Named file f scope) :
    row.objectPath = row.lookupName ↔ scope.IsOutermost := by
  cases scope with
  | file =>
    obtain ⟨_, hpath, hlookup⟩ := h
    exact ⟨fun _ => trivial, fun _ => hpath.trans hlookup.symm⟩
  | message top m =>
    obtain ⟨outermost, object, _, _, _, _, _, _, hpath, hlookup, hself, hinside⟩ := h
    rw [hpath, hlookup, Option.some.injEq, String.append_left_inj, String.append_left_inj]
    constructor
    · intro heq
      by_contra hne
      obtain ⟨rest, hr⟩ := hinside hne
      exact ne_append_dot _ _ (heq.trans hr)
    · intro heq
      exact (hself heq).symm

end ExtensionRow

theorem File.rootName_of_manifest {file : File} {targets : List Target} {m : Manifest}
    (ho : .namespaced ∈ targets) (h : file.manifest targets = .ok m) :
    m.rootName = some file.rootName := by
  obtain ⟨types, fields, extensions, _, _, _, rfl⟩ := manifest_eq_ok_iff.mp h
  exact if_pos (List.contains_iff_mem.mpr ho)

theorem Field.holder_eq_iff {f : Field} {top m : Message} (hs : f.scope = some m.place)
    (hm : m.place.outermost = top.place ∧ (m = top ∨ top.place.decl ∈ m.place.outer))
    (htop : top.place.outer = []) :
    f.holder .classBased = f.holder .namespaced ↔ m = top := by
  rw [holder, holder, hs, Option.map_some, hm.1, Option.some.injEq]
  constructor
  · intro hp
    refine hm.2.resolve_right fun hinside => ?_
    rw [hp, htop] at hinside
    cases hinside
  · intro hp
    rw [hp]

namespace FileDescriptor

variable (d : FileDescriptor)

theorem named_of_mem_scopedExtensions
    (hn : ∀ m ∈ d.toFile.preorder fun _ => true, m.place.decl.name ≠ "")
    {targets : List Target} (hc : .classBased ∈ targets) (ho : .namespaced ∈ targets)
    {x : ExtensionScope × Field} (hx : x ∈ d.toFile.scopedExtensions) {row : ExtensionRow}
    (h : ExtensionRow.build d.toFile targets x.2 = .ok row) :
    row.Named d.toFile x.2 x.1 ∧
      (x.2.holder .classBased = x.2.holder .namespaced ↔ x.1.IsOutermost) := by
  obtain ⟨scope, f⟩ := x
  have hdeclares := File.declares_of_mem_scopedExtensions hx
  cases scope with
  | file =>
    obtain ⟨g, _, rfl⟩ := List.mem_map.mp hdeclares
    exact ⟨ExtensionRow.named_of_file hc ho rfl rfl h, iff_of_true rfl trivial⟩
  | message top m =>
    obtain ⟨ht, hm, hf⟩ := hdeclares
    have hpreorder := d.mem_preorder_of_mem_messages ht hm
    have regular := d.regular_of_mem_preorder hpreorder
    have houtermost := d.outermost_of_mem_preorder ht hm
    have hnames : ∀ o ∈ m.place.outer, o.name ≠ "" :=
      d.forall_outer_of_mem_elements hn (d.element_mem_elements hpreorder)
    obtain ⟨he, hs⟩ := regular.extensions f hf
    exact ⟨ExtensionRow.named_of_message hc ho he hs houtermost regular.chain hnames h,
      Field.holder_eq_iff hs houtermost (d.outer_of_mem_messages ht)⟩

/-- With both runtimes and no empty message name, each extension has its names from the message
that declares it and the top-level one around that; the runtimes agree on where it is held for
outermost scopes and no others. -/
theorem extension_names_of_build {file : File} (h : d.build = .ok file)
    (hn : ∀ m ∈ file.preorder fun _ => true, m.place.decl.name ≠ "")
    {targets : List Target} (hc : .classBased ∈ targets) (ho : .namespaced ∈ targets) :
    ∃ m, file.manifest targets = .ok m ∧ m.rootName = some file.rootName ∧
      List.Forall₂ (fun x row => row.accessor = some x.2.accessor ∧ row.Named file x.2 x.1 ∧
          (row.objectPath = row.lookupName ↔ x.1.IsOutermost) ∧
          (x.2.holder .classBased = x.2.holder .namespaced ↔ x.1.IsOutermost))
        file.scopedExtensions m.extensions := by
  obtain ⟨rfl, hs⟩ := d.eq_of_build h
  obtain ⟨m, hm⟩ := d.exists_manifest hs targets
  obtain ⟨_, _, hrows⟩ := File.rows_of_manifest hm
  refine ⟨m, hm, File.rootName_of_manifest ho hm, ?_⟩
  rw [← File.map_snd_scopedExtensions, List.forall₂_map_left_iff] at hrows
  refine List.forall₂_iff_get.mpr ⟨hrows.length_eq, fun i hi hi' => ?_⟩
  have hbuild := hrows.get hi hi'
  have hx := List.get_mem d.toFile.scopedExtensions ⟨i, hi⟩
  obtain ⟨hnamed, hholder⟩ := d.named_of_mem_scopedExtensions hn hc ho hx hbuild
  exact ⟨(ExtensionRow.exists_names hc ho hbuild).1, hnamed,
    hnamed.objectPath_eq_lookupName_iff, hholder⟩

/-- A file with an extension of its own and one in each of two messages, one inside the other. -/
def withExtensions : FileDescriptor where
  name := some "a.proto"
  package := some "p"
  messages := [{
    name := some "A"
    nested := [{
      name := some "B"
      extensions := [{ name := some "inner_ext", typeCode := some 9, label := some 3 }] }]
    extensions := [{ name := some "outer_ext", typeCode := some 9 }] }]
  extensions := [{ name := some "file_ext", typeCode := some 9 }]

theorem extension_names_of_build_withExtensions :
    withExtensions.build = .ok withExtensions.toFile ∧
      (∀ m ∈ withExtensions.toFile.preorder fun _ => true, m.place.decl.name ≠ "") ∧
      .classBased ∈ Target.all ∧ .namespaced ∈ Target.all ∧
      ∃ m, withExtensions.toFile.manifest Target.all = .ok m ∧ ∃ row ∈ m.extensions,
        row.classPath = some "p.AOuterClass.A.B.innerExt.getDescriptor()" ∧
        row.importName = some "proto.p.A" ∧ row.objectPath = some "proto.p.A.innerExtList" ∧
        row.lookupName = some "proto.p.A.B.innerExtList" ∧ row.objectPath ≠ row.lookupName := by
  have hb : withExtensions.build = .ok withExtensions.toFile := rfl
  have hn : ∀ m ∈ withExtensions.toFile.preorder fun _ => true, m.place.decl.name ≠ "" := by
    decide
  have hc : Target.classBased ∈ Target.all := by decide
  have ho : Target.namespaced ∈ Target.all := by decide
  obtain ⟨m, hm, _, hrows⟩ := withExtensions.extension_names_of_build hb hn hc ho
  have hlength : m.extensions.length = 3 := hrows.length_eq.symm
  obtain ⟨_, ⟨outermost, object, cls, htop, hself, hcls, hclass, himport, hpath, hlookup, _⟩,
    hiff, _⟩ := hrows.get (show 2 < withExtensions.toFile.scopedExtensions.length by decide)
      (show 2 < m.extensions.length by omega)
  have htop' : Except.ok "proto.p.A" = Except.ok outermost := htop
  have hself' : Except.ok "proto.p.A.B" = Except.ok object := hself
  have hcls' : Except.ok "p.AOuterClass.A.B" = Except.ok cls := hcls
  cases htop'
  cases hself'
  cases hcls'
  refine ⟨hb, hn, hc, ho, m, hm, _, List.get_mem m.extensions ⟨2, by omega⟩, hclass, himport, hpath,
    hlookup, fun h => ?_⟩
  rw [hpath, hlookup] at h
  exact absurd h (by decide)

end FileDescriptor

end ProtoNaming
