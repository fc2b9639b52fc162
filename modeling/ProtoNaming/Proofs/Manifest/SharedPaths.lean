import Mathlib.Data.List.Nodup
import ProtoNaming.Proofs.Identifier.LowerCamel
import ProtoNaming.Proofs.Manifest.ExtensionNames

namespace ProtoNaming

theorem append_dot_inj {p q a b : String} (ha : '.' ∉ a.toList) (hb : '.' ∉ b.toList) :
    p ++ "." ++ a = q ++ "." ++ b ↔ p = q ∧ a = b := by
  have hlast (r : String) {c : String} (hc : '.' ∉ c.toList) :
      Text.afterLast '.' (r ++ "." ++ c).toList = c.toList := by
    rw [String.toList_append, String.toList_append, List.append_assoc]
    exact Text.afterLast_append hc r.toList
  constructor
  · intro h
    have hab : a = b := by
      rw [← String.toList_inj, ← hlast p ha, h, hlast q hb]
    rw [hab, String.append_left_inj, String.append_left_inj] at h
    exact ⟨h, hab⟩
  · rintro ⟨rfl, rfl⟩
    rfl

def Field.fullName (package : String) (f : Field) : String :=
  nameInside ((f.scope.map (·.decl.fullName)).getD package) f.name

/-- The full names of the messages and enums of a file, then those of its extensions. -/
def File.declaredNames (file : File) : List String :=
  (file.elements fun _ => true).map (·.place.decl.fullName) ++
    file.allExtensions.map (Field.fullName file.package)

namespace ExtensionScope

def holderName (file : File) : ExtensionScope → String
  | .file => file.rootName
  | .message top _ => "proto." ++ top.place.decl.fullName

/-- Messages that are or are inside one top-level message. -/
def SharesTop : ExtensionScope → ExtensionScope → Prop
  | .message top _, .message top' _ => top = top'
  | _, _ => False

end ExtensionScope

section

variable {file : File} {targets : List Target} {f : Field} {row : ExtensionRow}

theorem ExtensionRow.objectPath_of_build (ho : .namespaced ∈ targets)
    (h : build file targets f = .ok row) :
    ∃ s, file.accessPath f .namespaced = .ok s ∧ row.objectPath = some s := by
  obtain ⟨classPath, objectPath, importName, lookupName, _, hobject, _, _, rfl⟩ :=
    build_eq_ok_iff.mp h
  exact (nameIf_eq_ok_iff (List.contains_iff_mem.mpr ho)).mp hobject

theorem Field.accessor_of_optional (h : f.label = 1) :
    f.accessor = Identifier.lowerCamel f.name := by
  apply accessor_of_not_repeated
  rw [isRepeated, h]
  rfl

end

theorem File.map_element_sublist (file : File) :
    (file.messages.map Message.element).Sublist (file.elements fun _ => true) := by
  have hall : ∀ ms : List Message, (ms.map Message.element).Sublist
      (ms.flatMap (Message.elements fun _ => true)) := by
    intro ms
    induction ms with
    | nil => exact List.Sublist.refl []
    | cons m ms ih =>
      have hhead : [m.element].Sublist (m.elements fun _ => true) := by
        rw [Message.elements_eq, if_pos rfl]
        exact List.singleton_sublist.mpr List.mem_cons_self
      exact hhead.append ih
  rw [elements, Message.elementsAll_eq_flatMap]
  exact (hall file.messages).trans (List.sublist_append_left _ _)

namespace FileDescriptor

variable {d : FileDescriptor} {targets : List Target}

theorem eq_of_fullName_eq (hnames : d.toFile.declaredNames.Nodup) {top top' : Message}
    (ht : top ∈ d.toFile.messages) (ht' : top' ∈ d.toFile.messages)
    (h : top.place.decl.fullName = top'.place.decl.fullName) : top = top' := by
  have helements := (List.nodup_append.mp hnames).1
  have hsub := d.toFile.map_element_sublist.map (·.place.decl.fullName)
  have hmessages := helements.sublist hsub
  rw [List.map_map] at hmessages
  exact List.inj_on_of_nodup_map hmessages ht ht' h

theorem rootName_ne_of_mem_messages {top : Message} (ht : top ∈ d.toFile.messages) :
    d.toFile.rootName ≠ "proto." ++ top.place.decl.fullName := by
  obtain ⟨relative, hfull⟩ := (d.chain_of_mem_messages ht).fullName_eq
  obtain ⟨rest, hrest⟩ := File.exists_proto_packagePrefix relative
  rw [hfull, hrest]
  exact ne_append_dot _ _

theorem holderName_eq_iff (hnames : d.toFile.declaredNames.Nodup) {x y : ExtensionScope × Field}
    (hx : x ∈ d.toFile.scopedExtensions) (hy : y ∈ d.toFile.scopedExtensions) :
    x.1.holderName d.toFile = y.1.holderName d.toFile ↔
      x.1.SharesTop y.1 ∨ x.2.scope = none ∧ y.2.scope = none := by
  obtain ⟨sx, f⟩ := x
  obtain ⟨sy, g⟩ := y
  have hf := File.declares_of_mem_scopedExtensions hx
  have hg := File.declares_of_mem_scopedExtensions hy
  cases sx with
  | file =>
    obtain ⟨_, hfx⟩ := d.scope_of_mem_extensions hf
    cases sy with
    | file => exact iff_of_true rfl (.inr ⟨hfx, (d.scope_of_mem_extensions hg).2⟩)
    | message top m =>
      obtain ⟨ht, hm, hg⟩ := hg
      obtain ⟨_, hscope, _⟩ := d.scope_of_mem_message ht hm hg
      refine iff_of_false (rootName_ne_of_mem_messages ht) ?_
      rintro (h | ⟨_, h⟩)
      · exact h
      · cases hscope.symm.trans h
  | message top m =>
    obtain ⟨ht, hm, hf⟩ := hf
    obtain ⟨_, hscope, _⟩ := d.scope_of_mem_message ht hm hf
    cases sy with
    | file =>
      refine iff_of_false (rootName_ne_of_mem_messages ht).symm ?_
      rintro (h | ⟨h, _⟩)
      · exact h
      · cases hscope.symm.trans h
    | message top' m' =>
      obtain ⟨ht', _, _⟩ := hg
      constructor
      · intro h
        exact .inl (eq_of_fullName_eq hnames ht ht' ((String.append_right_inj _).mp h))
      · rintro (h | ⟨h, _⟩)
        · have htop : top = top' := h
          rw [htop]
          rfl
        · cases hscope.symm.trans h

theorem objectPath_of_mem_scopedExtensions (ho : .namespaced ∈ targets)
    {x : ExtensionScope × Field} (hx : x ∈ d.toFile.scopedExtensions) {row : ExtensionRow}
    (h : ExtensionRow.build d.toFile targets x.2 = .ok row) :
    row.objectPath = some (x.1.holderName d.toFile ++ "." ++ x.2.accessor) := by
  obtain ⟨s, hs, hpath⟩ := ExtensionRow.objectPath_of_build ho h
  obtain ⟨scope, f⟩ := x
  have hdeclares := File.declares_of_mem_scopedExtensions hx
  cases scope with
  | file =>
    obtain ⟨he, hscope⟩ := d.scope_of_mem_extensions hdeclares
    rw [File.accessPath_namespaced he, Field.holder, hscope] at hs
    cases hs
    exact hpath
  | message top m =>
    obtain ⟨ht, hm, hf⟩ := hdeclares
    obtain ⟨he, hscope, houtermost⟩ := d.scope_of_mem_message ht hm hf
    obtain ⟨_, _, _, hobject, _⟩ := File.names_of_chain (d.chain_of_mem_messages ht)
    rw [File.accessPath_namespaced he, Field.holder, hscope, Option.map_some, houtermost,
      File.scopeObject, hobject] at hs
    cases hs
    exact hpath

theorem path_eq_iff (hnames : d.toFile.declaredNames.Nodup)
    (hext : ∀ f ∈ d.toFile.allExtensions, f.label = 1 ∧ Identifier.IsWords f.name)
    {x y : ExtensionScope × Field} (hx : x ∈ d.toFile.scopedExtensions)
    (hy : y ∈ d.toFile.scopedExtensions)
    (hne : x.2.fullName d.toFile.package ≠ y.2.fullName d.toFile.package) :
    x.1.holderName d.toFile ++ "." ++ x.2.accessor =
        y.1.holderName d.toFile ++ "." ++ y.2.accessor ↔
      x.2.name = y.2.name ∧ x.1.SharesTop y.1 := by
  have hstyle {z : ExtensionScope × Field} (hz : z ∈ d.toFile.scopedExtensions) :
      z.2.accessor = Identifier.lowerCamel z.2.name ∧ Identifier.IsSnakeCase z.2.name := by
    have hmem : z.2 ∈ d.toFile.allExtensions := by
      rw [← File.map_snd_scopedExtensions]
      exact List.mem_map_of_mem hz
    obtain ⟨hlabel, hwords⟩ := hext z.2 hmem
    exact ⟨Field.accessor_of_optional hlabel, hwords.isSnakeCase⟩
  obtain ⟨hax, hsx⟩ := hstyle hx
  obtain ⟨hay, hsy⟩ := hstyle hy
  rw [hax, hay, append_dot_inj hsx.dot_not_mem_lowerCamel hsy.dot_not_mem_lowerCamel,
    hsx.lowerCamel_inj hsy, holderName_eq_iff hnames hx hy]
  constructor
  · rintro ⟨htop | ⟨hfx, hfy⟩, hname⟩
    · exact ⟨hname, htop⟩
    · -- Two of the file's own would have one full name.
      refine absurd ?_ hne
      rw [Field.fullName, Field.fullName, hfx, hfy, hname]
  · rintro ⟨hname, htop⟩
    exact ⟨.inl htop, hname⟩

/-- Where declarations have names of their own and extensions have them in lower-case words, two
extensions that are not repeated share a path if they have one name inside one top-level message,
and only then. -/
theorem objectPath_eq_iff_of_build {file : File} (h : d.build = .ok file)
    (hnames : file.declaredNames.Nodup)
    (hext : ∀ f ∈ file.allExtensions, f.label = 1 ∧ Identifier.IsWords f.name)
    (ho : .namespaced ∈ targets) :
    ∃ m, file.manifest targets = .ok m ∧
      List.Forall₂ (fun x row => row.name = x.2.name ∧
          row.scope = x.2.scope.map (·.decl.fullName) ∧ row.objectPath.isSome = true)
        file.scopedExtensions m.extensions ∧
      (file.scopedExtensions.zip m.extensions).Pairwise fun x y =>
        x.2.objectPath = y.2.objectPath ↔
          x.1.2.name = y.1.2.name ∧ x.1.1.SharesTop y.1.1 := by
  obtain ⟨rfl, hs⟩ := d.eq_of_build h
  obtain ⟨m, hm⟩ := d.exists_manifest hs targets
  obtain ⟨_, _, hrows⟩ := File.rows_of_manifest hm
  rw [← File.map_snd_scopedExtensions, List.forall₂_map_left_iff] at hrows
  obtain ⟨hlength, hbuild⟩ := List.forall₂_iff_zip.mp hrows
  have hpath : ∀ z ∈ d.toFile.scopedExtensions.zip m.extensions,
      z.2.objectPath = some (z.1.1.holderName d.toFile ++ "." ++ z.1.2.accessor) := by
    intro z hz
    exact d.objectPath_of_mem_scopedExtensions ho (List.of_mem_zip hz).1 (hbuild hz)
  refine ⟨m, hm, List.forall₂_iff_zip.mpr ⟨hlength, fun {x row} hz => ?_⟩, ?_⟩
  · obtain ⟨hscope, hname, _⟩ := ExtensionRow.of_build (hbuild hz)
    refine ⟨hname, hscope, ?_⟩
    rw [hpath _ hz]
    rfl
  · have hdistinct : (d.toFile.scopedExtensions.zip m.extensions).Pairwise fun x y =>
        x.1.2.fullName d.toFile.package ≠ y.1.2.fullName d.toFile.package := by
      have hfull := (List.nodup_append.mp hnames).2.1
      rw [← File.map_snd_scopedExtensions, List.map_map,
        ← List.map_fst_zip (Nat.le_of_eq hlength), List.map_map] at hfull
      exact List.pairwise_map.mp hfull
    refine hdistinct.imp_of_mem fun {x y} hx hy hne => ?_
    rw [hpath x hx, hpath y hy, Option.some.injEq]
    exact path_eq_iff hnames hext (List.of_mem_zip hx).1 (List.of_mem_zip hy).1 hne

def extensionNumbered (number : Int) : FieldDescriptor where
  name := some "ext"
  number := some number
  label := some 1
  typeCode := some 9
  extendee := some ".p.A"

def withSiblings : FileDescriptor where
  name := some "a.proto"
  package := some "p"
  messages := [{
    name := some "A"
    nested := [
      { name := some "B", extensions := [extensionNumbered 100] },
      { name := some "C", extensions := [extensionNumbered 101] }] }]

/-- Distinct names do not make paths distinct. -/
theorem shared_objectPath_withSiblings :
    withSiblings.build = .ok withSiblings.toFile ∧
      withSiblings.toFile.declaredNames = ["p.A", "p.A.B", "p.A.C", "p.A.B.ext", "p.A.C.ext"] ∧
      withSiblings.toFile.declaredNames.Nodup ∧
      (∀ m ∈ withSiblings.toFile.preorder fun _ => true, m.place.decl.name ≠ "") ∧
      (∀ f ∈ withSiblings.toFile.allExtensions, f.label = 1 ∧ Identifier.IsWords f.name) ∧
      ∃ m, withSiblings.toFile.manifest Target.all = .ok m ∧
        m.extensions.map (·.scope) = [some "p.A.B", some "p.A.C"] ∧
        m.extensions.map (·.objectPath) = [some "proto.p.A.ext", some "proto.p.A.ext"] :=
  ⟨rfl, by decide, by decide, by decide, by decide, _, rfl, by decide, by decide⟩

def withNamesakes : FileDescriptor where
  name := some "a.proto"
  package := some "p"
  messages := withSiblings.messages ++
    [{ name := some "D", extensions := [extensionNumbered 102] }]
  extensions := [extensionNumbered 103]

theorem objectPath_eq_iff_of_build_withNamesakes :
    withNamesakes.build = .ok withNamesakes.toFile ∧ withNamesakes.toFile.declaredNames.Nodup ∧
      (∀ f ∈ withNamesakes.toFile.allExtensions, f.label = 1 ∧ Identifier.IsWords f.name) ∧
      .namespaced ∈ Target.all ∧
      ∃ m, withNamesakes.toFile.manifest Target.all = .ok m ∧ ∃ _ : m.extensions.length = 4,
        m.extensions.map (·.scope) = [none, some "p.A.B", some "p.A.C", some "p.D"] ∧
        m.extensions[0].objectPath ≠ m.extensions[1].objectPath ∧
        m.extensions[1].objectPath = m.extensions[2].objectPath ∧
        m.extensions[2].objectPath ≠ m.extensions[3].objectPath := by
  have hb : withNamesakes.build = .ok withNamesakes.toFile := rfl
  have hnames : withNamesakes.toFile.declaredNames.Nodup := by decide
  have hext : ∀ f ∈ withNamesakes.toFile.allExtensions,
      f.label = 1 ∧ Identifier.IsWords f.name := by decide
  have ho : Target.namespaced ∈ Target.all := by decide
  obtain ⟨m, hm, _, hpaths⟩ := withNamesakes.objectPath_eq_iff_of_build hb hnames hext ho
  obtain rfl : m = _ := Except.ok.inj (hm.symm.trans rfl)
  have hpair := List.pairwise_iff_getElem.mp hpaths
  refine ⟨hb, hnames, hext, ho, _, hm, rfl, by decide, fun h => ?_, ?_, fun h => ?_⟩
  · exact ((hpair 0 1 (by decide) (by decide) (by decide)).mp h).2
  · exact (hpair 1 2 (by decide) (by decide) (by decide)).mpr ⟨rfl, rfl⟩
  · have htop := ((hpair 2 3 (by decide) (by decide) (by decide)).mp h).2
    exact absurd (congrArg (·.place.decl.name) htop) (by decide)

end FileDescriptor

end ProtoNaming
