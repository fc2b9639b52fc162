import ProtoNaming.Proofs.Naming.Inside
import ProtoNaming.Proofs.Schema.Nesting

namespace ProtoNaming

def TypePlace.names (t : TypePlace) : List String :=
  t.outer.reverse.map (fun d => d.name.getD "") ++ [t.type.name]

theorem StandFor.map_name {package : String} {outer : List MessageDescriptor} {decls : List Decl}
    (h : StandFor package outer decls) :
    decls.map (·.name) = outer.map fun d => d.name.getD "" := by
  induction h with
  | nil => rfl
  | cons d index _ ih =>
    rw [List.map_cons, List.map_cons, ih]
    rfl

theorem TypePlace.IsPlace.names_eq {package : String} {t : TypePlace} {p : Place}
    (h : t.IsPlace package p) : t.names = p.chain.reverse.map (·.name) := by
  obtain ⟨decls, index, hs, rfl⟩ := h
  rw [Place.chain, List.reverse_cons, List.map_append, List.map_singleton, List.map_reverse,
    hs.map_name, names, List.map_reverse]
  rfl

theorem intercalate_ne_empty {sep : String} {names : List String} (hn : names ≠ [])
    (h : ∀ s ∈ names, s ≠ "") : sep.intercalate names ≠ "" := by
  cases names with
  | nil => exact absurd rfl hn
  | cons s names =>
    have hs := h s List.mem_cons_self
    cases names with
    | nil => rwa [String.intercalate_singleton]
    | cons t names =>
      intro he
      rw [String.intercalate_cons_cons, String.append_eq_empty_iff,
        String.append_eq_empty_iff] at he
      exact hs he.1.1

theorem ne_append_dot (s rest : String) : s ≠ s ++ "." ++ rest := by
  intro h
  have hlength := congrArg String.length h
  simp only [String.length_append] at hlength
  have hdot : ".".length = 1 := rfl
  omega

theorem Chain.inside {package : String} {c : Decl} {outer : List Decl}
    (h : Chain package (c :: outer)) :
    c.fullName = nameInside (parentName package outer) c.name := by
  cases h with
  | cons name index _ => rfl

theorem Chain.tail {package : String} {c : Decl} {outer : List Decl}
    (h : Chain package (c :: outer)) : Chain package outer := by
  cases h with
  | cons _ _ hc => exact hc

theorem Chain.fullName_inside {package : String} {c e : Decl} {outer : List Decl}
    (h : Chain package (c :: e :: outer)) (he : e.fullName ≠ "") :
    c.fullName = e.fullName ++ "." ++ c.name := by
  rw [h.inside, parentName, nameInside_of_ne he]

/-- Where no name is empty, a full name is the package's prefix with all names on the way. -/
theorem Chain.fullName_eq_intercalate {file : File} {c : Decl} {outer : List Decl}
    (h : Chain file.package (c :: outer)) (hn : ∀ o ∈ c :: outer, o.name ≠ "") :
    c.fullName = file.packagePrefix ++ ".".intercalate ((c :: outer).reverse.map (·.name)) := by
  -- The names are joined from outside, so the last one is split off at each message.
  induction outer generalizing c with
  | nil =>
    rw [h.inside, parentName, nameInside, File.packagePrefix]
    split
    · exact String.empty_append.symm
    · rfl
  | cons e outer ih =>
    have hcontainer := ih h.tail fun o ho => hn o (List.mem_cons_of_mem c ho)
    have hnames : ((e :: outer).reverse.map (·.name)) ≠ [] := by simp
    have hjoined : ".".intercalate ((e :: outer).reverse.map (·.name)) ≠ "" := by
      refine intercalate_ne_empty hnames fun s hs => ?_
      obtain ⟨o, ho, rfl⟩ := List.mem_map.mp hs
      exact hn o (List.mem_cons_of_mem c (List.mem_reverse.mp ho))
    have hparent : e.fullName ≠ "" := by
      rw [hcontainer]
      intro he
      exact hjoined (String.append_eq_empty_iff.mp he).2
    have hself : c.fullName = e.fullName ++ "." ++ c.name := h.fullName_inside hparent
    have hsplit : (c :: e :: outer).reverse.map (·.name) =
        (e :: outer).reverse.map (·.name) ++ [c.name] := by
      rw [List.reverse_cons, List.map_append, List.map_singleton]
    rw [hself, hsplit, hcontainer,
      String.intercalate_append_of_ne_nil hnames (List.cons_ne_nil _ _),
      String.intercalate_singleton]
    simp only [String.append_assoc]

namespace File

variable {file : File}

/-- The package and the outer class, as far as class names have them in front. -/
def classScope (file : File) : List String :=
  (file.classPackage :: if file.javaMultipleFiles then [] else [file.outerClass]).filter (· ≠ "")

def classNameOf (file : File) (relative : String) : String :=
  ".".intercalate (file.classScope ++ [relative].filter (· ≠ ""))

theorem className_eq (c : Decl) :
    file.className c = (file.relativeName c).map file.classNameOf := by
  rw [className]
  congr 1
  funext relative
  rw [classNameOf, classScope, ← List.filter_append]

theorem objectName_eq (c : Decl) :
    file.objectName c = (file.relativeName c).map fun _ => "proto." ++ c.fullName := by
  rw [objectName]
  cases h : file.relativeName c with
  | error e => rfl
  | ok relative =>
    have hfull := relativeName_eq_ok_iff.mp h
    simp only [Except.map]
    rw [hfull, rootName, packagePrefix]
    split
    · rw [String.empty_append]
      rfl
    · simp only [rootObject, String.append_assoc]
      rfl

theorem classNameOf_of_ne_empty {relative : String} (h : relative ≠ "") :
    file.classNameOf relative =
      if file.classScope = [] then relative
      else ".".intercalate file.classScope ++ "." ++ relative := by
  have hfilter : [relative].filter (· ≠ "") = [relative] := by simp [h]
  rw [classNameOf, hfilter]
  split
  · next hs => rw [hs, List.nil_append, String.intercalate_singleton]
  · next hs =>
    rw [String.intercalate_append_of_ne_nil hs (List.cons_ne_nil _ _),
      String.intercalate_singleton]

theorem classNameOf_empty : file.classNameOf "" = ".".intercalate file.classScope := by
  have hfilter : [""].filter (· ≠ "") = [] := by simp
  rw [classNameOf, hfilter, List.append_nil]

theorem classNameOf_ne_of_empty {relative : String} (h : relative ≠ "") :
    file.classNameOf "" ≠ file.classNameOf relative := by
  rw [classNameOf_of_ne_empty h, classNameOf_empty]
  split
  · next hs =>
    rw [hs, String.intercalate_nil]
    exact h.symm
  · exact ne_append_dot _ _

theorem classNameOf_injective {r s : String} (h : file.classNameOf r = file.classNameOf s) :
    r = s := by
  by_cases hr : r = ""
  · by_cases hs : s = ""
    · rw [hr, hs]
    · rw [hr] at h
      exact absurd h (classNameOf_ne_of_empty hs)
  · by_cases hs : s = ""
    · rw [hs] at h
      exact absurd h.symm (classNameOf_ne_of_empty hr)
    · rw [classNameOf_of_ne_empty hr, classNameOf_of_ne_empty hs] at h
      split at h
      · exact h
      · exact (String.append_right_inj _).mp h

theorem classNameOf_nested {relative : String} (h : relative ≠ "") (name : String) :
    file.classNameOf (relative ++ "." ++ name) = file.classNameOf relative ++ "." ++ name := by
  have hne : relative ++ "." ++ name ≠ "" := by
    intro he
    rw [String.append_eq_empty_iff, String.append_eq_empty_iff] at he
    exact h he.1.1
  rw [classNameOf_of_ne_empty hne, classNameOf_of_ne_empty h]
  split
  · rfl
  · simp only [String.append_assoc]

/-- No declaration under the package is without its names, which are made from the relative one. -/
theorem names_of_chain {c : Decl} {outer : List Decl} (h : Chain file.package (c :: outer)) :
    ∃ relative, file.relativeName c = .ok relative ∧
      c.fullName = file.packagePrefix ++ relative ∧
      file.objectName c = .ok ("proto." ++ c.fullName) ∧
      file.className c = .ok (file.classNameOf relative) := by
  obtain ⟨relative, hr⟩ := exists_relativeName h
  refine ⟨relative, hr, relativeName_eq_ok_iff.mp hr, ?_, ?_⟩
  · rw [objectName_eq, hr]
    rfl
  · rw [className_eq, hr]
    rfl

theorem exists_proto_packagePrefix (relative : String) :
    ∃ rest, "proto." ++ (file.packagePrefix ++ relative) = file.rootName ++ "." ++ rest := by
  refine ⟨relative, ?_⟩
  rw [packagePrefix, rootName]
  split
  · rw [String.empty_append]
    rfl
  · simp only [rootObject, String.append_assoc]
    rfl

theorem packagePrefix_append (relative : String) :
    file.packagePrefix ++ relative =
      if file.package = "" then relative else file.package ++ "." ++ relative := by
  rw [packagePrefix]
  split
  · exact String.empty_append
  · rfl

/-- Neither kind of name is shared by declarations with different full names. -/
theorem fullName_eq_of_name_eq {c₁ c₂ : Decl} {outer₁ outer₂ : List Decl}
    (h₁ : Chain file.package (c₁ :: outer₁)) (h₂ : Chain file.package (c₂ :: outer₂))
    (h : file.objectName c₁ = file.objectName c₂ ∨ file.className c₁ = file.className c₂) :
    c₁.fullName = c₂.fullName := by
  obtain ⟨r₁, _, hf₁, ho₁, hc₁⟩ := names_of_chain h₁
  obtain ⟨r₂, _, hf₂, ho₂, hc₂⟩ := names_of_chain h₂
  rcases h with h | h
  · rw [ho₁, ho₂, Except.ok.injEq] at h
    exact (String.append_right_inj _).mp h
  · rw [hc₁, hc₂, Except.ok.injEq] at h
    rw [hf₁, hf₂, classNameOf_injective h]

theorem names_of_nested {c m : Decl} {outer : List Decl}
    (h : Chain file.package (c :: m :: outer)) (hn : ∀ o ∈ m :: outer, o.name ≠ "") :
    ∃ object cls, file.objectName m = .ok object ∧
      file.objectName c = .ok (object ++ "." ++ c.name) ∧
      file.className m = .ok cls ∧ file.className c = .ok (cls ++ "." ++ c.name) := by
  obtain ⟨relative, _, hfull, hobject, hclass⟩ := names_of_chain h.tail
  have hjoined : relative = ".".intercalate ((m :: outer).reverse.map (·.name)) := by
    have hall := h.tail.fullName_eq_intercalate hn
    rw [hfull] at hall
    exact (String.append_right_inj _).mp hall
  have hrelative : relative ≠ "" := by
    rw [hjoined]
    refine intercalate_ne_empty (by simp) fun s hs => ?_
    obtain ⟨o, ho, rfl⟩ := List.mem_map.mp hs
    exact hn o (List.mem_reverse.mp ho)
  have hparent : m.fullName ≠ "" := by
    rw [hfull]
    intro he
    exact hrelative (String.append_eq_empty_iff.mp he).2
  have hchild := h.fullName_inside hparent
  have hnested : file.relativeName c = .ok (relative ++ "." ++ c.name) := by
    rw [relativeName_eq_ok_iff, hchild, hfull]
    simp only [String.append_assoc]
  refine ⟨_, _, hobject, ?_, hclass, ?_⟩
  · rw [objectName_eq, hnested, hchild]
    simp only [Except.map, String.append_assoc]
  · rw [className_eq, hnested, Except.map, classNameOf_nested hrelative]

end File

namespace FileDescriptor

/-- Names of the elements of a file: there are always some, they are made from the full name, they
follow the nesting where no name is empty, and they tell elements with different full names
apart. -/
theorem names_of_build {d : FileDescriptor} {file : File} (h : d.build = .ok file) :
    (∀ e ∈ file.elements fun _ => true, ∃ relative cls,
      file.relativeName e.place.decl = .ok relative ∧
      file.objectName e.place.decl = .ok ("proto." ++ e.place.decl.fullName) ∧
      file.className e.place.decl = .ok cls ∧
      (∃ rest, "proto." ++ e.place.decl.fullName = file.rootName ++ "." ++ rest) ∧
      e.place.decl.fullName =
        if file.package = "" then relative else file.package ++ "." ++ relative) ∧
    ((∀ e ∈ file.elements fun _ => true, e.place.decl.name ≠ "") →
      (∀ e ∈ file.elements fun _ => true, ∃ path t, d.typeAt? path = some t ∧
        t.Describes file.package e ∧
        file.relativeName e.place.decl = .ok (".".intercalate t.names)) ∧
      ∀ m ∈ file.preorder fun _ => true, ∀ c ∈ m.children, ∃ object cls,
        file.objectName m.place.decl = .ok object ∧
        file.objectName c.place.decl = .ok (object ++ "." ++ c.place.decl.name) ∧
        file.className m.place.decl = .ok cls ∧
        file.className c.place.decl = .ok (cls ++ "." ++ c.place.decl.name)) ∧
    ∀ e₁ ∈ file.elements fun _ => true, ∀ e₂ ∈ file.elements fun _ => true,
      (file.objectName e₁.place.decl = file.objectName e₂.place.decl ∨
        file.className e₁.place.decl = file.className e₂.place.decl) →
      e₁.place.decl.fullName = e₂.place.decl.fullName := by
  obtain ⟨rfl, _⟩ := d.eq_of_build h
  refine ⟨fun e he => ?_, fun hn => ⟨fun e he => ?_, fun m hm c hc => ?_⟩,
    fun e₁ h₁ e₂ h₂ hname => ?_⟩
  · obtain ⟨relative, hr, hfull, hobject, hclass⟩ :=
      File.names_of_chain (d.chain_of_mem_elements he)
    refine ⟨relative, _, hr, hobject, hclass, ?_, hfull.trans (File.packagePrefix_append relative)⟩
    rw [hfull]
    exact File.exists_proto_packagePrefix relative
  · have hchain := d.chain_of_mem_elements he
    have hnames : ∀ o ∈ e.place.chain, o.name ≠ "" := d.forall_chain_of_mem_elements hn he
    obtain ⟨path, t, hp, hdescribes⟩ := d.exists_typeAt?_of_mem_elements he
    refine ⟨path, t, hp, hdescribes, ?_⟩
    rw [File.relativeName_eq_ok_iff, hdescribes.place.names_eq]
    exact hchain.fullName_eq_intercalate hnames
  · have hchain := d.chain_of_mem_elements (d.mem_elements_of_mem_children hm hc)
    rw [Place.chain, d.outer_of_mem_children hm hc] at hchain
    have hnames : ∀ o ∈ m.place.chain, o.name ≠ "" :=
      d.forall_chain_of_mem_elements hn (d.element_mem_elements hm)
    exact File.names_of_nested hchain hnames
  · exact File.fullName_eq_of_name_eq (d.chain_of_mem_elements h₁) (d.chain_of_mem_elements h₂)
      hname

/-- A file with a message that has the name of its package. -/
def withPackageName : FileDescriptor where
  name := some "my_file.proto"
  package := some "foo"
  messages := [{
    name := some "foo"
    nested := [{ name := some "Inner", enums := [{ name := some "Kind" }] }] }]
  options := some { javaPackage := some "" }

def innerKind : Element :=
  ⟨.enum, ⟨"Kind", "foo.foo.Inner.Kind", 0⟩, [⟨"Inner", "foo.foo.Inner", 0⟩, ⟨"foo", "foo.foo", 0⟩]⟩

theorem names_of_build_withPackageName :
    withPackageName.build = .ok withPackageName.toFile ∧
      (∀ e ∈ withPackageName.toFile.elements fun _ => true, e.place.decl.name ≠ "") ∧
      innerKind ∈ withPackageName.toFile.elements (fun _ => true) ∧
      withPackageName.toFile.objectName innerKind.place.decl = .ok "proto.foo.foo.Inner.Kind" ∧
      (∃ t, withPackageName.toFile.relativeName innerKind.place.decl =
        .ok (".".intercalate (TypePlace.names t))) ∧
      ∀ e ∈ withPackageName.toFile.elements fun _ => true,
        withPackageName.toFile.className e.place.decl =
          withPackageName.toFile.className innerKind.place.decl →
        e.place.decl.fullName = "foo.foo.Inner.Kind" := by
  have hb : withPackageName.build = .ok withPackageName.toFile := rfl
  have hn : ∀ e ∈ withPackageName.toFile.elements fun _ => true, e.place.decl.name ≠ "" := by decide
  have hk : innerKind ∈ withPackageName.toFile.elements fun _ => true := by decide
  obtain ⟨hnames, hnested, hdistinct⟩ := names_of_build hb
  obtain ⟨_, _, _, hobject, _⟩ := hnames innerKind hk
  obtain ⟨_, t, _, _, hrelative⟩ := (hnested hn).1 innerKind hk
  exact ⟨hb, hn, hk, hobject, ⟨t, hrelative⟩, fun e he h => hdistinct e he innerKind hk (.inr h)⟩

end FileDescriptor

end ProtoNaming
