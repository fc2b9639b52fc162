import ProtoNaming.Proofs.Identifier.Neighbours
import ProtoNaming.Proofs.Naming.Qualified

namespace ProtoNaming

namespace Identifier

/-- Nothing is left of a text without ASCII letters and digits, and of no other. -/
theorem classCamel_eq_empty_iff {name : String} {capitalizeFirst : Bool} :
    classCamel name capitalizeFirst = "" ↔ ∀ c ∈ name.toList, c.isAlphanum = false := by
  rw [← String.toList_inj, toList_classCamel, String.toList_empty, List.map_eq_nil_iff,
    List.filter_eq_nil_iff]
  have hall := List.forall_mem_map (f := (·.2)) (l := withPrevious none name.toList)
    (P := fun c => c.isAlphanum = false)
  rw [map_snd_withPrevious] at hall
  simpa only [Bool.not_eq_true] using hall.symm

end Identifier

namespace File

def topNames (file : File) : List String :=
  file.messages.map (·.place.decl.name) ++ file.enums.map (·.place.decl.name)

def pathClass (file : File) : String :=
  Identifier.classCamel (SourcePath.baseName file.name) true

/-- No option names the outer class; an empty name is none. -/
def LeavesOuterClass (file : File) : Prop :=
  file.javaOuterClassname = none ∨ file.javaOuterClassname = some ""

/-- There is nothing to name the outer class after: no option, no ASCII letter or digit in the base
name of the path, and no empty name at the top level, which would bring in the suffix. -/
structure LacksOuterClass (file : File) : Prop where
  option : file.LeavesOuterClass
  path : ∀ c ∈ (SourcePath.baseName file.name).toList, c.isAlphanum = false
  names : "" ∉ file.topNames

variable {file : File}

theorem declares_iff {name : String} : file.declares name = true ↔ name ∈ file.topNames := by
  simp only [declares, topNames, Bool.or_eq_true, List.any_eq_true, decide_eq_true_eq,
    List.mem_append, List.mem_map]

theorem outerClass_of_leaves (h : file.LeavesOuterClass) :
    file.outerClass =
      if file.pathClass ∈ file.topNames then file.pathClass ++ "OuterClass"
      else file.pathClass := by
  have hdefault : file.outerClass = file.defaultOuterClass := by
    unfold outerClass
    rcases h with h | h
    · simp only [h]
    · simp only [h]
  rw [hdefault, defaultOuterClass]
  simp only [declares_iff]
  rfl

theorem leaves_of_outerClass_eq_empty (h : file.outerClass = "") : file.LeavesOuterClass := by
  unfold outerClass at h
  split at h
  · next hnone => exact .inl hnone
  · next hempty => exact .inr hempty
  · next name hne hname => exact absurd h hne

theorem pathClass_eq_empty_iff :
    file.pathClass = "" ↔
      ∀ c ∈ (SourcePath.baseName file.name).toList, c.isAlphanum = false :=
  Identifier.classCamel_eq_empty_iff

theorem outerClass_eq_empty_iff : file.outerClass = "" ↔ file.LacksOuterClass := by
  constructor
  · intro he
    have hl := leaves_of_outerClass_eq_empty he
    rw [outerClass_of_leaves hl] at he
    split at he
    · have hsuffix := (String.append_eq_empty_iff.mp he).2
      exact absurd hsuffix (by decide)
    · next hfree =>
      rw [he] at hfree
      exact ⟨hl, pathClass_eq_empty_iff.mp he, hfree⟩
  · intro h
    have hpath := pathClass_eq_empty_iff.mpr h.path
    rw [outerClass_of_leaves h.option, hpath, if_neg h.names]

theorem classNameOf_eq_extensionClass_iff (hone : file.javaMultipleFiles = false)
    {relative : String} (hr : relative ≠ "") :
    file.classNameOf relative = file.extensionClass ++ "." ++ relative ↔ file.outerClass ≠ "" := by
  have hscope : file.classScope = [file.classPackage, file.outerClass].filter (· ≠ "") := by
    rw [classScope, hone]
    rfl
  rw [classNameOf_of_ne_empty hr, hscope, extensionClass]
  by_cases ho : file.outerClass = ""
  · -- An empty part is left out of the class name, and its dot stays on the extension's path.
    refine iff_of_false (fun heq => ?_) (fun hne => hne ho)
    have hlength := congrArg String.length heq
    by_cases hp : file.classPackage = ""
    · simp [ho, hp] at hlength
    · simp [ho, hp] at hlength
  · refine iff_of_true ?_ ho
    by_cases hp : file.classPackage = ""
    · simp [ho, hp]
    · simp [ho, hp, String.intercalate_cons_cons]

end File

namespace FileDescriptor

variable {d : FileDescriptor} {file : File}

theorem topNames_toFile (d : FileDescriptor) :
    d.toFile.topNames =
      d.messages.map (fun m => m.name.getD "") ++ d.enums.map (fun e => e.name.getD "") := by
  rw [File.topNames, toFile, map_mapIdx (fun i m => ?_), map_mapIdx (fun i e => ?_)]
  · rfl
  · rw [m.place_toMessage]
    rfl

theorem className_of_mem_messages {m : Message} (hm : m ∈ d.toFile.messages) :
    d.toFile.className m.place.decl = .ok (d.toFile.classNameOf m.place.decl.name) := by
  have hchain := d.chain_of_mem_messages hm
  rw [Place.chain, d.outer_of_mem_messages hm] at hchain
  have hfull : m.place.decl.fullName = d.toFile.packagePrefix ++ m.place.decl.name := by
    rw [hchain.inside, File.packagePrefix_append, parentName, nameInside]
  rw [File.className_eq, File.relativeName_eq_ok_iff.mpr hfull]
  rfl

/-- Where no option names it, the outer class has the name of a top-level message or enum if the
name from the path and the same name with the suffix are both taken, and only then: the suffix is
put once. -/
theorem outerClass_mem_topNames_iff (h : d.build = .ok file) (hl : file.LeavesOuterClass) :
    file.topNames =
      d.messages.map (fun m => m.name.getD "") ++ d.enums.map (fun e => e.name.getD "") ∧
    file.outerClass =
      (if file.pathClass ∈ file.topNames then file.pathClass ++ "OuterClass"
        else file.pathClass) ∧
    (file.outerClass ∈ file.topNames ↔
      file.pathClass ∈ file.topNames ∧ file.pathClass ++ "OuterClass" ∈ file.topNames) := by
  obtain ⟨rfl, _⟩ := d.eq_of_build h
  have houter := File.outerClass_of_leaves hl
  refine ⟨d.topNames_toFile, houter, ?_⟩
  rw [houter]
  split
  · next htaken => exact ⟨fun hsuffix => ⟨htaken, hsuffix⟩, fun hboth => hboth.2⟩
  · next hfree => exact iff_of_false hfree fun hboth => hfree hboth.1

def withSuffixedName : FileDescriptor where
  name := some "widget.proto"
  package := some "ui"
  messages := [{ name := some "Widget" }, { name := some "WidgetOuterClass" }]

/-- The suffix does not make the outer class's name a new one. -/
theorem outerClass_taken_withSuffixedName :
    withSuffixedName.build = .ok withSuffixedName.toFile ∧
      withSuffixedName.toFile.LeavesOuterClass ∧
      withSuffixedName.toFile.outerClass = "WidgetOuterClass" ∧
      ∃ m ∈ withSuffixedName.toFile.messages,
        m.place.decl.name = withSuffixedName.toFile.outerClass :=
  ⟨rfl, .inl rfl, by decide, by decide⟩

def withEnumName : FileDescriptor where
  name := some "dir/my_file.proto"
  messages := [{ name := some "OuterClass" }]
  enums := [{ name := some "MyFile" }]
  options := some { javaOuterClassname := some "" }

theorem outerClass_mem_topNames_iff_withEnumName :
    withEnumName.build = .ok withEnumName.toFile ∧ withEnumName.toFile.LeavesOuterClass ∧
      withEnumName.toFile.topNames = ["OuterClass", "MyFile"] ∧
      withEnumName.toFile.outerClass = "MyFileOuterClass" ∧
      withEnumName.toFile.outerClass ∉ withEnumName.toFile.topNames := by
  have hb : withEnumName.build = .ok withEnumName.toFile := rfl
  have hl : withEnumName.toFile.LeavesOuterClass := .inr rfl
  obtain ⟨hnames, houter, hiff⟩ := outerClass_mem_topNames_iff hb hl
  have hfree : withEnumName.toFile.pathClass ++ "OuterClass" ∉ withEnumName.toFile.topNames := by
    decide
  exact ⟨hb, hl, hnames, houter.trans (by decide), fun hmem => hfree (hiff.mp hmem).2⟩

/-- With one outer class for the whole file, a top-level message is inside the class that holds the
file's own extensions, unless there is nothing to name the outer class after. -/
theorem className_eq_holder_iff (h : d.build = .ok file) (hone : file.javaMultipleFiles = false)
    {f : Field} (hf : f ∈ file.extensions) {m : Message} (hm : m ∈ file.messages)
    (hn : m.place.decl.name ≠ "") :
    ∃ holder cls,
      file.accessPath f .classBased =
        .ok (holder ++ "." ++ f.memberName ++ ".getDescriptor()") ∧
      file.className m.place.decl = .ok cls ∧
      (cls = holder ++ "." ++ m.place.decl.name ↔ ¬file.LacksOuterClass) := by
  obtain ⟨rfl, _⟩ := d.eq_of_build h
  obtain ⟨he, hscope⟩ := d.scope_of_mem_extensions hf
  refine ⟨d.toFile.extensionClass, _, ?_, className_of_mem_messages hm, ?_⟩
  · rw [File.accessPath_classBased he, hscope]
    rfl
  · rw [File.classNameOf_eq_extensionClass_iff hone hn, ne_eq, File.outerClass_eq_empty_iff]

def withoutLetters : FileDescriptor where
  name := some "_.proto"
  package := some "p"
  messages := [{ name := some "M" }]
  extensions := [{
    name := some "x"
    number := some 100
    label := some 1
    typeCode := some 9
    extendee := some ".p.M" }]

/-- The message is not inside the class that holds the extension. -/
theorem holder_apart_withoutLetters :
    withoutLetters.build = .ok withoutLetters.toFile ∧
      withoutLetters.toFile.javaMultipleFiles = false ∧
      ∃ f ∈ withoutLetters.toFile.extensions, ∃ m ∈ withoutLetters.toFile.messages,
        m.place.decl.name = "M" ∧ ∃ holder cls,
        withoutLetters.toFile.accessPath f .classBased =
          .ok (holder ++ "." ++ f.memberName ++ ".getDescriptor()") ∧
        withoutLetters.toFile.className m.place.decl = .ok cls ∧
        holder = "p." ∧ cls = "p.M" ∧ cls ≠ holder ++ "." ++ m.place.decl.name := by
  refine ⟨rfl, rfl, _, List.mem_cons_self, _, List.mem_cons_self, rfl, "p.", "p.M", ?_, ?_, rfl,
    rfl, ?_⟩
  · decide
  · decide
  · decide

def withDigit : FileDescriptor where
  name := some "dir/7.proto"
  package := some "p.q"
  messages := withoutLetters.messages
  extensions := withoutLetters.extensions
  options := some { javaPackage := some "" }

theorem className_eq_holder_iff_withDigit :
    withDigit.build = .ok withDigit.toFile ∧ withDigit.toFile.javaMultipleFiles = false ∧
      ¬withDigit.toFile.LacksOuterClass ∧
      ∃ f ∈ withDigit.toFile.extensions, ∃ m ∈ withDigit.toFile.messages,
        m.place.decl.name ≠ "" ∧ withDigit.toFile.className m.place.decl = .ok "7.M" ∧
        ∃ holder,
          withDigit.toFile.accessPath f .classBased =
            .ok (holder ++ "." ++ f.memberName ++ ".getDescriptor()") ∧
          withDigit.toFile.className m.place.decl = .ok (holder ++ "." ++ m.place.decl.name) := by
  have hb : withDigit.build = .ok withDigit.toFile := rfl
  have hone : withDigit.toFile.javaMultipleFiles = false := rfl
  have hdigit : '7' ∈ (SourcePath.baseName withDigit.toFile.name).toList := by decide
  have hnamed : ¬withDigit.toFile.LacksOuterClass := by
    intro hl
    exact absurd (hl.path '7' hdigit) (by decide)
  refine ⟨hb, hone, hnamed, _, List.mem_cons_self, _, List.mem_cons_self, by decide, by decide, ?_⟩
  obtain ⟨holder, cls, hpath, hclass, hiff⟩ :=
    className_eq_holder_iff hb hone List.mem_cons_self List.mem_cons_self (by decide)
  have hcls := hiff.mpr hnamed
  rw [hcls] at hclass
  exact ⟨holder, hpath, hclass⟩

end FileDescriptor

end ProtoNaming
