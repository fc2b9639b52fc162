import ProtoNaming.Proofs.Naming.Inside

namespace ProtoNaming

theorem Place.getLast?_chain (p : Place) : p.chain.getLast? = some p.outermost.decl := by
  rw [chain, outermost, List.getLast?_cons]

namespace File

/-- A declaration is inside the package if its full name goes on after that and a dot. Everything
is inside no package. -/
def Encloses (file : File) (d : Decl) : Prop :=
  file.package = "" ∨ ∃ rest, d.fullName = file.package ++ "." ++ rest

/-- A name that is given if a declaration is inside the package, and refused on its account if
not. -/
structure GivenInside (file : File) (d : Decl) (name : Except NamingError String) : Prop where
  exists_iff : (∃ s, name = .ok s) ↔ file.Encloses d
  error_eq : ∀ e, name = .error e → e = .outsidePackage d.fullName (file.package ++ ".")

variable {file : File} {d : Decl}

theorem encloses_iff :
    file.Encloses d ↔ ∃ relative, d.fullName = file.packagePrefix ++ relative := by
  by_cases hp : file.package = ""
  · rw [packagePrefix, if_pos hp]
    exact iff_of_true (.inl hp) ⟨d.fullName, String.empty_append.symm⟩
  · rw [packagePrefix, if_neg hp]
    exact or_iff_right hp

theorem error_of_relativeName {e : NamingError} (h : file.relativeName d = .error e) :
    e = .outsidePackage d.fullName file.packagePrefix := by
  rw [relativeName] at h
  split at h
  · cases h
  · exact (Except.error.inj h).symm

theorem fullName_of_relativeName {relative : String} (h : file.relativeName d = .ok relative) :
    d.fullName = if file.package = "" then relative else file.package ++ "." ++ relative := by
  rw [relativeName_eq_ok_iff.mp h, packagePrefix]
  split
  · exact String.empty_append
  · rfl

theorem givenInside_relativeName : file.GivenInside d (file.relativeName d) where
  exists_iff := by
    simp only [relativeName_eq_ok_iff]
    exact encloses_iff.symm
  error_eq := by
    intro e he
    have hp : file.package ≠ "" := by
      intro hp
      obtain ⟨relative, hr⟩ := encloses_iff.mp (.inl hp)
      rw [relativeName_eq_ok_iff.mpr hr] at he
      cases he
    rw [error_of_relativeName he, packagePrefix, if_neg hp]

theorem GivenInside.map {name : Except NamingError String} (h : file.GivenInside d name)
    (f : String → String) : file.GivenInside d (name.map f) := by
  cases name with
  | error e =>
    have hno : ¬file.Encloses d := by
      intro hd
      obtain ⟨s, hs⟩ := h.exists_iff.mpr hd
      cases hs
    refine ⟨⟨?_, fun hd => absurd hd hno⟩, h.error_eq⟩
    rintro ⟨s, hs⟩
    cases hs
  | ok s => exact ⟨⟨fun _ => h.exists_iff.mp ⟨s, rfl⟩, fun _ => ⟨f s, rfl⟩⟩, nofun⟩

theorem givenInside_objectName : file.GivenInside d (file.objectName d) :=
  givenInside_relativeName.map _

theorem givenInside_className : file.GivenInside d (file.className d) :=
  givenInside_relativeName.map _

theorem objectName_congr {c : Decl} (h : c.fullName = d.fullName) :
    file.objectName c = file.objectName d := by
  rw [objectName, objectName, relativeName, relativeName, h]

theorem className_congr {c : Decl} (h : c.fullName = d.fullName) :
    file.className c = file.className d := by
  rw [className, className, relativeName, relativeName, h]

section

variable {f : Field} {p q : Place}

theorem givenInside_of_scope (he : f.isExtension = true) (hs : f.scope = some p) :
    file.GivenInside p.decl (file.accessPath f .classBased) ∧
    file.GivenInside p.decl (file.lookupName f) ∧
    file.GivenInside p.outermost.decl (file.accessPath f .namespaced) ∧
    file.GivenInside p.outermost.decl (file.importName f) := by
  have hholder : f.holder .namespaced = some p.outermost := by
    rw [Field.holder, hs, Option.map_some]
  refine ⟨?_, ?_, ?_, ?_⟩
  · rw [accessPath_classBased he, hs]
    exact givenInside_className.map _
  · rw [lookupName_eq he, hs]
    exact givenInside_objectName.map _
  · rw [accessPath_namespaced he, hholder]
    exact givenInside_objectName.map _
  · rw [importName_eq he, hholder]
    exact givenInside_objectName

/-- In another scope whose innermost message has the same full name an extension has the same names
made from that. -/
theorem names_of_same_innermost (he : f.isExtension = true) (hs : f.scope = some p)
    (hd : q.decl.fullName = p.decl.fullName) :
    file.accessPath { f with scope := some q } .classBased = file.accessPath f .classBased ∧
    file.lookupName { f with scope := some q } = file.lookupName f := by
  have he' : ({ f with scope := some q } : Field).isExtension = true := he
  rw [accessPath_classBased he, accessPath_classBased he', lookupName_eq he, lookupName_eq he', hs]
  simp only [scopeClass, scopeObject, className_congr hd, objectName_congr hd]
  exact ⟨rfl, rfl⟩

theorem names_of_same_outermost (he : f.isExtension = true) (hs : f.scope = some p)
    (ho : q.outermost.decl.fullName = p.outermost.decl.fullName) :
    file.accessPath { f with scope := some q } .namespaced = file.accessPath f .namespaced ∧
    file.importName { f with scope := some q } = file.importName f := by
  have he' : ({ f with scope := some q } : Field).isExtension = true := he
  have hholder : f.holder .namespaced = some p.outermost := by
    rw [Field.holder, hs, Option.map_some]
  have hholder' : ({ f with scope := some q } : Field).holder .namespaced = some q.outermost := by
    rw [Field.holder, Option.map_some]
  have hobject : file.objectName q.outermost.decl = file.objectName p.outermost.decl :=
    objectName_congr ho
  constructor
  · rw [accessPath_namespaced he, accessPath_namespaced he', hholder, hholder']
    simp only [scopeObject, hobject]
    rfl
  · rw [importName_eq he, importName_eq he', hholder, hholder']
    exact hobject

theorem names_of_not_extension (he : f.isExtension = false) :
    (∀ target, file.accessPath f target = .error (.notExtension f.name)) ∧
    file.importName f = .error (.notExtension f.name) ∧
    file.lookupName f = .error (.notExtension f.name) := by
  have hcheck : f.checkExtension = .error (.notExtension f.name) := by
    rw [Field.checkExtension, he]
    rfl
  simp only [accessPath, importName, lookupName, hcheck]
  exact ⟨fun _ => rfl, rfl, rfl⟩

end

/-- The names of a declaration are refused exactly where it is not inside the package. Those of an
extension follow the innermost message around it or the outermost one, whichever they are made
from, and nothing is refused to one that has no message around it. -/
theorem names_given_inside (file : File) :
    (∀ d, file.GivenInside d (file.relativeName d) ∧ file.GivenInside d (file.objectName d) ∧
      file.GivenInside d (file.className d) ∧
      ∀ relative, file.relativeName d = .ok relative →
        d.fullName = if file.package = "" then relative else file.package ++ "." ++ relative) ∧
    (∀ (f : Field) (p : Place) (outermost : Decl), f.isExtension = true → f.scope = some p →
      p.chain.getLast? = some outermost →
      file.GivenInside p.decl (file.accessPath f .classBased) ∧
      file.GivenInside p.decl (file.lookupName f) ∧
      file.GivenInside outermost (file.accessPath f .namespaced) ∧
      file.GivenInside outermost (file.importName f) ∧
      ∀ q : Place,
        (q.decl.fullName = p.decl.fullName →
          file.accessPath { f with scope := some q } .classBased = file.accessPath f .classBased ∧
          file.lookupName { f with scope := some q } = file.lookupName f) ∧
        (∀ top, q.chain.getLast? = some top → top.fullName = outermost.fullName →
          file.accessPath { f with scope := some q } .namespaced = file.accessPath f .namespaced ∧
          file.importName { f with scope := some q } = file.importName f)) ∧
    (∀ f : Field, f.isExtension = true → f.scope = none →
      (∀ target, ∃ s, file.accessPath f target = .ok s) ∧ (∃ s, file.importName f = .ok s) ∧
      ∃ s, file.lookupName f = .ok s) ∧
    ∀ f : Field, f.isExtension = false →
      (∀ target, file.accessPath f target = .error (.notExtension f.name)) ∧
      file.importName f = .error (.notExtension f.name) ∧
      file.lookupName f = .error (.notExtension f.name) := by
  refine ⟨fun d => ⟨givenInside_relativeName, givenInside_objectName, givenInside_className,
    fun relative => fullName_of_relativeName⟩, ?_, ?_, fun f => names_of_not_extension⟩
  · intro f p outermost he hs hlast
    rw [p.getLast?_chain] at hlast
    obtain rfl := Option.some.inj hlast
    obtain ⟨hclass, hlookup, hobject, himport⟩ := @givenInside_of_scope file f p he hs
    refine ⟨hclass, hlookup, hobject, himport, fun q => ⟨names_of_same_innermost he hs, ?_⟩⟩
    intro top hq ho
    rw [q.getLast?_chain] at hq
    obtain rfl := Option.some.inj hq
    exact names_of_same_outermost he hs ho
  · intro f he hs
    have hchain : ∀ p ∈ f.scope, Chain file.package p.chain := by
      rw [hs]
      exact nofun
    exact ⟨exists_accessPath he hchain, exists_importName he hchain, exists_lookupName he hchain⟩

/-- A message whose full name starts like those of the package `p`, inside a message of it. -/
def strayScope : Place := ⟨⟨"M", "pq.M", 0⟩, [⟨"B", "p", 0⟩, ⟨"A", "p.A", 0⟩]⟩

theorem names_given_inside_strayScope :
    let file := ({ package := some "p" } : FileDescriptor).toFile
    let f := ({ name := some "is_set" } : FieldDescriptor).toExtension (some strayScope)
    let top := ({ name := some "is_set" } : FieldDescriptor).toExtension none
    let member := ({ name := some "id" } : FieldDescriptor).toMember strayScope
    f.isExtension = true ∧ f.scope = some strayScope ∧
      strayScope.chain.getLast? = some ⟨"A", "p.A", 0⟩ ∧
      ¬file.Encloses strayScope.decl ∧ file.Encloses ⟨"A", "p.A", 0⟩ ∧
      file.accessPath f .classBased = .error (.outsidePackage "pq.M" "p.") ∧
      (∃ s, file.accessPath f .namespaced = .ok s) ∧
      top.isExtension = true ∧ top.scope = none ∧ (∃ s, file.lookupName top = .ok s) ∧
      member.isExtension = false ∧ file.importName member = .error (.notExtension "id") := by
  intro file f top member
  obtain ⟨hdecl, hscope, hfile, hmember⟩ := names_given_inside file
  have hlast : strayScope.chain.getLast? = some ⟨"A", "p.A", 0⟩ := rfl
  have hrefused : file.relativeName strayScope.decl = .error (.outsidePackage "pq.M" "p.") := by
    decide
  have hout : ¬file.Encloses strayScope.decl := by
    intro hd
    obtain ⟨s, hs⟩ := (hdecl strayScope.decl).1.exists_iff.mpr hd
    rw [hrefused] at hs
    cases hs
  have hin : file.Encloses ⟨"A", "p.A", 0⟩ := .inr ⟨"A", by decide⟩
  obtain ⟨hclass, _, hobject, _⟩ := hscope f strayScope _ rfl rfl hlast
  have herror : file.accessPath f .classBased = .error (.outsidePackage "pq.M" "p.") := by
    cases hname : file.accessPath f .classBased with
    | error e => rw [hclass.error_eq e hname]; rfl
    | ok s => exact absurd (hclass.exists_iff.mp ⟨s, hname⟩) hout
  exact ⟨rfl, rfl, hlast, hout, hin, herror, hobject.exists_iff.mpr hin, rfl, rfl,
    (hfile top rfl rfl).2.2, rfl, (hmember member rfl).2.1⟩

end File

end ProtoNaming
