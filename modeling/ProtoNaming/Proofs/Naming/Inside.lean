import Mathlib.Data.List.Basic
import ProtoNaming.Naming.ExtensionPath
import ProtoNaming.Proofs.Schema.Regular

namespace ProtoNaming

namespace File

/-- A full name is made up of the package's prefix and the relative name. -/
theorem relativeName_eq_ok_iff {file : File} {d : Decl} {relative : String} :
    file.relativeName d = .ok relative ↔ d.fullName = file.packagePrefix ++ relative := by
  unfold relativeName
  rw [← String.toList_inj, String.toList_append]
  split
  · next cs h =>
    rw [List.isPrefixOf?_eq_some_iff_append_eq] at h
    rw [← h, List.append_cancel_left_eq, Except.ok.injEq, ← String.toList_inj, String.toList_ofList]
  · next h =>
    refine ⟨(nomatch ·), fun hd => ?_⟩
    rw [List.isPrefixOf?_eq_some_iff_append_eq.mpr hd.symm] at h
    cases h

end File

theorem nameInside_of_ne {parent : String} (h : parent ≠ "") (name : String) :
    nameInside parent name = parent ++ "." ++ name :=
  if_neg h

theorem Chain.fullName_eq {file : File} {d : Decl} {outer : List Decl}
    (h : Chain file.package (d :: outer)) :
    ∃ relative, d.fullName = file.packagePrefix ++ relative := by
  by_cases hp : file.package = ""
  · exact ⟨d.fullName, by rw [File.packagePrefix, if_pos hp, String.empty_append]⟩
  · rw [File.packagePrefix, if_neg hp]
    induction outer generalizing d with
    | nil =>
      cases h with
      | cons name _ _ => exact ⟨name, nameInside_of_ne hp name⟩
    | cons e outer ih =>
      cases h with
      | cons name _ hc =>
        obtain ⟨relative, he⟩ := ih hc
        have hne : e.fullName ≠ "" := by
          rw [he]
          simp
        refine ⟨relative ++ "." ++ name, ?_⟩
        rw [Decl.inside, parentName, nameInside_of_ne hne, he]
        simp only [String.append_assoc]

namespace File

variable {file : File} {d : Decl} {outer : List Decl}

theorem exists_relativeName (h : Chain file.package (d :: outer)) :
    ∃ relative, file.relativeName d = .ok relative := by
  obtain ⟨relative, hr⟩ := h.fullName_eq
  exact ⟨relative, relativeName_eq_ok_iff.mpr hr⟩

theorem exists_objectName (h : Chain file.package (d :: outer)) :
    ∃ name, file.objectName d = .ok name := by
  obtain ⟨relative, hr⟩ := exists_relativeName h
  rw [objectName, hr]
  exact ⟨_, rfl⟩

theorem exists_className (h : Chain file.package (d :: outer)) :
    ∃ name, file.className d = .ok name := by
  obtain ⟨relative, hr⟩ := exists_relativeName h
  rw [className, hr]
  exact ⟨_, rfl⟩

theorem exists_scopeObject {scope : Option Place}
    (h : ∀ p ∈ scope, Chain file.package p.chain) : ∃ name, file.scopeObject scope = .ok name := by
  cases scope with
  | none => exact ⟨_, rfl⟩
  | some p => exact exists_objectName (h p rfl)

theorem exists_scopeClass {scope : Option Place}
    (h : ∀ p ∈ scope, Chain file.package p.chain) : ∃ name, file.scopeClass scope = .ok name := by
  cases scope with
  | none => exact ⟨_, rfl⟩
  | some p => exact exists_className (h p rfl)

section

variable {f : Field}

theorem accessPath_classBased (he : f.isExtension = true) :
    file.accessPath f .classBased =
      (file.scopeClass f.scope).map (· ++ "." ++ f.memberName ++ ".getDescriptor()") := by
  simp only [accessPath, Field.checkExtension, he, Field.holder]
  cases file.scopeClass f.scope <;> rfl

theorem accessPath_namespaced (he : f.isExtension = true) :
    file.accessPath f .namespaced =
      (file.scopeObject (f.holder .namespaced)).map (· ++ "." ++ f.accessor) := by
  simp only [accessPath, Field.checkExtension, he]
  cases file.scopeObject (f.holder .namespaced) <;> rfl

theorem lookupName_eq (he : f.isExtension = true) :
    file.lookupName f = (file.scopeObject f.scope).map (· ++ "." ++ f.accessor) := by
  simp only [lookupName, Field.checkExtension, he]
  cases file.scopeObject f.scope <;> rfl

theorem importName_eq (he : f.isExtension = true) :
    file.importName f = match f.holder .namespaced with
      | some scope => file.objectName scope.decl
      | none => .ok (file.rootName ++ "." ++ f.accessor) := by
  simp only [importName, Field.checkExtension, he]
  rfl

variable (he : f.isExtension = true) (hs : ∀ p ∈ f.scope, Chain file.package p.chain)

include hs

theorem chain_holder (target : Target) : ∀ p ∈ f.holder target, Chain file.package p.chain := by
  cases target with
  | classBased => exact hs
  | namespaced =>
    intro p hp
    obtain ⟨scope, hscope, rfl⟩ := Option.map_eq_some_iff.mp hp
    exact (hs scope hscope).outermost

include he

theorem exists_accessPath (target : Target) : ∃ name, file.accessPath f target = .ok name := by
  have hh := chain_holder hs target
  cases target with
  | classBased =>
    obtain ⟨name, hn⟩ := exists_scopeClass hh
    rw [accessPath_classBased he]
    exact ⟨_, congrArg (Except.map _) hn⟩
  | namespaced =>
    obtain ⟨name, hn⟩ := exists_scopeObject hh
    rw [accessPath_namespaced he]
    exact ⟨_, congrArg (Except.map _) hn⟩

theorem exists_importName : ∃ name, file.importName f = .ok name := by
  have hh := chain_holder hs .namespaced
  rw [importName_eq he]
  cases hf : f.holder .namespaced with
  | none => exact ⟨_, rfl⟩
  | some p => exact exists_objectName (hh p hf)

theorem exists_lookupName : ∃ name, file.lookupName f = .ok name := by
  obtain ⟨name, hn⟩ := exists_scopeObject hs
  rw [lookupName_eq he]
  exact ⟨_, congrArg (Except.map _) hn⟩

end

end File

end ProtoNaming
