import Mathlib.Logic.Relation
import ProtoNaming.Proofs.Plugin.Options

namespace ProtoNaming.Options

open Text

def PadsParts (value padded : List Char) : Prop :=
  ∃ parts parts', IsCut '+' value parts ∧ IsCut '+' padded parts' ∧ List.Forall₂ Pads parts parts'

/-- A change to the pieces of a parameter that does not change what it asks for. -/
inductive Respelled : List (List Char) → List (List Char) → Prop
  | insert (earlier later) {piece} (h : ∀ key value, IsPair piece key value →
      key ≠ "log_level".toList ∧ key ≠ "targets".toList) :
      Respelled (earlier ++ later) (earlier ++ piece :: later)
  /-- Neighbours without a key in common change places. -/
  | swap (earlier later) {piece next} (h : ∀ key value, IsPair piece key value →
      ∀ value', ¬IsPair next key value') :
      Respelled (earlier ++ piece :: next :: later) (earlier ++ next :: piece :: later)
  /-- Blanks are put around the key and the value. -/
  | blanks (earlier later) {before before' after after'} (hfree : '=' ∉ before)
      (hkey : Pads before before') (hvalue : Pads after after') :
      Respelled (earlier ++ (before ++ '=' :: after) :: later)
        (earlier ++ (before' ++ '=' :: after') :: later)
  | parts (earlier later) {before value padded} (hkey : IsTrimmed before "targets".toList)
      (hvalue : PadsParts value padded) :
      Respelled (earlier ++ (before ++ '=' :: value) :: later)
        (earlier ++ (before ++ '=' :: padded) :: later)

section

variable {key value padded part : List Char} {pieces pieces' : List (List Char)}

theorem target_trim (part : List Char) : target (trim part) = target part := by
  rw [target, target, trim_trim]

theorem targetList_congr (h : (splitOn '+' value).map trim = (splitOn '+' padded).map trim) :
    targetList value = targetList padded := by
  have htrim : ∀ parts : List (List Char), (parts.map trim).mapM target = parts.mapM target := by
    intro parts
    rw [List.mapM_map]
    exact congrArg parts.mapM (funext target_trim)
  rw [targetList, targetList, ← htrim, h, htrim]

theorem targetList_trim (value : List Char) : targetList (trim value) = targetList value :=
  (targetList_congr (map_trim_splitOn_of_pads rfl (isTrimmed_trim value).pads)).symm

theorem PadsParts.targetList_eq (h : PadsParts value padded) :
    targetList value = targetList padded := by
  obtain ⟨parts, parts', hcut, hcut', hpads⟩ := h
  have htrim : parts.map trim = parts'.map trim := by
    clear hcut hcut'
    induction hpads with
    | nil => rfl
    | cons hp _ ih => rw [List.map_cons, List.map_cons, hp.trim_eq, ih]
  apply targetList_congr
  rw [isCut_iff.mp hcut, isCut_iff.mp hcut', htrim]

theorem Respelled.map_values {β : Type} {g : List Char → β}
    (hkey : key = "log_level".toList ∨ key = "targets".toList)
    (hg : key = "targets".toList → ∀ value padded, PadsParts value padded →
      g (trim value) = g (trim padded)) (h : Respelled pieces pieces') :
    (pieces.filterMap (valueOf key)).map g = (pieces'.filterMap (valueOf key)).map g := by
  have hne : key ≠ [] := by rcases hkey with rfl | rfl <;> decide
  have hat {piece piece' : List Char} (earlier later : List (List Char))
      (hsame : (valueOf key piece).map g = (valueOf key piece').map g) :
      ((earlier ++ piece :: later).filterMap (valueOf key)).map g =
        ((earlier ++ piece' :: later).filterMap (valueOf key)).map g := by
    rw [List.map_filterMap, List.map_filterMap, List.filterMap_append, List.filterMap_append,
      List.filterMap_cons, List.filterMap_cons, hsame]
  cases h with
  | insert earlier later h =>
    have hnone : valueOf key _ = none := valueOf_eq_none_iff.mpr fun value hp => by
      obtain ⟨hlevel, htargets⟩ := h key value hp
      exact hkey.elim hlevel htargets
    rw [List.filterMap_append, List.filterMap_append, List.filterMap_cons_none hnone]
  | @swap earlier later piece next h =>
    cases hp : valueOf key piece with
    | none => simp only [List.filterMap_append, List.filterMap_cons, hp]
    | some value =>
      have hnone : valueOf key next = none :=
        valueOf_eq_none_iff.mpr (h key value (valueOf_eq_some_iff.mp hp))
      simp only [List.filterMap_append, List.filterMap_cons, hp, hnone]
  | @blanks earlier later before before' after after' hfree hbefore hafter =>
    have hfree' : '=' ∉ before' := (mem_iff_of_pads rfl hbefore).not.mpr hfree
    apply hat earlier later
    rw [valueOf_append hfree hne, valueOf_append hfree' hne, hbefore.trim_eq, hafter.trim_eq]
  | @parts earlier later before value padded hbefore hvalue =>
    have hfree : '=' ∉ before := (mem_iff_of_pads rfl hbefore.pads).not.mpr (by decide)
    apply hat earlier later
    rw [valueOf_append hfree hne, valueOf_append hfree hne, isTrimmed_iff.mp hbefore]
    by_cases htargets : "targets".toList = key
    · rw [if_pos htargets, if_pos htargets, Option.map_some, Option.map_some,
        hg htargets.symm value padded hvalue]
    · rw [if_neg htargets, if_neg htargets]

end

section

variable {parameter parameter' : String} {pieces pieces' : List (List Char)}

theorem targetsOf_eq_getD (list : Option (List Char)) :
    targetsOf list = (list.map targetList).getD (.ok Target.all) := by
  cases list <;> rfl

theorem parse_of_respelled (h : Relation.EqvGen Respelled pieces pieces')
    (hcut : IsCut ',' parameter.toList pieces) (hcut' : IsCut ',' parameter'.toList pieces') :
    parse parameter' = parse parameter := by
  have hsame : pieces.filterMap (valueOf "log_level".toList) =
        pieces'.filterMap (valueOf "log_level".toList) ∧
      (pieces.filterMap (valueOf "targets".toList)).map targetList =
        (pieces'.filterMap (valueOf "targets".toList)).map targetList := by
    clear hcut hcut'
    induction h with
    | rel _ _ h =>
      constructor
      · have hlevels := h.map_values (g := id) (.inl rfl) (fun h => by simp at h)
        rwa [List.map_id, List.map_id] at hlevels
      · refine h.map_values (.inr rfl) fun _ value padded hpads => ?_
        rw [targetList_trim, targetList_trim, hpads.targetList_eq]
    | refl => exact ⟨rfl, rfl⟩
    | symm _ _ _ ih => exact ⟨ih.1.symm, ih.2.symm⟩
    | trans _ _ _ _ _ ih ih' => exact ⟨ih.1.trans ih'.1, ih.2.trans ih'.2⟩
  rw [parse_eq, parse_eq]
  simp only [value?_pairs, isCut_iff.mp hcut, isCut_iff.mp hcut', targetsOf_eq_getD,
    ← List.getLast?_map, hsame]

end

/-- The last level and the last list of targets of a parameter are its options, and what is wrong
with it is the first unknown name in that list. Pieces for other keys, the order of different keys
and blanks change nothing. -/
theorem parse_by_last_pairs (parameter : String) :
    ∃ pieces level list, IsCut ',' parameter.toList pieces ∧
      LastValue "log_level".toList pieces level ∧ LastValue "targets".toList pieces list ∧
      (∀ options, parse parameter = .ok options ↔
        options.logLevel = level.map String.ofList ∧ AsksFor list options.targets) ∧
      (∀ e, parse parameter = .error e ↔
        ∃ name, FirstUnknown list name ∧ e = .unknownTarget (String.ofList name)) ∧
      ∀ pieces' parameter', Relation.EqvGen Respelled pieces pieces' →
        IsCut ',' parameter'.toList pieces' → parse parameter' = parse parameter := by
  obtain ⟨pieces, level, list, hcut, hlevel, hlist⟩ := exists_lastValues parameter
  refine ⟨pieces, level, list, hcut, hlevel, hlist, fun options => ?_, fun e => ?_, ?_⟩
  · exact parse_eq_ok_iff hcut hlevel hlist
  · exact parse_eq_error_iff hcut hlevel hlist
  · exact fun pieces' parameter' h hcut' => parse_of_respelled h hcut hcut'

theorem parse_by_last_pairs_reordered :
    parse "targets= namespaced +class,log_level =debug=1" =
        parse "log_level=debug=1,constructor=x,targets=namespaced+class" ∧
      parse "log_level=debug=1,constructor=x,targets=namespaced+class" =
        .ok ⟨some "debug=1", [.namespaced, .classBased]⟩ := by
  refine ⟨?_, by decide +kernel⟩
  obtain ⟨pieces, level, list, hcut, _, _, _, _, hsame⟩ :=
    parse_by_last_pairs "log_level=debug=1,constructor=x,targets=namespaced+class"
  have hpieces : pieces = ["log_level".toList ++ '=' :: "debug=1".toList, "constructor=x".toList,
      "targets".toList ++ '=' :: "namespaced+class".toList] :=
    (isCut_iff.mp hcut).symm.trans (by decide +kernel)
  have hremoved : Relation.EqvGen Respelled pieces
      ["log_level".toList ++ '=' :: "debug=1".toList,
        "targets".toList ++ '=' :: "namespaced+class".toList] := by
    rw [hpieces]
    exact .symm _ _ (.rel _ _ (.insert [_] [_] (forall_isPair_iff.mpr (by decide +kernel))))
  have hswapped := hremoved.trans _ _ _ (.rel _ _ (.swap [] [] (by
    simp only [forall_isPair_iff, ← valueOf_eq_none_iff]
    decide +kernel)))
  have hparts : PadsParts "namespaced+class".toList " namespaced +class".toList := by
    refine ⟨["namespaced".toList, "class".toList], [" namespaced ".toList, "class".toList],
      isCut_iff.mpr (by decide +kernel), isCut_iff.mpr (by decide +kernel), ?_⟩
    exact .cons ⟨[' '], [' '], by decide +kernel, List.forall_mem_singleton.mpr rfl,
      List.forall_mem_singleton.mpr rfl⟩ (.cons (.refl _) .nil)
  have hlisted := hswapped.trans _ _ _ (.rel _ _ (.parts [] [_]
    (isTrimmed_iff.mpr (by decide +kernel)) hparts))
  have hblanks : Pads "log_level".toList "log_level ".toList :=
    ⟨[], [' '], by decide +kernel, List.forall_mem_nil _, List.forall_mem_singleton.mpr rfl⟩
  have hspaced := hlisted.trans _ _ _ (.rel _ _ (.blanks [_] [] (by decide) hblanks (.refl _)))
  exact hsame _ _ hspaced (isCut_iff.mpr (by decide +kernel))

end ProtoNaming.Options
