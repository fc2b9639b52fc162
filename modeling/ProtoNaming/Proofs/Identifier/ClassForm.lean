import Mathlib
import ProtoNaming.Proofs.Identifier.Neighbours

namespace ProtoNaming

namespace Text

variable {c d : Char}

theorem eq_of_toLower_eq (h : c.toLower = d.toLower) (hu : c.isUpper = true ↔ d.isUpper = true) :
    c = d := by
  by_cases hc : c.isUpper = true
  · calc
      c = c.toUpper := (Char.toUpper_eq_of_not_isLower (Char.not_isLower_of_isUpper hc)).symm
      _ = c.toLower.toUpper := (Char.toUpper_toLower_eq_toUpper c).symm
      _ = d.toLower.toUpper := by rw [h]
      _ = d.toUpper := Char.toUpper_toLower_eq_toUpper d
      _ = d := Char.toUpper_eq_of_not_isLower (Char.not_isLower_of_isUpper (hu.mp hc))
  · have hd : ¬d.isUpper = true := fun hd => hc (hu.mpr hd)
    rwa [Char.toLower_eq_of_not_isUpper hc, Char.toLower_eq_of_not_isUpper hd] at h

theorem cases_of_isDigit (h : c.isDigit = true) : c.toUpper = c ∧ c.toLower = c :=
  forall_ascii (fun c => c.isDigit = true → c.toUpper = c ∧ c.toLower = c) (by decide)
    (toNat_lt_of_isDigit h) h

theorem isAlphanum_toUpper (h : c.isAlphanum = true) : c.toUpper.isAlphanum = true := by
  rcases Bool.or_eq_true_iff.mp h with halpha | hdigit
  · rw [Char.isAlphanum, Char.isAlpha_toUpper_eq_isAlpha, halpha, Bool.true_or]
  · rwa [(cases_of_isDigit hdigit).1]

end Text

namespace Identifier

open Text

/-- What a letter or digit of a text becomes in its class form, by the character before it. -/
structure IsClassForm (capitalizeFirst : Bool) (p : Option Char × Char) (d : Char) : Prop where
  same : d.toLower = p.2.toLower
  digit : p.2.isDigit = true → d = p.2
  capital : p.2.isAlpha = true → (d.isUpper = true ↔
    p.2.isUpper = true ∧ ¬(p.1 = none ∧ capitalizeFirst = false) ∨
    p.2.isLower = true ∧ (∃ b, p.1 = some b ∧ b.isAlpha = false) ∨
    p.2.isLower = true ∧ p.1 = none ∧ capitalizeFirst = true)

section

variable {capitalizeFirst : Bool} {p : Option Char × Char} {c d e : Char}

theorem IsClassForm.unique (hp : p.2.isAlphanum = true) (hd : IsClassForm capitalizeFirst p d)
    (he : IsClassForm capitalizeFirst p e) : d = e := by
  rcases Bool.or_eq_true_iff.mp hp with halpha | hdigit
  · exact eq_of_toLower_eq (hd.same.trans he.same.symm)
      ((hd.capital halpha).trans (he.capital halpha).symm)
  · rw [hd.digit hdigit, he.digit hdigit]

theorem isClassForm_classLetter (p : Option Char × Char) :
    IsClassForm capitalizeFirst p (classLetter capitalizeFirst p) := by
  obtain ⟨previous, c⟩ := p
  have hup := Char.toLower_toUpper_eq_toLower c
  have hcase : c.isAlpha = true → c.isUpper = true ∨ c.isLower = true := Bool.or_eq_true_iff.mp
  cases previous with
  | none =>
    cases capitalizeFirst with
    | false =>
      refine ⟨Char.toLower_toLower_eq_toLower c, fun hd => (cases_of_isDigit hd).2, fun _ => ?_⟩
      simp [classLetter]
    | true =>
      refine ⟨hup, fun hd => (cases_of_isDigit hd).1, fun ha => ?_⟩
      simpa [classLetter, ha] using hcase ha
  | some b =>
    cases hb : b.isAlpha with
    | true =>
      rw [classLetter, if_pos hb]
      refine ⟨rfl, fun _ => rfl, fun _ => ?_⟩
      simp [hb]
    | false =>
      rw [classLetter, if_neg (by simp [hb])]
      refine ⟨hup, fun hd => (cases_of_isDigit hd).1, fun ha => ?_⟩
      simpa [hb, ha] using hcase ha

theorem isClassForm_iff (hp : p.2.isAlphanum = true) :
    IsClassForm capitalizeFirst p d ↔ classLetter capitalizeFirst p = d := by
  constructor
  · exact fun hd => (isClassForm_classLetter p).unique hp hd
  · rintro rfl
    exact isClassForm_classLetter p

end

/-- A second conversion changes nothing that the first one gave. It may have forgotten to capitalise
what comes next where the first one left something out. -/
theorem camelFrom_camelFrom {capital again : Bool} (h : again = true → capital = true)
    (cs : List Char) :
    camelFrom false again (camelFrom false capital cs) = camelFrom false capital cs := by
  induction cs generalizing capital again with
  | nil => rfl
  | cons c cs ih =>
    rw [camelFrom_cons (.inl rfl)]
    by_cases hc : c.isAlphanum = true
    · have hkept := isAlphanum_toUpper hc
      have hagain : camelFrom false (!c.isAlpha) (camelFrom false (!c.isAlpha) cs) =
          camelFrom false (!c.isAlpha) cs := ih id
      rw [if_pos hc, List.singleton_append, camelFrom_cons (.inl rfl)]
      cases capital with
      | true => simp [hkept, hagain]
      | false =>
        obtain rfl : again = false := by simpa using h
        simp [hc, hagain]
    · have hother : c.isAlpha = false := by
        rw [← Bool.not_eq_true]
        exact fun ha => hc (Bool.or_eq_true_iff.mpr (.inl ha))
      rw [if_neg hc, List.nil_append, hother]
      exact ih fun _ => rfl

/-- The class form of a text has its letters and digits, each in the case that the character before
it tells, and no other text does. With a capital at the head it is its own class form. -/
theorem classCamel_letter_by_letter (name : String) :
    (∀ capitalizeFirst result, result = classCamel name capitalizeFirst ↔
      List.Forall₂ (IsClassForm capitalizeFirst)
        ((withPrevious none name.toList).filter (·.2.isAlphanum)) result.toList) ∧
    classCamel (classCamel name true) true = classCamel name true := by
  refine ⟨fun capitalizeFirst result => ?_, ?_⟩
  · rw [← String.toList_inj, toList_classCamel, eq_comm, ← List.forall₂_eq_eq_eq,
      List.forall₂_map_left_iff, List.forall₂_iff_zip, List.forall₂_iff_zip]
    refine and_congr_right fun _ => forall₂_congr fun p d => forall_congr' fun hz => ?_
    have hp := (List.mem_filter.mp (List.of_mem_zip hz).1).2
    exact (isClassForm_iff hp).symm
  · rw [classCamel, classCamel, String.toList_ofList]
    exact congrArg String.ofList (camelFrom_camelFrom id name.toList)

end Identifier

end ProtoNaming
