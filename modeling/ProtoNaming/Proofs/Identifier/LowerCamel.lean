import ProtoNaming.Identifier
import ProtoNaming.Proofs.Text.Case

namespace ProtoNaming

namespace Identifier

open Text

/-- A lower-case letter or a digit. -/
def IsPlain (c : Char) : Prop := c.isLower = true ∨ c.isDigit = true

instance (c : Char) : Decidable (IsPlain c) := inferInstanceAs (Decidable (_ ∨ _))

/-- A lower-case letter, then lower-case letters and digits. -/
def IsSegment : List Char → Prop
  | [] => False
  | c :: cs => c.isLower = true ∧ ∀ d ∈ cs, IsPlain d

instance : DecidablePred IsSegment
  | [] => inferInstanceAs (Decidable False)
  | c :: cs => decidable_of_iff (c.isLower = true ∧ (cs.all fun d => decide (IsPlain d)) = true)
      (and_congr_right' List.all_iff_forall_prop)

/-- Segments with one underscore between two of them. -/
def IsSnakeCase (name : String) : Prop := ∀ s ∈ splitOn '_' name.toList, IsSegment s

instance (name : String) : Decidable (IsSnakeCase name) :=
  inferInstanceAs (Decidable (∀ s ∈ splitOn '_' name.toList, IsSegment s))

/-- Words of lower-case letters with one underscore between two of them. -/
def IsWords (name : String) : Prop :=
  ∀ s ∈ splitOn '_' name.toList, s ≠ [] ∧ s.all Char.isLower = true

instance (name : String) : Decidable (IsWords name) :=
  inferInstanceAs (Decidable (∀ s ∈ splitOn '_' name.toList, s ≠ [] ∧ s.all Char.isLower = true))

theorem IsWords.isSnakeCase {name : String} (h : IsWords name) : IsSnakeCase name := by
  intro s hs
  obtain ⟨hne, hlower⟩ := h s hs
  cases s with
  | nil => exact absurd rfl hne
  | cons c cs =>
    obtain ⟨hc, hcs⟩ := List.forall_mem_cons.mp (List.all_eq_true.mp hlower)
    exact ⟨hc, fun d hd => .inl (hcs d hd)⟩

/-- An underscore and the lower-case letter in place of each capital. -/
def uncamel (cs : List Char) : List Char :=
  cs.flatMap fun c => if c.isUpper then ['_', c.toLower] else [c]

theorem lowerCamelChars_of_splitOn {cs head : List Char} {rest : List (List Char)}
    (h : splitOn '_' cs = head :: rest) :
    lowerCamelChars cs = lower head ++ rest.flatMap capitalized := by
  rw [lowerCamelChars, h]

theorem uncamel_append (cs ds : List Char) : uncamel (cs ++ ds) = uncamel cs ++ uncamel ds :=
  List.flatMap_append

section

variable {c : Char} {cs : List Char}

theorem IsPlain.toNat_lt (h : IsPlain c) : c.toNat < 128 :=
  h.elim toNat_lt_of_isLower toNat_lt_of_isDigit

theorem IsPlain.toLower_eq (h : IsPlain c) : c.toLower = c := by
  exact forall_ascii (fun c => IsPlain c → c.toLower = c) (by decide) h.toNat_lt h

theorem IsPlain.not_isUpper (h : IsPlain c) : c.isUpper = false := by
  exact forall_ascii (fun c => IsPlain c → c.isUpper = false) (by decide) h.toNat_lt h

theorem IsPlain.isAlpha_eq (h : IsPlain c) : c.isAlpha = !c.isDigit := by
  exact forall_ascii (fun c => IsPlain c → c.isAlpha = !c.isDigit) (by decide) h.toNat_lt h

theorem IsPlain.isAlphanum (h : IsPlain c) : c.isAlphanum = true := by
  rw [Char.isAlphanum, h.isAlpha_eq]
  cases c.isDigit <;> rfl

theorem IsPlain.ne_underscore (h : IsPlain c) : c ≠ '_' := by
  rintro rfl
  exact absurd h (by decide)

theorem IsPlain.toUpper_eq_iff (h : IsPlain c) : c.toUpper = c ↔ c.isAlpha = false := by
  exact forall_ascii (fun c => IsPlain c → (c.toUpper = c ↔ c.isAlpha = false)) (by decide)
    h.toNat_lt h

theorem isUpper_toUpper (h : c.isLower = true) :
    c.toUpper.isUpper = true ∧ c.toUpper.toLower = c := by
  exact forall_ascii
    (fun c => c.isLower = true → c.toUpper.isUpper = true ∧ c.toUpper.toLower = c)
    (by decide) (toNat_lt_of_isLower h) h

theorem lower_of_plain (h : ∀ c ∈ cs, IsPlain c) : lower cs = cs := by
  rw [lower_of_ascii fun c hc => (h c hc).toNat_lt]
  exact (List.map_congr_left fun c hc => (h c hc).toLower_eq).trans (List.map_id cs)

theorem uncamel_of_plain (h : ∀ c ∈ cs, IsPlain c) : uncamel cs = cs := by
  induction cs with
  | nil => rfl
  | cons c cs ih =>
    obtain ⟨hc, hcs⟩ := List.forall_mem_cons.mp h
    have htail : uncamel cs = cs := ih hcs
    rw [uncamel, List.flatMap_cons, hc.not_isUpper, ← uncamel, htail]
    rfl

theorem IsSegment.plain (h : IsSegment cs) : ∀ c ∈ cs, IsPlain c := by
  cases cs with
  | nil => cases h
  | cons c cs => exact List.forall_mem_cons.mpr ⟨.inl h.1, h.2⟩

theorem capitalized_cons (h : c.toNat < 128) : capitalized (c :: cs) = c.toUpper :: lower cs := by
  have hsmall : c.toNat < 0x10000 := Nat.lt_trans h (by decide)
  rw [capitalized, if_pos hsmall, upperChar_of_ascii h]
  rfl

/-- The capital of a segment tells that an underscore stood before it. -/
theorem uncamel_capitalized (h : IsSegment cs) : uncamel (capitalized cs) = '_' :: cs := by
  cases cs with
  | nil => cases h
  | cons c cs =>
    obtain ⟨hc, hcs⟩ := h
    obtain ⟨hup, hback⟩ := isUpper_toUpper hc
    rw [capitalized_cons (toNat_lt_of_isLower hc), lower_of_plain hcs, uncamel, List.flatMap_cons,
      if_pos hup, hback, ← uncamel, uncamel_of_plain hcs]
    rfl

theorem uncamel_flatMap_capitalized {segments : List (List Char)}
    (h : ∀ s ∈ segments, IsSegment s) :
    uncamel (segments.flatMap capitalized) = segments.flatMap ('_' :: ·) := by
  rw [uncamel, List.flatMap_assoc]
  exact List.flatMap_congr fun s hs => uncamel_capitalized (h s hs)

end

variable {name name' : String}

theorem IsSnakeCase.uncamel_lowerCamel (h : IsSnakeCase name) :
    uncamel (lowerCamel name).toList = name.toList := by
  obtain ⟨head, rest, hs⟩ := List.exists_cons_of_ne_nil (splitOn_ne_nil '_' name.toList)
  rw [IsSnakeCase, hs] at h
  obtain ⟨hhead, hrest⟩ := List.forall_mem_cons.mp h
  rw [lowerCamel, String.toList_ofList, lowerCamelChars_of_splitOn hs, lower_of_plain hhead.plain,
    uncamel_append, uncamel_of_plain hhead.plain, uncamel_flatMap_capitalized hrest,
    append_flatMap_of_splitOn hs]

theorem IsSnakeCase.lowerCamel_inj (h : IsSnakeCase name) (h' : IsSnakeCase name') :
    lowerCamel name = lowerCamel name' ↔ name = name' := by
  refine ⟨fun he => ?_, fun he => by rw [he]⟩
  rw [← String.toList_inj, ← h.uncamel_lowerCamel, he, h'.uncamel_lowerCamel]

theorem IsSnakeCase.plain_or_underscore (h : IsSnakeCase name) :
    ∀ c ∈ name.toList, IsPlain c ∨ c = '_' := by
  obtain ⟨head, rest, hs⟩ := List.exists_cons_of_ne_nil (splitOn_ne_nil '_' name.toList)
  rw [IsSnakeCase, hs] at h
  obtain ⟨hhead, hrest⟩ := List.forall_mem_cons.mp h
  intro c hc
  rw [← append_flatMap_of_splitOn hs, List.mem_append, List.mem_flatMap] at hc
  rcases hc with hc | ⟨s, hsrest, hc⟩
  · exact .inl (hhead.plain c hc)
  · rcases List.mem_cons.mp hc with rfl | hc
    · exact .inr rfl
    · exact .inl ((hrest s hsrest).plain c hc)

theorem IsSnakeCase.dot_not_mem_lowerCamel (h : IsSnakeCase name) :
    '.' ∉ (lowerCamel name).toList := by
  intro hdot
  have hmem : '.' ∈ uncamel (lowerCamel name).toList :=
    List.mem_flatMap.mpr ⟨'.', hdot, List.mem_singleton.mpr rfl⟩
  rw [h.uncamel_lowerCamel] at hmem
  exact absurd (h.plain_or_underscore '.' hmem) (by decide)

end Identifier

end ProtoNaming
