import Mathlib.Data.List.TakeWhile
import ProtoNaming.Text.Blank
import ProtoNaming.Text.Split

namespace ProtoNaming.Text

/-- The pieces have the separator between them and nowhere in them. -/
def IsCut (sep : Char) (cs : List Char) (pieces : List (List Char)) : Prop :=
  ∃ head rest, pieces = head :: rest ∧ head ++ rest.flatMap (sep :: ·) = cs ∧
    ∀ piece ∈ pieces, sep ∉ piece

/-- The text with blanks before and after it. -/
def Pads (cs padded : List Char) : Prop :=
  ∃ left right, padded = left ++ cs ++ right ∧ (∀ c ∈ left, isBlank c = true) ∧
    ∀ c ∈ right, isBlank c = true

/-- What is left of a text without the blanks at its ends. -/
structure IsTrimmed (cs core : List Char) : Prop where
  pads : Pads core cs
  head : ∀ c ∈ core.head?, isBlank c = false
  last : ∀ c ∈ core.getLast?, isBlank c = false

section

variable {sep : Char} {cs piece : List Char} {pieces : List (List Char)}

theorem not_mem_of_mem_splitOn (h : piece ∈ splitOn sep cs) : sep ∉ piece := by
  induction cs generalizing piece with
  | nil =>
    rw [List.mem_singleton.mp h]
    exact List.not_mem_nil
  | cons c cs ih =>
    rw [splitOn] at h
    split at h
    · rcases List.mem_cons.mp h with rfl | htail
      · exact List.not_mem_nil
      · exact ih htail
    · next hc =>
      obtain ⟨head, rest, hs⟩ := List.exists_cons_of_ne_nil (splitOn_ne_nil sep cs)
      rw [hs] at h ih
      rcases List.mem_cons.mp h with rfl | hrest
      · rw [List.mem_cons, not_or]
        exact ⟨Ne.symm hc, ih List.mem_cons_self⟩
      · exact ih (List.mem_cons_of_mem head hrest)

theorem splitOn_append_flatMap {head : List Char} {rest : List (List Char)}
    (h : ∀ piece ∈ head :: rest, sep ∉ piece) :
    splitOn sep (head ++ rest.flatMap (sep :: ·)) = head :: rest := by
  induction rest generalizing head with
  | nil =>
    rw [List.flatMap_nil, List.append_nil]
    exact splitOn_of_not_mem (h head List.mem_cons_self)
  | cons next rest ih =>
    obtain ⟨hhead, hrest⟩ := List.forall_mem_cons.mp h
    rw [List.flatMap_cons, List.cons_append, splitOn_append, splitOn_of_not_mem hhead, ih hrest]
    rfl

theorem isCut_iff : IsCut sep cs pieces ↔ splitOn sep cs = pieces := by
  constructor
  · rintro ⟨head, rest, rfl, rfl, hfree⟩
    exact splitOn_append_flatMap hfree
  · rintro rfl
    obtain ⟨head, rest, hs⟩ := List.exists_cons_of_ne_nil (splitOn_ne_nil sep cs)
    exact ⟨head, rest, hs, append_flatMap_of_splitOn hs, fun piece => not_mem_of_mem_splitOn⟩

theorem cutAt?_eq_some_iff {before after : List Char} :
    cutAt? sep cs = some (before, after) ↔ cs = before ++ sep :: after ∧ sep ∉ before := by
  induction cs generalizing before with
  | nil => simp [cutAt?]
  | cons c cs ih =>
    rw [cutAt?]
    split
    · next hc =>
      subst hc
      cases before with
      | nil => simp [eq_comm]
      | cons b before => simp +contextual [eq_comm]
    · next hc =>
      rw [Option.map_eq_some_iff]
      constructor
      · rintro ⟨⟨start, rest⟩, hcut, heq⟩
        cases heq
        obtain ⟨rfl, hfree⟩ := ih.mp hcut
        refine ⟨rfl, ?_⟩
        rw [List.mem_cons, not_or]
        exact ⟨Ne.symm hc, hfree⟩
      · rintro ⟨heq, hfree⟩
        cases before with
        | nil => exact absurd (List.cons.inj heq).1 hc
        | cons b before =>
          obtain ⟨rfl, htail⟩ := List.cons.inj heq
          rw [List.mem_cons, not_or] at hfree
          exact ⟨(before, after), ih.mpr ⟨htail, hfree.2⟩, rfl⟩

end

section

variable {cs core padded left right : List Char}

theorem trimLeft_append (h : ∀ c ∈ left, isBlank c = true) (cs : List Char) :
    trimLeft (left ++ cs) = trimLeft cs := List.dropWhile_append_of_pos h

theorem head_trimLeft (cs : List Char) : ∀ c ∈ (trimLeft cs).head?, isBlank c = false := by
  intro c hc
  have hnot := List.head?_dropWhile_not isBlank cs
  rw [← trimLeft, hc] at hnot
  exact hnot

theorem trimLeft_of_bare (h : ∀ c ∈ cs.head?, isBlank c = false) : trimLeft cs = cs := by
  cases cs with
  | nil => rfl
  | cons c cs => exact List.dropWhile_cons_of_neg (by simp [h c rfl])

theorem trim_append_right (h : ∀ c ∈ right, isBlank c = true) (cs : List Char) :
    trim (cs ++ right) = trim cs := by
  rw [trim, trim]
  by_cases hblank : trimLeft cs = []
  · have hall : trimLeft (cs ++ right) = [] := by
      rw [trimLeft, List.dropWhile_eq_nil_iff] at hblank ⊢
      exact List.forall_mem_append.mpr ⟨hblank, h⟩
    rw [hall, hblank]
  · have hkept : trimLeft (cs ++ right) = trimLeft cs ++ right := by
      rw [trimLeft, List.dropWhile_append, if_neg (by rwa [List.isEmpty_iff])]
      rfl
    have hright : ∀ c ∈ right.reverse, isBlank c = true := fun c hc => h c (List.mem_reverse.mp hc)
    rw [hkept, List.reverse_append, trimLeft_append hright]

theorem Pads.refl (cs : List Char) : Pads cs cs :=
  ⟨[], [], (List.append_nil cs).symm, List.forall_mem_nil _, List.forall_mem_nil _⟩

theorem Pads.trim_eq (h : Pads cs padded) : trim padded = trim cs := by
  obtain ⟨left, right, rfl, hleft, hright⟩ := h
  rw [trim_append_right hright, trim, trimLeft_append hleft, ← trim]

theorem exists_trimLeft (cs : List Char) :
    ∃ left, cs = left ++ trimLeft cs ∧ ∀ c ∈ left, isBlank c = true := by
  refine ⟨cs.takeWhile isBlank, List.takeWhile_append_dropWhile.symm, fun c hc => ?_⟩
  exact List.mem_takeWhile_imp hc

theorem isTrimmed_trim (cs : List Char) : IsTrimmed cs (trim cs) := by
  obtain ⟨left, hcs, hleft⟩ := exists_trimLeft cs
  obtain ⟨right, hrest, hright⟩ := exists_trimLeft (trimLeft cs).reverse
  have hcore : trimLeft cs = trim cs ++ right.reverse := by
    rw [trim, ← List.reverse_append, ← hrest, List.reverse_reverse]
  refine ⟨⟨left, right.reverse, ?_, hleft, ?_⟩, fun c hc => ?_, fun c hc => ?_⟩
  · rw [List.append_assoc, ← hcore, ← hcs]
  · exact fun c hc => hright c (List.mem_reverse.mp hc)
  · apply head_trimLeft cs c
    rw [hcore, List.head?_append, Option.mem_def.mp hc]
    rfl
  · rw [trim, List.getLast?_reverse] at hc
    exact head_trimLeft _ c hc

theorem trim_of_bare (hhead : ∀ c ∈ core.head?, isBlank c = false)
    (hlast : ∀ c ∈ core.getLast?, isBlank c = false) : trim core = core := by
  rw [trim, trimLeft_of_bare hhead, trimLeft_of_bare (by rwa [List.head?_reverse]),
    List.reverse_reverse]

theorem trim_trim (cs : List Char) : trim (trim cs) = trim cs :=
  trim_of_bare (isTrimmed_trim cs).head (isTrimmed_trim cs).last

theorem isTrimmed_iff : IsTrimmed cs core ↔ trim cs = core := by
  constructor
  · intro h
    rw [h.pads.trim_eq, trim_of_bare h.head h.last]
  · rintro rfl
    exact isTrimmed_trim cs

end

section

variable {sep : Char} {cs padded left right : List Char}

theorem splitOn_append_left (h : sep ∉ left) {head : List Char} {rest : List (List Char)}
    (hs : splitOn sep cs = head :: rest) : splitOn sep (left ++ cs) = (left ++ head) :: rest := by
  induction left with
  | nil => exact hs
  | cons c left ih =>
    rw [List.mem_cons, not_or] at h
    rw [List.cons_append, splitOn, if_neg (Ne.symm h.1), ih h.2]
    rfl

/-- What is put behind a text goes to its last piece. -/
theorem exists_last_of_splitOn (sep : Char) (cs : List Char) :
    ∃ earlier last, splitOn sep cs = earlier ++ [last] ∧
      ∀ right, sep ∉ right → splitOn sep (cs ++ right) = earlier ++ [last ++ right] := by
  induction cs with
  | nil => exact ⟨[], [], rfl, fun right h => splitOn_of_not_mem h⟩
  | cons c cs ih =>
    obtain ⟨earlier, last, hs, hright⟩ := ih
    by_cases hc : c = sep
    · refine ⟨[] :: earlier, last, ?_, fun right h => ?_⟩
      · rw [splitOn, if_pos hc, hs]
        rfl
      · rw [List.cons_append, splitOn, if_pos hc, hright right h]
        rfl
    · cases earlier with
      | nil =>
        refine ⟨[], c :: last, ?_, fun right h => ?_⟩
        · rw [splitOn, if_neg hc, hs]
          rfl
        · rw [List.cons_append, splitOn, if_neg hc, hright right h]
          rfl
      | cons head earlier =>
        refine ⟨(c :: head) :: earlier, last, ?_, fun right h => ?_⟩
        · rw [splitOn, if_neg hc, hs]
          rfl
        · rw [List.cons_append, splitOn, if_neg hc, hright right h]
          rfl

theorem not_mem_of_blank (hsep : isBlank sep = false) (h : ∀ c ∈ right, isBlank c = true) :
    sep ∉ right := by
  intro hmem
  rw [h sep hmem] at hsep
  cases hsep

theorem mem_iff_of_pads (hsep : isBlank sep = false) (h : Pads cs padded) :
    sep ∈ padded ↔ sep ∈ cs := by
  obtain ⟨left, right, rfl, hleft, hright⟩ := h
  simp [not_mem_of_blank hsep hleft, not_mem_of_blank hsep hright]

/-- Blanks around a text are lost when its pieces are trimmed. -/
theorem map_trim_splitOn_of_pads (hsep : isBlank sep = false) (h : Pads cs padded) :
    (splitOn sep padded).map trim = (splitOn sep cs).map trim := by
  obtain ⟨left, right, rfl, hleft, hright⟩ := h
  obtain ⟨head, rest, hs⟩ := List.exists_cons_of_ne_nil (splitOn_ne_nil sep cs)
  have hfront := splitOn_append_left (not_mem_of_blank hsep hleft) hs
  obtain ⟨earlier, last, hlast, hback⟩ := exists_last_of_splitOn sep (left ++ cs)
  have htrim : trim (left ++ head) = trim head :=
    Pads.trim_eq ⟨left, [], (List.append_nil _).symm, hleft, by simp⟩
  rw [hback right (not_mem_of_blank hsep hright), List.map_append, List.map_singleton,
    trim_append_right hright, ← List.map_singleton, ← List.map_append, ← hlast, hfront, hs,
    List.map_cons, List.map_cons, htrim]

end

end ProtoNaming.Text
