namespace ProtoNaming.Text

/-- The pieces between the separators; a text without one is its own single piece. -/
def splitOn (sep : Char) : List Char → List (List Char)
  | [] => [[]]
  | c :: cs => if c = sep then [] :: splitOn sep cs else (splitOn sep cs).modifyHead (c :: ·)

theorem splitOn_ne_nil (sep : Char) (cs : List Char) : splitOn sep cs ≠ [] := by
  induction cs with
  | nil => simp [splitOn]
  | cons c cs ih =>
    unfold splitOn
    split
    · simp
    · simpa [List.modifyHead_eq_nil_iff] using ih

theorem append_flatMap_of_splitOn {sep : Char} {cs head : List Char} {rest : List (List Char)}
    (h : splitOn sep cs = head :: rest) : head ++ rest.flatMap (sep :: ·) = cs := by
  induction cs generalizing head rest with
  | nil =>
    cases h
    rfl
  | cons c cs ih =>
    obtain ⟨head', rest', hcs⟩ := List.exists_cons_of_ne_nil (splitOn_ne_nil sep cs)
    have hjoined := ih hcs
    rw [splitOn, hcs] at h
    split at h
    · next hc =>
      cases h
      rw [hc, ← hjoined]
      rfl
    · cases h
      rw [← hjoined]
      rfl

theorem splitOn_append (sep : Char) (before after : List Char) :
    splitOn sep (before ++ sep :: after) = splitOn sep before ++ splitOn sep after := by
  induction before with
  | nil => simp [splitOn]
  | cons c cs ih =>
    obtain ⟨head, rest, hs⟩ := List.exists_cons_of_ne_nil (splitOn_ne_nil sep cs)
    rw [List.cons_append, splitOn, splitOn, ih, hs]
    split <;> rfl

theorem splitOn_of_not_mem {sep : Char} {cs : List Char} (h : sep ∉ cs) :
    splitOn sep cs = [cs] := by
  induction cs with
  | nil => rfl
  | cons c cs ih =>
    rw [List.mem_cons, not_or] at h
    rw [splitOn, if_neg (Ne.symm h.1), ih h.2]
    rfl

def cutAt? (sep : Char) : List Char → Option (List Char × List Char)
  | [] => none
  | c :: cs =>
    if c = sep then some ([], cs)
    else (cutAt? sep cs).map fun (before, after) => (c :: before, after)

def afterLast (sep : Char) (cs : List Char) : List Char :=
  (cs.reverse.takeWhile (· != sep)).reverse

/-- The text up to and including the last separator; nothing if there is none. -/
def throughLast (sep : Char) (cs : List Char) : List Char :=
  (cs.reverse.dropWhile (· != sep)).reverse

theorem throughLast_append_afterLast (sep : Char) (cs : List Char) :
    throughLast sep cs ++ afterLast sep cs = cs := by
  rw [throughLast, afterLast, ← List.reverse_append, List.takeWhile_append_dropWhile,
    List.reverse_reverse]

theorem not_mem_afterLast (sep : Char) (cs : List Char) : sep ∉ afterLast sep cs := by
  intro hmem
  rw [afterLast, List.mem_reverse] at hmem
  have hsep := List.all_eq_true.mp List.all_takeWhile sep hmem
  exact absurd hsep (by simp)

theorem throughLast_cases (sep : Char) (cs : List Char) :
    throughLast sep cs = [] ∨ ∃ before, throughLast sep cs = before ++ [sep] := by
  rw [throughLast]
  cases h : cs.reverse.dropWhile (· != sep) with
  | nil => exact .inl rfl
  | cons c before =>
    have hc := List.head?_dropWhile_not (· != sep) cs.reverse
    rw [h] at hc
    obtain rfl : c = sep := by simpa using hc
    exact .inr ⟨before.reverse, List.reverse_cons⟩

theorem afterLast_append {sep : Char} {after : List Char} (h : sep ∉ after) (before : List Char) :
    afterLast sep (before ++ sep :: after) = after := by
  have hafter : ∀ c ∈ after.reverse, (c != sep) = true := by
    intro c hc
    rw [List.mem_reverse] at hc
    exact bne_iff_ne.mpr fun he => h (he ▸ hc)
  have hstop : (sep :: before.reverse).takeWhile (· != sep) = [] :=
    List.takeWhile_cons_of_neg (by simp)
  rw [afterLast, List.reverse_append, List.reverse_cons, List.append_assoc, List.singleton_append,
    List.takeWhile_append_of_pos hafter, hstop, List.append_nil, List.reverse_reverse]

end ProtoNaming.Text
