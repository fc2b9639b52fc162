import Mathlib.Data.Bool.AllAny
import Mathlib.Data.List.Basic
import ProtoNaming.Text.Case

namespace ProtoNaming.Text

/-- What is true of all ASCII characters can be tried out on each. -/
theorem forall_ascii (P : Char → Prop) (h : ∀ n : Fin 128, P (Char.ofNat n)) {c : Char}
    (hc : c.toNat < 128) : P c := by
  have hn := h ⟨c.toNat, hc⟩
  rwa [Char.ofNat_toNat] at hn

theorem toNat_lt_of_isLower {c : Char} (h : c.isLower = true) : c.toNat < 128 := by
  have hz : c.val ≤ 'z'.val := of_decide_eq_true (Bool.and_eq_true_iff.mp h).2
  exact Nat.lt_of_le_of_lt (UInt32.le_iff_toNat_le.mp hz) (by decide)

theorem toNat_lt_of_isDigit {c : Char} (h : c.isDigit = true) : c.toNat < 128 :=
  Nat.lt_of_le_of_lt (Char.isDigit_iff_toNat.mp h).2 (by decide)

theorem toNat_lt_of_isAlpha {c : Char} (h : c.isAlpha = true) : c.toNat < 128 := by
  rcases Bool.or_eq_true_iff.mp h with hu | hl
  · have hz : c.val ≤ 'Z'.val := (of_decide_eq_true hu).2
    exact Nat.lt_of_le_of_lt (UInt32.le_iff_toNat_le.mp hz) (by decide)
  · exact toNat_lt_of_isLower hl

theorem toNat_lt_of_isAlphanum {c : Char} (h : c.isAlphanum = true) : c.toNat < 128 :=
  (Bool.or_eq_true_iff.mp h).elim toNat_lt_of_isAlpha toNat_lt_of_isDigit

theorem isAlpha_ofNat {n : Nat} (h : 128 ≤ n) : (Char.ofNat n).isAlpha = false := by
  rw [← Bool.not_eq_true]
  intro hl
  have hlt := toNat_lt_of_isAlpha hl
  by_cases hv : n.isValidChar
  · rw [Char.ofNat, dif_pos hv] at hlt
    have hn : (Char.ofNatAux n hv).toNat = n := rfl
    omega
  · rw [Char.ofNat, dif_neg hv] at hl
    exact absurd hl (by decide)

theorem mapThrough_cases (runs : List CaseRun) (n : Nat) :
    mapThrough runs n = n ∨
      ∃ r ∈ runs, r.Covers n ∧ mapThrough runs n = (n + r.shift).toNat := by
  rw [mapThrough]
  split
  · next r hr =>
    exact .inr ⟨r, List.mem_of_find?_eq_some hr, by simpa using List.find?_some hr, rfl⟩
  · exact .inl rfl

/-- The Kelvin sign alone comes down to ASCII. -/
theorem mapThrough_lowerRuns {n : Nat} (h : 128 ≤ n) :
    128 ≤ mapThrough lowerRuns n ∨ mapThrough lowerRuns n = 'k'.toNat := by
  have htable : ∀ r ∈ lowerRuns, 128 ≤ r.first + r.shift ∨
      r.first = 0x212A ∧ r.last = 0x212A := by decide +kernel
  rcases mapThrough_cases lowerRuns n with hsame | ⟨r, hr, ⟨hfirst, hlast, _⟩, hmap⟩
  · omega
  · rcases htable r hr with hhigh | hkelvin
    · omega
    · obtain rfl : n = 0x212A := by omega
      exact .inr (by decide)

/-- The dotless i and the long s alone go up to single ASCII letters. -/
theorem mapThrough_upperRuns {n : Nat} (h : 128 ≤ n) :
    128 ≤ mapThrough upperRuns n ∨ mapThrough upperRuns n = 'I'.toNat ∨
      mapThrough upperRuns n = 'S'.toNat := by
  have htable : ∀ r ∈ upperRuns, 128 ≤ r.first + r.shift ∨
      r.first = r.last ∧ (r.first = 0x131 ∨ r.first = 0x17F) := by decide +kernel
  rcases mapThrough_cases upperRuns n with hsame | ⟨r, hr, ⟨hfirst, hlast, _⟩, hmap⟩
  · omega
  · rcases htable r hr with hhigh | ⟨hone, hdotless | hlong⟩
    · omega
    · obtain rfl : n = 0x131 := by omega
      exact .inr (.inl (by decide))
    · obtain rfl : n = 0x17F := by omega
      exact .inr (.inr (by decide))

variable {c : Char} {cs : List Char}

theorem lowerChar_cases (h : 128 ≤ c.toNat) :
    lowerChar c = ['i', Char.ofNat 0x307] ∨
      ∃ d, lowerChar c = [d] ∧ (d = 'k' ∨ d.isAlpha = false) := by
  rw [lowerChar, if_neg (by omega)]
  by_cases hi : c = 'İ'
  · exact .inl (if_pos hi)
  · rw [if_neg hi]
    refine .inr ⟨_, rfl, ?_⟩
    rcases mapThrough_lowerRuns h with hhigh | hk
    · exact .inr (isAlpha_ofNat hhigh)
    · exact .inl (by rw [hk]; rfl)

theorem upperChar_cases (h : 128 ≤ c.toNat) :
    (∃ ns, (c.toNat, ns) ∈ upperExpansions ∧ upperChar c = ns.map Char.ofNat) ∨
      ∃ d, upperChar c = [d] ∧ (d = 'I' ∨ d = 'S' ∨ d.isAlpha = false) := by
  rw [upperChar, if_neg (by omega)]
  split
  · next ns hns =>
    obtain ⟨before, after, hall, _⟩ := List.lookup_eq_some_iff.mp hns
    rw [hall]
    exact .inl ⟨ns, List.mem_append_right _ List.mem_cons_self, rfl⟩
  · refine .inr ⟨_, rfl, ?_⟩
    rcases mapThrough_upperRuns h with hhigh | hi | hs
    · exact .inr (.inr (isAlpha_ofNat hhigh))
    · exact .inl (by rw [hi]; rfl)
    · exact .inr (.inl (by rw [hs]; rfl))

theorem not_isUpper_of_not_isAlpha (h : c.isAlpha = false) : c.isUpper = false :=
  (Bool.or_eq_false_iff.mp h).1

theorem not_isLower_of_not_isAlpha (h : c.isAlpha = false) : c.isLower = false :=
  (Bool.or_eq_false_iff.mp h).2

theorem not_isUpper_of_mem_lowerChar {d : Char} (hd : d ∈ lowerChar c) : d.isUpper = false := by
  by_cases h : c.toNat < 128
  · rw [lowerChar_of_ascii h, List.mem_singleton] at hd
    rw [hd]
    exact forall_ascii (fun c => c.toLower.isUpper = false) (by decide) h
  · rcases lowerChar_cases (Nat.le_of_not_lt h) with hi | ⟨e, he, hk⟩
    · have hdotted : ∀ d ∈ ['i', Char.ofNat 0x307], d.isUpper = false :=
        List.all_iff_forall_prop.mp (by decide)
      exact hdotted d (hi ▸ hd)
    · rw [he, List.mem_singleton] at hd
      rw [hd]
      rcases hk with rfl | hk
      · rfl
      · exact not_isUpper_of_not_isAlpha hk

theorem not_isUpper_of_mem_lowerFrom {inWord : Bool} (h : c ∈ lowerFrom inWord cs) :
    c.isUpper = false := by
  induction cs generalizing inWord with
  | nil => cases h
  | cons d cs ih =>
    rw [lowerFrom, List.mem_append] at h
    rcases h with h | h
    · split at h
      · rw [List.mem_singleton] at h
        rw [h]
        split <;> rfl
      · exact not_isUpper_of_mem_lowerChar h
    · exact ih h

theorem not_isLower_of_mem_upperChar {d : Char} (hd : d ∈ upperChar c) : d.isLower = false := by
  have htable : ∀ e ∈ upperExpansions, ∀ n ∈ e.2, (Char.ofNat n).isLower = false := by
    decide +kernel
  by_cases h : c.toNat < 128
  · rw [upperChar_of_ascii h, List.mem_singleton] at hd
    rw [hd]
    exact forall_ascii (fun c => c.toUpper.isLower = false) (by decide) h
  · rcases upperChar_cases (Nat.le_of_not_lt h) with ⟨ns, hns, hup⟩ | ⟨e, he, hk⟩
    · rw [hup] at hd
      obtain ⟨n, hn, rfl⟩ := List.mem_map.mp hd
      exact htable _ hns n hn
    · rw [he, List.mem_singleton] at hd
      rw [hd]
      rcases hk with rfl | rfl | hk
      · rfl
      · rfl
      · exact not_isLower_of_not_isAlpha hk

theorem upperChar_ne_nil (c : Char) : upperChar c ≠ [] := by
  have htable : ∀ e ∈ upperExpansions, e.2 ≠ [] := by decide +kernel
  by_cases h : c.toNat < 128
  · rw [upperChar_of_ascii h]
    exact List.cons_ne_nil _ _
  · rcases upperChar_cases (Nat.le_of_not_lt h) with ⟨ns, hns, hup⟩ | ⟨e, he, _⟩
    · rw [hup, ne_eq, List.map_eq_nil_iff]
      exact htable _ hns
    · rw [he]
      exact List.cons_ne_nil _ _

/-- Two ligatures end in a capital L besides the letter itself. -/
theorem getLast?_upperChar_eq_iff :
    (upperChar c).getLast? = some 'L' ↔ c ∈ ['l', 'L', 'ﬂ', 'ﬄ'] := by
  have htable : ∀ e ∈ upperExpansions, (e.2.map Char.ofNat).getLast? = some 'L' →
      Char.ofNat e.1 ∈ ['l', 'L', 'ﬂ', 'ﬄ'] := by
    decide +kernel
  constructor
  · intro hlast
    by_cases h : c.toNat < 128
    · rw [upperChar_of_ascii h] at hlast
      exact forall_ascii (fun c => [c.toUpper].getLast? = some 'L' → c ∈ ['l', 'L', 'ﬂ', 'ﬄ'])
        (by decide) h hlast
    · rcases upperChar_cases (Nat.le_of_not_lt h) with ⟨ns, hns, hup⟩ | ⟨e, he, hk⟩
      · rw [hup] at hlast
        have hc := htable _ hns hlast
        rwa [Char.ofNat_toNat] at hc
      · rw [he] at hlast
        obtain rfl : e = 'L' := Option.some.inj hlast
        exact absurd hk (by decide)
  · have hall : ∀ c ∈ ['l', 'L', 'ﬂ', 'ﬄ'], (upperChar c).getLast? = some 'L' :=
      List.all_iff_forall_prop.mp (by decide +kernel)
    exact hall c

theorem lowerChar_eq_of_isLower (h : ∀ d ∈ lowerChar c, d.isLower = true ∧ d ≠ 'k') :
    lowerChar c = [c.toLower] := by
  by_cases hc : c.toNat < 128
  · exact lowerChar_of_ascii hc
  · rcases lowerChar_cases (Nat.le_of_not_lt hc) with hi | ⟨d, hd, hk⟩
    · rw [hi] at h
      exact absurd (h (Char.ofNat 0x307) (by decide)).1 (by decide)
    · obtain ⟨hl, hne⟩ := h d (by rw [hd]; exact List.mem_cons_self)
      rcases hk with hk | hk
      · exact absurd hk hne
      · rw [not_isLower_of_not_isAlpha hk] at hl
        cases hl

/-- A word of small ASCII letters comes from such letters and capitals, if `k` is not in it. -/
theorem map_toLower_of_lowerFrom {inWord : Bool} {word : List Char}
    (hword : ∀ d ∈ word, d.isLower = true ∧ d ≠ 'k') (h : lowerFrom inWord cs = word) :
    cs.map Char.toLower = word := by
  induction cs generalizing inWord word with
  | nil => exact h
  | cons c cs ih =>
    rw [lowerFrom] at h
    subst h
    obtain ⟨hhead, htail⟩ := List.forall_mem_append.mp hword
    rw [List.map_cons, ih htail rfl]
    by_cases hs : c = 'Σ'
    · rw [if_pos hs] at hhead
      have hsigma := (hhead _ List.mem_cons_self).1
      split at hsigma <;> cases hsigma
    · rw [if_neg hs] at hhead ⊢
      rw [lowerChar_eq_of_isLower hhead, List.singleton_append]

end ProtoNaming.Text
