import Mathlib
import ProtoNaming.Proofs.Identifier.LowerCamel

namespace ProtoNaming

namespace Identifier

open Text

/-- Each character with the one before it; what is before the first is given. -/
def withPrevious (previous : Option Char) (cs : List Char) : List (Option Char × Char) :=
  (previous :: cs.map some).zip cs

/-- Upper case right after an underscore, lower case elsewhere. -/
def camelLetter : Option Char × Char → Char
  | (previous, c) => if previous = some '_' then c.toUpper else c.toLower

/-- Upper case right after what is no letter and unchanged elsewhere; the first is either. -/
def classLetter (capitalizeFirst : Bool) : Option Char × Char → Char
  | (none, c) => if capitalizeFirst then c.toUpper else c.toLower
  | (some b, c) => if b.isAlpha then c else c.toUpper

section

variable {previous : Option Char} {c : Char} {cs : List Char}

@[simp] theorem withPrevious_nil : withPrevious previous [] = [] := rfl

@[simp] theorem withPrevious_cons :
    withPrevious previous (c :: cs) = (previous, c) :: withPrevious (some c) cs := rfl

theorem map_snd_withPrevious : (withPrevious previous cs).map (·.2) = cs := by
  induction cs generalizing previous with
  | nil => rfl
  | cons c cs ih => rw [withPrevious_cons, List.map_cons, ih]

theorem mem_of_mem_withPrevious {p : Option Char × Char} (h : p ∈ withPrevious none cs) :
    p.2 ∈ cs ∧ ∀ b, p.1 = some b → b ∈ cs := by
  rw [withPrevious] at h
  obtain ⟨hprevious, hc⟩ := List.of_mem_zip h
  refine ⟨hc, fun b hb => ?_⟩
  rw [hb, List.mem_cons] at hprevious
  rcases hprevious with hnone | hmem
  · cases hnone
  · simpa using hmem

theorem isChain_iff_forall_mem_withPrevious {R : Char → Char → Prop} :
    cs.IsChain R ↔ ∀ p ∈ withPrevious none cs, ∀ b, p.1 = some b → R b p.2 := by
  have hcons (b : Char) (cs : List Char) :
      (b :: cs).IsChain R ↔ ∀ p ∈ withPrevious (some b) cs, ∀ b', p.1 = some b' → R b' p.2 := by
    induction cs generalizing b with
    | nil => simp
    | cons c cs ih => simp [ih]
  cases cs with
  | nil => simp
  | cons c cs => simp [hcons]

theorem flatMap_capitalized_underscores (n : Nat) (cs : List Char) :
    (splitOn '_' (List.replicate n '_' ++ cs)).flatMap capitalized =
      (splitOn '_' cs).flatMap capitalized := by
  induction n with
  | zero => rfl
  | succ n ih =>
    rw [List.replicate_succ, List.cons_append, splitOn, if_pos rfl, List.flatMap_cons, ih]
    rfl

/-- Underscores in a row count as one. -/
theorem lowerCamelChars_underscores (before after : List Char) (n : Nat) :
    lowerCamelChars (before ++ List.replicate (n + 1) '_' ++ after) =
      lowerCamelChars before ++ (splitOn '_' after).flatMap capitalized := by
  obtain ⟨head, rest, hs⟩ := List.exists_cons_of_ne_nil (splitOn_ne_nil '_' before)
  have hall := splitOn_append '_' before (List.replicate n '_' ++ after)
  rw [hs, List.cons_append] at hall
  rw [List.replicate_succ, List.append_assoc, List.cons_append, lowerCamelChars_of_splitOn hall,
    lowerCamelChars_of_splitOn hs, List.flatMap_append, flatMap_capitalized_underscores,
    List.append_assoc]

theorem lowerCamelChars_append_underscores (cs : List Char) (n : Nat) :
    lowerCamelChars (cs ++ List.replicate n '_') = lowerCamelChars cs := by
  cases n with
  | zero => rw [List.replicate_zero, List.append_nil]
  | succ n =>
    have hall := lowerCamelChars_underscores cs [] n
    rw [List.append_nil] at hall
    rw [hall]
    exact List.append_nil _

theorem lower_cons (h : ∀ d ∈ c :: cs, d.toNat < 128) :
    lower (c :: cs) = c.toLower :: lower cs := by
  rw [lower_of_ascii h, lower_of_ascii (List.forall_mem_cons.mp h).2, List.map_cons]

/-- What becomes of a text after `previous` in lower camel case, its first segment being capitalised
if an underscore is before it. -/
theorem camel_segments (h : ∀ c ∈ cs, c.toNat < 128) {head : List Char} {rest : List (List Char)}
    (hs : splitOn '_' cs = head :: rest) :
    (if previous = some '_' then capitalized head else lower head) ++ rest.flatMap capitalized =
      ((withPrevious previous cs).filter (·.2 ≠ '_')).map camelLetter := by
  -- The first segment goes on from what is before the text, so the induction is for all of that.
  induction cs generalizing previous head rest with
  | nil =>
    cases hs
    split <;> rfl
  | cons c cs ih =>
    have hcs := (List.forall_mem_cons.mp h).2
    obtain ⟨head', rest', hs'⟩ := List.exists_cons_of_ne_nil (splitOn_ne_nil '_' cs)
    have hrest := @ih (some c) hcs head' rest' hs'
    rw [splitOn, hs'] at hs
    rw [withPrevious_cons]
    by_cases hu : c = '_'
    · subst hu
      rw [if_pos rfl] at hs hrest
      cases hs
      rw [List.filter_cons_of_neg (by simp), ← hrest]
      split <;> rfl
    · rw [if_neg hu] at hs
      cases hs
      have hnext : some c ≠ some '_' := fun he => hu (Option.some.inj he)
      have hsegment : ∀ d ∈ c :: head', d.toNat < 128 := by
        intro d hd
        apply h
        rw [← append_flatMap_of_splitOn hs', ← List.cons_append]
        exact List.mem_append_left _ hd
      rw [if_neg hnext] at hrest
      rw [List.filter_cons_of_pos (by simpa using hu), List.map_cons, ← hrest, camelLetter,
        lower_cons hsegment, capitalized_cons (hsegment c List.mem_cons_self)]
      split <;> rfl

theorem toList_lowerCamel {name : String} (h : ∀ c ∈ name.toList, c.toNat < 128) :
    (lowerCamel name).toList =
      ((withPrevious none name.toList).filter (·.2 ≠ '_')).map camelLetter := by
  obtain ⟨head, rest, hs⟩ := List.exists_cons_of_ne_nil (splitOn_ne_nil '_' name.toList)
  rw [lowerCamel, String.toList_ofList, lowerCamelChars_of_splitOn hs, ← camel_segments h hs]
  rfl

theorem camelFrom_cons {lowerHead capital : Bool} (h : lowerHead = false ∨ capital = false) :
    camelFrom lowerHead capital (c :: cs) =
      (if c.isAlphanum then
          [if capital then c.toUpper else if lowerHead then c.toLower else c] else []) ++
        camelFrom false (!c.isAlpha) cs := by
  rw [camelFrom]
  by_cases hl : c.isLower = true
  · have hlow := Char.toLower_eq_of_not_isUpper (Char.not_isUpper_of_isLower hl)
    simp [Char.isAlphanum, Char.isAlpha, hl, hlow]
  · have hup := Char.toUpper_eq_of_not_isLower hl
    by_cases hu : c.isUpper = true
    · rcases h with rfl | rfl
      · simp [Char.isAlphanum, Char.isAlpha, hl, hu, hup]
      · simp [Char.isAlphanum, Char.isAlpha, hl, hu]
    · have hlow := Char.toLower_eq_of_not_isUpper hu
      by_cases hd : c.isDigit = true
      · simp [Char.isAlphanum, Char.isAlpha, hl, hu, hd, hup, hlow]
      · simp [Char.isAlphanum, Char.isAlpha, hl, hu, hd]

theorem camelFrom_after (capitalizeFirst : Bool) (b : Char) :
    camelFrom false (!b.isAlpha) cs =
      ((withPrevious (some b) cs).filter (·.2.isAlphanum)).map (classLetter capitalizeFirst) := by
  induction cs generalizing b with
  | nil => rfl
  | cons c cs ih =>
    have hhead : (if !b.isAlpha then c.toUpper else c) =
        classLetter capitalizeFirst (some b, c) := by
      rw [classLetter]
      cases b.isAlpha <;> rfl
    rw [camelFrom_cons (.inl rfl), ih c, withPrevious_cons, List.filter_cons]
    split
    · rw [if_neg Bool.false_ne_true, hhead]
      rfl
    · rfl

theorem toList_classCamel {name : String} {capitalizeFirst : Bool} :
    (classCamel name capitalizeFirst).toList =
      ((withPrevious none name.toList).filter (·.2.isAlphanum)).map
        (classLetter capitalizeFirst) := by
  rw [classCamel, String.toList_ofList]
  cases name.toList with
  | nil => rfl
  | cons c cs =>
    have hstart : (!capitalizeFirst) = false ∨ capitalizeFirst = false := by
      cases capitalizeFirst <;> simp
    rw [camelFrom_cons hstart, camelFrom_after capitalizeFirst c,
      withPrevious_cons, List.filter_cons]
    split
    · cases capitalizeFirst <;> rfl
    · rfl

end

theorem camelLetter_ne_underscore {p : Option Char × Char} (hascii : p.2.toNat < 128)
    (h : p.2 ≠ '_') : camelLetter p ≠ '_' := by
  have hcases := forall_ascii (fun c => c ≠ '_' → c.toUpper ≠ '_' ∧ c.toLower ≠ '_') (by decide)
    hascii h
  obtain ⟨previous, c⟩ := p
  rw [camelLetter]
  split
  · exact hcases.1
  · exact hcases.2

theorem camelLetter_eq_classLetter_iff {b : Char} (hb : IsPlain b ∨ b = '_') (hc : IsPlain c) :
    camelLetter (some b, c) = classLetter false (some b, c) ↔
      (b.isDigit = true → c.isAlpha = false) := by
  rcases hb with hb | rfl
  · have hne : some b ≠ some '_' := fun he => hb.ne_underscore (Option.some.inj he)
    rw [camelLetter, if_neg hne, hc.toLower_eq, classLetter, hb.isAlpha_eq]
    cases b.isDigit with
    | false => simp
    | true =>
      exact ⟨fun he _ => hc.toUpper_eq_iff.mp he.symm,
        fun hs => (hc.toUpper_eq_iff.mpr (hs rfl)).symm⟩
  · exact iff_of_true rfl fun hd => absurd hd (by decide)

variable {name : String}

/-- Lower camel case drops the underscores and makes upper case of the letters right after them, of
no other. So it is the same with more underscores beside one or at the end, and a style-guide name
is read back by putting an underscore before each capital. -/
theorem lowerCamel_by_previous (h : ∀ c ∈ name.toList, c.toNat < 128) :
    (lowerCamel name).toList =
      ((withPrevious none name.toList).filter (·.2 ≠ '_')).map camelLetter ∧
    '_' ∉ (lowerCamel name).toList ∧
    (∀ before after n, name.toList = before ++ '_' :: after →
      lowerCamel (String.ofList (before ++ List.replicate (n + 1) '_' ++ after)) =
        lowerCamel name) ∧
    (∀ n, lowerCamel (name ++ String.ofList (List.replicate n '_')) = lowerCamel name) ∧
    (IsSnakeCase name → uncamel (lowerCamel name).toList = name.toList ∧
      ∀ name', IsSnakeCase name' → lowerCamel name' = lowerCamel name → name' = name) := by
  refine ⟨toList_lowerCamel h, ?_, fun before after n hname => ?_, fun n => ?_, fun hsnake => ?_⟩
  · rw [toList_lowerCamel h]
    intro hmem
    obtain ⟨p, hp, heq⟩ := List.mem_map.mp hmem
    obtain ⟨hp, hne⟩ := List.mem_filter.mp hp
    have hascii := h p.2 (mem_of_mem_withPrevious hp).1
    exact camelLetter_ne_underscore hascii (of_decide_eq_true hne) heq
  · have hone := lowerCamelChars_underscores before after 0
    rw [List.replicate_one, List.append_assoc, List.singleton_append] at hone
    rw [lowerCamel, lowerCamel, String.toList_ofList, lowerCamelChars_underscores, hname, hone]
  · rw [lowerCamel, lowerCamel, String.toList_append, String.toList_ofList,
      lowerCamelChars_append_underscores]
  · exact ⟨hsnake.uncamel_lowerCamel, fun name' h' => (h'.lowerCamel_inj hsnake).mp⟩

theorem lowerCamel_by_previous_mixedCase :
    (∀ c ∈ "user__ID_9a_".toList, c.toNat < 128) ∧
      (lowerCamel "user__ID_9a_").toList = "userId9a".toList ∧
      lowerCamel "user____ID_9a_" = lowerCamel "user__ID_9a_" ∧
      (∀ c ∈ "user_id9".toList, c.toNat < 128) ∧ IsSnakeCase "user_id9" ∧
      uncamel (lowerCamel "user_id9").toList = "user_id9".toList := by
  have hmixed : ∀ c ∈ "user__ID_9a_".toList, c.toNat < 128 :=
    List.all_iff_forall_prop.mp (by decide)
  have hstyle : ∀ c ∈ "user_id9".toList, c.toNat < 128 :=
    List.all_iff_forall_prop.mp (by decide)
  have hsnake : IsSnakeCase "user_id9" := by decide
  obtain ⟨hletters, _, hrow, _⟩ := lowerCamel_by_previous hmixed
  obtain ⟨_, _, _, _, hback⟩ := lowerCamel_by_previous hstyle
  have hlonger : "user____ID_9a_" = String.ofList ("user_".toList ++ List.replicate 3 '_' ++
      "ID_9a_".toList) := by decide
  refine ⟨hmixed, hletters.trans (by decide), ?_, hstyle, hsnake, (hback hsnake).1⟩
  rw [hlonger]
  exact hrow _ _ 2 (by decide)

/-- On names of lower-case letters, digits and underscores the two conversions agree if no letter
comes right after a digit, and only then. -/
theorem lowerCamel_eq_classCamel_iff (h : ∀ c ∈ name.toList, IsPlain c ∨ c = '_') :
    lowerCamel name = classCamel name false ↔
      name.toList.IsChain fun c d => c.isDigit = true → d.isAlpha = false := by
  have hascii : ∀ c ∈ name.toList, c.toNat < 128 := by
    intro c hc
    rcases h c hc with hplain | rfl
    · exact hplain.toNat_lt
    · decide
  have hkept : (withPrevious none name.toList).filter (·.2.isAlphanum) =
      (withPrevious none name.toList).filter (·.2 ≠ '_') := by
    apply List.filter_congr
    intro p hp
    rcases h p.2 (mem_of_mem_withPrevious hp).1 with hplain | hu
    · rw [hplain.isAlphanum, decide_eq_true hplain.ne_underscore]
    · rw [hu]
      rfl
  rw [← String.toList_inj, toList_lowerCamel hascii, toList_classCamel, hkept, List.map_inj_left,
    isChain_iff_forall_mem_withPrevious]
  have hagree (p : Option Char × Char) (hp : p ∈ withPrevious none name.toList) :
      (p.2 ≠ '_' → camelLetter p = classLetter false p) ↔
        ∀ b, p.1 = some b → b.isDigit = true → p.2.isAlpha = false := by
    obtain ⟨hc, hb⟩ := mem_of_mem_withPrevious hp
    obtain ⟨previous, c⟩ := p
    cases previous with
    | none => exact iff_of_true (fun _ => rfl) (fun b hnone => nomatch hnone)
    | some b =>
      rcases h c hc with hplain | rfl
      · have hletter := camelLetter_eq_classLetter_iff (h b (hb b rfl)) hplain
        exact ⟨fun hsame b' he => Option.some.inj he ▸ hletter.mp (hsame hplain.ne_underscore),
          fun hnext _ => hletter.mpr (hnext b rfl)⟩
      · exact iff_of_true (fun hne => absurd rfl hne) (fun _ _ _ => rfl)
  constructor
  · intro hsame p hp
    exact (hagree p hp).mp fun hne => hsame p (List.mem_filter.mpr ⟨hp, decide_eq_true hne⟩)
  · intro hchain p hp
    obtain ⟨hp, hne⟩ := List.mem_filter.mp hp
    exact (hagree p hp).mpr (hchain p hp) (of_decide_eq_true hne)

theorem lowerCamel_eq_classCamel_iff_digits :
    (∀ c ∈ "_a__b9_c_".toList, IsPlain c ∨ c = '_') ∧
      lowerCamel "_a__b9_c_" = classCamel "_a__b9_c_" false ∧
      (∀ c ∈ "a_9b".toList, IsPlain c ∨ c = '_') ∧
      lowerCamel "a_9b" ≠ classCamel "a_9b" false := by
  have hapart : ∀ c ∈ "_a__b9_c_".toList, IsPlain c ∨ c = '_' :=
    List.all_iff_forall_prop.mp (by decide)
  have hnext : ∀ c ∈ "a_9b".toList, IsPlain c ∨ c = '_' :=
    List.all_iff_forall_prop.mp (by decide)
  refine ⟨hapart, (lowerCamel_eq_classCamel_iff hapart).mpr (by decide), hnext, fun he => ?_⟩
  have hchain := (lowerCamel_eq_classCamel_iff hnext).mp he
  revert hchain
  decide

end Identifier

end ProtoNaming
