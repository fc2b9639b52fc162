import ProtoNaming.Naming.Namespaced
import ProtoNaming.Proofs.Identifier.Neighbours
import ProtoNaming.Proofs.Schema.Total

namespace ProtoNaming

namespace Identifier

open Text

/-- A word that ends in `List` once its first letter is capitalised and the rest in lower case. -/
def IsListWord : List Char → Prop
  | [] => False
  | c :: cs => c ∈ ['l', 'L', 'ﬂ', 'ﬄ'] ∧ cs.map Char.toLower = ['i', 's', 't']

/-- Such a word after an underscore, with nothing but underscores behind it. -/
def EndsInListWord (cs : List Char) : Prop :=
  ∃ before word n, cs = before ++ '_' :: word ++ List.replicate n '_' ∧ IsListWord word

theorem capitalized_eq_append (c : Char) (cs : List Char) :
    ∃ up, capitalized (c :: cs) = up ++ lower cs ∧ up ≠ [] ∧ (∀ d ∈ up, d.isLower = false) ∧
      (up.getLast? = some 'L' ↔ c ∈ ['l', 'L', 'ﬂ', 'ﬄ']) := by
  refine ⟨_, rfl, ?_⟩
  split
  · exact ⟨upperChar_ne_nil c, fun d hd => not_isLower_of_mem_upperChar hd,
      getLast?_upperChar_eq_iff⟩
  · next hlarge =>
    refine ⟨List.cons_ne_nil _ _, fun d hd => ?_, ?_⟩
    · rw [List.mem_singleton] at hd
      rw [← Bool.not_eq_true]
      intro hl
      have hlt := toNat_lt_of_isLower hl
      rw [hd] at hlt
      omega
    · have hsmall : ∀ d ∈ ['l', 'L', 'ﬂ', 'ﬄ'], d.toNat < 0x10000 :=
        List.all_iff_forall_prop.mp (by decide)
      refine iff_of_false (fun hlast => ?_) fun hmem => hlarge (hsmall c hmem)
      obtain rfl : c = 'L' := Option.some.inj hlast
      exact hlarge (by decide)

theorem toNat_lt_of_isLower_toLower {c : Char} (h : c.toLower.isLower = true) : c.toNat < 128 := by
  by_cases hu : c.isUpper = true
  · exact toNat_lt_of_isAlpha (Bool.or_eq_true_iff.mpr (.inl hu))
  · rw [Char.toLower_eq_of_not_isUpper hu] at h
    exact toNat_lt_of_isLower h

theorem not_mem_lower_L (cs : List Char) : 'L' ∉ lower cs :=
  fun h => absurd (not_isUpper_of_mem_lowerFrom h) (by decide)

theorem isListWord_of_suffix {xs cs : List Char} {c : Char}
    (h : ['L', 'i', 's', 't'] <:+ xs ++ capitalized (c :: cs)) : IsListWord (c :: cs) := by
  obtain ⟨up, hcap, hne, hup, hlast⟩ := capitalized_eq_append c cs
  obtain ⟨stem, hstem⟩ := h
  rw [hcap, ← List.append_assoc] at hstem
  -- The suffix begins in the capitals or behind them, where there is no capital.
  rcases List.append_eq_append_iff.mp hstem with ⟨inner, hxs, hword⟩ | ⟨inner, _, hword⟩
  · have hends := congrArg List.getLast? hxs
    rw [List.getLast?_append_of_ne_nil xs hne] at hends
    cases inner with
    | nil =>
      rw [List.nil_append] at hword
      exact absurd (hword ▸ List.mem_cons_self) (not_mem_lower_L cs)
    | cons l inner =>
      rw [List.cons_append, List.cons.injEq] at hword
      obtain ⟨rfl, hword⟩ := hword
      rw [List.getLast?_append_of_ne_nil stem (List.cons_ne_nil _ _)] at hends
      rcases List.eq_nil_or_concat' inner with rfl | ⟨inner, d, rfl⟩
      · have hsmall : ∀ d ∈ ['i', 's', 't'], d.isLower = true ∧ d ≠ 'k' :=
          List.all_iff_forall_prop.mp (by decide)
        exact ⟨hlast.mp hends, map_toLower_of_lowerFrom hsmall hword.symm⟩
      · rw [← List.cons_append, List.getLast?_concat] at hends
        have hd : d ∈ up := List.mem_of_getLast? hends
        have hmem : d ∈ ['i', 's', 't'] := by
          rw [hword]
          simp
        have hsmall : ∀ d ∈ ['i', 's', 't'], d.isLower = true :=
          List.all_iff_forall_prop.mp (by decide)
        have hdown := hsmall d hmem
        rw [hup d hd] at hdown
        cases hdown
  · exact absurd (hword ▸ List.mem_append_right inner List.mem_cons_self) (not_mem_lower_L cs)

theorem IsListWord.capitalized {word : List Char} (h : IsListWord word) :
    ∃ start, capitalized word = start ++ ['L', 'i', 's', 't'] := by
  cases word with
  | nil => cases h
  | cons c cs =>
    obtain ⟨up, hcap, hne, _, hlast⟩ := capitalized_eq_append c cs
    have hascii : ∀ d ∈ cs, d.toNat < 128 := by
      intro d hd
      have hmem : d.toLower ∈ ['i', 's', 't'] := h.2 ▸ List.mem_map_of_mem hd
      have hsmall : ∀ e ∈ ['i', 's', 't'], e.isLower = true :=
        List.all_iff_forall_prop.mp (by decide)
      exact toNat_lt_of_isLower_toLower (hsmall _ hmem)
    obtain ⟨start, hup⟩ := List.getLast?_eq_some_iff.mp (hlast.mpr h.1)
    refine ⟨start, ?_⟩
    rw [hcap, lower_of_ascii hascii, h.2, hup, List.append_assoc]
    rfl

theorem IsListWord.not_mem_underscore {word : List Char} (h : IsListWord word) : '_' ∉ word := by
  cases word with
  | nil => cases h
  | cons c cs =>
    intro hmem
    rcases List.mem_cons.mp hmem with rfl | hmem
    · exact absurd h.1 (by decide)
    · have hlow : '_'.toLower ∈ ['i', 's', 't'] := h.2 ▸ List.mem_map_of_mem hmem
      exact absurd hlow (by decide)

theorem exists_listWord_of_suffix {head : List Char} {rest : List (List Char)}
    (h : ['L', 'i', 's', 't'] <:+ lower head ++ rest.flatMap Identifier.capitalized) :
    ∃ earlier word n, rest = earlier ++ word :: List.replicate n [] ∧ IsListWord word := by
  induction rest using List.reverseRecOn with
  | nil =>
    rw [List.flatMap_nil, List.append_nil] at h
    exact absurd (h.mem List.mem_cons_self) (not_mem_lower_L head)
  | append_singleton rest segment ih =>
    rw [List.flatMap_append, List.flatMap_singleton, ← List.append_assoc] at h
    cases segment with
    | nil =>
      rw [Identifier.capitalized, List.append_nil] at h
      obtain ⟨earlier, word, n, hrest, hword⟩ := ih h
      refine ⟨earlier, word, n + 1, ?_, hword⟩
      rw [hrest, List.replicate_succ', List.append_assoc, List.cons_append]
    | cons c cs => exact ⟨rest, c :: cs, 0, rfl, isListWord_of_suffix h⟩

/-- Lower camel case ends in `List` for the names that end in the word, and for no other. -/
theorem suffix_lowerCamelChars_iff {cs : List Char} :
    ['L', 'i', 's', 't'] <:+ lowerCamelChars cs ↔ EndsInListWord cs := by
  constructor
  · intro h
    obtain ⟨head, rest, hs⟩ := List.exists_cons_of_ne_nil (splitOn_ne_nil '_' cs)
    rw [lowerCamelChars_of_splitOn hs] at h
    obtain ⟨earlier, word, n, rfl, hword⟩ := exists_listWord_of_suffix h
    refine ⟨head ++ earlier.flatMap ('_' :: ·), word, n, ?_, hword⟩
    have hblank : (List.replicate n []).flatMap ('_' :: ·) = List.replicate n '_' := by
      rw [List.flatMap_replicate, List.flatten_replicate_singleton]
    rw [← append_flatMap_of_splitOn hs, List.flatMap_append, List.flatMap_cons, hblank]
    simp only [List.append_assoc]
  · rintro ⟨before, word, n, rfl, hword⟩
    obtain ⟨start, hcap⟩ := hword.capitalized
    have hone := lowerCamelChars_underscores before word 0
    rw [splitOn_of_not_mem hword.not_mem_underscore, List.flatMap_singleton, hcap,
      List.replicate_one, List.append_assoc, List.singleton_append] at hone
    rw [lowerCamelChars_append_underscores, hone, ← List.append_assoc]
    exact List.suffix_append _ _

theorem IsSnakeCase.append_list {name : String} (h : IsSnakeCase name) :
    IsSnakeCase (name ++ "_list") := by
  intro s hs
  rw [String.toList_append] at hs
  rcases List.mem_append.mp (splitOn_append '_' name.toList _ ▸ hs) with hs | hs
  · exact h s hs
  · exact (by decide : ∀ s ∈ splitOn '_' ['l', 'i', 's', 't'], IsSegment s) s hs

theorem lowerCamel_append_list (name : String) :
    lowerCamel (name ++ "_list") = lowerCamel name ++ "List" := by
  have hone := lowerCamelChars_underscores name.toList ['l', 'i', 's', 't'] 0
  rw [List.replicate_one, List.append_assoc, List.singleton_append] at hone
  rw [lowerCamel, lowerCamel, ← String.toList_inj]
  simp only [String.toList_append, String.toList_ofList]
  exact hone

end Identifier

namespace Field

variable {f g : Field}

theorem accessor_endsIn_iff :
    (∃ stem, f.accessor = stem ++ "List") ↔
      f.isRepeated = true ∨ Identifier.EndsInListWord f.name.toList := by
  cases hf : f.isRepeated with
  | true => exact iff_of_true ⟨_, accessor_of_repeated hf⟩ (.inl rfl)
  | false =>
    rw [accessor_of_not_repeated hf, ← Identifier.suffix_lowerCamelChars_iff]
    simp only [Bool.false_eq_true, false_or]
    constructor
    · rintro ⟨stem, hstem⟩
      have hchars := congrArg String.toList hstem
      rw [Identifier.lowerCamel, String.toList_ofList, String.toList_append] at hchars
      exact ⟨stem.toList, hchars.symm⟩
    · rintro ⟨stem, hstem⟩
      refine ⟨String.ofList stem, ?_⟩
      rw [Identifier.lowerCamel, ← hstem, String.ofList_append]

theorem accessor_eq_iff (hf : f.isRepeated = true) (hg : g.isRepeated = false) :
    f.accessor = g.accessor ↔
      Identifier.lowerCamel g.name = Identifier.lowerCamel f.name ++ "List" := by
  rw [accessor_of_repeated hf, accessor_of_not_repeated hg, eq_comm]

/-- The accessor of a field ends in `List` if the field is repeated or its name ends in that word,
and only then. So a repeated field has the accessor of one that is not where the second name is the
first and that word. -/
theorem accessor_endsIn_list (f : Field) :
    ((∃ stem, f.accessor = stem ++ "List") ↔
      f.isRepeated = true ∨ Identifier.EndsInListWord f.name.toList) ∧
    ∀ g : Field, f.isRepeated = true → g.isRepeated = false →
      (f.accessor = g.accessor ↔
        Identifier.lowerCamel g.name = Identifier.lowerCamel f.name ++ "List") ∧
      (f.accessor = g.accessor → Identifier.EndsInListWord g.name.toList) ∧
      (Identifier.IsSnakeCase f.name → Identifier.IsSnakeCase g.name →
        (f.accessor = g.accessor ↔ g.name = f.name ++ "_list")) := by
  refine ⟨accessor_endsIn_iff, fun g hf hg => ⟨accessor_eq_iff hf hg, fun he => ?_, ?_⟩⟩
  · have hends : ∃ stem, g.accessor = stem ++ "List" := ⟨_, he.symm.trans (accessor_of_repeated hf)⟩
    have hcases := accessor_endsIn_iff.mp hends
    rw [hg] at hcases
    exact hcases.resolve_left Bool.false_ne_true
  · intro hfs hgs
    rw [accessor_eq_iff hf hg, ← Identifier.lowerCamel_append_list,
      hgs.lowerCamel_inj hfs.append_list]

end Field

namespace FileDescriptor

def fieldLabelled (label number : Int) (name : String) : FieldDescriptor where
  name := some name
  number := some number
  label := some label
  typeCode := some 5

/-- A repeated field, and two that are not, with names that end in the word. -/
def withListNames : FileDescriptor where
  name := some "a.proto"
  package := some "p"
  messages := [{
    name := some "M"
    fields := [fieldLabelled 3 1 "x", fieldLabelled 1 2 "x_list", fieldLabelled 1 3 "Y__lIsT_"] }]

/-- The suffix does not tell the repeated field from the other. -/
theorem shared_accessor_withListNames :
    withListNames.build = .ok withListNames.toFile ∧
      ∃ m ∈ withListNames.toFile.messages, ∃ f ∈ m.fields, ∃ g ∈ m.fields,
        f.isRepeated = true ∧ g.isRepeated = false ∧ g.accessor = "x" ++ "List" ∧
        f.accessor = g.accessor := by
  refine ⟨rfl, _, List.mem_cons_self, _, List.mem_cons_self, _,
    List.mem_cons_of_mem _ List.mem_cons_self, ?_⟩
  decide

theorem accessor_endsIn_list_withListNames :
    ∃ m ∈ withListNames.toFile.messages, ∃ f ∈ m.fields, ∃ g ∈ m.fields, ∃ h ∈ m.fields,
      f.isRepeated = true ∧ g.isRepeated = false ∧ Identifier.IsSnakeCase f.name ∧
        Identifier.IsSnakeCase g.name ∧ g.name = f.name ++ "_list" ∧ f.accessor = g.accessor ∧
        h.isRepeated = false ∧ ∃ stem, h.accessor = stem ++ "List" := by
  refine ⟨_, List.mem_cons_self, _, List.mem_cons_self, _,
    List.mem_cons_of_mem _ List.mem_cons_self, _,
    List.mem_cons_of_mem _ (List.mem_cons_of_mem _ List.mem_cons_self), by decide, by decide,
    by decide, by decide, by decide, ?_, by decide, ?_⟩
  · obtain ⟨_, hpair⟩ := Field.accessor_endsIn_list _
    exact ((hpair _ (by decide) (by decide)).2.2 (by decide) (by decide)).mpr (by decide)
  · obtain ⟨hends, _⟩ := Field.accessor_endsIn_list _
    have hword : Identifier.EndsInListWord "Y__lIsT_".toList :=
      ⟨['Y', '_'], ['l', 'I', 's', 'T'], 1, by decide, by decide, by decide⟩
    exact hends.mpr (.inr hword)

end FileDescriptor

end ProtoNaming
