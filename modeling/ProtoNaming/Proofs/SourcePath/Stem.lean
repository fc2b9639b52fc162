import Mathlib.Data.List.Basic
import Mathlib.Tactic.ByContra
import ProtoNaming.SourcePath

namespace ProtoNaming.SourcePath

def HasEnding (path : String) : Prop :=
  ∃ stem, path = stem ++ ".proto" ∨ path = stem ++ ".protodevel"

/-- A path is its stem with an ending, and its own stem where it has none. -/
def HasStem (path stem : String) : Prop :=
  path = stem ++ ".proto" ∨ path = stem ++ ".protodevel" ∨ path = stem ∧ ¬HasEnding path

/-- Different paths of one stem, so that one has another ending than the other, or none. -/
def DifferInEnding (p q : String) : Prop := p ≠ q ∧ ∃ stem, HasStem p stem ∧ HasStem q stem

theorem withoutEnding_append_protodevel (cs : List Char) :
    withoutEnding (cs ++ ".protodevel".toList) = cs := by
  have hlong : (".protodevel".toList).isSuffixOf? (cs ++ ".protodevel".toList) = some cs :=
    List.isSuffixOf?_eq_some_iff_append_eq.mpr rfl
  rw [withoutEnding, endings, List.findSome?_cons, hlong]
  rfl

theorem withoutEnding_append_proto (cs : List Char) :
    withoutEnding (cs ++ ".proto".toList) = cs := by
  have hshort : (".proto".toList).isSuffixOf? (cs ++ ".proto".toList) = some cs :=
    List.isSuffixOf?_eq_some_iff_append_eq.mpr rfl
  have hlong : (".protodevel".toList).isSuffixOf? (cs ++ ".proto".toList) = none := by
    by_contra hne
    obtain ⟨ds, hd⟩ := Option.ne_none_iff_exists'.mp hne
    have hsame := List.isSuffixOf?_eq_some_iff_append_eq.mp hd
    -- One text would end in two letters.
    have hlast := congrArg List.getLast? hsame
    rw [List.getLast?_append, List.getLast?_append] at hlast
    have hl : (".protodevel".toList).getLast? = some 'l' := by decide
    have ho : (".proto".toList).getLast? = some 'o' := by decide
    rw [hl, ho, Option.some_or, Option.some_or] at hlast
    exact absurd hlast (by decide)
  rw [withoutEnding, endings, List.findSome?_cons, hlong, List.findSome?_cons, hshort]
  rfl

theorem withoutEnding_of_not_hasEnding {path : String} (h : ¬HasEnding path) :
    withoutEnding path.toList = path.toList := by
  have hnone (ending : String) (he : ∀ stem, path ≠ stem ++ ending) :
      ending.toList.isSuffixOf? path.toList = none := by
    by_contra hne
    obtain ⟨cs, hc⟩ := Option.ne_none_iff_exists'.mp hne
    have hcut := List.isSuffixOf?_eq_some_iff_append_eq.mp hc
    apply he (String.ofList cs)
    rw [← String.toList_inj, String.toList_append, String.toList_ofList, hcut]
  have hshort := hnone ".proto" fun stem hp => h ⟨stem, .inl hp⟩
  have hlong := hnone ".protodevel" fun stem hp => h ⟨stem, .inr hp⟩
  rw [withoutEnding, endings, List.findSome?_cons, hlong, List.findSome?_cons, hshort]
  rfl

theorem withoutEnding_of_hasStem {path stem : String} (h : HasStem path stem) :
    withoutEnding path.toList = stem.toList := by
  rcases h with rfl | rfl | ⟨rfl, hnone⟩
  · rw [String.toList_append, withoutEnding_append_proto]
  · rw [String.toList_append, withoutEnding_append_protodevel]
  · exact withoutEnding_of_not_hasEnding hnone

theorem exists_hasStem (path : String) : ∃ stem, HasStem path stem := by
  by_cases h : HasEnding path
  · obtain ⟨stem, hs | hs⟩ := h
    · exact ⟨stem, .inl hs⟩
    · exact ⟨stem, .inr (.inl hs)⟩
  · exact ⟨path, .inr (.inr ⟨rfl, h⟩)⟩

theorem manifestPath_of_hasStem {path stem : String} (h : HasStem path stem) :
    manifestPath path = stem ++ ".symbols.json" := by
  rw [manifestPath, withoutEnding_of_hasStem h, String.ofList_append, String.ofList_toList,
    String.ofList_toList]

/-- Paths have one manifest if they have one stem, and only then. -/
theorem manifestPath_eq_iff {p q : String} :
    manifestPath p = manifestPath q ↔ ∃ stem, HasStem p stem ∧ HasStem q stem := by
  constructor
  · intro h
    obtain ⟨s, hs⟩ := exists_hasStem p
    obtain ⟨t, ht⟩ := exists_hasStem q
    rw [manifestPath_of_hasStem hs, manifestPath_of_hasStem ht, String.append_left_inj] at h
    exact ⟨s, hs, h ▸ ht⟩
  · rintro ⟨stem, hp, hq⟩
    rw [manifestPath_of_hasStem hp, manifestPath_of_hasStem hq]

/-- Paths that both end in `.proto` do not differ in their endings. -/
theorem not_differInEnding_of_proto {p q : String} (hp : ∃ s, p = s ++ ".proto")
    (hq : ∃ t, q = t ++ ".proto") : ¬DifferInEnding p q := by
  obtain ⟨s, hs⟩ := hp
  obtain ⟨t, ht⟩ := hq
  rintro ⟨hne, hstem⟩
  have hsame := manifestPath_eq_iff.mpr hstem
  rw [manifestPath_of_hasStem (.inl hs), manifestPath_of_hasStem (.inl ht),
    String.append_left_inj] at hsame
  apply hne
  rw [hs, ht, hsame]

/-- A path in two: up to and including its last slash, of which there may be none, and the component
after it. -/
structure EndsInComponent (path directory component : String) : Prop where
  whole : path = directory ++ component
  slash : directory = "" ∨ ∃ parent, directory = parent ++ "/"
  plain : '/' ∉ component.toList

theorem exists_endsInComponent (path : String) :
    ∃ directory, EndsInComponent path directory
      (String.ofList (Text.afterLast '/' path.toList)) := by
  refine ⟨String.ofList (Text.throughLast '/' path.toList), ?_, ?_, ?_⟩
  · rw [← String.ofList_append, Text.throughLast_append_afterLast, String.ofList_toList]
  · rcases Text.throughLast_cases '/' path.toList with hnone | ⟨parent, hparent⟩
    · exact .inl (congrArg String.ofList hnone)
    · exact .inr ⟨String.ofList parent, by rw [hparent, String.ofList_append]⟩
  · rw [String.toList_ofList]
    exact Text.not_mem_afterLast '/' path.toList

namespace EndsInComponent

variable {path directory component stem : String}

theorem exists_append_eq (h : EndsInComponent path directory component) {ending : String}
    (he : '/' ∉ ending.toList) (hp : path = stem ++ ending) :
    ∃ rest, component = rest ++ ending := by
  have hsame := congrArg String.toList (h.whole.symm.trans hp)
  rw [String.toList_append, String.toList_append] at hsame
  rcases List.append_eq_append_iff.mp hsame with ⟨rest, _, hc⟩ | ⟨rest, hd, hending⟩
  · exact ⟨String.ofList rest, by rw [← String.toList_inj, hc]; simp⟩
  · rcases List.eq_nil_or_concat' rest with rfl | ⟨rest, c, rfl⟩
    · exact ⟨"", by rw [← String.toList_inj, String.empty_append, hending, List.nil_append]⟩
    · -- The ending would begin in the directory, and so have its slash.
      rcases h.slash with rfl | ⟨parent, rfl⟩
      · simp at hd
      · rw [String.toList_append, ← List.append_assoc] at hd
        obtain ⟨_, hlast⟩ := List.append_inj' hd rfl
        obtain rfl : '/' = c := by simpa using hlast
        rw [hending] at he
        simp at he

theorem hasEnding (h : EndsInComponent path directory component) (hp : HasEnding path) :
    HasEnding component := by
  obtain ⟨stem, hproto | hdevel⟩ := hp
  · obtain ⟨rest, hc⟩ := h.exists_append_eq (by decide) hproto
    exact ⟨rest, .inl hc⟩
  · obtain ⟨rest, hc⟩ := h.exists_append_eq (by decide) hdevel
    exact ⟨rest, .inr hc⟩

theorem hasStem (h : EndsInComponent path directory component) (hs : HasStem component stem) :
    HasStem path (directory ++ stem) := by
  rcases hs with hc | hc | ⟨hc, hnone⟩
  · exact .inl (by rw [h.whole, hc, String.append_assoc])
  · exact .inr (.inl (by rw [h.whole, hc, String.append_assoc]))
  · exact .inr (.inr ⟨by rw [h.whole, hc], fun hp => hnone (h.hasEnding hp)⟩)

end EndsInComponent

theorem hasStem_baseName (path : String) :
    HasStem (String.ofList (Text.afterLast '/' path.toList)) (baseName path) := by
  obtain ⟨stem, hs⟩ := exists_hasStem (String.ofList (Text.afterLast '/' path.toList))
  have hstem := withoutEnding_of_hasStem hs
  rw [String.toList_ofList] at hstem
  rwa [baseName, hstem, String.ofList_toList]

theorem HasStem.mem {path stem : String} (h : HasStem path stem) {c : Char}
    (hc : c ∈ stem.toList) : c ∈ path.toList := by
  rcases h with rfl | rfl | ⟨rfl, _⟩
  · rw [String.toList_append]
    exact List.mem_append_left _ hc
  · rw [String.toList_append]
    exact List.mem_append_left _ hc
  · exact hc

/-- The manifest of a path is beside it under the base name, which is the last component without its
ending. -/
theorem manifestPath_beside_baseName (path : String) :
    ∃ directory component, EndsInComponent path directory component ∧
      manifestPath path = directory ++ baseName path ++ ".symbols.json" ∧
      '/' ∉ (baseName path).toList ∧ HasStem component (baseName path) := by
  obtain ⟨directory, h⟩ := exists_endsInComponent path
  have hs := hasStem_baseName path
  exact ⟨directory, _, h, manifestPath_of_hasStem (h.hasStem hs), fun hc => h.plain (hs.mem hc), hs⟩

end ProtoNaming.SourcePath
