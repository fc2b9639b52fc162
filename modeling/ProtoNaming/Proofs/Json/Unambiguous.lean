import Mathlib.Data.List.Basic
import ProtoNaming.Proofs.Json.Grammar

namespace ProtoNaming.Json

theorem Spaces.dropWhile_eq {s t : List Char} (h : Spaces s t) :
    s.dropWhile isSpace = t.dropWhile isSpace := by
  induction h with
  | none t => rfl
  | some hc _ ih => rw [List.dropWhile_cons_of_pos hc, ih]

/-- Blanks end where something else begins. -/
theorem Spaces.eq_dropWhile {c : Char} {s t : List Char} (h : Spaces s (c :: t))
    (hc : isSpace c = false) : c :: t = s.dropWhile isSpace := by
  rw [h.dropWhile_eq, List.dropWhile_cons_of_neg (by simp [hc])]

theorem isUnit_append {ds es : List Char} {m n : Nat} {s t : List Char} (h : IsUnit ds m)
    (h' : IsUnit es n) (heq : ds ++ s = es ++ t) : m = n ∧ s = t := by
  have hlength : ds.length = es.length := h.1.trans h'.1.symm
  obtain ⟨rfl, rfl⟩ := List.append_inj heq hlength
  exact ⟨Option.some.inj (h.2.symm.trans h'.2), rfl⟩

theorem letterEscapes_unique {e c d : Char} (hc : (e, c) ∈ letterEscapes)
    (hd : (e, d) ∈ letterEscapes) : c = d := by
  have hall : ∀ p ∈ letterEscapes, ∀ q ∈ letterEscapes, p.1 = q.1 → p.2 = q.2 := by decide
  exact hall (e, c) hc (e, d) hd rfl

theorem ne_of_mem_letterEscapes {e c : Char} (h : (e, c) ∈ letterEscapes) : e ≠ 'u' := by
  have hall : ∀ p ∈ letterEscapes, p.1 ≠ 'u' := by decide
  exact hall (e, c) h

theorem char_eq_of_toNat {c d : Char} (h : c.toNat = d.toNat) : c = d := by
  rw [← Char.ofNat_toNat c, h, Char.ofNat_toNat]

theorem not_half (c : Char) : ¬(0xD800 ≤ c.toNat ∧ c.toNat < 0xE000) := by
  have hvalid : c.toNat < 0xD800 ∨ 0xDFFF < c.toNat ∧ c.toNat < 0x110000 := c.valid
  omega

theorem ReadsCode.unique {c d : Char} {s t u : List Char} (h : ReadsCode c s t)
    (h' : ReadsCode d s u) : c = d ∧ t = u := by
  generalize hs : s = s' at h'
  cases h with
  | unit t hc =>
    cases h' with
    | unit _ hd =>
      obtain ⟨hn, ht⟩ := isUnit_append hc hd hs
      exact ⟨char_eq_of_toNat hn, ht⟩
    | halves _ hh hlow hhigh =>
      obtain ⟨hn, _⟩ := isUnit_append hc hh hs
      exact absurd ⟨by omega, by omega⟩ (not_half c)
  | halves t hh hlow hhigh hl _ _ hc =>
    cases h' with
    | unit _ hd =>
      obtain ⟨hn, _⟩ := isUnit_append hh hd hs
      exact absurd ⟨by omega, by omega⟩ (not_half d)
    | halves _ hh' _ _ hl' _ _ hd =>
      obtain ⟨hn, hrest⟩ := isUnit_append hh hh' hs
      have hsecond := (List.cons.inj (List.cons.inj hrest).2).2
      obtain ⟨hm, ht⟩ := isUnit_append hl hl' hsecond
      exact ⟨char_eq_of_toNat (by omega), ht⟩

theorem ReadsChar.unique {c d : Char} {s t u : List Char} (h : ReadsChar c s t)
    (h' : ReadsChar d s u) : c = d ∧ t = u := by
  generalize hs : s = s' at h'
  cases h with
  | plain t _ _ hb =>
    cases h' with
    | plain => exact List.cons.inj hs
    | letter => exact absurd (List.cons.inj hs).1 hb
    | code => exact absurd (List.cons.inj hs).1 hb
  | letter t he =>
    have hu := ne_of_mem_letterEscapes he
    cases h' with
    | plain _ _ _ hb => exact absurd (List.cons.inj hs).1.symm hb
    | letter _ he' =>
      obtain ⟨rfl, ht⟩ := List.cons.inj (List.cons.inj hs).2
      exact ⟨letterEscapes_unique he he', ht⟩
    | code => exact absurd (List.cons.inj (List.cons.inj hs).2).1 hu
  | code hc =>
    cases h' with
    | plain _ _ _ hb => exact absurd (List.cons.inj hs).1.symm hb
    | letter _ he' =>
      have hu := ne_of_mem_letterEscapes he'
      exact absurd (List.cons.inj (List.cons.inj hs).2).1.symm hu
    | code hd =>
      obtain ⟨_, rfl⟩ := List.cons.inj (List.cons.inj hs).2
      exact hc.unique hd

theorem not_readsChar_quote {c : Char} {s t : List Char} : ¬ReadsChar c ('"' :: s) t := by
  intro h
  generalize hs : '"' :: s = s' at h
  have hne : '"' ≠ '\\' := by decide
  cases h with
  | plain _ _ hq => exact hq (List.cons.inj hs).1.symm
  | letter => exact hne (List.cons.inj hs).1
  | code => exact hne (List.cons.inj hs).1

theorem ReadsChars.unique {cs ds s t u : List Char} (h : ReadsChars cs s t)
    (h' : ReadsChars ds s u) : cs = ds ∧ t = u := by
  induction h generalizing ds with
  | close t =>
    cases h' with
    | close => exact ⟨rfl, rfl⟩
    | char hc => exact absurd hc not_readsChar_quote
  | char hc _ ih =>
    cases h' with
    | close => exact absurd hc not_readsChar_quote
    | char hc' hs' =>
      obtain ⟨rfl, rfl⟩ := hc.unique hc'
      obtain ⟨rfl, rfl⟩ := ih hs'
      exact ⟨rfl, rfl⟩

def isNumeric (c : Char) : Bool := c.isDigit || c ∈ ['+', '-', '.', 'e', 'E']

theorem IsDigits.numeric {ds : List Char} (h : IsDigits ds) : ∀ c ∈ ds, isNumeric c = true := by
  intro c hc
  rw [isNumeric, h.2 c hc, Bool.true_or]

theorem IsFraction.numeric {cs : List Char} (h : IsFraction cs) :
    ∀ c ∈ cs, isNumeric c = true := by
  cases h with
  | none => exact List.forall_mem_nil _
  | some hd => exact List.forall_mem_cons.mpr ⟨by decide, hd.numeric⟩

theorem numeric_of_mem_signs {sign : List Char} (h : sign ∈ [[], ['+'], ['-']]) :
    ∀ c ∈ sign, isNumeric c = true := by
  have hall : [[], ['+'], ['-']].all (fun sign => sign.all isNumeric) = true := by decide
  exact List.all_eq_true.mp (List.all_eq_true.mp hall sign h)

theorem IsExponent.numeric {cs : List Char} (h : IsExponent cs) :
    ∀ c ∈ cs, isNumeric c = true := by
  cases h with
  | none => exact List.forall_mem_nil _
  | some he hs hd =>
    have hall : ['e', 'E'].all isNumeric = true := by decide
    exact List.forall_mem_cons.mpr
      ⟨List.all_eq_true.mp hall _ he,
        List.forall_mem_append.mpr ⟨numeric_of_mem_signs hs, hd.numeric⟩⟩

theorem IsNumber.numeric {literal : List Char} (h : IsNumber literal) :
    literal ≠ [] ∧ ∀ c ∈ literal, isNumeric c = true := by
  obtain ⟨sign, whole, fraction, exponent, hs, hw, _, hf, he, rfl⟩ := h
  have hsign : sign ∈ [[], ['+'], ['-']] := by
    have hall : ∀ sign ∈ [[], ['-']], sign ∈ [[], ['+'], ['-']] := by decide
    exact hall sign hs
  refine ⟨fun hnil => ?_, ?_⟩
  · have hwhole := (List.append_eq_nil_iff.mp (List.append_eq_nil_iff.mp hnil).2).1
    exact hw.1 hwhole
  · refine List.forall_mem_append.mpr ⟨numeric_of_mem_signs hsign, ?_⟩
    exact List.forall_mem_append.mpr
      ⟨hw.numeric, List.forall_mem_append.mpr ⟨hf.numeric, he.numeric⟩⟩

inductive Lead where
  | null | yes | no | number | quote | bracket | brace
  deriving DecidableEq

def Lead.of? (c : Char) : Option Lead :=
  if isNumeric c then some number
  else [('n', null), ('t', yes), ('f', no), ('"', quote), ('[', bracket), ('\x7b', brace)].lookup c

def Item.lead : Item → Lead
  | .value .null => .null
  | .value (.bool true) => .yes
  | .value (.bool false) => .no
  | .value (.number _) => .number
  | .value (.string _) => .quote
  | .value (.array _) => .bracket
  | .value (.object _) => .brace
  | .member _ _ => .quote

theorem Reads.lead {i : Item} {s t : List Char} (h : Reads (.item i) s t) :
    ∃ c rest, s = c :: rest ∧ Lead.of? c = some i.lead := by
  cases h with
  | null => exact ⟨_, _, rfl, rfl⟩
  | yes => exact ⟨_, _, rfl, rfl⟩
  | no => exact ⟨_, _, rfl, rfl⟩
  | @number literal t hl =>
    obtain ⟨hne, hall⟩ := hl.numeric
    obtain ⟨c, rest, rfl⟩ := List.exists_cons_of_ne_nil hne
    exact ⟨c, rest ++ t, rfl, if_pos (hall c List.mem_cons_self)⟩
  | string => exact ⟨_, _, rfl, rfl⟩
  | array => exact ⟨_, _, rfl, rfl⟩
  | object => exact ⟨_, _, rfl, rfl⟩
  | member => exact ⟨_, _, rfl, rfl⟩

theorem Lead.of?_of_isSpace {c : Char} (h : isSpace c = true) : of? c = none := by
  simp only [isSpace, Bool.or_eq_true, decide_eq_true_eq] at h
  rcases h with ((rfl | rfl) | rfl) | rfl <;> decide

/-- An item begins where the blanks before it end. -/
theorem Reads.eq_dropWhile {i : Item} {s u t : List Char} (h : Reads (.item i) u t)
    (hs : Spaces s u) : u = s.dropWhile isSpace := by
  obtain ⟨c, rest, rfl, hc⟩ := h.lead
  refine hs.eq_dropWhile (Bool.eq_false_iff.mpr fun hspace => ?_)
  rw [Lead.of?_of_isSpace hspace] at hc
  cases hc

/-- Comes after an item: nothing more, a comma or a closing bracket, maybe behind blanks. -/
def Stops (t : List Char) : Prop :=
  ∀ c ∈ (t.dropWhile isSpace).head?, c = ',' ∨ c = ']' ∨ c = '\x7d'

def Closes (t : List Char) : Prop := ∃ c rest, t = c :: rest ∧ (c = ']' ∨ c = '\x7d')

theorem Closes.lead {t : List Char} (h : Closes t) : t.head?.bind Lead.of? = none := by
  obtain ⟨c, rest, rfl, hc⟩ := h
  rcases hc with rfl | rfl <;> rfl

theorem Closes.eq_dropWhile {s t : List Char} (h : Closes t) (hs : Spaces s t) :
    t = s.dropWhile isSpace := by
  obtain ⟨c, rest, rfl, hc⟩ := h
  have hspace : isSpace c = false := by rcases hc with rfl | rfl <;> rfl
  exact hs.eq_dropWhile hspace

theorem Closes.stops {s t : List Char} (h : Closes t) (hs : Spaces s t) : Stops s := by
  intro c hc
  rw [← h.eq_dropWhile hs] at hc
  obtain ⟨d, rest, rfl, hd⟩ := h
  cases hc
  exact .inr hd

theorem stops_of_comma {s t : List Char} (hs : Spaces s (',' :: t)) : Stops s := by
  intro c hc
  rw [← hs.eq_dropWhile (by decide)] at hc
  cases hc
  exact .inl rfl

theorem stops_of_nil {s : List Char} (hs : Spaces s []) : Stops s := by
  intro c hc
  rw [hs.dropWhile_eq] at hc
  cases hc

theorem Closes.not_item {i : Item} {s t u w : List Char} (h : Closes t) (ht : Spaces s t)
    (hu : Spaces s u) : ¬Reads (.item i) u w := by
  intro hi
  have htu : t = u := (h.eq_dropWhile ht).trans (hi.eq_dropWhile hu).symm
  obtain ⟨c, rest, rfl, hc⟩ := hi.lead
  have hnone := h.lead
  rw [htu, List.head?_cons, Option.bind_some, hc] at hnone
  cases hnone

theorem Closes.not_comma {s t u : List Char} (h : Closes t) (ht : Spaces s t) :
    ¬Spaces s (',' :: u) := by
  intro hs
  have htu := (h.eq_dropWhile ht).trans (hs.eq_dropWhile (by decide)).symm
  obtain ⟨c, rest, rfl, hc⟩ := h
  cases htu
  exact absurd hc (by decide)

theorem Stops.not_colon {s t : List Char} (h : Stops s) : ¬Spaces s (':' :: t) := by
  intro hs
  have hc : ':' ∈ (s.dropWhile isSpace).head? := by
    rw [← hs.eq_dropWhile (by decide)]
    rfl
  exact absurd (h ':' hc) (by decide)

theorem Stops.takeWhile {t : List Char} (h : Stops t) : t.takeWhile isNumeric = [] := by
  cases t with
  | nil => rfl
  | cons c rest =>
    refine List.takeWhile_cons_of_neg fun hc => ?_
    have hspace : isSpace c = false := by
      refine Bool.eq_false_iff.mpr fun hspace => ?_
      have hnumber : Lead.of? c = some .number := if_pos hc
      rw [Lead.of?_of_isSpace hspace] at hnumber
      cases hnumber
    have hhead : c ∈ ((c :: rest).dropWhile isSpace).head? := by
      rw [List.dropWhile_cons_of_neg (by simp [hspace])]
      rfl
    have hfalse : isNumeric c = false := by rcases h c hhead with rfl | rfl | rfl <;> rfl
    rw [hfalse] at hc
    cases hc

theorem isNumber_append {l m s t : List Char} (hl : IsNumber l) (hm : IsNumber m) (hs : Stops s)
    (ht : Stops t) (heq : l ++ s = m ++ t) : l = m ∧ s = t := by
  have htake : (l ++ s).takeWhile isNumeric = (m ++ t).takeWhile isNumeric :=
    congrArg (List.takeWhile isNumeric) heq
  rw [List.takeWhile_append_of_pos hl.numeric.2, List.takeWhile_append_of_pos hm.numeric.2,
    hs.takeWhile, ht.takeWhile, List.append_nil, List.append_nil] at htake
  rw [htake] at heq
  exact ⟨htake, List.append_cancel_left heq⟩

theorem string_eq {x y : String} {s t u : List Char} (h : ReadsChars x.toList s t)
    (h' : ReadsChars y.toList s u) : x = y ∧ t = u := by
  obtain ⟨hx, ht⟩ := h.unique h'
  exact ⟨String.toList_inj.mp hx, ht⟩

theorem Item.ofMember_injective : Function.Injective Item.ofMember := by
  intro m n h
  cases m
  cases n
  cases h
  rfl

theorem Item.value_injective : Function.Injective Item.value := by
  intro v w h
  cases h
  rfl

theorem Reads.lead_eq {i j : Item} {s t u : List Char} (h : Reads (.item i) s t)
    (h' : Reads (.item j) s u) : i.lead = j.lead := by
  obtain ⟨c, rest, hs, hc⟩ := h.lead
  obtain ⟨d, rest', hs', hd⟩ := h'.lead
  have hcd : c = d := (List.cons.inj (hs.symm.trans hs')).1
  rw [← hcd, hc] at hd
  exact Option.some.inj hd

/-- What a text says is settled by it, and so is where that ends. -/
def Phrase.Settled : Phrase → List Char → List Char → Prop
  | item i, s, t => ∀ j u, Reads (.item j) s u → Stops t → Stops u → i = j ∧ t = u
  | list is, s, t => ∀ js u, Reads (.list js) s u → Closes t → Closes u → is = js ∧ t = u

/-- The items that are always written the same way. -/
def Lead.word? : Lead → Option (Item × List Char)
  | null => some (.value .null, ['n', 'u', 'l', 'l'])
  | yes => some (.value (.bool true), ['t', 'r', 'u', 'e'])
  | no => some (.value (.bool false), ['f', 'a', 'l', 's', 'e'])
  | _ => none

theorem Reads.eq_word {i : Item} {s t : List Char} (h : Reads (.item i) s t)
    {w : Item × List Char} (hw : i.lead.word? = some w) : i = w.1 ∧ s = w.2 ++ t := by
  cases h with
  | null => cases hw; exact ⟨rfl, rfl⟩
  | yes => cases hw; exact ⟨rfl, rfl⟩
  | no => cases hw; exact ⟨rfl, rfl⟩
  | _ => cases hw

theorem settled_word {i : Item} {s t : List Char} (h : Reads (.item i) s t)
    {w : Item × List Char} (hw : i.lead.word? = some w) : (Phrase.item i).Settled s t := by
  intro j u h' _ _
  have hw' : j.lead.word? = some w := by rw [← h.lead_eq h', hw]
  obtain ⟨hi, hs⟩ := h.eq_word hw
  obtain ⟨hj, hs'⟩ := h'.eq_word hw'
  exact ⟨hi.trans hj.symm, List.append_cancel_left (hs.symm.trans hs')⟩

theorem settled_number {literal : List Char} (t : List Char) (hl : IsNumber literal) :
    (Phrase.item (.value (.number literal))).Settled (literal ++ t) t := by
  intro j u h' ht hu
  have hlead := (Reads.number t hl).lead_eq h'
  generalize hs : literal ++ t = s at h'
  cases h' with
  | number _ hm =>
    obtain ⟨rfl, rfl⟩ := isNumber_append hl hm ht hu hs
    exact ⟨rfl, rfl⟩
  | _ => cases hlead

/-- A quote begins strings and members, which the colon tells apart. -/
theorem settled_string {x : String} {s t : List Char} (hx : ReadsChars x.toList s t) :
    (Phrase.item (.value (.string x))).Settled ('"' :: s) t := by
  intro j u h' ht _
  have hlead := (Reads.string hx).lead_eq h'
  generalize hs : '"' :: s = s' at h'
  cases h' with
  | string hy =>
    cases hs
    obtain ⟨rfl, rfl⟩ := string_eq hx hy
    exact ⟨rfl, rfl⟩
  | member hy hcolon =>
    cases hs
    obtain ⟨rfl, rfl⟩ := string_eq hx hy
    exact absurd hcolon ht.not_colon
  | _ => cases hlead

theorem settled_array {vs : List Value} {s t : List Char}
    (h : Reads (.list (vs.map .value)) s (']' :: t))
    (ih : (Phrase.list (vs.map .value)).Settled s (']' :: t)) :
    (Phrase.item (.value (.array vs))).Settled ('[' :: s) t := by
  intro j u h' _ _
  have hlead := (Reads.array h).lead_eq h'
  generalize hs : '[' :: s = s' at h'
  cases h' with
  | array hws =>
    cases hs
    obtain ⟨hlist, hrest⟩ := ih _ _ hws ⟨_, _, rfl, .inl rfl⟩ ⟨_, _, rfl, .inl rfl⟩
    have hvs := List.map_injective_iff.mpr Item.value_injective hlist
    rw [hvs, (List.cons.inj hrest).2]
    exact ⟨rfl, rfl⟩
  | _ => cases hlead

theorem settled_object {ms : List (String × Value)} {s t : List Char}
    (h : Reads (.list (ms.map .ofMember)) s ('\x7d' :: t))
    (ih : (Phrase.list (ms.map .ofMember)).Settled s ('\x7d' :: t)) :
    (Phrase.item (.value (.object ms))).Settled ('\x7b' :: s) t := by
  intro j u h' _ _
  have hlead := (Reads.object h).lead_eq h'
  generalize hs : '\x7b' :: s = s' at h'
  cases h' with
  | object hns =>
    cases hs
    obtain ⟨hlist, hrest⟩ := ih _ _ hns ⟨_, _, rfl, .inr rfl⟩ ⟨_, _, rfl, .inr rfl⟩
    have hms := List.map_injective_iff.mpr Item.ofMember_injective hlist
    rw [hms, (List.cons.inj hrest).2]
    exact ⟨rfl, rfl⟩
  | _ => cases hlead

/-- Items behind blanks are read from the same place, so it is enough that one of them is settled
there. -/
theorem Reads.unique_behind {i j : Item} {s v v' w w' : List Char} (hspace : Spaces s v)
    (hi : Reads (.item i) v w) (hspace' : Spaces s v') (hj : Reads (.item j) v' w')
    (settled : (Phrase.item i).Settled v w) (hw : Stops w) (hw' : Stops w') : i = j ∧ w = w' := by
  have hv := (hi.eq_dropWhile hspace).trans (hj.eq_dropWhile hspace').symm
  rw [← hv] at hj
  exact settled j w' hj hw hw'

/-- What comes behind blanks is the same, if it is no blank itself. -/
theorem Spaces.unique {c : Char} {s t u : List Char} (hc : isSpace c = false)
    (h : Spaces s (c :: t)) (h' : Spaces s (c :: u)) : t = u :=
  (List.cons.inj ((h.eq_dropWhile hc).trans (h'.eq_dropWhile hc).symm)).2

theorem settled_member {name : String} {v : Value} {s u w x t : List Char}
    (hname : ReadsChars name.toList s u) (hcolon : Spaces u (':' :: w)) (hspace : Spaces w x)
    (h : Reads (.item (.value v)) x t) (ih : (Phrase.item (.value v)).Settled x t) :
    (Phrase.item (.member name v)).Settled ('"' :: s) t := by
  intro j u' h' ht hu
  have hlead := (Reads.member hname hcolon hspace h).lead_eq h'
  generalize hs : '"' :: s = s' at h'
  cases h' with
  | string hy =>
    cases hs
    obtain ⟨rfl, rfl⟩ := string_eq hname hy
    exact absurd hcolon hu.not_colon
  | member hname' hcolon' hspace' h' =>
    cases hs
    obtain ⟨rfl, rfl⟩ := string_eq hname hname'
    obtain rfl := hcolon.unique rfl hcolon'
    obtain ⟨hv, rfl⟩ := h.unique_behind hspace hspace' h' ih ht hu
    cases hv
    exact ⟨rfl, rfl⟩
  | _ => cases hlead

theorem Closes.unique {s t u : List Char} (ht : Closes t) (hu : Closes u) (h : Spaces s t)
    (h' : Spaces s u) : t = u :=
  (ht.eq_dropWhile h).trans (hu.eq_dropWhile h').symm

theorem settled_nil {s t : List Char} (hspace : Spaces s t) : (Phrase.list []).Settled s t := by
  intro js u h' ht hu
  cases h' with
  | nil hspace' => exact ⟨rfl, ht.unique hu hspace hspace'⟩
  | one hspace' hj => exact absurd hj (ht.not_item hspace hspace')
  | more hspace' hj => exact absurd hj (ht.not_item hspace hspace')

/-- The comma tells whether an item is the last one. -/
theorem settled_one {i : Item} {s v w t : List Char} (hspace : Spaces s v)
    (hi : Reads (.item i) v w) (hafter : Spaces w t) (ih : (Phrase.item i).Settled v w) :
    (Phrase.list [i]).Settled s t := by
  intro js u h' ht hu
  have hw : Stops w := ht.stops hafter
  cases h' with
  | nil hspace' => exact absurd hi (hu.not_item hspace' hspace)
  | one hspace' hj hafter' =>
    obtain ⟨rfl, rfl⟩ := hi.unique_behind hspace hspace' hj ih hw (hu.stops hafter')
    exact ⟨rfl, ht.unique hu hafter hafter'⟩
  | more hspace' hj hcomma =>
    obtain ⟨_, rfl⟩ := hi.unique_behind hspace hspace' hj ih hw (stops_of_comma hcomma)
    exact absurd hcomma (ht.not_comma hafter)

theorem settled_more {i k : Item} {is : List Item} {s v w x t : List Char} (hspace : Spaces s v)
    (hi : Reads (.item i) v w) (hcomma : Spaces w (',' :: x)) (ih : (Phrase.item i).Settled v w)
    (ihrest : (Phrase.list (k :: is)).Settled x t) : (Phrase.list (i :: k :: is)).Settled s t := by
  intro js u h' ht hu
  have hw : Stops w := stops_of_comma hcomma
  cases h' with
  | nil hspace' => exact absurd hi (hu.not_item hspace' hspace)
  | one hspace' hj hafter' =>
    obtain ⟨_, rfl⟩ := hi.unique_behind hspace hspace' hj ih hw (hu.stops hafter')
    exact absurd hcomma (hu.not_comma hafter')
  | more hspace' hj hcomma' hrest' =>
    obtain ⟨rfl, rfl⟩ := hi.unique_behind hspace hspace' hj ih hw (stops_of_comma hcomma')
    obtain rfl := hcomma.unique rfl hcomma'
    obtain ⟨hlist, rfl⟩ := ihrest _ _ hrest' ht hu
    cases hlist
    exact ⟨rfl, rfl⟩

theorem Reads.settled {p : Phrase} {s t : List Char} (h : Reads p s t) : p.Settled s t := by
  induction h with
  | null t => exact settled_word (.null t) rfl
  | yes t => exact settled_word (.yes t) rfl
  | no t => exact settled_word (.no t) rfl
  | number t hl => exact settled_number t hl
  | string hx => exact settled_string hx
  | array h ih => exact settled_array h ih
  | object h ih => exact settled_object h ih
  | member hname hcolon hspace h ih => exact settled_member hname hcolon hspace h ih
  | nil hspace => exact settled_nil hspace
  | one hspace hi hafter ih => exact settled_one hspace hi hafter ih
  | more hspace hi hcomma _ ih ihrest => exact settled_more hspace hi hcomma ih ihrest

/-- A text says one thing at most. -/
theorem IsText.unique {v w : Value} {s : List Char} (h : IsText v s) (h' : IsText w s) : v = w := by
  obtain ⟨u, t, hspace, hv, hafter⟩ := h
  obtain ⟨u', t', hspace', hw, hafter'⟩ := h'
  have hitem := hv.unique_behind hspace hspace' hw hv.settled (stops_of_nil hafter)
    (stops_of_nil hafter')
  exact Item.value_injective hitem.1

end ProtoNaming.Json
