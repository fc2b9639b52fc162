import Mathlib.Data.List.Induction
import ProtoNaming.Plugin.Options
import ProtoNaming.Proofs.Outcome
import ProtoNaming.Proofs.Text.Pieces

namespace ProtoNaming

section

variable {α : Type}

/-- The members of a list at their first places, each once. -/
structure FirstsOf (named firsts : List α) : Prop where
  ne_nil : firsts ≠ []
  nodup : firsts.Nodup
  mem_iff : ∀ a, a ∈ firsts ↔ a ∈ named
  ordered : firsts.Pairwise fun a b =>
    ∃ earlier later, named = earlier ++ a :: later ∧ b ∉ earlier

variable {a b : α} {named firsts firsts' : List α}

theorem eq_of_first_before_first {earlier later earlier' later' : List α}
    (h : named = earlier ++ a :: later) (hb : b ∉ earlier)
    (h' : named = earlier' ++ b :: later') (ha : a ∉ earlier') : a = b := by
  rcases List.append_eq_append_iff.mp (h.symm.trans h') with
    ⟨between, heq, htail⟩ | ⟨between, heq, htail⟩
  · cases between with
    | nil => exact (List.cons.inj htail).1
    | cons c between =>
      obtain ⟨rfl, _⟩ := List.cons.inj htail
      exact absurd (heq ▸ List.mem_append_right earlier List.mem_cons_self) ha
  · cases between with
    | nil => exact (List.cons.inj htail).1.symm
    | cons c between =>
      obtain ⟨rfl, _⟩ := List.cons.inj htail
      exact absurd (heq ▸ List.mem_append_right earlier' List.mem_cons_self) hb

theorem FirstsOf.eq (h : FirstsOf named firsts) (h' : FirstsOf named firsts') :
    firsts = firsts' := by
  have hperm : firsts.Perm firsts' := by
    rw [List.perm_ext_iff_of_nodup h.nodup h'.nodup]
    intro a
    rw [h.mem_iff, h'.mem_iff]
  refine List.Perm.eq_of_pairwise (fun a b _ _ hab hba => ?_) h.ordered h'.ordered hperm
  obtain ⟨earlier, later, heq, hb⟩ := hab
  obtain ⟨earlier', later', heq', ha⟩ := hba
  exact eq_of_first_before_first heq hb heq' ha

variable [DecidableEq α]

theorem eraseDups_concat (as : List α) (a : α) :
    (as ++ [a]).eraseDups = if a ∈ as then as.eraseDups else as.eraseDups ++ [a] := by
  rw [List.eraseDups_append, List.removeAll]
  by_cases ha : a ∈ as <;> simp [ha, List.eraseDups_cons]

theorem nodup_eraseDups (named : List α) : named.eraseDups.Nodup := by
  induction named using List.reverseRecOn with
  | nil => exact List.nodup_nil
  | append_singleton as a ih =>
    rw [eraseDups_concat]
    split
    · exact ih
    · next ha =>
      rw [List.nodup_append]
      refine ⟨ih, List.pairwise_singleton _ a, fun b hb c hc => ?_⟩
      rw [List.mem_singleton.mp hc]
      exact fun he => ha (he ▸ List.mem_eraseDups.mp hb)

theorem firstsOf_eraseDups (h : named ≠ []) : FirstsOf named named.eraseDups := by
  refine ⟨?_, nodup_eraseDups named, fun a => List.mem_eraseDups, ?_⟩
  · obtain ⟨a, as, rfl⟩ := List.exists_cons_of_ne_nil h
    rw [List.eraseDups_cons]
    exact List.cons_ne_nil _ _
  · clear h
    induction named using List.reverseRecOn with
    | nil => exact List.Pairwise.nil
    | append_singleton as a ih =>
      have hkept : as.eraseDups.Pairwise fun b c =>
          ∃ earlier later, as ++ [a] = earlier ++ b :: later ∧ c ∉ earlier := by
        refine ih.imp ?_
        rintro b c ⟨earlier, later, heq, hc⟩
        exact ⟨earlier, later ++ [a], by rw [heq, List.append_assoc]; rfl, hc⟩
      rw [eraseDups_concat]
      split
      · exact hkept
      · next ha =>
        rw [List.pairwise_append]
        refine ⟨hkept, List.pairwise_singleton _ _, fun b hb c hc => ?_⟩
        obtain ⟨earlier, later, heq⟩ := List.append_of_mem (List.mem_eraseDups.mp hb)
        rw [List.mem_singleton.mp hc]
        refine ⟨earlier, later ++ [a], by rw [heq, List.append_assoc]; rfl, fun hmem => ha ?_⟩
        rw [heq]
        exact List.mem_append_left _ hmem

end

namespace Options

open Text

/-- A piece with a key and a value: the trimmed texts around its first equals sign, which is not its
first character. -/
def IsPair (piece key value : List Char) : Prop :=
  ∃ before after, piece = before ++ '=' :: after ∧ '=' ∉ before ∧ before ≠ [] ∧
    IsTrimmed before key ∧ IsTrimmed after value

/-- The value that the last pair with the key has. -/
inductive LastValue (key : List Char) : List (List Char) → Option (List Char) → Prop
  | missing {pieces} (h : ∀ piece ∈ pieces, ∀ value, ¬IsPair piece key value) :
      LastValue key pieces none
  | found {earlier piece later value} (h : IsPair piece key value)
      (hlast : ∀ other ∈ later, ∀ value, ¬IsPair other key value) :
      LastValue key (earlier ++ piece :: later) (some value)

/-- The targets of a list such as `class+namespaced`, or all without one. -/
inductive AsksFor : Option (List Char) → List Target → Prop
  | all : AsksFor none [.classBased, .namespaced]
  | listed {value parts named targets} (hcut : IsCut '+' value parts)
      (hnamed : List.Forall₂ (fun part (t : Target) => IsTrimmed part t.name.toList) parts named)
      (hfirsts : FirstsOf named targets) : AsksFor (some value) targets

/-- The first part of a list that names no target. -/
inductive FirstUnknown : Option (List Char) → List Char → Prop
  | part {value earlier part later name} (hcut : IsCut '+' value (earlier ++ part :: later))
      (hknown : ∀ other ∈ earlier, ∃ t : Target, IsTrimmed other t.name.toList)
      (hname : IsTrimmed part name) (hunknown : ∀ t : Target, name ≠ t.name.toList) :
      FirstUnknown (some value) name

def valueOf (key piece : List Char) : Option (List Char) :=
  (pair? piece).bind fun (k, value) => if k = key then some value else none

def targetsOf : Option (List Char) → Except NamingError (List Target)
  | some value => targetList value
  | none => .ok Target.all

section

variable {piece key value : List Char} {pieces : List (List Char)}

theorem pair?_eq_some_iff : pair? piece = some (key, value) ↔ IsPair piece key value := by
  unfold pair?
  constructor
  · intro h
    split at h
    · next c before after hcut =>
      obtain ⟨heq, hfree⟩ := cutAt?_eq_some_iff.mp hcut
      obtain ⟨rfl, rfl⟩ := Prod.mk.inj (Option.some.inj h)
      exact ⟨c :: before, after, heq, hfree, List.cons_ne_nil c before, isTrimmed_trim _,
        isTrimmed_trim after⟩
    · cases h
  · rintro ⟨before, after, heq, hfree, hne, hkey, hvalue⟩
    obtain ⟨c, before, rfl⟩ := List.exists_cons_of_ne_nil hne
    rw [cutAt?_eq_some_iff.mpr ⟨heq, hfree⟩, ← isTrimmed_iff.mp hkey, ← isTrimmed_iff.mp hvalue]

theorem forall_isPair_iff {P : List Char → List Char → Prop} :
    (∀ key value, IsPair piece key value → P key value) ↔ ∀ p ∈ pair? piece, P p.1 p.2 := by
  simp only [← pair?_eq_some_iff, Prod.forall, Option.mem_def]

theorem valueOf_eq_some_iff : valueOf key piece = some value ↔ IsPair piece key value := by
  rw [← pair?_eq_some_iff, valueOf, Option.bind_eq_some_iff]
  constructor
  · rintro ⟨⟨k, v⟩, hp, hv⟩
    change (if k = key then some v else none) = some value at hv
    obtain ⟨rfl, hvalue⟩ := Option.ite_none_right_eq_some.mp hv
    rw [hp, Option.some.inj hvalue]
  · intro hp
    exact ⟨(key, value), hp, if_pos rfl⟩

theorem valueOf_eq_none_iff : valueOf key piece = none ↔ ∀ value, ¬IsPair piece key value := by
  rw [Option.eq_none_iff_forall_ne_some]
  exact forall_congr' fun value => not_congr valueOf_eq_some_iff

/-- A piece that starts with its equals sign has no key, and one with a blank key is never asked
for; the two need not be told apart. -/
theorem valueOf_append {before : List Char} (hfree : '=' ∉ before) (hkey : key ≠ [])
    (after : List Char) :
    valueOf key (before ++ '=' :: after) =
      if trim before = key then some (trim after) else none := by
  have hcut : cutAt? '=' (before ++ '=' :: after) = some (before, after) :=
    cutAt?_eq_some_iff.mpr ⟨rfl, hfree⟩
  cases before with
  | nil =>
    rw [if_neg (show trim [] ≠ key from Ne.symm hkey), valueOf, pair?, hcut]
    rfl
  | cons c before =>
    rw [valueOf, pair?, hcut]
    rfl

theorem lastValue_iff {found : Option (List Char)} :
    LastValue key pieces found ↔ (pieces.filterMap (valueOf key)).getLast? = found := by
  constructor
  · intro h
    cases h with
    | missing h =>
      rw [List.getLast?_eq_none_iff, List.filterMap_eq_nil_iff]
      exact fun piece hp => valueOf_eq_none_iff.mpr (h piece hp)
    | @found earlier piece later value h hlast =>
      have hnone : later.filterMap (valueOf key) = [] :=
        List.filterMap_eq_nil_iff.mpr fun other ho => valueOf_eq_none_iff.mpr (hlast other ho)
      rw [List.filterMap_append, List.filterMap_cons_some (valueOf_eq_some_iff.mpr h), hnone,
        List.getLast?_concat]
  · rintro rfl
    cases hfound : (pieces.filterMap (valueOf key)).getLast? with
    | none =>
      rw [List.getLast?_eq_none_iff, List.filterMap_eq_nil_iff] at hfound
      exact .missing fun piece hp => valueOf_eq_none_iff.mp (hfound piece hp)
    | some value =>
      obtain ⟨values, hvalues⟩ := List.getLast?_eq_some_iff.mp hfound
      obtain ⟨front, back, rfl, _, hback⟩ := List.filterMap_eq_append_iff.mp hvalues
      obtain ⟨between, piece, later, rfl, _, hp, hlater⟩ := List.filterMap_eq_cons_iff.mp hback
      rw [← List.append_assoc]
      refine .found (valueOf_eq_some_iff.mp hp) fun other ho => ?_
      exact valueOf_eq_none_iff.mp (List.filterMap_eq_nil_iff.mp hlater other ho)

theorem value?_pairs (key parameter : String) :
    value? key (pairs parameter) =
      ((splitOn ',' parameter.toList).filterMap (valueOf key.toList)).getLast? := by
  rw [value?, pairs, List.filterMap_filterMap]
  rfl

theorem parse_eq (parameter : String) :
    parse parameter = (targetsOf (value? "targets" (pairs parameter))).map fun targets =>
      ⟨(value? "log_level" (pairs parameter)).map String.ofList, targets⟩ := by
  unfold parse
  cases hlist : value? "targets" (pairs parameter) with
  | none =>
    simp only [hlist]
    rfl
  | some value =>
    simp only [hlist, targetsOf]
    cases targetList value <;> rfl

end

section

variable {part : List Char} {list : Option (List Char)} {t : Target} {targets : List Target}
  {e : NamingError}

theorem target_eq_ok_iff : target part = .ok t ↔ IsTrimmed part t.name.toList := by
  have hname : Target.ofName? (String.ofList (trim part)) = some t ↔
      IsTrimmed part t.name.toList := by
    rw [Target.ofName?_eq_some_iff, isTrimmed_iff, String.ext_iff, String.toList_ofList, eq_comm]
  rw [← hname, target]
  cases Target.ofName? (String.ofList (trim part)) <;> simp

theorem target_eq_error_iff :
    target part = .error e ↔ ∃ name, IsTrimmed part name ∧ (∀ t : Target, name ≠ t.name.toList) ∧
      e = .unknownTarget (String.ofList name) := by
  constructor
  · intro h
    refine ⟨trim part, isTrimmed_trim part, fun t hname => ?_, ?_⟩
    · rw [target_eq_ok_iff.mpr (isTrimmed_iff.mpr hname)] at h
      cases h
    · simp only [target] at h
      split at h
      · cases h
      · exact (Except.error.inj h).symm
  · rintro ⟨name, hname, hunknown, rfl⟩
    cases ht : target part with
    | ok t =>
      rw [target_eq_ok_iff, isTrimmed_iff, isTrimmed_iff.mp hname] at ht
      exact absurd ht (hunknown t)
    | error e =>
      simp only [target, isTrimmed_iff.mp hname] at ht
      split at ht
      · cases ht
      · exact ht.symm

theorem targetsOf_eq_ok_iff : targetsOf list = .ok targets ↔ AsksFor list targets := by
  cases list with
  | none =>
    constructor
    · intro h
      cases h
      exact .all
    · rintro ⟨⟩
      rfl
  | some value =>
    have hmap : targetList value = .ok targets ↔
        ∃ named, (splitOn '+' value).mapM target = .ok named ∧ named.eraseDups = targets := by
      rw [targetList]
      cases (splitOn '+' value).mapM target <;> simp [Except.map]
    simp only [targetsOf, hmap, mapM_eq_ok_iff, target_eq_ok_iff]
    constructor
    · rintro ⟨named, hnamed, rfl⟩
      refine .listed (isCut_iff.mpr rfl) hnamed (firstsOf_eraseDups ?_)
      rintro rfl
      exact splitOn_ne_nil '+' value (List.forall₂_nil_right_iff.mp hnamed)
    · intro h
      cases h with
      | @listed _ parts named _ hcut hnamed hfirsts =>
        rw [isCut_iff] at hcut
        have hne : named ≠ [] := by
          rintro rfl
          rw [List.forall₂_nil_right_iff.mp hnamed] at hcut
          exact splitOn_ne_nil '+' value hcut
        rw [hcut]
        exact ⟨named, hnamed, (firstsOf_eraseDups hne).eq hfirsts⟩

theorem targetsOf_eq_error_iff :
    targetsOf list = .error e ↔
      ∃ name, FirstUnknown list name ∧ e = .unknownTarget (String.ofList name) := by
  cases list with
  | none => exact ⟨(nomatch ·), fun ⟨_, h, _⟩ => nomatch h⟩
  | some value =>
    have hmap : targetList value = .error e ↔ (splitOn '+' value).mapM target = .error e := by
      rw [targetList]
      cases (splitOn '+' value).mapM target <;> simp [Except.map]
    simp only [targetsOf, hmap, mapM_eq_error_iff, target_eq_ok_iff, target_eq_error_iff]
    constructor
    · rintro ⟨earlier, part, later, hcut, hknown, name, hname, hunknown, he⟩
      exact ⟨name, .part (isCut_iff.mpr hcut) hknown hname hunknown, he⟩
    · rintro ⟨name, h, he⟩
      cases h with
      | part hcut hknown hname hunknown =>
        exact ⟨_, _, _, isCut_iff.mp hcut, hknown, name, hname, hunknown, he⟩

end

section

variable {parameter : String} {pieces : List (List Char)}
  {level list : Option (List Char)} {e : NamingError} {options : Options}

theorem parse_of_lastValue (hcut : IsCut ',' parameter.toList pieces)
    (hlevel : LastValue "log_level".toList pieces level)
    (hlist : LastValue "targets".toList pieces list) :
    parse parameter =
      (targetsOf list).map fun targets => ⟨level.map String.ofList, targets⟩ := by
  rw [parse_eq, value?_pairs, value?_pairs, isCut_iff.mp hcut, lastValue_iff.mp hlevel,
    lastValue_iff.mp hlist]

theorem exists_lastValues (parameter : String) :
    ∃ pieces level list, IsCut ',' parameter.toList pieces ∧
      LastValue "log_level".toList pieces level ∧ LastValue "targets".toList pieces list :=
  ⟨_, _, _, isCut_iff.mpr rfl, lastValue_iff.mpr rfl, lastValue_iff.mpr rfl⟩

theorem parse_eq_ok_iff (hcut : IsCut ',' parameter.toList pieces)
    (hlevel : LastValue "log_level".toList pieces level)
    (hlist : LastValue "targets".toList pieces list) :
    parse parameter = .ok options ↔
      options.logLevel = level.map String.ofList ∧ AsksFor list options.targets := by
  rw [parse_of_lastValue hcut hlevel hlist, ← targetsOf_eq_ok_iff]
  obtain ⟨logLevel, targets⟩ := options
  cases targetsOf list with
  | error e => simp [Except.map]
  | ok targets => simp [Except.map, eq_comm]

theorem parse_eq_error_iff (hcut : IsCut ',' parameter.toList pieces)
    (hlevel : LastValue "log_level".toList pieces level)
    (hlist : LastValue "targets".toList pieces list) :
    parse parameter = .error e ↔
      ∃ name, FirstUnknown list name ∧ e = .unknownTarget (String.ofList name) := by
  rw [parse_of_lastValue hcut hlevel hlist, ← targetsOf_eq_error_iff]
  cases targetsOf list <;> simp [Except.map]

end

end Options

end ProtoNaming
