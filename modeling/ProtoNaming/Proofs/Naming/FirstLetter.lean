import ProtoNaming.Naming.ClassBased
import ProtoNaming.Proofs.Identifier.ClassForm
import ProtoNaming.Proofs.Naming.Accessor

namespace ProtoNaming

namespace Identifier

open Text

def IsWordChar (c : Char) : Prop := c.isAlphanum = true ∨ c = '_'

instance (c : Char) : Decidable (IsWordChar c) := inferInstanceAs (Decidable (_ ∨ _))

def StartsUpper (cs : List Char) : Prop := cs.head?.any Char.isUpper = true

instance : DecidablePred StartsUpper := fun _ => inferInstanceAs (Decidable (_ = true))

/-- An underscore comes first, and the first character that is none is a letter. -/
def IsUnderscored (cs : List Char) : Prop :=
  cs.head? = some '_' ∧ (cs.find? (· ≠ '_')).any Char.isAlpha = true

instance : DecidablePred IsUnderscored := fun _ => inferInstanceAs (Decidable (_ ∧ _))

section

variable {letter : Option Char × Char → Char} {cs : List Char}

theorem head?_letters_after_underscore (hletter : ∀ c, letter (some '_', c) = c.toUpper) :
    (((withPrevious (some '_') cs).filter (·.2 ≠ '_')).map letter).head? =
      (cs.find? (· ≠ '_')).map Char.toUpper := by
  induction cs with
  | nil => rfl
  | cons c cs ih =>
    by_cases hc : c = '_'
    · subst hc
      rw [withPrevious_cons, List.filter_cons_of_neg (by simp), ih,
        List.find?_cons_of_neg (by simp)]
    · rw [withPrevious_cons, List.filter_cons_of_pos (by simpa using hc), List.map_cons,
        List.head?_cons, hletter, List.find?_cons_of_pos (by simpa using hc), Option.map_some]

/-- A conversion that lowers the first letter and raises the ones after underscores gives a capital
at the head only where underscores were. -/
theorem startsUpper_letters_iff (hfirst : ∀ c, letter (none, c) = c.toLower)
    (hletter : ∀ c, letter (some '_', c) = c.toUpper) :
    StartsUpper (((withPrevious none cs).filter (·.2 ≠ '_')).map letter) ↔ IsUnderscored cs := by
  cases cs with
  | nil => exact iff_of_false Bool.false_ne_true fun h => Option.some_ne_none _ h.1.symm
  | cons c cs =>
    by_cases hc : c = '_'
    · subst hc
      rw [withPrevious_cons, List.filter_cons_of_neg (by simp), StartsUpper,
        head?_letters_after_underscore hletter, IsUnderscored, List.find?_cons_of_neg (by simp),
        Option.any_map]
      simp
    · rw [withPrevious_cons, List.filter_cons_of_pos (by simpa using hc), List.map_cons, hfirst]
      refine iff_of_false ?_ fun h => hc (Option.some.inj h.1)
      simp [StartsUpper]

end

variable {name : String}

theorem IsWordChar.toNat_lt {c : Char} (h : IsWordChar c) : c.toNat < 128 := by
  rcases h with h | rfl
  · exact toNat_lt_of_isAlphanum h
  · decide

theorem IsWordChar.isAlphanum_eq {c : Char} (h : IsWordChar c) :
    c.isAlphanum = decide (c ≠ '_') := by
  rcases h with h | rfl
  · have hne : c ≠ '_' := by
      rintro rfl
      exact absurd h (by decide)
    rw [h, decide_eq_true hne]
  · rfl

theorem startsUpper_append {cs ds : List Char} (h : cs ≠ []) :
    StartsUpper (cs ++ ds) ↔ StartsUpper cs := by
  rw [StartsUpper, StartsUpper, List.head?_append_of_ne_nil cs h]

theorem startsUpper_classCamel_iff (h : ∀ c ∈ name.toList, IsWordChar c) :
    StartsUpper (classCamel name false).toList ↔ IsUnderscored name.toList := by
  have hkept : (withPrevious none name.toList).filter (·.2.isAlphanum) =
      (withPrevious none name.toList).filter (·.2 ≠ '_') :=
    List.filter_congr fun p hp => (h p.2 (mem_of_mem_withPrevious hp).1).isAlphanum_eq
  rw [toList_classCamel, hkept]
  exact startsUpper_letters_iff (fun _ => rfl) fun _ => rfl

theorem startsUpper_lowerCamel_iff (h : ∀ c ∈ name.toList, IsWordChar c) :
    StartsUpper (lowerCamel name).toList ↔ IsUnderscored name.toList := by
  rw [toList_lowerCamel fun c hc => (h c hc).toNat_lt]
  exact startsUpper_letters_iff (fun _ => rfl) fun _ => rfl

theorem lowerCamel_eq_empty_iff (h : ∀ c ∈ name.toList, IsWordChar c) :
    lowerCamel name = "" ↔ ∀ c ∈ name.toList, c = '_' := by
  have hall := List.forall_mem_map (f := (·.2)) (l := withPrevious none name.toList)
    (P := fun c => c = '_')
  rw [map_snd_withPrevious] at hall
  rw [← String.toList_inj, toList_lowerCamel fun c hc => (h c hc).toNat_lt, String.toList_empty,
    List.map_eq_nil_iff, List.filter_eq_nil_iff, hall]
  simp

end Identifier

namespace Field

open Identifier

/-- The member's name begins with a capital for the field names in which a letter comes behind
underscores at the head, and the accessor for these and for a repeated field of no letter and no
digit, whose accessor is the suffix alone. -/
theorem startsUpper_iff_underscored (f : Field) (h : ∀ c ∈ f.name.toList, IsWordChar c) :
    (StartsUpper f.memberName.toList ↔ IsUnderscored f.name.toList) ∧
    (StartsUpper f.accessor.toList ↔
      IsUnderscored f.name.toList ∨ f.isRepeated = true ∧ ∀ c ∈ f.name.toList, c = '_') := by
  refine ⟨startsUpper_classCamel_iff h, ?_⟩
  cases hf : f.isRepeated with
  | false => simp [accessor_of_not_repeated hf, startsUpper_lowerCamel_iff h]
  | true =>
    rw [accessor_of_repeated hf, String.toList_append]
    by_cases hempty : lowerCamel f.name = ""
    · have hunder := (lowerCamel_eq_empty_iff h).mp hempty
      rw [hempty]
      exact iff_of_true rfl (.inr ⟨rfl, hunder⟩)
    · have hhead : (lowerCamel f.name).toList ≠ [] := fun hnil => hempty (String.toList_inj.mp hnil)
      rw [startsUpper_append hhead, startsUpper_lowerCamel_iff h, ← lowerCamel_eq_empty_iff h]
      simp [hempty]

end Field

namespace FileDescriptor

/-- A field with an underscore at the head, a repeated one of underscores alone, and a plain one. -/
def withUnderscores : FileDescriptor where
  name := some "a.proto"
  package := some "p"
  messages := [{
    name := some "M"
    fields := [fieldLabelled 1 1 "_id", fieldLabelled 3 2 "__", fieldLabelled 1 3 "User_9a"] }]

/-- The underscore at the head brings a capital to the head of both names. -/
theorem startsUpper_withUnderscores :
    withUnderscores.build = .ok withUnderscores.toFile ∧
      ∃ m ∈ withUnderscores.toFile.messages, ∃ f ∈ m.fields,
        (∀ c ∈ f.name.toList, Identifier.IsWordChar c) ∧
        Identifier.StartsUpper f.memberName.toList ∧ Identifier.StartsUpper f.accessor.toList := by
  refine ⟨rfl, _, List.mem_cons_self, _, List.mem_cons_self, ?_⟩
  exact ⟨List.all_iff_forall_prop.mp (by decide), by decide, by decide⟩

theorem startsUpper_iff_underscored_withUnderscores :
    ∃ m ∈ withUnderscores.toFile.messages, ∃ f ∈ m.fields, ∃ g ∈ m.fields, ∃ h ∈ m.fields,
      (∀ c ∈ f.name.toList, Identifier.IsWordChar c) ∧
      (∀ c ∈ g.name.toList, Identifier.IsWordChar c) ∧
      (∀ c ∈ h.name.toList, Identifier.IsWordChar c) ∧
      (Identifier.StartsUpper f.memberName.toList ∧ Identifier.StartsUpper f.accessor.toList) ∧
      (¬Identifier.StartsUpper g.memberName.toList ∧ Identifier.StartsUpper g.accessor.toList) ∧
      ¬Identifier.StartsUpper h.memberName.toList ∧ ¬Identifier.StartsUpper h.accessor.toList := by
  have hid : ∀ c ∈ "_id".toList, Identifier.IsWordChar c := List.all_iff_forall_prop.mp (by decide)
  have hbare : ∀ c ∈ "__".toList, Identifier.IsWordChar c := List.all_iff_forall_prop.mp (by decide)
  have hall : ∀ c ∈ "__".toList, c = '_' := List.all_iff_forall_prop.mp (by decide)
  have huser : ∀ c ∈ "User_9a".toList, Identifier.IsWordChar c :=
    List.all_iff_forall_prop.mp (by decide)
  refine ⟨_, List.mem_cons_self, _, List.mem_cons_self, _,
    List.mem_cons_of_mem _ List.mem_cons_self, _,
    List.mem_cons_of_mem _ (List.mem_cons_of_mem _ List.mem_cons_self), hid, hbare, huser, ?_⟩
  refine ⟨?_, ?_, ?_⟩
  · rw [(Field.startsUpper_iff_underscored _ hid).1, (Field.startsUpper_iff_underscored _ hid).2]
    decide
  · rw [(Field.startsUpper_iff_underscored _ hbare).1,
      (Field.startsUpper_iff_underscored _ hbare).2]
    exact ⟨by decide, .inr ⟨rfl, hall⟩⟩
  · rw [(Field.startsUpper_iff_underscored _ huser).1,
      (Field.startsUpper_iff_underscored _ huser).2]
    decide

end FileDescriptor

end ProtoNaming
