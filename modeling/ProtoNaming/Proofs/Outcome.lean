import Mathlib.Data.List.Forall2

namespace ProtoNaming

variable {α β ε : Type} {f : α → Except ε β}

theorem bind_eq_ok_iff {x : Except ε α} {b : β} :
    x >>= f = .ok b ↔ ∃ a, x = .ok a ∧ f a = .ok b := by
  cases x with
  | error e => exact ⟨(nomatch ·), fun ⟨_, h, _⟩ => nomatch h⟩
  | ok a => exact ⟨fun h => ⟨a, rfl, h⟩, fun ⟨_, ha, h⟩ => by cases ha; exact h⟩

theorem map_eq_ok_iff {g : α → β} {x : Except ε α} {b : β} :
    x.map g = .ok b ↔ ∃ a, x = .ok a ∧ g a = b := by
  cases x with
  | error e => exact ⟨(nomatch ·), fun ⟨_, h, _⟩ => nomatch h⟩
  | ok a =>
    constructor
    · exact fun h => ⟨a, rfl, Except.ok.inj h⟩
    · rintro ⟨_, ha, rfl⟩
      cases ha
      rfl

theorem mapM_eq_ok_iff {as : List α} {bs : List β} :
    as.mapM f = .ok bs ↔ List.Forall₂ (fun a b => f a = .ok b) as bs := by
  induction as generalizing bs with
  | nil =>
    rw [List.forall₂_nil_left_iff]
    exact ⟨fun h => (Except.ok.inj h).symm, fun h => by rw [h]; rfl⟩
  | cons a as ih =>
    rw [List.mapM_cons, List.forall₂_cons_left_iff]
    constructor
    · intro h
      obtain ⟨b, ha, h⟩ := bind_eq_ok_iff.mp h
      obtain ⟨bs', has, h⟩ := bind_eq_ok_iff.mp h
      exact ⟨b, bs', ha, ih.mp has, (Except.ok.inj h).symm⟩
    · rintro ⟨b, bs', ha, has, rfl⟩
      rw [ha, ih.mpr has]
      rfl

/-- A pass over a list stops at the first member it fails for. -/
theorem mapM_eq_error_iff {as : List α} {e : ε} :
    as.mapM f = .error e ↔ ∃ earlier a later, as = earlier ++ a :: later ∧
      (∀ a' ∈ earlier, ∃ b, f a' = .ok b) ∧ f a = .error e := by
  induction as with
  | nil => exact ⟨(nomatch ·), fun ⟨_, _, _, heq, _⟩ => by simp at heq⟩
  | cons a as ih =>
    rw [List.mapM_cons]
    cases ha : f a with
    | error e' =>
      constructor
      · intro h
        cases h
        exact ⟨[], a, as, rfl, List.forall_mem_nil _, ha⟩
      · rintro ⟨earlier, a', later, heq, hok, he⟩
        cases earlier with
        | nil =>
          obtain ⟨rfl, _⟩ := List.cons.inj heq
          rw [← ha, he]
          rfl
        | cons c earlier =>
          obtain ⟨rfl, _⟩ := List.cons.inj heq
          obtain ⟨b, hb⟩ := hok a List.mem_cons_self
          rw [ha] at hb
          cases hb
    | ok b =>
      have hrest : (do let b ← Except.ok b; let bs ← as.mapM f; pure (b :: bs)) = .error e ↔
          as.mapM f = .error e := by
        cases as.mapM f <;> simp [bind, Except.bind, pure, Except.pure]
      rw [hrest, ih]
      constructor
      · rintro ⟨earlier, a', later, rfl, hok, he⟩
        exact ⟨a :: earlier, a', later, rfl, List.forall_mem_cons.mpr ⟨⟨b, ha⟩, hok⟩, he⟩
      · rintro ⟨earlier, a', later, heq, hok, he⟩
        cases earlier with
        | nil =>
          obtain ⟨rfl, _⟩ := List.cons.inj heq
          rw [ha] at he
          cases he
        | cons c earlier =>
          exact ⟨earlier, a', later, (List.cons.inj heq).2, (List.forall_mem_cons.mp hok).2, he⟩

end ProtoNaming
