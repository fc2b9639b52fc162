import Mathlib.Algebra.Group.Int.Defs
import Mathlib.Algebra.Group.Nat.Defs
import ProtoNaming.Proofs.Text.Utf8
import ProtoNaming.Wire.Varint

namespace ProtoNaming.Wire

open Text

theorem encodeVarint_of_lt {n : Nat} (h : n < 128) : encodeVarint n = [UInt8.ofNat n] := by
  rw [encodeVarint, if_pos h]

theorem encodeVarint_of_ge {n : Nat} (h : 128 ≤ n) :
    encodeVarint n = UInt8.ofNat (n % 128 + 128) :: encodeVarint (n / 128) := by
  rw [encodeVarint, if_neg (by omega)]

theorem encodeVarint_ne_nil (n : Nat) : encodeVarint n ≠ [] := by
  rw [encodeVarint]
  split <;> simp

/-- A number takes one byte for each seven bits begun. -/
theorem length_encodeVarint {n : Nat} (k : Nat) (hl : k = 0 ∨ 128 ^ k ≤ n)
    (hh : n < 128 ^ (k + 1)) : (encodeVarint n).length = k + 1 := by
  induction k generalizing n with
  | zero => rw [encodeVarint_of_lt (by omega), List.length_singleton]
  | succ k ih =>
    have hl' := hl.resolve_left (Nat.succ_ne_zero k)
    rw [Nat.pow_succ] at hl' hh
    have hpos : 1 ≤ 128 ^ k := Nat.one_le_pow _ _ (by decide)
    rw [encodeVarint_of_ge (by omega), List.length_cons, ih]
    · exact Or.inr ((Nat.le_div_iff_mul_le (by decide)).mpr hl')
    · exact (Nat.div_lt_iff_lt_mul (by decide)).mpr hh

theorem readBits_encodeVarint_of_lt {limit more n : Nat} (rest : List UInt8)
    {last : UInt8 → List UInt8 → Except DecodeError (Nat × List UInt8)}
    (h : n < 128 ^ (more + 1)) :
    readBits limit last (more + 1) (encodeVarint n ++ rest) = .ok (n, rest) := by
  induction more generalizing n with
  | zero =>
    have hb : (UInt8.ofNat n).toNat = n := toNat_ofNat_of_lt (by omega)
    rw [encodeVarint_of_lt (by omega), List.cons_append, List.nil_append, readBits,
      if_pos (by omega), hb]
  | succ more ih =>
    by_cases hn : n < 128
    · have hb : (UInt8.ofNat n).toNat = n := toNat_ofNat_of_lt (by omega)
      rw [encodeVarint_of_lt hn, List.cons_append, List.nil_append, readBits, if_pos (by omega), hb]
    · have hb : (UInt8.ofNat (n % 128 + 128)).toNat = n % 128 + 128 := toNat_ofNat_of_lt (by omega)
      rw [Nat.pow_succ] at h
      rw [encodeVarint_of_ge (by omega), List.cons_append, readBits, if_neg (by omega),
        ih ((Nat.div_lt_iff_lt_mul (by decide)).mpr h), hb, Except.map]
      have value : (n % 128 + 128) % 128 + 128 * (n / 128) = n := by omega
      simp only [value]

/-- Of a longer number the byte after which none may follow is read on its own. -/
theorem readBits_encodeVarint_of_ge {limit more n : Nat} {b : UInt8} {tail : List UInt8}
    (rest : List UInt8) {last : UInt8 → List UInt8 → Except DecodeError (Nat × List UInt8)}
    (h : 128 ^ more ≤ n) (hb : encodeVarint (n / 128 ^ more) = b :: tail) :
    readBits limit last more (encodeVarint n ++ rest) =
      (last b (tail ++ rest)).map fun (m, rest) => (n % 128 ^ more + 128 ^ more * m, rest) := by
  induction more generalizing n with
  | zero =>
    rw [Nat.pow_zero, Nat.div_one] at hb
    rw [hb, List.cons_append, readBits]
    cases last b (tail ++ rest) with
    | error e => rfl
    | ok r => simp [Except.map, Nat.mod_one]
  | succ more ih =>
    have hpos : 1 ≤ 128 ^ more := Nat.one_le_pow _ _ (by decide)
    rw [Nat.pow_succ] at h
    have hd : (UInt8.ofNat (n % 128 + 128)).toNat = n % 128 + 128 := toNat_ofNat_of_lt (by omega)
    have hq : n / 128 / 128 ^ more = n / 128 ^ (more + 1) := by
      rw [Nat.div_div_eq_div_mul, Nat.pow_succ, Nat.mul_comm]
    rw [encodeVarint_of_ge (by omega), List.cons_append, readBits, if_neg (by omega),
      ih ((Nat.le_div_iff_mul_le (by decide)).mpr h) (hq ▸ hb), hd]
    have hm : n % 128 ^ (more + 1) = n % 128 + 128 * (n / 128 % 128 ^ more) := by
      rw [Nat.pow_succ, Nat.mul_comm, Nat.mod_mul]
    cases last b (tail ++ rest) with
    | error e => rfl
    | ok r =>
      obtain ⟨m, rest'⟩ := r
      have value : (n % 128 + 128) % 128 + 128 * (n / 128 % 128 ^ more + 128 ^ more * m) =
          n % 128 ^ (more + 1) + 128 ^ (more + 1) * m := by
        rw [hm, Nat.pow_succ, Nat.mul_comm (128 ^ more) 128, Nat.mul_assoc]
        omega
      simp only [Except.map, value]

theorem readUint32_encodeVarint {limit n : Nat} (rest : List UInt8) (h : n < 2 ^ 32) :
    readUint32 limit (encodeVarint n ++ rest) = .ok (n, rest) := by
  by_cases hn : n < 128 ^ 4
  · exact readBits_encodeVarint_of_lt rest hn
  · have hb : (UInt8.ofNat (n / 128 ^ 4)).toNat = n / 128 ^ 4 := toNat_ofNat_of_lt (by omega)
    rw [readUint32, readBits_encodeVarint_of_ge rest (by omega) (encodeVarint_of_lt (by omega)),
      readFifth, if_pos (by omega), hb, List.nil_append]
    have value : n % 128 ^ 4 + 128 ^ 4 * (n / 128 ^ 4 % 16) = n := by omega
    simp only [Except.map, value]

theorem readFifth_of_ge {limit : Nat} {b : UInt8} {tail : List UInt8} (rest : List UInt8)
    (hb : 128 ≤ b.toNat) (hl : tail.length = 5) :
    readFifth limit b (tail ++ rest) = .ok (b.toNat % 16, rest) := by
  obtain ⟨tenth, ht⟩ := List.length_eq_one_iff.mp (show (tail.drop 4).length = 1 by simp [hl])
  have hd : (tail ++ rest).drop 4 = tenth :: rest := by
    rw [List.drop_append_of_le_length (by omega), ht, List.cons_append, List.nil_append]
  rw [readFifth, if_neg (by omega), hd]

/-- Of a number of ten bytes the low 32 bits are read, and all ten bytes. -/
theorem readUint32_encodeVarint_of_ge {limit n : Nat} (rest : List UInt8) (hl : 2 ^ 63 ≤ n)
    (hh : n < 2 ^ 64) : readUint32 limit (encodeVarint n ++ rest) = .ok (n % 2 ^ 32, rest) := by
  have hb : (UInt8.ofNat (n / 128 ^ 4 % 128 + 128)).toNat = n / 128 ^ 4 % 128 + 128 :=
    toNat_ofNat_of_lt (by omega)
  have hfive := length_encodeVarint (n := n / 128 ^ 4 / 128) 4 (by omega) (by omega)
  rw [readUint32, readBits_encodeVarint_of_ge rest (by omega) (encodeVarint_of_ge (by omega)),
    readFifth_of_ge rest (by omega) hfive, hb]
  have value : n % 128 ^ 4 + 128 ^ 4 * ((n / 128 ^ 4 % 128 + 128) % 16) = n % 2 ^ 32 := by omega
  simp only [Except.map, value]

theorem readUint64_encodeVarint {limit n : Nat} (rest : List UInt8) (h : n < 2 ^ 64) :
    readUint64 limit (encodeVarint n ++ rest) = .ok (n, rest) := by
  by_cases hn : n < 128 ^ 9
  · exact readBits_encodeVarint_of_lt rest hn
  · have hb : (UInt8.ofNat (n / 128 ^ 9)).toNat = n / 128 ^ 9 := toNat_ofNat_of_lt (by omega)
    rw [readUint64, readBits_encodeVarint_of_ge rest (by omega) (encodeVarint_of_lt (by omega)),
      readTenth, if_pos (by omega), hb, List.nil_append]
    have value : n % 128 ^ 9 + 128 ^ 9 * (n / 128 ^ 9 % 2) = n := by omega
    simp only [Except.map, value]

end ProtoNaming.Wire
