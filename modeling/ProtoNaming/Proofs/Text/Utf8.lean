import ProtoNaming.Text.Utf8

namespace ProtoNaming.Text

theorem toNat_ofNat_of_lt {n : Nat} (h : n < 256) : (UInt8.ofNat n).toNat = n := by
  rw [UInt8.toNat_ofNat']
  exact Nat.mod_eq_of_lt h

theorem toNat_continuation (n : Nat) : (UInt8.ofNat (n % 64 + 0x80)).toNat = n % 64 + 0x80 :=
  toNat_ofNat_of_lt (by omega)

theorem decodeUtf8From_lead {b : UInt8} {p : PartialChar} (bs : List UInt8)
    (hb : 0x80 ≤ b.toNat) (hp : PartialChar.ofLead? b.toNat = some p) :
    decodeUtf8From none (b :: bs) = decodeUtf8From (some p) bs := by
  have hf : decodeFirst b.toNat = ([], some p) := by
    rw [decodeFirst, if_neg (by omega), hp]
  rw [decodeUtf8From, hf, List.nil_append]

theorem decodeUtf8From_tail {owed low high bits : Nat} {b : UInt8} (bs : List UInt8)
    (hl : low ≤ b.toNat) (hh : b.toNat ≤ high) :
    decodeUtf8From (some ⟨owed + 1, low, high, bits⟩) (b :: bs) =
      decodeUtf8From (some ⟨owed, 0x80, 0xBF, bits * 64 + (b.toNat - 0x80)⟩) bs := by
  rw [decodeUtf8From, decodeNext, if_pos ⟨hl, hh⟩]
  rfl

theorem decodeUtf8From_last {low high bits : Nat} {b : UInt8} (bs : List UInt8)
    (hl : low ≤ b.toNat) (hh : b.toNat ≤ high) :
    decodeUtf8From (some ⟨0, low, high, bits⟩) (b :: bs) =
      Char.ofNat (bits * 64 + (b.toNat - 0x80)) :: decodeUtf8From none bs := by
  rw [decodeUtf8From, decodeNext, if_pos ⟨hl, hh⟩]
  rfl

theorem decodeUtf8From_two_bytes {n : Nat} (bs : List UInt8) (hl : 0x80 ≤ n) (hh : n ≤ 0x7FF) :
    decodeUtf8From none
      (UInt8.ofNat (n / 64 % 0x20 + 0xC0) :: UInt8.ofNat (n % 64 + 0x80) :: bs) =
      Char.ofNat n :: decodeUtf8From none bs := by
  have hb : (UInt8.ofNat (n / 64 % 0x20 + 0xC0)).toNat = n / 64 + 0xC0 := by
    rw [toNat_ofNat_of_lt] <;> omega
  have hc := toNat_continuation n
  have lead : PartialChar.ofLead? (n / 64 + 0xC0) = some ⟨0, 0x80, 0xBF, n / 64 + 0xC0 - 0xC0⟩ := by
    rw [PartialChar.ofLead?, if_neg (by omega), if_pos (by omega)]
  rw [decodeUtf8From_lead _ (by omega) (hb ▸ lead),
    decodeUtf8From_last _ (by omega) (by omega), hb, hc]
  have value : (n / 64 + 0xC0 - 0xC0) * 64 + (n % 64 + 0x80 - 0x80) = n := by omega
  rw [value]

theorem decodeUtf8From_three_bytes {n : Nat} (bs : List UInt8) (hl : 0x800 ≤ n) (hh : n ≤ 0xFFFF)
    (hv : n < 0xD800 ∨ 0xDFFF < n) :
    decodeUtf8From none
      (UInt8.ofNat (n / 4096 % 0x10 + 0xE0) :: UInt8.ofNat (n / 64 % 64 + 0x80)
        :: UInt8.ofNat (n % 64 + 0x80) :: bs) =
      Char.ofNat n :: decodeUtf8From none bs := by
  have hb : (UInt8.ofNat (n / 4096 % 0x10 + 0xE0)).toNat = n / 4096 + 0xE0 := by
    rw [toNat_ofNat_of_lt] <;> omega
  have hc := toNat_continuation n
  have hd := toNat_continuation (n / 64)
  have lead : PartialChar.ofLead? (n / 4096 + 0xE0) =
      some ⟨1, if n / 4096 + 0xE0 = 0xE0 then 0xA0 else 0x80,
        if n / 4096 + 0xE0 = 0xED then 0x9F else 0xBF, n / 4096 + 0xE0 - 0xE0⟩ := by
    rw [PartialChar.ofLead?, if_neg (by omega), if_neg (by omega), if_pos (by omega)]
  rw [decodeUtf8From_lead _ (by omega) (hb ▸ lead),
    decodeUtf8From_tail _ (by split <;> omega) (by split <;> omega),
    decodeUtf8From_last _ (by omega) (by omega), hb, hc, hd]
  have value : ((n / 4096 + 0xE0 - 0xE0) * 64 + (n / 64 % 64 + 0x80 - 0x80)) * 64
      + (n % 64 + 0x80 - 0x80) = n := by omega
  rw [value]

theorem decodeUtf8From_four_bytes {n : Nat} (bs : List UInt8) (hl : 0x10000 ≤ n)
    (hh : n < 0x110000) :
    decodeUtf8From none
      (UInt8.ofNat (n / 262144 % 0x08 + 0xF0) :: UInt8.ofNat (n / 4096 % 64 + 0x80)
        :: UInt8.ofNat (n / 64 % 64 + 0x80) :: UInt8.ofNat (n % 64 + 0x80) :: bs) =
      Char.ofNat n :: decodeUtf8From none bs := by
  have hb : (UInt8.ofNat (n / 262144 % 0x08 + 0xF0)).toNat = n / 262144 + 0xF0 := by
    rw [toNat_ofNat_of_lt] <;> omega
  have hc := toNat_continuation n
  have hd := toNat_continuation (n / 64)
  have he := toNat_continuation (n / 4096)
  have lead : PartialChar.ofLead? (n / 262144 + 0xF0) =
      some ⟨2, if n / 262144 + 0xF0 = 0xF0 then 0x90 else 0x80,
        if n / 262144 + 0xF0 = 0xF4 then 0x8F else 0xBF, n / 262144 + 0xF0 - 0xF0⟩ := by
    rw [PartialChar.ofLead?, if_neg (by omega), if_neg (by omega), if_neg (by omega),
      if_pos (by omega)]
  rw [decodeUtf8From_lead _ (by omega) (hb ▸ lead),
    decodeUtf8From_tail _ (by split <;> omega) (by split <;> omega),
    decodeUtf8From_tail _ (by omega) (by omega),
    decodeUtf8From_last _ (by omega) (by omega), hb, hc, hd, he]
  have value : (((n / 262144 + 0xF0 - 0xF0) * 64 + (n / 4096 % 64 + 0x80 - 0x80)) * 64
      + (n / 64 % 64 + 0x80 - 0x80)) * 64 + (n % 64 + 0x80 - 0x80) = n := by omega
  rw [value]

/-- The bytes of a character are read back at the start of a character, whatever follows them. -/
theorem decodeUtf8From_utf8EncodeChar (c : Char) (bs : List UInt8) :
    decodeUtf8From none (String.utf8EncodeChar c ++ bs) = c :: decodeUtf8From none bs := by
  have hv : c.toNat < 0xD800 ∨ 0xDFFF < c.toNat ∧ c.toNat < 0x110000 := c.valid
  have hc : Char.ofNat c.toNat = c := Char.ofNat_toNat c
  have he := String.utf8EncodeChar.eq_1 c
  simp only [show c.val.toNat = c.toNat from rfl] at he
  rw [he]
  split
  · have hb : (UInt8.ofNat c.toNat).toNat = c.toNat := toNat_ofNat_of_lt (by omega)
    simp only [List.cons_append, List.nil_append, decodeUtf8From, decodeFirst, hb,
      show c.toNat < 0x80 by omega, if_true, hc]
  · split
    · have h := decodeUtf8From_two_bytes bs (n := c.toNat) (by omega) (by omega)
      rwa [hc] at h
    · split
      · have h := decodeUtf8From_three_bytes bs (n := c.toNat) (by omega) (by omega) (by omega)
        rwa [hc] at h
      · have h := decodeUtf8From_four_bytes bs (n := c.toNat) (by omega) (by omega)
        rwa [hc] at h

theorem decodeUtf8_encodeUtf8 (cs : List Char) : decodeUtf8 (encodeUtf8 cs) = cs := by
  induction cs with
  | nil => rfl
  | cons c cs ih =>
    rw [encodeUtf8, List.flatMap_cons, decodeUtf8, decodeUtf8From_utf8EncodeChar]
    exact congrArg (c :: ·) ih

end ProtoNaming.Text
