import ProtoNaming.Proofs.Wire.Depth

namespace ProtoNaming.Wire

open Text

def IsCutOf (cut whole : List UInt8) : Prop := cut <+: whole ∧ cut ≠ whole

/-- What may be wrong with a message whose bytes stop inside a field, at a limit. -/
def DecodeError.IsAtCut (limit : Nat) (e : DecodeError) : Prop :=
  e = .tooDeep ∨ e = .outOfRange limit 1 limit ∨ e = .spanOutOfRange

namespace IsCutOf

variable {cut whole xs ys : List UInt8}

theorem length_lt (h : IsCutOf cut whole) : cut.length < whole.length :=
  Nat.lt_of_not_le fun hge => h.2 (h.1.eq_of_length_le hge)

theorem eq_nil_of_singleton {b : UInt8} (h : IsCutOf cut [b]) : cut = [] := by
  have hlt := h.length_lt
  rw [List.length_singleton, Nat.lt_one_iff] at hlt
  exact List.length_eq_zero_iff.mp hlt

theorem of_cons {b c : UInt8} (h : IsCutOf (b :: cut) (c :: whole)) :
    b = c ∧ IsCutOf cut whole := by
  obtain ⟨hb, hprefix⟩ := List.cons_prefix_cons.mp h.1
  refine ⟨hb, hprefix, fun he => h.2 ?_⟩
  rw [hb, he]

theorem append_cases (h : IsCutOf cut (xs ++ ys)) :
    IsCutOf cut xs ∨ ∃ zs, cut = xs ++ zs ∧ IsCutOf zs ys := by
  by_cases hx : xs <+: cut
  · obtain ⟨zs, rfl⟩ := hx
    refine .inr ⟨zs, rfl, (List.prefix_append_right_inj xs).mp h.1, fun he => h.2 ?_⟩
    rw [he]
  · rcases List.prefix_or_prefix_of_prefix h.1 (List.prefix_append xs ys) with hc | hc
    · exact .inl ⟨hc, fun he => hx (he ▸ List.prefix_rfl)⟩
    · exact absurd hc hx

end IsCutOf

/-- A number of which the last byte is missing is not read. -/
theorem readBits_of_cut {limit more n : Nat} {cut : List UInt8}
    {last : UInt8 → List UInt8 → Except DecodeError (Nat × List UInt8)}
    (hn : n < 128 ^ (more + 1)) (h : IsCutOf cut (encodeVarint n)) :
    readBits limit last more cut = .error (.outOfRange limit 1 limit) := by
  induction more generalizing n cut with
  | zero =>
    rw [encodeVarint_of_lt (by omega)] at h
    rw [h.eq_nil_of_singleton, readBits]
  | succ more ih =>
    cases cut with
    | nil => rw [readBits]
    | cons b cut =>
      by_cases hsmall : n < 128
      · rw [encodeVarint_of_lt hsmall] at h
        cases h.eq_nil_of_singleton
      · rw [Nat.pow_succ] at hn
        rw [encodeVarint_of_ge (by omega)] at h
        obtain ⟨rfl, hcut⟩ := h.of_cons
        have hb : (UInt8.ofNat (n % 128 + 128)).toNat = n % 128 + 128 :=
          toNat_ofNat_of_lt (by omega)
        rw [readBits, if_neg (by omega), ih ((Nat.div_lt_iff_lt_mul (by decide)).mpr hn) hcut]
        rfl

theorem readUint32_of_cut {limit n : Nat} {cut : List UInt8} (hn : n < 2 ^ 32)
    (h : IsCutOf cut (encodeVarint n)) :
    readUint32 limit cut = .error (.outOfRange limit 1 limit) :=
  readBits_of_cut (by omega) h

section

variable {levels limit number : Nat} {inner : Option RecordReader} {type : MessageType}
  {kind : Kind} {cut kept whole : List UInt8}

theorem readField_of_cut_tag (hk : type.kind? number = some kind)
    (h : IsCutOf cut (encodeTag number 2)) :
    readField levels inner type limit cut = .error (.outOfRange limit 1 limit) := by
  have hn := MessageType.lt_of_kind? hk
  have ht : readUint32 limit cut = .error (.outOfRange limit 1 limit) :=
    readUint32_of_cut (by omega) h
  rw [readField, ht]
  rfl

theorem readValue_of_cut_count (hw : kind.wireType = 2) (hl : whole.length < 2 ^ 32)
    (h : IsCutOf cut (encodeVarint whole.length)) :
    readValue inner limit kind cut = .error (.outOfRange limit 1 limit) := by
  have hc : readUint32 limit cut = .error (.outOfRange limit 1 limit) := readUint32_of_cut hl h
  cases kind with
  | text => rw [readValue, hc]; rfl
  | message inner => rw [readValue, hc]; rfl
  | int32 => cases hw
  | uint64 => cases hw
  | bool => cases hw

theorem readValue_text_of_cut (hl : whole.length < 2 ^ 32) (h : IsCutOf kept whole) :
    readValue inner limit .text (encodeVarint whole.length ++ kept) =
      .ok (.text (String.ofList (decodeUtf8 kept)), []) := by
  have hle : kept.length ≤ whole.length := Nat.le_of_lt h.length_lt
  simp only [readValue, readUint32_encodeVarint kept hl, bind, Except.bind, pure, Except.pure,
    List.take_of_length_le hle, List.drop_of_length_le hle]

theorem readValue_message_of_cut {read : RecordReader} {type : MessageType}
    (hl : whole.length < 2 ^ 32) (h : IsCutOf kept whole) :
    readValue (some read) limit (.message type) (encodeVarint whole.length ++ kept) =
      .error .spanOutOfRange := by
  simp only [readValue, readUint32_encodeVarint kept hl, bind, Except.bind, h.length_lt, if_true,
    throw, throwThe, MonadExceptOf.throw]

/-- A field of counted bytes is not read unless these have begun. -/
theorem readField_of_cut (hk : type.kind? number = some kind) (hw : kind.wireType = 2)
    (hl : whole.length < 2 ^ 32) (h : IsCutOf cut (encodeTag number 2 ++ encodeCounted whole)) :
    readField levels inner type limit cut = .error (.outOfRange limit 1 limit) ∨
      ∃ kept, cut = encodeTag number 2 ++ (encodeVarint whole.length ++ kept) ∧
        IsCutOf kept whole := by
  rcases h.append_cases with htag | ⟨rest, rfl, hrest⟩
  · exact .inl (readField_of_cut_tag hk htag)
  · rcases hrest.append_cases with hcount | ⟨kept, rfl, hkept⟩
    · left
      rw [readField_known rest hk (by decide), readValue_of_cut_count hw hl hcount]
      rfl
    · exact .inr ⟨kept, rfl, hkept⟩

end

theorem encodeFields_append (r r' : Record) :
    encodeFields (r ++ r') = encodeFields r ++ encodeFields r' := by
  induction r with
  | nil => rfl
  | cons f r ih => rw [List.cons_append, encodeFields, ih, encodeFields, List.append_assoc]

theorem Record.Fits.of_append {type : MessageType} {r r' : Record} (h : Fits type (r ++ r')) :
    Fits type r := by
  induction r with
  | nil => exact .nil
  | cons f r ih =>
    cases h with
    | value hk hv hr => exact .value hk hv (ih hr)
    | message hk hb hr => exact .message hk hb (ih hr)

theorem ne_encodeFields_take {r : Record} {bytes : List UInt8}
    (h : ∀ k ≤ r.length, bytes ≠ encodeFields (r.take k)) (k : Nat) :
    bytes ≠ encodeFields (r.take k) := by
  by_cases hk : k ≤ r.length
  · exact h k hk
  · have hall := h r.length (Nat.le_refl _)
    rw [List.take_length] at hall
    rwa [List.take_of_length_le (Nat.le_of_not_le hk)]

theorem exists_field_of_cut {r : Record} {bytes : List UInt8} (h : bytes <+: encodeFields r)
    (hinside : ∀ k, bytes ≠ encodeFields (r.take k)) :
    ∃ before number v after cut, r = before ++ (number, v) :: after ∧
      bytes = encodeFields before ++ cut ∧ cut ≠ [] ∧ IsCutOf cut (encodeField number v) := by
  induction r generalizing bytes with
  | nil => exact absurd (List.prefix_nil.mp h) (hinside 0)
  | cons f r ih =>
    obtain ⟨number, v⟩ := f
    have hwhole : bytes ≠ encodeFields ((number, v) :: r) := by
      have hall := hinside (r.length + 1)
      rwa [List.take_of_length_le (Nat.le_of_eq List.length_cons)] at hall
    rw [encodeFields] at h hwhole
    have hcut : IsCutOf bytes (encodeField number v ++ encodeFields r) := ⟨h, hwhole⟩
    rcases hcut.append_cases with hfirst | ⟨rest, rfl, hrest⟩
    · exact ⟨[], number, v, r, bytes, rfl, rfl, hinside 0, hfirst⟩
    · have hlater : ∀ k, rest ≠ encodeFields (r.take k) := by
        intro k he
        apply hinside (k + 1)
        rw [List.take_succ_cons, encodeFields, he]
      obtain ⟨before, n, w, after, cut, rfl, rfl, hne, hc⟩ := ih hrest.1 hlater
      refine ⟨(number, v) :: before, n, w, after, cut, rfl, ?_, hne, hc⟩
      rw [encodeFields, List.append_assoc]

section

variable {levels limit : Nat} {type : MessageType} {before : Record} {cut : List UInt8}

/-- What comes of a cut field comes of the bytes before it and of the field, unless the messages
before it are too deep. -/
theorem readRecord_append_of_fits (h : Record.Fits type before)
    (hl : (encodeFields before).length < 2 ^ 32) (hd : Record.depth before ≤ levels) :
    readRecord levels type limit (encodeFields before ++ cut) =
      (readRecord levels type limit cut).map (before ++ ·) :=
  readRecord_append_of_fields (fields_encodeFields h hd) hl limit cut

/-- The error of a cut field is that of the whole, unless a message before it is too deep. -/
theorem readRecord_of_cut_error {e : DecodeError} (h : Record.Fits type before)
    (hl : (encodeFields before).length < 2 ^ 32) (hne : cut ≠ [])
    (he : readField levels (innerReader levels) type limit cut = .error e)
    (hcut : e.IsAtCut limit) :
    ∃ e, readRecord levels type limit (encodeFields before ++ cut) = .error e ∧
      e.IsAtCut limit := by
  by_cases hd : levels < Record.depth before
  · exact ⟨.tooDeep, readRecord_append_encodeFields_error h hl hd limit cut, .inl rfl⟩
  · have hread : readRecord levels type limit cut = .error e := by
      rw [readRecord_eq, readFields_of_field_error hne he]
    refine ⟨e, ?_, hcut⟩
    rw [readRecord_append_of_fits h hl (Nat.le_of_not_lt hd), hread]
    rfl

theorem readRecord_of_cut_text {number : Nat} {kept whole : List UInt8}
    (h : Record.Fits type before) (hl : (encodeFields before).length < 2 ^ 32)
    (hd : Record.depth before ≤ levels) (hk : type.kind? number = some .text)
    (hw : whole.length < 2 ^ 32) (hc : IsCutOf kept whole) :
    readRecord levels type limit
        (encodeFields before ++ (encodeTag number 2 ++ (encodeVarint whole.length ++ kept))) =
      .ok (before ++ [(number, .text (String.ofList (decodeUtf8 kept)))]) := by
  have hf : readField levels (innerReader levels) type limit
      (encodeTag number 2 ++ (encodeVarint whole.length ++ kept)) =
        .ok (some (number, .text (String.ofList (decodeUtf8 kept))), []) := by
    rw [readField_known _ hk (by decide), readValue_text_of_cut hw hc]
    rfl
  rw [readRecord_append_of_fits h hl hd, readRecord_eq, readFields_of_field hf, readFields_nil]
  rfl

end

end ProtoNaming.Wire
