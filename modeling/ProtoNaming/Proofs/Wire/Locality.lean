import ProtoNaming.Proofs.Wire.InPlace
import ProtoNaming.Proofs.Wire.Reading

namespace ProtoNaming.Wire

/-- The error where `n` bytes come before all that is read. -/
def DecodeError.shift (n : Nat) : DecodeError → DecodeError
  | outOfRange pos count limit => outOfRange (n + pos) count (n + limit)
  | spanOutOfRange => spanOutOfRange
  | invalidWireType wireType pos => invalidWireType wireType (n + pos)
  | varintTooLong => varintTooLong
  | tooDeep => tooDeep

theorem DecodeError.shift_zero (e : DecodeError) : e.shift 0 = e := by
  cases e with
  | outOfRange pos count limit => rw [shift, Nat.zero_add, Nat.zero_add]
  | invalidWireType wireType pos => rw [shift, Nat.zero_add]
  | _ => rfl

/-- Readings that both give values, which are related, or both fail alike, the first one with `base`
bytes before all that the second one reads. -/
inductive Matches {α β : Type} (base : Nat) (R : α → β → Prop) :
    Except DecodeError α → Except DecodeError β → Prop
  | ok {a b} (h : R a b) : Matches base R (.ok a) (.ok b)
  | error {e e'} (h : e' = e.shift base) : Matches base R (.error e') (.error e)

namespace Matches

variable {α β γ δ : Type} {base : Nat} {R : α → β → Prop} {S : γ → δ → Prop}
  {x : Except DecodeError α} {y : Except DecodeError β}

theorem bind {f : α → Except DecodeError γ} {g : β → Except DecodeError δ} (h : Matches base R x y)
    (hfg : ∀ a b, R a b → Matches base S (f a) (g b)) : Matches base S (x >>= f) (y >>= g) := by
  cases h with
  | ok hab => exact hfg _ _ hab
  | error he => exact .error he

theorem map {f : α → γ} {g : β → δ} (h : Matches base R x y)
    (hfg : ∀ a b, R a b → S (f a) (g b)) : Matches base S (x.map f) (y.map g) := by
  cases h with
  | ok hab => exact .ok (hfg _ _ hab)
  | error he => exact .error he

theorem exists_ok {a : α} (h : Matches base R (.ok a) y) : ∃ b, y = .ok b ∧ R a b := by
  cases h with
  | ok hab => exact ⟨_, rfl, hab⟩

theorem exists_error {e' : DecodeError} (h : Matches base R (.error e') y) :
    ∃ e, y = .error e ∧ e' = e.shift base := by
  cases h with
  | error he => exact ⟨_, rfl, he⟩

theorem eq_map {limit : Nat} {x : Except DecodeError (α × Nat)} {y : Except DecodeError α}
    (h : Matches base (fun p r => p = (r, limit)) x y) :
    x = (y.mapError (·.shift base)).map fun r => (r, limit) := by
  cases h with
  | ok hp => rw [hp]; rfl
  | error he => rw [he]; rfl

theorem eq_mapError {limit : Nat} {x : Except DecodeError (α × Nat)} {y y' : Except DecodeError α}
    (h : Matches 0 (fun p r => p = (r, limit)) x y)
    (h' : Matches base (fun p r => p = (r, limit)) x y') : y = y'.mapError (·.shift base) := by
  cases h' with
  | ok hp =>
    obtain ⟨r, rfl, hr⟩ := h.exists_ok
    cases hp.symm.trans hr
    rfl
  | error he =>
    obtain ⟨e, rfl, hr⟩ := h.exists_error
    rw [Except.mapError, ← he, hr, DecodeError.shift_zero]

end Matches

/-- A position between the start of a message and its end, and the bytes from there to the end. -/
structure Stands (buffer : List UInt8) (base limit pos : Nat) (rest : List UInt8) : Prop where
  base_le : base ≤ pos
  le_limit : pos ≤ limit
  limit_le : limit ≤ buffer.length
  rest_eq : rest = unread buffer limit pos

/-- The same value, with a position and with the bytes that are left there. -/
def Leaves (buffer : List UInt8) (base limit : Nat) {α : Type} (p : α × Nat)
    (q : α × List UInt8) : Prop :=
  p.1 = q.1 ∧ Stands buffer base limit p.2 q.2

variable {buffer : List UInt8} {base limit pos : Nat} {rest : List UInt8}

namespace Stands

theorem length_eq (h : Stands buffer base limit pos rest) : rest.length = limit - pos := by
  have hlimit := h.limit_le
  rw [h.rest_eq, unread, List.length_drop, List.length_take, Nat.min_eq_left hlimit]

theorem eq_nil (h : Stands buffer base limit pos rest) (hp : limit ≤ pos) : rest = [] :=
  List.length_eq_zero_iff.mp (h.length_eq.trans (Nat.sub_eq_zero_of_le hp))

theorem outOfRange_limit (h : Stands buffer base limit pos rest) (count : Nat) :
    DecodeError.outOfRange limit count limit =
      (DecodeError.outOfRange (limit - base) count (limit - base)).shift base := by
  rw [DecodeError.shift, Nat.add_sub_cancel' (Nat.le_trans h.base_le h.le_limit)]

theorem pos_eq (h : Stands buffer base limit pos rest) :
    base + (limit - base - rest.length) = pos := by
  have hbase := h.base_le
  have hlimit := h.le_limit
  have hlength := h.length_eq
  omega

theorem outOfRange_pos (h : Stands buffer base limit pos rest) (count : Nat) :
    DecodeError.outOfRange pos count limit =
      (DecodeError.outOfRange (limit - base - rest.length) count (limit - base)).shift base := by
  rw [DecodeError.shift, h.pos_eq, Nat.add_sub_cancel' (Nat.le_trans h.base_le h.le_limit)]

theorem drop (h : Stands buffer base limit pos rest) {n : Nat} (hn : pos + n ≤ limit) :
    Stands buffer base limit (pos + n) (rest.drop n) where
  base_le := Nat.le_add_right_of_le h.base_le
  le_limit := hn
  limit_le := h.limit_le
  rest_eq := by rw [h.rest_eq, unread, List.drop_drop, unread]

theorem take (h : Stands buffer base limit pos rest) {n : Nat} (hn : pos + n ≤ limit) :
    Stands buffer base (pos + n) pos (rest.take n) where
  base_le := h.base_le
  le_limit := Nat.le_add_right pos n
  limit_le := Nat.le_trans hn h.limit_le
  rest_eq := by rw [h.rest_eq, unread, List.take_drop, List.take_take, unread, Nat.min_eq_left hn]

/-- Counted bytes that are cut at the limit, and what is left after them. -/
theorem cut (h : Stands buffer base limit pos rest) (n : Nat) :
    Stands buffer base (min (pos + n) limit) pos (rest.take n) ∧
      Stands buffer base limit (min (pos + n) limit) (rest.drop n) := by
  have hlength := h.length_eq
  have hlimit := h.le_limit
  by_cases hn : pos + n ≤ limit
  · rw [Nat.min_eq_left hn]
    exact ⟨h.take hn, h.drop hn⟩
  · have hall : rest.length ≤ n := by omega
    have hend := h.drop (n := limit - pos) (by omega)
    rw [Nat.add_sub_cancel' hlimit, List.drop_eq_nil_of_le (by omega)] at hend
    rw [Nat.min_eq_right (by omega), List.take_of_length_le hall, List.drop_eq_nil_of_le hall]
    exact ⟨h, hend⟩

theorem from_zero (h : Stands buffer base limit pos rest) : Stands buffer 0 limit pos rest :=
  ⟨Nat.zero_le pos, h.le_limit, h.limit_le, h.rest_eq⟩

theorem step (h : Stands buffer base limit pos rest) (hp : pos < limit) :
    ∃ b bs, rest = b :: bs ∧ b.toNat = byteAt buffer pos ∧
      Stands buffer base limit (pos + 1) bs := by
  have hlimit := h.limit_le
  have hlt : pos < (buffer.take limit).length := by
    rw [List.length_take]
    omega
  have hrest : rest = (buffer.take limit)[pos] :: unread buffer limit (pos + 1) := by
    rw [h.rest_eq, unread, List.drop_eq_getElem_cons hlt, unread]
  refine ⟨_, _, hrest, ?_, Nat.le_succ_of_le h.base_le, hp, hlimit, rfl⟩
  rw [byteAt, List.getElem_take, List.getElem?_eq_getElem]
  rfl

end Stands

theorem Matches.leaves_map {α β : Type} {x : Except DecodeError (α × Nat)}
    {y : Except DecodeError (α × List UInt8)} (h : Matches base (Leaves buffer base limit) x y)
    (f : α → β) :
    Matches base (Leaves buffer base limit) (x >>= fun p => pure (f p.1, p.2))
      (y >>= fun q => pure (f q.1, q.2)) := by
  refine h.bind ?_
  rintro p q ⟨hvalue, hs⟩
  exact .ok ⟨congrArg f hvalue, hs⟩

theorem matches_bitsAt {lastAt : Nat → Except DecodeError (Nat × Nat)}
    {last : UInt8 → List UInt8 → Except DecodeError (Nat × List UInt8)}
    (hlast : ∀ pos b bs, b.toNat = byteAt buffer pos → Stands buffer base limit (pos + 1) bs →
      Matches base (Leaves buffer base limit) (lastAt pos) (last b bs))
    (more : Nat) (h : Stands buffer base limit pos rest) :
    Matches base (Leaves buffer base limit) (bitsAt buffer limit lastAt more pos)
      (readBits (limit - base) last more rest) := by
  induction more generalizing pos rest with
  | zero =>
    by_cases hp : limit ≤ pos
    · rw [bitsAt, if_pos hp, h.eq_nil hp, readBits, Nat.le_antisymm h.le_limit hp]
      exact .error (h.outOfRange_limit 1)
    · obtain ⟨b, bs, rfl, hb, hs⟩ := h.step (Nat.lt_of_not_le hp)
      rw [bitsAt, if_neg hp, readBits]
      exact hlast pos b bs hb hs
  | succ more ih =>
    by_cases hp : limit ≤ pos
    · rw [bitsAt, if_pos hp, h.eq_nil hp, readBits, Nat.le_antisymm h.le_limit hp]
      exact .error (h.outOfRange_limit 1)
    · obtain ⟨b, bs, rfl, hb, hs⟩ := h.step (Nat.lt_of_not_le hp)
      rw [bitsAt, if_neg hp, readBits, hb]
      split
      · exact .ok ⟨rfl, hs⟩
      · refine (ih hs).map ?_
        rintro ⟨n, next⟩ ⟨_, rest⟩ ⟨rfl, hs⟩
        exact ⟨rfl, hs⟩

theorem matches_uint32At (h : Stands buffer base limit pos rest) :
    Matches base (Leaves buffer base limit) (uint32At buffer limit pos)
      (readUint32 (limit - base) rest) := by
  rw [uint32At_eq, readUint32]
  refine matches_bitsAt (fun pos b bs hb hs => ?_) 4 h
  rw [fifthAt, readFifth, hb]
  split
  · exact .ok ⟨rfl, hs⟩
  · -- Alone the bytes are tried for a fifth one; in place the position is held to the limit.
    have hlength := hs.length_eq
    cases hfive : bs.drop 4 with
    | nil =>
      have hshort := List.drop_eq_nil_iff.mp hfive
      rw [if_pos (by omega)]
      exact .error (hs.outOfRange_limit 10)
    | cons b rest =>
      have hlong := congrArg List.length hfive
      rw [List.length_drop, List.length_cons] at hlong
      have hrest : rest = bs.drop 5 := by
        rw [← List.tail_drop, hfive, List.tail_cons]
      rw [if_neg (by omega), hrest]
      exact .ok ⟨rfl, hs.drop (n := 5) (by omega)⟩

theorem matches_uint64At (h : Stands buffer base limit pos rest) :
    Matches base (Leaves buffer base limit) (uint64At buffer limit pos)
      (readUint64 (limit - base) rest) := by
  refine matches_bitsAt (fun pos b bs hb hs => ?_) 9 h
  rw [tenthAt, readTenth, hb]
  split
  · exact .ok ⟨rfl, hs⟩
  · exact .error rfl

theorem matches_skipVarintAt (h : Stands buffer base limit pos rest) :
    Matches base (Stands buffer base limit) (skipVarintAt buffer limit pos)
      (skipVarint (limit - base) rest) := by
  fun_induction skipVarintAt buffer limit pos generalizing rest with
  | case1 pos hp =>
    rw [h.eq_nil hp, skipVarint, Nat.le_antisymm h.le_limit hp]
    exact .error (h.outOfRange_limit 1)
  | case2 pos hp hb =>
    obtain ⟨b, bs, rfl, hbyte, hs⟩ := h.step (Nat.lt_of_not_le hp)
    rw [skipVarint, hbyte, if_pos hb]
    exact .ok hs
  | case3 pos hp hb ih =>
    obtain ⟨b, bs, rfl, hbyte, hs⟩ := h.step (Nat.lt_of_not_le hp)
    rw [skipVarint, hbyte, if_neg hb]
    exact ih hs

theorem matches_skipBytesAt (count : Nat) (h : Stands buffer base limit pos rest) :
    Matches base (Stands buffer base limit) (skipBytesAt limit count pos)
      (skipBytes (limit - base) count rest) := by
  have hlength := h.length_eq
  have hlimit := h.le_limit
  rw [skipBytesAt, skipBytes]
  by_cases hc : limit < pos + count
  · rw [if_pos hc, if_neg (by omega)]
    exact .error (h.outOfRange_pos count)
  · rw [if_neg hc, if_pos (by omega)]
    exact .ok (h.drop (by omega))

theorem matches_skipScalarAt (wireType : Nat) (h : Stands buffer base limit pos rest) :
    Matches base (Stands buffer base limit) (skipScalarAt buffer limit wireType pos)
      (skipScalar (limit - base) wireType rest) := by
  unfold skipScalarAt
  split
  · exact matches_skipVarintAt h
  · exact matches_skipBytesAt 8 h
  · refine (matches_uint32At h).bind ?_
    rintro ⟨count, next⟩ ⟨_, rest'⟩ ⟨rfl, hs⟩
    exact matches_skipBytesAt count hs
  · exact matches_skipBytesAt 4 h
  · rw [skipScalar]
    · refine .error ?_
      rw [DecodeError.shift, h.pos_eq]
    all_goals assumption

theorem matches_skipGroupItemAt (levels opened : Nat) (h : Stands buffer base limit pos rest) :
    Matches base (Leaves buffer base limit) (skipGroupItemAt buffer limit levels opened pos)
      (skipGroupItem levels (limit - base) opened rest) := by
  refine (matches_uint32At h).bind ?_
  rintro ⟨tag, next⟩ ⟨_, rest'⟩ ⟨rfl, hs⟩
  dsimp only
  split
  · exact .ok ⟨rfl, hs⟩
  · split
    · exact .error rfl
    · simp only [pure, Except.pure]
      split
      · exact .ok ⟨rfl, hs⟩
      · exact (matches_skipScalarAt (tag % 8) hs).bind fun next rest hs => .ok ⟨rfl, hs⟩

theorem skipGroups_of_ne_zero {levels opened : Nat} (bs : List UInt8) (ho : opened ≠ 0) :
    skipGroups levels limit opened bs = skipGroupItem levels limit opened bs >>=
      fun (opened', rest) => skipGroups levels limit opened' rest := by
  rw [skipGroups, if_neg ho]
  split
  · next e he => rw [he]; rfl
  · next opened' rest he => rw [he]; rfl

theorem skipGroupsAt_of_item {levels opened opened' next : Nat}
    (h : skipGroupItemAt buffer limit levels (opened + 1) pos = .ok (opened', next)) :
    skipGroupsAt buffer limit levels (opened + 1) pos =
      skipGroupsAt buffer limit levels opened' next := by
  rw [skipGroupsAt, if_neg (Nat.succ_ne_zero opened)]
  split
  · next e he => cases h.symm.trans he
  · next opened'' next' he =>
    cases h.symm.trans he
    rfl

theorem matches_skipGroupsAt (levels opened : Nat) (h : Stands buffer base limit pos rest) :
    Matches base (Stands buffer base limit) (skipGroupsAt buffer limit levels opened pos)
      (skipGroups levels (limit - base) opened rest) := by
  fun_induction skipGroupsAt buffer limit levels opened pos generalizing rest with
  | case1 pos =>
    rw [skipGroups, if_pos rfl]
    exact .ok h
  | case2 opened pos ho e he =>
    obtain ⟨e', hitem, hshift⟩ := (he ▸ matches_skipGroupItemAt levels opened h).exists_error
    rw [skipGroups_of_ne_zero rest ho, hitem]
    exact .error hshift
  | case3 opened pos ho opened' next hi ih =>
    obtain ⟨⟨_, rest'⟩, hitem, rfl, hs⟩ := (hi ▸ matches_skipGroupItemAt levels opened h).exists_ok
    rw [skipGroups_of_ne_zero rest ho, hitem]
    exact ih hs

theorem matches_skipValueAt (levels wireType : Nat) (h : Stands buffer base limit pos rest) :
    Matches base (Stands buffer base limit) (skipValueAt buffer limit levels wireType pos)
      (skipValue levels (limit - base) wireType rest) := by
  rw [skipValueAt, skipValue]
  split
  · exact matches_skipGroupsAt levels 1 h
  · exact matches_skipScalarAt wireType h

/-- Readers of messages that match wherever the message stands; the one in place ends at the
limit. -/
def ReadAlike (buffer : List UInt8) (base : Nat) (readAt : RecordReaderAt)
    (read : RecordReader) : Prop :=
  ∀ type limit pos rest, Stands buffer base limit pos rest →
    Matches base (fun p r => p = (r, limit)) (readAt type limit pos)
      (read type (limit - base) rest)

theorem matches_valueAt {innerAt : Option RecordReaderAt} {inner : Option RecordReader}
    (hinner : Option.Rel (ReadAlike buffer base) innerAt inner) (kind : Kind)
    (h : Stands buffer base limit pos rest) :
    Matches base (Leaves buffer base limit) (valueAt buffer limit innerAt kind pos)
      (readValue inner (limit - base) kind rest) := by
  cases kind with
  | text =>
    refine (matches_uint32At h).bind ?_
    rintro ⟨count, next⟩ ⟨_, rest'⟩ ⟨rfl, hs⟩
    obtain ⟨htext, hs'⟩ := hs.cut count
    exact .ok ⟨by rw [htext.rest_eq], hs'⟩
  | int32 => exact (matches_uint32At h).leaves_map fun n => Value.int (signed32 n)
  | uint64 => exact (matches_uint64At h).leaves_map Value.nat
  | bool => exact (matches_uint32At h).leaves_map fun n => Value.bool (n != 0)
  | message type =>
    refine (matches_uint32At h).bind ?_
    rintro ⟨count, next⟩ ⟨_, rest'⟩ ⟨rfl, hs⟩
    cases hinner with
    | none => exact .error rfl
    | some hread =>
      have hbase : base ≤ next := hs.base_le
      have hlength : rest'.length = limit - next := hs.length_eq
      have hlimit : next ≤ limit := hs.le_limit
      dsimp only
      by_cases hc : limit < next + count
      · rw [if_pos hc, if_pos (by omega)]
        exact .error rfl
      · -- The two limits of the message inside are `base` apart again.
        have hend : limit - base - rest'.length + count = next + count - base := by omega
        rw [if_neg hc, if_neg (by omega), hend]
        refine (hread type _ _ _ (hs.take (by omega))).bind fun p fields hp => ?_
        cases hp
        dsimp only
        rw [if_neg (not_not_intro rfl)]
        exact .ok ⟨rfl, hs.drop (by omega)⟩

theorem matches_fieldAt (levels : Nat) {innerAt : Option RecordReaderAt}
    {inner : Option RecordReader} (hinner : Option.Rel (ReadAlike buffer base) innerAt inner)
    (type : MessageType) (h : Stands buffer base limit pos rest) :
    Matches base (Leaves buffer base limit) (fieldAt buffer limit levels innerAt type pos)
      (readField levels inner type (limit - base) rest) := by
  refine (matches_uint32At h).bind ?_
  rintro ⟨tag, next⟩ ⟨_, rest'⟩ ⟨rfl, hs⟩
  dsimp only
  cases type.kind? (tag / 8) with
  | some kind => exact (matches_valueAt hinner kind hs).leaves_map fun v => some (tag / 8, v)
  | none => exact (matches_skipValueAt levels (tag % 8) hs).bind fun next rest hs => .ok ⟨rfl, hs⟩

theorem matches_fieldsAt (levels : Nat) {innerAt : Option RecordReaderAt}
    {inner : Option RecordReader} (hinner : Option.Rel (ReadAlike buffer base) innerAt inner) :
    ReadAlike buffer base (fieldsAt buffer levels innerAt) (readFields levels inner) := by
  intro type limit pos rest h
  fun_induction fieldsAt buffer levels innerAt type limit pos generalizing rest with
  | case1 pos hp =>
    rw [h.eq_nil hp, readFields_nil, Nat.le_antisymm h.le_limit hp]
    exact .ok rfl
  | case2 pos hp e he =>
    obtain ⟨e', hfield, hshift⟩ := (he ▸ matches_fieldAt levels hinner type h).exists_error
    have hlength := h.length_eq
    rw [readFields_of_field_error (List.ne_nil_of_length_pos (by omega)) hfield]
    exact .error hshift
  | case3 pos hp found next hf ih =>
    obtain ⟨⟨_, rest'⟩, hfield, rfl, hs⟩ := (hf ▸ matches_fieldAt levels hinner type h).exists_ok
    rw [readFields_of_field hfield]
    exact (ih _ hs).map fun p fields hp => by rw [hp]

theorem readAlike_recordAt (buffer : List UInt8) (base levels : Nat) :
    ReadAlike buffer base (recordAt buffer levels) (readRecord levels) := by
  induction levels with
  | zero => exact matches_fieldsAt 0 .none
  | succ levels ih => exact matches_fieldsAt (levels + 1) (.some ih)

/-- What is decoded is the message that fills the buffer. -/
theorem decodeRecord_eq_recordAt (type : MessageType) (bs : List UInt8) :
    decodeRecord type bs = (recordAt bs maxDepth type bs.length 0).map Prod.fst := by
  have hs : Stands bs 0 bs.length 0 bs :=
    ⟨Nat.le_refl 0, Nat.zero_le _, Nat.le_refl _, by rw [unread, List.take_length, List.drop_zero]⟩
  rw [(readAlike_recordAt bs 0 maxDepth type _ _ _ hs).eq_map, Nat.sub_zero, ← decodeRecord]
  cases decodeRecord type bs with
  | ok r => rfl
  | error e => rw [Except.mapError, DecodeError.shift_zero]; rfl

theorem stands_span (before span after : List UInt8) :
    Stands (before ++ span ++ after) before.length (before.length + span.length) before.length
      span where
  base_le := Nat.le_refl _
  le_limit := Nat.le_add_right _ _
  limit_le := by
    rw [List.length_append, List.length_append]
    exact Nat.le_add_right _ _
  rest_eq := by rw [unread, ← List.length_append, List.take_left, List.drop_left]

/-- A message between other bytes is read as its bytes alone are, in place and where they have been
taken out, and up to its end; only the positions in errors count from the start of all bytes. Every
tag that is read is of at least one byte and inside the message. -/
theorem recordAt_span (levels : Nat) (type : MessageType) (before span after : List UInt8) :
    recordAt (before ++ span ++ after) levels type (before.length + span.length) before.length =
        ((readRecord levels type span.length span).mapError (·.shift before.length)).map
          (fun r => (r, before.length + span.length)) ∧
      readRecord levels type (before.length + span.length) span =
        (readRecord levels type span.length span).mapError (·.shift before.length) ∧
      ∀ start next,
        ReadsTag (before ++ span ++ after) levels type (before.length + span.length) before.length
          start next →
        before.length ≤ start ∧ start < next ∧ next ≤ before.length + span.length := by
  have hspan := stands_span before span after
  have hwhole := readAlike_recordAt _ _ levels type _ _ _ hspan.from_zero
  have halone := readAlike_recordAt _ _ levels type _ _ _ hspan
  rw [Nat.sub_zero] at hwhole
  rw [Nat.add_sub_cancel_left] at halone
  exact ⟨halone.eq_map, hwhole.eq_mapError halone, fun _ _ htag => htag.bounds⟩

/-- A group that opens with a tag of ten bytes and has one number in it, then a file's options. -/
def groupThenOptions : List UInt8 :=
  [179, 128, 128, 128, 128, 128, 128, 128, 128, 0, 8, 1, 52, 66, 2, 80, 1]

def groupBetween : List UInt8 := [255] ++ groupThenOptions ++ [255]

theorem readRecord_groupThenOptions :
    readRecord 1 .file 17 groupThenOptions = .ok [(8, .record [(10, .bool true)])] := by
  have hnumber : skipGroupItem 1 17 1 [8, 1, 52, 66, 2, 80, 1] = .ok (1, [52, 66, 2, 80, 1]) := rfl
  have hclose : skipGroupItem 1 17 1 [52, 66, 2, 80, 1] = .ok (0, [66, 2, 80, 1]) := rfl
  have hskip : skipGroups 1 17 1 [8, 1, 52, 66, 2, 80, 1] = .ok [66, 2, 80, 1] := by
    rw [skipGroups_of_item hnumber, skipGroups_of_item hclose, skipGroups]
    rfl
  have hgroup : readField 1 (some (readRecord 0)) .file 17 groupThenOptions =
      .ok (none, [66, 2, 80, 1]) := by
    change (skipGroups 1 17 1 [8, 1, 52, 66, 2, 80, 1] >>= fun rest => pure (none, rest)) = _
    rw [hskip]
    rfl
  have hflag : readField 0 none .fileOptions 17 [80, 1] = .ok (some (10, .bool true), []) := rfl
  have hvalue : readValue (some (readRecord 0)) 17 (.message .fileOptions) [2, 80, 1] =
      .ok (.record [(10, .bool true)], []) := by
    change (readRecord 0 .fileOptions 17 [80, 1] >>= fun fields =>
      pure (Value.record fields, [])) = _
    rw [readRecord, readFields_of_field hflag, readFields_nil]
    rfl
  have hoptions : readField 1 (some (readRecord 0)) .file 17 [66, 2, 80, 1] =
      .ok (some (8, .record [(10, .bool true)]), []) := by
    change (readValue (some (readRecord 0)) 17 (.message .fileOptions) [2, 80, 1] >>= fun p =>
      pure (some (8, p.1), p.2)) = _
    rw [hvalue]
    rfl
  rw [readRecord, readFields_of_field hgroup, readFields_of_field hoptions, readFields_nil]
  rfl

/-- The group is passed over and the options are read, with tags inside both. -/
theorem recordAt_span_group :
    recordAt groupBetween 1 .file 18 1 = .ok ([(8, .record [(10, .bool true)])], 18) ∧
      (ReadsTag groupBetween 1 .file 18 1 11 12 ∧ 1 ≤ 11 ∧ 11 < 12 ∧ 12 ≤ 18) ∧
      ReadsTag groupBetween 1 .file 18 1 16 17 ∧ 1 ≤ 16 ∧ 16 < 17 ∧ 17 ≤ 18 := by
  obtain ⟨hread, _, hbounds⟩ := recordAt_span 1 .file [255] groupThenOptions [255]
  have hspan : readRecord 1 .file groupThenOptions.length groupThenOptions = _ :=
    readRecord_groupThenOptions
  rw [hspan] at hread
  have hopen : uint32At groupBetween 18 1 = .ok (51, 11) := rfl
  have hnumber : uint32At groupBetween 18 11 = .ok (8, 12) := rfl
  have hingroup : ReadsTag groupBetween 1 .file 18 1 11 12 :=
    .group hopen rfl rfl (.own (by decide) hnumber)
  have hskipped : skipVarintAt groupBetween 18 12 = .ok 13 := by
    rw [skipVarintAt]
    rfl
  have hitem : skipGroupItemAt groupBetween 18 1 1 11 = .ok (1, 13) := by
    change (skipVarintAt groupBetween 18 12 >>= fun next => pure (1, next)) = _
    rw [hskipped]
    rfl
  have hclose : skipGroupItemAt groupBetween 18 1 1 13 = .ok (0, 14) := rfl
  have hgroup : fieldAt groupBetween 18 1 (innerReaderAt groupBetween 1) .file 1 =
      .ok (none, 14) := by
    change (skipGroupsAt groupBetween 18 1 1 11 >>= fun next => pure (none, next)) = _
    rw [skipGroupsAt_of_item hitem, skipGroupsAt_of_item hclose, skipGroupsAt]
    rfl
  have hfield : uint32At groupBetween 18 14 = .ok (66, 15) := rfl
  have hcount : uint32At groupBetween 18 15 = .ok (2, 16) := rfl
  have hflag : uint32At groupBetween 18 16 = .ok (80, 17) := rfl
  have hinside : ReadsTag groupBetween 1 .file 18 1 16 17 :=
    .later hgroup (.message hfield rfl hcount (by decide) (.own hflag))
  exact ⟨hread, ⟨hingroup, hbounds 11 12 hingroup⟩, hinside, hbounds 16 17 hinside⟩

end ProtoNaming.Wire
