import ProtoNaming.Proofs.Wire.Object
import ProtoNaming.Proofs.Wire.Reading

namespace ProtoNaming.Wire

/-- Bytes of the same fields, but for unknown ones and the order of neighbours with different
numbers, in the message itself and in those inside it. -/
inductive Variant : Nat → MessageType → List UInt8 → List UInt8 → Prop where
  | nil {levels : Nat} {type : MessageType} : Variant levels type [] []
  | field {levels : Nat} {type : MessageType} {b bs bs' : List UInt8} {f : Nat × Value} :
      Fields levels type b [f] → Variant levels type bs bs' →
      Variant levels type (b ++ bs) (b ++ bs')
  | unknownLeft {levels : Nat} {type : MessageType} {u bs bs' : List UInt8} :
      Fields levels type u [] → Variant levels type bs bs' → Variant levels type (u ++ bs) bs'
  | unknownRight {levels : Nat} {type : MessageType} {u bs bs' : List UInt8} :
      Fields levels type u [] → Variant levels type bs bs' → Variant levels type bs (u ++ bs')
  | swap {levels : Nat} {type : MessageType} {b c bs bs' : List UInt8} {f g : Nat × Value} :
      Fields levels type b [f] → Fields levels type c [g] → f.1 ≠ g.1 →
      Variant levels type bs bs' → Variant levels type (b ++ (c ++ bs)) (c ++ (b ++ bs'))
  | message {levels number : Nat} {type inner : MessageType} {body body' bs bs' : List UInt8} :
      type.kind? number = some (.message inner) → Variant levels inner body body' →
      Variant (levels + 1) type bs bs' →
      Variant (levels + 1) type (encodeTag number 2 ++ encodeCounted body ++ bs)
        (encodeTag number 2 ++ encodeCounted body' ++ bs')

section

variable {f g : Nat × Value}

theorem appendUnder_comm {α : Type} {n : Nat} {read : Value → Option α} (as : List α)
    (h : f.1 ≠ g.1) :
    appendUnder n read (appendUnder n read as f) g =
      appendUnder n read (appendUnder n read as g) f := by
  unfold appendUnder
  by_cases hf : f.1 = n
  · simp only [hf, if_true, show ¬g.1 = n from fun hg => h (hf.trans hg.symm), if_false]
  · simp only [hf, if_false]

theorem replaceUnder_comm {α : Type} {n : Nat} {read : Value → Option α} (a : Option α)
    (h : f.1 ≠ g.1) :
    replaceUnder n read (replaceUnder n read a f) g =
      replaceUnder n read (replaceUnder n read a g) f := by
  unfold replaceUnder
  by_cases hf : f.1 = n
  · simp only [hf, if_true, show ¬g.1 = n from fun hg => h (hf.trans hg.symm), if_false]
  · simp only [hf, if_false]

theorem MessageType.absorb_comm (type : MessageType) (o : type.Object) (h : f.1 ≠ g.1) :
    type.absorb (type.absorb o f) g = type.absorb (type.absorb o g) f := by
  cases type
  all_goals
    simp only [absorb, Request.absorb, FileDescriptor.absorb, MessageDescriptor.absorb,
      EnumDescriptor.absorb, FieldDescriptor.absorb, FileOptions.absorb, MessageOptions.absorb,
      FieldOptions.absorb, Response.absorb, OutputFile.absorb, Record.getD_replaceUnder,
      appendUnder_comm _ h, replaceUnder_comm _ h]
    rfl

end

theorem MessageType.absorb_message {type inner : MessageType} {number : Nat}
    {fields fields' : Record} (o : type.Object) (hk : type.kind? number = some (.message inner))
    (h : inner.ofRecord fields = inner.ofRecord fields') :
    type.absorb o (number, .record fields) = type.absorb o (number, .record fields') := by
  unfold kind? at hk
  split at hk <;> cases hk
  all_goals
    simp only [ofRecord] at h
    simp only [absorb, Request.absorb, FileDescriptor.absorb, MessageDescriptor.absorb,
      FieldDescriptor.absorb, Response.absorb, appendUnder, replaceUnder, Value.object?,
      Value.record?, Option.map_some, h]
    rfl

/-- Variants have fields that are read into the same, whatever has been read before them. -/
theorem Variant.fields {levels : Nat} {type : MessageType} {bs bs' : List UInt8}
    (h : Variant levels type bs bs') :
    ∃ r r', Fields levels type bs r ∧ Fields levels type bs' r' ∧
      ∀ o, r.foldl type.absorb o = r'.foldl type.absorb o := by
  induction h with
  | nil => exact ⟨[], [], .nil, .nil, fun _ => rfl⟩
  | @field _ _ _ _ _ f hf _ ih =>
    obtain ⟨r, r', h, h', he⟩ := ih
    exact ⟨[f] ++ r, [f] ++ r', hf.append h, hf.append h', fun o => he _⟩
  | unknownLeft hu _ ih =>
    obtain ⟨r, r', h, h', he⟩ := ih
    exact ⟨r, r', hu.append h, h', he⟩
  | unknownRight hu _ ih =>
    obtain ⟨r, r', h, h', he⟩ := ih
    exact ⟨r, r', h, hu.append h', he⟩
  | @swap _ type _ _ _ _ f g hf hg hne _ ih =>
    obtain ⟨r, r', h, h', he⟩ := ih
    refine ⟨[f] ++ ([g] ++ r), [g] ++ ([f] ++ r'), hf.append (hg.append h),
      hg.append (hf.append h'), fun o => ?_⟩
    simp only [List.singleton_append, List.foldl_cons, type.absorb_comm o hne, he]
  | @message levels number type inner _ _ _ _ hk _ _ ihb ih =>
    obtain ⟨fields, fields', hb, hb', heb⟩ := ihb
    obtain ⟨r, r', h, h', he⟩ := ih
    refine ⟨(number, .record fields) :: r, (number, .record fields') :: r', .message hk hb h,
      .message hk hb' h', fun o => ?_⟩
    have hi : inner.ofRecord fields = inner.ofRecord fields' := by
      rw [inner.ofRecord_eq_foldl, inner.ofRecord_eq_foldl, heb]
    rw [List.foldl_cons, List.foldl_cons, MessageType.absorb_message o hk hi, he]

end ProtoNaming.Wire
