import ProtoNaming.Proofs.Schema.Elements

namespace ProtoNaming

namespace Message

def children (m : Message) : List Element :=
  m.nested.map Message.element ++ m.enums.map EnumType.element

theorem mem_elements_iff {keep : Message → Bool} {e : Element} (m : Message) :
    e ∈ m.elements keep ↔
      ∃ n ∈ m.preorder keep, e = n.element ∨ e ∈ n.enums.map EnumType.element := by
  induction m using Message.induction with
  | step m ih =>
    rw [elements_eq, preorder_eq]
    split
    · rw [List.mem_cons, List.mem_append, List.mem_flatMap]
      constructor
      · intro h
        rcases h with h | ⟨k, hk, h⟩ | h
        · exact ⟨m, List.mem_cons_self, .inl h⟩
        · obtain ⟨n, hn, h⟩ := (ih k hk).mp h
          exact ⟨n, List.mem_cons_of_mem m (List.mem_flatMap.mpr ⟨k, hk, hn⟩), h⟩
        · exact ⟨m, List.mem_cons_self, .inr h⟩
      · rintro ⟨n, hn, h⟩
        rcases List.mem_cons.mp hn with rfl | hn
        · exact h.elim .inl fun h => .inr (.inr h)
        · obtain ⟨k, hk, hn⟩ := List.mem_flatMap.mp hn
          exact .inr (.inl ⟨k, hk, (ih k hk).mpr ⟨n, hn, h⟩⟩)
    · simp

theorem mem_preorder_of_mem_nested {r m n : Message} (hm : m ∈ r.preorder fun _ => true)
    (hn : n ∈ m.nested) : n ∈ r.preorder fun _ => true := by
  induction r using Message.induction with
  | step r ih =>
    rw [preorder_eq, if_pos rfl] at hm ⊢
    refine List.mem_cons_of_mem r (List.mem_flatMap.mpr ?_)
    rcases List.mem_cons.mp hm with rfl | hm
    · have hself : n ∈ n.preorder fun _ => true := by
        rw [preorder_eq, if_pos rfl]
        exact List.mem_cons_self
      exact ⟨n, hn, hself⟩
    · obtain ⟨k, hk, hm⟩ := List.mem_flatMap.mp hm
      exact ⟨k, hk, ih k hk hm⟩

end Message

namespace MessageDescriptor

variable {parent : String} {outer : List Decl} {index : Nat} {m : Message}

/-- A message met in one that has been built is that one or inside it. -/
theorem suffix_of_mem_preorder {keep : Message → Bool} (d : MessageDescriptor)
    (hm : m ∈ (d.toMessage parent outer index).preorder keep) :
    m = d.toMessage parent outer index ∨
      (d.toMessage parent outer index).place.chain <:+ m.place.outer := by
  induction d using MessageDescriptor.induction generalizing parent outer index with
  | step d ih =>
    rw [Message.preorder_eq] at hm
    split at hm
    · rcases List.mem_cons.mp hm with h | hm
      · exact .inl h
      · right
        rw [nested_toMessage] at hm
        obtain ⟨n', hn', hm⟩ := List.mem_flatMap.mp hm
        obtain ⟨i, hi, rfl⟩ := List.mem_mapIdx.mp hn'
        have hchain : (d.toMessage parent outer index).place.chain =
            d.decl parent index :: outer := by
          rw [place_toMessage, Place.chain]
        rw [hchain]
        rcases ih _ (List.getElem_mem hi) hm with h | h
        · have houter : m.place.outer = d.decl parent index :: outer := by rw [h, place_toMessage]
          exact houter ▸ List.suffix_refl m.place.outer
        · rw [place_toMessage] at h
          exact (List.suffix_cons (d.nested[i].decl (d.decl parent index).fullName i) _).trans h
    · simp at hm

/-- What is true of all messages in one and of those around it is true of those around each. -/
theorem forall_outer_of_mem_preorder {P : Decl → Prop} (d : MessageDescriptor)
    (ho : ∀ o ∈ outer, P o)
    (hP : ∀ k ∈ (d.toMessage parent outer index).preorder fun _ => true, P k.place.decl)
    (hm : m ∈ (d.toMessage parent outer index).preorder fun _ => true) :
    ∀ o ∈ m.place.outer, P o := by
  induction d using MessageDescriptor.induction generalizing parent outer index with
  | step d ih =>
    rw [Message.preorder_eq, if_pos rfl] at hm hP
    obtain ⟨hself, hnested⟩ := List.forall_mem_cons.mp hP
    rcases List.mem_cons.mp hm with rfl | hm
    · rw [place_toMessage]
      exact ho
    · rw [nested_toMessage] at hm hnested
      obtain ⟨n', hn', hm⟩ := List.mem_flatMap.mp hm
      obtain ⟨i, hi, rfl⟩ := List.mem_mapIdx.mp hn'
      have hd : P (d.decl parent index) := by
        rw [place_toMessage] at hself
        exact hself
      refine ih _ (List.getElem_mem hi) (List.forall_mem_cons.mpr ⟨hd, ho⟩) (fun k hk => ?_) hm
      exact hnested k (List.mem_flatMap.mpr ⟨_, hn', hk⟩)

end MessageDescriptor

namespace FileDescriptor

variable (d : FileDescriptor)

theorem mem_elements_iff {keep : Message → Bool} {e : Element} :
    e ∈ d.toFile.elements keep ↔
      (∃ m ∈ d.toFile.preorder keep, e = m.element ∨ e ∈ m.enums.map EnumType.element) ∨
        e ∈ d.toFile.enums.map EnumType.element := by
  rw [File.elements, File.preorder, Message.elementsAll_eq_flatMap, Message.preorderAll_eq_flatMap,
    List.mem_append, List.mem_flatMap]
  refine or_congr ?_ Iff.rfl
  constructor
  · rintro ⟨r, hr, he⟩
    obtain ⟨m, hm, he⟩ := r.mem_elements_iff.mp he
    exact ⟨m, List.mem_flatMap.mpr ⟨r, hr, hm⟩, he⟩
  · rintro ⟨m, hm, he⟩
    obtain ⟨r, hr, hm⟩ := List.mem_flatMap.mp hm
    exact ⟨r, hr, r.mem_elements_iff.mpr ⟨m, hm, he⟩⟩

theorem element_mem_elements {keep : Message → Bool} {m : Message}
    (hm : m ∈ d.toFile.preorder keep) : m.element ∈ d.toFile.elements keep :=
  d.mem_elements_iff.mpr (.inl ⟨m, hm, .inl rfl⟩)

theorem mem_elements_of_mem_children {m : Message} (hm : m ∈ d.toFile.preorder fun _ => true)
    {c : Element} (hc : c ∈ m.children) : c ∈ d.toFile.elements fun _ => true := by
  rcases List.mem_append.mp hc with hc | hc
  · obtain ⟨n, hn, rfl⟩ := List.mem_map.mp hc
    rw [File.preorder, Message.preorderAll_eq_flatMap] at hm
    obtain ⟨r, hr, hm⟩ := List.mem_flatMap.mp hm
    refine d.element_mem_elements ?_
    rw [File.preorder, Message.preorderAll_eq_flatMap]
    exact List.mem_flatMap.mpr ⟨r, hr, Message.mem_preorder_of_mem_nested hm hn⟩
  · exact d.mem_elements_iff.mpr (.inl ⟨m, hm, .inr hc⟩)

theorem outer_of_mem_children {m : Message} (hm : m ∈ d.toFile.preorder fun _ => true)
    {c : Element} (hc : c ∈ m.children) : c.place.outer = m.place.chain := by
  have regular := d.regular_of_mem_preorder hm
  rcases List.mem_append.mp hc with hc | hc
  · obtain ⟨n, hn, rfl⟩ := List.mem_map.mp hc
    exact regular.nested n hn
  · obtain ⟨e, he, rfl⟩ := List.mem_map.mp hc
    exact (regular.enums e he).2

/-- What is true of all messages of a file is true of those that one of its elements is inside. -/
theorem forall_outer_of_mem_elements {P : Decl → Prop}
    (hP : ∀ m ∈ d.toFile.preorder fun _ => true, P m.place.decl) {e : Element}
    (he : e ∈ d.toFile.elements fun _ => true) : ∀ o ∈ e.place.outer, P o := by
  have hmessages : ∀ m ∈ d.toFile.preorder fun _ => true, ∀ o ∈ m.place.outer, P o := by
    intro m hm
    rw [File.preorder, Message.preorderAll_eq_flatMap] at hm hP
    obtain ⟨r, hr, hm⟩ := List.mem_flatMap.mp hm
    obtain ⟨i, hi, rfl⟩ := List.mem_mapIdx.mp hr
    refine d.messages[i].forall_outer_of_mem_preorder (List.forall_mem_nil _) (fun k hk => ?_) hm
    exact hP k (List.mem_flatMap.mpr ⟨_, hr, hk⟩)
  rcases d.mem_elements_iff.mp he with ⟨m, hm, rfl | he⟩ | he
  · exact hmessages m hm
  · obtain ⟨en, hen, rfl⟩ := List.mem_map.mp he
    have hchain := ((d.regular_of_mem_preorder hm).enums en hen).2
    intro o ho
    rw [EnumType.element, hchain] at ho
    rcases List.mem_cons.mp ho with rfl | ho
    · exact hP m hm
    · exact hmessages m hm o ho
  · obtain ⟨en, hen, rfl⟩ := List.mem_map.mp he
    obtain ⟨i, _, rfl⟩ := List.mem_mapIdx.mp hen
    exact List.forall_mem_nil _

theorem forall_chain_of_mem_elements {P : Decl → Prop}
    (hP : ∀ e ∈ d.toFile.elements fun _ => true, P e.place.decl) {e : Element}
    (he : e ∈ d.toFile.elements fun _ => true) : ∀ o ∈ e.place.chain, P o := by
  have hmessages : ∀ m ∈ d.toFile.preorder fun _ => true, P m.place.decl := by
    intro m hm
    exact hP m.element (d.element_mem_elements hm)
  exact List.forall_mem_cons.mpr ⟨hP e he, d.forall_outer_of_mem_elements hmessages he⟩

/-- Every message and enum of the schema comes from a place in the descriptor. -/
theorem exists_typeAt?_of_mem_elements {e : Element} (he : e ∈ d.toFile.elements fun _ => true) :
    ∃ path t, d.typeAt? path = some t ∧ t.Describes d.toFile.package e := by
  have hall : List.Forall₂ (TypePlace.Describes d.toFile.package) (d.types fun _ => true)
      (d.toFile.elements fun _ => true) := d.describes_elements fun _ _ _ _ => rfl
  obtain ⟨t, ht, hdescribes⟩ := exists_left_of_forall₂ hall he
  obtain ⟨⟨path, t'⟩, hp, rfl⟩ := List.mem_map.mp ht
  have hfound := (mem_typeEntries (List.forall_mem_nil _)).mp hp
  exact ⟨path, t', hfound.1, hdescribes⟩

/-- The outermost declaration around a message is that of the top-level one it is found in. -/
theorem outermost_of_mem_preorder {r m : Message} (hr : r ∈ d.toFile.messages)
    (hm : m ∈ r.preorder fun _ => true) :
    m.place.outermost = r.place ∧ (m = r ∨ r.place.decl ∈ m.place.outer) := by
  obtain ⟨i, hi, rfl⟩ := List.mem_mapIdx.mp hr
  have hplace := d.messages[i].place_toMessage (d.package.getD "") [] i
  rcases d.messages[i].suffix_of_mem_preorder hm with rfl | h
  · rw [hplace]
    exact ⟨rfl, .inl rfl⟩
  · rw [hplace] at h ⊢
    obtain ⟨inner, h⟩ := h
    have hlast : m.place.outer.getLast? = some (d.messages[i].decl (d.package.getD "") i) := by
      rw [← h, Place.chain, List.getLast?_concat]
    rw [Place.outermost, hlast]
    exact ⟨rfl, .inr (List.mem_of_getLast? hlast)⟩

theorem outer_of_mem_messages {top : Message} (ht : top ∈ d.toFile.messages) :
    top.place.outer = [] := by
  obtain ⟨i, _, rfl⟩ := List.mem_mapIdx.mp ht
  rw [MessageDescriptor.place_toMessage]

theorem mem_preorder_of_mem_messages {top m : Message} (ht : top ∈ d.toFile.messages)
    (hm : m ∈ top.preorder fun _ => true) : m ∈ d.toFile.preorder fun _ => true := by
  rw [File.preorder, Message.preorderAll_eq_flatMap]
  exact List.mem_flatMap.mpr ⟨top, ht, hm⟩

theorem scope_of_mem_extensions {f : Field} (hf : f ∈ d.toFile.extensions) :
    f.isExtension = true ∧ f.scope = none := by
  obtain ⟨g, _, rfl⟩ := List.mem_map.mp hf
  exact ⟨rfl, rfl⟩

theorem scope_of_mem_message {top m : Message} {f : Field} (ht : top ∈ d.toFile.messages)
    (hm : m ∈ top.preorder fun _ => true) (hf : f ∈ m.extensions) :
    f.isExtension = true ∧ f.scope = some m.place ∧ m.place.outermost = top.place := by
  have regular := d.regular_of_mem_preorder (d.mem_preorder_of_mem_messages ht hm)
  obtain ⟨he, hs⟩ := regular.extensions f hf
  exact ⟨he, hs, (d.outermost_of_mem_preorder ht hm).1⟩

theorem chain_of_mem_messages {top : Message} (ht : top ∈ d.toFile.messages) :
    Chain d.toFile.package top.place.chain := by
  have hself : top ∈ top.preorder fun _ => true := by
    rw [Message.preorder_eq, if_pos rfl]
    exact List.mem_cons_self
  exact (d.regular_of_mem_preorder (d.mem_preorder_of_mem_messages ht hself)).chain

end FileDescriptor

end ProtoNaming
