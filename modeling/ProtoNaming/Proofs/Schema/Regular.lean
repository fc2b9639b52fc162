import ProtoNaming.Proofs.Schema.Total

namespace ProtoNaming

/-- What full names start with inside declarations, the innermost of them first. -/
def parentName (package : String) : List Decl → String
  | [] => package
  | d :: _ => d.fullName

/-- Declarations inside each other from the package down, the innermost first. -/
inductive Chain (package : String) : List Decl → Prop where
  | nil : Chain package []
  | cons {outer : List Decl} (name : String) (index : Nat) :
      Chain package outer → Chain package (.inside (parentName package outer) name index :: outer)

def Place.chain (p : Place) : List Decl := p.decl :: p.outer

/-- A message whose contents are linked to it, and that is linked to the package. -/
structure Message.Regular (package : String) (m : Message) : Prop where
  chain : Chain package m.place.chain
  fields : ∀ f ∈ m.fields, f.owner = some m.place ∧ f.isExtension = false
  nested : ∀ n ∈ m.nested, n.place.outer = m.place.chain
  enums : ∀ e ∈ m.enums, Chain package e.place.chain ∧ e.place.outer = m.place.chain
  extensions : ∀ f ∈ m.extensions, f.isExtension = true ∧ f.scope = some m.place

namespace Message

/-- A property of messages holds everywhere if it passes from the nested ones to those around. -/
theorem induction {motive : Message → Prop}
    (step : ∀ m, (∀ n ∈ m.nested, motive n) → motive m) (m : Message) : motive m := by
  refine step m fun n hn => induction step n
termination_by m
decreasing_by
  have hlt := List.sizeOf_lt_of_mem hn
  cases m
  simp only at hn hlt ⊢
  simp only [mk.sizeOf_spec]
  omega

variable (keep : Message → Bool)

theorem preorderAll_eq_flatMap (ms : List Message) :
    preorderAll keep ms = ms.flatMap (preorder keep) := by
  induction ms with
  | nil => rfl
  | cons m ms ih => rw [preorderAll, ih, List.flatMap_cons]

theorem preorder_eq (m : Message) :
    preorder keep m = if keep m then m :: m.nested.flatMap (preorder keep) else [] := by
  cases m
  rw [preorder, preorderAll_eq_flatMap]

theorem elementsAll_eq_flatMap (ms : List Message) :
    elementsAll keep ms = ms.flatMap (elements keep) := by
  induction ms with
  | nil => rfl
  | cons m ms ih => rw [elementsAll, ih, List.flatMap_cons]

theorem elements_eq (m : Message) :
    elements keep m =
      if keep m then m.element :: (m.nested.flatMap (elements keep) ++ m.enums.map EnumType.element)
      else [] := by
  cases m
  rw [elements, elementsAll_eq_flatMap]

end Message

theorem Chain.getLast {package : String} {ds : List Decl} (h : Chain package ds) {d : Decl}
    (hd : ds.getLast? = some d) : Chain package [d] := by
  induction h with
  | nil => cases hd
  | @cons outer name index hc ih =>
    cases hc with
    | nil =>
      cases hd
      exact .cons name index .nil
    | cons name' index' hc => exact ih (by rwa [List.getLast?_cons_cons] at hd)

theorem Chain.outermost {package : String} {p : Place} (h : Chain package p.chain) :
    Chain package p.outermost.chain := by
  refine h.getLast ?_
  rw [Place.chain, Place.outermost, List.getLast?_cons]

theorem chain_enum {package : String} {outer : List Decl} (hc : Chain package outer) (index : Nat)
    (e : EnumDescriptor) :
    Chain package (e.build (parentName package outer) outer index).place.chain :=
  .cons _ index hc

namespace MessageDescriptor

/-- The declaration of a message in a place where full names start with `parent`. -/
def decl (parent : String) (index : Nat) (d : MessageDescriptor) : Decl :=
  .inside parent (d.name.getD "") index

section

variable (parent : String) (outer : List Decl) (index : Nat) (d : MessageDescriptor)

theorem place_toMessage :
    (d.toMessage parent outer index).place = ⟨d.decl parent index, outer⟩ := by
  cases d
  rfl

theorem fields_toMessage :
    (d.toMessage parent outer index).fields =
      d.fields.map (FieldDescriptor.toMember ⟨d.decl parent index, outer⟩) := by
  cases d
  rfl

theorem nested_toMessage :
    (d.toMessage parent outer index).nested =
      d.nested.mapIdx
        (toMessage (d.decl parent index).fullName (d.decl parent index :: outer)) := by
  cases d
  rw [toMessage, toMessages_eq_mapIdx]
  simp only [Nat.zero_add]
  rfl

theorem enums_toMessage :
    (d.toMessage parent outer index).enums =
      d.enums.mapIdx
        (EnumDescriptor.build (d.decl parent index).fullName (d.decl parent index :: outer)) := by
  cases d
  rfl

theorem extensions_toMessage :
    (d.toMessage parent outer index).extensions =
      d.extensions.map (FieldDescriptor.toExtension (some ⟨d.decl parent index, outer⟩)) := by
  cases d
  rfl

end

variable {package : String} {outer : List Decl}

theorem chain_decl (d : MessageDescriptor) (hc : Chain package outer) (index : Nat) :
    Chain package (d.decl (parentName package outer) index :: outer) :=
  .cons _ index hc

theorem regular_toMessage (d : MessageDescriptor) (hc : Chain package outer) (index : Nat) :
    (d.toMessage (parentName package outer) outer index).Regular package := by
  constructor
  · rw [place_toMessage]
    exact d.chain_decl hc index
  · intro f hf
    rw [fields_toMessage] at hf
    obtain ⟨g, _, rfl⟩ := List.mem_map.mp hf
    rw [place_toMessage]
    exact ⟨rfl, rfl⟩
  · intro n hn
    rw [nested_toMessage] at hn
    obtain ⟨i, _, rfl⟩ := List.mem_mapIdx.mp hn
    rw [place_toMessage, place_toMessage]
    rfl
  · intro e he
    rw [enums_toMessage] at he
    obtain ⟨i, _, rfl⟩ := List.mem_mapIdx.mp he
    rw [place_toMessage]
    exact ⟨chain_enum (d.chain_decl hc index) i _, rfl⟩
  · intro f hf
    rw [extensions_toMessage] at hf
    obtain ⟨g, _, rfl⟩ := List.mem_map.mp hf
    rw [place_toMessage]
    exact ⟨rfl, rfl⟩

/-- Every message met in one that has been built has been built itself, from a descriptor inside. -/
theorem exists_of_mem_preorder {keep : Message → Bool} {m : Message} (d : MessageDescriptor)
    (hc : Chain package outer) {index : Nat}
    (hm : m ∈ Message.preorder keep (d.toMessage (parentName package outer) outer index)) :
    ∃ n outer' index', Chain package outer' ∧
      m = toMessage (parentName package outer') outer' index' n ∧
      ∀ f ∈ n.fields ++ n.extensions, f ∈ d.allFields := by
  induction d using MessageDescriptor.induction generalizing outer index with
  | step d ih =>
    rw [Message.preorder_eq] at hm
    split at hm
    · rw [allFields_eq]
      rcases List.mem_cons.mp hm with rfl | hm
      · refine ⟨d, outer, index, hc, rfl, fun f hf => ?_⟩
        rcases List.mem_append.mp hf with hf | hf <;> simp [hf]
      · rw [nested_toMessage] at hm
        obtain ⟨n', hn', hm⟩ := List.mem_flatMap.mp hm
        obtain ⟨i, hi, rfl⟩ := List.mem_mapIdx.mp hn'
        have hn := List.getElem_mem hi
        obtain ⟨k, outer', index', hk, hmk, hf⟩ := ih _ hn (d.chain_decl hc index) hm
        refine ⟨k, outer', index', hk, hmk, fun f hfk => ?_⟩
        simp only [List.mem_append, List.mem_flatMap]
        exact .inl (.inr ⟨_, hn, hf f hfk⟩)
    · simp at hm

theorem chain_of_mem_elements {keep : Message → Bool} {e : Element} (d : MessageDescriptor)
    (hc : Chain package outer) {index : Nat}
    (he : e ∈ Message.elements keep (d.toMessage (parentName package outer) outer index)) :
    Chain package e.place.chain := by
  induction d using MessageDescriptor.induction generalizing outer index with
  | step d ih =>
    have regular := d.regular_toMessage hc index
    rw [Message.elements_eq] at he
    split at he
    · rcases List.mem_cons.mp he with rfl | he
      · exact regular.chain
      · rcases List.mem_append.mp he with he | he
        · rw [nested_toMessage] at he
          obtain ⟨n', hn', he⟩ := List.mem_flatMap.mp he
          obtain ⟨i, hi, rfl⟩ := List.mem_mapIdx.mp hn'
          exact ih _ (List.getElem_mem hi) (d.chain_decl hc index) he
        · obtain ⟨en, hen, rfl⟩ := List.mem_map.mp he
          exact (regular.enums en hen).1
    · simp at he

end MessageDescriptor

namespace FileDescriptor

variable {keep : Message → Bool}

theorem exists_of_mem_preorder {m : Message} (d : FileDescriptor)
    (hm : m ∈ d.toFile.preorder keep) :
    ∃ n outer index, Chain d.toFile.package outer ∧
      m = MessageDescriptor.toMessage (parentName d.toFile.package outer) outer index n ∧
      ∀ f ∈ n.fields ++ n.extensions, f ∈ d.allFields := by
  rw [File.preorder, Message.preorderAll_eq_flatMap] at hm
  obtain ⟨m', hm', hm⟩ := List.mem_flatMap.mp hm
  obtain ⟨i, hi, rfl⟩ := List.mem_mapIdx.mp hm'
  obtain ⟨k, outer, index, hk, hmk, hf⟩ := d.messages[i].exists_of_mem_preorder .nil hm
  refine ⟨k, outer, index, hk, hmk, fun f hfk => ?_⟩
  exact List.mem_append_left _ (List.mem_flatMap.mpr ⟨_, List.getElem_mem hi, hf f hfk⟩)

theorem regular_of_mem_preorder {m : Message} (d : FileDescriptor)
    (hm : m ∈ d.toFile.preorder keep) : m.Regular d.toFile.package := by
  obtain ⟨n, outer, index, hc, rfl, _⟩ := d.exists_of_mem_preorder hm
  exact n.regular_toMessage hc index

theorem chain_of_mem_elements {e : Element} (d : FileDescriptor)
    (he : e ∈ d.toFile.elements keep) : Chain d.toFile.package e.place.chain := by
  rcases List.mem_append.mp he with he | he
  · rw [Message.elementsAll_eq_flatMap] at he
    obtain ⟨m, hm, he⟩ := List.mem_flatMap.mp he
    obtain ⟨i, hi, rfl⟩ := List.mem_mapIdx.mp hm
    exact d.messages[i].chain_of_mem_elements .nil he
  · obtain ⟨en, hen, rfl⟩ := List.mem_map.mp he
    obtain ⟨i, _, rfl⟩ := List.mem_mapIdx.mp hen
    exact chain_enum .nil i _

/-- Every extension has a scope in the package, if any, whatever is around it. -/
theorem chain_of_mem_allExtensions {f : Field} (d : FileDescriptor)
    (hf : f ∈ d.toFile.allExtensions) :
    f.isExtension = true ∧ ∀ scope ∈ f.scope, Chain d.toFile.package scope.chain := by
  rcases List.mem_append.mp hf with hf | hf
  · obtain ⟨g, _, rfl⟩ := List.mem_map.mp hf
    exact ⟨rfl, fun _ h => nomatch h⟩
  · obtain ⟨m, hm, hf⟩ := List.mem_flatMap.mp hf
    have regular := d.regular_of_mem_preorder hm
    obtain ⟨he, hs⟩ := regular.extensions f hf
    refine ⟨he, fun scope h => ?_⟩
    rw [hs] at h
    cases h
    exact regular.chain

end FileDescriptor

end ProtoNaming
