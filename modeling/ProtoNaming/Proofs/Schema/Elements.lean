import Mathlib.Data.List.Forall2
import ProtoNaming.Proofs.Descriptor.Path
import ProtoNaming.Proofs.Schema.Regular

namespace ProtoNaming

section

variable {α β γ δ : Type} {f : Nat → α → β} {as : List α}

theorem forall₂_mapIdx {R : α → β → Prop} (h : ∀ a ∈ as, ∀ i, R a (f i a)) :
    List.Forall₂ R as (as.mapIdx f) := by
  induction as generalizing f with
  | nil => exact .nil
  | cons a as ih =>
    obtain ⟨ha, has⟩ := List.forall_mem_cons.mp h
    rw [List.mapIdx_cons]
    exact .cons (ha 0) (ih fun b hb i => has b hb (i + 1))

theorem map_mapIdx {g : β → γ} {k : α → γ} (h : ∀ i a, g (f i a) = k a) :
    (as.mapIdx f).map g = as.map k := by
  refine List.ext_getElem? fun i => ?_
  rw [List.getElem?_map, List.getElem?_mapIdx, List.getElem?_map, Option.map_map]
  exact Option.map_congr fun a _ => h i a

theorem exists_left_of_forall₂ {R : α → β → Prop} {bs : List β} (h : List.Forall₂ R as bs) {b : β}
    (hb : b ∈ bs) : ∃ a ∈ as, R a b := by
  induction h with
  | nil => cases hb
  | cons hab _ ih =>
    rcases List.mem_cons.mp hb with rfl | hb
    · exact ⟨_, List.mem_cons_self, hab⟩
    · obtain ⟨a, ha, hr⟩ := ih hb
      exact ⟨a, List.mem_cons_of_mem _ ha, hr⟩

theorem forall₂_trans {R : α → β → Prop} {S : β → γ → Prop} {T : α → γ → Prop} {bs : List β}
    {cs : List γ} (hT : ∀ a b c, R a b → S b c → T a c) (h : List.Forall₂ R as bs)
    (h' : List.Forall₂ S bs cs) : List.Forall₂ T as cs := by
  induction h generalizing cs with
  | nil =>
    cases h'
    exact .nil
  | cons hr _ ih =>
    cases h' with
    | cons hs hss => exact .cons (hT _ _ _ hr hs) (ih hss)

/-- Lists made of parts that match, where the parts of one have been numbered. -/
theorem forall₂_flatMap_mapIdx {P : γ → δ → Prop} {g : α → List γ} {h : β → List δ}
    (hP : ∀ a ∈ as, ∀ i, List.Forall₂ P (g a) (h (f i a))) :
    List.Forall₂ P (as.flatMap g) ((as.mapIdx f).flatMap h) :=
  List.rel_flatMap (forall₂_mapIdx (R := fun a b => List.Forall₂ P (g a) (h b)) hP) fun _ _ => id

end

def MessageDescriptor.isMapEntry (d : MessageDescriptor) : Bool :=
  d.options.bind (·.mapEntry) == some true

/-- Declarations of messages inside each other, the innermost first, with any indices. -/
inductive StandFor (package : String) : List MessageDescriptor → List Decl → Prop where
  | nil : StandFor package [] []
  | cons {outer : List MessageDescriptor} {decls : List Decl} (d : MessageDescriptor)
      (index : Nat) : StandFor package outer decls →
      StandFor package (d :: outer) (d.decl (parentName package decls) index :: decls)

def TypeDescriptor.kind : TypeDescriptor → ElementKind
  | message _ => .message
  | enum _ => .enum

/-- The names around a type and its own, whatever the indices. -/
def TypePlace.IsPlace (package : String) (t : TypePlace) (p : Place) : Prop :=
  ∃ outer index, StandFor package t.outer outer ∧
    p = ⟨.inside (parentName package outer) t.type.name index, outer⟩

structure TypePlace.Describes (package : String) (t : TypePlace) (e : Element) : Prop where
  kind : e.kind = t.type.kind
  place : t.IsPlace package e.place

section

variable {package : String} {outer : List MessageDescriptor} {decls : List Decl}

theorem StandFor.parentName_eq (h : StandFor package outer decls) :
    parentName package decls = qualifiedName package (outer.map fun d => d.name.getD "") := by
  induction h with
  | nil => rfl
  | cons d index _ ih =>
    rw [List.map_cons, qualifiedName, ← ih]
    rfl

theorem TypePlace.IsPlace.fullName_eq {t : TypePlace} {p : Place} (h : t.IsPlace package p) :
    p.decl.fullName = t.fullName package := by
  obtain ⟨decls, index, hs, rfl⟩ := h
  rw [TypePlace.fullName, qualifiedName, ← hs.parentName_eq]
  rfl

end

namespace MessageDescriptor

variable {package : String} {outer : List MessageDescriptor} {decls : List Decl}
  (d : MessageDescriptor)

theorem isPlace_toMessage (hs : StandFor package outer decls) (index : Nat) :
    (⟨outer, .message d⟩ : TypePlace).IsPlace package
      (d.toMessage (parentName package decls) decls index).place :=
  ⟨decls, index, hs, d.place_toMessage _ _ _⟩

theorem describes_enums (hs : StandFor package outer decls) (enums : List EnumDescriptor) :
    List.Forall₂ (TypePlace.Describes package) (enums.map fun e => ⟨outer, .enum e⟩)
      ((enums.mapIdx (EnumDescriptor.build (parentName package decls) decls)).map
        EnumType.element) := by
  rw [List.forall₂_map_left_iff, List.forall₂_map_right_iff]
  exact forall₂_mapIdx fun e _ i => ⟨rfl, decls, i, hs, rfl⟩

variable {keep : MessageDescriptor → Bool} {keepBuilt : Message → Bool}
  (hk : ∀ (d : MessageDescriptor) parent decls index,
    keepBuilt (d.toMessage parent decls index) = keep d)

include hk

theorem describes_elements (hs : StandFor package outer decls) (index : Nat) :
    List.Forall₂ (TypePlace.Describes package) (d.types keep outer)
      ((d.toMessage (parentName package decls) decls index).elements keepBuilt) := by
  induction d using MessageDescriptor.induction generalizing outer decls index with
  | step d ih =>
    rw [Message.elements_eq, hk, types_eq]
    split
    · rw [nested_toMessage, enums_toMessage]
      refine .cons ⟨rfl, d.isPlace_toMessage hs index⟩ (List.rel_append ?_ ?_)
      · exact forall₂_flatMap_mapIdx fun n hn i => ih n hn (hs.cons d index) i
      · exact describes_enums (hs.cons d index) d.enums
    · exact .nil

variable {α β : Type} {parts : TypePlace → List α} {items : Message → List β} {R : α → β → Prop}
  (henum : ∀ outer e, parts ⟨outer, .enum e⟩ = [])
  (hmessage : ∀ (d : MessageDescriptor) outer decls index, StandFor package outer decls →
    List.Forall₂ R (parts ⟨outer, .message d⟩)
      (items (d.toMessage (parentName package decls) decls index)))

include henum hmessage

/-- What each message lists, over all messages in one. -/
theorem forall₂_preorder (hs : StandFor package outer decls) (index : Nat) :
    List.Forall₂ R ((d.types keep outer).flatMap parts)
      (((d.toMessage (parentName package decls) decls index).preorder keepBuilt).flatMap
        items) := by
  induction d using MessageDescriptor.induction generalizing outer decls index with
  | step d ih =>
    have hnone : (d.enums.map fun e => (⟨d :: outer, .enum e⟩ : TypePlace)).flatMap parts = [] := by
      simp [henum]
    rw [Message.preorder_eq, hk, types_eq]
    split
    · rw [nested_toMessage, List.flatMap_cons, List.flatMap_cons, List.flatMap_append, hnone,
        List.append_nil, List.flatMap_assoc, List.flatMap_assoc]
      refine List.rel_append (hmessage d outer decls index hs) ?_
      exact forall₂_flatMap_mapIdx fun n hn i => ih n hn (hs.cons d index) i
    · exact .nil

end MessageDescriptor

namespace FileDescriptor

variable (d : FileDescriptor) {keep : MessageDescriptor → Bool} {keepBuilt : Message → Bool}

/-- The types of a file in order, without the messages that `keep` refuses and what is in them. -/
def types (keep : MessageDescriptor → Bool) : List TypePlace :=
  (typeEntries keep [] d.messages d.enums).map (·.2)

variable (hk : ∀ (m : MessageDescriptor) parent decls index,
  keepBuilt (m.toMessage parent decls index) = keep m)

include hk

theorem describes_elements :
    List.Forall₂ (TypePlace.Describes d.toFile.package) (d.types keep)
      (d.toFile.elements keepBuilt) := by
  have hs : StandFor d.toFile.package [] [] := .nil
  rw [File.elements, Message.elementsAll_eq_flatMap, types, map_snd_typeEntries]
  refine List.rel_append ?_ (MessageDescriptor.describes_enums hs d.enums)
  exact forall₂_flatMap_mapIdx fun m _ i => m.describes_elements hk hs i

theorem forall₂_preorder {α β : Type} {parts : TypePlace → List α} {items : Message → List β}
    {R : α → β → Prop} (henum : ∀ outer e, parts ⟨outer, .enum e⟩ = [])
    (hmessage : ∀ (m : MessageDescriptor) outer decls index, StandFor d.toFile.package outer decls →
      List.Forall₂ R (parts ⟨outer, .message m⟩)
        (items (m.toMessage (parentName d.toFile.package decls) decls index))) :
    List.Forall₂ R ((d.types keep).flatMap parts)
      ((d.toFile.preorder keepBuilt).flatMap items) := by
  have hnone : (d.enums.map fun e => (⟨[], .enum e⟩ : TypePlace)).flatMap parts = [] := by
    simp [henum]
  rw [File.preorder, Message.preorderAll_eq_flatMap, types, map_snd_typeEntries,
    List.flatMap_append, hnone, List.append_nil, List.flatMap_assoc, List.flatMap_assoc]
  exact forall₂_flatMap_mapIdx fun m _ i => m.forall₂_preorder hk henum hmessage .nil i

end FileDescriptor

end ProtoNaming
