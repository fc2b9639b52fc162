import Mathlib.Data.List.Forall2
import ProtoNaming.Proofs.Schema.Elements

namespace ProtoNaming

section

variable {α : Type} (parts : α → List α) (roots : List α)

/-- What indices lead to, the last of them first: one of the roots, then one part after another. -/
def reach? : List Nat → Option α
  | [] => none
  | [i] => roots[i]?
  | i :: j :: path => (reach? (j :: path)).bind fun a => (parts a)[i]?

variable {parts roots} {path : List Nat} {a : α}

theorem reach?_part (h : reach? parts roots path = some a) (i : Nat) :
    reach? parts roots (i :: path) = (parts a)[i]? := by
  cases path with
  | nil => cases h
  | cons j path => rw [reach?, h, Option.bind_some]

theorem exists_root_of_reach? (h : reach? parts roots path = some a) :
    ∃ i root, path.getLast? = some i ∧ roots[i]? = some root ∧
      reach? parts roots (path.drop (path.length - 1)) = some root := by
  induction path generalizing a with
  | nil => cases h
  | cons i path ih =>
    cases path with
    | nil => exact ⟨i, a, rfl, h, h⟩
    | cons j path =>
      obtain ⟨b, hb, _⟩ := Option.bind_eq_some_iff.mp h
      obtain ⟨k, root, hlast, hroot, hreach⟩ := ih hb
      exact ⟨k, root, by rw [List.getLast?_cons_cons, hlast], hroot, hreach⟩

theorem tail_eq_nil_of_reach? (h : reach? parts roots path = some a)
    (ht : reach? parts roots path.tail = none) : path.tail = [] := by
  cases path with
  | nil => rfl
  | cons i path =>
    cases path with
    | nil => rfl
    | cons j path =>
      obtain ⟨b, hb, _⟩ := Option.bind_eq_some_iff.mp h
      cases hb.symm.trans ht

theorem of_reach? {P : α → Prop} (hroots : ∀ a ∈ roots, P a)
    (hparts : ∀ a, P a → ∀ b ∈ parts a, P b) (h : reach? parts roots path = some a) : P a := by
  induction path generalizing a with
  | nil => cases h
  | cons i path ih =>
    cases path with
    | nil => exact hroots a (List.mem_of_getElem? h)
    | cons j path =>
      obtain ⟨b, hb, ha⟩ := Option.bind_eq_some_iff.mp h
      exact hparts b (ih hb) a (List.mem_of_getElem? ha)

end

/-- The message of a file at a path of indices, its own index first. -/
def File.messageAt? (file : File) : List Nat → Option Message :=
  reach? Message.nested file.messages

namespace FileDescriptor

def messageAt? (d : FileDescriptor) : List Nat → Option MessageDescriptor :=
  reach? MessageDescriptor.nested d.messages

/-- The file or one of its messages, at any depth, has this field or extension. -/
def Declares (d : FileDescriptor) (f : FieldDescriptor) : Prop :=
  f ∈ d.extensions ∨ ∃ path m, d.messageAt? path = some m ∧ f ∈ m.fields ++ m.extensions

theorem exists_of_mem_allFields {d : FileDescriptor} {path : List Nat} {m : MessageDescriptor}
    (hm : d.messageAt? path = some m) {f : FieldDescriptor} (hf : f ∈ m.allFields) :
    ∃ path n, d.messageAt? path = some n ∧ f ∈ n.fields ++ n.extensions := by
  induction m using MessageDescriptor.induction generalizing path with
  | step m ih =>
    rw [m.allFields_eq] at hf
    rcases List.mem_append.mp hf with hf | hf
    · rcases List.mem_append.mp hf with hf | hf
      · exact ⟨path, m, hm, List.mem_append_left _ hf⟩
      · obtain ⟨n, hn, hf⟩ := List.mem_flatMap.mp hf
        obtain ⟨i, hi⟩ := List.mem_iff_getElem?.mp hn
        exact ih n hn ((reach?_part hm i).trans hi) hf
    · exact ⟨path, m, hm, List.mem_append_right _ hf⟩

theorem declares_iff {d : FileDescriptor} {f : FieldDescriptor} :
    d.Declares f ↔ f ∈ d.allFields := by
  rw [allFields, List.mem_append, List.mem_flatMap]
  constructor
  · rintro (hf | ⟨path, m, hm, hf⟩)
    · exact .inr hf
    · have hall : ∀ g ∈ m.allFields, ∃ r ∈ d.messages, g ∈ r.allFields := by
        refine of_reach? (P := fun m => ∀ g ∈ m.allFields, ∃ r ∈ d.messages, g ∈ r.allFields)
          (fun r hr g hg => ⟨r, hr, hg⟩) (fun m ih n hn g hg => ih g ?_) hm
        rw [m.allFields_eq]
        exact List.mem_append_left _ (List.mem_append_right _ (List.mem_flatMap.mpr ⟨n, hn, hg⟩))
      refine .inl (hall f ?_)
      rw [m.allFields_eq]
      rcases List.mem_append.mp hf with hf | hf
      · exact List.mem_append_left _ (List.mem_append_left _ hf)
      · exact List.mem_append_right _ hf
  · rintro (⟨m, hm, hf⟩ | hf)
    · obtain ⟨i, hi⟩ := List.mem_iff_getElem?.mp hm
      have hroot : d.messageAt? [i] = some m := hi
      exact .inr (exists_of_mem_allFields hroot hf)
    · exact .inl hf

end FileDescriptor

namespace Place

/-- The indices of a declaration and of the messages around it, its own first. -/
def path (p : Place) : List Nat := p.chain.map (·.index)

theorem path_eq_cons {p : Place} :
    p.path = p.decl.index :: (p.container.map path).getD [] := by
  obtain ⟨decl, outer⟩ := p
  cases outer <;> rfl

def above : Nat → Place → Option Place
  | 0, p => some p
  | k + 1, p => p.container.bind (above k)

theorem outermost_of_container {p q : Place} (h : p.container = some q) :
    p.outermost = q.outermost := by
  obtain ⟨decl, outer⟩ := p
  cases outer with
  | nil => cases h
  | cons d outer =>
    cases h
    simp [outermost, List.getLast?_cons]

theorem outermost_of_above {k : Nat} {p q : Place} (h : p.above k = some q)
    (hq : q.container = none) : p.outermost = q := by
  induction k generalizing p with
  | zero =>
    cases h
    obtain ⟨decl, outer⟩ := q
    cases outer with
    | nil => rfl
    | cons d outer => cases hq
  | succ k ih =>
    obtain ⟨r, hr, hk⟩ := Option.bind_eq_some_iff.mp h
    rw [outermost_of_container hr]
    exact ih hk

end Place

namespace FieldDescriptor

structure Describes (d : FieldDescriptor) (f : Field) : Prop where
  name : f.name = d.name.getD ""
  number : f.number = d.number.getD 0
  typeCode : f.typeCode = d.code
  typeName : f.typeName = d.typeName.map withoutLeadingDot
  label : f.label = d.label.getD 1
  defaultValue : f.defaultValue = d.defaultValue
  jsType : f.jsType = (d.options.bind (·.jsType)).map JsType.ofNumber

structure DescribesMember (owner : Place) (d : FieldDescriptor) (f : Field) : Prop extends
    Describes d f where
  owner : f.owner = some owner
  isExtension : f.isExtension = false
  extendee : f.extendee = none
  scope : f.scope = none

structure DescribesExtension (scope : Option Place) (d : FieldDescriptor) (f : Field) : Prop extends
    Describes d f where
  owner : f.owner = none
  isExtension : f.isExtension = true
  extendee : f.extendee = d.extendee.map withoutLeadingDot
  scope : f.scope = scope

theorem describes_toMember (owner : Place) (d : FieldDescriptor) :
    d.DescribesMember owner (d.toMember owner) where
  toDescribes := ⟨rfl, rfl, rfl, rfl, rfl, rfl, rfl⟩
  owner := rfl
  isExtension := rfl
  extendee := rfl
  scope := rfl

theorem describes_toExtension (scope : Option Place) (d : FieldDescriptor) :
    d.DescribesExtension scope (d.toExtension scope) where
  toDescribes := ⟨rfl, rfl, rfl, rfl, rfl, rfl, rfl⟩
  owner := rfl
  isExtension := rfl
  extendee := rfl
  scope := rfl

end FieldDescriptor

structure EnumDescriptor.Describes (container : Option Place) (d : EnumDescriptor) (e : EnumType) :
    Prop where
  name : e.place.decl.name = d.name.getD ""
  container : e.place.container = container

theorem EnumDescriptor.describes_build (parent : String) (outer : List Decl) (index : Nat)
    (d : EnumDescriptor) :
    d.Describes (d.build parent outer index).place.container (d.build parent outer index) :=
  ⟨rfl, rfl⟩

namespace MessageDescriptor

/-- What the message at a path has of its descriptor, but for the messages inside it. Its place is
its own, also beside messages of the same name, and all that it lists is linked to that place. -/
structure Describes (path : List Nat) (container : Option Place) (d : MessageDescriptor)
    (m : Message) : Prop where
  name : m.place.decl.name = d.name.getD ""
  path : m.place.path = path
  container : m.place.container = container
  isMapEntry : m.isMapEntry = (d.options.bind (·.mapEntry) == some true)
  fields : List.Forall₂ (FieldDescriptor.DescribesMember m.place) d.fields m.fields
  enums : List.Forall₂ (EnumDescriptor.Describes (some m.place)) d.enums m.enums
  extensions : List.Forall₂ (FieldDescriptor.DescribesExtension (some m.place)) d.extensions
    m.extensions

theorem describes_toMessage (parent : String) (outer : List Decl) (index : Nat)
    (d : MessageDescriptor) :
    d.Describes (d.toMessage parent outer index).place.path
      (d.toMessage parent outer index).place.container (d.toMessage parent outer index) where
  name := by
    rw [place_toMessage]
    rfl
  path := rfl
  container := rfl
  isMapEntry := by
    cases d
    rfl
  fields := by
    rw [fields_toMessage, place_toMessage, List.forall₂_map_right_iff]
    exact List.forall₂_same.mpr fun f _ => f.describes_toMember _
  enums := by
    rw [enums_toMessage, place_toMessage]
    exact forall₂_mapIdx fun e _ i =>
      e.describes_build (d.decl parent index).fullName (d.decl parent index :: outer) i
  extensions := by
    rw [extensions_toMessage, place_toMessage, List.forall₂_map_right_iff]
    exact List.forall₂_same.mpr fun f _ => f.describes_toExtension _

end MessageDescriptor

/-- The message, if any, that lists what is at a path. -/
def File.listing (file : File) (path : List Nat) : Option Place :=
  (file.messageAt? path.tail).map Message.place

namespace FileDescriptor

/-- At each path the descriptor and the schema have a message that corresponds to the other's and
is linked to the message that lists it, or neither has any. -/
structure Describes (d : FileDescriptor) (file : File) : Prop where
  messages : ∀ path, Option.Rel (MessageDescriptor.Describes path (file.listing path))
    (d.messageAt? path) (file.messageAt? path)
  enums : List.Forall₂ (EnumDescriptor.Describes none) d.enums file.enums
  extensions : List.Forall₂ (FieldDescriptor.DescribesExtension none) d.extensions file.extensions

def outerAt (d : FileDescriptor) (path : List Nat) : List Decl :=
  ((d.toFile.listing path).map Place.chain).getD []

theorem container_outerAt (d : FileDescriptor) (path : List Nat) (decl : Decl) :
    (⟨decl, d.outerAt path⟩ : Place).container = d.toFile.listing path := by
  rw [outerAt]
  cases d.toFile.listing path <;> rfl

theorem messageAt?_toFile (d : FileDescriptor) (path : List Nat) :
    d.toFile.messageAt? path = (d.messageAt? path).map
      (MessageDescriptor.toMessage (parentName d.toFile.package (d.outerAt path))
        (d.outerAt path) (path.headD 0)) := by
  -- Each step of the path opens one message, which is then the innermost of those around.
  induction path with
  | nil => rfl
  | cons i path ih =>
    cases path with
    | nil => exact List.getElem?_mapIdx
    | cons j path =>
      cases hd : d.messageAt? (j :: path) with
      | none =>
        rw [hd] at ih
        have hnone : d.messageAt? (i :: j :: path) = none := by
          rw [messageAt?, reach?, ← messageAt?, hd, Option.bind_none]
        rw [File.messageAt?, reach?, ← File.messageAt?, ih, hnone]
        rfl
      | some n =>
        rw [hd, Option.map_some] at ih
        have hpart : d.messageAt? (i :: j :: path) = n.nested[i]? := reach?_part hd i
        have houter : d.outerAt (i :: j :: path) =
            n.decl (parentName d.toFile.package (d.outerAt (j :: path))) j ::
              d.outerAt (j :: path) := by
          rw [outerAt, File.listing, List.tail_cons, ih, Option.map_some,
            MessageDescriptor.place_toMessage]
          rfl
        rw [houter, hpart, File.messageAt?, reach?_part ih, MessageDescriptor.nested_toMessage,
          List.getElem?_mapIdx]
        rfl

theorem path_of_messageAt? (d : FileDescriptor) {path : List Nat} {m : Message}
    (hm : d.toFile.messageAt? path = some m) : m.place.path = path := by
  induction path generalizing m with
  | nil => cases hm
  | cons i path ih =>
    have hbuilt := d.messageAt?_toFile (i :: path)
    rw [hm] at hbuilt
    obtain ⟨n, _, rfl⟩ := Option.map_eq_some_iff.mp hbuilt.symm
    rw [MessageDescriptor.place_toMessage, Place.path_eq_cons, d.container_outerAt, File.listing,
      List.tail_cons]
    cases ht : d.toFile.messageAt? path with
    | none =>
      obtain rfl : path = [] := tail_eq_nil_of_reach? hm ht
      rfl
    | some k => exact congrArg (i :: ·) (ih ht)

theorem describes_toFile (d : FileDescriptor) : d.Describes d.toFile where
  messages := by
    intro path
    have hbuilt := d.messageAt?_toFile path
    cases hn : d.messageAt? path with
    | none =>
      rw [hn] at hbuilt
      rw [hbuilt]
      exact .none
    | some n =>
      rw [hn, Option.map_some] at hbuilt
      have hdescribes := n.describes_toMessage (parentName d.toFile.package (d.outerAt path))
        (d.outerAt path) (path.headD 0)
      rw [d.path_of_messageAt? hbuilt, MessageDescriptor.place_toMessage,
        d.container_outerAt] at hdescribes
      rw [hbuilt]
      exact .some hdescribes
  enums := by
    rw [toFile]
    exact forall₂_mapIdx fun e _ i => e.describes_build (d.package.getD "") [] i
  extensions := by
    rw [toFile, List.forall₂_map_right_iff]
    exact List.forall₂_same.mpr fun f _ => f.describes_toExtension none

end FileDescriptor

namespace File

variable {file : File} {path : List Nat} {m : Message}

/-- Steps along the links go back on the path, one index each. -/
theorem above_of_linked
    (hlinked : ∀ path m, file.messageAt? path = some m → m.place.container = file.listing path)
    (hm : file.messageAt? path = some m) (k : Nat) :
    m.place.above k = (file.messageAt? (path.drop k)).map Message.place := by
  induction k generalizing path m with
  | zero =>
    rw [List.drop_zero, hm]
    rfl
  | succ k ih =>
    rw [Place.above, hlinked path m hm, listing, ← List.drop_tail]
    cases ht : file.messageAt? path.tail with
    | none =>
      rw [tail_eq_nil_of_reach? hm ht, List.drop_nil]
      rfl
    | some n =>
      rw [Option.map_some, Option.bind_some]
      exact ih ht

end File

namespace FileDescriptor

section

variable {d : FileDescriptor} {file : File} {path path' : List Nat} {m m' : Message}

theorem Describes.exists_of_messageAt? (h : d.Describes file)
    (hm : file.messageAt? path = some m) :
    ∃ n, d.messageAt? path = some n ∧ n.Describes path (file.listing path) m := by
  have hrel := h.messages path
  rw [hm] at hrel
  generalize d.messageAt? path = n at hrel
  cases hrel with
  | some hn => exact ⟨_, rfl, hn⟩

theorem Describes.place_eq_iff (h : d.Describes file) (hm : file.messageAt? path = some m)
    (hm' : file.messageAt? path' = some m') : m'.place = m.place ↔ path' = path := by
  constructor
  · intro hplace
    obtain ⟨_, _, hn⟩ := h.exists_of_messageAt? hm
    obtain ⟨_, _, hn'⟩ := h.exists_of_messageAt? hm'
    rw [← hn'.path, ← hn.path, hplace]
  · rintro rfl
    rw [hm] at hm'
    rw [Option.some.inj hm']

end

/-- A descriptor is accepted if the types of all its fields and extensions are supported, and only
then. The schema has what the descriptor declares, in the same order at every depth, and each
declaration is linked to the message that lists it and to no other. So the links of a message lead
back on its path, one step for each message that it is inside, to the top-level message there. -/
theorem build_describes (d : FileDescriptor) :
    ((∃ file, d.build = .ok file) ↔
      ∀ f, d.Declares f → 1 ≤ f.typeCode.getD 0 ∧ f.typeCode.getD 0 ≤ 18) ∧
    ∀ file, d.build = .ok file → d.Describes file ∧
      ∀ path m, file.messageAt? path = some m →
        (∀ path' m', file.messageAt? path' = some m' → (m'.place = m.place ↔ path' = path)) ∧
        (∀ k, m.place.above k = (file.messageAt? (path.drop k)).map Message.place) ∧
        ∃ i top, path.getLast? = some i ∧ file.messages[i]? = some top ∧
          m.place.above (path.length - 1) = some top.place ∧ top.place.container = none ∧
          m.place.outermost = top.place := by
  refine ⟨?_, fun file h => ?_⟩
  · simp only [declares_iff, d.build_eq, checked_eq_ok_iff]
    exact ⟨fun ⟨_, hs, _⟩ => hs, fun hs => ⟨_, hs, rfl⟩⟩
  · obtain ⟨rfl, _⟩ := d.eq_of_build h
    have hd := d.describes_toFile
    have hcontainer : ∀ path m, d.toFile.messageAt? path = some m →
        m.place.container = d.toFile.listing path := by
      intro path m hm
      obtain ⟨_, _, hn⟩ := hd.exists_of_messageAt? hm
      exact hn.container
    refine ⟨hd, fun path m hm => ?_⟩
    have habove := File.above_of_linked hcontainer hm
    obtain ⟨i, top, hlast, htop, hreach⟩ := exists_root_of_reach? hm
    have hend : m.place.above (path.length - 1) = some top.place := by
      rw [habove, File.messageAt?, hreach]
      rfl
    have hroot : top.place.container = none := hcontainer [i] top htop
    exact ⟨fun path' m' hm' => hd.place_eq_iff hm hm', habove, i, top, hlast, htop, hend, hroot,
      Place.outermost_of_above hend hroot⟩

def withTwins : FileDescriptor where
  package := some "p"
  messages := [{
    name := some "A"
    nested := [{ name := some "B" }, {
      name := some "B"
      nested := [{
        name := some "C"
        fields := [{ name := some "id", typeCode := some 5 }]
        enums := [{ name := some "Kind" }]
        extensions := [{ name := some "x", typeCode := some 9, extendee := some ".p.A" }] }] }] }]

/-- The links lead to the second of the two, and not to the first. -/
theorem build_describes_withTwins :
    withTwins.build = .ok withTwins.toFile ∧
      (∀ f, withTwins.Declares f → 1 ≤ f.typeCode.getD 0 ∧ f.typeCode.getD 0 ≤ 18) ∧
      ∃ n m first second, withTwins.messageAt? [0, 1, 0] = some n ∧
        withTwins.toFile.messageAt? [0, 1, 0] = some m ∧
        withTwins.toFile.messageAt? [0, 0] = some first ∧
        withTwins.toFile.messageAt? [1, 0] = some second ∧
        first.place.decl.fullName = "p.A.B" ∧ second.place.decl.fullName = "p.A.B" ∧
        n.Describes [0, 1, 0] (some second.place) m ∧
        ¬n.Describes [0, 1, 0] (some first.place) m ∧
        m.fields.map (·.name) = ["id"] ∧ m.extensions.map (·.name) = ["x"] ∧
        ∃ top, withTwins.toFile.messages[0]? = some top ∧ top.place.decl.name = "A" ∧
          m.place.above 2 = some top.place ∧ m.place.outermost = top.place := by
  have hb : withTwins.build = .ok withTwins.toFile := rfl
  obtain ⟨haccepted, hbuilt⟩ := build_describes withTwins
  obtain ⟨hdescribes, hlinks⟩ := hbuilt _ hb
  obtain ⟨m, hm⟩ : ∃ m, withTwins.toFile.messageAt? [0, 1, 0] = some m := ⟨_, rfl⟩
  obtain ⟨first, hfirst⟩ : ∃ m, withTwins.toFile.messageAt? [0, 0] = some m := ⟨_, rfl⟩
  obtain ⟨second, hsecond⟩ : ∃ m, withTwins.toFile.messageAt? [1, 0] = some m := ⟨_, rfl⟩
  obtain ⟨n, hn, hdescribed⟩ := hdescribes.exists_of_messageAt? hm
  rw [File.listing, List.tail_cons, hsecond, Option.map_some] at hdescribed
  have hother : ¬n.Describes [0, 1, 0] (some first.place) m := by
    intro h
    have hplace := Option.some.inj (h.container.symm.trans hdescribed.container)
    exact absurd (((hlinks _ _ hsecond).1 _ _ hfirst).mp hplace) (by decide)
  obtain ⟨_, _, i, top, hlast, htop, hend, _, houtermost⟩ := hlinks _ _ hm
  cases Option.some.inj hlast
  refine ⟨hb, haccepted.mp ⟨_, hb⟩, n, m, first, second, hn, hm, hfirst, hsecond, ?_, ?_,
    hdescribed, hother, ?_, ?_, top, htop, ?_, hend, houtermost⟩
  · cases Option.some.inj hfirst
    rfl
  · cases Option.some.inj hsecond
    rfl
  · cases Option.some.inj hm
    rfl
  · cases Option.some.inj hm
    rfl
  · cases Option.some.inj htop
    rfl

end FileDescriptor

end ProtoNaming
