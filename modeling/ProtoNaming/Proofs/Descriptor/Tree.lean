import ProtoNaming.Descriptor.Basic

namespace ProtoNaming

namespace MessageDescriptor

theorem induction {motive : MessageDescriptor → Prop}
    (step : ∀ d, (∀ n ∈ d.nested, motive n) → motive d) (d : MessageDescriptor) : motive d := by
  refine step d fun n hn => induction step n
termination_by d
decreasing_by
  have := List.sizeOf_lt_of_mem hn
  cases d
  simp only at hn this ⊢
  simp only [mk.sizeOf_spec]
  omega

mutual

/-- The fields and extensions of a message: its own fields, then those of the messages inside it,
then its own extensions. -/
def allFields : MessageDescriptor → List FieldDescriptor
  | ⟨_, fields, nested, _, extensions, _⟩ => fields ++ allFieldsOf nested ++ extensions

def allFieldsOf : List MessageDescriptor → List FieldDescriptor
  | [] => []
  | d :: ds => allFields d ++ allFieldsOf ds

end

theorem allFieldsOf_eq_flatMap (ds : List MessageDescriptor) :
    allFieldsOf ds = ds.flatMap allFields := by
  induction ds with
  | nil => rfl
  | cons d ds ih => rw [allFieldsOf, ih, List.flatMap_cons]

theorem allFields_eq (d : MessageDescriptor) :
    d.allFields = d.fields ++ d.nested.flatMap allFields ++ d.extensions := by
  cases d
  rw [allFields, allFieldsOf_eq_flatMap]

end MessageDescriptor

def FileDescriptor.allFields (d : FileDescriptor) : List FieldDescriptor :=
  d.messages.flatMap MessageDescriptor.allFields ++ d.extensions

end ProtoNaming
