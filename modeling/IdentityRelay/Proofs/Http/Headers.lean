import IdentityRelay.Http.Headers
import IdentityRelay.Proofs.Text.Ascii

/-! What the operations on header fields leave under a name. -/
namespace IdentityRelay.Http.Headers
variable {headers : Headers} {name other : String}

theorem isNamed_eq (name : String) (header : Header) :
    isNamed name header = (Text.lower header.name == Text.lower name) := by
  rw [Bool.eq_iff_iff, isNamed, Text.sameName_iff, beq_iff_eq]

theorem toList_erase (headers : Headers) (name : String) :
    (headers.erase name).toList = headers.toList.filter fun header => !isNamed name header := rfl

theorem toList_set (headers : Headers) (name value : String) :
    (headers.set name value).toList =
      headers.toList.filter (fun header => !isNamed name header) ++ [⟨name, value⟩] := rfl

theorem values_append (headers : Headers) (name other value : String) :
    (headers.append other value).values name =
      headers.values name ++ if Text.sameName other name then [value] else [] := by
  cases same : Text.sameName other name <;> simp [values, append, isNamed, same]

theorem not_isNamed_of_ne (different : Text.sameName name other = false) {header : Header}
    (named : isNamed name header = true) : isNamed other header = false := by
  simp only [isNamed, Text.sameName, beq_iff_eq] at named ⊢
  rw [named]
  exact different

theorem values_erase_of_ne (different : Text.sameName name other = false) (headers : Headers) :
    (headers.erase other).values name = headers.values name := by
  simp only [values, erase, filter, List.filter_filter]
  congr 1
  apply List.filter_congr
  intro header _
  cases named : isNamed name header with
  | false => rfl
  | true => simp [not_isNamed_of_ne different named]

theorem values_set_of_ne (different : Text.sameName name other = false) (headers : Headers)
    (value : String) : (headers.set other value).values name = headers.values name := by
  rw [set, values_append, values_erase_of_ne different, Text.sameName_comm, different]
  simp

theorem values_set_self (headers : Headers) (name value : String) :
    (headers.set name value).values name = [value] := by
  have erased : (headers.erase name).values name = [] := by
    simp [values, erase, filter]
  have named : Text.sameName name name = true := beq_self_eq_true _
  rw [set, values_append, erased, named]
  rfl

theorem mem_set {header : Header} {value : String} (member : header ∈ (headers.set name value).toList) :
    header ∈ headers.toList ∨ header = ⟨name, value⟩ := by
  rw [toList_set, List.mem_append, List.mem_singleton] at member
  rcases member with kept | new
  · exact .inl (List.mem_filter.mp kept).1
  · exact .inr new

theorem values_eq_nil_iff :
    headers.values name = [] ↔ ∀ header ∈ headers.toList, isNamed name header = false := by
  simp [values, List.filter_eq_nil_iff]

theorem length_values (headers : Headers) (name : String) :
    (headers.values name).length = headers.count name := by
  rw [values, List.length_map, count, List.countP_eq_length_filter]

theorem contains_eq_false_iff : headers.contains name = false ↔ headers.values name = [] := by
  simp [contains, values_eq_nil_iff]

/-- A token is looked for in every field of the name, and in every element of its value. -/
theorem hasToken_iff {token : String} :
    headers.hasToken name token = true ↔
      ∃ header ∈ headers.toList, Text.sameName header.name name = true ∧
        ∃ element ∈ elements header.value,
          Text.sameName (String.ofList element) token = true := by
  simp [hasToken, values, isNamed]

end IdentityRelay.Http.Headers
