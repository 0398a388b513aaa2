import Mathlib.Algebra.BigOperators.Group.Finset.Basic
import IdentityRelay.Proofs.Http.Headers

/-! Header fields as a map from names to the fields under them. A list that is edited answers
as the map does that is edited in the same way, and beyond the map it keeps the order among
fields of different names: what an edit leaves stays in its order, and what it adds is put
behind. -/
namespace IdentityRelay.Http

/-! ### The map -/

/-- The fields under each name, in their order. The keys are names in lower case. -/
structure Multimap where
  fields : String → List Header
  keys : Finset String
  /-- A name is a key as long as there are fields under it. -/
  mem_keys_iff (key : String) : key ∈ keys ↔ fields key ≠ []

namespace Multimap

def empty : Multimap where
  fields := fun _ => []
  keys := ∅
  mem_keys_iff := by simp

def put (map : Multimap) (key : String) (fields : List Header) : Multimap where
  fields := Function.update map.fields key fields
  keys := if fields.isEmpty then map.keys.erase key else insert key map.keys
  mem_keys_iff := by
    intro other
    by_cases same : other = key
    · subst same
      cases fields <;> simp
    · cases fields <;> simp [same, map.mem_keys_iff]

def under (map : Multimap) (name : String) : List Header := map.fields (Text.lower name)

def values (map : Multimap) (name : String) : List String := (map.under name).map Header.value

def size (map : Multimap) : Nat := ∑ key ∈ map.keys, (map.fields key).length

def append (map : Multimap) (name value : String) : Multimap :=
  map.put (Text.lower name) (map.under name ++ [⟨name, value⟩])

def set (map : Multimap) (name value : String) : Multimap :=
  map.put (Text.lower name) [⟨name, value⟩]

def remove (map : Multimap) (name : String) : Multimap := map.put (Text.lower name) []

def retain (map : Multimap) (keep : Header → Bool) : Multimap where
  fields := fun key => (map.fields key).filter keep
  keys := map.keys.filter fun key => (map.fields key).any keep
  mem_keys_iff := by
    intro key
    rw [Finset.mem_filter, map.mem_keys_iff, List.any_eq_true]
    constructor
    · rintro ⟨_, header, member, kept⟩ none
      exact List.filter_eq_nil_iff.mp none header member kept
    · intro some
      obtain ⟨header, found⟩ := List.exists_mem_of_ne_nil _ some
      obtain ⟨member, kept⟩ := List.mem_filter.mp found
      exact ⟨List.ne_nil_of_mem member, header, member, kept⟩

def ofList (initial : List Header) : Multimap :=
  initial.foldl (fun map header => map.append header.name header.value) empty

theorem fields_put (map : Multimap) (key : String) (fields : List Header) (other : String) :
    (map.put key fields).fields other = if other = key then fields else map.fields other :=
  Function.update_apply _ _ _ _

end Multimap

/-! ### Edits -/

/-- One change to header fields. -/
inductive Edit where
  | append (name value : String)
  | set (name value : String)
  | remove (name : String)
  | retain (keep : Header → Bool)

namespace Edit

def leaves : Edit → Header → Bool
  | append _ _, _ => true
  | set name _, header => Text.lower header.name != Text.lower name
  | remove name, header => Text.lower header.name != Text.lower name
  | retain keep, header => keep header

def added : Edit → List Header
  | append name value => [⟨name, value⟩]
  | set name value => [⟨name, value⟩]
  | remove _ => []
  | retain _ => []

/-- What is left in the end of the fields that were brought in, in their order. -/
def written : List Edit → List Header
  | [] => []
  | edit :: later =>
    (edit.added.filter fun header => later.all fun edit => edit.leaves header) ++ written later

end Edit

def Headers.edit (headers : Headers) : Edit → Headers
  | .append name value => headers.append name value
  | .set name value => headers.set name value
  | .remove name => headers.erase name
  | .retain keep => headers.filter keep

def Multimap.edit (map : Multimap) : Edit → Multimap
  | .append name value => map.append name value
  | .set name value => map.set name value
  | .remove name => map.remove name
  | .retain keep => map.retain keep

def Headers.edited (headers : Headers) (edits : List Edit) : Headers := edits.foldl edit headers

def Multimap.edited (map : Multimap) (edits : List Edit) : Multimap := edits.foldl edit map

/-! ### The list and the map -/

namespace Headers
variable {headers : Headers} {map : Multimap}

/-- The map holds just what stands in the list, name by name. -/
def HeldIn (headers : Headers) (map : Multimap) : Prop :=
  ∀ key, map.fields key = headers.toList.filter fun header => Text.lower header.name == key

/-- Every question about a name has the same answer for the list and for the map, and so has
the question for the number of fields. -/
structure Refines (headers : Headers) (map : Multimap) : Prop where
  values (name : String) : headers.values name = map.values name
  first (name : String) : headers.value? name = (map.values name).head?
  contains (name : String) : headers.contains name = true ↔ map.values name ≠ []
  /-- So many fields there are under the name, and so many are gone when it is removed. -/
  removed (name : String) : headers.count name = (map.values name).length ∧
    (headers.erase name).toList.length + (map.values name).length = headers.toList.length
  length : headers.toList.length = map.size

namespace HeldIn

theorem under (held : headers.HeldIn map) (name : String) :
    map.under name = headers.toList.filter (isNamed name) := by
  rw [Multimap.under, held]
  exact List.filter_congr fun header _ => (isNamed_eq name header).symm

theorem values (held : headers.HeldIn map) (name : String) :
    headers.values name = map.values name := by
  rw [Multimap.values, held.under, Headers.values]

theorem keys_eq (held : headers.HeldIn map) :
    map.keys = (headers.toList.map fun header => Text.lower header.name).toFinset := by
  ext key
  rw [map.mem_keys_iff, held]
  simp [List.filter_eq_nil_iff]

theorem length (held : headers.HeldIn map) : headers.toList.length = map.size := by
  have each : ∀ key, (map.fields key).length =
      (headers.toList.map fun header => Text.lower header.name).count key := by
    intro key
    rw [held, List.count, List.countP_map, List.countP_eq_length_filter]
    rfl
  simp only [Multimap.size, held.keys_eq, each]
  rw [List.sum_toFinset_count_eq_length, List.length_map]

theorem refines (held : headers.HeldIn map) : headers.Refines map where
  values := held.values
  first name := by rw [value?, held.values]
  contains name := by
    rw [← held.values, ne_eq, ← contains_eq_false_iff, Bool.not_eq_false]
  removed name := by
    have parts := List.length_eq_length_filter_add (l := headers.toList) (isNamed name)
    rw [← held.values, length_values, toList_erase, count, List.countP_eq_length_filter]
    exact ⟨rfl, by omega⟩
  length := held.length

theorem put (held : headers.HeldIn map) {next : Headers} {name : String} {fields : List Header}
    (own : next.toList.filter (isNamed name) = fields)
    (others : ∀ key ≠ Text.lower name,
      (next.toList.filter fun header => Text.lower header.name == key) =
        headers.toList.filter fun header => Text.lower header.name == key) :
    next.HeldIn (map.put (Text.lower name) fields) := by
  intro key
  rw [Multimap.fields_put]
  split
  · rename_i same
    rw [← own, same]
    exact List.filter_congr fun header _ => isNamed_eq name header
  · rename_i different
    rw [others key different, held]

theorem append (held : headers.HeldIn map) (name value : String) :
    (headers.append name value).HeldIn (map.append name value) := by
  apply held.put
  · rw [held.under, Headers.append, List.filter_append]
    simp [isNamed_eq]
  · intro key different
    simp [Headers.append, different.symm]

theorem erase (held : headers.HeldIn map) (name : String) :
    (headers.erase name).HeldIn (map.remove name) := by
  apply held.put
  · simp [toList_erase]
  · intro key different
    rw [toList_erase, List.filter_filter]
    apply List.filter_congr
    intro header _
    rw [isNamed_eq]
    by_cases same : Text.lower header.name = key
    · simp [same, different]
    · simp [same]

/-- To set a name is to remove it and to append to what is left. -/
theorem set (held : headers.HeldIn map) (name value : String) :
    (headers.set name value).HeldIn (map.set name value) := by
  intro key
  rw [Headers.set, ← (held.erase name).append name value key]
  simp only [Multimap.set, Multimap.append, Multimap.under, Multimap.remove, Multimap.fields_put]
  split <;> rfl

theorem filter (held : headers.HeldIn map) (keep : Header → Bool) :
    (headers.filter keep).HeldIn (map.retain keep) := by
  intro key
  have kept : (map.retain keep).fields key = (map.fields key).filter keep := rfl
  rw [kept, held, Headers.filter, List.filter_filter, List.filter_filter]
  simp only [Bool.and_comm]

theorem edit (held : headers.HeldIn map) (edit : Edit) :
    (headers.edit edit).HeldIn (map.edit edit) := by
  cases edit with
  | append name value => exact held.append name value
  | set name value => exact held.set name value
  | remove name => exact held.erase name
  | retain keep => exact held.filter keep

theorem edited (held : headers.HeldIn map) (edits : List Edit) :
    (headers.edited edits).HeldIn (map.edited edits) := by
  induction edits generalizing headers map with
  | nil => exact held
  | cons edit later ih => exact ih (held.edit edit)

end HeldIn

private theorem HeldIn.appendEach {before : List Header} (held : HeldIn ⟨before⟩ map)
    (rest : List Header) :
    HeldIn ⟨before ++ rest⟩
      (rest.foldl (fun map header => map.append header.name header.value) map) := by
  induction rest generalizing before map with
  | nil => rwa [List.append_nil]
  | cons header rest ih =>
    rw [List.append_cons, List.foldl_cons]
    exact ih (held.append header.name header.value)

theorem heldIn_ofList (initial : List Header) : HeldIn ⟨initial⟩ (.ofList initial) := by
  have none : HeldIn ⟨[]⟩ Multimap.empty := fun _ => rfl
  exact none.appendEach initial

/-! ### The order of the fields -/

/-- An edit leaves fields in their order, and puts the new ones behind them. -/
theorem toList_edit (headers : Headers) (edit : Edit) :
    (headers.edit edit).toList = headers.toList.filter edit.leaves ++ edit.added := by
  have others (name : String) :
      (headers.toList.filter fun header => !isNamed name header) =
        headers.toList.filter fun header => Text.lower header.name != Text.lower name :=
    List.filter_congr fun header _ => by rw [isNamed_eq]; rfl
  cases edit with
  | append name value =>
    exact congrArg (· ++ _) (List.filter_eq_self.mpr fun _ _ => rfl).symm
  | set name value => exact congrArg (· ++ _) (others name)
  | remove name => exact (others name).trans (List.append_nil _).symm
  | retain keep => exact (List.append_nil _).symm

/-- After edits there are the fields that each of them left, and behind these the ones that
were brought in and left by all later ones. -/
theorem toList_edited (headers : Headers) (edits : List Edit) :
    (headers.edited edits).toList =
      (headers.toList.filter fun header => edits.all fun edit => edit.leaves header) ++
        Edit.written edits := by
  induction edits generalizing headers with
  | nil => simp [edited, Edit.written]
  | cons edit later ih =>
    have first : headers.edited (edit :: later) = (headers.edit edit).edited later := rfl
    rw [first, ih, toList_edit, List.filter_append, List.filter_filter, List.append_assoc,
      Edit.written]
    simp only [List.all_cons, Bool.and_comm]

/-- Header fields are a map of names to lists of fields, in one order. Whatever fields there
are at first and however they are edited, the map that is edited in the same way has the same
answers. The fields that an edit leaves alone stay as they are, in their order, and those that
it brings in come last; so it is for all edits together. -/
theorem edited_as_multimap (initial : List Header) (edits : List Edit) :
    Refines (edited ⟨initial⟩ edits) ((Multimap.ofList initial).edited edits) ∧
      (edited ⟨initial⟩ edits).toList =
        (initial.filter fun header => edits.all fun edit => edit.leaves header) ++
          Edit.written edits ∧
      ∀ edit : Edit, ((edited ⟨initial⟩ edits).edit edit).toList =
        (edited ⟨initial⟩ edits).toList.filter edit.leaves ++ edit.added := by
  refine ⟨?_, ?_, ?_⟩
  · exact ((heldIn_ofList initial).edited edits).refines
  · exact toList_edited ⟨initial⟩ edits
  · exact toList_edit _

/-- To set a name takes all its fields away, whatever the case of their names. -/
example :
    (edited ⟨[⟨"X-Tag", "a"⟩, ⟨"Host", "h"⟩, ⟨"x-tag", "b"⟩]⟩
      [.append "host" "i", .set "X-TAG" "c", .retain fun header => header.value != "h"]).toList =
        [⟨"host", "i"⟩, ⟨"X-TAG", "c"⟩] := by
  decide

end Headers

end IdentityRelay.Http
