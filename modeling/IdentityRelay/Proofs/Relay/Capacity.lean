import Mathlib.Data.Finset.Card
import IdentityRelay.Proofs.Http.Progress
import IdentityRelay.Proofs.Relay.Fields

/-! How many fields a request can have. Each of them needs a line of the head, and the head is
limited, so the fields that are sent always fit into the map that a library keeps them in. -/
namespace IdentityRelay

namespace Http

namespace RequestHead
variable {line : Bytes} {header : Header}

/-- A field has a name of one character at least, and a colon. -/
theorem two_le_length_of_headerOfLine? (read : headerOfLine? line = some header) :
    2 ≤ line.length := by
  simp only [headerOfLine?, Option.bind_eq_bind, Option.bind_eq_some_iff] at read
  obtain ⟨⟨name, value⟩, found, read⟩ := read
  simp only at read
  split at read
  · rename_i token
    have nonempty : name ≠ [] := by
      intro empty
      rw [empty] at token
      exact absurd token (by decide)
    have named := List.length_pos_iff.mpr nonempty
    have whole := Text.length_of_cut? found
    rw [List.length_singleton] at whole
    omega
  · cases read

/-- Lines of two bytes and more take three bytes each with the line feeds before them, however
many empty lines stand between them. -/
private theorem three_mul_length_le {pieces : List Bytes}
    (long : ∀ line ∈ (pieces.map dropReturn).filter fun line => !line.isEmpty, 2 ≤ line.length) :
    3 * ((pieces.map dropReturn).filter fun line => !line.isEmpty).length ≤
      pieces.flatten.length + pieces.length := by
  induction pieces with
  | nil => exact Nat.le_refl _
  | cons piece rest ih =>
    rw [List.map_cons, List.filter_cons] at long ⊢
    rw [List.flatten_cons, List.length_append, List.length_cons]
    split at long
    · rename_i filled
      obtain ⟨own, others⟩ := List.forall_mem_cons.mp long
      have later := ih others
      have shorter := length_dropReturn_le piece
      rw [if_pos filled, List.length_cons]
      omega
    · rename_i empty
      have later := ih long
      rw [if_neg empty]
      omega

/-- The request line takes fourteen bytes, and each field three. -/
theorem length_fields_le {head : Bytes} {fields : RequestHead} {framing : Framing}
    (read : framed head = .ok (fields, framing)) :
    14 + 3 * fields.headers.toList.length ≤ head.length := by
  obtain ⟨requestLine, rest, split, readLine, readHeaders, _⟩ := exists_lines_of_framed read
  obtain ⟨first, others, pieces, rfl, rfl⟩ := List.map_eq_cons_iff.mp split
  unfold headersOfLines at readHeaders
  split at readHeaders
  · rename_i stored each
    have headers : fields.headers.toList = stored := by
      rw [← Except.ok.inj readHeaders]
    have long : ∀ line ∈ (others.map dropReturn).filter fun line => !line.isEmpty,
        2 ≤ line.length := by
      intro line member
      obtain ⟨header, isHeader⟩ := Option.isSome_iff_exists.mp
        ((mapM_eq_some_iff_filterMap_eq.mp each).1 line member)
      exact two_le_length_of_headerOfLine? isHeader
    have count : stored.length =
        ((others.map dropReturn).filter fun line => !line.isEmpty).length := by
      have same := congrArg List.length (mapM_eq_some_iff.mp each)
      rw [List.length_map, List.length_map] at same
      exact same.symm
    have lines := three_mul_length_le long
    have requestLine := Nat.le_trans (le_length_of_ofRequestLine readLine)
      (length_dropReturn_le first)
    have whole := Text.length_splitWhere (· == 10) head
    rw [pieces, List.flatten_cons, List.length_append, List.length_cons] at whole
    rw [headers, count]
    omega
  · cases readHeaders

end RequestHead

theorem Request.length_headers_le_of_parse {buffer : Bytes} {request : Request} {taken : Nat}
    (parsed : parse buffer = .ok (request, taken)) :
    14 + 3 * request.headers.toList.length ≤ headLimit := by
  obtain ⟨head, rest, fields, framing, length, _, within, framed, _, same, _⟩ :=
    exists_parts_of_parse parsed
  have sameHeaders : request.headers = fields.headers := by rw [same]; rfl
  rw [sameHeaders]
  exact Nat.le_trans (RequestHead.length_fields_le framed) within

end Http

namespace Relay
open IdentityRelay.Http

/-- A library's maps of fields, as far as they can be observed. Where a map cannot be made, or a
field not be added, there is no result: the library gives up the whole program. -/
structure FieldMaps where
  Map : Type
  withCapacity : Nat → Option Map
  append : Map → Field → Option Map
  /-- The names that have values in a map. -/
  names : Map → Finset String
  /-- How many names a map has room for without growing. -/
  capacity : Map → Nat

def capacityLimit : Nat := 24576

namespace FieldMaps
variable {maps : FieldMaps}

/-- What a library says of its limits. It promises the room that a map was made with, and
not that a map which is full can grow. -/
structure Laws (maps : FieldMaps) : Prop where
  withCapacity : ∀ capacity ≤ capacityLimit,
    ∃ map, maps.withCapacity capacity = some map ∧ maps.names map = ∅ ∧
      capacity ≤ maps.capacity map
  append : ∀ (map : maps.Map) (field : Field), (maps.names map).card < maps.capacity map →
    ∃ next, maps.append map field = some next ∧
      maps.names next = insert field.name (maps.names map) ∧
      maps.capacity map ≤ maps.capacity next

inductive Stop where
  | refused (failure : Failure)
  | panicked
  deriving DecidableEq, Repr

def appendAll (maps : FieldMaps) (map : maps.Map) : List Header → Except Stop maps.Map
  | [] => .ok map
  | header :: rest =>
    match Outbound.fieldOf header with
    | .error failure => .error (.refused failure)
    | .ok field =>
      match maps.append map field with
      | none => .error .panicked
      | some next => maps.appendAll next rest

def ofHeaders (maps : FieldMaps) (headers : Headers) : Except Stop maps.Map :=
  match maps.withCapacity headers.toList.length with
  | none => .error .panicked
  | some map => maps.appendAll map headers.toList

/-- Headers that no field can carry are found out as they are without a map, and all others
come into it, as long as there is room for their names. -/
theorem appendAll_eq (laws : maps.Laws) {map : maps.Map} {headers : List Header}
    (within : (maps.names map).card + headers.length ≤ maps.capacity map) :
    (∀ fields, headers.mapM Outbound.fieldOf = .ok fields →
      ∃ full, maps.appendAll map headers = .ok full ∧
        maps.names full = maps.names map ∪ (fields.map Field.name).toFinset) ∧
    ∀ failure, headers.mapM Outbound.fieldOf = .error failure →
      maps.appendAll map headers = .error (.refused failure) := by
  induction headers generalizing map with
  | nil =>
    constructor
    · intro fields carried
      cases carried
      exact ⟨map, rfl, by simp⟩
    · intro failure failed
      cases failed
  | cons header rest ih =>
    rw [List.mapM_cons]
    unfold appendAll
    cases own : Outbound.fieldOf header with
    | error failure =>
      constructor
      · intro fields carried
        cases carried
      · intro other failed
        cases failed
        rfl
    | ok field =>
      have room := Finset.card_insert_le field.name (maps.names map)
      rw [List.length_cons] at within
      obtain ⟨next, added, names, kept⟩ := laws.append map field (by omega)
      have roomLater : (maps.names next).card + rest.length ≤ maps.capacity next := by
        rw [names]
        omega
      obtain ⟨carriedLater, failedLater⟩ := ih roomLater
      simp only [added]
      constructor
      · intro fields carried
        obtain ⟨first, same, behind⟩ := bind_eq_ok_iff.mp carried
        cases same
        obtain ⟨others, later, same⟩ := bind_eq_ok_iff.mp behind
        cases same
        obtain ⟨full, filled, all⟩ := carriedLater others later
        refine ⟨full, filled, ?_⟩
        rw [all, names, List.map_cons, List.toFinset_cons, Finset.insert_union,
          Finset.union_insert]
      · intro failure failed
        rcases bind_eq_error_iff.mp failed with early | ⟨_, _, behind⟩
        · cases early
        · rcases bind_eq_error_iff.mp behind with later | ⟨_, _, never⟩
          · exact failedLater failure later
          · cases never

end FieldMaps

/-- Of the caller's headers some are left out, and at most two are put in. -/
theorem Outbound.length_identify_le (provider : Provider) (headers : Headers) :
    (identify provider headers).toList.length ≤ headers.toList.length + 2 := by
  have kept := List.length_filter_le (fun header : Header => !overrides provider header.name)
    headers.toList
  have added : (identity provider).length ≤ 2 := by
    unfold identity
    cases provider.appKey? <;> simp
  rw [toList_identify, List.length_append]
  omega

/-- A request that was read has so few fields that a library with these limits makes room for
all that are sent and takes each of them: making the map fails only where a field itself
cannot be sent. -/
theorem fields_within_capacity {maps : FieldMaps} (laws : maps.Laws) {buffer : Bytes}
    {request : Request} {taken : Nat} (parsed : Request.parse buffer = .ok (request, taken)) :
    request.headers.toList.length ≤ 21840 ∧
    ∀ (provider : Provider) (outbound : Outbound),
      Outbound.prepare provider request = .ok outbound →
        outbound.headers.toList.length ≤ 21842 ∧
        maps.ofHeaders outbound.headers ≠ .error .panicked ∧
        (∀ fields, outbound.fields = .ok fields →
          ∃ map, maps.ofHeaders outbound.headers = .ok map ∧
            maps.names map = (fields.map Field.name).toFinset) ∧
        ∀ failure, outbound.fields = .error failure →
          maps.ofHeaders outbound.headers = .error (.refused failure) := by
  have count : request.headers.toList.length ≤ 21840 := by
    have room := Request.length_headers_le_of_parse parsed
    unfold headLimit at room
    omega
  refine ⟨count, ?_⟩
  intro provider outbound prepared
  have sent : outbound.headers.toList.length ≤ 21842 := by
    have added := Outbound.length_identify_le provider request.headers
    rw [Outbound.headers_of_prepare prepared]
    omega
  obtain ⟨empty, made, none, room⟩ := laws.withCapacity outbound.headers.toList.length
    (Nat.le_trans sent (by decide))
  have within : (maps.names empty).card + outbound.headers.toList.length ≤
      maps.capacity empty := by
    rw [none, Finset.card_empty, Nat.zero_add]
    exact room
  have filled : maps.ofHeaders outbound.headers =
      maps.appendAll empty outbound.headers.toList := by
    rw [FieldMaps.ofHeaders, made]
  obtain ⟨carried, failed⟩ := FieldMaps.appendAll_eq laws within
  rw [none] at carried
  simp only [Finset.empty_union] at carried
  rw [filled]
  refine ⟨sent, ?_, carried, failed⟩
  cases fields : outbound.fields with
  | ok fields =>
    obtain ⟨map, full, _⟩ := carried _ fields
    simp [full]
  | error failure => simp [failed _ fields]

def nameLimit : Nat := 32768

/-- Names, each with all its values behind it, and the number of names that there was
room for at first. -/
structure Grouped where
  entries : List (String × List Bytes)
  capacity : Nat
  capacity_le : capacity ≤ nameLimit

namespace Grouped

def withCapacity (capacity : Nat) : Option Grouped :=
  if within : capacity ≤ capacityLimit then
    some ⟨[], capacity, Nat.le_trans within (by decide)⟩
  else none

def names (map : Grouped) : Finset String := (map.entries.map Prod.fst).toFinset

def put (map : Grouped) (field : Field) : Grouped :=
  if field.name ∈ map.names then
    { map with entries := map.entries.map fun (name, values) =>
        (name, if name == field.name then values ++ [field.value] else values) }
  else { map with entries := map.entries ++ [(field.name, [field.value])] }

/-- Puts a value behind the others of its name. A new name needs room. -/
def append? (map : Grouped) (field : Field) : Option Grouped :=
  if field.name ∈ map.names ∨ map.names.card < nameLimit then some (map.put field) else none

theorem names_put (map : Grouped) (field : Field) :
    (map.put field).names = insert field.name map.names := by
  unfold put
  split
  · rename_i known
    rw [Finset.insert_eq_of_mem known]
    simp only [names, List.map_map]
    rfl
  · simp only [names, List.map_append, List.toFinset_append]
    rw [Finset.union_comm]
    rfl

theorem capacity_put (map : Grouped) (field : Field) : (map.put field).capacity = map.capacity := by
  unfold put
  split <;> rfl

end Grouped

def groupedMaps : FieldMaps where
  Map := Grouped
  withCapacity := Grouped.withCapacity
  append := Grouped.append?
  names := Grouped.names
  capacity := Grouped.capacity

theorem groupedMaps_laws : groupedMaps.Laws where
  withCapacity := fun _ within => ⟨_, dif_pos within, rfl, Nat.le_refl _⟩
  append := fun map field room =>
    have roomLeft := Nat.lt_of_lt_of_le room map.capacity_le
    ⟨map.put field, if_pos (.inr roomLeft), map.names_put field, (map.capacity_put field).ge⟩

/-- Two values of one name that differ in case, two fields that are left out, and both parts
of the identity. -/
theorem fields_within_capacity_of_notes :
    groupedMaps.Laws ∧ Request.parse notedBuffer = .ok (notedRequest, 74) ∧
      notedRequest.headers.toList.length ≤ 21840 ∧
      ∃ outbound fields map, Outbound.prepare loopback notedRequest = .ok outbound ∧
        outbound.headers.toList.length ≤ 21842 ∧ outbound.fields = .ok fields ∧
        groupedMaps.ofHeaders outbound.headers = .ok map ∧
        groupedMaps.names map = {"x-note", "x-iowallet-user-id", "x-functions-key"} := by
  have parsed : Request.parse notedBuffer = .ok (notedRequest, 74) := by rfl
  have succeeds : (Outbound.prepare loopback notedRequest).isOk = true := by decide +kernel
  obtain ⟨outbound, prepared⟩ := exists_of_isOk succeeds
  obtain ⟨count, sent⟩ := fields_within_capacity groupedMaps_laws parsed
  obtain ⟨room, _, carried, _⟩ := sent loopback outbound prepared
  have fields : outbound.fields = .ok [⟨"x-note", [0x63, 0x61, 0x66, 0xe9]⟩,
      ⟨"x-note", [0x80, 0x3a, 0xff]⟩, ⟨"x-iowallet-user-id", [0x7a, 0x6f, 0xeb]⟩,
      ⟨"x-functions-key", [0x61, 0x09, 0x62]⟩] := by
    rw [Outbound.fields, Outbound.headers_of_prepare prepared]
    rfl
  obtain ⟨map, filled, names⟩ := carried _ fields
  exact ⟨groupedMaps_laws, parsed, count, outbound, _, map, prepared, room, fields, filled,
    names.trans (by decide)⟩

end Relay

end IdentityRelay
