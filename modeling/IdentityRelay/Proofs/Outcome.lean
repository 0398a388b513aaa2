/-! When a computation that may fail has succeeded, all of its parts have; when it
has failed, one of them has. -/
namespace IdentityRelay
variable {ε α β : Type} {outcome : Except ε α} {result : β}

theorem map_eq_ok_iff {f : α → β} :
    outcome.map f = .ok result ↔ ∃ value, outcome = .ok value ∧ f value = result := by
  cases outcome <;> simp [Except.map]

theorem bind_eq_ok_iff {f : α → Except ε β} :
    outcome.bind f = .ok result ↔ ∃ value, outcome = .ok value ∧ f value = .ok result := by
  cases outcome <;> simp [Except.bind]

theorem exists_of_isOk (succeeds : outcome.isOk = true) : ∃ value, outcome = .ok value := by
  cases outcome with
  | error => cases succeeds
  | ok value => exact ⟨value, rfl⟩

variable {error : ε}

theorem map_eq_error_iff {f : α → β} : outcome.map f = .error error ↔ outcome = .error error := by
  cases outcome <;> simp [Except.map]

theorem bind_eq_error_iff {f : α → Except ε β} :
    outcome.bind f = .error error ↔
      outcome = .error error ∨ ∃ value, outcome = .ok value ∧ f value = .error error := by
  cases outcome <;> simp [Except.bind]

theorem mapError_ok {δ : Type} (g : ε → δ) (value : α) :
    (Except.ok value).mapError g = .ok value := rfl

theorem mapError_error {δ : Type} (g : ε → δ) (error : ε) :
    (Except.error error : Except ε α).mapError g = .error (g error) := rfl

theorem mapError_bind {δ : Type} {f : α → Except ε β} (g : ε → δ) :
    (outcome.bind f).mapError g =
      (outcome.mapError g).bind fun value => (f value).mapError g := by
  cases outcome <;> rfl

theorem guard_eq_some {check : Prop} [Decidable check] (holds : check) :
    (guard check : Option Unit) = some () := if_pos holds

theorem mapM_eq_some_iff {f : α → Option β} {values : List α} {results : List β} :
    values.mapM f = some results ↔ values.map f = results.map some := by
  induction values generalizing results with
  | nil => cases results <;> simp
  | cons value values ih =>
    cases results with
    | nil => simp [List.mapM_cons, Option.bind_eq_some_iff]
    | cons first rest => simp [List.mapM_cons, ← ih, Option.bind_eq_some_iff]

theorem mapM_eq_some_iff_filterMap_eq {f : α → Option β} {values : List α} {results : List β} :
    values.mapM f = some results ↔
      (∀ value ∈ values, (f value).isSome = true) ∧ values.filterMap f = results := by
  rw [mapM_eq_some_iff]
  constructor
  · intro read
    constructor
    · intro value member
      have found : f value ∈ results.map some := read ▸ List.mem_map_of_mem member
      obtain ⟨result, _, same⟩ := List.mem_map.mp found
      rw [← same]
      rfl
    · have kept := congrArg (List.filterMap id) read
      simpa [List.filterMap_map, Function.comp_def] using kept
  · rintro ⟨each, rfl⟩
    induction values with
    | nil => rfl
    | cons value values ih =>
      obtain ⟨own, others⟩ := List.forall_mem_cons.mp each
      obtain ⟨result, read⟩ := Option.isSome_iff_exists.mp own
      rw [List.filterMap_cons_some read, List.map_cons, List.map_cons, read, ih others]

theorem eq_map_of_mapM_eq_some {f : α → Option β} {g : α → β} {values : List α}
    {results : List β} (read : values.mapM f = some results)
    (each : ∀ value ∈ values, ∀ result, f value = some result → result = g value) :
    results = values.map g := by
  induction values generalizing results with
  | nil =>
    cases read
    rfl
  | cons value values ih =>
    rw [List.mapM_cons] at read
    obtain ⟨first, own, others⟩ := Option.bind_eq_some_iff.mp read
    obtain ⟨rest, later, same⟩ := Option.bind_eq_some_iff.mp others
    cases same
    rw [List.map_cons, each value List.mem_cons_self first own,
      ih later fun other member => each other (List.mem_cons_of_mem _ member)]

theorem forall_read_iff {f : α → Option β} {values : List α} {results : List β}
    (read : values.mapM f = some results) (result : β) :
    (∀ value ∈ values, f value = some result) ↔ ∀ other ∈ results, other = result := by
  rw [mapM_eq_some_iff] at read
  constructor
  · intro each other member
    have found : some other ∈ values.map f := read ▸ List.mem_map_of_mem member
    obtain ⟨value, stored, same⟩ := List.mem_map.mp found
    rw [each value stored] at same
    exact (Option.some.inj same).symm
  · intro each value stored
    have found : f value ∈ results.map some := read ▸ List.mem_map_of_mem stored
    obtain ⟨other, member, same⟩ := List.mem_map.mp found
    rw [← same, each other member]

theorem mapM_eq_ok_iff {f : α → Except ε β} {values : List α} {results : List β} :
    values.mapM f = .ok results ↔ values.map f = results.map .ok := by
  induction values generalizing results with
  | nil => cases results <;> simp [pure, Except.pure]
  | cons value values ih =>
    rw [List.mapM_cons]
    cases results with
    | nil => cases f value <;> cases values.mapM f <;> simp [bind, Except.bind, pure, Except.pure]
    | cons first rest =>
      rw [List.map_cons, List.map_cons, List.cons.injEq, ← ih]
      cases f value <;> cases values.mapM f <;> simp [bind, Except.bind, pure, Except.pure]

theorem exists_of_mapM_eq_error {f : α → Except ε β} {values : List α}
    (failed : values.mapM f = .error error) : ∃ value ∈ values, f value = .error error := by
  induction values with
  | nil => cases failed
  | cons value values ih =>
    rw [List.mapM_cons] at failed
    rcases bind_eq_error_iff.mp failed with own | ⟨first, _, behind⟩
    · exact ⟨value, List.mem_cons_self, own⟩
    · rcases bind_eq_error_iff.mp behind with later | ⟨rest, _, never⟩
      · obtain ⟨other, member, fault⟩ := ih later
        exact ⟨other, List.mem_cons_of_mem _ member, fault⟩
      · cases never

theorem exists_mapM_eq_ok_iff {f : α → Except ε β} {values : List α} :
    (∃ results, values.mapM f = .ok results) ↔
      ∀ value ∈ values, ∃ result, f value = .ok result := by
  constructor
  · rintro ⟨results, read⟩ value member
    have found : f value ∈ results.map .ok := mapM_eq_ok_iff.mp read ▸ List.mem_map_of_mem member
    obtain ⟨result, _, same⟩ := List.mem_map.mp found
    exact ⟨result, same.symm⟩
  · intro each
    cases read : values.mapM f with
    | ok results => exact ⟨results, rfl⟩
    | error error =>
      obtain ⟨value, member, failed⟩ := exists_of_mapM_eq_error read
      obtain ⟨result, succeeded⟩ := each value member
      cases failed.symm.trans succeeded

/-- A list whose elements all have one fault in common has that fault or none. -/
theorem mapM_eq_elim {f : α → Option β} {g : α → Except ε β} {values : List α}
    (same : ∀ value ∈ values, g value = (f value).elim (.error error) .ok) :
    values.mapM g = (values.mapM f).elim (.error error) .ok := by
  induction values with
  | nil => rfl
  | cons value values ih =>
    obtain ⟨own, others⟩ := List.forall_mem_cons.mp same
    rw [List.mapM_cons, List.mapM_cons, own, ih others]
    cases f value <;> cases values.mapM f <;> rfl

theorem mapM_ne_none {f : α → Option β} {values : List α} {result : β}
    (each : ∀ value ∈ values, f value = some result) : values.mapM f ≠ none := by
  have all : values.map f = (values.map fun _ => result).map some := by
    rw [List.map_map]
    exact List.map_congr_left each
  rw [mapM_eq_some_iff.mpr all]
  exact Option.some_ne_none _

end IdentityRelay
