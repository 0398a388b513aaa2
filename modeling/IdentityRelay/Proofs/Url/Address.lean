import IdentityRelay.Proofs.Outcome
import IdentityRelay.Proofs.Text.Cut
import IdentityRelay.Proofs.Text.Digits
import IdentityRelay.Proofs.Text.Words
import IdentityRelay.Url.Ipv4
import IdentityRelay.Url.Ipv6

/-! Addresses are read back from their text: the four numbers of one kind, and the eight
groups of the other, where a double colon stands for the zeros that are left out. -/
namespace IdentityRelay.Url

namespace Ipv4

private theorem head?_toDigits {n : Nat} (pos : 0 < n) : (Nat.toDigits 10 n).head? ≠ some '0' := by
  have each : ∀ n < 10, 0 < n → n.digitChar ≠ '0' := by decide
  induction n using Nat.strongRecOn with
  | ind n ih =>
    by_cases single : n < 10
    · rw [Nat.toDigits_of_lt_base single]
      simpa using each n single pos
    · have reaches : 10 ≤ n := Nat.le_of_not_lt single
      have front := ih (n / 10) (by omega) (by omega)
      obtain ⟨first, others, digits⟩ :=
        List.exists_cons_of_ne_nil (Nat.toDigits_ne_nil : Nat.toDigits 10 (n / 10) ≠ [])
      rw [Nat.toDigits_of_base_le (by decide) reaches, digits]
      rwa [digits] at front

/-- A decimal number is not taken for one of another base. -/
theorem numberOfPart?_toDigits (n : Nat) : numberOfPart? (Nat.toDigits 10 n) = some n := by
  cases n with
  | zero => rfl
  | succ n =>
    have head := head?_toDigits n.succ_pos
    obtain ⟨digits, read, value⟩ :=
      @Text.mapM_digit?_toDigits 10 (by decide) (by decide) (n + 1)
    unfold numberOfPart?
    split
    · exact absurd ‹_› Nat.toDigits_ne_nil
    · rename_i same
      exact absurd (by rw [same]; rfl) head
    · rename_i same
      exact absurd (by rw [same]; rfl) head
    · rename_i same
      exact absurd (by rw [same]; rfl) head
    · simp [read, value]

def pieces (ip : Ipv4) : List (List Char) := ip.bytes.map (Nat.toDigits 10)

theorem isDigit_of_mem_pieces {ip : Ipv4} {piece : List Char} (isPiece : piece ∈ ip.pieces)
    {c : Char} (member : c ∈ piece) : c.isDigit = true := by
  obtain ⟨byte, _, rfl⟩ := List.mem_map.mp isPiece
  exact Nat.isDigit_of_mem_toDigits (by decide) (by decide) member

theorem mem_render {ip : Ipv4} {c : Char} (member : c ∈ ip.render) : c.isDigit = true ∨ c = '.' :=
  Text.forall_mem_intercalate (p := fun c => c.isDigit = true ∨ c = '.') (by simp)
    (fun _ isPiece _ inPiece => .inl (isDigit_of_mem_pieces isPiece inPiece)) c member

theorem parts_render (ip : Ipv4) : parts ip.render = ip.pieces := by
  have split : Text.splitWhere (· == '.') ip.render = ip.pieces := by
    refine List.splitOn_intercalate '.' ?_ (by simp [bytes])
    intro piece isPiece dot
    exact absurd (isDigit_of_mem_pieces isPiece dot) (by decide)
  have last : ip.pieces.getLast? ≠ some [] := by
    intro empty
    obtain ⟨byte, _, none⟩ := List.mem_map.mp (List.mem_of_getLast? empty)
    exact Nat.toDigits_ne_nil none
  simp [parts, split, last]

theorem isDue_render (ip : Ipv4) : isDue ip.render = true := by
  have last : ip.pieces.getLast? = some (Nat.toDigits 10 (ip.address.toNat % 256)) := rfl
  have digits : (Nat.toDigits 10 (ip.address.toNat % 256)).all Char.isDigit = true :=
    List.all_eq_true.mpr fun c member =>
      Nat.isDigit_of_mem_toDigits (by decide) (by decide) member
  have some : (Nat.toDigits 10 (ip.address.toNat % 256)).isEmpty = false := by
    simp [Nat.toDigits_ne_nil]
  rw [isDue, parts_render, last]
  simp only [digits, some]
  rfl

private theorem ofNumbers?_of_bytes {a b c d : Nat} (first : a < 256) (second : b < 256)
    (third : c < 256) (fourth : d < 256) :
    ofNumbers? [a, b, c, d] = some ⟨UInt32.ofNat (((a * 256 + b) * 256 + c) * 256 + d)⟩ := by
  have fits : (decide ([a, b, c].length ≤ 3) && [a, b, c].all (· < 256) &&
      decide (d < Nat.pow 256 (4 - [a, b, c].length))) = true := by
    simp [first, second, third, fourth]
  show (guard ((decide ([a, b, c].length ≤ 3) && [a, b, c].all (· < 256) &&
    decide (d < Nat.pow 256 (4 - [a, b, c].length))) = true) : Option Unit).bind _ = _
  rw [guard_eq_some fits]
  have number : Text.ofDigits 256 [a, b, c] * Nat.pow 256 (4 - [a, b, c].length) + d =
      ((a * 256 + b) * 256 + c) * 256 + d := by
    simp [Text.ofDigits]
  exact congrArg (fun n => some (Ipv4.mk (UInt32.ofNat n))) number

theorem parse_render (ip : Ipv4) : parse ip.render = .ok ip := by
  have read : ip.pieces.mapM numberOfPart? = some ip.bytes := by
    rw [mapM_eq_some_iff, pieces, List.map_map]
    exact List.map_congr_left fun byte _ => numberOfPart?_toDigits byte
  have bound := ip.address.toNat_lt
  have value : ((ip.address.toNat / 0x1000000 * 256 + ip.address.toNat / 0x10000 % 256) * 256 +
      ip.address.toNat / 0x100 % 256) * 256 + ip.address.toNat % 256 = ip.address.toNat := by
    omega
  have whole : ofNumbers? ip.bytes = some ip := by
    rw [bytes, ofNumbers?_of_bytes (by omega) (Nat.mod_lt _ (by decide))
      (Nat.mod_lt _ (by decide)) (Nat.mod_lt _ (by decide)), value, UInt32.ofNat_toNat]
  rw [parse, parts_render, read, Option.bind_some, whole]

end Ipv4

namespace Ipv6
variable {groups : List UInt16}

private theorem group?_toDigits (group : UInt16) :
    group? (Nat.toDigits 16 group.toNat) = some group := by
  obtain ⟨digits, read, value⟩ :=
    @Text.mapM_digit?_toDigits 16 (by decide) (by decide) group.toNat
  have some : 1 ≤ (Nat.toDigits 16 group.toNat).length :=
    List.length_pos_iff.mpr Nat.toDigits_ne_nil
  have few : (Nat.toDigits 16 group.toNat).length ≤ 4 :=
    (Nat.length_toDigits_le_iff (by decide) (by decide)).mpr group.toNat_lt
  have checked : (decide (1 ≤ (Nat.toDigits 16 group.toNat).length) &&
      decide ((Nat.toDigits 16 group.toNat).length ≤ 4)) = true := by
    simp [some, few]
  rw [group?, guard_eq_some checked, read]
  show Option.some (UInt16.ofNat (Text.ofDigits 16 digits)) = _
  rw [value, UInt16.ofNat_toNat]

private theorem isAlphanum_of_mem_digits {group : UInt16} {c : Char}
    (member : c ∈ Nat.toDigits 16 group.toNat) : c.isAlphanum = true :=
  Text.isAlphanum_of_mem_toDigits (by decide) (by decide) member

private theorem not_mem_digits {group : UInt16} {c : Char} (mark : c.isAlphanum = false) :
    c ∉ Nat.toDigits 16 group.toNat := by
  intro member
  rw [isAlphanum_of_mem_digits member] at mark
  cases mark

private theorem mem_renderGroups {c : Char} (member : c ∈ renderGroups groups) :
    c.isAlphanum = true ∨ c = ':' := by
  refine Text.forall_mem_intercalate (p := fun c => c.isAlphanum = true ∨ c = ':') (by simp) ?_ c
    member
  rw [List.forall_mem_map]
  exact fun group _ c inDigits => .inl (isAlphanum_of_mem_digits inDigits)

theorem mem_render {ip : Ipv6} {c : Char} (member : c ∈ ip.render) :
    c.isAlphanum = true ∨ c = ':' := by
  unfold render at member
  split at member
  · exact mem_renderGroups member
  · rcases List.mem_append.mp member with front | back
    · rcases List.mem_append.mp front with before | colons
      · exact mem_renderGroups before
      · exact .inr (by simpa using colons)
    · exact mem_renderGroups back

private theorem groupsOfParts?_digits (groups : List UInt16) :
    groupsOfParts? (groups.map fun group => Nat.toDigits 16 group.toNat) = some groups := by
  induction groups with
  | nil => rfl
  | cons group rest ih =>
    cases rest with
    | nil =>
      have noDot : '.' ∉ Nat.toDigits 16 group.toNat := not_mem_digits (by decide)
      simp [groupsOfParts?, noDot, group?_toDigits]
    | cons next others =>
      rw [List.map_cons] at ih ⊢
      rw [List.map_cons, groupsOfParts?, group?_toDigits, ih]
      · rfl
      · simp

private theorem renderGroups_cons (group next : UInt16) (rest : List UInt16) :
    renderGroups (group :: next :: rest) =
      Nat.toDigits 16 group.toNat ++ ':' :: renderGroups (next :: rest) := by
  simp [renderGroups, List.intercalate_cons_cons]

private theorem groups?_renderGroups (groups : List UInt16) :
    groups? (renderGroups groups) = some groups := by
  cases groups with
  | nil => rfl
  | cons group rest =>
    have split : Text.splitWhere (· == ':') (renderGroups (group :: rest)) =
        (group :: rest).map fun group => Nat.toDigits 16 group.toNat := by
      refine List.splitOn_intercalate ':' ?_ (by simp)
      rw [List.forall_mem_map]
      exact fun group _ => not_mem_digits (by decide)
    have some : (renderGroups (group :: rest)).isEmpty = false := by
      cases rest <;> simp [renderGroups, List.intercalate_cons_cons, Nat.toDigits_ne_nil]
    rw [groups?, some, split]
    exact groupsOfParts?_digits (group :: rest)

/-- No two colons stand together in what is written for groups. -/
private theorem cut?_renderGroups (groups : List UInt16) (s : List Char) :
    Text.cut? [':', ':'] (renderGroups groups ++ s) =
      (Text.cut? [':', ':'] s).map fun parts => (renderGroups groups ++ parts.1, parts.2) := by
  induction groups with
  | nil => simp [renderGroups]
  | cons group rest ih =>
    have absent : ':' ∉ Nat.toDigits 16 group.toNat := not_mem_digits (by decide)
    cases rest with
    | nil => simpa [renderGroups] using Text.cut?_append_of_not_mem absent s
    | cons next others =>
      obtain ⟨first, later, digits⟩ :=
        List.exists_cons_of_ne_nil (Nat.toDigits_ne_nil : Nat.toDigits 16 next.toNat ≠ [])
      have apart : ':' ≠ first := by
        rintro rfl
        exact not_mem_digits (by decide) (digits ▸ List.mem_cons_self)
      have starts : ∃ tail, renderGroups (next :: others) = first :: tail := by
        cases others with
        | nil => exact ⟨later, by simpa [renderGroups] using digits⟩
        | cons => exact ⟨_, by rw [renderGroups_cons, digits]; rfl⟩
      obtain ⟨tail, front⟩ := starts
      have single :
          [':', ':'].isPrefixOf (':' :: (renderGroups (next :: others) ++ s)) = false := by
        simp [front, List.isPrefixOf, apart]
      rw [renderGroups_cons, List.append_assoc, List.cons_append,
        Text.cut?_append_of_not_mem absent, Text.cut?_cons, single, ih]
      simp [Function.comp_def]

/-- The run that is left out has at least two groups, and all of them are zero. -/
private theorem zeroRun?_spec {start length : Nat} (run : zeroRun? groups = some (start, length)) :
    2 ≤ length ∧ start + length ≤ 8 ∧
      (groups.drop start).take length = List.replicate length 0 := by
  have zeros := List.find?_some run
  have candidate := List.mem_of_find?_eq_some run
  rw [List.mem_flatMap] at candidate
  obtain ⟨length', size, inRange⟩ := candidate
  obtain ⟨start', small, same⟩ := List.mem_map.mp inRange
  cases same
  have sizes : ∀ n ∈ [8, 7, 6, 5, 4, 3, 2], 2 ≤ n ∧ n ≤ 8 := by decide
  have := sizes _ size
  have := List.mem_range.mp small
  exact ⟨by omega, by omega, by simpa using zeros⟩

private theorem ofGroups?_groups (ip : Ipv6) : ofGroups? ip.groups = some ip := dif_pos ip.eight

/-- The groups around two colons leave room for at least one that is zero. -/
private theorem ofText?_of_cut {s : List Char} {before after : List UInt16}
    (cut : Text.cut? [':', ':'] s = some (renderGroups before, renderGroups after))
    (few : before.length + after.length ≤ 7) :
    ofText? s =
      ofGroups? (before ++ List.replicate (8 - before.length - after.length) 0 ++ after) := by
  have noDot : '.' ∉ renderGroups before := by
    intro dot
    rcases mem_renderGroups dot with letter | colon
    · exact absurd letter (by decide)
    · exact absurd colon (by decide)
  have front : (if (renderGroups before).contains '.' then none
      else groups? (renderGroups before)) = some before := by
    rw [if_neg (by simpa using noDot), groups?_renderGroups]
  rw [ofText?, cut]
  show (if _ then none else groups? (renderGroups before)).bind _ = _
  rw [front]
  show (groups? (renderGroups after)).bind _ = _
  rw [groups?_renderGroups]
  show (guard (before.length + after.length ≤ 7) : Option Unit).bind _ = _
  rw [guard_eq_some few]
  rfl

private theorem cut?_colons (before after : List UInt16) :
    Text.cut? [':', ':'] (renderGroups before ++ [':', ':'] ++ renderGroups after) =
      some (renderGroups before, renderGroups after) := by
  rw [List.append_assoc, cut?_renderGroups, List.cons_append, Text.cut?_cons]
  simp [List.isPrefixOf]

private theorem ofText?_render (ip : Ipv6) : ofText? ip.render = some ip := by
  unfold render
  split
  · have whole : Text.cut? [':', ':'] (renderGroups ip.groups) = none := by
      simpa [Text.cut?_nil] using cut?_renderGroups ip.groups []
    rw [ofText?, whole]
    show (groups? (renderGroups ip.groups)).bind ofGroups? = _
    rw [groups?_renderGroups]
    exact ofGroups?_groups ip
  · rename_i start length run
    obtain ⟨many, within, zeros⟩ := zeroRun?_spec run
    have eight := ip.eight
    have left : (ip.groups.take start).length = start := by
      rw [List.length_take]
      omega
    have right : (ip.groups.drop (start + length)).length = 8 - start - length := by
      rw [List.length_drop]
      omega
    have between : 8 - start - (8 - start - length) = length := by omega
    have filled : ip.groups.take start ++ List.replicate length 0 ++
        ip.groups.drop (start + length) = ip.groups := by
      rw [← zeros, ← List.drop_drop, List.append_assoc, List.take_append_drop,
        List.take_append_drop]
    rw [ofText?_of_cut (cut?_colons _ _) (by omega), left, right, between, filled]
    exact ofGroups?_groups ip

theorem parse_render (ip : Ipv6) : parse ip.render = .ok ip := by
  rw [parse, ofText?_render]

end Ipv6

end IdentityRelay.Url
