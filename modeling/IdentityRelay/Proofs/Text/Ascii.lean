import IdentityRelay.Text.Ascii
import IdentityRelay.Text.Blank

/-! The letters and digits of ASCII, and the characters of tokens: none of them is
a blank or has another meaning in a message. -/
namespace IdentityRelay.Text
variable {c : Char}

/-- What is checked of the first characters by their numbers holds of each of them. -/
theorem of_toNat_lt {p : Char → Prop} {bound : Nat} (each : ∀ n < bound, p (Char.ofNat n))
    (small : c.toNat < bound) : p c := by
  simpa using each c.toNat small

theorem forall_mem_of_all {p : Char → Prop} [DecidablePred p] {s : List Char}
    (checked : s.all (fun c => p c) = true) : ∀ c ∈ s, p c := by
  simpa using checked

theorem toNat_toUInt8 (small : c.toNat < 256) : c.toUInt8.toNat = c.toNat := by
  have : c.toUInt8.toNat = c.toNat % 256 := UInt32.toNat_toUInt8 c.val
  rw [this, Nat.mod_eq_of_lt small]

theorem bounds_of_isAlphanum (alphanumeric : c.isAlphanum = true) :
    0x30 ≤ c.toNat ∧ c.toNat < 0x7B := by
  have ranges : (decide (65 ≤ c.val ∧ c.val ≤ 90) || (97 ≤ c.val && c.val ≤ 122) ||
      (48 ≤ c.val && c.val ≤ 57)) = true := alphanumeric
  simp only [UInt32.le_iff_toNat_le, Bool.or_eq_true, Bool.and_eq_true, decide_eq_true_eq,
    UInt32.reduceToNat] at ranges
  have : c.toNat = c.val.toNat := rfl
  omega

theorem toNat_lt_of_isAlphanum (alphanumeric : c.isAlphanum = true) : c.toNat < 128 :=
  Nat.lt_trans (bounds_of_isAlphanum alphanumeric).2 (by decide)

theorem not_mem_of_isAlphanum {marks : List Char}
    (others : marks.all (fun c => !c.isAlphanum) = true) (alphanumeric : c.isAlphanum = true) :
    c ∉ marks := by
  intro member
  have other := List.all_eq_true.mp others c member
  rw [alphanumeric] at other
  contradiction

theorem of_isAlphanum_or_contains {p : Char → Prop} [DecidablePred p] {marks : List Char}
    (own : c.isAlphanum = true → p c) (each : marks.all (fun c => p c) = true)
    (either : (c.isAlphanum || marks.contains c) = true) : p c := by
  rcases Bool.or_eq_true_iff.mp either with alphanumeric | listed
  · exact own alphanumeric
  · exact forall_mem_of_all each c (List.contains_iff_mem.mp listed)

theorem toNat_lt_of_isTokenChar (token : isTokenChar c = true) : c.toNat < 128 :=
  of_isAlphanum_or_contains (p := (·.toNat < 128)) toNat_lt_of_isAlphanum (by decide) token

theorem not_isBlank_of_isTokenChar (token : isTokenChar c = true) : isBlank c = false := by
  refine of_isAlphanum_or_contains (p := (isBlank · = false)) (fun alphanumeric => ?_)
    (by decide) token
  have bounds := bounds_of_isAlphanum alphanumeric
  simp [isBlank]
  omega

theorem toLower_eq_self_or_isCapital (c : Char) :
    c.toLower = c ∨ 0x41 ≤ c.toNat ∧ c.toNat < 0x5B := by
  by_cases capital : c.val ≥ 'A'.val ∧ c.val ≤ 'Z'.val
  · right
    have first := UInt32.le_iff_toNat_le.mp capital.1
    have last := UInt32.le_iff_toNat_le.mp capital.2
    exact ⟨first, Nat.lt_succ_of_le last⟩
  · exact .inl (dif_neg capital)

theorem toLower_toLower (c : Char) : c.toLower.toLower = c.toLower := by
  rcases toLower_eq_self_or_isCapital c with same | ⟨first, last⟩
  · rw [same, same]
  · exact of_toNat_lt (p := fun c => c.toLower.toLower = c.toLower) (by decide) last

theorem sameName_lower (a b : String) : sameName (lower a) b = sameName a b := by
  have lowered : (lower a).toList.map Char.toLower = a.toList.map Char.toLower := by
    rw [lower, String.toList_ofList, List.map_map]
    exact List.map_congr_left fun c _ => toLower_toLower c
  rw [sameName, lowered, sameName]

theorem sameName_comm (a b : String) : sameName a b = sameName b a := by
  rw [sameName, sameName, BEq.comm]

theorem sameName_iff {a b : String} : sameName a b = true ↔ lower a = lower b := by
  rw [sameName, beq_iff_eq, lower, lower, String.ofList_inj]

theorem isAlphanum_of_isDigit (digit : c.isDigit = true) : c.isAlphanum = true := by
  simp [Char.isAlphanum, digit]

theorem isTokenChar_of_isAlphanum (alphanumeric : c.isAlphanum = true) : isTokenChar c = true := by
  simp [isTokenChar, alphanumeric]

theorem byte_of_isTokenChar (token : isTokenChar c = true) :
    isAsciiSpace c.toUInt8 = false ∧ c.toUInt8 ≠ 58 := by
  have other : c ∉ [' ', '\t', '\n', '\x0c', '\r', ':'] :=
    of_isAlphanum_or_contains (p := (· ∉ [' ', '\t', '\n', '\x0c', '\r', ':']))
      (not_mem_of_isAlphanum (by decide)) (by decide) token
  have byte : c.toUInt8.toNat = c.toNat :=
    toNat_toUInt8 (Nat.lt_trans (toNat_lt_of_isTokenChar token) (by decide))
  simpa [isAsciiSpace, ← UInt8.toNat_inj, ← Char.toNat_inj, byte, and_assoc] using other

end IdentityRelay.Text
