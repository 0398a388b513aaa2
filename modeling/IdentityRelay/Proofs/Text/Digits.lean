import IdentityRelay.Proofs.Text.Strip
import IdentityRelay.Text.Ascii

/-! Numbers written in digits are read back. -/
namespace IdentityRelay.Text
variable {base n : Nat}

theorem digit?_digitChar {digit : Nat} (small : base ≤ 16) (isDigit : digit < base) :
    digit? base digit.digitChar = some digit := by
  have each : ∀ digit < 16, digit? 16 digit.digitChar = some digit := by decide
  have read := each digit (Nat.lt_of_lt_of_le isDigit small)
  exact Option.filter_eq_some_iff.mpr
    ⟨(Option.filter_eq_some_iff.mp read).1, decide_eq_true isDigit⟩

theorem toNat_lt_of_digit? {c : Char} (isDigit : (digit? base c).isSome = true) :
    c.toNat < 128 := by
  refine Decidable.byContradiction fun large => ?_
  have beyond : ¬ c.toNat ≤ 0x39 ∧ ¬ c.toNat ≤ 0x46 ∧ ¬ c.toNat ≤ 0x66 := by omega
  simp [digit?, beyond] at isDigit

theorem ofDigits_append (base : Nat) (digits : List Nat) (last : Nat) :
    ofDigits base (digits ++ [last]) = ofDigits base digits * base + last := by
  simp [ofDigits]

theorem mapM_digit?_toDigits (large : 1 < base) (small : base ≤ 16) (n : Nat) :
    ∃ digits, (Nat.toDigits base n).mapM (digit? base) = some digits ∧ ofDigits base digits = n := by
  induction n using Nat.strongRecOn with
  | ind n ih =>
    by_cases single : n < base
    · refine ⟨[n], ?_, ?_⟩
      · simp [Nat.toDigits_of_lt_base single, digit?_digitChar small single]
      · simp [ofDigits]
    · have reaches : base ≤ n := Nat.le_of_not_lt single
      obtain ⟨digits, read, value⟩ := ih (n / base) (Nat.div_lt_self (by omega) large)
      have last : digit? base (n % base).digitChar = some (n % base) :=
        digit?_digitChar small (Nat.mod_lt n (by omega))
      refine ⟨digits ++ [n % base], ?_, ?_⟩
      · simp [Nat.toDigits_of_base_le large reaches, List.mapM_append, read, last]
      · rw [ofDigits_append, value]
        exact Nat.div_add_mod' n base

theorem isAlphanum_of_mem_toDigits (large : 1 < base) (small : base ≤ 16) {c : Char}
    (member : c ∈ Nat.toDigits base n) : c.isAlphanum = true := by
  have each : ∀ digit < 16, digit.digitChar.isAlphanum = true := by decide
  induction n using Nat.strongRecOn with
  | ind n ih =>
    rw [Nat.toDigits_eq_if large] at member
    split at member
    · rename_i single
      rw [List.mem_singleton] at member
      exact member ▸ each n (Nat.lt_of_lt_of_le single small)
    · rcases List.mem_append.mp member with earlier | last
      · exact ih (n / base) (Nat.div_lt_self (by omega) large) earlier
      · rw [List.mem_singleton] at last
        have := Nat.mod_lt n (Nat.lt_trans Nat.one_pos large)
        exact last ▸ each (n % base) (Nat.lt_of_lt_of_le this small)

theorem readSize?_toDigits (large : 1 < base) (small : base ≤ 16) (fits : n < wordLimit) :
    readSize? base (Nat.toDigits base n) = some n := by
  obtain ⟨digits, read, value⟩ := mapM_digit?_toDigits large small n
  have unsigned : ∀ rest, Nat.toDigits base n ≠ '+' :: rest := by
    intro rest same
    have : ('+').isAlphanum = true :=
      isAlphanum_of_mem_toDigits large small (same ▸ List.mem_cons_self)
    exact absurd this (by decide)
  unfold readSize?
  split
  · rename_i rest same
    exact absurd same (unsigned rest)
  · simp [read, value, fits]

end IdentityRelay.Text
