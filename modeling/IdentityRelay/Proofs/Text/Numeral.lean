import IdentityRelay.Proofs.Outcome
import IdentityRelay.Proofs.Text.Ascii
import IdentityRelay.Proofs.Text.Digits

/-! The spellings in which a number is read: digits, at most one plus sign before them, and
blanks around. A strict reader takes only digits with spaces and tabs around them; the two
differ exactly on plus signs and on other blanks. -/
namespace IdentityRelay.Text
variable {isDigit : Char → Bool} {s : List Char} {base n : Nat}

def isHexDigit (c : Char) : Bool :=
  c.isDigit || ('a' ≤ c && c ≤ 'f') || ('A' ≤ c && c ≤ 'F')

/-- The blanks that a message format has around a number. -/
def isLineSpace (c : Char) : Bool := c == ' ' || c == '\t'

structure IsNumeral (isDigit : Char → Bool) (s : List Char) : Prop where
  nonempty : s ≠ []
  digits : ∀ c ∈ s, isDigit c = true

def IsStrict (isDigit : Char → Bool) (s : List Char) : Prop :=
  IsNumeral isDigit (strip isLineSpace s)

/-- Digits between any blanks, perhaps behind a plus sign. -/
def IsLenient (isDigit : Char → Bool) (s : List Char) : Prop :=
  ∃ digits, IsNumeral isDigit digits ∧ (trim s = digits ∨ trim s = '+' :: digits)

structure IsPlain (s : List Char) : Prop where
  unsigned : '+' ∉ s
  spaced : ∀ c ∈ s, isBlank c = true → isLineSpace c = true

private theorem isBlank_of_isLineSpace {c : Char} (space : isLineSpace c = true) :
    isBlank c = true := by
  simp only [isLineSpace, Bool.or_eq_true, beq_iff_eq] at space
  rcases space with rfl | rfl <;> decide

/-- Where spaces and tabs are the only blanks, there is no other way to strip them. -/
private theorem trim_eq (spaced : ∀ c ∈ s, isBlank c = true → isLineSpace c = true) :
    trim s = strip isLineSpace s := by
  apply strip_congr
  intro c member
  rw [Bool.eq_iff_iff]
  exact ⟨spaced c member, isBlank_of_isLineSpace⟩

theorem isStrict_iff (letters : ∀ c, isDigit c = true → c.isAlphanum = true) :
    IsStrict isDigit s ↔ IsLenient isDigit s ∧ IsPlain s := by
  constructor
  · intro strict
    have either : ∀ c ∈ s, isDigit c = true ∨ isLineSpace c = true := by
      intro c member
      rcases mem_strip_or member with left | space
      · exact .inl (strict.digits c left)
      · exact .inr space
    have spaced : ∀ c ∈ s, isBlank c = true → isLineSpace c = true := by
      intro c member blank
      refine (either c member).resolve_left fun digit => ?_
      rw [not_isBlank_of_isTokenChar (isTokenChar_of_isAlphanum (letters c digit))] at blank
      contradiction
    have unsigned : '+' ∉ s := by
      intro member
      rcases either _ member with digit | space
      · exact absurd (letters _ digit) (by decide)
      · exact absurd space (by decide)
    exact ⟨⟨_, strict, .inl (trim_eq spaced)⟩, unsigned, spaced⟩
  · rintro ⟨⟨digits, numeral, own | signed⟩, plain⟩
    · rw [IsStrict, ← trim_eq plain.spaced, own]
      exact numeral
    · have member : '+' ∈ trim s := signed ▸ List.mem_cons_self
      exact absurd (mem_of_mem_strip member) plain.unsigned

theorem toNat_lt_of_isHexDigit {c : Char} (digit : isHexDigit c = true) : c.toNat < 128 := by
  simp only [isHexDigit, Bool.or_eq_true, Bool.and_eq_true, decide_eq_true_eq, Char.le_def,
    UInt32.le_iff_toNat_le] at digit
  rcases digit with (decimal | ⟨_, last⟩) | ⟨_, last⟩
  · exact toNat_lt_of_isAlphanum (isAlphanum_of_isDigit decimal)
  · exact Nat.lt_of_le_of_lt last (by decide)
  · exact Nat.lt_of_le_of_lt last (by decide)

theorem isAlphanum_of_isHexDigit {c : Char} (digit : isHexDigit c = true) :
    c.isAlphanum = true :=
  of_toNat_lt (p := fun c => isHexDigit c = true → c.isAlphanum = true) (by decide)
    (toNat_lt_of_isHexDigit digit) digit

private theorem isSome_digit?_eq (ascii : ∀ c, isDigit c = true → c.toNat < 128)
    (each : ∀ n < 128, (digit? base (Char.ofNat n)).isSome = isDigit (Char.ofNat n)) (c : Char) :
    (digit? base c).isSome = isDigit c := by
  by_cases small : c.toNat < 128
  · exact of_toNat_lt (p := fun c => (digit? base c).isSome = isDigit c) each small
  · rw [Bool.eq_iff_iff]
    exact ⟨fun read => absurd (toNat_lt_of_digit? read) small,
      fun digit => absurd (ascii c digit) small⟩

theorem isSome_digit?_ten (c : Char) : (digit? 10 c).isSome = c.isDigit :=
  isSome_digit?_eq (fun _ digit => toNat_lt_of_isAlphanum (isAlphanum_of_isDigit digit))
    (by decide) c

theorem isSome_digit?_sixteen (c : Char) : (digit? 16 c).isSome = isHexDigit c :=
  isSome_digit?_eq (fun _ => toNat_lt_of_isHexDigit) (by decide) c

def numberIn (base : Nat) (s : List Char) : Nat := ofDigits base (s.filterMap (digit? base))

section Read
variable (same : ∀ c, (digit? base c).isSome = isDigit c)
include same

private theorem readDigits_eq_some_iff {digits : List Char} :
    (if digits.isEmpty then none
      else ((digits.mapM (digit? base)).map (ofDigits base)).filter (· < wordLimit)) = some n ↔
      IsNumeral isDigit digits ∧ numberIn base digits = n ∧ n < wordLimit := by
  have isNumeral : IsNumeral isDigit digits ↔
      digits ≠ [] ∧ ∀ c ∈ digits, (digit? base c).isSome = true := by
    simp only [same]
    exact ⟨fun numeral => ⟨numeral.nonempty, numeral.digits⟩, fun both => ⟨both.1, both.2⟩⟩
  rw [isNumeral]
  split
  · rename_i empty
    simp [List.isEmpty_iff.mp empty]
  · rename_i nonempty
    simp only [Option.filter_eq_some_iff, Option.map_eq_some_iff, mapM_eq_some_iff_filterMap_eq,
      decide_eq_true_eq]
    constructor
    · rintro ⟨⟨values, ⟨each, rfl⟩, value⟩, small⟩
      exact ⟨⟨by simpa using nonempty, each⟩, value, small⟩
    · rintro ⟨⟨_, each⟩, value, small⟩
      exact ⟨⟨_, ⟨each, rfl⟩, value⟩, small⟩

/-- A number is read in every lenient spelling and in no other. -/
theorem readSize?_trim_eq_some_iff :
    readSize? base (trim s) = some n ↔
      IsLenient isDigit s ∧ numberIn base (trim s) = n ∧ n < wordLimit := by
  have plus : digit? base '+' = none := rfl
  have noDigit : isDigit '+' = false := by rw [← same, plus]; rfl
  simp only [readSize?, IsLenient]
  split
  · rename_i digits signed
    have own : (∃ other, IsNumeral isDigit other ∧
        (trim s = other ∨ trim s = '+' :: other)) ↔ IsNumeral isDigit digits := by
      rw [signed]
      constructor
      · rintro ⟨other, numeral, rfl | same⟩
        · rw [numeral.digits '+' List.mem_cons_self] at noDigit
          contradiction
        · exact (List.cons.inj same).2 ▸ numeral
      · intro numeral
        exact ⟨digits, numeral, .inr rfl⟩
    rw [readDigits_eq_some_iff same, own, signed, numberIn, numberIn,
      List.filterMap_cons_none plus]
  · rename_i unsigned
    have own : (∃ digits, IsNumeral isDigit digits ∧
        (trim s = digits ∨ trim s = '+' :: digits)) ↔ IsNumeral isDigit (trim s) := by
      constructor
      · rintro ⟨digits, numeral, rfl | signed⟩
        · exact numeral
        · exact absurd signed (unsigned digits)
      · intro numeral
        exact ⟨_, numeral, .inl rfl⟩
    rw [readDigits_eq_some_iff same, own]

end Read

end IdentityRelay.Text
