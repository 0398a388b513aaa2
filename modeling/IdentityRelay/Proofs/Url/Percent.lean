import IdentityRelay.Proofs.Text.Encoding
import IdentityRelay.Url.Percent

/-! Escaped texts. What was escaped once holds only characters that stand for
themselves, so it is not changed when it is escaped again. -/
namespace IdentityRelay.Url.Percent
variable {escaped s : List Char} {c : Char}

def marks : List Char := "%0123456789ABCDEF".toList

def KeepsEscapes (escaped : List Char) : Prop := ∀ c ∈ marks, isPlain escaped c = true

theorem keepsEscapes_path : KeepsEscapes path := Text.forall_mem_of_all (by decide)

theorem keepsEscapes_userinfo : KeepsEscapes userinfo := Text.forall_mem_of_all (by decide)

/-- Where the blank is escaped, a character that stands for itself is visible. -/
theorem visible_of_isPlain (blank : ' ' ∈ escaped) (plain : isPlain escaped c = true) :
    0x20 < c.toNat ∧ c ∉ escaped := by
  simp only [isPlain, Bool.and_eq_true, decide_eq_true_eq, Bool.not_eq_true',
    List.contains_eq_mem, decide_eq_false_iff_not] at plain
  obtain ⟨⟨printable, _⟩, own⟩ := plain
  refine ⟨Nat.lt_of_le_of_ne printable ?_, own⟩
  intro isBlank
  obtain rfl : ' ' = c := Char.toNat_inj.mp isBlank
  exact own blank

theorem isPlain_of_isAlphanum (others : escaped.all (fun c => !c.isAlphanum) = true)
    (alphanumeric : c.isAlphanum = true) : isPlain escaped c = true := by
  have bounds := Text.bounds_of_isAlphanum alphanumeric
  have own := Text.not_mem_of_isAlphanum others alphanumeric
  simp [isPlain, own]
  omega

private theorem escapeByte_subset_marks (byte : UInt8) : escapeByte byte ⊆ marks := by
  have digit : ∀ n < 16, n.digitChar.toUpper ∈ marks := by decide
  have size := byte.toNat_lt
  intro c member
  simp only [escapeByte, List.mem_cons, List.not_mem_nil, or_false] at member
  rcases member with rfl | rfl | rfl
  · decide
  · exact digit _ (by omega)
  · exact digit _ (by omega)

/-- A character of an escaped text is one of those that stand for themselves, or it
belongs to an escape. -/
theorem mem_of_mem_encode (member : c ∈ encode escaped s) :
    (c ∈ s ∧ isPlain escaped c = true) ∨ c ∈ marks := by
  obtain ⟨d, inText, inCode⟩ := List.mem_flatMap.mp member
  split at inCode
  · rename_i plain
    rw [List.mem_singleton.mp inCode]
    exact .inl ⟨inText, plain⟩
  · obtain ⟨byte, _, inEscape⟩ := List.mem_flatMap.mp inCode
    exact .inr (escapeByte_subset_marks byte inEscape)

theorem isPlain_of_mem_encode (keeps : KeepsEscapes escaped) (member : c ∈ encode escaped s) :
    isPlain escaped c = true := by
  rcases mem_of_mem_encode member with ⟨_, plain⟩ | mark
  · exact plain
  · exact keeps c mark

theorem encode_cons (escaped : List Char) (c : Char) (s : List Char) :
    encode escaped (c :: s) =
      (if isPlain escaped c then [c] else (String.utf8EncodeChar c).flatMap escapeByte) ++
        encode escaped s := rfl

theorem encode_append (escaped s t : List Char) :
    encode escaped (s ++ t) = encode escaped s ++ encode escaped t := List.flatMap_append

theorem encode_eq_self (plain : ∀ c ∈ s, isPlain escaped c = true) : encode escaped s = s := by
  induction s with
  | nil => rfl
  | cons c rest ih =>
    rw [encode_cons, plain c List.mem_cons_self, ih fun d member => plain d (by simp [member])]
    rfl

/-- A character that is escaped leaves the escape of one of its bytes. -/
theorem escapeByte_infix_encode (member : c ∈ s) (special : isPlain escaped c = false) :
    ∃ byte ∈ String.utf8EncodeChar c, escapeByte byte <:+: encode escaped s := by
  obtain ⟨front, back, rfl⟩ := List.append_of_mem member
  obtain ⟨byte, rest, code⟩ : ∃ byte rest, String.utf8EncodeChar c = byte :: rest :=
    List.exists_cons_of_length_pos (String.length_utf8EncodeChar c ▸ c.utf8Size_pos)
  refine ⟨byte, code ▸ List.mem_cons_self, encode escaped front,
    rest.flatMap escapeByte ++ encode escaped back, ?_⟩
  rw [encode_append, encode_cons, special, code]
  simp

theorem decode_eq_encode (absent : '%' ∉ s) : decode s = Utf8.encode (String.ofList s) := by
  rw [Utf8.encode_eq_flatMap, String.toList_ofList]
  induction s with
  | nil => rfl
  | cons c rest ih =>
    rw [List.mem_cons, not_or] at absent
    have others := ih absent.2
    unfold decode
    split
    · exact absurd rfl absent.1
    · rw [List.flatMap_cons, others]

end IdentityRelay.Url.Percent
