import IdentityRelay.Proofs.Outcome
import IdentityRelay.Proofs.Text.Ascii
import IdentityRelay.Text.Encoding

/-! Texts read back from their bytes. In both encodings an ASCII character is one
byte of the same number, and no other character brings a byte below 128. -/
namespace IdentityRelay

theorem ofUInt8_toUInt8 {c : Char} (small : c.toNat < 256) : Char.ofUInt8 c.toUInt8 = c :=
  Char.toNat_inj.mp (Text.toNat_toUInt8 small)

theorem toUInt8_ofUInt8 (b : UInt8) : (Char.ofUInt8 b).toUInt8 = b := UInt8.toUInt8_toUInt32 b

namespace Latin1

theorem encode?_of_forall_lt {text : String} (small : ∀ c ∈ text.toList, c.toNat < 256) :
    encode? text = some (text.toList.map Char.toUInt8) := by
  unfold encode?
  revert small
  induction text.toList with
  | nil => intro _; rfl
  | cons c rest ih =>
    intro small
    have first : c.toNat < 256 := small c (by simp)
    have others := ih fun c member => small c (by simp [member])
    simp [first, others]

theorem decode_map_toUInt8 {text : String} (small : ∀ c ∈ text.toList, c.toNat < 256) :
    decode (text.toList.map Char.toUInt8) = text := by
  have same : (text.toList.map Char.toUInt8).map Char.ofUInt8 = text.toList := by
    rw [List.map_map]
    exact (List.map_congr_left fun c member => ofUInt8_toUInt8 (small c member)).trans
      (List.map_id _)
  rw [decode, same, String.ofList_toList]

theorem encode?_eq_some_iff {text : String} {bytes : Bytes} :
    encode? text = some bytes ↔
      (∀ c ∈ text.toList, c.toNat < 256) ∧ bytes = text.toList.map Char.toUInt8 := by
  constructor
  · intro encoded
    have small : ∀ c ∈ text.toList, c.toNat < 256 := by
      intro c member
      have found :=
        List.mem_map_of_mem (f := fun c => if c.toNat < 256 then some c.toUInt8 else none) member
      rw [mapM_eq_some_iff.mp encoded] at found
      obtain ⟨b, _, read⟩ := List.mem_map.mp found
      by_cases small : c.toNat < 256
      · exact small
      · rw [if_neg small] at read
        cases read
    rw [encode?_of_forall_lt small] at encoded
    exact ⟨small, (Option.some.inj encoded).symm⟩
  · rintro ⟨small, rfl⟩
    exact encode?_of_forall_lt small

theorem encode?_decode (bytes : Bytes) : encode? (decode bytes) = some bytes := by
  rw [encode?_eq_some_iff, decode, String.toList_ofList]
  constructor
  · intro c member
    obtain ⟨b, _, rfl⟩ := List.mem_map.mp member
    exact b.toNat_lt
  · rw [List.map_map]
    exact ((List.map_congr_left fun b _ => toUInt8_ofUInt8 b).trans (List.map_id _)).symm

end Latin1

namespace Utf8

theorem encode_eq_flatMap (text : String) :
    encode text = text.toList.flatMap String.utf8EncodeChar := by
  rw [encode, String.toUTF8_eq_toByteArray, ← String.utf8Encode_toList]
  simp [List.utf8Encode]

theorem encode_append (a b : String) : encode (a ++ b) = encode a ++ encode b := by
  simp [encode_eq_flatMap]

theorem decode?_encode (text : String) : decode? (encode text) = some text := by
  simp [decode?, encode, String.fromUTF8?, String.fromUTF8, text.isValidUTF8]

theorem encode_of_decode? {bytes : Bytes} {text : String} (read : decode? bytes = some text) :
    encode text = bytes := by
  unfold decode? String.fromUTF8? at read
  split at read
  · cases read
    rfl
  · cases read

theorem length_le_encode (text : String) : text.toList.length ≤ (encode text).length := by
  rw [encode_eq_flatMap]
  induction text.toList with
  | nil => exact Nat.le_refl _
  | cons c rest ih =>
    have some : 0 < (String.utf8EncodeChar c).length := by
      rw [String.length_utf8EncodeChar]
      exact c.utf8Size_pos
    rw [List.flatMap_cons, List.length_append, List.length_cons]
    omega

private theorem encodeChar_of_ascii {c : Char} (ascii : c.toNat < 128) :
    String.utf8EncodeChar c = [c.toUInt8] := by
  have single : c.val.toNat ≤ 127 := Nat.le_of_lt_succ ascii
  rw [String.utf8EncodeChar, if_pos single]
  rfl

theorem encode_of_ascii {text : String} (ascii : ∀ c ∈ text.toList, c.toNat < 128) :
    encode text = text.toList.map Char.toUInt8 := by
  rw [encode_eq_flatMap]
  revert ascii
  induction text.toList with
  | nil => intro _; rfl
  | cons c rest ih =>
    intro ascii
    have others := ih fun c member => ascii c (by simp [member])
    simp [encodeChar_of_ascii (ascii c (by simp)), others]

private theorem le_of_mem_encodeChar {c : Char} {b : UInt8} (large : 128 ≤ c.toNat)
    (member : b ∈ String.utf8EncodeChar c) : 128 ≤ b.toNat := by
  have beyond : ¬ c.val.toNat ≤ 127 := by
    have : c.toNat = c.val.toNat := rfl
    omega
  simp only [String.utf8EncodeChar, beyond, ↓reduceIte] at member
  split at member
  · simp only [List.mem_cons, List.not_mem_nil, or_false] at member
    rcases member with rfl | rfl <;> simp <;> omega
  · split at member <;> simp only [List.mem_cons, List.not_mem_nil, or_false] at member
    · rcases member with rfl | rfl | rfl <;> simp <;> omega
    · rcases member with rfl | rfl | rfl | rfl <;> simp <;> omega

theorem eq_of_mem_encodeChar {c : Char} {b : UInt8} (member : b ∈ String.utf8EncodeChar c)
    (ascii : b.toNat < 128) : c = Char.ofUInt8 b := by
  by_cases small : c.toNat < 128
  · rw [encodeChar_of_ascii small, List.mem_singleton] at member
    rw [member, ofUInt8_toUInt8 (Nat.lt_trans small (by decide))]
  · have := le_of_mem_encodeChar (Nat.le_of_not_lt small) member
    omega

theorem ofUInt8_mem_of_mem_encode {text : String} {b : UInt8} (member : b ∈ encode text)
    (ascii : b.toNat < 128) : Char.ofUInt8 b ∈ text.toList := by
  rw [encode_eq_flatMap, List.mem_flatMap] at member
  obtain ⟨c, inText, inCode⟩ := member
  exact eq_of_mem_encodeChar inCode ascii ▸ inText

end Utf8

end IdentityRelay
