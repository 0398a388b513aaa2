import IdentityRelay.Proofs.Text.Ascii
import IdentityRelay.Proofs.Url.Address
import IdentityRelay.Proofs.Url.Percent
import IdentityRelay.Url.Parse

/-! Hosts that were read are in a normal form: a name in lower case that no one takes for
an address, or an address. A host in normal form is read back from its text. -/
namespace IdentityRelay.Url.Host
variable {host : Host} {s : List Char} {c : Char}

def isNameChar (c : Char) : Bool := isDomainChar c && c.toLower == c

/-- A host as it stands in a URL that was read. -/
def IsNormal : Host → Prop
  | .name text => text.toList ≠ [] ∧ (∀ c ∈ text.toList, isNameChar c = true) ∧
      Ipv4.isDue text.toList = false
  | .ipv4 _ | .ipv6 _ => True

private theorem isDomainChar_of_isAlphanum (alphanumeric : c.isAlphanum = true) :
    isDomainChar c = true := by
  have bounds := Text.bounds_of_isAlphanum alphanumeric
  have allowed : c ∉ '%' :: forbidden := Text.not_mem_of_isAlphanum (by decide) alphanumeric
  rw [List.mem_cons, not_or] at allowed
  simp [isDomainChar, allowed]
  omega

private theorem isNameChar_toLower (domain : isDomainChar c = true) :
    isNameChar c.toLower = true := by
  rcases Text.toLower_eq_self_or_isCapital c with same | ⟨first, last⟩
  · simp [isNameChar, same, domain]
  · refine Text.of_toNat_lt (p := fun c => 0x41 ≤ c.toNat → isNameChar c.toLower = true) ?_
      last first
    decide

private theorem not_mem_forbidden (domain : isDomainChar c = true) :
    0x20 < c.toNat ∧ c ≠ '%' ∧ c ∉ forbidden := by
  simp only [isDomainChar, Bool.and_eq_true, decide_eq_true_eq, bne_iff_ne,
    Bool.not_eq_true', List.contains_eq_mem, decide_eq_false_iff_not] at domain
  exact ⟨domain.1.1.1, domain.1.2, domain.2⟩

private theorem isDomainChar_of_isNameChar (isName : isNameChar c = true) :
    isDomainChar c = true := (Bool.and_eq_true_iff.mp isName).1

private theorem isNameChar_of_domain? {domain : List Char} (spelled : domain? s = some domain)
    (member : c ∈ domain) : isNameChar c = true := by
  obtain ⟨name, _, kept⟩ := Option.bind_eq_some_iff.mp spelled
  simp only [Option.ite_none_right_eq_some, Option.some.injEq] at kept
  obtain ⟨allowed, rfl⟩ := kept
  obtain ⟨letter, inName, rfl⟩ := List.mem_map.mp member
  exact isNameChar_toLower (List.all_eq_true.mp allowed letter inName)

theorem isNormal_of_parse (read : parse s = .ok host) : host.IsNormal := by
  unfold parse at read
  split at read
  · unfold bracketed at read
    split at read
    · obtain ⟨_, _, rfl⟩ := map_eq_ok_iff.mp read
      trivial
    · cases read
  · split at read
    · cases read
    · cases read
    · rename_i domain nonempty spelled
      split at read
      · obtain ⟨_, _, rfl⟩ := map_eq_ok_iff.mp read
        trivial
      · rename_i notDue
        cases read
        refine ⟨?_, ?_, ?_⟩
        · simpa using nonempty
        · simpa using fun c => isNameChar_of_domain? spelled
        · simpa using notDue

private theorem domain?_eq_self (isName : ∀ c ∈ s, isNameChar c = true) : domain? s = some s := by
  have allowed : ∀ c ∈ s, isDomainChar c = true :=
    fun c member => isDomainChar_of_isNameChar (isName c member)
  have noEscape : '%' ∉ s := fun member => (not_mem_forbidden (allowed _ member)).2.1 rfl
  have lower : s.map Char.toLower = s := by
    refine (List.map_congr_left fun c member => ?_).trans (List.map_id s)
    exact beq_iff_eq.mp (Bool.and_eq_true_iff.mp (isName c member)).2
  rw [domain?, Percent.decode_eq_encode noEscape, Utf8.decode?_encode]
  show (if (String.ofList s).toList.all isDomainChar then _ else none) = _
  rw [String.toList_ofList, if_pos (List.all_eq_true.mpr allowed), lower]

private theorem isNameChar_of_mem_ipv4 {address : Ipv4} (member : c ∈ address.render) :
    isNameChar c = true := by
  rcases Ipv4.mem_render member with digit | rfl
  · have alphanumeric := Text.isAlphanum_of_isDigit digit
    have lower : c.toLower = c :=
      Text.of_toNat_lt (p := fun c => c.isDigit = true → c.toLower = c) (by decide)
        (Text.toNat_lt_of_isAlphanum alphanumeric) digit
    simp [isNameChar, lower, isDomainChar_of_isAlphanum alphanumeric]
  · decide

private theorem parse_of_name (nonempty : s ≠ []) (isName : ∀ c ∈ s, isNameChar c = true) :
    parse s = if Ipv4.isDue s then (Ipv4.parse s).map .ipv4 else .ok (.name (String.ofList s)) := by
  unfold parse
  split
  · have allowed := isDomainChar_of_isNameChar (isName '[' List.mem_cons_self)
    exact absurd (by decide) (not_mem_forbidden allowed).2.2
  · rw [domain?_eq_self isName]
    cases s with
    | nil => contradiction
    | cons => rfl

theorem parse_render (normal : host.IsNormal) : parse host.render = .ok host := by
  cases host with
  | name text =>
    obtain ⟨nonempty, isName, notDue⟩ := normal
    rw [render, parse_of_name nonempty isName, notDue, String.ofList_toList]
    rfl
  | ipv4 address =>
    have due := address.isDue_render
    have nonempty : address.render ≠ [] := by
      intro empty
      rw [empty] at due
      exact absurd due (by decide)
    rw [render, parse_of_name nonempty fun c => isNameChar_of_mem_ipv4, due,
      address.parse_render]
    rfl
  | ipv6 address =>
    have closed : (address.render ++ [']']).getLast? = some ']' := List.getLast?_concat
    have read : bracketed (address.render ++ [']']) = .ok (.ipv6 address) := by
      rw [bracketed, closed, List.dropLast_concat, address.parse_render]
      rfl
    exact read

theorem render_ne_nil (normal : host.IsNormal) : host.render ≠ [] := by
  intro empty
  have read := parse_render normal
  rw [empty] at read
  cases read

private theorem mem_render_cases (normal : host.IsNormal) (member : c ∈ host.render) :
    isDomainChar c = true ∨ c ∈ ['[', ':', ']'] := by
  cases host with
  | name text => exact .inl (isDomainChar_of_isNameChar (normal.2.1 c member))
  | ipv4 address => exact .inl (isDomainChar_of_isNameChar (isNameChar_of_mem_ipv4 member))
  | ipv6 address =>
    have either : c = '[' ∨ c ∈ address.render ∨ c = ']' := by simpa [render] using member
    rcases either with rfl | inside | rfl
    · exact .inr (by decide)
    · rcases Ipv6.mem_render inside with alphanumeric | rfl
      · exact .inl (isDomainChar_of_isAlphanum alphanumeric)
      · exact .inr (by decide)
    · exact .inr (by decide)

/-- The text of a host is visible and holds no mark at which an authority ends or is cut. -/
theorem mem_render (normal : host.IsNormal) (member : c ∈ host.render) :
    0x20 < c.toNat ∧ c ∉ ['/', '\\', '?', '#', '@'] := by
  rcases mem_render_cases normal member with domain | bracket
  · obtain ⟨visible, _, free⟩ := not_mem_forbidden domain
    have marks : ∀ mark ∈ ['/', '\\', '?', '#', '@'], mark ∈ forbidden :=
      Text.forall_mem_of_all (by decide)
    exact ⟨visible, fun mark => free (marks c mark)⟩
  · have each : ∀ c ∈ ['[', ':', ']'], 0x20 < c.toNat ∧ c ∉ ['/', '\\', '?', '#', '@'] :=
      Text.forall_mem_of_all (by decide)
    exact each c bracket

private theorem cutHost_append (name : ∀ c ∈ s, c ≠ ':' ∧ c ≠ '[') (rest : List Char) :
    cutHost false (s ++ rest) = (s ++ (cutHost false rest).1, (cutHost false rest).2) := by
  induction s with
  | nil => rfl
  | cons c others ih =>
    have later := ih fun d member => name d (List.mem_cons_of_mem _ member)
    obtain ⟨noColon, noBracket⟩ := name c List.mem_cons_self
    have outside : (c == '[') = false := beq_eq_false_iff_ne.mpr noBracket
    simp [cutHost, noColon, outside, later]

private theorem cutHost_bracket (closed : ']' ∉ s) (rest : List Char) :
    cutHost true (s ++ ']' :: rest) =
      (s ++ ']' :: (cutHost false rest).1, (cutHost false rest).2) := by
  induction s with
  | nil => simp [cutHost]
  | cons c others ih =>
    rw [List.mem_cons, not_or] at closed
    have kept : (c == '[' || (true && c != ']')) = true := by simp [Ne.symm closed.1]
    simp only [List.cons_append, cutHost, kept, ih closed.2]
    simp

/-- A host ends at the colon of a service number, or with the authority. -/
theorem cutHost_render (normal : host.IsNormal) {rest : List Char}
    (ends : ∀ c ∈ rest.head?, c = ':') :
    cutHost false (host.render ++ rest) = (host.render, rest) := by
  have behind : cutHost false rest = ([], rest) := by
    cases rest with
    | nil => rfl
    | cons c others =>
      obtain rfl := ends c rfl
      rfl
  have name {s : List Char} (isName : ∀ c ∈ s, isNameChar c = true) :
      cutHost false (s ++ rest) = (s, rest) := by
    rw [cutHost_append, behind, List.append_nil]
    intro c member
    have free := (not_mem_forbidden (isDomainChar_of_isNameChar (isName c member))).2.2
    constructor
    · rintro rfl
      exact free (by decide)
    · rintro rfl
      exact free (by decide)
  cases host with
  | name text => exact name normal.2.1
  | ipv4 address => exact name fun c => isNameChar_of_mem_ipv4
  | ipv6 address =>
    have closed : ']' ∉ address.render := by
      intro member
      rcases Ipv6.mem_render member with alphanumeric | colon
      · exact absurd alphanumeric (by decide)
      · exact absurd colon (by decide)
    have inner := cutHost_bracket closed rest
    rw [behind] at inner
    simp [render, cutHost, inner]

end IdentityRelay.Url.Host
