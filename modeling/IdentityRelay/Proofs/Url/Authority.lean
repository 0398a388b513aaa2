import IdentityRelay.Proofs.Url.Host

/-! Authorities that were read are in a normal form, in which the escapes, the host and the
service number are as they are written. An authority in normal form is read back from its text. -/
namespace IdentityRelay.Url
variable {mark : Char} {front rest s : List Char}

/-! ### Cuts at a mark -/

theorem cutMark_append (absent : mark ∉ front) (rest : List Char) :
    cutMark mark (front ++ rest) = (front ++ (cutMark mark rest).1, (cutMark mark rest).2) := by
  unfold cutMark
  rw [Text.cut?_append_of_not_mem absent]
  cases Text.cut? [mark] rest <;> rfl

theorem cutMark_cons (mark : Char) (rest : List Char) :
    cutMark mark (mark :: rest) = ([], some rest) := by
  simp [cutMark, Text.cut?_cons]

theorem cutMark_eq_self (absent : mark ∉ s) : cutMark mark s = (s, none) := by
  simpa [cutMark, Text.cut?_nil] using cutMark_append absent []

namespace Authority
variable {service : Nat} {authority : Authority} {atEnd : Bool} {leftover : List Char} {c : Char}

/-- An authority as it stands in a URL that was read behind a scheme with this default
service number. -/
structure IsNormal (service : Nat) (authority : Authority) : Prop where
  username : ∀ c ∈ authority.username.toList, Percent.isPlain Percent.userinfo c = true
  password : ∀ c ∈ authority.password.toList, Percent.isPlain Percent.userinfo c = true
  host : ∃ host, authority.host? = some host ∧ host.IsNormal
  service : ∀ number, authority.service? = some number → number ≤ 65535 ∧ number ≠ service

private theorem readHost_special (service : Nat) (text : List Char) :
    readHost (.special service) text =
      if text.isEmpty then .error .emptyHost else (Host.parse text).map some := rfl

private theorem isPlain_readUserinfo (s : List Char) :
    (∀ c ∈ (readUserinfo s).1.toList, Percent.isPlain Percent.userinfo c = true) ∧
      ∀ c ∈ (readUserinfo s).2.toList, Percent.isPlain Percent.userinfo c = true := by
  have escaped (part : List Char) :
      ∀ c ∈ (String.ofList (Percent.encode Percent.userinfo part)).toList,
        Percent.isPlain Percent.userinfo c = true := by
    rw [String.toList_ofList]
    exact fun c => Percent.isPlain_of_mem_encode Percent.keepsEscapes_userinfo
  exact ⟨escaped _, escaped _⟩

private theorem serviceOfDigits_spec {digits : List Char} {number : Nat}
    (read : serviceOfDigits (.special service) digits = .ok (some number)) :
    number ≤ 65535 ∧ number ≠ service := by
  unfold serviceOfDigits at read
  generalize Text.ofDigits 10 (digits.filterMap (Text.digit? 10)) = value at read
  split at read
  · cases read
  · dsimp only at read
    split at read
    · cases read
    · rename_i small
      injection read with chosen
      split at chosen
      · cases chosen
      · rename_i other
        cases chosen
        refine ⟨Nat.le_of_not_lt small, ?_⟩
        rintro rfl
        exact other (beq_self_eq_true _)

/-- Behind a special scheme the service number is looked at once there is a host. -/
private theorem readAuthority_special (service : Nat) (atEnd : Bool) (s : List Char) :
    readAuthority (.special service) atEnd s =
      (readHost (.special service) (cutHost false (cutUserinfo s).2).1).bind fun host? =>
        (readService (.special service) (cutHost false (cutUserinfo s).2).2).map fun found =>
          ({ username := (readUserinfo ((cutUserinfo s).1.getD [])).1
             password := (readUserinfo ((cutUserinfo s).1.getD [])).2
             host?, service? := found.1 }, found.2) := by
  unfold readAuthority
  cases cutUserinfo s with
  | mk userinfo? rest =>
  dsimp only
  by_cases unnamed : (userinfo? == some [] && rest.isEmpty && !atEnd) = true
  · obtain rfl : rest = [] := by simp_all
    rw [if_pos unnamed]
    rfl
  · rw [if_neg unnamed, readHost_special]
    split
    · rfl
    · cases Host.parse (cutHost false rest).1 with
      | error => rfl
      | ok host => cases readService (.special service) (cutHost false rest).2 <;> rfl

theorem isNormal_of_read
    (read : readAuthority (.special service) atEnd s = .ok (authority, leftover)) :
    authority.IsNormal service := by
  rw [readAuthority_special] at read
  obtain ⟨host?, hostRead, read⟩ := bind_eq_ok_iff.mp read
  obtain ⟨⟨service?, after⟩, serviceRead, same⟩ := map_eq_ok_iff.mp read
  cases same
  rw [readHost_special] at hostRead
  split at hostRead
  · cases hostRead
  · obtain ⟨host, parsed, rfl⟩ := map_eq_ok_iff.mp hostRead
    have userinfo := isPlain_readUserinfo ((cutUserinfo s).1.getD [])
    refine ⟨userinfo.1, userinfo.2, ⟨host, rfl, Host.isNormal_of_parse parsed⟩, ?_⟩
    rintro number rfl
    unfold readService at serviceRead
    obtain ⟨service?, digitsRead, kept⟩ := bind_eq_ok_iff.mp serviceRead
    split at kept
    · cases kept
      exact serviceOfDigits_spec digitsRead
    · cases kept

/-! ### Reading an authority in normal form -/

private theorem not_mem_of_isPlain {part : List Char}
    (plain : ∀ c ∈ part, Percent.isPlain Percent.userinfo c = true)
    (special : Percent.isPlain Percent.userinfo mark = false) : mark ∉ part := by
  intro member
  rw [plain mark member] at special
  cases special

private theorem cutUserinfo_append {userinfo tail : List Char} (absent : '@' ∉ tail) :
    cutUserinfo (userinfo ++ '@' :: tail) = (some userinfo, tail) := by
  have reversed : (userinfo ++ '@' :: tail).reverse = tail.reverse ++ '@' :: userinfo.reverse := by
    simp
  rw [cutUserinfo, reversed, Text.cut?_singleton (by simpa using absent)]
  simp

private theorem cutUserinfo_eq_self (absent : '@' ∉ s) : cutUserinfo s = (none, s) := by
  have none : Text.cut? ['@'] s.reverse = none := by
    rw [Text.cut?_eq_none_iff]
    intro found
    exact absent (by simpa using found.subset List.mem_cons_self)
  rw [cutUserinfo, none]

private theorem readUserinfo_render (normal : authority.IsNormal service) {tail : List Char}
    (absent : '@' ∉ tail) :
    (cutUserinfo (authority.renderUserinfo ++ tail)).2 = tail ∧
      readUserinfo ((cutUserinfo (authority.renderUserinfo ++ tail)).1.getD []) =
        (authority.username, authority.password) := by
  have noColon : ':' ∉ authority.username.toList := not_mem_of_isPlain normal.username (by decide)
  have username : String.ofList (Percent.encode Percent.userinfo authority.username.toList) =
      authority.username := by
    rw [Percent.encode_eq_self normal.username, String.ofList_toList]
  have password : String.ofList (Percent.encode Percent.userinfo authority.password.toList) =
      authority.password := by
    rw [Percent.encode_eq_self normal.password, String.ofList_toList]
  unfold renderUserinfo
  split
  · rename_i anonymous
    rw [Bool.and_eq_true, String.isEmpty_iff, String.isEmpty_iff] at anonymous
    rw [List.nil_append, cutUserinfo_eq_self absent, anonymous.1, anonymous.2]
    exact ⟨rfl, rfl⟩
  · rw [List.append_assoc, List.append_assoc, List.singleton_append, ← List.append_assoc,
      cutUserinfo_append absent]
    refine ⟨rfl, ?_⟩
    rw [Option.getD_some]
    by_cases none : authority.password.isEmpty = true
    · rw [if_pos none, List.append_nil, readUserinfo, cutMark_eq_self noColon]
      simp only [username, String.isEmpty_iff.mp none]
      rfl
    · rw [if_neg none, readUserinfo, cutMark_append noColon, cutMark_cons, List.append_nil]
      simp only [username, password, Option.getD_some]

private theorem filterMap_digit?_toDigits (number : Nat) :
    Text.ofDigits 10 ((Nat.toDigits 10 number).filterMap (Text.digit? 10)) = number := by
  obtain ⟨digits, read, value⟩ :=
    @Text.mapM_digit?_toDigits 10 (by decide) (by decide) number
  rw [(mapM_eq_some_iff_filterMap_eq.mp read).2, value]

private theorem readService_render {service? : Option Nat}
    (bounded : ∀ number, service? = some number → number ≤ 65535 ∧ number ≠ service) :
    readService (.special service)
        ((service?.map fun number => ':' :: Nat.toDigits 10 number).getD []) =
      .ok (service?, []) := by
  cases service? with
  | none => rfl
  | some number =>
    obtain ⟨small, other⟩ := bounded number rfl
    have isDigit : ∀ c ∈ Nat.toDigits 10 number, c.isDigit = true :=
      fun c => Nat.isDigit_of_mem_toDigits (by decide) (by decide)
    have after : (Nat.toDigits 10 number ++ []).dropWhile Char.isDigit = [] :=
      List.dropWhile_append_of_pos isDigit
    have digits : (Nat.toDigits 10 number ++ []).takeWhile Char.isDigit =
        Nat.toDigits 10 number ++ [] := List.takeWhile_append_of_pos isDigit
    rw [List.append_nil] at after digits
    have read : serviceOfDigits (.special service) (Nat.toDigits 10 number) =
        .ok (some number) := by
      have some : (Nat.toDigits 10 number).isEmpty = false := by simp [Nat.toDigits_ne_nil]
      have kept : (SchemeKind.special service == SchemeKind.special number) = false := by
        simpa using Ne.symm other
      simp [serviceOfDigits, some, filterMap_digit?_toDigits, Nat.not_lt.mpr small, kept]
    simp only [readService, Option.map_some, Option.getD_some, List.drop_succ_cons, List.drop_zero,
      digits, after, read]
    rfl

private theorem service_cases (service? : Option Nat) :
    (∀ c ∈ ((service?.map fun number => ':' :: Nat.toDigits 10 number).getD []).head?, c = ':') ∧
      ∀ c ∈ (service?.map fun number => ':' :: Nat.toDigits 10 number).getD [],
        c = ':' ∨ c.isDigit = true := by
  cases service? with
  | none => simp
  | some number =>
    refine ⟨by simp, ?_⟩
    intro c member
    refine (List.mem_cons.mp member).imp id ?_
    exact Nat.isDigit_of_mem_toDigits (by decide) (by decide)

private theorem visible_of_service {service? : Option Nat}
    (member : c ∈ (service?.map fun number => ':' :: Nat.toDigits 10 number).getD []) :
    0x20 < c.toNat ∧ c ∉ ['/', '\\', '?', '#', '@'] := by
  rcases (service_cases service?).2 c member with rfl | digit
  · decide
  · have alphanumeric := Text.isAlphanum_of_isDigit digit
    have bounds := Text.bounds_of_isAlphanum alphanumeric
    exact ⟨by omega, Text.not_mem_of_isAlphanum (by decide) alphanumeric⟩

theorem read_render (normal : authority.IsNormal service) (atEnd : Bool) :
    readAuthority (.special service) atEnd authority.render = .ok (authority, []) := by
  obtain ⟨host, stored, hostNormal⟩ := normal.host
  have absent : '@' ∉ host.render ++
      (authority.service?.map fun number => ':' :: Nat.toDigits 10 number).getD [] := by
    rw [List.mem_append, not_or]
    constructor
    · exact fun member => (Host.mem_render hostNormal member).2 (by decide)
    · exact fun member => (visible_of_service member).2 (by decide)
  obtain ⟨behind, userinfo⟩ := readUserinfo_render normal absent
  have some : host.render.isEmpty = false := by simpa using Host.render_ne_nil hostNormal
  rw [readAuthority_special, render, stored, Option.map_some, Option.getD_some, List.append_assoc,
    behind, userinfo, Host.cutHost_render hostNormal (service_cases _).1, readHost_special, some,
    Host.parse_render hostNormal, readService_render normal.service]
  cases authority
  cases stored
  rfl

private theorem visible_of_isPlain (plain : Percent.isPlain Percent.userinfo c = true) :
    0x20 < c.toNat ∧ c ∉ ['/', '\\', '?', '#'] := by
  obtain ⟨visible, own⟩ := Percent.visible_of_isPlain (by decide) plain
  have escaped : ∀ c ∈ ['/', '\\', '?', '#'], c ∈ Percent.userinfo :=
    Text.forall_mem_of_all (by decide)
  exact ⟨visible, fun member => own (escaped c member)⟩

private theorem visible_of_userinfo (normal : authority.IsNormal service)
    (member : c ∈ authority.renderUserinfo) : 0x20 < c.toNat ∧ c ∉ ['/', '\\', '?', '#'] := by
  unfold renderUserinfo at member
  split at member
  · cases member
  · rcases List.mem_append.mp member with names | atSign
    · rcases List.mem_append.mp names with inUsername | inPassword
      · exact visible_of_isPlain (normal.username c inUsername)
      · split at inPassword
        · cases inPassword
        · rcases List.mem_cons.mp inPassword with rfl | inPassword
          · decide
          · exact visible_of_isPlain (normal.password c inPassword)
    · obtain rfl := List.mem_singleton.mp atSign
      decide

/-- The text of an authority is visible and does not end before its end. -/
theorem mem_render (normal : authority.IsNormal service) (member : c ∈ authority.render) :
    0x20 < c.toNat ∧ c ∉ ['/', '\\', '?', '#'] := by
  have fewer (visible : 0x20 < c.toNat ∧ c ∉ ['/', '\\', '?', '#', '@']) :
      0x20 < c.toNat ∧ c ∉ ['/', '\\', '?', '#'] :=
    ⟨visible.1, fun mark => visible.2 (List.mem_append_left ['@'] mark)⟩
  obtain ⟨host, stored, hostNormal⟩ := normal.host
  rw [render, stored, Option.map_some, Option.getD_some] at member
  rcases List.mem_append.mp member with front | inService
  · rcases List.mem_append.mp front with inUserinfo | inHost
    · exact visible_of_userinfo normal inUserinfo
    · exact fewer (Host.mem_render hostNormal inHost)
  · exact fewer (visible_of_service inService)

theorem render_ne_nil (normal : authority.IsNormal service) : authority.render ≠ [] := by
  obtain ⟨host, stored, hostNormal⟩ := normal.host
  simp [render, stored, Host.render_ne_nil hostNormal]

end Authority

end IdentityRelay.Url
