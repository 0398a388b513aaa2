import IdentityRelay.Proofs.Relay.Target
import IdentityRelay.Proofs.Text.Ascii

/-! Targets that are whole URLs. Which scheme and which authority they name makes no
difference: only what stands behind the authority is asked for, as if it stood alone. -/
namespace IdentityRelay.Relay
variable {text : String} {base : Url} {s : List Char}

/-- A scheme by the grammar of URLs: a letter, then letters, digits and three marks. -/
def IsScheme (s : List Char) : Prop :=
  ∃ first rest, s = first :: rest ∧ first.isAlpha = true ∧
    ∀ c ∈ rest, (c.isAlphanum || ['+', '-', '.'].contains c) = true

/-- A target with a scheme and an authority. What follows them is a path, a query or
nothing, and may hold anything, other URLs included. -/
structure AbsoluteForm where
  scheme : List Char
  authority : List Char
  rest : List Char
  isScheme : IsScheme scheme
  isAuthority : '/' ∉ authority ∧ '?' ∉ authority
  isRest : ∀ c ∈ rest.head?, c = '/' ∨ c = '?'

def AbsoluteForm.render (form : AbsoluteForm) : List Char :=
  form.scheme ++ [':', '/', '/'] ++ form.authority ++ form.rest

theorem IsScheme.not_mem (isScheme : IsScheme s) : ∀ c ∈ s, c ∉ [':', '/', '*'] := by
  obtain ⟨first, rest, rfl, letter, others⟩ := isScheme
  have own (c : Char) : c.isAlphanum = true → c ∉ [':', '/', '*'] :=
    Text.not_mem_of_isAlphanum (by decide)
  intro c member
  rcases List.mem_cons.mp member with rfl | later
  · exact own c (by simp [Char.isAlphanum, letter])
  · exact Text.of_isAlphanum_or_contains (p := (· ∉ [':', '/', '*'])) (own c) (by decide)
      (others c later)

namespace AbsoluteForm

private theorem begins_render (form : AbsoluteForm) :
    ∃ first more, form.render = first :: more ∧ first ∉ [':', '/', '*'] := by
  obtain ⟨first, rest, scheme, _⟩ := form.isScheme
  refine ⟨first, rest ++ [':', '/', '/'] ++ form.authority ++ form.rest, ?_, ?_⟩
  · rw [render, scheme]
    rfl
  · exact form.isScheme.not_mem first (scheme ▸ List.mem_cons_self)

/-- The first separator is the one behind the scheme, in which there is no colon. -/
private theorem cut?_render (form : AbsoluteForm) :
    Text.cut? [':', '/', '/'] form.render = some (form.scheme, form.authority ++ form.rest) := by
  have noColon : ':' ∉ form.scheme := fun member =>
    form.isScheme.not_mem ':' member List.mem_cons_self
  rw [render, List.append_assoc, List.append_assoc, Text.cut?_append_of_not_mem noColon,
    List.cons_append, Text.cut?_cons]
  simp

private theorem dropWhile_authority (form : AbsoluteForm) :
    (form.authority ++ form.rest).dropWhile (fun c => c != '/' && c != '?') = form.rest := by
  have inside : ∀ c ∈ form.authority, (c != '/' && c != '?') = true := by
    intro c member
    rw [Bool.and_eq_true, bne_iff_ne, bne_iff_ne]
    exact ⟨fun same => form.isAuthority.1 (same ▸ member),
      fun same => form.isAuthority.2 (same ▸ member)⟩
  rw [List.dropWhile_append_of_pos inside]
  cases starts : form.rest with
  | nil => rfl
  | cons c more =>
    have ends : c = '/' ∨ c = '?' := form.isRest c (by rw [starts]; rfl)
    refine List.dropWhile_cons_of_neg ?_
    rcases ends with rfl | rfl <;> decide

theorem pathAndQuery?_render (form : AbsoluteForm) :
    pathAndQuery? form.render = some form.rest := by
  obtain ⟨first, more, begins, other⟩ := form.begins_render
  unfold pathAndQuery?
  split
  · rename_i path
    cases begins.symm.trans path
    exact absurd other (by decide)
  · rename_i asterisk
    cases begins.symm.trans asterisk
    exact absurd other (by decide)
  · rw [form.cut?_render, Option.map_some]
    exact congrArg some form.dropWhile_authority

theorem appended?_render (form : AbsoluteForm) :
    appended? form.render =
      some (if form.rest.head? = some '?' then '/' :: form.rest else form.rest) := by
  rw [appended?, form.pathAndQuery?_render, Option.map_some]

end AbsoluteForm

theorem targetUrl_of_appended? (accepted : Provider.parseBaseUrl text = .ok base)
    {target tail : List Char} (appended : appended? target = some tail) :
    targetUrl base (String.ofList target) = .ok (base.below (Url.Tail.ofText tail)) := by
  refine (targetUrl_eq_ok_iff accepted).mpr ⟨tail, ?_, rfl⟩
  rw [String.toList_ofList, appended]

/-- Every target with a scheme and an authority makes an address, and that address is the same
under every other scheme and authority. It is the one that the path behind them makes by
itself, or the query behind them below the root, or an asterisk where nothing is behind them. -/
theorem targetUrl_absoluteForm (accepted : Provider.parseBaseUrl text = .ok base)
    (form : AbsoluteForm) :
    ∃ url, targetUrl base (String.ofList form.render) = .ok url ∧
      (∀ other : AbsoluteForm, other.rest = form.rest →
        targetUrl base (String.ofList other.render) = .ok url) ∧
      (form.rest.head? = some '/' → targetUrl base (String.ofList form.rest) = .ok url) ∧
      (form.rest.head? = some '?' →
        targetUrl base (String.ofList ('/' :: form.rest)) = .ok url) ∧
      (form.rest = [] → targetUrl base "*" = .ok url) := by
  refine ⟨_, targetUrl_of_appended? accepted form.appended?_render, ?_, ?_, ?_, ?_⟩
  · intro other same
    rw [← same]
    exact targetUrl_of_appended? accepted other.appended?_render
  · intro path
    obtain ⟨more, begins⟩ := List.head?_eq_some_iff.mp path
    rw [begins]
    exact targetUrl_of_appended? accepted rfl
  · intro query
    obtain ⟨more, begins⟩ := List.head?_eq_some_iff.mp query
    rw [begins]
    exact targetUrl_of_appended? accepted rfl
  · intro nothing
    have asterisk : appended? ['*'] = some [] := rfl
    rw [nothing]
    exact targetUrl_of_appended? accepted asterisk

/-- An authority with all that could be taken for its end, and another URL in the query. -/
def nestedForm : AbsoluteForm where
  scheme := "HTTP".toList
  authority := "user@evil.example:80#\\..*".toList
  rest := "?next=ftp://x/y".toList
  isScheme := ⟨'H', "TTP".toList, rfl, by decide, Text.forall_mem_of_all (by decide)⟩
  isAuthority := by decide
  isRest := fun _ first => .inr (Option.some.inj first).symm

def emptyForm : AbsoluteForm :=
  { nestedForm with
    scheme := "x-1".toList
    authority := []
    isScheme := ⟨'x', "-1".toList, rfl, by decide, Text.forall_mem_of_all (by decide)⟩
    isAuthority := by decide }

theorem targetUrl_absoluteForm_of_nested :
    ∃ base url, Provider.parseBaseUrl "https://h/api/" = .ok base ∧
      targetUrl base (String.ofList nestedForm.render) = .ok url ∧
      targetUrl base (String.ofList emptyForm.render) = .ok url ∧
      targetUrl base "/?next=ftp://x/y" = .ok url := by
  have succeeds : (Provider.parseBaseUrl "https://h/api/").isOk = true := by decide +kernel
  obtain ⟨base, accepted⟩ := exists_of_isOk succeeds
  obtain ⟨url, read, others, _, query, _⟩ := targetUrl_absoluteForm accepted nestedForm
  exact ⟨base, url, accepted, read, others emptyForm rfl, query rfl⟩

end IdentityRelay.Relay
