import ArtsExplorer.App.EntryViewControllers

/-!
# What the sign-up form accepts

`validateEmail` combines two readings of an address: the part between the first and the second "@"
is compared with the school's domains, and the whole string is matched against a regular expression
that knows nothing of them. Together they accept the addresses of the school and no others
(`validateEmail_iff`). The regular expression of `validatePassword` is the documented policy
(`validatePassword_iff`), and `signUpPressed` creates an account with the validated texts, if and
only if all three are accepted (`signUpPressed_iff`).
-/

namespace ArtsExplorer

open Foundations

namespace SignUpViewController

/-! ## The policies -/

/-- One of A-Z and a-z. -/
def Letter (c : Char) : Prop := ('A' ≤ c ∧ c ≤ 'Z') ∨ ('a' ≤ c ∧ c ≤ 'z')

/-- A character that may stand before the "@". -/
def LocalCharacter (c : Char) : Prop :=
  Letter c ∨ ('0' ≤ c ∧ c ≤ '9') ∨ c ∈ ['.', '_', '%', '+', '-']

/-- The domains of the school. -/
def schoolDomains : List String := ["cis.edu.hk", "alumni.cis.edu.hk", "student.cis.edu.hk"]

/-- An address of the school. -/
def SchoolAddress (s : String) : Prop :=
  ∃ l d, s = l ++ "@" ++ d ∧ l ≠ "" ∧ (∀ c ∈ l.toList, LocalCharacter c) ∧ d ∈ schoolDomains

/-- The characters that a password must have one of, besides a letter and a digit. -/
def specialCharacters : List Char := ['$', '@', '!', '%', '*', '#', '?', '&']

/-- "≥8 characters, incl. 1+ special characters, letters, and numbers", and no others. -/
structure PasswordPolicy (p : String) : Prop where
  length : 8 ≤ p.length
  allowed : ∀ c ∈ p.toList, Letter c ∨ isDecimalDigit c = true ∨ c ∈ specialCharacters
  letter : ∃ c ∈ p.toList, Letter c
  digit : ∃ c ∈ p.toList, isDecimalDigit c = true
  special : ∃ c ∈ p.toList, c ∈ specialCharacters

/-! ## Characters -/

theorem isLatinLetter_iff {c : Char} : isLatinLetter c = true ↔ Letter c := by
  simp only [isLatinLetter, Letter, Bool.or_eq_true, Bool.and_eq_true, decide_eq_true_eq]

theorem isLocalChar_iff {c : Char} : isLocalChar c = true ↔ LocalCharacter c := by
  simp only [isLocalChar, LocalCharacter, Bool.or_eq_true, Bool.and_eq_true, decide_eq_true_eq,
    isLatinLetter_iff, or_assoc]

theorem isSpecial_iff {c : Char} : isSpecial c = true ↔ c ∈ specialCharacters := decide_eq_true_iff

/-- The blocks of digits avoid the line terminators. -/
theorem isNotLineTerminator_of_digit {c : Char} (h : isDecimalDigit c = true) :
    isNotLineTerminator c = true := by
  have hblocks : ∀ z ∈ decimalZeros,
      0xD < z ∧ (z + 10 ≤ 0x85 ∨ 0x85 < z) ∧ (z + 10 ≤ 0x2028 ∨ 0x2029 < z) := by decide
  simp only [isDecimalDigit, List.any_eq_true, Bool.and_eq_true, decide_eq_true_eq] at h
  obtain ⟨z, hz, hle, hlt⟩ := h
  have hzero := hblocks z hz
  simp only [isNotLineTerminator, Bool.not_eq_true', Bool.or_eq_false_iff, Bool.and_eq_false_iff,
    decide_eq_false_iff_not, beq_eq_false_iff_ne]
  omega

theorem isNotLineTerminator_of_letter {c : Char} (h : Letter c) : isNotLineTerminator c = true := by
  have hbounds : 65 ≤ c.toNat ∧ c.toNat ≤ 122 := by
    rcases h with ⟨hlo, hhi⟩ | ⟨hlo, hhi⟩
    · have hlo' : 65 ≤ c.toNat := hlo
      have hhi' : c.toNat ≤ 90 := hhi
      omega
    · have hlo' : 97 ≤ c.toNat := hlo
      have hhi' : c.toNat ≤ 122 := hhi
      omega
  simp only [isNotLineTerminator, Bool.not_eq_true', Bool.or_eq_false_iff, Bool.and_eq_false_iff,
    decide_eq_false_iff_not, beq_eq_false_iff_ne]
  omega

/-- No character of a password ends a line, so `.*` runs over all of it. -/
theorem isNotLineTerminator_of_allowed {c : Char}
    (h : Letter c ∨ isDecimalDigit c = true ∨ c ∈ specialCharacters) :
    isNotLineTerminator c = true := by
  have hspecial : ∀ x ∈ specialCharacters, isNotLineTerminator x = true :=
    List.all_eq_true.1 (by decide)
  rcases h with h | h | h
  · exact isNotLineTerminator_of_letter h
  · exact isNotLineTerminator_of_digit h
  · exact hspecial c h

/-! ## Passwords -/

/-- A lookahead finds its character after a stretch of a line. -/
theorem mem_rest_contains {p : Char → Bool} {input s s' : List Char} :
    s' ∈ (contains p).rest input s ↔ s' = s ∧
      ∃ u c v, s = u ++ c :: v ∧ (∀ x ∈ u, isNotLineTerminator x = true) ∧ p c = true := by
  rw [contains, Regex.mem_rest_ahead]
  refine and_congr_right fun _ => ?_
  constructor
  · rintro ⟨v, h⟩
    obtain ⟨m, hm, hc⟩ := Regex.mem_rest_seq.1 h
    obtain ⟨u, rfl, -, hu⟩ := Regex.mem_rest_rep_none.1 hm
    obtain ⟨c, hp, rfl⟩ := Regex.mem_rest_cls.1 hc
    exact ⟨u, c, v, rfl, hu, hp⟩
  · rintro ⟨u, c, v, rfl, hu, hp⟩
    refine ⟨v, Regex.mem_rest_seq.2 ⟨c :: v, ?_, ?_⟩⟩
    · exact Regex.mem_rest_rep_none.2 ⟨u, rfl, Nat.zero_le _, hu⟩
    · exact Regex.mem_rest_cls.2 ⟨c, hp, rfl⟩

/-- On a text of allowed characters a lookahead finds what is anywhere in it. -/
theorem lookahead_iff {P : Char → Prop} {s : List Char}
    (h : ∀ c ∈ s, isNotLineTerminator c = true) :
    (∃ u c v, s = u ++ c :: v ∧ (∀ x ∈ u, isNotLineTerminator x = true) ∧ P c) ↔
      ∃ c ∈ s, P c := by
  constructor
  · rintro ⟨u, c, v, rfl, -, hp⟩
    exact ⟨c, List.mem_append_right _ List.mem_cons_self, hp⟩
  · rintro ⟨c, hc, hp⟩
    obtain ⟨u, v, rfl⟩ := List.append_of_mem hc
    exact ⟨u, c, v, rfl, fun x hx => h x (List.mem_append_left _ hx), hp⟩

/-- **The password check is the policy.** -/
theorem validatePassword_iff (p : String) : validatePassword p = true ↔ PasswordPolicy p := by
  rw [validatePassword, Regex.isMatch_iff]
  simp only [passRegex, Regex.seqs, Regex.mem_rest_seq, Regex.mem_rest_start, mem_rest_contains,
    Regex.mem_rest_rep_none, Regex.mem_rest_stop, Bool.or_eq_true, isLatinLetter_iff,
    isSpecial_iff, or_assoc]
  constructor
  · rintro ⟨_, ⟨rfl, -⟩, _, ⟨rfl, hletter⟩, _, ⟨rfl, hdigit⟩, _, ⟨rfl, hspecial⟩, _,
      ⟨w, hw, hlen, hall⟩, rfl, -⟩
    rw [List.append_nil] at hw
    rw [← hw] at hlen hall
    have hline := fun c hc => isNotLineTerminator_of_allowed (hall c hc)
    exact ⟨String.length_toList ▸ hlen, hall, (lookahead_iff hline).1 hletter,
      (lookahead_iff hline).1 hdigit, (lookahead_iff hline).1 hspecial⟩
  · intro h
    have hline := fun c hc => isNotLineTerminator_of_allowed (h.allowed c hc)
    have hlen : 8 ≤ p.toList.length := String.length_toList ▸ h.length
    exact ⟨_, ⟨rfl, trivial⟩, _, ⟨rfl, (lookahead_iff hline).2 h.letter⟩, _,
      ⟨rfl, (lookahead_iff hline).2 h.digit⟩, _, ⟨rfl, (lookahead_iff hline).2 h.special⟩, [],
      ⟨p.toList, (List.append_nil _).symm, hlen, h.allowed⟩, rfl, rfl⟩

/-! ## Addresses -/

/-- A class without the "@" does not match it. -/
theorem at_notMem {p : Char → Bool} (hp : p '@' = false) {xs : List Char}
    (h : ∀ c ∈ xs, p c = true) : '@' ∉ xs :=
  fun hat => Bool.false_ne_true (hp.symm.trans (h _ hat))

/-- The regular expression for addresses: something before the only "@", and a domain of at least
two parts behind it. -/
theorem emailRegex_isMatch_iff {s : String} : emailRegex.isMatch s = true ↔
    ∃ l d t, s.toList = l ++ '@' :: (d ++ '.' :: t) ∧ (l ≠ [] ∧ ∀ c ∈ l, isLocalChar c = true) ∧
      (d ≠ [] ∧ ∀ c ∈ d, isDomainChar c = true) ∧ 2 ≤ t.length ∧ t.length ≤ 64 ∧
        ∀ c ∈ t, isLatinLetter c = true := by
  rw [Regex.isMatch_iff]
  simp only [emailRegex, Regex.seqs, Regex.mem_rest_seq, Regex.mem_rest_cls,
    Regex.mem_rest_rep_none, Regex.mem_rest_rep_some (show 2 ≤ 64 by decide), beq_iff_eq,
    Nat.one_le_iff_ne_zero, ne_eq, List.length_eq_zero_iff]
  constructor
  · rintro ⟨_, ⟨l, hs, hl⟩, _, ⟨_, rfl, rfl⟩, _, ⟨d, rfl, hd⟩, _, ⟨_, rfl, rfl⟩, t, rfl, ht⟩
    rw [List.append_nil] at hs
    exact ⟨l, d, t, hs, hl, hd, ht⟩
  · rintro ⟨l, d, t, hs, hl, hd, ht⟩
    exact ⟨_, ⟨l, hs, hl⟩, _, ⟨_, rfl, rfl⟩, _, ⟨d, rfl, hd⟩, _, ⟨_, rfl, rfl⟩, t,
      (List.append_nil t).symm, ht⟩

/-- **The subscript is in range** for every string. -/
theorem validateSchoolEmail_ok (s : String) : ∃ school, validateSchoolEmail s = .ok school := by
  unfold validateSchoolEmail
  split_ifs with hat
  · obtain ⟨l, r, hs⟩ := List.append_of_mem hat
    obtain ⟨x, xs, hl⟩ := List.exists_cons_of_ne_nil (List.splitOn_ne_nil '@' l)
    obtain ⟨y, ys, hr⟩ := List.exists_cons_of_ne_nil (List.splitOn_ne_nil '@' r)
    have hlen : 1 < (emailParts s).length := by
      rw [emailParts, hs, List.splitOn_append_cons_self, hl, hr]
      simp only [List.length_map, List.length_append, List.length_cons]
      omega
    rw [List.getElem?_eq_getElem hlen]
    exact ⟨_, rfl⟩
  · exact ⟨_, rfl⟩

/-- With a single "@", the domain is what stands behind it. -/
theorem validateSchoolEmail_of_single {s : String} {l r : List Char} (hs : s.toList = l ++ '@' :: r)
    (hl : '@' ∉ l) (hr : '@' ∉ r) :
    validateSchoolEmail s = .ok (schoolDomains.contains (String.ofList r)) := by
  have hat : '@' ∈ s.toList := hs ▸ List.mem_append_right _ List.mem_cons_self
  have hparts : emailParts s = [String.ofList l, String.ofList r] := by
    rw [emailParts, hs, List.splitOn_append_cons_self, List.splitOn_eq_singleton hl,
      List.splitOn_eq_singleton hr]
    rfl
  rw [validateSchoolEmail, if_pos hat, hparts]
  rfl

/-- The school's domains pass the regular expression. -/
theorem exists_domain {d : String} (h : d ∈ schoolDomains) :
    ∃ x, d.toList = x ++ '.' :: ['h', 'k'] ∧ x ≠ [] ∧ ∀ c ∈ x, isDomainChar c = true := by
  simp only [schoolDomains, List.mem_cons, List.not_mem_nil, or_false] at h
  rcases h with rfl | rfl | rfl
  · exact ⟨"cis.edu".toList, by decide, by decide, List.all_eq_true.1 (by decide)⟩
  · exact ⟨"alumni.cis.edu".toList, by decide, by decide, List.all_eq_true.1 (by decide)⟩
  · exact ⟨"student.cis.edu".toList, by decide, by decide, List.all_eq_true.1 (by decide)⟩

theorem validateEmail_ok (s : String) : ∃ valid, validateEmail s = .ok valid := by
  obtain ⟨school, hschool⟩ := validateSchoolEmail_ok s
  rw [validateEmail, hschool]
  cases school <;> exact ⟨_, rfl⟩

/-- **The e-mail check accepts the addresses of the school**, and never traps. -/
theorem validateEmail_iff (s : String) : (∃ school, validateSchoolEmail s = .ok school) ∧
    ∃ valid, validateEmail s = .ok valid ∧ (valid = true ↔ SchoolAddress s) := by
  refine ⟨validateSchoolEmail_ok s, ?_⟩
  obtain ⟨school, hschool⟩ := validateSchoolEmail_ok s
  refine ⟨school && emailRegex.isMatch s, ?_, ?_⟩
  · rw [validateEmail, hschool]
    cases school <;> rfl
  rw [Bool.and_eq_true, emailRegex_isMatch_iff]
  constructor
  · rintro ⟨rfl, l, d, t, hs, ⟨hne, hl⟩, ⟨-, hd⟩, -, -, ht⟩
    have hatl : '@' ∉ l := at_notMem (by decide) hl
    have hatr : '@' ∉ d ++ '.' :: t := by
      rw [List.mem_append, List.mem_cons]
      rintro (hat | hat | hat)
      · exact at_notMem (by decide) hd hat
      · cases hat
      · exact at_notMem (by decide) ht hat
    rw [validateSchoolEmail_of_single hs hatl hatr, Except.ok.injEq, List.contains_iff_mem]
      at hschool
    refine ⟨String.ofList l, String.ofList (d ++ '.' :: t), ?_, ?_, ?_, hschool⟩
    · rw [← String.toList_inj, hs]
      simp
    · exact fun h => hne (by simpa using h)
    · intro c hc
      rw [String.toList_ofList] at hc
      exact isLocalChar_iff.1 (hl c hc)
  · rintro ⟨l, d, rfl, hne, hl, hd⟩
    obtain ⟨x, hx, hxne, hxd⟩ := exists_domain hd
    have hs : (l ++ "@" ++ d).toList = l.toList ++ '@' :: d.toList := by simp
    have hl' : ∀ c ∈ l.toList, isLocalChar c = true := fun c hc => isLocalChar_iff.2 (hl c hc)
    have hatr : '@' ∉ d.toList := by
      rw [hx, List.mem_append]
      rintro (hat | hat)
      · exact at_notMem (by decide) hxd hat
      · revert hat
        decide
    refine ⟨?_, l.toList, x, ['h', 'k'], hx ▸ hs, ⟨?_, hl'⟩, ⟨hxne, hxd⟩, by decide,
      by decide, List.all_eq_true.1 (by decide)⟩
    · rw [validateSchoolEmail_of_single hs (at_notMem (by decide) hl') hatr, String.ofList_toList,
        Except.ok.injEq] at hschool
      exact hschool ▸ List.contains_iff_mem.2 hd
    · exact fun h => hne (by simpa using h)

/-! ## The button -/

/-- What the form must hold. -/
structure Acceptable (s : SignUpViewController) : Prop where
  name : trimmed s.nameTextField ≠ ""
  email : validateEmail (trimmed s.emailTextField) = .ok true
  password : PasswordPolicy (trimmed s.passwordTextField)

/-- The fields that are checked for being empty fail their own checks too, but for the name. -/
theorem Acceptable.not_empty {s : SignUpViewController} (h : s.Acceptable) :
    ¬ (trimmed s.nameTextField = "" ∨ trimmed s.emailTextField = "" ∨
      trimmed s.passwordTextField = "") := by
  rintro (hname | hemail | hpassword)
  · exact h.name hname
  · have hvalid := h.email
    rw [hemail] at hvalid
    cases hvalid
  · have hlen := h.password.length
    rw [hpassword] at hlen
    exact absurd hlen (by decide)

/-- `validateFields` finds no error exactly in an acceptable form. -/
theorem validateFields_ok (s : SignUpViewController) :
    ∃ error, s.validateFields = .ok error ∧ (error = none ↔ s.Acceptable) := by
  simp only [validateFields]
  split_ifs with hempty hpass
  · exact ⟨_, rfl, iff_of_false (Option.some_ne_none _) fun h => h.not_empty hempty⟩
  · refine ⟨_, rfl, iff_of_false (Option.some_ne_none _) fun h => ?_⟩
    rw [(validatePassword_iff _).2 h.password] at hpass
    cases hpass
  · obtain ⟨valid, hvalid⟩ := validateEmail_ok (trimmed s.emailTextField)
    have hname : trimmed s.nameTextField ≠ "" := fun h => hempty (.inl h)
    have hpolicy := (validatePassword_iff _).1 (eq_true_of_ne_false hpass)
    rw [hvalid]
    cases valid with
    | true => exact ⟨_, rfl, iff_of_true rfl ⟨hname, hvalid, hpolicy⟩⟩
    | false =>
      refine ⟨_, rfl, iff_of_false (Option.some_ne_none _) fun h => ?_⟩
      cases hvalid.symm.trans h.email

/-- **Signing up.** `signUpPressed` creates an account if and only if there is a name, an address
of the school and a password that meets the policy, and it does so with the texts that it has
checked. -/
theorem signUpPressed_iff (s : SignUpViewController) :
    ∃ s' es, s.signUpPressed = .ok (s', es) ∧
      ((∃ email password k, .request (.createUser email password k) ∈ es) ↔
        trimmed s.nameTextField ≠ "" ∧ validateEmail (trimmed s.emailTextField) = .ok true ∧
          PasswordPolicy (trimmed s.passwordTextField)) ∧
      ∀ email password k, .request (.createUser email password k) ∈ es →
        email = trimmed s.emailTextField ∧ password = trimmed s.passwordTextField := by
  obtain ⟨error, herror, hiff⟩ := s.validateFields_ok
  rw [signUpPressed, herror]
  cases error with
  | some error =>
    have hno : ∀ email password k,
        Effect.request (.createUser email password k) ∉ ([] : List Effect) :=
      fun _ _ _ => List.not_mem_nil
    refine ⟨_, _, rfl, iff_of_false ?_ ?_, fun email password k h => absurd h (hno _ _ _)⟩
    · rintro ⟨email, password, k, h⟩
      exact hno _ _ _ h
    · rintro ⟨hname, hemail, hpassword⟩
      exact Option.some_ne_none _ (hiff.2 ⟨hname, hemail, hpassword⟩)
  | none =>
    obtain ⟨hname, hemail, hpassword⟩ := hiff.1 rfl
    refine ⟨_, _, rfl, iff_of_true ⟨_, _, _, List.mem_singleton_self _⟩
      ⟨hname, hemail, hpassword⟩, fun email password k h => ?_⟩
    cases List.mem_singleton.1 h
    exact ⟨rfl, rfl⟩

end SignUpViewController

end ArtsExplorer
