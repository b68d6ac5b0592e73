import WPanel.Accounts.Lockout
import WPanel.Accounts.RecoveryCodes
import WPanel.Accounts.SignInCodes
import WPanel.Lib.Numerals

namespace WPanel.Accounts.SecondFactor

open WPanel.Lib

/-!
# The second factor, for whatever is typed

`mfa_verify_code_or_recovery` of `accounts/services.py` with `totp_at`, `verify` and
`normalize_recovery_code` of `accounts/mfa.py`, run by itself.

* `totpAt`, `verify` — the authenticator codes and the comparison with them;
* `registerFailedAttempt`, `clearLoginAttempts` — the count of wrong tries;
* `mfaVerifyCodeOrRecovery` — the whole check, with the state it leaves;
* `Judged` — the answer is yes for a right code, or no with one try counted;
* `Comparable` — six digits that are compared with the codes are ASCII digits;
* `judged_iff` — a code is judged exactly when it is comparable;
* `not_judged_arabic` — six Arabic digits raise `TypeError`, and no try is counted.
-/

/-! ### Authenticator codes -/

def DIGITS : ℕ := 6

/-- Seconds per code. -/
def PERIOD : ℤ := 30

def MFA_LOCK_THRESHOLD : ℕ := 5

/-- A person who turned two-factor sign-in on: `mfa_secret_encrypted` as it decrypts, or nothing. -/
structure Account where
  pk : ℕ
  mfaSecret : String
  deriving DecidableEq, Repr

section

-- the digest of HMAC-SHA1 with the decoded secret as its key, for a counter
variable (hmacSha1 : String → ℤ → List UInt8)

/-- `totp_at`. -/
def totpAt (secret : String) (moment : ℤ) : String :=
  let digest := hmacSha1 secret (moment / PERIOD)
  let offset := (digest.getLastD 0).toNat % 16
  let byte := fun i => (digest.getD (offset + i) 0).toNat
  let part := (byte 0 * 2 ^ 24 + byte 1 * 2 ^ 16 + byte 2 * 2 ^ 8 + byte 3) % 2 ^ 31
  zeroPad DIGITS (part % 10 ^ DIGITS)

/-- The codes around a moment: of its step, of the one before and of the one after. -/
def codesAround (secret : String) (now : ℤ) : List String :=
  [-1, 0, 1].map fun step => totpAt hmacSha1 secret (now + step * PERIOD)

def isAscii (text : String) : Bool := text.toList.all (·.toNat < 128)

/-- What `compare_digest` raises. -/
def typeError : Err :=
  .unexpected "TypeError: comparing strings with non-ASCII characters is not supported"

/-- `hmac.compare_digest`, of two texts. -/
def compareDigest (a b : String) : Except Err Bool :=
  if isAscii a && isAscii b then pure (a = b) else throw typeError

/-- `mfa_lib.verify`. -/
def verify (secret code : String) (now : ℤ) : Except Err Bool :=
  if !isDigitText (typedCode code) || (typedCode code).toList.length ≠ DIGITS || secret = "" then
    pure false
  else (codesAround hmacSha1 secret now).anyM (compareDigest (typedCode code))

/-! ### The count of wrong tries -/

/-- `register_failed_attempt`, run by itself. -/
def registerFailedAttempt (scope subject : String) (threshold : ℕ) (cache : Cache) : Cache :=
  let keys := lockKeys scope subject
  let count := (cache keys.1).getD 0 + 1
  let cache := cache.write keys.1 (some count)
  if threshold ≤ count then (cache.write keys.2 (some 1)).write keys.1 none else cache

/-- `clear_login_attempts`. -/
def clearLoginAttempts (scope subject : String) (cache : Cache) : Cache :=
  (cache.write (lockKeys scope subject).1 none).write (lockKeys scope subject).2 none

/-! ### The whole check -/

/-- The cache, and the recovery codes of everybody. -/
structure Store where
  cache : Cache
  codes : Table RecoveryCode := {}

-- `check_password`, and `str.lower`
variable (checkPassword : String → String → Bool) (lower : String → String)

/-- `normalize_recovery_code`. -/
def normalizeRecoveryCode (code : String) : String :=
  String.ofList ((lower code).toList.filter fun c => !isSpace c && c != '-')

/-- The unused recovery code of the person that was typed, if there is one. -/
def Store.matching (s : Store) (user : ℕ) (code : String) : Option (ℕ × RecoveryCode) :=
  let normalized := normalizeRecoveryCode lower code
  if normalized = "" then none
  else (s.codes.entries.filter fun entry => entry.2.user = user && entry.2.usedAt = none).find?
    fun entry => checkPassword normalized entry.2.codeHash

/-- `mfa_verify_code_or_recovery`. -/
def mfaVerifyCodeOrRecovery (user : Account) (code : String) (now : ℕ) (s : Store) :
    Except Err Bool × Store :=
  let subject := toString user.pk
  if isLockedOut "mfa" subject s.cache then
    (.error (.service "Too many wrong codes. Wait a few minutes and try again." "account_locked"
      429), s)
  else
    match (if user.mfaSecret = "" then pure false else verify hmacSha1 user.mfaSecret code now) with
    | .error e => (.error e, s)
    | .ok true => (.ok true, { s with cache := clearLoginAttempts "mfa" subject s.cache })
    | .ok false =>
      match s.matching checkPassword lower user.pk code with
      | some (pk, row) =>
        (.ok true, {
          cache := clearLoginAttempts "mfa" subject s.cache
          codes := s.codes.put pk { row with usedAt := some now } })
      | none =>
        (.ok false, { s with
          cache := registerFailedAttempt "mfa" subject MFA_LOCK_THRESHOLD s.cache })

/-! ### What is promised -/

/-- One more wrong try is counted: the counter is one higher, or the subject is locked and the
    counter starts anew. -/
def CountedOnce (scope subject : String) (threshold : ℕ) (cache cache' : Cache) : Prop :=
  (if attempts scope subject cache + 1 < threshold then
    attempts scope subject cache' = attempts scope subject cache + 1
      ∧ isLockedOut scope subject cache' = isLockedOut scope subject cache
  else attempts scope subject cache' = 0 ∧ isLockedOut scope subject cache' = true)
    ∧ ∀ key, key ≠ (lockKeys scope subject).1 → key ≠ (lockKeys scope subject).2 →
      cache' key = cache key

/-- What was typed is one of the three authenticator codes around now. -/
def IsTotp (user : Account) (code : String) (now : ℕ) : Prop :=
  user.mfaSecret ≠ "" ∧ typedCode code ∈ codesAround hmacSha1 user.mfaSecret now

/-- What was typed is this unused recovery code of the person. -/
def IsRecoveryCode (user : Account) (code : String) (s : Store) (pk : ℕ) : Prop :=
  ∃ row, s.codes.get? pk = some row ∧ row.user = user.pk ∧ row.usedAt = none
    ∧ normalizeRecoveryCode lower code ≠ ""
    ∧ checkPassword (normalizeRecoveryCode lower code) row.codeHash = true

/-- **The answer is a judgement**: yes for an authenticator code around now, or for a recovery code
    that was unused and is spent with it; or no, with one try counted and nothing else changed. -/
def Judged (user : Account) (code : String) (now : ℕ) (s : Store)
    (answer : Except Err Bool × Store) : Prop :=
  match answer.1 with
  | .ok true =>
    (IsTotp hmacSha1 user code now ∧ answer.2.codes = s.codes)
      ∨ ∃ pk row, IsRecoveryCode checkPassword lower user code s pk ∧ s.codes.get? pk = some row
        ∧ answer.2.codes = s.codes.put pk { row with usedAt := some now }
  | .ok false =>
    ¬IsTotp hmacSha1 user code now
      ∧ (∀ pk, ¬IsRecoveryCode checkPassword lower user code s pk)
      ∧ answer.2.codes = s.codes
      ∧ CountedOnce "mfa" (toString user.pk) MFA_LOCK_THRESHOLD s.cache answer.2.cache
  | .error _ => False

end

/-- Six digits that are compared with the authenticator codes are ASCII digits. -/
def Comparable (user : Account) (code : String) : Prop :=
  user.mfaSecret ≠ "" → isDigitText (typedCode code) = true →
    (typedCode code).toList.length = DIGITS → isAscii (typedCode code) = true

instance (user : Account) (code : String) : Decidable (Comparable user code) :=
  inferInstanceAs (Decidable (_ → _ → _ → _))

/-! ### The comparison -/

section

variable {hmacSha1 : String → ℤ → List UInt8} {checkPassword : String → String → Bool}
  {lower : String → String} {user : Account} {secret code : String} {now : ℕ} {s : Store}

/-- An authenticator code is six digits. -/
theorem length_totpAt (moment : ℤ) : (totpAt hmacSha1 secret moment).toList.length = DIGITS := by
  have hshort : ∀ n, (toString (n % 10 ^ DIGITS)).toList.length ≤ DIGITS := by
    intro n
    rw [Nat.toString_eq_repr, Nat.toList_repr]
    exact (Nat.length_toDigits_le_iff (by decide) (by decide)).mpr
      (Nat.mod_lt n (by decide : 0 < 10 ^ DIGITS))
  simp only [totpAt, zeroPad, String.toList_ofList, List.length_append, List.length_replicate]
  exact Nat.sub_add_cancel (hshort _)

theorem isDigit_of_mem_totpAt {moment : ℤ} {c : Char}
    (h : c ∈ (totpAt hmacSha1 secret moment).toList) : c.isDigit = true :=
  isDigit_of_mem_zeroPad h

theorem isDigitText_totpAt (moment : ℤ) : isDigitText (totpAt hmacSha1 secret moment) = true := by
  have hlength : (totpAt hmacSha1 secret moment).toList.length = DIGITS := length_totpAt moment
  have hnonempty : (totpAt hmacSha1 secret moment).toList.isEmpty = false := by
    rw [List.isEmpty_eq_false_iff]
    intro hnil
    rw [hnil] at hlength
    cases hlength
  have hdigits : (totpAt hmacSha1 secret moment).toList.all isDigitChar = true := by
    refine List.all_eq_true.mpr fun c hc => ?_
    rw [isDigitChar, isDecimal_of_isDigit (isDigit_of_mem_totpAt hc), Bool.true_or]
  rw [isDigitText, hnonempty, hdigits]
  rfl

theorem isAscii_totpAt (moment : ℤ) : isAscii (totpAt hmacSha1 secret moment) = true := by
  refine List.all_eq_true.mpr fun c hc => ?_
  have hdigit := isDigit_of_mem_totpAt hc
  rw [Char.isDigit, Bool.and_eq_true, decide_eq_true_eq, decide_eq_true_eq] at hdigit
  have hhigh : c.toNat ≤ 57 := hdigit.2
  exact decide_eq_true (by omega)

/-- The codes around a moment are texts of six ASCII digits. -/
theorem of_mem_codesAround {text : String} (h : text ∈ codesAround hmacSha1 secret now) :
    isDigitText text = true ∧ text.toList.length = DIGITS ∧ isAscii text = true := by
  obtain ⟨step, -, rfl⟩ := List.mem_map.mp h
  exact ⟨isDigitText_totpAt _, length_totpAt _, isAscii_totpAt _⟩

/-- Texts of ASCII characters are compared with each of the codes. -/
private theorem anyM_compareDigest {a : String} {l : List String} (ha : isAscii a = true)
    (hl : ∀ b ∈ l, isAscii b = true) : l.anyM (compareDigest a) = .ok (decide (a ∈ l)) := by
  induction l with
  | nil => simp [List.anyM, pure, Except.pure]
  | cons b l ih =>
    have hb : compareDigest a b = .ok (decide (a = b)) := by
      rw [compareDigest, ha, hl b List.mem_cons_self]
      rfl
    rw [List.anyM, hb, ok_bind]
    by_cases heq : a = b
    · simp [heq, pure, Except.pure]
    · simp [heq, ih fun c hc => hl c (List.mem_cons_of_mem b hc)]

/-- **A comparable code is compared**: the answer is whether it is a code around now. -/
theorem verify_of_comparable (h : Comparable user code) (hsecret : user.mfaSecret ≠ "") :
    verify hmacSha1 user.mfaSecret code now
      = .ok (decide (typedCode code ∈ codesAround hmacSha1 user.mfaSecret now)) := by
  unfold verify
  split
  · next hrefused =>
    -- what is no text of six digits is none of the codes
    have hno : typedCode code ∉ codesAround hmacSha1 user.mfaSecret now := by
      intro hmem
      obtain ⟨hdigits, hlength, -⟩ := of_mem_codesAround hmem
      simp [hdigits, hlength, hsecret] at hrefused
    rw [decide_eq_false hno]
    rfl
  · next hcompared =>
    simp only [Bool.or_eq_true, Bool.not_eq_true', decide_eq_true_eq, not_or,
      Bool.not_eq_false, ne_eq, not_not] at hcompared
    exact anyM_compareDigest (h hsecret hcompared.1.1 hcompared.1.2)
      fun b hb => (of_mem_codesAround hb).2.2

/-- Six digits of another script raise `TypeError` at the first comparison. -/
theorem verify_of_not_comparable (h : ¬Comparable user code) :
    user.mfaSecret ≠ "" ∧ verify hmacSha1 user.mfaSecret code now = .error typeError := by
  simp only [Comparable, not_forall] at h
  obtain ⟨hsecret, hdigits, hlength, hascii⟩ := h
  refine ⟨hsecret, ?_⟩
  have hcompare : ∀ b, compareDigest (typedCode code) b = .error typeError := by
    intro b
    rw [compareDigest, Bool.eq_false_iff.mpr hascii]
    rfl
  rw [verify, hdigits, hlength, decide_eq_false hsecret]
  show List.anyM _ (_ :: _) = _
  rw [List.anyM, hcompare]
  rfl

/-! ### The count and the recovery codes -/

/-- **A failed attempt is counted once**, whatever was counted before. -/
theorem countedOnce_registerFailedAttempt (scope subject : String) (threshold : ℕ)
    (cache : Cache) :
    CountedOnce scope subject threshold cache
      (registerFailedAttempt scope subject threshold cache) := by
  have hne := lockKeys_ne scope subject
  unfold CountedOnce registerFailedAttempt
  dsimp only
  by_cases hlocks : threshold ≤ (cache (lockKeys scope subject).1).getD 0 + 1
  · rw [if_pos hlocks, if_neg (by rw [attempts]; omega)]
    refine ⟨⟨?_, ?_⟩, fun key hfirst hsecond => ?_⟩
    · rw [attempts, Cache.write_self]
      rfl
    · rw [isLockedOut, Cache.write_of_ne hne.symm, Cache.write_self]
      rfl
    · rw [Cache.write_of_ne hfirst, Cache.write_of_ne hsecond, Cache.write_of_ne hfirst]
  · rw [if_neg hlocks, if_pos (by rw [attempts]; omega)]
    refine ⟨⟨?_, ?_⟩, fun key hfirst _ => Cache.write_of_ne hfirst⟩
    · rw [attempts, Cache.write_self]
      rfl
    · rw [isLockedOut, isLockedOut, Cache.write_of_ne hne.symm]

/-- A code that is found is an unused recovery code of the person. -/
theorem isRecoveryCode_of_matching {pk : ℕ} {row : RecoveryCode}
    (h : s.matching checkPassword lower user.pk code = some (pk, row)) :
    IsRecoveryCode checkPassword lower user code s pk ∧ s.codes.get? pk = some row := by
  unfold Store.matching at h
  dsimp only at h
  split at h
  · cases h
  · next hnonempty =>
    have hmem := List.mem_of_find?_eq_some h
    have hright := List.find?_some h
    rw [List.mem_filter, Bool.and_eq_true, decide_eq_true_eq, decide_eq_true_eq] at hmem
    have hget := Table.mem_entries.mp hmem.1
    exact ⟨⟨row, hget, hmem.2.1, hmem.2.2, hnonempty, hright⟩, hget⟩

/-- Where none is found there is none. -/
theorem not_isRecoveryCode_of_matching
    (h : s.matching checkPassword lower user.pk code = none) (pk : ℕ) :
    ¬IsRecoveryCode checkPassword lower user code s pk := by
  rintro ⟨row, hget, huser, hunused, hnonempty, hright⟩
  unfold Store.matching at h
  dsimp only at h
  rw [if_neg hnonempty, List.find?_eq_none] at h
  refine h (pk, row) (List.mem_filter.mpr ⟨Table.mem_entries.mpr hget, ?_⟩) hright
  rw [Bool.and_eq_true, decide_eq_true_eq, decide_eq_true_eq]
  exact ⟨huser, hunused⟩

/-- What follows once what was typed is no authenticator code. -/
theorem judged_of_not_totp
    (hopen : isLockedOut "mfa" (toString user.pk) s.cache = false)
    (htotp : (if user.mfaSecret = "" then pure false
      else verify hmacSha1 user.mfaSecret code now) = .ok false)
    (hno : ¬IsTotp hmacSha1 user code now) :
    Judged hmacSha1 checkPassword lower user code now s
      (mfaVerifyCodeOrRecovery hmacSha1 checkPassword lower user code now s) := by
  unfold mfaVerifyCodeOrRecovery
  dsimp only
  rw [hopen, htotp]
  cases hmatch : s.matching checkPassword lower user.pk code with
  | some entry =>
    obtain ⟨pk, row⟩ := entry
    obtain ⟨hcode, hget⟩ := isRecoveryCode_of_matching hmatch
    exact .inr ⟨pk, row, hcode, hget, rfl⟩
  | none =>
    exact ⟨hno, not_isRecoveryCode_of_matching hmatch, rfl,
      countedOnce_registerFailedAttempt _ _ _ _⟩

/-- **What is typed is judged exactly when it is comparable**: for an account that is not locked,
    the answer is yes for a right code and no with one try counted, unless six digits of another
    script are typed. -/
theorem judged_iff (hmacSha1 : String → ℤ → List UInt8) (checkPassword : String → String → Bool)
    (lower : String → String) (user : Account) (code : String) (now : ℕ) (s : Store)
    (hopen : isLockedOut "mfa" (toString user.pk) s.cache = false) :
    Judged hmacSha1 checkPassword lower user code now s
        (mfaVerifyCodeOrRecovery hmacSha1 checkPassword lower user code now s)
      ↔ Comparable user code := by
  constructor
  · intro h
    by_contra hnot
    obtain ⟨hsecret, herror⟩ : _ ∧ verify hmacSha1 user.mfaSecret code now = _ :=
      verify_of_not_comparable hnot
    have hrun : mfaVerifyCodeOrRecovery hmacSha1 checkPassword lower user code now s
        = (.error typeError, s) := by
      unfold mfaVerifyCodeOrRecovery
      dsimp only
      rw [hopen, if_neg hsecret, herror]
      rfl
    rw [hrun] at h
    exact h
  · intro hcomparable
    by_cases hsecret : user.mfaSecret = ""
    · exact judged_of_not_totp hopen (if_pos hsecret) fun htotp => htotp.1 hsecret
    · have hverify : verify hmacSha1 user.mfaSecret code now = _ :=
        verify_of_comparable hcomparable hsecret
      by_cases hmem : typedCode code ∈ codesAround hmacSha1 user.mfaSecret now
      · have hrun : mfaVerifyCodeOrRecovery hmacSha1 checkPassword lower user code now s
            = (.ok true, { s with
                cache := clearLoginAttempts "mfa" (toString user.pk) s.cache }) := by
          unfold mfaVerifyCodeOrRecovery
          dsimp only
          rw [hopen, if_neg hsecret, hverify, decide_eq_true hmem]
          rfl
        rw [hrun]
        exact .inl ⟨⟨hsecret, hmem⟩, rfl⟩
      · refine judged_of_not_totp hopen ?_ fun htotp => hmem htotp.2
        rw [if_neg hsecret, hverify, decide_eq_false hmem]

end

/-- Six ASCII digits that are no code are a wrong try. -/
theorem judged_iff_wrong :
    Judged (fun _ _ => []) (fun _ _ => false) Lib.lower ⟨7, "JBSWY3DP"⟩ "123 456" 1000
      ⟨fun _ => none, {}⟩
        (mfaVerifyCodeOrRecovery (fun _ _ => []) (fun _ _ => false) Lib.lower ⟨7, "JBSWY3DP"⟩
          "123 456" 1000 ⟨fun _ => none, {}⟩)
      ↔ Comparable ⟨7, "JBSWY3DP"⟩ "123 456" :=
  judged_iff _ _ _ _ _ _ _ rfl

/-- **Six Arabic digits raise `TypeError`**: the answer is neither yes nor no, and the try is not
    counted. -/
theorem not_judged_arabic :
    isLockedOut "mfa" (toString 7) (fun _ => none) = false
      ∧ ¬Judged (fun _ _ => []) (fun _ _ => false) Lib.lower ⟨7, "JBSWY3DP"⟩ "١٢٣٤٥٦" 1000
        ⟨fun _ => none, {}⟩
        (mfaVerifyCodeOrRecovery (fun _ _ => []) (fun _ _ => false) Lib.lower ⟨7, "JBSWY3DP"⟩
          "١٢٣٤٥٦" 1000 ⟨fun _ => none, {}⟩) := by
  have hnot : ¬Comparable ⟨7, "JBSWY3DP"⟩ "١٢٣٤٥٦" := by decide +kernel
  have herror : verify (fun _ _ => []) "JBSWY3DP" "١٢٣٤٥٦" (1000 : ℕ) = .error typeError :=
    (verify_of_not_comparable hnot).2
  have hrun : mfaVerifyCodeOrRecovery (fun _ _ => []) (fun _ _ => false) Lib.lower
      ⟨7, "JBSWY3DP"⟩ "١٢٣٤٥٦" 1000 ⟨fun _ => none, {}⟩
        = (.error typeError, ⟨fun _ => none, {}⟩) := by
    unfold mfaVerifyCodeOrRecovery
    dsimp only
    rw [if_neg (by decide), if_neg (by decide), herror]
  refine ⟨rfl, fun h => ?_⟩
  rw [hrun] at h
  exact h

end WPanel.Accounts.SecondFactor
