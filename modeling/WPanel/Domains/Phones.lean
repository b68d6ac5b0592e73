import WPanel.Lib.Numerals
import WPanel.Lib.PrefixCode

namespace WPanel.Domains

open WPanel.Lib

/-!
# The phone number of a domain's owner

`domains/adapters/onlinenic.py`: a phone number as a client typed it, in the form the registry
wants.

* `phoneForRegistry` — the code;
* `internationalNumber` — the number of the subscriber, as it was meant;
* `Registered` — what is sent is that number, its calling code apart from the rest, and sending
  it once more changes nothing;
* `WellTyped` — there are digits beyond the code and nothing else, and a number without `+`
  begins neither with `00` nor with the code of the country;
* `registered_iff` — the promise is kept exactly for what is typed so.
-/

/-- `RegistrarError(message)`. -/
structure RegistrarError where
  message : String
  deriving DecidableEq, Repr

def CALLING_CODES : List String :=
  ["971", "966", "880", "974", "973", "968", "965", "962", "961", "994", "998", "92", "91", "90",
    "86", "81", "82", "65", "61", "60", "63", "62", "66", "84", "49", "44", "39", "34", "33", "31",
    "27", "20", "7", "1"]

def NATIONAL_PREFIX : List (String × String) :=
  [("PK", "92"), ("IN", "91"), ("AE", "971"), ("SA", "966"), ("GB", "44"), ("US", "1"),
    ("CA", "1"), ("AU", "61"), ("DE", "49"), ("BD", "880"), ("TR", "90")]

/-! ### The code -/

/-- `[\d+]`. -/
def isKept (c : Char) : Bool := isDecimal c || c == '+'

/-- `re.sub(r"[^\d+]", "", phone)`. -/
def keptDigits (phone : String) : List Char := phone.toList.filter isKept

/-- `f"+{code}.{rest}"`. -/
def registryForm (code : String) (rest : List Char) : String :=
  "+" ++ code ++ "." ++ String.ofList rest

section

variable (upper : String → String)

/-- `NATIONAL_PREFIX.get((country or "").upper())`. -/
def nationalPrefix (country : String) : Option String := NATIONAL_PREFIX.lookup (upper country)

/-- `phone_for_registry`. -/
def phoneForRegistry (phone country : String) : Except RegistrarError String :=
  match keptDigits phone with
  | [] => throw ⟨"The client has no phone number."⟩
  | '+' :: number =>
    match CALLING_CODES.find? fun code => code.toList.isPrefixOf number with
    | some code => pure (registryForm code (number.drop code.toList.length))
    | none => throw ⟨"The phone number's country code is not recognised. Write it like "
        ++ "+92 300 1234567."⟩
  | digits =>
    match nationalPrefix upper country with
    | some code => pure (registryForm code (digits.dropWhile (· == '0')))
    | none => throw ⟨"Write the phone number with its country code, like +92 300 1234567."⟩

/-! ### What it is for -/

/-- The international number of a subscriber, from what was typed and the country: as it was
    typed where it begins with `+` or `00`, or with the country's code, and the country's code and
    the number without its trunk `0` everywhere else. -/
def internationalNumber (phone country : String) : Option (List Char) :=
  match keptDigits phone with
  | '+' :: number => some number
  | '0' :: '0' :: number => some number
  | digits => (nationalPrefix upper country).map fun code =>
    if code.toList <+: digits then digits
    else code.toList ++ if digits.head? = some '0' then digits.tail else digits

/-- `value` is the subscriber's number in the registry's form, and is left as it is. -/
structure Registered (phone country value : String) : Prop where
  number : ∃ code ∈ CALLING_CODES, ∃ rest : List Char, value = registryForm code rest ∧
    rest ≠ [] ∧ (∀ c ∈ rest, c.isDigit = true) ∧
    internationalNumber upper phone country = some (code.toList ++ rest)
  again : ∀ other, phoneForRegistry upper value other = .ok value

/-- There is a number beyond the code, of the digits 0 to 9, and without `+` it begins neither
    with `00` nor with the country's own code. -/
def WellTyped (phone country : String) : Prop :=
  match keptDigits phone with
  | '+' :: number => (∀ c ∈ number, c.isDigit = true) ∧ String.ofList number ∉ CALLING_CODES
  | digits => (∀ c ∈ digits, c.isDigit = true) ∧ digits ≠ ['0'] ∧ ¬['0', '0'] <+: digits ∧
      ∀ code ∈ nationalPrefix upper country, ¬code.toList <+: digits

end

section

/-! ### The table -/

variable {upper : String → String} {phone country value : String} {number : List Char}

private theorem forall_mem_codes_ne_nil : ∀ code ∈ CALLING_CODES, code.toList ≠ [] := by
  decide +kernel

private theorem forall_mem_codes_eq :
    ∀ a ∈ CALLING_CODES, ∀ b ∈ CALLING_CODES, a.toList <+: b.toList → a = b := by
  decide +kernel

/-- A calling code is written in digits, and none is the beginning of another. -/
theorem prefixCode_callingCodes : PrefixCode (· ∈ CALLING_CODES) String.toList where
  ne_nil := forall_mem_codes_ne_nil
  eq_of_prefix a b ha hb := forall_mem_codes_eq a ha b hb

theorem isDigit_of_mem_code {code : String} (h : code ∈ CALLING_CODES) :
    ∀ c ∈ code.toList, c.isDigit = true := by
  have hall : CALLING_CODES.all (fun code => code.toList.all Char.isDigit) = true := by
    decide +kernel
  exact List.all_eq_true.mp (List.all_eq_true.mp hall code h)

theorem mem_callingCodes_of_national {code : String}
    (h : nationalPrefix upper country = some code) : code ∈ CALLING_CODES := by
  have hall : NATIONAL_PREFIX.all (fun e => decide (e.2 ∈ CALLING_CODES)) = true := by
    decide +kernel
  obtain ⟨front, back, heq, -⟩ := List.lookup_eq_some_iff.mp h
  have hmem : (upper country, code) ∈ NATIONAL_PREFIX :=
    heq ▸ List.mem_append_right _ List.mem_cons_self
  exact of_decide_eq_true (List.all_eq_true.mp hall _ hmem)

/-- **The code that begins a number is found.** -/
theorem find_code {code : String} (hcode : code ∈ CALLING_CODES) (rest : List Char) :
    CALLING_CODES.find? (fun c => c.toList.isPrefixOf (code.toList ++ rest)) = some code := by
  have hbegins : code.toList.isPrefixOf (code.toList ++ rest) = true :=
    List.isPrefixOf_iff_prefix.mpr (List.prefix_append _ _)
  have hsome : (CALLING_CODES.find? fun c => c.toList.isPrefixOf (code.toList ++ rest)).isSome :=
    List.find?_isSome.mpr ⟨code, hcode, hbegins⟩
  obtain ⟨found, hfound⟩ := Option.isSome_iff_exists.mp hsome
  have hfirst := List.find?_some hfound
  have hprefix := List.isPrefixOf_iff_prefix.mp hfirst
  have hmem := List.mem_of_find?_eq_some hfound
  rw [hfound]
  -- both begin the number, so one of the two is the beginning of the other
  rcases List.prefix_or_prefix_of_prefix hprefix (List.prefix_append _ rest) with h | h
  · rw [prefixCode_callingCodes.eq_of_prefix _ _ hmem hcode h]
  · rw [prefixCode_callingCodes.eq_of_prefix _ _ hcode hmem h]

/-! ### The form -/

theorem toList_registryForm (code : String) (rest : List Char) :
    (registryForm code rest).toList = '+' :: (code.toList ++ '.' :: rest) := by
  simp [registryForm]

/-- The form is read in one way. -/
theorem registryForm_inj {code code' : String} {rest rest' : List Char}
    (hcode : code ∈ CALLING_CODES) (hcode' : code' ∈ CALLING_CODES)
    (h : registryForm code rest = registryForm code' rest') : code = code' ∧ rest = rest' := by
  have hno : ∀ code ∈ CALLING_CODES, ∀ c ∈ code.toList, ¬c = '.' := by
    rintro code hcode c hc rfl
    exact absurd (isDigit_of_mem_code hcode _ hc) (by decide)
  have hlist := congrArg String.toList h
  rw [toList_registryForm, toList_registryForm, List.cons_inj_right] at hlist
  have hbegins : code.toList ++ '.' :: rest <+: code'.toList ++ '.' :: rest' :=
    hlist ▸ List.prefix_rfl
  obtain ⟨heq, -, -⟩ := eq_of_terminated (hno code hcode) (hno code' hcode') rfl rfl hbegins
  rw [heq, List.append_cancel_left_eq, List.cons_inj_right] at hlist
  exact ⟨String.toList_inj.mp heq, hlist⟩

theorem mem_keptDigits {c : Char} (h : c ∈ keptDigits phone) :
    isKept c = true :=
  (List.mem_filter.mp h).2

/-- Of the form, the code and the rest of the number are kept. -/
theorem keptDigits_registryForm {code : String} {rest : List Char} (hcode : code ∈ CALLING_CODES)
    (hrest : ∀ c ∈ rest, isKept c = true) :
    keptDigits (registryForm code rest) = '+' :: (code.toList ++ rest) := by
  have hkept : ∀ c ∈ code.toList, isKept c = true := by
    intro c hc
    rw [isKept, isDecimal_of_isDigit (isDigit_of_mem_code hcode c hc), Bool.true_or]
  have hdot : ¬isKept '.' = true := by decide
  rw [keptDigits, toList_registryForm, List.filter_cons_of_pos (by decide), List.filter_append,
    List.filter_eq_self.mpr hkept, List.filter_cons_of_neg hdot, List.filter_eq_self.mpr hrest]

/-- **What is in the form is left as it is.** -/
theorem phoneForRegistry_registryForm {code : String} {rest : List Char}
    (hcode : code ∈ CALLING_CODES) (hrest : ∀ c ∈ rest, isKept c = true)
    (other : String) :
    phoneForRegistry upper (registryForm code rest) other = .ok (registryForm code rest) := by
  unfold phoneForRegistry
  rw [keptDigits_registryForm hcode hrest]
  simp only [find_code hcode rest, List.drop_left]
  rfl

/-! ### The code -/

/-- **What the code makes of a number.** -/
theorem phoneForRegistry_eq_ok (h : phoneForRegistry upper phone country = .ok value) :
    (∃ code ∈ CALLING_CODES, ∃ rest, keptDigits phone = '+' :: (code.toList ++ rest)
      ∧ value = registryForm code rest)
    ∨ (∃ code, nationalPrefix upper country = some code ∧ keptDigits phone ≠ []
      ∧ (keptDigits phone).head? ≠ some '+'
      ∧ value = registryForm code ((keptDigits phone).dropWhile (· == '0'))) := by
  unfold phoneForRegistry at h
  split at h
  · cases h
  · next number heq =>
    split at h
    · next code hfind =>
      have hbegins := List.find?_some hfind
      obtain ⟨rest, hrest⟩ := List.isPrefixOf_iff_prefix.mp hbegins
      refine .inl ⟨code, List.mem_of_find?_eq_some hfind, rest, ?_, ?_⟩
      · rw [heq, hrest]
      · rw [← hrest, List.drop_left] at h
        exact (Except.ok.inj h).symm
    · cases h
  · next digits hne hplus =>
    split at h
    · next code hcode =>
      refine .inr ⟨code, hcode, hne, ?_, (Except.ok.inj h).symm⟩
      intro hhead
      obtain ⟨number, hnumber⟩ := List.head?_eq_some_iff.mp hhead
      exact hplus number hnumber
    · cases h

/-! ### Zeros at the beginning -/

/-- No code begins with a zero. -/
theorem dropWhile_code {code : String} (hcode : code ∈ CALLING_CODES) (rest : List Char) :
    (code.toList ++ rest).dropWhile (· == '0') = code.toList ++ rest := by
  have hall : CALLING_CODES.all (fun code => decide (code.toList.head? ≠ some '0')) = true := by
    decide +kernel
  have hhead := of_decide_eq_true (List.all_eq_true.mp hall code hcode)
  obtain ⟨c, tail, hcons⟩ := List.exists_cons_of_ne_nil (forall_mem_codes_ne_nil code hcode)
  rw [hcons] at hhead ⊢
  have hne : ¬(c == '0') = true := fun h => hhead (congrArg some (beq_iff_eq.mp h))
  exact List.dropWhile_cons_of_neg hne

/-- Of digits that do not begin with two zeros, at most the trunk zero is left out. -/
theorem dropWhile_zeros {digits : List Char} (h : ¬['0', '0'] <+: digits) :
    digits.dropWhile (· == '0') = if digits.head? = some '0' then digits.tail else digits := by
  cases digits with
  | nil => rfl
  | cons c rest =>
    by_cases hzero : c = '0'
    · subst hzero
      rw [List.dropWhile_cons_of_pos rfl, if_pos List.head?_cons, List.tail_cons]
      cases rest with
      | nil => rfl
      | cons d rest =>
        refine List.dropWhile_cons_of_neg fun hd => h ?_
        rw [beq_iff_eq.mp hd]
        exact ⟨rest, rfl⟩
    · have hne : ¬(c == '0') = true := fun hc => hzero (beq_iff_eq.mp hc)
      rw [List.dropWhile_cons_of_neg (p := (· == '0')) hne,
        List.head?_cons, if_neg fun hc => hzero (Option.some.inj hc)]

/-- A number is no longer than one that a code stands before. -/
theorem ne_code_append {code : String} (hcode : code ∈ CALLING_CODES) (number : List Char) :
    number ≠ code.toList ++ number := by
  intro h
  have hlength := congrArg List.length h
  rw [List.length_append] at hlength
  have hpos := List.length_pos_of_ne_nil (forall_mem_codes_ne_nil code hcode)
  omega

/-! ### The promise -/

theorem wellTyped_of_plus (h : keptDigits phone = '+' :: number) :
    WellTyped upper phone country
      ↔ (∀ c ∈ number, c.isDigit = true) ∧ String.ofList number ∉ CALLING_CODES := by
  unfold WellTyped
  rw [h]
  rfl

theorem wellTyped_of_national (h : (keptDigits phone).head? ≠ some '+') :
    WellTyped upper phone country
      ↔ (∀ c ∈ keptDigits phone, c.isDigit = true) ∧ keptDigits phone ≠ ['0']
        ∧ ¬['0', '0'] <+: keptDigits phone
        ∧ ∀ code ∈ nationalPrefix upper country, ¬code.toList <+: keptDigits phone := by
  unfold WellTyped
  split
  · next number heq =>
    rw [heq] at h
    exact absurd rfl h
  · rfl

theorem internationalNumber_of_plus (h : keptDigits phone = '+' :: number) :
    internationalNumber upper phone country = some number := by
  unfold internationalNumber
  rw [h]
  rfl

theorem internationalNumber_of_zeros (h : keptDigits phone = '0' :: '0' :: number) :
    internationalNumber upper phone country = some number := by
  unfold internationalNumber
  rw [h]
  rfl

theorem internationalNumber_of_national {code : String} (h : (keptDigits phone).head? ≠ some '+')
    (hzeros : ¬['0', '0'] <+: keptDigits phone) (hcode : nationalPrefix upper country = some code) :
    internationalNumber upper phone country
      = some (if code.toList <+: keptDigits phone then keptDigits phone
        else code.toList ++ (keptDigits phone).dropWhile (· == '0')) := by
  rw [dropWhile_zeros hzeros]
  unfold internationalNumber
  split
  · next number heq =>
    rw [heq] at h
    exact absurd rfl h
  · next number heq =>
    rw [heq] at hzeros
    exact absurd ⟨number, rfl⟩ hzeros
  · rw [hcode]
    rfl

/-- A number with `+`. -/
theorem registered_of_plus {code : String} {rest : List Char} (hcode : code ∈ CALLING_CODES)
    (hkept : keptDigits phone = '+' :: (code.toList ++ rest)) :
    Registered upper phone country (registryForm code rest) ↔ WellTyped upper phone country := by
  rw [wellTyped_of_plus hkept]
  constructor
  · rintro ⟨⟨code', hcode', rest', heq, hne, hdigits, -⟩, -⟩
    obtain ⟨rfl, rfl⟩ := registryForm_inj hcode hcode' heq
    refine ⟨fun c hc => ?_, fun hmem => hne ?_⟩
    · rcases List.mem_append.mp hc with hc | hc
      · exact isDigit_of_mem_code hcode c hc
      · exact hdigits c hc
    · -- no other code begins with this one
      have hbegins : code.toList <+: (String.ofList (code.toList ++ rest)).toList := by
        rw [String.toList_ofList]
        exact List.prefix_append _ _
      have hsame := congrArg String.toList
        (prefixCode_callingCodes.eq_of_prefix _ _ hcode hmem hbegins)
      rw [String.toList_ofList] at hsame
      exact List.self_eq_append_right.mp hsame
  · rintro ⟨hdigits, hmore⟩
    refine ⟨⟨code, hcode, rest, rfl, ?_, fun c hc => hdigits c (List.mem_append_right _ hc),
      internationalNumber_of_plus hkept⟩, fun other => ?_⟩
    · rintro rfl
      rw [List.append_nil, String.ofList_toList] at hmore
      exact hmore hcode
    · refine phoneForRegistry_registryForm hcode (fun c hc => ?_) other
      exact mem_keptDigits (hkept ▸ List.mem_cons_of_mem _ (List.mem_append_right _ hc))

/-- A number without `+`. -/
theorem registered_of_national {code : String} (hcode : nationalPrefix upper country = some code)
    (hne : keptDigits phone ≠ []) (hplus : (keptDigits phone).head? ≠ some '+') :
    Registered upper phone country
        (registryForm code ((keptDigits phone).dropWhile (· == '0')))
      ↔ WellTyped upper phone country := by
  have hmem := mem_callingCodes_of_national hcode
  rw [wellTyped_of_national hplus, hcode]
  constructor
  · rintro ⟨⟨code', hcode', rest', heq, hrest, hdigits, hnumber⟩, -⟩
    obtain ⟨rfl, rfl⟩ := registryForm_inj hmem hcode' heq
    have hzeros : ¬['0', '0'] <+: keptDigits phone := by
      rintro ⟨number, hkept⟩
      have hkept : keptDigits phone = '0' :: '0' :: number := hkept.symm
      rw [internationalNumber_of_zeros hkept, hkept, List.dropWhile_cons_of_pos rfl,
        List.dropWhile_cons_of_pos rfl] at hnumber
      have hlong := Option.some.inj hnumber
      have hsame : number.dropWhile (· == '0') = number := by
        conv_lhs => rw [hlong, dropWhile_code hmem, ← hlong]
      rw [hsame] at hlong
      exact ne_code_append hmem number hlong
    refine ⟨fun c hc => ?_, ?_, hzeros, ?_⟩
    · rw [← List.takeWhile_append_dropWhile (p := (· == '0')) (l := keptDigits phone)] at hc
      rcases List.mem_append.mp hc with hc | hc
      · have hc := List.mem_takeWhile_imp hc
        rw [beq_iff_eq.mp hc]
        rfl
      · exact hdigits c hc
    · intro hzero
      rw [hzero] at hrest
      exact hrest rfl
    · intro own hown hbegins
      obtain rfl := Option.some.inj hown
      rw [internationalNumber_of_national hplus hzeros hcode, if_pos hbegins] at hnumber
      obtain ⟨tail, htail⟩ := hbegins
      have hlong := Option.some.inj hnumber
      rw [← htail, dropWhile_code hmem] at hlong
      exact ne_code_append hmem _ hlong
  · rintro ⟨hdigits, hzero, hzeros, hown⟩
    have hrest : (keptDigits phone).dropWhile (· == '0') ⊆ keptDigits phone :=
      (List.dropWhile_sublist _).subset
    refine ⟨⟨code, hmem, _, rfl, ?_, fun c hc => hdigits c (hrest hc), ?_⟩, fun other => ?_⟩
    · rw [dropWhile_zeros hzeros]
      split
      · next hhead =>
        obtain ⟨tail, htail⟩ := List.head?_eq_some_iff.mp hhead
        rw [htail, List.tail_cons]
        rintro rfl
        exact hzero htail
      · exact hne
    · rw [internationalNumber_of_national hplus hzeros hcode, if_neg (hown code rfl)]
    · exact phoneForRegistry_registryForm hmem (fun c hc => mem_keptDigits (hrest hc)) other

/-- **A number that is sent is the subscriber's, in the registry's form, exactly where it was
    typed in digits 0 to 9, with more than the code, and, without `+`, neither begins with `00`
    nor with the country's own code.** -/
theorem registered_iff (h : phoneForRegistry upper phone country = .ok value) :
    Registered upper phone country value ↔ WellTyped upper phone country := by
  obtain ⟨code, hcode, rest, hkept, rfl⟩ | ⟨code, hcode, hne, hplus, rfl⟩ :=
    phoneForRegistry_eq_ok h
  · exact registered_of_plus hcode hkept
  · exact registered_of_national hcode hne hplus

theorem registered_iff_national :
    phoneForRegistry Lib.upper "0300 1234567" "pk" = .ok "+92.3001234567"
      ∧ (Registered Lib.upper "0300 1234567" "pk" "+92.3001234567"
        ↔ WellTyped Lib.upper "0300 1234567" "pk") :=
  ⟨by decide +kernel, registered_iff (by decide +kernel)⟩

/-- Typed with `00`, a number gets the country's code a second time. -/
theorem not_registered_zeros :
    phoneForRegistry Lib.upper "0092 300 1234567" "PK" = .ok "+92.923001234567"
      ∧ ¬Registered Lib.upper "0092 300 1234567" "PK" "+92.923001234567" := by
  refine ⟨by decide +kernel, ?_⟩
  rintro ⟨⟨code, hcode, rest, hvalue, -, -, hnumber⟩, -⟩
  have hform : "+92.923001234567" = registryForm "92" "923001234567".toList := by decide +kernel
  obtain ⟨rfl, rfl⟩ := registryForm_inj (by decide +kernel) hcode (hform ▸ hvalue)
  exact absurd hnumber (by decide +kernel)

end

end WPanel.Domains
