import WPanel.Lib.Words
import WPanel.Renewals.Models

namespace WPanel.Hosting.Preview

open WPanel.Lib WPanel.Renewals

/-!
# The preview address of a website

`hosting/preview.py`: the host name under which a website is shown before its domain leads to the
hosting, and the account such a host name belongs to.

* `slug`, `host`, `accountForHost` — the name made of the domain of an account, and the way back;
* `label` — what the name is: the words of the domain, joined by hyphens and cut after 50
  characters, or `site` and the number of an account without any;
* `toList_slug` — the name is that;
* `accountForHost_host` — the way back finds the first active account with this name;
* `Faithful` — every address that is handed out leads back to its account, and no two accounts share
  an address or its secret;
* `faithful_iff` — which is so when no two active accounts have the same label;
* `not_faithful` — domains that differ in a hyphen and a dot, or after 50 characters, share one.
-/

/-! ### The accounts -/

/-- A hosting account; its number is one of the database. -/
structure Plan where
  pk : ℕ
  domain : String
  status : HostingStatus
  pk_lt : pk < 2 ^ 63
  deriving DecidableEq, Repr

/-- The accounts there are, in the order in which they are looked through. -/
structure Plans where
  rows : List Plan
  nodup : (rows.map Plan.pk).Nodup

/-- `HostingAccount.objects.filter(status=ACTIVE)`. -/
def Plans.active (plans : Plans) : List Plan := plans.rows.filter (·.status = .active)

/-- The settings of the feature. -/
structure Settings where
  previewDomain : String := ""
  previewProxyKey : String := ""

/-- `s.strip(".")`. -/
def stripDots (s : String) : String :=
  String.ofList ((s.toList.rdropWhile (· = '.')).dropWhile (· = '.'))

def Settings.base (s : Settings) : String := lower (stripDots (strip s.previewDomain))

def Settings.enabled (s : Settings) : Bool := s.base ≠ "" && s.previewProxyKey ≠ ""

/-! ### The name of an account -/

/-- `[a-z0-9]`. -/
def isWordChar (c : Char) : Bool := ('a' ≤ c && c ≤ 'z') || ('0' ≤ c && c ≤ '9')

/-- `domain.lower()`, as far as `[a-z0-9]` can tell: two letters from outside become one of
    these. -/
def lowered (domain : String) : List Char :=
  domain.toList.flatMap fun c =>
    if c = Char.ofNat 0x130 then ['i', Char.ofNat 0x307]
    else if c = Char.ofNat 0x212a then ['k']
    else [c.toLower]

/-- `slug`. -/
def slug (a : Plan) : String :=
  let hyphenated := replaceRuns isWordChar '-' (lowered a.domain) false
  let stripped := (hyphenated.rdropWhile (· = '-')).dropWhile (· = '-')
  let name := clip 50 (String.ofList stripped)
  if name = "" then "site" ++ toString a.pk else name

/-- `host`; the feature is for the main website of an account. -/
def host (s : Settings) (a : Plan) (domain : String) : String :=
  if !s.enabled || domain ≠ "" then "" else slug a ++ ("." ++ s.base)

/-- `token`, given the hexadecimal digest under the secret key. -/
def token (hexdigest : String → String) (previewHost : String) : String :=
  clip 40 (hexdigest ("preview|" ++ previewHost))

/-- `[a-z0-9-]{1,63}`. -/
def isLabel (l : List Char) : Bool :=
  l.all (fun c => isWordChar c || c = '-') && 1 ≤ l.length && l.length ≤ 63

/-- `account_for_host`. -/
def accountForHost (s : Settings) (plans : Plans) (previewHost : String) : Option Plan :=
  let name := String.ofList ((lower previewHost).toList.takeWhile (· ≠ ':'))
  let suffix := "." ++ s.base
  if !s.enabled || !endsWith name suffix then none
  else
    let label := clip (name.toList.length - suffix.toList.length) name
    if isLabel label.toList then plans.active.find? (slug · = label) else none

/-! ### What the name is -/

/-- The words of the domain, joined by hyphens and cut after 50 characters; `site` and the number of
    an account whose domain has none. -/
def label (a : Plan) : List Char :=
  if words isWordChar (lowered a.domain) = [] then ("site" ++ toString a.pk).toList
  else (['-'].intercalate (words isWordChar (lowered a.domain))).take 50

/-- **The name of an account is its label.** -/
theorem toList_slug (a : Plan) : (slug a).toList = label a := by
  unfold slug label
  dsimp only
  rw [replaceRuns_stripped (by decide)]
  by_cases hwords : words isWordChar (lowered a.domain) = []
  · rw [if_pos hwords, hwords]
    rfl
  · obtain ⟨c, cs, hjoined⟩ := List.exists_cons_of_ne_nil
      (fun h : ['-'].intercalate (words isWordChar (lowered a.domain)) = [] =>
        hwords (intercalate_words_eq_nil.mp h))
    rw [if_neg hwords, hjoined, if_neg]
    · simp [clip]
    · intro h
      have hlist := congrArg String.toList h
      simp [clip] at hlist

/-- Two accounts have one name when they have one label. -/
theorem slug_eq_slug {a b : Plan} : slug a = slug b ↔ label a = label b := by
  rw [← toList_slug, ← toList_slug, String.toList_inj]

theorem isWordChar_of_isDigit {c : Char} (h : c.isDigit = true) : isWordChar c = true := by
  simp only [Char.isDigit, Bool.and_eq_true, decide_eq_true_eq] at h
  simp only [isWordChar, Bool.or_eq_true, Bool.and_eq_true, decide_eq_true_eq]
  exact .inr ⟨h.1, h.2⟩

/-- A label has the form of one. -/
theorem isLabel_label (a : Plan) : isLabel (label a) = true := by
  have hdigits : (toString a.pk).toList.length ≤ 19 := by
    rw [Nat.toString_eq_repr, Nat.toList_repr, Nat.length_toDigits_le_iff (by decide) (by decide)]
    exact a.pk_lt.trans (by decide)
  unfold isLabel label
  split
  · rw [String.toList_append]
    simp only [List.all_append, List.length_append, Bool.and_eq_true, decide_eq_true_eq]
    refine ⟨⟨⟨by decide, List.all_eq_true.mpr fun c hc => ?_⟩, ?_⟩, ?_⟩
    · rw [isWordChar_of_isDigit (isDigit_of_mem_toString hc)]
      rfl
    · exact Nat.le_add_right_of_le (by decide)
    · exact (Nat.add_le_add_left hdigits _).trans (by decide)
  · next hwords =>
    have hne : ['-'].intercalate (words isWordChar (lowered a.domain)) ≠ [] :=
      fun h => hwords (intercalate_words_eq_nil.mp h)
    have hpos := List.length_pos_iff.mpr hne
    simp only [Bool.and_eq_true, decide_eq_true_eq, List.length_take]
    refine ⟨⟨List.all_eq_true.mpr fun c hc => ?_, by omega⟩, by omega⟩
    rcases of_mem_intercalate_words (List.mem_of_mem_take hc) with hkeep | rfl
    · rw [hkeep]
      rfl
    · rfl

/-! ### The way back -/

private theorem toLower_of_isLabel {l : List Char} (h : isLabel l = true) {c : Char} (hc : c ∈ l) :
    c.toLower = c ∧ c ≠ ':' := by
  simp only [isLabel, Bool.and_eq_true, List.all_eq_true, Bool.or_eq_true, decide_eq_true_eq] at h
  rcases h.1.1 c hc with hword | rfl
  · simp only [isWordChar, Bool.or_eq_true, Bool.and_eq_true, decide_eq_true_eq] at hword
    constructor
    · unfold Char.toLower
      rw [dif_neg]
      rintro ⟨hA, hZ⟩
      have hlow := UInt32.le_iff_toNat_le.mp hA
      have hhigh := UInt32.le_iff_toNat_le.mp hZ
      have hZ90 : ('Z'.val).toNat = 90 := rfl
      have hA65 : ('A'.val).toNat = 65 := rfl
      rcases hword with ⟨hfrom, _⟩ | ⟨_, hto⟩
      · have hfrom := UInt32.le_iff_toNat_le.mp hfrom
        have ha97 : ('a'.val).toNat = 97 := rfl
        omega
      · have hto := UInt32.le_iff_toNat_le.mp hto
        have h957 : ('9'.val).toNat = 57 := rfl
        omega
    · rintro rfl
      revert hword
      decide
  · decide

/-- The host name of an account is in lower case. -/
theorem lower_host (s : Settings) (a : Plan) :
    lower (slug a ++ ("." ++ s.base)) = slug a ++ ("." ++ s.base) := by
  rw [lower_append, lower_append]
  have hslug : lower (slug a) = slug a := by
    have hmap : (slug a).toList.map Char.toLower = (slug a).toList := by
      rw [toList_slug]
      calc (label a).map Char.toLower = (label a).map id :=
            List.map_congr_left fun c hc => (toLower_of_isLabel (isLabel_label a) hc).1
        _ = label a := List.map_id _
    unfold lower
    rw [hmap, String.ofList_toList]
  have hbase : lower s.base = s.base := lower_lower _
  rw [hslug, hbase]
  rfl

/-- **The way back finds the first active account with this name**, where the base names no port. -/
theorem accountForHost_host {s : Settings} (henabled : s.enabled = true)
    (hbase : ':' ∉ s.base.toList) (plans : Plans) (a : Plan) :
    accountForHost s plans (host s a "") = plans.active.find? (slug · = slug a) := by
  have hhost : host s a "" = slug a ++ ("." ++ s.base) := by
    unfold host
    rw [henabled]
    rfl
  have hname : String.ofList ((lower (host s a "")).toList.takeWhile (· ≠ ':'))
      = slug a ++ ("." ++ s.base) := by
    rw [hhost, lower_host, List.takeWhile_eq_self_iff.mpr, String.ofList_toList]
    intro c hc
    rw [String.toList_append, String.toList_append, List.mem_append, List.mem_append] at hc
    rw [decide_eq_true_eq]
    rcases hc with hc | hc | hc
    · rw [toList_slug] at hc
      exact (toLower_of_isLabel (isLabel_label a) hc).2
    · rintro rfl
      revert hc
      decide
    · rintro rfl
      exact hbase hc
  have hends : endsWith (slug a ++ ("." ++ s.base)) ("." ++ s.base) = true := by
    unfold endsWith
    rw [List.isSuffixOf_iff_suffix, String.toList_append (s := slug a)]
    exact List.suffix_append _ _
  have hlabel : clip ((slug a ++ ("." ++ s.base)).toList.length - ("." ++ s.base).toList.length)
      (slug a ++ ("." ++ s.base)) = slug a := by
    unfold clip
    rw [String.toList_append (s := slug a), List.length_append, Nat.add_sub_cancel, List.take_left,
      String.ofList_toList]
  unfold accountForHost
  rw [hname]
  dsimp only
  rw [henabled, hends, hlabel, toList_slug, isLabel_label]
  rfl

/-- Where the base names a port, no address leads anywhere. -/
theorem accountForHost_of_port {s : Settings} (hbase : ':' ∈ s.base.toList) (plans : Plans)
    (previewHost : String) : accountForHost s plans previewHost = none := by
  have hends : endsWith (String.ofList ((lower previewHost).toList.takeWhile (· ≠ ':')))
      ("." ++ s.base) = false := by
    unfold endsWith
    rw [← Bool.not_eq_true, List.isSuffixOf_iff_suffix, String.toList_ofList]
    intro hsuffix
    have hmem : ':' ∈ (lower previewHost).toList.takeWhile (· ≠ ':') :=
      hsuffix.subset (by rw [String.toList_append]; exact List.mem_append_right _ hbase)
    have hne := List.mem_takeWhile_imp hmem
    revert hne
    decide
  unfold accountForHost
  dsimp only
  rw [hends]
  split
  · rfl
  · next h =>
    rw [Bool.not_false, Bool.or_true] at h
    exact absurd rfl h

/-- Looking for the value of each member finds that member, when no two have the same value. -/
theorem find?_self_iff {α β : Type} [DecidableEq β] (f : α → β) (l : List α) :
    (∀ a ∈ l, l.find? (f · = f a) = some a) ↔ ∀ a ∈ l, ∀ b ∈ l, f a = f b → a = b := by
  constructor
  · intro h a ha b hb hsame
    have hfound := h a ha
    rw [hsame, h b hb] at hfound
    exact (Option.some.inj hfound).symm
  · intro h a ha
    cases hfind : l.find? (f · = f a) with
    | none =>
      have hnot := List.find?_eq_none.mp hfind a ha
      exact absurd (decide_eq_true rfl) hnot
    | some b =>
      have hsame : f b = f a := by simpa using List.find?_some hfind
      rw [h b (List.mem_of_find?_eq_some hfind) a ha hsame]

/-! ### One address for each account -/

/-- Every address that is handed out leads back to its account, and no two active accounts share an
    address or its secret. -/
structure Faithful (hexdigest : String → String) (s : Settings) (plans : Plans) : Prop where
  resolves : ∀ a ∈ plans.active, host s a "" ≠ "" → accountForHost s plans (host s a "") = some a
  apart : ∀ a ∈ plans.active, ∀ b ∈ plans.active, a ≠ b → host s a "" ≠ "" →
    host s a "" ≠ host s b "" ∧ token hexdigest (host s a "") ≠ token hexdigest (host s b "")

theorem host_ne_nil {s : Settings} (henabled : s.enabled = true) (a : Plan) : host s a "" ≠ "" := by
  unfold host
  rw [henabled]
  intro h
  have hlist := congrArg String.toList h
  simp at hlist

/-- Two accounts with one label share an address. -/
theorem not_faithful_of_label {hexdigest : String → String} {s : Settings} {plans : Plans}
    {a b : Plan} (henabled : s.enabled = true) (ha : a ∈ plans.active) (hb : b ∈ plans.active)
    (hne : a ≠ b) (hlabel : label a = label b) : ¬Faithful hexdigest s plans := by
  intro h
  have hhosts : host s a "" = host s b "" := by
    unfold host
    rw [slug_eq_slug.mpr hlabel]
  exact (h.apart a ha b hb hne (host_ne_nil henabled a)).1 hhosts

/-- **Addresses are faithful exactly when no two active accounts have the same label**, and the base
    names no port; where the digest tells the addresses of these accounts apart. -/
theorem faithful_iff (hexdigest : String → String) (s : Settings) (plans : Plans)
    (hdigest : ∀ a ∈ plans.active, ∀ b ∈ plans.active,
      token hexdigest (host s a "") = token hexdigest (host s b "") →
      host s a "" = host s b "") :
    Faithful hexdigest s plans ↔ (s.enabled = true → (plans.active = [] ∨ ':' ∉ s.base.toList)
      ∧ ∀ a ∈ plans.active, ∀ b ∈ plans.active, label a = label b → a = b) := by
  constructor
  · intro h henabled
    have hbase : plans.active = [] ∨ ':' ∉ s.base.toList := by
      cases hactive : plans.active with
      | nil => exact .inl rfl
      | cons a rest =>
        refine .inr fun hport => ?_
        have hfound := h.resolves a (hactive ▸ List.mem_cons_self) (host_ne_nil henabled a)
        rw [accountForHost_of_port hport] at hfound
        cases hfound
    refine ⟨hbase, ?_⟩
    rcases hbase with hnone | hbase
    · rw [hnone]
      intro a ha
      cases ha
    -- a host finds the first account with its slug
    · have hfind : ∀ a ∈ plans.active, plans.active.find? (slug · = slug a) = some a := by
        intro a ha
        rw [← accountForHost_host henabled hbase plans a]
        exact h.resolves a ha (host_ne_nil henabled a)
      intro a ha b hb hlabel
      exact (find?_self_iff slug plans.active).mp hfind a ha b hb (slug_eq_slug.mpr hlabel)
  · intro h
    cases henabled : s.enabled with
    | false =>
      have hnil : ∀ a, host s a "" = "" := by
        intro a
        unfold host
        rw [henabled]
        rfl
      exact ⟨fun a _ hne => absurd (hnil a) hne, fun a _ b _ _ hne => absurd (hnil a) hne⟩
    | true =>
      obtain ⟨hbase, hlabels⟩ := h henabled
      have hslugs : ∀ a ∈ plans.active, ∀ b ∈ plans.active, slug a = slug b → a = b :=
        fun a ha b hb hsame => hlabels a ha b hb (slug_eq_slug.mp hsame)
      constructor
      · intro a ha _
        have hport : ':' ∉ s.base.toList := by
          refine hbase.resolve_left fun hnone => ?_
          rw [hnone] at ha
          cases ha
        rw [accountForHost_host henabled hport]
        exact (find?_self_iff slug plans.active).mpr hslugs a ha
      · intro a ha b hb hne _
        -- the base is the same: the slugs tell the hosts apart
        have hhosts : host s a "" ≠ host s b "" := by
          intro hsame
          unfold host at hsame
          rw [henabled] at hsame
          refine hne (hslugs a ha b hb ?_)
          have hlist := congrArg String.toList hsame
          simp only [Bool.not_true, ne_eq, not_true_eq_false, decide_false, Bool.or_false,
            Bool.false_eq_true, if_false, String.toList_append] at hlist
          exact String.toList_inj.mp (List.append_cancel_right hlist)
        exact ⟨hhosts, fun htoken => hhosts (hdigest a ha b hb htoken)⟩

private def previewOn : Settings where
  previewDomain := "preview.example.net"
  previewProxyKey := "kkkkkkkkkkkkkkkkkkkkkkkkkkkkkkkk"

private theorem one_lt_pk : 1 < 2 ^ 63 := by decide

private theorem two_lt_pk : 2 < 2 ^ 63 := by decide

private theorem nodup_pks : ([2, 1] : List ℕ).Nodup := by decide

/-- Two active accounts, the newer one first. -/
private def twoPlans (first second : String) : Plans where
  rows := [⟨2, second, .active, two_lt_pk⟩, ⟨1, first, .active, one_lt_pk⟩]
  nodup := nodup_pks

/-- `HMAC-SHA256` under the key `secret`, of the addresses of the two accounts below. -/
private def secretDigest (message : String) : String :=
  if message = "preview|acme-com.preview.example.net" then
    "106906f9c55e3b9397749e3b53f2ce13acb80c41abc19d541f6ba56b2b131adb"
  else "d7b212c151bb10d019680428b2736e14d86fa56fb0d353ac036119fc05a5c188"

theorem faithful_acme :
    Faithful secretDigest previewOn (twoPlans "acme.com" "example.org") :=
  (faithful_iff secretDigest previewOn (twoPlans "acme.com" "example.org")
    (by decide +kernel)).mpr (by decide +kernel)

private theorem not_faithful_twoPlans {first second : String}
    (hlabel : label ⟨1, first, .active, one_lt_pk⟩ = label ⟨2, second, .active, two_lt_pk⟩) :
    ¬Faithful secretDigest previewOn (twoPlans first second) := by
  have hactive : (twoPlans first second).active
      = [⟨2, second, .active, two_lt_pk⟩, ⟨1, first, .active, one_lt_pk⟩] := rfl
  refine not_faithful_of_label (by decide +kernel) ?_ ?_
    (fun h => absurd (show 1 = 2 from congrArg Plan.pk h) (by decide)) hlabel
  · rw [hactive]
    exact List.mem_cons_of_mem _ List.mem_cons_self
  · rw [hactive]
    exact List.mem_cons_self

/-- **One address for two accounts**: their domains differ in a hyphen and a dot only, or after 50
    characters.  The address of the older one opens the website of the other. -/
theorem not_faithful :
    ¬ Faithful secretDigest previewOn (twoPlans "my-shop.com" "my.shop.com")
      ∧ ¬ Faithful secretDigest previewOn
        (twoPlans "the-international-association-of-lighthouse-keepers-north.org"
          "the-international-association-of-lighthouse-keepers-south.org") := by
  constructor
  · exact not_faithful_twoPlans (by decide +kernel)
  · exact not_faithful_twoPlans (by decide +kernel)

end WPanel.Hosting.Preview
