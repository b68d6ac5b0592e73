import WPanel.Hosting.Schedules
import WPanel.Lib.Addresses

namespace WPanel.Hosting.DnsRules

open WPanel.Lib WPanel.Hosting.Schedules

/-!
# What a DNS record and a domain name may be

`hosting/adapters/dns_rules.py`, shared by the demo provider and the cPanel adapter.

* `cleanDomain`, `normalizeRecord` — the checks, as the code makes them;
* `Kept` — a record is refused with a reason, or comes out clean and stays as it is when it is
  normalized again;
* `Unread` — the check of an SRV value comes upon a number that `int` does not read;
* `CleanName`, `CleanValue` — what else is asked of a record that is accepted;
* `normalized_iff` — the promise is kept exactly where these are.
-/

def DNS_MIN_TTL : ℤ := 300

def DNS_MAX_TTL : ℤ := 86400

/-- `str.lower` and `str.upper`: they leave letters of ASCII that are small, or capital, and
    everything of ASCII that is no letter, and they make no line breaks. -/
structure Casing where
  lower : String → String
  upper : String → String
  lower_eq_self : ∀ s, s.toList.all (fun c => decide (c.toNat < 128) && !c.isUpper) = true →
    lower s = s
  upper_eq_self : ∀ s, s.toList.all (fun c => decide (c.toNat < 128) && !c.isLower) = true →
    upper s = s
  newline_of_lower : ∀ s, '\n' ∈ (lower s).toList → '\n' ∈ s.toList

/-! ### The checks -/

/-- `DNS_RECORD_TYPES`. -/
inductive Kind
  | A | AAAA | CNAME | MX | TXT | SRV | CAA
  deriving DecidableEq, Repr

def Kind.text : Kind → String
  | .A => "A"
  | .AAAA => "AAAA"
  | .CNAME => "CNAME"
  | .MX => "MX"
  | .TXT => "TXT"
  | .SRV => "SRV"
  | .CAA => "CAA"

def DNS_RECORD_TYPES : List Kind := [.A, .AAAA, .CNAME, .MX, .TXT, .SRV, .CAA]

/-- What is given where a number is asked for. -/
inductive Number
  | missing
  | text (text : String)
  | int (n : ℤ)
  deriving DecidableEq, Repr

/-- `int(…)`, or the `TypeError` or `ValueError`. -/
def Number.read : Number → Option ℤ
  | .missing => none
  | .text typed => parseInt typed
  | .int n => some n

/-- A record as it is typed; what is missing is empty. -/
structure Record where
  type : String
  name : String
  value : String
  ttl : Number
  priority : Number := .missing
  deriving DecidableEq, Repr

/-- A record that is checked and tidied. -/
structure Normal where
  kind : Kind
  name : String
  value : String
  ttl : ℤ
  priority : Option ℤ
  deriving DecidableEq, Repr

/-- `DOMAIN_RE`, without its anchors. -/
def domainPattern (name : List Char) : Bool :=
  let labels := name.splitOn '.'
  let last := labels.getLastD []
  (1 ≤ name.length && name.length ≤ 253) && 2 ≤ labels.length
    && labels.dropLast.all
      (flanked isLowerOrDigit (fun c => isLowerOrDigit c || c = '-') isLowerOrDigit 61)
    && ((2 ≤ last.length && last.length ≤ 24 && last.all Char.isLower)
      || (['x', 'n', '-', '-'].isPrefixOf last && 2 ≤ (last.drop 4).length
        && (last.drop 4).length ≤ 20 && (last.drop 4).all fun c => isLowerOrDigit c || c = '-'))

/-- `clean_domain`. -/
def cleanDomain (casing : Casing) (name : String) : Except Err String := do
  let name := rstrip '.' (casing.lower (strip name))
  ensure (matchesLine domainPattern name = true)
    (hostingError "Enter a full domain name such as example.com or blog.example.com.")
  return name

/-- `[a-z0-9_]`. -/
def isHostChar (c : Char) : Bool := isLowerOrDigit c || c = '_'

/-- `[a-z0-9_-]`. -/
def isLabelChar (c : Char) : Bool := isHostChar c || c = '-'

/-- `LABEL_RE`, without its anchors. -/
def labelPattern (label : List Char) : Bool :=
  label = ['*'] || flanked isLowerOrDigit isLabelChar isHostChar 61 label
    || (label.head? = some '_' && flanked isLowerOrDigit isLabelChar isHostChar 61 label.tail)

/-- `HOST_RE`, without its anchors. -/
def hostPattern (host : List Char) : Bool :=
  let labels := host.splitOn '.'
  let last := labels.getLastD []
  (1 ≤ host.length && host.length ≤ 253) && 2 ≤ labels.length
    && labels.dropLast.all (flanked isHostChar isLabelChar isHostChar 61)
    && (2 ≤ last.length && last.length ≤ 24 && last.all fun c => isLowerOrDigit c || c = '-')

/-- `SRV_NAME_RE`, without its anchors. -/
def srvNamePattern (name : List Char) : Bool :=
  match name.splitOn '.' with
  | service :: protocol :: rest =>
    (service.head? = some '_' && service.tail ≠ []
        && service.tail.all fun c => isLowerOrDigit c || c = '-')
      && protocol ∈ ["_tcp".toList, "_udp".toList, "_tls".toList]
      && rest ≠ [[]] && rest.all fun label => label.all isLabelChar
  | _ => false

/-- The quotation mark. -/
def mark : Char := Char.ofNat 34

/-- `CAA_RE`, without its anchors: the three groups of a match. -/
def caaParts (value : List Char) : Option (List Char × List Char × List Char) :=
  let flag := value.takeWhile fun c => !isSpace c
  let rest := (value.dropWhile fun c => !isSpace c).dropWhile isSpace
  let tag := rest.takeWhile fun c => !isSpace c
  match (rest.dropWhile fun c => !isSpace c).dropWhile isSpace with
  | [] => none
  | first :: quoted =>
    if (flag ∈ ["0".toList, "128".toList]
        ∧ tag ∈ ["issue".toList, "issuewild".toList, "iodef".toList])
        ∧ first = mark ∧ quoted.getLast? = some mark
        ∧ quoted.dropLast.all (fun c => c ≠ mark && c ≠ '\n') = true
        ∧ quoted.dropLast.length ≤ 255 then
      some (flag, tag, quoted.dropLast)
    else none

/-- `CAA_RE.match(value)`. -/
def caaMatch (value : List Char) : Option (List Char × List Char × List Char) :=
  caaParts value <|> if value.getLast? = some '\n' then caaParts value.dropLast else none

/-- `(record.name or "@").strip().lower().rstrip(".")`. -/
def typedName (casing : Casing) (name : String) : String :=
  rstrip '.' (casing.lower (strip (if name = "" then "@" else name)))

/-- A name within the zone. -/
def shortName (domain name : String) : String :=
  if name = "" ∨ name = "@" ∨ name = domain then "@"
  else if endsWith name ("." ++ domain) then
    clip (name.toList.length - (domain.toList.length + 1)) name
  else name

/-- The check of a name within the zone. -/
def checkName (name : String) : Except Err String := do
  let labels := splitOn '.' name
  ensure (name = "@" ∨ name.toList.length ≤ 200
      ∧ labels.all (matchesLine labelPattern) = true
      ∧ ('*' ∈ name.toList → labels.head? = some "*") ∧ name.toList.count '*' ≤ 1)
    (hostingError ("That name is not valid. Use letters, numbers, hyphens and underscores, or @ "
      ++ "for the domain itself."))
  return name

def checkTtl (ttl : Number) : Except Err ℤ := do
  match ttl.read with
  | none => throw (hostingError "The TTL must be a number of seconds.")
  | some ttl =>
    ensure (DNS_MIN_TTL ≤ ttl ∧ ttl ≤ DNS_MAX_TTL)
      (hostingError ("The TTL must be between " ++ intText DNS_MIN_TTL ++ " and "
        ++ intText DNS_MAX_TTL ++ " seconds."))
    return ttl

/-- `part.isdigit() and int(part) <= 65535`. -/
def isPort (part : String) : Except Err Bool :=
  if isDigitText part then do
    let n ← int part
    return decide (n ≤ 65535)
  else pure false

/-- `all(…)` of the weight and the port. -/
def arePorts (weight port : String) : Except Err Bool := do
  let fits ← isPort weight
  if fits then isPort port else pure false

def wrongSrv : Err :=
  hostingError ("An SRV value is three parts: weight, port and host, for example: 5 5060 "
    ++ "sip.example.com")

/-- Weight, port and host. -/
def checkSrv (casing : Casing) (name value : String) : Except Err String :=
  match splitSpace value with
  | [weight, port, target] => do
    let fits ← arePorts weight port
    let host := rstrip '.' (casing.lower target)
    ensure (fits = true ∧ matchesLine hostPattern host = true) wrongSrv
    ensure (matchesLine srvNamePattern name = true)
      (hostingError "An SRV name looks like _sip._tcp.")
    return String.intercalate " " [weight, port, host]
  | _ => throw wrongSrv

/-- The host name of a CNAME or an MX record. -/
def checkHost (casing : Casing) (kind : Kind) (value : String) : Except Err String := do
  let host := rstrip '.' (casing.lower value)
  ensure (matchesLine hostPattern host = true)
    (hostingError ("A " ++ kind.text ++ " record needs a full host name such as mail.example.com."))
  return host

def checkCaa (value : String) : Except Err String :=
  match caaMatch value.toList with
  | none => throw (hostingError
      ("A CAA value looks like: 0 issue " ++ String.ofList (mark :: "letsencrypt.org".toList)
        ++ String.singleton mark))
  | some (flag, tag, content) =>
    pure (String.ofList (flag ++ ' ' :: tag ++ ' ' :: mark :: content ++ [mark]))

/-- The value of a record, by its type. -/
def checkValue (casing : Casing) (kind : Kind) (name value : String) : Except Err String :=
  match kind with
  | .A =>
    match parseIPv4 value.toList with
    | none => throw (hostingError "An A record needs an IPv4 address such as 203.0.113.10.")
    | some address => pure (String.ofList address.text)
  | .AAAA =>
    match parseScopedIPv6 value.toList with
    | none => throw (hostingError "An AAAA record needs an IPv6 address.")
    | some address => pure (String.ofList address.text)
  | .CNAME => do
    let host ← checkHost casing .CNAME value
    ensure (name ≠ "@") (hostingError
      "A CNAME cannot be set on the domain itself (@). Use an A record there.")
    return host
  | .MX => checkHost casing .MX value
  | .TXT => do
    ensure (value ≠ "" ∧ value.toList.length ≤ 2000
        ∧ value.toList.all (fun c => 32 ≤ c.toNat) = true)
      (hostingError "A TXT record needs some text (up to 2000 characters, on one line).")
    return value
  | .SRV => checkSrv casing name value
  | .CAA => checkCaa value

/-- The priority, of the types that have one. -/
def checkPriority (kind : Kind) (priority : Number) : Except Err (Option ℤ) :=
  if kind = .MX ∨ kind = .SRV then
    match priority.read with
    | none => throw (hostingError "Give a priority (a number from 0 to 65535).")
    | some priority => do
      ensure (0 ≤ priority ∧ priority ≤ 65535)
        (hostingError "The priority must be between 0 and 65535.")
      return some priority
  else pure none

def checkKind (type : String) : Except Err Kind :=
  match DNS_RECORD_TYPES.find? fun kind => kind.text = type with
  | some kind => pure kind
  | none => throw (hostingError ("Choose a record type: "
      ++ String.intercalate ", " (DNS_RECORD_TYPES.map Kind.text) ++ "."))

/-- `normalize_record`. -/
def normalizeRecord (casing : Casing) (domain : String) (record : Record) :
    Except Err Normal := do
  let kind ← checkKind (casing.upper record.type)
  let name ← checkName (shortName domain (typedName casing record.name))
  let ttl ← checkTtl record.ttl
  let value ← checkValue casing kind name (strip record.value)
  let priority ← checkPriority kind record.priority
  return { kind, name, value, ttl, priority }

/-! ### The promise -/

/-- A line break or another control character. -/
def isBreakOrControl (c : Char) : Bool :=
  c.toNat < 32 || (127 ≤ c.toNat && c.toNat ≤ 159) || c.toNat = 0x2028 || c.toNat = 0x2029

def IsPlain (text : List Char) : Prop := ∀ c ∈ text, isBreakOrControl c = false

/-- Small letters, digits, hyphens and underscores. -/
def IsLabel (label : String) : Prop := label ≠ "" ∧ ∀ c ∈ label.toList, isLabelChar c = true

/-- `@`, or labels with dots between them; the first one may be `*`. -/
def IsZoneName (name : String) : Prop :=
  name = "@" ∨ ∃ first rest, splitOn '.' name = first :: rest ∧ (first = "*" ∨ IsLabel first)
    ∧ ∀ label ∈ rest, IsLabel label

/-- The record, typed in again. -/
def Normal.record (r : Normal) : Record where
  type := r.kind.text
  name := r.name
  value := r.value
  ttl := .int r.ttl
  priority := match r.priority with
    | none => .missing
    | some priority => .int priority

/-- **A record is refused with a reason, or comes out clean and stays as it is** when it is
    normalized again. -/
def Kept (casing : Casing) (domain : String) (record : Record) : Prop :=
  match normalizeRecord casing domain record with
  | .error e => ∃ message, e = hostingError message
  | .ok r => IsZoneName r.name ∧ IsPlain r.value.toList
    ∧ normalizeRecord casing domain r.record = .ok r

/-- **An accepted domain name has small letters, digits, hyphens and dots only.** -/
def DomainKept (casing : Casing) (name : String) : Prop :=
  ∀ accepted, cleanDomain casing name = .ok accepted →
    ∀ c ∈ accepted.toList, isLowerOrDigit c = true ∨ c = '-' ∨ c = '.'

/-! ### Where it is kept -/

/-- The name ends in the domain, or is the domain. -/
def Within (domain name : String) : Prop := name = domain ∨ endsWith name ("." ++ domain) = true

/-- The name typed stands for `stem` in the zone: the domain is written behind it, or left out. -/
def StandsFor (domain typed stem : String) : Prop :=
  (typed ≠ "" ∧ typed ≠ "@" ∧ typed ≠ domain)
    ∧ (typed = stem ++ "." ++ domain ∨ typed = stem ∧ ¬Within domain stem)

/-- The name typed has no line break in it, and does not end in the domain twice. -/
def CleanName (casing : Casing) (domain name : String) : Prop :=
  ∀ stem, StandsFor domain (typedName casing name) stem → stem ≠ "@" →
    '\n' ∉ stem.toList ∧ ¬Within domain stem

/-- What is asked of the value typed: a host name has no line break in it; a text, what stands
    behind the `%` of an address, and what is quoted have no control character. -/
def CleanValue (casing : Casing) (kind : Kind) (value : String) : Prop :=
  match kind with
  | .A | .SRV => True
  | .AAAA => IsPlain (value.toList.dropWhile (· ≠ '%'))
  | .CNAME | .MX => '\n' ∉ (casing.lower value).toList
  | .TXT => IsPlain value.toList
  | .CAA => IsPlain (value.toList.dropWhile (· ≠ mark))

/-- Of the weight and the port of an SRV value, one is a number that `int` does not read; where it
    is the port, the weight is one that it reads and that is not too large. -/
def StrangeSrv (value : String) : Prop :=
  ∃ weight port target, splitSpace value = [weight, port, target]
    ∧ (Strange weight ∨ (isDigitText weight = true ∧ ∃ n ≤ 65535,
        parseNat weight.toList = some n) ∧ Strange port)

/-- **The check comes upon a number that cannot be read**: the value is an SRV value that holds one,
    and the name and the TTL are accepted. -/
def Unread (casing : Casing) (domain : String) (record : Record) : Prop :=
  checkKind (casing.upper record.type) = .ok .SRV
    ∧ (checkName (shortName domain (typedName casing record.name))).isOk = true
    ∧ (checkTtl record.ttl).isOk = true ∧ StrangeSrv (strip record.value)

section

variable {casing : Casing} {domain name typed stem value weight port target : String} {kind : Kind}
  {c : Char}

/-! ### Characters -/

private theorem isUpper_eq (c : Char) :
    c.isUpper = decide ('A'.val ≤ c.val ∧ c.val ≤ 'Z'.val) := rfl

private theorem isLower_eq (c : Char) :
    c.isLower = (decide ('a'.val ≤ c.val) && decide (c.val ≤ 'z'.val)) := rfl

theorem isLabelChar_iff : isLabelChar c = true ↔ (97 ≤ c.toNat ∧ c.toNat ≤ 122)
    ∨ (48 ≤ c.toNat ∧ c.toNat ≤ 57) ∨ c.toNat = 95 ∨ c.toNat = 45 := by
  have heq : ∀ d : Char, c = d ↔ c.toNat = d.toNat := fun d =>
    ⟨fun h => h ▸ rfl, fun h => Char.toNat_inj.mp h⟩
  simp only [isLabelChar, isHostChar, isLowerOrDigit, isLower_eq, Char.isDigit, Bool.or_eq_true,
    Bool.and_eq_true, decide_eq_true_eq, heq]
  simp only [UInt32.le_iff_toNat_le, ge_iff_le]
  have hc : c.val.toNat = c.toNat := rfl
  have hletters : 'a'.val.toNat = 97 ∧ 'z'.val.toNat = 122 := ⟨rfl, rfl⟩
  have hdigits : '0'.val.toNat = 48 ∧ '9'.val.toNat = 57 := ⟨rfl, rfl⟩
  have hsigns : '_'.toNat = 95 ∧ '-'.toNat = 45 := ⟨rfl, rfl⟩
  omega

/-- From `*` to `z`, but no capital letter. -/
def isNameChar (c : Char) : Bool :=
  (42 ≤ c.toNat && c.toNat ≤ 122) && !(65 ≤ c.toNat && c.toNat ≤ 90)

theorem isNameChar_range (h : isNameChar c = true) :
    42 ≤ c.toNat ∧ c.toNat ≤ 122 ∧ ¬(65 ≤ c.toNat ∧ c.toNat ≤ 90) := by
  simp only [isNameChar, Bool.and_eq_true, Bool.not_eq_true', Bool.and_eq_false_iff,
    decide_eq_true_eq, decide_eq_false_iff_not] at h
  omega

theorem isPlain_of_isNameChar {text : List Char} (h : ∀ c ∈ text, isNameChar c = true) :
    IsPlain text := by
  intro c hc
  have := isNameChar_range (h c hc)
  simp only [isBreakOrControl, Bool.or_eq_false_iff, Bool.and_eq_false_iff, decide_eq_false_iff_not]
  omega

theorem isSpace_of_isNameChar (h : isNameChar c = true) : isSpace c = false := by
  have := isNameChar_range h
  simp only [isSpace, Bool.or_eq_false_iff, Bool.and_eq_false_iff, decide_eq_false_iff_not]
  omega

/-- What is written in these characters is neither stripped nor made small. -/
theorem strip_of_isNameChar {text : String} (h : ∀ c ∈ text.toList, isNameChar c = true) :
    strip text = text :=
  strip_eq_self fun c hc => isSpace_of_isNameChar (h c hc)

theorem lower_of_isNameChar {text : String} (h : ∀ c ∈ text.toList, isNameChar c = true) :
    casing.lower text = text := by
  refine casing.lower_eq_self text (List.all_eq_true.mpr fun c hc => ?_)
  have hrange := isNameChar_range (h c hc)
  have hval : c.val.toNat = c.toNat := rfl
  have hletters : 'A'.val.toNat = 65 ∧ 'Z'.val.toNat = 90 := ⟨rfl, rfl⟩
  simp only [isUpper_eq, Bool.and_eq_true, decide_eq_true_eq, Bool.not_eq_true',
    decide_eq_false_iff_not, UInt32.le_iff_toNat_le]
  omega

theorem isNameChar_of_isLabelChar (h : isLabelChar c = true) : isNameChar c = true := by
  have := isLabelChar_iff.mp h
  simp only [isNameChar, Bool.and_eq_true, Bool.not_eq_true', Bool.and_eq_false_iff,
    decide_eq_true_eq, decide_eq_false_iff_not]
  omega

theorem isNameChar_of_isAddressChar (h : isAddressChar c = true) : isNameChar c = true := by
  simp only [isAddressChar, Bool.or_eq_true, Bool.and_eq_true, decide_eq_true_eq] at h
  rcases h with ((h | h) | rfl) | rfl
  · refine isNameChar_of_isLabelChar ?_
    rw [isLabelChar, isHostChar, isLowerOrDigit, h, Bool.or_true]
    rfl
  · exact isNameChar_of_isLabelChar (isLabelChar_iff.mpr (.inl ⟨h.1, by omega⟩))
  · decide
  · decide

theorem newline_of_isPlain {text : List Char} (h : IsPlain text) : '\n' ∉ text := fun hmem =>
  absurd (h _ hmem) (by decide)

/-! ### Names -/

/-- A label that matches and has no line break is `*` or made of small letters and the like. -/
theorem label_of_pattern (h : matchesLine labelPattern name = true) (hno : '\n' ∉ name.toList) :
    name = "*" ∨ IsLabel name := by
  have hpattern := line_of_matchesLine h hno
  have hflanked : ∀ text, flanked isLowerOrDigit isLabelChar isHostChar 61 text = true →
      text ≠ [] ∧ ∀ c ∈ text, isLabelChar c = true := by
    intro text htext
    refine forall_mem_of_flanked htext (fun c hc => ?_) (fun c hc => hc) fun c hc => ?_
    · rw [isLabelChar, isHostChar, hc]
      rfl
    · rw [isLabelChar, hc]
      rfl
  have hne : ∀ text : List Char, name.toList = text → text ≠ [] → name ≠ "" := by
    rintro _ rfl hne rfl
    exact hne rfl
  rw [labelPattern, Bool.or_eq_true, Bool.or_eq_true, Bool.and_eq_true, decide_eq_true_eq,
    decide_eq_true_eq] at hpattern
  rcases hpattern with (hstar | hplain) | ⟨hhead, htail⟩
  · exact .inl (String.toList_injective hstar)
  · obtain ⟨hnil, hall⟩ := hflanked _ hplain
    exact .inr ⟨hne _ rfl hnil, hall⟩
  · -- an underscore in front
    obtain ⟨-, hall⟩ := hflanked _ htail
    cases htext : name.toList with
    | nil =>
      rw [htext] at hhead
      cases hhead
    | cons d rest =>
      rw [htext] at hhead hall
      cases hhead
      refine .inr ⟨hne _ htext (List.cons_ne_nil _ _), ?_⟩
      rw [htext]
      exact List.forall_mem_cons.mpr ⟨by decide, hall⟩

theorem checkName_eq_ok {accepted : String} : checkName name = .ok accepted ↔ accepted = name
    ∧ (name = "@" ∨ name.toList.length ≤ 200
      ∧ (splitOn '.' name).all (matchesLine labelPattern) = true
      ∧ ('*' ∈ name.toList → (splitOn '.' name).head? = some "*")
      ∧ name.toList.count '*' ≤ 1) := by
  simp only [checkName, bind_eq_ok, ensure_eq_ok, pure_eq_ok]
  constructor
  · rintro ⟨-, hname, heq⟩
    exact ⟨heq.symm, hname⟩
  · rintro ⟨heq, hname⟩
    exact ⟨⟨⟩, hname, heq.symm⟩

theorem intercalate_splitOn (name : String) :
    name.toList = ['.'].intercalate ((splitOn '.' name).map String.toList) := by
  have hmap : (splitOn '.' name).map String.toList = name.toList.splitOn '.' := by
    rw [splitOn, List.map_map]
    conv_rhs => rw [← List.map_id (name.toList.splitOn '.')]
    exact List.map_congr_left fun part _ => String.toList_ofList
  rw [hmap, List.intercalate_splitOn]

/-- What a label holds, the name holds. -/
theorem mem_of_mem_label {label : String} (hlabel : label ∈ splitOn '.' name)
    (hc : c ∈ label.toList) : c ∈ name.toList := by
  rw [intercalate_splitOn name]
  exact mem_intercalate (List.mem_map_of_mem hlabel) hc

/-- **An accepted name is a name of the zone where it has no line break.** -/
theorem isZoneName_of_checked (h : checkName name = .ok name) (hno : '\n' ∉ name.toList) :
    IsZoneName name := by
  obtain ⟨-, hat | ⟨-, hlabels, hstar, hcount⟩⟩ := checkName_eq_ok.mp h
  · exact .inl hat
  · have hlabel : ∀ label ∈ splitOn '.' name, label = "*" ∨ IsLabel label := fun label hmem =>
      label_of_pattern (List.all_eq_true.mp hlabels label hmem) fun hc =>
        hno (mem_of_mem_label hmem hc)
    obtain ⟨first, rest, hsplit⟩ := List.exists_cons_of_ne_nil (splitOn_ne_nil '.' name)
    have hname := intercalate_splitOn name
    rw [hsplit] at hlabel hstar hname
    refine .inr ⟨first, rest, hsplit, hlabel first List.mem_cons_self, fun label hmem => ?_⟩
    refine (hlabel label (List.mem_cons_of_mem _ hmem)).resolve_left ?_
    rintro rfl
    -- a second `*`, behind the one in front
    have hstar : '*' ∈ "*".toList := by decide
    have hmem' : '*' ∈ ['.'].intercalate (rest.map String.toList) :=
      mem_intercalate (List.mem_map_of_mem hmem) hstar
    obtain ⟨next, rest', rfl⟩ := List.exists_cons_of_ne_nil (List.ne_nil_of_mem hmem)
    rw [List.map_cons, List.map_cons, List.intercalate_cons_cons] at hname
    rw [List.map_cons] at hmem'
    have hfirst : first = "*" := Option.some.inj (hstar (by
      rw [hname]
      exact List.mem_append_right _ hmem'))
    have hone := List.count_pos_iff.mpr hmem'
    rw [hname, hfirst, List.count_append, List.count_append] at hcount
    have hstar' : List.count '*' "*".toList = 1 := by decide
    omega

/-- The characters of a name of the zone. -/
theorem isNameChar_of_isZoneName (h : IsZoneName name) :
    ∀ c ∈ name.toList, isNameChar c = true := by
  rcases h with rfl | ⟨first, rest, hsplit, hfirst, hrest⟩
  · exact List.all_eq_true.mp (by decide)
  · have hlabel : ∀ label, IsLabel label → ∀ c ∈ label.toList, isNameChar c = true :=
      fun label h c hc => isNameChar_of_isLabelChar (h.2 c hc)
    rw [intercalate_splitOn name, hsplit]
    refine forall_mem_intercalate (by decide) fun part hpart => ?_
    obtain ⟨label, hmem, rfl⟩ := List.mem_map.mp hpart
    rcases List.mem_cons.mp hmem with rfl | hmem
    · rcases hfirst with rfl | hfirst
      · exact List.all_eq_true.mp (by decide)
      · exact hlabel _ hfirst
    · exact hlabel _ (hrest _ hmem)

/-- A name of the zone does not end in a dot. -/
theorem getLast?_of_isZoneName (h : IsZoneName name) : name.toList.getLast? ≠ some '.' := by
  rcases h with rfl | ⟨first, rest, hsplit, hfirst, hrest⟩
  · decide
  · intro hlast
    obtain ⟨front, hfront⟩ := List.getLast?_eq_some_iff.mp hlast
    have hempty : "" ∈ splitOn '.' name := by
      rw [splitOn, hfront, List.splitOn_append_cons_self]
      exact List.mem_map.mpr ⟨[], List.mem_append_right _ (by simp), rfl⟩
    rw [hsplit] at hempty
    rcases List.mem_cons.mp hempty with hnil | hmem
    · rcases hfirst with rfl | hfirst
      · exact absurd hnil (by decide)
      · exact hfirst.1 hnil.symm
    · exact (hrest "" hmem).1 rfl

theorem ne_empty_of_isZoneName (h : IsZoneName name) : name ≠ "" := by
  rintro rfl
  rcases h with heq | ⟨first, rest, hsplit, hfirst, -⟩
  · exact absurd heq (by decide)
  · obtain ⟨rfl, -⟩ := List.cons.inj (hsplit.symm.trans (show splitOn '.' "" = [""] by decide))
    rcases hfirst with heq | hfirst
    · exact absurd heq (by decide)
    · exact hfirst.1 rfl

/-- **A name of the zone is typed as it is.** -/
theorem typedName_of_isZoneName (h : IsZoneName name) : typedName casing name = name := by
  have hchars := isNameChar_of_isZoneName h
  rw [typedName, if_neg (ne_empty_of_isZoneName h), strip_of_isNameChar hchars,
    lower_of_isNameChar hchars, rstrip_eq_self (getLast?_of_isZoneName h)]

/-! ### Names within the zone -/

theorem clip_append (stem tail : String) : clip stem.toList.length (stem ++ tail) = stem := by
  rw [clip, String.toList_append, List.take_left, String.ofList_toList]

/-- What stands before the domain is cut out. -/
theorem shortName_of_append (hat : stem ++ "." ++ domain ≠ "" ∧ stem ++ "." ++ domain ≠ "@"
    ∧ stem ++ "." ++ domain ≠ domain) : shortName domain (stem ++ "." ++ domain) = stem := by
  have hends : endsWith (stem ++ "." ++ domain) ("." ++ domain) = true := by
    rw [endsWith_iff, String.append_assoc, String.toList_append (s := stem)]
    exact List.suffix_append _ _
  have hlength : (stem ++ "." ++ domain).toList.length - (domain.toList.length + 1)
      = stem.toList.length := by
    simp only [String.toList_append, List.length_append]
    have hdot : ".".toList.length = 1 := rfl
    omega
  rw [shortName, if_neg (by simpa using hat), if_pos hends, hlength, String.append_assoc,
    clip_append]

/-- **The name within the zone is what the name typed stands for.** -/
theorem standsFor_iff (hat : typed ≠ "" ∧ typed ≠ "@" ∧ typed ≠ domain) :
    StandsFor domain typed stem ↔ shortName domain typed = stem := by
  rw [StandsFor, and_iff_right hat]
  constructor
  · rintro (rfl | ⟨rfl, hwithin⟩)
    · exact shortName_of_append hat
    · rw [shortName, if_neg (by simpa using hat), if_neg fun h => hwithin (.inr h)]
  · intro h
    by_cases hends : endsWith typed ("." ++ domain) = true
    · obtain ⟨front, hfront⟩ := endsWith_iff.mp hends
      have htyped : typed = String.ofList front ++ "." ++ domain := by
        refine String.toList_injective ?_
        rw [String.append_assoc, String.toList_append, String.toList_ofList, hfront]
      rw [htyped] at hat h
      rw [shortName_of_append hat] at h
      exact .inl (h ▸ htyped)
    · rw [shortName, if_neg (by simpa using hat), if_neg hends] at h
      subst h
      exact .inr ⟨rfl, fun hwithin => hwithin.elim hat.2.2 hends⟩

theorem cleanName_iff : CleanName casing domain name
    ↔ shortName domain (typedName casing name) = "@"
      ∨ '\n' ∉ (shortName domain (typedName casing name)).toList
        ∧ ¬Within domain (shortName domain (typedName casing name)) := by
  unfold CleanName
  generalize typedName casing name = typed
  by_cases hat : typed ≠ "" ∧ typed ≠ "@" ∧ typed ≠ domain
  · constructor
    · intro h
      by_cases hself : shortName domain typed = "@"
      · exact .inl hself
      · exact .inr (h _ ((standsFor_iff hat).mpr rfl) hself)
    · rintro h stem hstem hne
      obtain rfl := (standsFor_iff hat).mp hstem
      exact h.resolve_left hne
  · have hself : shortName domain typed = "@" := by
      rw [shortName, if_pos]
      by_contra hno
      exact hat (by simpa using hno)
    exact iff_of_true (fun stem hstem => absurd hstem.1 hat) (.inl hself)

/-- **A name of the zone is read as it is**, unless it ends in the domain. -/
theorem shortName_eq_self_iff (h : IsZoneName name) :
    shortName domain (typedName casing name) = name ↔ name = "@" ∨ ¬Within domain name := by
  rw [typedName_of_isZoneName h]
  have hne := ne_empty_of_isZoneName h
  by_cases hself : name = "@"
  · rw [shortName, if_pos (.inr (.inl hself))]
    exact iff_of_true hself.symm (.inl hself)
  · rw [or_iff_right hself, Within, not_or]
    by_cases hdomain : name = domain
    · rw [shortName, if_pos (.inr (.inr hdomain))]
      exact iff_of_false (fun heq => hself heq.symm) fun hno => hno.1 hdomain
    · rw [shortName, if_neg (by simp [hne, hself, hdomain]), and_iff_right hdomain]
      split
      · next hends =>
        -- something is cut off
        refine iff_of_false (fun heq => ?_) fun hno => hno hends
        have hlength := congrArg (fun s => s.toList.length) heq
        have hpos : 0 < name.toList.length :=
          List.length_pos_iff.mpr fun hnil => hne (String.toList_injective hnil)
        simp only [clip, String.toList_ofList, List.length_take] at hlength
        omega
      · next hends => exact iff_of_true rfl hends

/-! ### Values -/

variable {normal : String}

/-- What is kept of a value that is accepted: it is clean where the value typed was, and then it is
    accepted as it is. -/
def ValueKept (casing : Casing) (kind : Kind) (name value normal : String) : Prop :=
  (IsPlain normal.toList ↔ CleanValue casing kind value)
    ∧ (IsPlain normal.toList → checkValue casing kind name (strip normal) = .ok normal)

theorem valueKept_A (h : checkValue casing .A name value = .ok normal) :
    ValueKept casing .A name value normal := by
  rw [checkValue] at h
  split at h
  · cases h
  · next address hparse =>
    obtain rfl := (pure_eq_ok _ _).mp h
    have hchars : ∀ c ∈ (String.ofList address.text).toList, isNameChar c = true := by
      rw [String.toList_ofList]
      exact fun c hc => isNameChar_of_isAddressChar (address.isAddressChar_of_mem c hc)
    refine ⟨iff_of_true (isPlain_of_isNameChar hchars) trivial, fun _ => ?_⟩
    rw [strip_of_isNameChar hchars, checkValue, String.toList_ofList, parseIPv4_text]
    rfl

theorem valueKept_AAAA (hends : ∀ c ∈ value.toList.getLast?, isSpace c = false)
    (h : checkValue casing .AAAA name value = .ok normal) :
    ValueKept casing .AAAA name value normal := by
  rw [checkValue] at h
  split at h
  · cases h
  · next address hparse =>
    obtain rfl := (pure_eq_ok _ _).mp h
    have hagain : checkValue casing .AAAA name (String.ofList address.text)
        = .ok (String.ofList address.text) := by
      rw [checkValue, String.toList_ofList, parseScopedIPv6_text hparse]
      rfl
    have hchars : ∀ c ∈ address.address.text, isNameChar c = true := fun c hc =>
      isNameChar_of_isAddressChar (address.address.isAddressChar_of_mem c hc)
    rcases scope_of_parse hparse with ⟨hnone, hpercent⟩ | ⟨scope, hsome, hdrop, hne, -, -⟩
    · have htext : address.text = address.address.text := by rw [ScopedIPv6.text, hnone]
      have hnormal : ∀ c ∈ (String.ofList address.text).toList, isNameChar c = true := by
        rwa [String.toList_ofList, htext]
      have hclean : value.toList.dropWhile (· ≠ '%') = [] :=
        List.dropWhile_eq_nil_iff.mpr fun c hc => decide_eq_true fun heq => hpercent (heq ▸ hc)
      refine ⟨iff_of_true (isPlain_of_isNameChar hnormal) ?_, fun _ => ?_⟩
      · show IsPlain (value.toList.dropWhile (· ≠ '%'))
        rw [hclean]
        exact fun c hc => absurd hc List.not_mem_nil
      · rw [strip_of_isNameChar hnormal, hagain]
    · have htext : address.text = address.address.text ++ '%' :: scope := by
        rw [ScopedIPv6.text, hsome]
      refine ⟨?_, fun _ => ?_⟩
      · show IsPlain (String.ofList address.text).toList
          ↔ IsPlain (value.toList.dropWhile (· ≠ '%'))
        rw [String.toList_ofList, htext, hdrop, IsPlain, List.forall_mem_append]
        exact and_iff_right (isPlain_of_isNameChar hchars)
      · -- the scope ends as the value typed does
        have hstrip : strip (String.ofList address.text) = String.ofList address.text := by
          refine strip_eq_self_of_ends (fun c hc => ?_) fun c hc => ?_
          · rw [String.toList_ofList, htext] at hc
            cases haddress : address.address.text with
            | nil =>
              rw [haddress] at hc
              cases hc
              decide
            | cons d rest =>
              rw [haddress] at hc
              cases hc
              exact isSpace_of_isNameChar (hchars c (haddress ▸ List.mem_cons_self))
          · have hlast := List.getLast?_eq_some_getLast hne
            rw [String.toList_ofList, htext, List.getLast?_append,
              List.getLast?_cons_of_ne_nil hne, hlast] at hc
            refine hends c ?_
            rw [← List.takeWhile_append_dropWhile (p := (· ≠ '%')) (l := value.toList), hdrop,
              List.getLast?_append, List.getLast?_cons_of_ne_nil hne, hlast]
            exact hc
        rw [hstrip, hagain]

/-- A host name that is accepted and has no line break. -/
theorem host_of_pattern (h : matchesLine hostPattern name = true) (hno : '\n' ∉ name.toList) :
    name ≠ "" ∧ ∀ c ∈ name.toList, isNameChar c = true := by
  have hpattern := line_of_matchesLine h hno
  simp only [hostPattern, Bool.and_eq_true, decide_eq_true_eq] at hpattern
  obtain ⟨⟨⟨⟨hpos, -⟩, hlabels⟩, hfront⟩, -, hlast⟩ := hpattern
  refine ⟨fun hnil => by rw [hnil] at hpos; exact absurd hpos (by decide), ?_⟩
  have hparts : ∀ part ∈ name.toList.splitOn '.', ∀ c ∈ part, isLabelChar c = true := by
    rcases List.eq_nil_or_concat (name.toList.splitOn '.') with hnil | ⟨front, last, hconcat⟩
    · rw [hnil] at hlabels
      exact absurd hlabels (by decide)
    · rw [hconcat, List.concat_eq_append] at hfront hlast ⊢
      rw [List.dropLast_concat, List.all_eq_true] at hfront
      rw [List.getLastD_concat, List.all_eq_true] at hlast
      refine List.forall_mem_append.mpr ⟨fun part hpart => ?_,
        List.forall_mem_singleton.mpr fun c hc => ?_⟩
      · have hhost : ∀ c, isHostChar c = true → isLabelChar c = true := fun c hc => by
          rw [isLabelChar, hc]
          rfl
        exact (forall_mem_of_flanked (hfront part hpart) hhost (fun c hc => hc) hhost).2
      · have hc := hlast c hc
        rw [Bool.or_eq_true] at hc
        rw [isLabelChar, isHostChar]
        rcases hc with hc | hc
        · rw [hc]
          rfl
        · rw [hc, Bool.or_true]
  have hjoin : ['.'].intercalate (name.toList.splitOn '.') = name.toList :=
    List.intercalate_splitOn '.'
  rw [← hjoin]
  exact forall_mem_intercalate (by decide) fun part hpart c hc =>
    isNameChar_of_isLabelChar (hparts part hpart c hc)

theorem checkHost_eq_ok : checkHost casing kind value = .ok normal
    ↔ normal = rstrip '.' (casing.lower value) ∧ matchesLine hostPattern normal = true := by
  simp only [checkHost, bind_eq_ok, ensure_eq_ok, pure_eq_ok]
  constructor
  · rintro ⟨_, hmatch, rfl⟩
    exact ⟨rfl, hmatch⟩
  · rintro ⟨rfl, hmatch⟩
    exact ⟨⟨⟩, hmatch, rfl⟩

/-- A host name has no control character where there is no line break in what was typed. -/
theorem isPlain_host_iff (h : checkHost casing kind value = .ok normal) :
    IsPlain normal.toList ↔ '\n' ∉ (casing.lower value).toList := by
  obtain ⟨rfl, hmatch⟩ := checkHost_eq_ok.mp h
  have hmem : '\n' ∈ (rstrip '.' (casing.lower value)).toList
      ↔ '\n' ∈ (casing.lower value).toList := mem_rstrip_iff (by decide)
  rw [← hmem]
  exact ⟨newline_of_isPlain, fun hno => isPlain_of_isNameChar (host_of_pattern hmatch hno).2⟩

/-- A host name that is accepted and has no line break is accepted again. -/
theorem checkHost_again (h : checkHost casing kind value = .ok normal)
    (hplain : IsPlain normal.toList) :
    strip normal = normal ∧ checkHost casing kind normal = .ok normal := by
  obtain ⟨heq, hmatch⟩ := checkHost_eq_ok.mp h
  have hchars := (host_of_pattern hmatch (newline_of_isPlain hplain)).2
  refine ⟨strip_of_isNameChar hchars, checkHost_eq_ok.mpr ⟨?_, hmatch⟩⟩
  have hlast := getLast?_rstrip '.' (casing.lower value)
  rw [← heq] at hlast
  rw [lower_of_isNameChar hchars, rstrip_eq_self hlast]

theorem valueKept_CNAME (h : checkValue casing .CNAME name value = .ok normal) :
    ValueKept casing .CNAME name value normal := by
  obtain ⟨host, hhost, h⟩ := bind_eq_ok.mp h
  obtain ⟨_, hname, h⟩ := bind_eq_ok.mp h
  obtain rfl := (pure_eq_ok _ _).mp h
  refine ⟨isPlain_host_iff hhost, fun hplain => ?_⟩
  obtain ⟨hstrip, hagain⟩ := checkHost_again hhost hplain
  rw [hstrip]
  exact bind_eq_ok.mpr ⟨host, hagain, bind_eq_ok.mpr ⟨⟨⟩, hname, rfl⟩⟩

theorem valueKept_MX (h : checkValue casing .MX name value = .ok normal) :
    ValueKept casing .MX name value normal := by
  refine ⟨isPlain_host_iff h, fun hplain => ?_⟩
  obtain ⟨hstrip, hagain⟩ := checkHost_again h hplain
  rw [hstrip]
  exact hagain

theorem valueKept_TXT (hstrip : strip value = value)
    (h : checkValue casing .TXT name value = .ok normal) :
    ValueKept casing .TXT name value normal := by
  have hagain := h
  obtain ⟨_, -, h⟩ := bind_eq_ok.mp h
  obtain rfl := (pure_eq_ok _ _).mp h
  exact ⟨Iff.rfl, fun _ => by rw [hstrip]; exact hagain⟩

/-! ### SRV values -/

private theorem digitRanges_plain :
    (digitZeros.all fun first => (48 ≤ first && first ≤ 117) || (160 ≤ first && first + 10 ≤ 0x2028)
      || 0x202A ≤ first) = true
    ∧ (otherDigits.all fun range => (160 ≤ range.1 && range.2 < 0x2028) || 0x202A ≤ range.1)
      = true := by
  decide

/-- No digit is a control character. -/
theorem isPlain_of_isDigitText (h : isDigitText value = true) : IsPlain value.toList := by
  rw [isDigitText, Bool.and_eq_true] at h
  intro c hc
  have hdigit := List.all_eq_true.mp h.2 c hc
  obtain ⟨hzeros, hothers⟩ := digitRanges_plain
  have hrange : (48 ≤ c.toNat ∧ c.toNat < 127) ∨ (160 ≤ c.toNat ∧ c.toNat < 0x2028)
      ∨ 0x202A ≤ c.toNat := by
    rw [isDigitChar, Bool.or_eq_true] at hdigit
    rcases hdigit with hdecimal | hother
    · rw [isDecimal, decimalDigit, Option.isSome_map] at hdecimal
      obtain ⟨first, hfind⟩ := Option.isSome_iff_exists.mp hdecimal
      have hbounds := List.find?_some hfind
      have hfirst := List.all_eq_true.mp hzeros first (List.mem_of_find?_eq_some hfind)
      simp only [Bool.and_eq_true, Bool.or_eq_true, decide_eq_true_eq] at hbounds hfirst
      omega
    · obtain ⟨range, hmem, hbounds⟩ := List.any_eq_true.mp hother
      have hfirst := List.all_eq_true.mp hothers range hmem
      simp only [Bool.and_eq_true, Bool.or_eq_true, decide_eq_true_eq] at hbounds hfirst
      omega
  simp only [isBreakOrControl, Bool.or_eq_false_iff, Bool.and_eq_false_iff,
    decide_eq_false_iff_not]
  omega

theorem isPort_eq_true : isPort port = .ok true
    ↔ isDigitText port = true ∧ ∃ n ≤ 65535, parseNat port.toList = some n := by
  rw [isPort]
  split
  · next hdigits =>
    simp only [bind_eq_ok, int_eq_ok, pure_eq_ok, decide_eq_true_eq, hdigits, true_and]
    constructor
    · rintro ⟨n, hn, hle⟩
      exact ⟨n, hle, hn⟩
    · rintro ⟨n, hle, hn⟩
      exact ⟨n, hn, hle⟩
  · next hdigits => simp [hdigits]

theorem isPort_eq_error {e : Err} : isPort port = .error e ↔ Strange port ∧ e = valueError := by
  rw [isPort, Strange]
  split
  · next hdigits =>
    rw [bind_pure_eq_error, int_eq_error, hdigits]
    exact and_congr_left fun _ => (and_iff_right rfl).symm
  · next hdigits => simp [hdigits]

theorem arePorts_eq_true :
    arePorts weight port = .ok true ↔ isPort weight = .ok true ∧ isPort port = .ok true := by
  rw [arePorts, bind_eq_ok]
  constructor
  · rintro ⟨fits, hweight, h⟩
    cases fits with
    | false => exact absurd ((pure_eq_ok _ _).mp h) (by decide)
    | true => exact ⟨hweight, h⟩
  · exact fun h => ⟨true, h.1, h.2⟩

theorem arePorts_eq_error {e : Err} : arePorts weight port = .error e
    ↔ (Strange weight ∨ isPort weight = .ok true ∧ Strange port) ∧ e = valueError := by
  rw [arePorts, bind_eq_error, isPort_eq_error, or_and_right, and_assoc]
  refine or_congr_right ⟨?_, fun h => ⟨true, h.1, isPort_eq_error.mpr h.2⟩⟩
  rintro ⟨fits, hweight, h⟩
  cases fits with
  | false => exact absurd h (pure_ne_error _ _)
  | true => exact ⟨hweight, isPort_eq_error.mp h⟩

/-- What an SRV value is that is accepted. -/
theorem checkSrv_eq_ok : checkSrv casing name value = .ok normal
    ↔ ∃ weight port target, splitSpace value = [weight, port, target]
      ∧ arePorts weight port = .ok true
      ∧ matchesLine hostPattern (rstrip '.' (casing.lower target)) = true
      ∧ matchesLine srvNamePattern name = true
      ∧ normal = String.intercalate " " [weight, port, rstrip '.' (casing.lower target)] := by
  rw [checkSrv]
  split
  · next weight port target hsplit =>
    simp only [bind_eq_ok, ensure_eq_ok, pure_eq_ok, hsplit]
    constructor
    · rintro ⟨fits, hports, _, ⟨rfl, hhost⟩, _, hname, rfl⟩
      exact ⟨weight, port, target, rfl, hports, hhost, hname, rfl⟩
    · rintro ⟨weight', port', target', heq, hports, hhost, hname, rfl⟩
      cases heq
      exact ⟨true, hports, ⟨⟩, ⟨rfl, hhost⟩, ⟨⟩, hname, rfl⟩
  · next hsplit =>
    refine iff_of_false (throw_ne_ok _ _) ?_
    rintro ⟨weight, port, target, heq, -⟩
    exact hsplit weight port target heq

/-- The check of an SRV value raises `ValueError` for a strange number alone. -/
theorem checkSrv_eq_valueError :
    checkSrv casing name value = .error valueError ↔ StrangeSrv value := by
  have hreason : ∀ message, hostingError message ≠ valueError := hostingError_ne_valueError
  rw [checkSrv, StrangeSrv]
  split
  · next weight port target hsplit =>
    rw [hsplit, bind_eq_error, arePorts_eq_error, and_iff_left rfl, isPort_eq_true]
    constructor
    · rintro (h | ⟨fits, -, h⟩)
      · exact ⟨weight, port, target, rfl, h⟩
      · rcases bind_eq_error.mp h with h | ⟨_, -, h⟩
        · exact absurd (ensure_eq_error.mp h).2 (hreason _)
        · rcases bind_eq_error.mp h with h | ⟨_, -, h⟩
          · exact absurd (ensure_eq_error.mp h).2 (hreason _)
          · exact absurd h (pure_ne_error _ _)
    · rintro ⟨weight', port', target', heq, h⟩
      cases heq
      exact .inl h
  · next hsplit =>
    refine iff_of_false (fun h => hreason _ (Except.error.inj h)) ?_
    rintro ⟨weight, port, target, heq, -⟩
    exact hsplit weight port target heq

private theorem toList_three (weight port target : String) :
    (String.intercalate " " [weight, port, target]).toList
      = weight.toList ++ ' ' :: (port.toList ++ ' ' :: target.toList) := by
  have hsep : " ".toList = [' '] := rfl
  rw [String.toList_intercalate, hsep]
  simp [List.intercalate_cons_cons]

/-- Words with blanks between them are not stripped. -/
theorem strip_three (hweight : IsWord weight) (htarget : IsWord target) :
    strip (String.intercalate " " [weight, port, target])
      = String.intercalate " " [weight, port, target] := by
  have hnonempty : ∀ word, IsWord word → word.toList ≠ [] := fun word hword hnil =>
    hword.1 (String.toList_injective hnil)
  refine strip_eq_self_of_ends (fun c hc => ?_) fun c hc => ?_
  · rw [toList_three] at hc
    obtain ⟨d, rest, hchars⟩ := List.exists_cons_of_ne_nil (hnonempty weight hweight)
    rw [hchars] at hc
    cases hc
    exact hweight.2 _ (hchars ▸ List.mem_cons_self)
  · have hlast := List.getLast?_eq_some_getLast (hnonempty target htarget)
    rw [toList_three, List.append_cons, ← List.append_assoc, List.append_cons,
      List.getLast?_append, hlast] at hc
    cases hc
    exact htarget.2 _ (List.getLast_mem _)

theorem valueKept_SRV (h : checkValue casing .SRV name value = .ok normal) :
    ValueKept casing .SRV name value normal := by
  obtain ⟨weight, port, target, hsplit, hports, hhost, hname, rfl⟩ := checkSrv_eq_ok.mp h
  have hword : ∀ word ∈ [weight, port, target], IsWord word := fun word hmem =>
    isWord_of_mem_splitSpace (hsplit ▸ hmem)
  obtain ⟨hweight, hport, htarget, -⟩ : IsWord weight ∧ IsWord port ∧ IsWord target ∧ _ := by
    simpa only [List.forall_mem_cons] using hword
  -- a word has no line break in it
  have hno : '\n' ∉ (rstrip '.' (casing.lower target)).toList := by
    rw [mem_rstrip_iff (by decide)]
    exact fun hmem => absurd (htarget.2 _ (casing.newline_of_lower target hmem)) (by decide)
  obtain ⟨hne, hchars⟩ := host_of_pattern hhost hno
  have hhostWord : IsWord (rstrip '.' (casing.lower target)) :=
    ⟨hne, fun c hc => isSpace_of_isNameChar (hchars c hc)⟩
  obtain ⟨hw, hp⟩ := arePorts_eq_true.mp hports
  refine ⟨iff_of_true ?_ trivial, fun _ => ?_⟩
  · rw [toList_three, IsPlain, List.forall_mem_append, List.forall_mem_cons, List.forall_mem_append,
      List.forall_mem_cons]
    exact ⟨isPlain_of_isDigitText (isPort_eq_true.mp hw).1, by decide,
      isPlain_of_isDigitText (isPort_eq_true.mp hp).1, by decide, isPlain_of_isNameChar hchars⟩
  · rw [strip_three hweight hhostWord]
    refine checkSrv_eq_ok.mpr ⟨weight, port, _, splitSpace_intercalate ?_, hports, ?_, hname, ?_⟩
    · simp only [List.forall_mem_cons]
      exact ⟨hweight, hport, hhostWord, fun word hmem => absurd hmem List.not_mem_nil⟩
    · rw [lower_of_isNameChar hchars, rstrip_eq_self (getLast?_rstrip _ _)]
      exact hhost
    · rw [lower_of_isNameChar hchars, rstrip_eq_self (getLast?_rstrip _ _)]

/-! ### CAA values -/

/-- The groups of a match: flag, tag and what is quoted. -/
structure IsCaa (flag tag content : List Char) : Prop where
  flag_mem : flag ∈ ["0".toList, "128".toList]
  tag_mem : tag ∈ ["issue".toList, "issuewild".toList, "iodef".toList]
  quoted : content.all (fun c => c ≠ mark && c ≠ '\n') = true
  short : content.length ≤ 255

section

variable {flag tag content text : List Char}

theorem caaParts_eq_some (h : caaParts text = some (flag, tag, content)) :
    IsCaa flag tag content ∧ ∃ blanks blanks', (∀ c ∈ blanks, isSpace c = true)
      ∧ (∀ c ∈ blanks', isSpace c = true)
      ∧ text = flag ++ (blanks ++ (tag ++ (blanks' ++ mark :: (content ++ [mark])))) := by
  unfold caaParts at h
  simp only at h
  split at h
  · cases h
  · next first quoted hrest =>
    split at h
    · next hmatch =>
      cases h
      obtain ⟨⟨hflag, htag⟩, rfl, hlast, hcontent, hlength⟩ := hmatch
      obtain ⟨front, hfront⟩ := List.getLast?_eq_some_iff.mp hlast
      have hquoted : quoted.dropLast ++ [mark] = quoted := by rw [hfront, List.dropLast_concat]
      refine ⟨⟨hflag, htag, hcontent, hlength⟩,
        (text.dropWhile fun c => !isSpace c).takeWhile isSpace,
        (((text.dropWhile fun c => !isSpace c).dropWhile isSpace).dropWhile
          fun c => !isSpace c).takeWhile isSpace,
        fun c hc => List.all_eq_true.mp List.all_takeWhile c hc,
        fun c hc => List.all_eq_true.mp List.all_takeWhile c hc, ?_⟩
      rw [hquoted, ← hrest, List.takeWhile_append_dropWhile, List.takeWhile_append_dropWhile,
        List.takeWhile_append_dropWhile, List.takeWhile_append_dropWhile]
    · cases h

theorem IsCaa.words (h : IsCaa flag tag content) : (flag ≠ [] ∧ ∀ c ∈ flag, isNameChar c = true)
    ∧ tag ≠ [] ∧ ∀ c ∈ tag, isNameChar c = true := by
  have hall : ∀ word ∈ ["0".toList, "128".toList, "issue".toList, "issuewild".toList,
      "iodef".toList], word ≠ [] ∧ word.all isNameChar = true := by decide
  have hflag := hall flag (by
    have := h.flag_mem
    simp only [List.mem_cons, List.not_mem_nil, or_false] at this ⊢
    exact this.elim .inl fun h => .inr (.inl h))
  have htag := hall tag (List.mem_cons_of_mem _ (List.mem_cons_of_mem _ h.tag_mem))
  exact ⟨⟨hflag.1, List.all_eq_true.mp hflag.2⟩, htag.1, List.all_eq_true.mp htag.2⟩

private theorem takeWhile_word {word rest : List Char} (hword : ∀ c ∈ word, isNameChar c = true) :
    (word ++ ' ' :: rest).takeWhile (fun c => !isSpace c) = word
      ∧ (word ++ ' ' :: rest).dropWhile (fun c => !isSpace c) = ' ' :: rest := by
  have hkeep : ∀ c ∈ word, (!isSpace c) = true := fun c hc => by
    rw [isSpace_of_isNameChar (hword c hc)]
    rfl
  have hblank : isSpace ' ' = true := by decide
  rw [List.takeWhile_append_of_pos hkeep, List.dropWhile_append_of_pos hkeep]
  simp [hblank]

private theorem dropWhile_blank {c : Char} {rest : List Char} (hc : isSpace c = false) :
    (' ' :: c :: rest).dropWhile isSpace = c :: rest := by
  have hblank : isSpace ' ' = true := by decide
  rw [List.dropWhile_cons_of_pos hblank, List.dropWhile_cons_of_neg (by simp [hc])]

/-- **The groups with single blanks between them match.** -/
theorem caaParts_of_isCaa (h : IsCaa flag tag content) :
    caaParts (flag ++ ' ' :: (tag ++ ' ' :: mark :: (content ++ [mark])))
      = some (flag, tag, content) := by
  obtain ⟨⟨-, hflag⟩, hne, htag⟩ := h.words
  obtain ⟨d, rest, rfl⟩ := List.exists_cons_of_ne_nil hne
  have hd : isSpace d = false := isSpace_of_isNameChar (htag d List.mem_cons_self)
  have hmark : isSpace mark = false := by decide
  unfold caaParts
  simp only [(takeWhile_word hflag).1, (takeWhile_word hflag).2]
  rw [show ' ' :: (d :: rest ++ ' ' :: mark :: (content ++ [mark]))
    = ' ' :: d :: (rest ++ ' ' :: mark :: (content ++ [mark])) from rfl, dropWhile_blank hd,
    ← List.cons_append]
  simp only [(takeWhile_word htag).1, (takeWhile_word htag).2, dropWhile_blank hmark,
    List.dropLast_concat, List.getLast?_concat]
  exact if_pos ⟨⟨h.flag_mem, h.tag_mem⟩, trivial, trivial, h.quoted, h.short⟩

end

/-- A value that does not end in a line break matches as a whole. -/
theorem caaMatch_eq_caaParts {text : List Char} (h : text.getLast? ≠ some '\n') :
    caaMatch text = caaParts text := by
  rw [caaMatch, if_neg h]
  cases caaParts text <;> rfl

theorem valueKept_CAA (hends : ∀ c ∈ value.toList.getLast?, isSpace c = false)
    (h : checkValue casing .CAA name value = .ok normal) :
    ValueKept casing .CAA name value normal := by
  have hline : ∀ text : List Char, (∀ c ∈ text.getLast?, isSpace c = false) →
      text.getLast? ≠ some '\n' := fun text hlast hno => absurd (hlast _ hno) (by decide)
  rw [checkValue, checkCaa, caaMatch_eq_caaParts (hline _ hends)] at h
  split at h
  · cases h
  · next flag tag content hmatch =>
    obtain rfl := (pure_eq_ok _ _).mp h
    obtain ⟨hcaa, blanks, blanks', hblanks, hblanks', htext⟩ := caaParts_eq_some hmatch
    obtain ⟨⟨hne, hflag⟩, -, htag⟩ := hcaa.words
    have hspace : isBreakOrControl ' ' = false := by decide
    have hmark : isBreakOrControl mark = false := by decide
    refine ⟨?_, fun _ => ?_⟩
    · -- before the first quotation mark stand the groups and blanks
      have hdrop : value.toList.dropWhile (· ≠ mark) = mark :: (content ++ [mark]) := by
        have hname : ∀ c, isNameChar c = true → decide (c ≠ mark) = true := fun c hc =>
          decide_eq_true fun heq => absurd (heq ▸ hc) (by decide)
        have hblank : ∀ c, isSpace c = true → decide (c ≠ mark) = true := fun c hc =>
          decide_eq_true fun heq => absurd (heq ▸ hc) (by decide)
        rw [htext, List.dropWhile_append_of_pos fun c hc => hname c (hflag c hc),
          List.dropWhile_append_of_pos fun c hc => hblank c (hblanks c hc),
          List.dropWhile_append_of_pos fun c hc => hname c (htag c hc),
          List.dropWhile_append_of_pos fun c hc => hblank c (hblanks' c hc)]
        simp
      show IsPlain (String.ofList _).toList ↔ IsPlain (value.toList.dropWhile (· ≠ mark))
      rw [hdrop, String.toList_ofList]
      simp only [IsPlain, List.forall_mem_append, List.forall_mem_cons, List.append_assoc,
        List.cons_append, hspace, hmark, true_and]
      exact (and_iff_right (isPlain_of_isNameChar hflag)).trans
        (and_iff_right (isPlain_of_isNameChar htag))
    · have hlist : (flag ++ ' ' :: tag ++ ' ' :: mark :: content ++ [mark])
          = flag ++ ' ' :: (tag ++ ' ' :: mark :: (content ++ [mark])) := by simp
      have hlast : ∀ c ∈ (flag ++ ' ' :: tag ++ ' ' :: mark :: content ++ [mark]).getLast?,
          isSpace c = false := by
        rw [List.getLast?_concat]
        rintro c hc
        cases hc
        decide
      have hstrip : strip (String.ofList (flag ++ ' ' :: tag ++ ' ' :: mark :: content ++ [mark]))
          = String.ofList (flag ++ ' ' :: tag ++ ' ' :: mark :: content ++ [mark]) := by
        refine strip_eq_self_of_ends (fun c hc => ?_) fun c hc => ?_
        · rw [String.toList_ofList, hlist] at hc
          obtain ⟨d, rest, rfl⟩ := List.exists_cons_of_ne_nil hne
          cases hc
          exact isSpace_of_isNameChar (hflag _ List.mem_cons_self)
        · rw [String.toList_ofList] at hc
          exact hlast c hc
      rw [hstrip, checkValue, checkCaa, String.toList_ofList, caaMatch_eq_caaParts (hline _ hlast),
        hlist, caaParts_of_isCaa hcaa]
      exact congrArg (fun text => Except.ok (String.ofList text)) hlist

/-! ### Records -/

/-- Whatever the type. -/
theorem valueKept_of_ok (h : checkValue casing kind name (strip value) = .ok normal) :
    ValueKept casing kind name (strip value) normal := by
  have hends := (ends_strip value).2
  cases kind with
  | A => exact valueKept_A h
  | AAAA => exact valueKept_AAAA hends h
  | CNAME => exact valueKept_CNAME h
  | MX => exact valueKept_MX h
  | TXT => exact valueKept_TXT (strip_strip value) h
  | SRV => exact valueKept_SRV h
  | CAA => exact valueKept_CAA hends h

variable {record : Record} {r : Normal}

theorem normalizeRecord_eq_ok : normalizeRecord casing domain record = .ok r
    ↔ checkKind (casing.upper record.type) = .ok r.kind
      ∧ checkName (shortName domain (typedName casing record.name)) = .ok r.name
      ∧ checkTtl record.ttl = .ok r.ttl
      ∧ checkValue casing r.kind r.name (strip record.value) = .ok r.value
      ∧ checkPriority r.kind record.priority = .ok r.priority := by
  simp only [normalizeRecord, bind_eq_ok, pure_eq_ok]
  constructor
  · rintro ⟨kind, hkind, name, hname, ttl, httl, value, hvalue, priority, hpriority, rfl⟩
    exact ⟨hkind, hname, httl, hvalue, hpriority⟩
  · rintro ⟨hkind, hname, httl, hvalue, hpriority⟩
    exact ⟨_, hkind, _, hname, _, httl, _, hvalue, _, hpriority, rfl⟩

theorem checkKind_text (kind : Kind) : checkKind (casing.upper kind.text) = .ok kind := by
  have hupper : casing.upper kind.text = kind.text :=
    casing.upper_eq_self _ (by cases kind <;> decide)
  rw [hupper]
  cases kind <;> decide

theorem checkTtl_again {ttl : Number} {n : ℤ} (h : checkTtl ttl = .ok n) :
    checkTtl (.int n) = .ok n := by
  unfold checkTtl at h
  split at h
  · cases h
  · obtain ⟨_, hrange, h⟩ := bind_eq_ok.mp h
    obtain rfl := (pure_eq_ok _ _).mp h
    exact bind_eq_ok.mpr ⟨⟨⟩, hrange, rfl⟩

theorem checkPriority_again {priority : Number}
    (h : checkPriority r.kind priority = .ok r.priority) :
    checkPriority r.kind r.record.priority = .ok r.priority := by
  unfold checkPriority at h ⊢
  by_cases hkind : r.kind = .MX ∨ r.kind = .SRV
  · rw [if_pos hkind] at h ⊢
    split at h
    · cases h
    · next n hread =>
      obtain ⟨_, hrange, h⟩ := bind_eq_ok.mp h
      have hpriority : r.priority = some n := ((pure_eq_ok _ _).mp h).symm
      have hagain : r.record.priority = .int n := by rw [Normal.record, hpriority]
      rw [hagain, hpriority]
      exact bind_eq_ok.mpr ⟨⟨⟩, hrange, rfl⟩
  · rw [if_neg hkind] at h ⊢
    exact h

/-- **A record that came out clean stays as it is exactly where its name does.** -/
theorem again_iff (h : normalizeRecord casing domain record = .ok r) (hname : IsZoneName r.name)
    (hplain : IsPlain r.value.toList) :
    normalizeRecord casing domain r.record = .ok r ↔ r.name = "@" ∨ ¬Within domain r.name := by
  obtain ⟨-, hchecked, httl, hvalue, hpriority⟩ := normalizeRecord_eq_ok.mp h
  have hshort : shortName domain (typedName casing r.name) = r.name ↔ _ :=
    shortName_eq_self_iff hname
  rw [← hshort, normalizeRecord_eq_ok]
  have hsame := (checkName_eq_ok.mp hchecked).1
  constructor
  · rintro ⟨-, hagain, -⟩
    exact (checkName_eq_ok.mp hagain).1.symm
  · intro hself
    refine ⟨checkKind_text r.kind, ?_, checkTtl_again httl,
      (valueKept_of_ok hvalue).2 hplain, checkPriority_again hpriority⟩
    show checkName (shortName domain (typedName casing r.name)) = .ok r.name
    rw [hself]
    rwa [← hsame] at hchecked

theorem raises_checkSrv (name value : String) : Raises (checkSrv casing name value) Reasoned := by
  have hports : ∀ port, Raises (isPort port) Reasoned := fun port e he =>
    .inl (isPort_eq_error.mp he).2
  rw [checkSrv]
  split
  · refine Raises.bind ?_ fun _ => (raises_ensure (reasoned_hostingError _)).bind fun _ =>
      (raises_ensure (reasoned_hostingError _)).bind fun _ => raises_pure _
    exact fun e he => .inl (arePorts_eq_error.mp he).2
  · exact raises_throw (reasoned_hostingError _)

/-- A value of another type than SRV is refused with a reason. -/
theorem raises_checkValue (hkind : kind ≠ .SRV) (name value : String) :
    Raises (checkValue casing kind name value) fun e => ∃ message, e = hostingError message := by
  have hhost : ∀ kind, Raises (checkHost casing kind value)
      fun e => ∃ message, e = hostingError message := fun kind =>
    (raises_ensure ⟨_, rfl⟩).bind fun _ => raises_pure _
  cases kind with
  | A | AAAA =>
    rw [checkValue]
    split
    · exact raises_throw ⟨_, rfl⟩
    · exact raises_pure _
  | CNAME =>
    exact (hhost _).bind fun _ => (raises_ensure ⟨_, rfl⟩).bind fun _ => raises_pure _
  | MX => exact hhost _
  | TXT => exact (raises_ensure ⟨_, rfl⟩).bind fun _ => raises_pure _
  | SRV => exact absurd rfl hkind
  | CAA =>
    rw [checkValue, checkCaa]
    split
    · exact raises_throw ⟨_, rfl⟩
    · exact raises_pure _

theorem raises_checkKind (type : String) :
    Raises (checkKind type) fun e => ∃ message, e = hostingError message := by
  unfold checkKind
  split
  · exact raises_pure _
  · exact raises_throw ⟨_, rfl⟩

theorem raises_checkName (name : String) :
    Raises (checkName name) fun e => ∃ message, e = hostingError message :=
  (raises_ensure ⟨_, rfl⟩).bind fun _ => raises_pure _

theorem raises_checkTtl (ttl : Number) :
    Raises (checkTtl ttl) fun e => ∃ message, e = hostingError message := by
  unfold checkTtl
  split
  · exact raises_throw ⟨_, rfl⟩
  · exact (raises_ensure ⟨_, rfl⟩).bind fun _ => raises_pure _

theorem raises_checkPriority (kind : Kind) (priority : Number) :
    Raises (checkPriority kind priority) fun e => ∃ message, e = hostingError message := by
  unfold checkPriority
  split
  · split
    · exact raises_throw ⟨_, rfl⟩
    · exact (raises_ensure ⟨_, rfl⟩).bind fun _ => raises_pure _
  · exact raises_pure _

/-- **An error gives a reason, or a number could not be read.** -/
theorem error_iff {e : Err} (h : normalizeRecord casing domain record = .error e) :
    (∃ message, e = hostingError message) ↔ ¬Unread casing domain record := by
  have hnot : ∀ {kind} name, checkKind (casing.upper record.type) = .ok kind →
      (kind = .SRV → checkSrv casing name (strip record.value) ≠ .error valueError) →
      ¬Unread casing domain record := fun name hkind hsrv hunread => by
    have hsame := Except.ok.inj (hkind.symm.trans hunread.1)
    exact hsrv hsame (checkSrv_eq_valueError.mpr hunread.2.2.2)
  rcases bind_eq_error.mp h with h | ⟨kind, hkind, h⟩
  · refine iff_of_true (raises_checkKind _ e h) fun hunread => ?_
    cases h.symm.trans hunread.1
  · rcases bind_eq_error.mp h with h | ⟨name, hname, h⟩
    · refine iff_of_true (raises_checkName _ e h) fun hunread => ?_
      have := hunread.2.1
      rw [h] at this
      cases this
    · rcases bind_eq_error.mp h with h | ⟨ttl, httl, h⟩
      · refine iff_of_true (raises_checkTtl _ e h) fun hunread => ?_
        have := hunread.2.2.1
        rw [h] at this
        cases this
      · rcases bind_eq_error.mp h with h | ⟨value, hvalue, h⟩
        · by_cases hsrv : kind = .SRV
          · subst hsrv
            have h : checkSrv casing name (strip record.value) = .error e := h
            rcases raises_checkSrv name _ e h with rfl | hreason
            · -- the number
              refine iff_of_false ?_ (not_not.mpr ⟨hkind, ?_, ?_, checkSrv_eq_valueError.mp h⟩)
              · rintro ⟨message, hmessage⟩
                exact hostingError_ne_valueError message hmessage.symm
              · rw [hname]
                rfl
              · rw [httl]
                rfl
            · refine iff_of_true hreason (hnot name hkind fun _ hvalue => ?_)
              obtain ⟨message, rfl⟩ := hreason
              exact hostingError_ne_valueError message (Except.error.inj (h.symm.trans hvalue))
          · exact iff_of_true (raises_checkValue hsrv _ _ e h)
              (hnot name hkind fun heq => absurd heq hsrv)
        · have hpriority : checkPriority kind record.priority = .error e :=
            bind_pure_eq_error.mp h
          refine iff_of_true (raises_checkPriority _ _ e hpriority)
            (hnot name hkind fun heq hstrange => ?_)
          subst heq
          have hvalue : checkSrv casing name (strip record.value) = .ok value := hvalue
          cases hvalue.symm.trans hstrange

/-- What is asked of a record that is accepted. -/
def CleanRecord (casing : Casing) (domain : String) (record : Record) : Prop :=
  CleanName casing domain record.name ∧ ∀ kind, checkKind (casing.upper record.type) = .ok kind →
    CleanValue casing kind (strip record.value)

/-- An accepted record is kept exactly where what was typed is clean. -/
theorem accepted_iff (h : normalizeRecord casing domain record = .ok r) :
    (IsZoneName r.name ∧ IsPlain r.value.toList ∧ normalizeRecord casing domain r.record = .ok r)
      ↔ CleanRecord casing domain record := by
  obtain ⟨hkind, hname, -, hvalue, -⟩ := normalizeRecord_eq_ok.mp h
  have hsame := (checkName_eq_ok.mp hname).1
  rw [← hsame] at hname
  have hcleanValue : (∀ kind, checkKind (casing.upper record.type) = .ok kind →
      CleanValue casing kind (strip record.value)) ↔ IsPlain r.value.toList := by
    rw [(valueKept_of_ok hvalue).1]
    constructor
    · exact fun hall => hall _ hkind
    · intro hclean kind hkind'
      cases hkind.symm.trans hkind'
      exact hclean
  rw [CleanRecord, cleanName_iff, ← hsame, hcleanValue]
  constructor
  · rintro ⟨hzone, hplain, hagain⟩
    refine ⟨?_, hplain⟩
    rcases (again_iff h hzone hplain).mp hagain with hat | hwithin
    · exact .inl hat
    · exact .inr ⟨newline_of_isPlain
        (isPlain_of_isNameChar (isNameChar_of_isZoneName hzone)), hwithin⟩
  · rintro ⟨hclean, hplain⟩
    have hzone : IsZoneName r.name := by
      rcases hclean with hat | hclean
      · exact .inl hat
      · exact isZoneName_of_checked hname hclean.1
    exact ⟨hzone, hplain, (again_iff h hzone hplain).mpr (hclean.imp_right (·.2))⟩

/-! ### Domain names -/

theorem cleanDomain_eq_ok {accepted : String} : cleanDomain casing name = .ok accepted
    ↔ accepted = rstrip '.' (casing.lower (strip name))
      ∧ matchesLine domainPattern accepted = true := by
  simp only [cleanDomain, bind_eq_ok, ensure_eq_ok, pure_eq_ok]
  constructor
  · rintro ⟨_, hmatch, rfl⟩
    exact ⟨rfl, hmatch⟩
  · rintro ⟨rfl, hmatch⟩
    exact ⟨⟨⟩, hmatch, rfl⟩

/-- The characters of a domain name that has no line break. -/
theorem domain_of_pattern {domain : List Char} (h : domainPattern domain = true) :
    ∀ c ∈ domain, isLowerOrDigit c = true ∨ c = '-' ∨ c = '.' := by
  simp only [domainPattern, Bool.and_eq_true, decide_eq_true_eq] at h
  obtain ⟨⟨⟨-, hlabels⟩, hfront⟩, hlast⟩ := h
  have hparts : ∀ part ∈ domain.splitOn '.', ∀ c ∈ part,
      isLowerOrDigit c = true ∨ c = '-' ∨ c = '.' := by
    rcases List.eq_nil_or_concat (domain.splitOn '.') with hnil | ⟨front, last, hconcat⟩
    · rw [hnil] at hlabels
      exact absurd hlabels (by decide)
    · rw [hconcat, List.concat_eq_append] at hfront hlast ⊢
      rw [List.dropLast_concat, List.all_eq_true] at hfront
      rw [List.getLastD_concat] at hlast
      refine List.forall_mem_append.mpr ⟨fun part hpart => ?_,
        List.forall_mem_singleton.mpr ?_⟩
      · refine (forall_mem_of_flanked (hfront part hpart) (fun c hc => .inl hc) (fun c hc => ?_)
          fun c hc => .inl hc).2
        rw [Bool.or_eq_true, decide_eq_true_eq] at hc
        exact hc.imp_right .inl
      · simp only [Bool.or_eq_true, Bool.and_eq_true, decide_eq_true_eq, List.all_eq_true] at hlast
        rcases hlast with ⟨-, hletters⟩ | ⟨⟨⟨hbegins, -⟩, -⟩, hrest⟩
        · intro c hc
          rw [isLowerOrDigit, hletters c hc]
          exact .inl rfl
        · obtain ⟨rest, rfl⟩ := List.isPrefixOf_iff_prefix.mp hbegins
          refine List.forall_mem_append.mpr ⟨?_, fun c hc => ?_⟩
          · simp only [List.forall_mem_cons]
            exact ⟨.inl (by decide), .inl (by decide), .inr (.inl trivial), .inr (.inl trivial),
              fun c hc => absurd hc List.not_mem_nil⟩
          · exact (hrest c hc).imp_right .inl
  have hjoin : ['.'].intercalate (domain.splitOn '.') = domain := List.intercalate_splitOn '.'
  rw [← hjoin]
  exact forall_mem_intercalate (.inr (.inr rfl)) hparts

/-- **A domain name is kept where what was typed has no line break.** -/
theorem domainKept_iff : DomainKept casing name
    ↔ ((cleanDomain casing name).isOk = true → '\n' ∉ (casing.lower (strip name)).toList) := by
  have hmem : '\n' ∈ (rstrip '.' (casing.lower (strip name))).toList
      ↔ '\n' ∈ (casing.lower (strip name)).toList := mem_rstrip_iff (by decide)
  rw [← hmem]
  constructor
  · intro h hok hline
    cases haccepted : cleanDomain casing name with
    | error e =>
      rw [haccepted] at hok
      cases hok
    | ok accepted =>
      obtain ⟨rfl, -⟩ := cleanDomain_eq_ok.mp haccepted
      exact absurd (h _ haccepted _ hline) (by decide)
  · intro h accepted haccepted
    obtain ⟨rfl, hmatch⟩ := cleanDomain_eq_ok.mp haccepted
    refine domain_of_pattern (line_of_matchesLine hmatch (h ?_))
    rw [haccepted]
    rfl

end

/-- **A record is refused with a reason or comes out clean and stays as it is, and a domain name is
    clean, exactly where** the check comes upon no number it cannot read, what is typed of a record
    that is accepted is clean, and the domain name that is accepted has no line break in it. -/
theorem normalized_iff (casing : Casing) (domain : String) (record : Record) (name : String) :
    (Kept casing domain record ∧ DomainKept casing name)
      ↔ (¬Unread casing domain record
          ∧ ((normalizeRecord casing domain record).isOk = true →
            CleanRecord casing domain record))
        ∧ ((cleanDomain casing name).isOk = true → '\n' ∉ (casing.lower (strip name)).toList) := by
  refine and_congr ?_ domainKept_iff
  unfold Kept
  cases h : normalizeRecord casing domain record with
  | error e =>
    refine (error_iff h).trans (and_iff_left fun hok => ?_).symm
    cases hok
  | ok r =>
    have hread : ¬Unread casing domain record := by
      intro hunread
      obtain ⟨hkind, -, -, hvalue, -⟩ := normalizeRecord_eq_ok.mp h
      have hsrv := Except.ok.inj (hkind.symm.trans hunread.1)
      rw [hsrv] at hvalue
      have hvalue : checkSrv casing r.name (strip record.value) = .ok r.value := hvalue
      cases hvalue.symm.trans (checkSrv_eq_valueError.mpr hunread.2.2.2)
    rw [and_iff_right hread]
    exact (accepted_iff h).trans (imp_iff_right rfl).symm

/-! ### Letters of ASCII -/

private theorem toLower_of_not_isUpper {c : Char} (h : c.isUpper = false) : c.toLower = c := by
  unfold Char.toLower
  rw [dif_neg]
  intro hupper
  simp only [isUpper_eq, decide_eq_false_iff_not] at h
  exact h hupper

private theorem toUpper_of_not_isLower {c : Char} (h : c.isLower = false) : c.toUpper = c := by
  unfold Char.toUpper
  rw [dif_neg]
  intro hlower
  simp only [isLower_eq, Bool.and_eq_false_iff, decide_eq_false_iff_not] at h
  exact h.elim (fun hno => hno hlower.1) fun hno => hno hlower.2

private theorem map_eq_self {s : String} {f p : Char → Bool} {g : Char → Char}
    (hg : ∀ c, p c = false → g c = c)
    (h : s.toList.all (fun c => f c && !p c) = true) : String.ofList (s.toList.map g) = s := by
  have hmap : s.toList.map g = s.toList := by
    conv_rhs => rw [← List.map_id s.toList]
    refine List.map_congr_left fun c hc => hg c ?_
    have hc := List.all_eq_true.mp h c hc
    rw [Bool.and_eq_true, Bool.not_eq_true'] at hc
    exact hc.2
  rw [hmap, String.ofList_toList]

private theorem newline_of_toLower {s : String} (h : '\n' ∈ (lower s).toList) :
    '\n' ∈ s.toList := by
  rw [lower, String.toList_ofList] at h
  obtain ⟨c, hc, hline⟩ := List.mem_map.mp h
  by_cases hupper : c.isUpper = true
  · -- a capital letter becomes a small one
    exfalso
    have hval := congrArg (fun c : Char => c.val.toNat) hline
    simp only [isUpper_eq, decide_eq_true_eq, UInt32.le_iff_toNat_le] at hupper
    have hletters : 'A'.val.toNat = 65 ∧ 'Z'.val.toNat = 90 := ⟨rfl, rfl⟩
    have hbreak : '\n'.val.toNat = 10 := rfl
    have hshift : ('a'.val - 'A'.val).toNat = 32 := rfl
    unfold Char.toLower at hval
    rw [dif_pos ⟨UInt32.le_iff_toNat_le.mpr hupper.1, UInt32.le_iff_toNat_le.mpr hupper.2⟩] at hval
    simp only [UInt32.toNat_add] at hval
    omega
  · rw [toLower_of_not_isUpper (Bool.eq_false_iff.mpr hupper)] at hline
    rwa [← hline]

/-- `lower` and `upper` on letters of ASCII. -/
def asciiCasing : Casing where
  lower := lower
  upper := upper
  lower_eq_self _ h := map_eq_self (fun _ => toLower_of_not_isUpper) h
  upper_eq_self _ h := map_eq_self (fun _ => toUpper_of_not_isLower) h
  newline_of_lower _ h := newline_of_toLower h

/-- An address for a name. -/
def addressRecord (name : String) : Record :=
  { type := "A", name := name, value := "203.0.113.10", ttl := .text "14400" }

example : normalizeRecord asciiCasing "example.com" (addressRecord "Blog.example.com.")
    = .ok ⟨.A, "blog", "203.0.113.10", 14400, none⟩ := by decide +kernel

/-- **A name with a line break before its last dot is accepted with the line break; one that ends in
    the domain twice is another name when it is normalized again; a port that is written as a raised
    number raises `ValueError`; and a domain name with a line break before its last dot is
    accepted.** -/
theorem not_normalized_newline :
    ¬Kept asciiCasing "example.com" (addressRecord "a\n.")
      ∧ ¬Kept asciiCasing "example.com" (addressRecord "a.example.com.example.com")
      ∧ ¬Kept asciiCasing "example.com"
        ⟨"SRV", "_sip._tcp", "5 ² sip.example.com", .int 300, .int 1⟩
      ∧ ¬DomainKept asciiCasing "example.com\n." := by
  have hline : normalizeRecord asciiCasing "example.com" (addressRecord "a\n.")
      = .ok ⟨.A, "a\n", "203.0.113.10", 14400, none⟩ := by decide +kernel
  have htwice : normalizeRecord asciiCasing "example.com"
      (addressRecord "a.example.com.example.com")
      = .ok ⟨.A, "a.example.com", "203.0.113.10", 14400, none⟩ := by decide +kernel
  have hagain : normalizeRecord asciiCasing "example.com"
      (Normal.record ⟨.A, "a.example.com", "203.0.113.10", 14400, none⟩)
      = .ok ⟨.A, "a", "203.0.113.10", 14400, none⟩ := by decide +kernel
  have hraises : normalizeRecord asciiCasing "example.com"
      ⟨"SRV", "_sip._tcp", "5 ² sip.example.com", .int 300, .int 1⟩ = .error valueError := by
    decide +kernel
  have hdomain : cleanDomain asciiCasing "example.com\n." = .ok "example.com\n" := by
    decide +kernel
  refine ⟨?_, ?_, ?_, ?_⟩
  · unfold Kept
    rw [hline]
    rintro ⟨hname, -⟩
    exact absurd (isNameChar_of_isZoneName hname '\n' (by decide)) (by decide)
  · unfold Kept
    rw [htwice]
    rintro ⟨-, -, hsame⟩
    rw [hagain] at hsame
    exact absurd hsame (by decide +kernel)
  · unfold Kept
    rw [hraises]
    rintro ⟨message, h⟩
    exact hostingError_ne_valueError message h.symm
  · intro h
    exact absurd (h _ hdomain '\n' (by decide)) (by decide)

end WPanel.Hosting.DnsRules
