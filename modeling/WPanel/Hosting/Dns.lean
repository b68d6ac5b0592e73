import Mathlib.Data.List.Nodup
import WPanel.Core
import WPanel.Lib.Machine

namespace WPanel.Hosting

open WPanel.Lib

/-!
# DNS records on a cPanel server

`hosting/adapters/cpanel_dns.py`.  WHM names a record by the line of the zone file it stands
on, and every change to the zone may move the lines.  The panel shows each record with an id
made of its line, its type and its name, and checks all three against a fresh dump before it
uses the line.

* `Zone`, `Change` — a zone file and what anyone may do to it;
* `listDnsRecords`, `updateDnsRecord`, `deleteDnsRecord` — what the panel does;
* `Spares` — a use of an id leaves every other record as it is;
* `Impostor` — another record has come to stand where the id points, with its type and name;
* `spares_iff` — the uses of a run spare every other record exactly when no use finds an
  impostor.

Which records a zone accepts (`normalize_record`) is a parameter: nothing depends on it.
-/

/-- The message of a `HostingError`. -/
abbrev HostingError := String

/-! ### Records -/

/-- The quotation mark around the value of a CAA record. -/
def quote : Char := Char.ofNat 34

/-- A record as `dumpzone` gives it, but for its line.  Text that is missing prints as
    `"None"`. -/
structure RawRecord where
  type : String
  name : String
  ttl : ℕ := 0
  address : String := ""
  cname : String := ""
  txtdata : List String := []
  exchange : String := ""
  preference : ℕ := 0
  weight : String := "None"
  port : String := "None"
  target : String := ""
  priority : ℕ := 0
  flag : String := "0"
  tag : String := "None"
  value : String := "None"
  deriving DecidableEq, Repr

/-- A record as the panel shows it. -/
structure DnsRecord where
  recordId : String
  type : String
  name : String
  value : String
  ttl : ℕ
  priority : Option ℕ := none
  deriving DecidableEq, Repr

/-- `_relative`: a name without its dots at the end and without the domain. -/
def relative (name domain : String) : String :=
  let name := lower (rstrip '.' name)
  if name = "" ∨ name = "@" ∨ name = domain then "@"
  else if endsWith name ("." ++ domain) then
    clip (name.toList.length - (domain.toList.length + 1)) name
  else name

/-- The value and the priority of a record, for the types the panel shows. -/
def RawRecord.shownValue (raw : RawRecord) : Option (String × Option ℕ) :=
  match upper raw.type with
  | "A" | "AAAA" => some (raw.address, none)
  | "CNAME" => some (rstrip '.' raw.cname, none)
  | "TXT" => some (String.join raw.txtdata, none)
  | "MX" => some (rstrip '.' raw.exchange, some raw.preference)
  | "SRV" => some (raw.weight ++ " " ++ raw.port ++ " " ++ rstrip '.' raw.target, some raw.priority)
  | "CAA" => 
    let mark := String.singleton quote
    some (raw.flag ++ " " ++ raw.tag ++ " " ++ mark ++ raw.value ++ mark, none)
  | _ => none

/-- `_to_record`: the record on this line of the zone, with its id. -/
def toRecord (domain : String) (line : ℕ) (raw : RawRecord) : Option DnsRecord :=
  let kind := upper raw.type
  let name := relative raw.name domain
  raw.shownValue.map fun (value, priority) =>
    { recordId := toString line ++ ":" ++ kind ++ ":" ++ name, type := kind, name, value
      ttl := if raw.ttl = 0 then 14400 else raw.ttl, priority }

/-- What `normalize_record` makes of a record. -/
structure Normal where
  kind : String
  name : String
  value : String
  ttl : ℕ
  priority : Option ℕ
  deriving DecidableEq, Repr

/-- `_fields`: the record WHM writes.  The name is sent in full, with a dot at the end. -/
def Normal.fields (n : Normal) (domain : String) : RawRecord :=
  let name := (if n.name = "@" then domain else n.name ++ "." ++ domain) ++ "."
  let raw : RawRecord := { type := n.kind, name, ttl := n.ttl }
  match n.kind with
  | "A" | "AAAA" => { raw with address := n.value }
  | "CNAME" => { raw with cname := n.value }
  | "TXT" => { raw with txtdata := [n.value] }
  | "MX" => { raw with exchange := n.value, preference := n.priority.getD 0 }
  | "SRV" =>
    let (weight, rest) := partition ' ' n.value
    let (port, target) := partition ' ' rest
    { raw with priority := n.priority.getD 0, weight, port, target }
  | "CAA" =>
    let (flag, rest) := partition ' ' n.value
    let (tag, quoted) := partition ' ' rest
    let value := rstrip quote (String.ofList (quoted.toList.dropWhile (· = quote)))
    { raw with flag, tag, value }
  | _ => raw

/-! ### The zone file -/

/-- A record in a zone file.  `key` says which record it is, through every change to the file;
    no one sees it. -/
structure Entry where
  key : ℕ
  raw : RawRecord
  /-- How many lines of the file lie between its own and that of the next record, and one. -/
  height : ℕ
  height_pos : 0 < height
  /-- How often it was written over. -/
  edits : ℕ := 0
  deriving DecidableEq, Repr

/-- The records from line `line` on, each with its own line. -/
def numbered : ℕ → List Entry → List (ℕ × Entry)
  | _, [] => []
  | line, e :: rest => (line, e) :: numbered (line + e.height) rest

/-- `dumpzone`. -/
def dump (entries : List Entry) : List (ℕ × Entry) := numbered 1 entries

/-- `removezonerecord`: delete the record on this line. -/
def removeZoneRecord (line : String) (entries : List Entry) : List Entry :=
  ((dump entries).filter fun p => toString p.1 ≠ line).map Prod.snd

/-- The record, written over. -/
def Entry.edited (e : Entry) (raw : RawRecord) (more : ℕ) : Entry :=
  { e with raw, height := more + 1, height_pos := Nat.succ_pos more, edits := e.edits + 1 }

/-- `editzonerecord`: write over the record on this line. -/
def editZoneRecord (line : String) (raw : RawRecord) (entries : List Entry) : List Entry :=
  (dump entries).map fun p => if toString p.1 = line then p.2.edited raw 0 else p.2

/-- A zone, and the ids that were shown, each with the record it was issued for. -/
structure Zone where
  entries : List Entry
  nextKey : ℕ
  shown : List (String × ℕ) := []
  deriving DecidableEq, Repr

/-- The zone with a new record at this place. -/
def Zone.withRecord (z : Zone) (place : ℕ) (raw : RawRecord) (more : ℕ) : Zone where
  entries := z.entries.take place
    ++ ⟨z.nextKey, raw, more + 1, Nat.succ_pos more, 0⟩ :: z.entries.drop place
  nextKey := z.nextKey + 1
  shown := z.shown

/-- What anyone may do to a zone; the lines that follow move. -/
inductive Change where
  | add (place : ℕ) (raw : RawRecord) (more : ℕ)
  | edit (key : ℕ) (raw : RawRecord) (more : ℕ)
  | remove (key : ℕ)
  /-- The file is written again in another order. -/
  | arrange (entries : List Entry)

def Change.apply (c : Change) (z : Zone) : Zone :=
  match c with
  | .add place raw more => z.withRecord place raw more
  | .edit key raw more =>
    { z with entries := z.entries.map fun e => if e.key = key then e.edited raw more else e }
  | .remove key => { z with entries := z.entries.filter (·.key ≠ key) }
  | .arrange entries => if entries.Perm z.entries then { z with entries } else z

/-! ### What the panel does -/

/-- One zone of an account, as the adapter knows it. -/
structure Hosted where
  domain : String
  /-- The domain is one of the account's own (`_owned_domain`). -/
  owned : Bool
  normalizeRecord : DnsRecord → Except HostingError Normal

def requireOwned (h : Hosted) : Except HostingError Unit :=
  ensure (h.owned = true) "That domain is not on this account."

/-- The records of the zone that the panel shows. -/
def listDnsRecords (h : Hosted) (z : Zone) : Except HostingError (List DnsRecord) := do
  requireOwned h
  return (dump z.entries).filterMap fun p => toRecord h.domain p.1 p.2.raw

/-- Each id that is shown, with the record it stands for. -/
def shownIds (h : Hosted) (z : Zone) : List (String × ℕ) :=
  (dump z.entries).filterMap fun p =>
    (toRecord h.domain p.1 p.2.raw).map fun record => (record.recordId, p.2.key)

/-- The line, the type and the name an id is made of. -/
def idParts (recordId : String) : String × String × String :=
  let (line, rest) := partition ':' recordId
  (line, partition ':' rest)

/-- The record on this line is of the type and the name of the id. -/
def answers (domain recordId : String) (line : ℕ) (raw : RawRecord) : Prop :=
  toString line = (idParts recordId).1 ∧ upper raw.type = (idParts recordId).2.1
    ∧ relative raw.name domain = (idParts recordId).2.2

instance (domain recordId : String) (line : ℕ) (raw : RawRecord) :
    Decidable (answers domain recordId line raw) :=
  inferInstanceAs (Decidable (_ ∧ _ ∧ _))

/-- `_line_of`: the line an id points at, if it still holds such a record. -/
def lineOf (domain recordId : String) (entries : List Entry) : Except HostingError String :=
  ensure (∃ p ∈ dump entries, answers domain recordId p.1 p.2.raw)
    "The DNS zone changed since you opened it. Reload the page and try again."
  >>= fun _ => .ok (idParts recordId).1

def addDnsRecord (h : Hosted) (record : DnsRecord) (z : Zone) : Except HostingError Zone := do
  requireOwned h
  let n ← h.normalizeRecord record
  return z.withRecord z.entries.length (n.fields h.domain) 0

def updateDnsRecord (h : Hosted) (record : DnsRecord) (z : Zone) : Except HostingError Zone := do
  requireOwned h
  let n ← h.normalizeRecord record
  let line ← lineOf h.domain record.recordId z.entries
  ensure ((idParts record.recordId).2.1 = n.kind)
    "The type of a record cannot be changed. Add a new record instead."
  return { z with entries := editZoneRecord line (n.fields h.domain) z.entries }

def deleteDnsRecord (h : Hosted) (recordId : String) (z : Zone) : Except HostingError Zone := do
  requireOwned h
  let line ← lineOf h.domain recordId z.entries
  return { z with entries := removeZoneRecord line z.entries }

/-- What happens to a zone: anyone changes it, and the panel lists it and uses the ids it
    showed.  `key` is the record the id was issued for. -/
inductive Act where
  | change (c : Change)
  | list
  | add (record : DnsRecord)
  | update (record : DnsRecord) (key : ℕ)
  | delete (recordId : String) (key : ℕ)

/-- The id was shown for this record. -/
def requireShown (recordId : String) (key : ℕ) (z : Zone) : Except HostingError Unit :=
  ensure ((recordId, key) ∈ z.shown) "No such id was shown."

def Act.exec (h : Hosted) (a : Act) (z : Zone) : Except HostingError Zone :=
  match a with
  | .change c => .ok (c.apply z)
  | .list => (listDnsRecords h z).map fun _ => { z with shown := z.shown ++ shownIds h z }
  | .add record => addDnsRecord h record z
  | .update record key => do
    requireShown record.recordId key z
    updateDnsRecord h record z
  | .delete recordId key => do
    requireShown recordId key z
    deleteDnsRecord h recordId z

/-- A zone and everything done to it. -/
def zoneMachine (h : Hosted) : Machine Zone Act Unit HostingError :=
  ⟨fun a z => (a.exec h z).map fun z => (z, [])⟩

/-- A zone that no one has looked at yet: its records, each with the number of lines between its
    own line and the next record. -/
def Zone.of (records : List (RawRecord × ℕ)) : Zone where
  entries := records.zipIdx.map fun ((raw, more), key) => ⟨key, raw, more + 1, Nat.succ_pos more, 0⟩
  nextKey := records.length

/-! ### Lines -/

section

variable {entries : List Entry} {e f : Entry} {n m : ℕ}

theorem numbered_snd (start : ℕ) : (numbered start entries).map Prod.snd = entries := by
  induction entries generalizing start with
  | nil => rfl
  | cons e rest ih => exact congrArg (e :: ·) (ih _)

theorem le_of_mem_numbered {start : ℕ} (h : (n, e) ∈ numbered start entries) : start ≤ n := by
  induction entries generalizing start with
  | nil => cases h
  | cons f rest ih =>
    rcases List.mem_cons.mp h with h | h
    · cases h
      exact le_refl _
    · have := ih h
      omega

/-- Two records do not stand on one line. -/
theorem numbered_line_inj {start : ℕ} (he : (n, e) ∈ numbered start entries)
    (hf : (n, f) ∈ numbered start entries) : e = f := by
  induction entries generalizing start with
  | nil => cases he
  | cons g rest ih =>
    have hpos := g.height_pos
    rcases List.mem_cons.mp he with he | he <;> rcases List.mem_cons.mp hf with hf | hf
    · cases he
      cases hf
      rfl
    · cases he
      have := le_of_mem_numbered hf
      omega
    · cases hf
      have := le_of_mem_numbered he
      omega
    · exact ih he hf

theorem mem_dump (he : e ∈ entries) : ∃ n, (n, e) ∈ dump entries := by
  have : e ∈ (dump entries).map Prod.snd := by rwa [dump, numbered_snd]
  obtain ⟨⟨n, e'⟩, hmem, rfl⟩ := List.mem_map.mp this
  exact ⟨n, hmem⟩

theorem mem_of_dump (he : (n, e) ∈ dump entries) : e ∈ entries := by
  have : e ∈ (dump entries).map Prod.snd := List.mem_map_of_mem he
  rwa [dump, numbered_snd] at this

theorem dump_line_inj (he : (n, e) ∈ dump entries) (hf : (m, f) ∈ dump entries)
    (h : toString n = toString m) : e = f := by
  cases toString_inj h
  exact numbered_line_inj he hf

/-- Deleting a line leaves the records of the other lines. -/
theorem mem_removeZoneRecord {line : String} :
    e ∈ removeZoneRecord line entries ↔ ∃ n, (n, e) ∈ dump entries ∧ toString n ≠ line := by
  simp only [removeZoneRecord, List.mem_map, List.mem_filter, ne_eq, decide_not,
    Bool.not_eq_true', decide_eq_false_iff_not, Prod.exists, exists_eq_right]

/-- Writing over a line leaves the records of the other lines. -/
theorem mem_editZoneRecord {line : String} {raw : RawRecord} :
    e ∈ editZoneRecord line raw entries ↔ (∃ n, (n, e) ∈ dump entries ∧ toString n ≠ line)
      ∨ ∃ n f, (n, f) ∈ dump entries ∧ toString n = line ∧ e = f.edited raw 0 := by
  simp only [editZoneRecord, List.mem_map, Prod.exists]
  constructor
  · rintro ⟨n, f, hmem, hf⟩
    split at hf
    · next hline => exact .inr ⟨n, f, hmem, hline, hf.symm⟩
    · next hline => exact .inl ⟨n, hf ▸ hmem, hline⟩
  · rintro (⟨n, hmem, hline⟩ | ⟨n, f, hmem, hline, rfl⟩)
    · exact ⟨n, e, hmem, if_neg hline⟩
    · exact ⟨n, f, hmem, if_pos hline⟩

end

/-! ### What a use of an id does -/

/-- The records of a zone are told apart by their keys. -/
structure Zone.Keyed (z : Zone) : Prop where
  nodup : (z.entries.map (·.key)).Nodup
  fresh : ∀ e ∈ z.entries, e.key < z.nextKey

/-- The record a use is meant for, with its id. -/
def Act.target : Act → Option (String × ℕ)
  | .update record key => some (record.recordId, key)
  | .delete recordId key => some (recordId, key)
  | _ => none

/-- A use of an id leaves every record but the one the id was issued for as it was: none of
    them is deleted or written over. -/
def Spares (z : Zone) (a : Act) (z' : Zone) : Prop :=
  ∀ target ∈ a.target, ∀ e ∈ z.entries, e.key ≠ target.2 → e ∈ z'.entries

/-- Another record stands on the line of the id, with the type and the name of the id. -/
def Impostor (h : Hosted) (z : Zone) (a : Act) : Prop :=
  ∃ target ∈ a.target, ∃ p ∈ dump z.entries,
    p.2.key ≠ target.2 ∧ answers h.domain target.1 p.1 p.2.raw

section

variable {h : Hosted} {z z' : Zone} {a : Act}

theorem Zone.Keyed.inj (hz : z.Keyed) {e f : Entry} (he : e ∈ z.entries) (hf : f ∈ z.entries)
    (hkey : e.key = f.key) : e = f :=
  List.inj_on_of_nodup_map hz.nodup he hf hkey

theorem lineOf_eq_ok {domain recordId line : String} {entries : List Entry}
    (h : lineOf domain recordId entries = .ok line) :
    line = (idParts recordId).1
      ∧ ∃ p ∈ dump entries, answers domain recordId p.1 p.2.raw := by
  simp only [lineOf, bind_eq_ok, ensure_eq_ok, exists_const] at h
  obtain ⟨hfound, hline⟩ := h
  exact ⟨(Except.ok.inj hline).symm, hfound⟩

/-- A use that is not refused finds a record that answers to the id, and changes the line that
    record stands on. -/
theorem exec_target {target : String × ℕ} (hexec : a.exec h z = .ok z')
    (ht : a.target = some target) :
    (∃ p ∈ dump z.entries, answers h.domain target.1 p.1 p.2.raw)
      ∧ (z'.entries = removeZoneRecord (idParts target.1).1 z.entries
        ∨ ∃ raw, z'.entries = editZoneRecord (idParts target.1).1 raw z.entries) := by
  cases a with
  | change c => cases ht
  | list => cases ht
  | add record => cases ht
  | update record key =>
    cases ht
    simp only [Act.exec, updateDnsRecord, bind_eq_ok, requireShown, requireOwned, ensure_eq_ok,
      exists_and_left, exists_const, pure_eq_ok] at hexec
    obtain ⟨_, _, n, _, line, hline, _, rfl⟩ := hexec
    obtain ⟨rfl, hfound⟩ := lineOf_eq_ok hline
    exact ⟨hfound, .inr ⟨_, rfl⟩⟩
  | delete recordId key =>
    cases ht
    simp only [Act.exec, deleteDnsRecord, bind_eq_ok, requireShown, requireOwned, ensure_eq_ok,
      exists_and_left, exists_const, pure_eq_ok] at hexec
    obtain ⟨_, _, line, hline, rfl⟩ := hexec
    obtain ⟨rfl, hfound⟩ := lineOf_eq_ok hline
    exact ⟨hfound, .inl rfl⟩

/-- A record on another line is still there. -/
private theorem kept_of_line {line : String} {e : Entry} {n : ℕ}
    (hz' : z'.entries = removeZoneRecord line z.entries
      ∨ ∃ raw, z'.entries = editZoneRecord line raw z.entries)
    (he : (n, e) ∈ dump z.entries) (hline : toString n ≠ line) : e ∈ z'.entries := by
  rcases hz' with hz' | ⟨raw, hz'⟩ <;> rw [hz']
  · exact mem_removeZoneRecord.mpr ⟨n, he, hline⟩
  · exact mem_editZoneRecord.mpr (.inl ⟨n, he, hline⟩)

/-- The record on the line is gone, or written over. -/
private theorem lost_of_line {line : String} {e : Entry} {n : ℕ} (hz : z.Keyed)
    (hz' : z'.entries = removeZoneRecord line z.entries
      ∨ ∃ raw, z'.entries = editZoneRecord line raw z.entries)
    (he : (n, e) ∈ dump z.entries) (hline : toString n = line) : e ∉ z'.entries := by
  have hother : ¬∃ m, (m, e) ∈ dump z.entries ∧ toString m ≠ line := by
    rintro ⟨m, hm, hne⟩
    -- the keys tell the records apart, so that none stands on two lines
    have : n = m := by
      have hpair := List.Nodup.of_map _ hz.nodup
      have hsnd : (numbered 1 z.entries).map Prod.snd = z.entries := numbered_snd 1
      rw [← hsnd] at hpair
      exact congrArg Prod.fst (List.inj_on_of_nodup_map hpair he hm rfl)
    exact hne (this ▸ hline)
  rcases hz' with hz' | ⟨raw, hz'⟩ <;> rw [hz']
  · exact fun hmem => hother (mem_removeZoneRecord.mp hmem)
  · intro hmem
    rcases mem_editZoneRecord.mp hmem with hkept | ⟨m, f, hf, _, hedited⟩
    · exact hother hkept
    · have hkey : e.key = f.key := by rw [hedited]; rfl
      have hedits : e.edits = f.edits + 1 := by rw [hedited]; rfl
      rw [hz.inj (mem_of_dump he) (mem_of_dump hf) hkey] at hedits
      omega

/-- **A use that is not refused spares every other record exactly when it finds no
    impostor.** -/
theorem exec_spares_iff (hz : z.Keyed) (hexec : a.exec h z = .ok z') :
    Spares z a z' ↔ ¬Impostor h z a := by
  constructor
  · rintro hspares ⟨target, ht, ⟨n, e⟩, he, hkey, hline, _⟩
    exact lost_of_line hz (exec_target hexec ht).2 he hline
      (hspares target ht e (mem_of_dump he) hkey)
  · intro hnone target ht e he hkey
    obtain ⟨⟨⟨m, f⟩, hf, hanswers⟩, hz'⟩ := exec_target hexec ht
    obtain ⟨n, hn⟩ := mem_dump he
    refine kept_of_line hz' hn fun hline => hkey ?_
    -- the record that answers is the one the id was issued for, and no other is on its line
    have hf_key : f.key = target.2 := by
      by_contra hne
      exact hnone ⟨target, ht, (m, f), hf, hne, hanswers⟩
    rw [dump_line_inj hn hf (hline.trans hanswers.1.symm)]
    exact hf_key

private theorem keyed_withRecord (hz : z.Keyed) (place : ℕ) (raw : RawRecord) (more : ℕ) :
    (z.withRecord place raw more).Keyed := by
  have hsplit : (z.entries.take place ++ z.entries.drop place) = z.entries :=
    List.take_append_drop _ _
  constructor
  · show ((z.entries.take place ++ _ :: z.entries.drop place).map _).Nodup
    rw [(List.perm_middle.map _).nodup_iff, List.map_cons, hsplit, List.nodup_cons]
    refine ⟨fun hmem => ?_, hz.nodup⟩
    obtain ⟨e, he, hkey⟩ := List.mem_map.mp hmem
    exact absurd hkey (Nat.ne_of_lt (hz.fresh e he))
  · intro e he
    show e.key < z.nextKey + 1
    rcases List.mem_cons.mp (List.perm_middle.mem_iff.mp he) with rfl | he
    · exact Nat.lt_succ_self _
    · rw [hsplit] at he
      exact Nat.lt_succ_of_lt (hz.fresh e he)

/-- A change that keeps the keys in their order keeps the records told apart. -/
private theorem Keyed.of_keys (hz : z.Keyed) {entries : List Entry}
    (hkeys : (entries.map (·.key)).Sublist (z.entries.map (·.key))) :
    ({ z with entries } : Zone).Keyed := by
  refine ⟨hz.nodup.sublist hkeys, fun e he => ?_⟩
  obtain ⟨f, hf, hkey⟩ := List.mem_map.mp (hkeys.subset (List.mem_map_of_mem he))
  exact hkey ▸ hz.fresh f hf

private theorem keyed_removeZoneRecord (hz : z.Keyed) (line : String) :
    ({ z with entries := removeZoneRecord line z.entries } : Zone).Keyed := by
  refine Keyed.of_keys hz ?_
  have : (removeZoneRecord line z.entries).Sublist z.entries := by
    have := (List.filter_sublist (p := fun p : ℕ × Entry => decide (toString p.1 ≠ line))
      (l := dump z.entries)).map Prod.snd
    rwa [show (dump z.entries).map Prod.snd = z.entries from numbered_snd 1] at this
  exact this.map _

private theorem keyed_editZoneRecord (hz : z.Keyed) (line : String) (raw : RawRecord) :
    ({ z with entries := editZoneRecord line raw z.entries } : Zone).Keyed := by
  have hkeys : (editZoneRecord line raw z.entries).map (·.key) = z.entries.map (·.key) := calc
    (editZoneRecord line raw z.entries).map (·.key) = (dump z.entries).map (·.2.key) := by
      rw [editZoneRecord, List.map_map]
      refine List.map_congr_left fun p _ => ?_
      show Entry.key (if toString p.1 = line then p.2.edited raw 0 else p.2) = p.2.key
      split <;> rfl
    _ = ((dump z.entries).map Prod.snd).map (·.key) := by rw [List.map_map]; rfl
    _ = z.entries.map (·.key) := by rw [dump, numbered_snd]
  exact Keyed.of_keys hz (hkeys ▸ List.Sublist.refl _)

theorem keyed_exec (hz : z.Keyed) (hexec : a.exec h z = .ok z') : z'.Keyed := by
  cases a with
  | change c =>
    cases hexec
    cases c with
    | add place raw more => exact keyed_withRecord hz place raw more
    | edit key raw more =>
      have hkeys : (z.entries.map fun e => if e.key = key then e.edited raw more else e).map (·.key)
          = z.entries.map (·.key) := by
        rw [List.map_map]
        refine List.map_congr_left fun e _ => ?_
        show Entry.key (if e.key = key then e.edited raw more else e) = e.key
        split <;> rfl
      exact Keyed.of_keys hz (hkeys ▸ List.Sublist.refl _)
    | remove key => exact Keyed.of_keys hz (List.filter_sublist.map _)
    | arrange entries =>
      unfold Change.apply
      dsimp only
      split
      · next hperm =>
        exact ⟨((hperm.map _).nodup_iff).mpr hz.nodup, fun e he => hz.fresh e (hperm.mem_iff.mp he)⟩
      · exact hz
  | list =>
    simp only [Act.exec, map_eq_ok] at hexec
    obtain ⟨_, _, rfl⟩ := hexec
    exact ⟨hz.nodup, hz.fresh⟩
  | add record =>
    simp only [Act.exec, addDnsRecord, bind_eq_ok, requireOwned, ensure_eq_ok, exists_and_left,
      exists_const, pure_eq_ok] at hexec
    obtain ⟨_, n, _, rfl⟩ := hexec
    exact keyed_withRecord hz _ _ _
  | update record key =>
    simp only [Act.exec, updateDnsRecord, bind_eq_ok, requireShown, requireOwned, ensure_eq_ok,
      exists_and_left, exists_const, pure_eq_ok] at hexec
    obtain ⟨_, _, n, _, line, _, _, rfl⟩ := hexec
    exact keyed_editZoneRecord hz _ _
  | delete recordId key =>
    simp only [Act.exec, deleteDnsRecord, bind_eq_ok, requireShown, requireOwned, ensure_eq_ok,
      exists_and_left, exists_const, pure_eq_ok] at hexec
    obtain ⟨_, _, line, _, rfl⟩ := hexec
    exact keyed_removeZoneRecord hz _

theorem Zone.Keyed.of (records : List (RawRecord × ℕ)) : (Zone.of records).Keyed := by
  have hkeys : (Zone.of records).entries.map (·.key) = List.range records.length := by
    simp only [Zone.of, List.map_map]
    show records.zipIdx.map Prod.snd = _
    rw [List.zipIdx_map_snd, List.range_eq_range']
  refine ⟨hkeys ▸ List.nodup_range, fun e he => ?_⟩
  exact List.mem_range.mp (hkeys ▸ List.mem_map_of_mem he)

end

/-- **Whatever happens to a zone before, between and after, the uses of the ids it was shown
    with spare every other record exactly when no use finds an impostor.** -/
theorem spares_iff (h : Hosted) (records : List (RawRecord × ℕ)) (as : List Act) :
    (zoneMachine h).EachStep Spares as (Zone.of records)
      ↔ (zoneMachine h).EachStep (fun z a _ => ¬Impostor h z a) as (Zone.of records) := by
  have hexec : ∀ a z z' out, (zoneMachine h).Commits a z z' out → a.exec h z = .ok z' := by
    intro a z z' out hc
    obtain ⟨z₁, hz₁, heq⟩ := map_eq_ok.mp hc
    cases heq
    exact hz₁
  exact Machine.eachStep_iff_eachStep (I := Zone.Keyed)
    (fun a z z' out hz hc => keyed_exec hz (hexec a z z' out hc))
    (fun a z z' out hz hc => exec_spares_iff hz (hexec a z z' out hc)) as _ (.of records)

/-- A zone with two addresses for one name. -/
def twoAddresses : Zone := Zone.of [
  ({ type := "A", name := "example.com.", address := "203.0.113.1" }, 0),
  ({ type := "A", name := "example.com.", address := "203.0.113.2" }, 0)]

def exampleCom : Hosted where
  domain := "example.com"
  owned := true
  normalizeRecord _ := .error "Not used here."

/-- Both are shown and the first is deleted, so that the second moves up. -/
def shownAndMoved : List Act := [.list, .change (.remove 0)]

/-- The first is deleted again, from the page that was opened before. -/
def deletedAgain : Act := .delete "1:A:@" 0

/-- The second address is deleted. -/
theorem deletedAgain_not_spared :
    ¬(zoneMachine exampleCom).EachStep Spares (shownAndMoved ++ [deletedAgain]) twoAddresses := by
  intro hspares
  have hgone : let z := (zoneMachine exampleCom).run shownAndMoved twoAddresses
      ((zoneMachine exampleCom).exec deletedAgain z).isOk = true ∧ ∃ e ∈ z.entries,
        e.key ≠ 0 ∧ e ∉ ((zoneMachine exampleCom).next deletedAgain z).entries := by
    decide +kernel
  obtain ⟨hok, e, he, hkey, hnot⟩ := hgone
  exact hnot (Machine.EachStep.last hspares hok ("1:A:@", 0) rfl e he hkey)

end WPanel.Hosting
