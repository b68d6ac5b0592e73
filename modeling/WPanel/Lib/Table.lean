import Mathlib.Data.List.Sort

namespace WPanel.Lib

/-!
# Tables with serial primary keys

A database table whose rows are numbered as they are inserted.  A key is never used
twice: a deleted row leaves its place empty.

* `get?`, `insert`, `put`, `erase` — reading and writing one row, with the `get?_…` lemmas
  saying what every key reads afterwards;
* `entries` — the rows present with their keys, in key order, for queries;
* `Forall`, `AtMostOne` — a property of every row, and of no two of them, with one preservation
  lemma for each operation;
* `Related` — the same keys before and after, with rows related one by one;
* `count` — how many rows a test picks, and what writing one row changes about it;
* `tally` — how many rows a test picks that also sees the key.
-/

universe u

/-- Rows by primary key; `none` where a row was deleted. -/
structure Table (α : Type u) where
  rows : List (Option α) := []
  deriving DecidableEq, Repr

namespace Table

variable {α : Type u}

instance : Inhabited (Table α) := ⟨{}⟩

/-- The row with primary key `pk`. -/
def get? (t : Table α) (pk : Nat) : Option α := t.rows.getD pk none

/-- The key the next inserted row gets. -/
def nextPk (t : Table α) : Nat := t.rows.length

/-- Add a row under the next key. -/
def insert (t : Table α) (a : α) : Table α := ⟨t.rows ++ [some a]⟩

/-- Replace the row `pk`. -/
def put (t : Table α) (pk : Nat) (a : α) : Table α := ⟨t.rows.set pk (some a)⟩

/-- Delete the row `pk`. -/
def erase (t : Table α) (pk : Nat) : Table α := ⟨t.rows.set pk none⟩

/-- Delete the rows with these keys. -/
def eraseKeys (t : Table α) (pks : List Nat) : Table α :=
  ⟨t.rows.zipIdx.map fun (row, pk) => if pk ∈ pks then none else row⟩

/-- Add rows under the next keys. -/
def insertAll (t : Table α) (new : List α) : Table α := ⟨t.rows ++ new.map some⟩

/-- Every row present, with its key, in key order. -/
def entries (t : Table α) : List (Nat × α) :=
  t.rows.zipIdx.filterMap fun (row, pk) => row.map fun a => (pk, a)

/-- Change the rows `p` picks, as a database `UPDATE … WHERE` does. -/
def updateWhere (t : Table α) (p : α → Bool) (f : α → α) : Table α :=
  ⟨t.rows.map (Option.map fun a => if p a then f a else a)⟩

/-- Change the rows with these keys. -/
def updateKeys (t : Table α) (pks : List Nat) (f : α → α) : Table α :=
  ⟨t.rows.zipIdx.map fun (row, pk) => if pk ∈ pks then row.map f else row⟩

@[simp] theorem get?_empty (pk : Nat) : ({} : Table α).get? pk = none := by
  simp [get?]

/-- A row has a key below the next one. -/
theorem lt_nextPk {t : Table α} {pk : Nat} {a : α} (h : t.get? pk = some a) : pk < t.nextPk := by
  unfold get? nextPk at *
  by_cases hlt : pk < t.rows.length
  · exact hlt
  · rw [List.getD_eq_getElem?_getD, List.getElem?_eq_none (by omega)] at h
    cases h

@[simp] theorem get?_nextPk (t : Table α) : t.get? t.nextPk = none := by
  simp [get?, nextPk]

/-- A new row is found under the next key. -/
theorem get?_insert (t : Table α) (a : α) (pk : Nat) :
    (t.insert a).get? pk = if pk = t.nextPk then some a else t.get? pk := by
  unfold get? insert nextPk
  simp only [List.getD_eq_getElem?_getD, List.getElem?_append]
  rcases Nat.lt_trichotomy pk t.rows.length with h | h | h
  · rw [if_pos h, if_neg (by omega)]
  · subst h
    simp
  · rw [if_neg (by omega), if_neg (by omega), List.getElem?_eq_none (by simp; omega),
      List.getElem?_eq_none (by omega)]

@[simp] theorem get?_insert_self (t : Table α) (a : α) : (t.insert a).get? t.nextPk = some a := by
  rw [get?_insert, if_pos rfl]

theorem get?_insert_of_some {t : Table α} {a b : α} {pk : Nat} (h : t.get? pk = some b) :
    (t.insert a).get? pk = some b := by
  rw [get?_insert, if_neg (Nat.ne_of_lt (lt_nextPk h)), h]

@[simp] theorem nextPk_insert (t : Table α) (a : α) : (t.insert a).nextPk = t.nextPk + 1 := by
  simp [insert, nextPk]

@[simp] theorem nextPk_put (t : Table α) (pk : Nat) (a : α) : (t.put pk a).nextPk = t.nextPk := by
  simp [put, nextPk]

@[simp] theorem nextPk_erase (t : Table α) (pk : Nat) : (t.erase pk).nextPk = t.nextPk := by
  simp [erase, nextPk]

/-- Writing a row that exists changes that row only. -/
theorem get?_put {t : Table α} {pk : Nat} {b : α} (h : t.get? pk = some b) (a : α) (q : Nat) :
    (t.put pk a).get? q = if q = pk then some a else t.get? q := by
  have hlt : pk < t.rows.length := lt_nextPk h
  unfold get? put
  simp only [List.getD_eq_getElem?_getD, List.getElem?_set, hlt, if_true]
  by_cases hq : pk = q
  · rw [if_pos hq, if_pos hq.symm]
    rfl
  · rw [if_neg hq, if_neg (Ne.symm hq)]

theorem get?_put_self {t : Table α} {pk : Nat} {b : α} (h : t.get? pk = some b) (a : α) :
    (t.put pk a).get? pk = some a := by
  rw [get?_put h, if_pos rfl]

/-- A row with a property is found again when the row that is put has it too. -/
theorem exists_put {t : Table α} {P : α → Prop} {pk q : Nat} {a b : α} (h : t.get? pk = some a)
    (hkept : P a → P b) (hq : ∃ row, t.get? q = some row ∧ P row) :
    ∃ row, (t.put pk b).get? q = some row ∧ P row := by
  obtain ⟨row, hrow, hP⟩ := hq
  rw [get?_put h]
  split
  · next hsame =>
    rw [hsame, h] at hrow
    cases hrow
    exact ⟨b, rfl, hkept hP⟩
  · exact ⟨row, hrow, hP⟩

theorem get?_put_of_ne {t : Table α} {pk q : Nat} (hq : q ≠ pk) (a : α) :
    (t.put pk a).get? q = t.get? q := by
  unfold get? put
  simp only [List.getD_eq_getElem?_getD, List.getElem?_set, if_neg (Ne.symm hq)]

/-- What is found after a row was written is that row, or was found before. -/
theorem get?_put_cases {t : Table α} {pk q : Nat} {a b c : α} (h : t.get? pk = some b)
    (hq : (t.put pk a).get? q = some c) : (q = pk ∧ c = a) ∨ (q ≠ pk ∧ t.get? q = some c) := by
  rw [get?_put h] at hq
  split at hq
  · next hsame => exact .inl ⟨hsame, (Option.some.inj hq).symm⟩
  · next hother => exact .inr ⟨hother, hq⟩

@[simp] theorem nextPk_updateWhere (t : Table α) (p : α → Bool) (f : α → α) :
    (t.updateWhere p f).nextPk = t.nextPk := by
  simp [updateWhere, nextPk]

/-- An erased row is not found. -/
theorem get?_erase (t : Table α) (pk q : Nat) :
    (t.erase pk).get? q = if q = pk then none else t.get? q := by
  unfold get? erase
  simp only [List.getD_eq_getElem?_getD, List.getElem?_set]
  by_cases hq : pk = q
  · rw [if_pos hq, if_pos hq.symm]
    split <;> rfl
  · rw [if_neg hq, if_neg (Ne.symm hq)]

theorem get?_updateWhere (t : Table α) (p : α → Bool) (f : α → α) (pk : Nat) :
    (t.updateWhere p f).get? pk = (t.get? pk).map fun a => if p a then f a else a := by
  unfold get? updateWhere
  simp only [List.getD_eq_getElem?_getD, List.getElem?_map]
  cases t.rows[pk]? <;> rfl

/-- The rows of the keys are updated, and no others. -/
theorem get?_updateKeys (t : Table α) (pks : List Nat) (f : α → α) (pk : Nat) :
    (t.updateKeys pks f).get? pk = if pk ∈ pks then (t.get? pk).map f else t.get? pk := by
  unfold get? updateKeys
  simp only [List.getD_eq_getElem?_getD, List.getElem?_map, List.getElem?_zipIdx]
  cases t.rows[pk]? with
  | none => simp
  | some row =>
    simp only [Option.map_some, Option.getD_some, Nat.zero_add]

/-- No row of the erased keys is found. -/
theorem get?_eraseKeys (t : Table α) (pks : List Nat) (pk : Nat) :
    (t.eraseKeys pks).get? pk = if pk ∈ pks then none else t.get? pk := by
  unfold get? eraseKeys
  simp only [List.getD_eq_getElem?_getD, List.getElem?_map, List.getElem?_zipIdx]
  cases t.rows[pk]? with
  | none => simp
  | some row =>
    simp only [Option.map_some, Option.getD_some, Nat.zero_add]

@[simp] theorem nextPk_eraseKeys (t : Table α) (pks : List Nat) :
    (t.eraseKeys pks).nextPk = t.nextPk := by
  simp [eraseKeys, nextPk]

@[simp] theorem nextPk_insertAll (t : Table α) (new : List α) :
    (t.insertAll new).nextPk = t.nextPk + new.length := by
  simp [insertAll, nextPk]

/-- Rows that are added change no row that is there. -/
theorem get?_insertAll_of_lt {t : Table α} {pk : Nat} (h : pk < t.nextPk) (new : List α) :
    (t.insertAll new).get? pk = t.get? pk := by
  unfold get? insertAll
  rw [List.getD_eq_getElem?_getD, List.getD_eq_getElem?_getD, List.getElem?_append_left h]

/-- A row after an insertion was there, or is one of the new ones. -/
theorem get?_insertAll_eq_some {t : Table α} {new : List α} {pk : Nat} {a : α}
    (h : (t.insertAll new).get? pk = some a) :
    t.get? pk = some a ∨ (t.nextPk ≤ pk ∧ a ∈ new) := by
  by_cases hlt : pk < t.nextPk
  · rw [get?_insertAll_of_lt hlt] at h
    exact .inl h
  · right
    have hge : t.rows.length ≤ pk := Nat.le_of_not_lt hlt
    refine ⟨hge, ?_⟩
    unfold get? insertAll at h
    rw [List.getD_eq_getElem?_getD, List.getElem?_append_right hge, List.getElem?_map] at h
    cases hnew : new[pk - t.rows.length]? with
    | none => rw [hnew] at h; cases h
    | some b =>
      rw [hnew] at h
      cases h
      exact List.mem_of_getElem? hnew

/-- A key and a row are listed exactly when the key reads that row. -/
theorem mem_entries {t : Table α} {pk : Nat} {a : α} :
    (pk, a) ∈ t.entries ↔ t.get? pk = some a := by
  unfold entries get?
  rw [List.mem_filterMap, List.getD_eq_getElem?_getD]
  constructor
  · rintro ⟨⟨row, i⟩, hmem, hrow⟩
    cases row with
    | none => cases hrow
    | some b =>
      cases hrow
      rw [List.mem_zipIdx_iff_getElem?] at hmem
      simp [hmem]
  · intro h
    refine ⟨(some a, pk), ?_, rfl⟩
    rw [List.mem_zipIdx_iff_getElem?]
    cases hrow : t.rows[pk]? with
    | none => rw [hrow] at h; cases h
    | some row => rw [hrow] at h; cases h; rfl

/-- The rows are listed by their keys. -/
theorem pairwise_keys_entries (t : Table α) : (t.entries.map Prod.fst).Pairwise (· < ·) := by
  have hfrom : ∀ (rows : List (Option α)) (n : Nat),
      (((rows.zipIdx n).filterMap fun (row, pk) => row.map fun a => (pk, a)).map Prod.fst).Pairwise
          (· < ·)
        ∧ ∀ pk ∈ ((rows.zipIdx n).filterMap fun (row, pk) => row.map fun a => (pk, a)).map Prod.fst,
          n ≤ pk := by
    intro rows
    induction rows with
    | nil => exact fun n => ⟨.nil, fun pk h => by cases h⟩
    | cons row rows ih =>
      intro n
      obtain ⟨hsorted, hlower⟩ := ih (n + 1)
      rw [List.zipIdx_cons, List.filterMap_cons]
      cases row with
      | none => exact ⟨hsorted, fun pk hpk => Nat.le_of_succ_le (hlower pk hpk)⟩
      | some a =>
        refine ⟨List.pairwise_cons.mpr ⟨fun pk hpk => hlower pk hpk, hsorted⟩, fun pk hpk => ?_⟩
        rcases List.mem_cons.mp hpk with rfl | hpk
        · exact Nat.le_refl _
        · exact Nat.le_of_succ_le (hlower pk hpk)
  exact (hfrom t.rows 0).1

/-- No key is listed twice. -/
theorem nodup_keys_entries (t : Table α) : (t.entries.map Prod.fst).Nodup :=
  t.pairwise_keys_entries.imp Nat.ne_of_lt

/-- A new row stands where the old one stood. -/
theorem entries_put {t : Table α} {pk : Nat} {a : α} (h : t.get? pk = some a) (b : α) :
    ∃ before after, t.entries = before ++ (pk, a) :: after
      ∧ (t.put pk b).entries = before ++ (pk, b) :: after := by
  have hrow : t.rows[pk]? = some (some a) := by
    unfold get? at h
    rw [List.getD_eq_getElem?_getD] at h
    cases hrow : t.rows[pk]? with
    | none => rw [hrow] at h; cases h
    | some row => rw [hrow] at h; cases h; rfl
  obtain ⟨hlt, hget⟩ := List.getElem?_eq_some_iff.mp hrow
  have hsplit : t.rows = t.rows.take pk ++ some a :: t.rows.drop (pk + 1) := by
    rw [← hget, List.getElem_cons_drop, List.take_append_drop]
  have hset : t.rows.set pk (some b) = t.rows.take pk ++ some b :: t.rows.drop (pk + 1) := by
    rw [List.set_eq_take_append_cons_drop, if_pos hlt]
  have hlength : 0 + (t.rows.take pk).length = pk := by
    rw [List.length_take, Nat.min_eq_left (Nat.le_of_lt hlt), Nat.zero_add]
  refine ⟨((t.rows.take pk).zipIdx).filterMap fun (row, i) => row.map fun a => (i, a),
    ((t.rows.drop (pk + 1)).zipIdx (pk + 1)).filterMap fun (row, i) => row.map fun a => (i, a),
    ?_, ?_⟩
  · unfold entries
    conv => lhs; rw [hsplit]
    rw [List.zipIdx_append, List.filterMap_append, hlength, List.zipIdx_cons, List.filterMap_cons]
    rfl
  · unfold entries put
    rw [hset, List.zipIdx_append, List.filterMap_append, hlength, List.zipIdx_cons,
      List.filterMap_cons]
    rfl

/-- A query that cannot tell the new row from the old one reads the same. -/
theorem flatMap_entries_put {β : Type u} {t : Table α} {pk : Nat} {a b : α}
    {f : Nat × α → List β} (h : t.get? pk = some a) (hf : f (pk, b) = f (pk, a)) :
    (t.put pk b).entries.flatMap f = t.entries.flatMap f := by
  obtain ⟨before, after, hold, hnew⟩ := entries_put h b
  rw [hold, hnew, List.flatMap_append, List.flatMap_append, List.flatMap_cons, List.flatMap_cons,
    hf]

/-- A report reads the same where the new row is picked as the old one was, with the same
    value. -/
theorem map_filter_entries_put {β : Type u} {t : Table α} {pk : Nat} {a b : α}
    {p : Nat × α → Bool} {f : Nat × α → β} (h : t.get? pk = some a) (hp : p (pk, b) = p (pk, a))
    (hf : p (pk, a) = true → f (pk, b) = f (pk, a)) :
    ((t.put pk b).entries.filter p).map f = (t.entries.filter p).map f := by
  obtain ⟨before, after, hold, hnew⟩ := entries_put h b
  rw [hold, hnew, List.filter_append, List.filter_append, List.filter_cons, List.filter_cons, hp]
  split
  · next hpick => simp only [List.map_append, List.map_cons, hf hpick]
  · rfl

@[simp] theorem entries_insert (t : Table α) (a : α) :
    (t.insert a).entries = t.entries ++ [(t.nextPk, a)] := by
  unfold entries insert nextPk
  rw [List.zipIdx_append, List.filterMap_append]
  simp

/-- A query reads the same where the rows that it picks are the same. -/
theorem filter_entries_congr {t t' : Table α} {p : Nat × α → Bool}
    (h : ∀ pk a, p (pk, a) = true → (t'.get? pk = some a ↔ t.get? pk = some a)) :
    t'.entries.filter p = t.entries.filter p := by
  have hsorted : ∀ t : Table α, (t.entries.filter p).Pairwise fun a b => a.1 < b.1 :=
    fun t => (List.pairwise_map.mp t.pairwise_keys_entries).filter p
  have hirrefl : Std.Irrefl fun a b : Nat × α => a.1 < b.1 := ⟨fun a => Nat.lt_irrefl a.1⟩
  have hanti : Std.Antisymm fun a b : Nat × α => a.1 < b.1 :=
    ⟨fun a b hab hba => absurd hab (Nat.lt_asymm hba)⟩
  refine List.Pairwise.eq_of_mem_iff (hsorted t') (hsorted t) fun entry => ?_
  rw [List.mem_filter, List.mem_filter]
  refine and_congr_left fun hp => ?_
  rw [mem_entries, mem_entries]
  exact h entry.1 entry.2 hp

/-- So does a search. -/
theorem find?_entries_congr {t t' : Table α} {p : Nat × α → Bool}
    (h : ∀ pk a, p (pk, a) = true → (t'.get? pk = some a ↔ t.get? pk = some a)) :
    t'.entries.find? p = t.entries.find? p := by
  rw [← List.head?_filter, ← List.head?_filter, filter_entries_congr h]

/-- Updating rows keeps their order. -/
theorem entries_updateKeys (t : Table α) (pks : List Nat) (f : α → α) :
    (t.updateKeys pks f).entries
      = t.entries.map fun entry =>
          (entry.1, if entry.1 ∈ pks then f entry.2 else entry.2) := by
  have hfrom : ∀ (rows : List (Option α)) (n : Nat),
      (((rows.zipIdx n).map fun (row, pk) => if pk ∈ pks then row.map f else row).zipIdx
          n).filterMap (fun (row, pk) => row.map fun a => (pk, a))
        = ((rows.zipIdx n).filterMap fun (row, pk) => row.map fun a => (pk, a)).map
          fun entry => (entry.1, if entry.1 ∈ pks then f entry.2 else entry.2) := by
    intro rows
    induction rows with
    | nil => intro n; rfl
    | cons row rows ih =>
      intro n
      rw [List.zipIdx_cons, List.map_cons, List.zipIdx_cons, List.filterMap_cons,
        List.filterMap_cons]
      cases row with
      | none => simpa using ih (n + 1)
      | some a =>
        by_cases hn : n ∈ pks
        · simpa [hn] using ih (n + 1)
        · simpa [hn] using ih (n + 1)
  exact hfrom t.rows 0

/-- Every row satisfies `P`. -/
def Forall (P : Nat → α → Prop) (t : Table α) : Prop := ∀ pk a, t.get? pk = some a → P pk a

/-- A property of rows is checked on the rows present. -/
instance decidableForall (P : Nat → α → Prop) [∀ pk a, Decidable (P pk a)] (t : Table α) :
    Decidable (t.Forall P) :=
  decidable_of_iff (∀ entry ∈ t.entries, P entry.1 entry.2)
    ⟨fun h pk a hget => h (pk, a) (mem_entries.mpr hget), fun h entry hentry =>
      h entry.1 entry.2 (mem_entries.mp hentry)⟩

section Forall

variable {P : Nat → α → Prop} {t : Table α}

theorem Forall.empty : Forall P {} := by
  intro pk a h
  rw [get?_empty] at h
  cases h

/-- A new row has to have the property. -/
theorem Forall.insert (ht : t.Forall P) {a : α} (ha : P t.nextPk a) : (t.insert a).Forall P := by
  intro pk b hb
  rw [get?_insert] at hb
  split at hb
  · next h => cases hb; rw [h]; exact ha
  · exact ht pk b hb

/-- So has a row that is written. -/
theorem Forall.put (ht : t.Forall P) {pk : Nat} {a : α} (ha : P pk a) : (t.put pk a).Forall P := by
  intro q b hb
  by_cases hq : q = pk
  · subst hq
    unfold get? Table.put at hb
    simp only [List.getD_eq_getElem?_getD, List.getElem?_set, if_true] at hb
    split at hb
    · cases hb; exact ha
    · cases hb
  · rw [get?_put_of_ne hq] at hb
    exact ht q b hb

theorem Forall.erase (ht : t.Forall P) (pk : Nat) : (t.erase pk).Forall P := by
  intro q b hb
  rw [get?_erase] at hb
  split at hb
  · cases hb
  · exact ht q b hb

end Forall

/-- At most one row satisfies `p`. -/
def AtMostOne (p : α → Bool) (t : Table α) : Prop :=
  ∀ i j a b, t.get? i = some a → t.get? j = some b → p a = true → p b = true → i = j

section AtMostOne

variable {p : α → Bool} {t : Table α} {i : Nat} {a b : α}

theorem AtMostOne.empty : AtMostOne p {} := by
  intro i j a b ha
  rw [get?_empty] at ha
  cases ha

/-- The rows beside one that satisfies `p` do not. -/
theorem AtMostOne.others (h : t.AtMostOne p) (hget : t.get? i = some a) (hp : p a = true) :
    ∀ j c, j ≠ i → t.get? j = some c → p c = false := by
  intro j c hne hc
  cases hpc : p c with
  | false => rfl
  | true => exact absurd (h j i c a hc hget hpc hp) hne

/-- A new row that does not count leaves at most one. -/
theorem AtMostOne.insert (h : t.AtMostOne p) (hp : p a = false) : (t.insert a).AtMostOne p := by
  intro i j b c hb hc hpb hpc
  rw [get?_insert] at hb hc
  split at hb
  · cases hb
    rw [hp] at hpb
    cases hpb
  · split at hc
    · cases hc
      rw [hp] at hpc
      cases hpc
    · exact h i j b c hb hc hpb hpc

/-- A row is written that satisfies `p` only where the old one did, or where no other does. -/
theorem AtMostOne.put (h : t.AtMostOne p) (hget : t.get? i = some b)
    (hp : p a = true → p b = true ∨ ∀ j c, j ≠ i → t.get? j = some c → p c = false) :
    (t.put i a).AtMostOne p := by
  have hothers : p a = true → ∀ j c, j ≠ i → t.get? j = some c → p c = false := fun hpa =>
    (hp hpa).elim (h.others hget) id
  intro j k c d hc hd hpc hpd
  rw [get?_put hget] at hc hd
  split at hc
  · next hj =>
    cases hc
    split at hd
    · next hk => exact hj.trans hk.symm
    · next hk =>
      rw [hothers hpc k d hk hd] at hpd
      cases hpd
  · next hj =>
    split at hd
    · cases hd
      rw [hothers hpd j c hj hc] at hpc
      cases hpc
    · exact h j k c d hc hd hpc hpd

end AtMostOne

/-- The same keys, and every row has become one that `R` allows. -/
def Related (R : Nat → α → α → Prop) (t t' : Table α) : Prop :=
  ∀ pk, Option.Rel (R pk) (t.get? pk) (t'.get? pk)

section Related

variable {R S T : Nat → α → α → Prop} {t t' t'' : Table α} {pk : Nat} {a b : α}

theorem Related.refl (h : ∀ pk a, R pk a a) (t : Table α) : Related R t t := by
  intro pk
  cases t.get? pk with
  | none => exact .none
  | some a => exact .some (h pk a)

theorem Related.mono (h : ∀ pk a b, R pk a b → S pk a b) (hR : Related R t t') :
    Related S t t' := by
  intro pk
  have hrel := hR pk
  generalize t.get? pk = x at hrel
  generalize t'.get? pk = y at hrel
  cases hrel with
  | none => exact .none
  | some hab => exact .some (h _ _ _ hab)

/-- What one change and the next relate, both together relate. -/
theorem Related.trans (h : ∀ pk a b c, R pk a b → S pk b c → T pk a c) (hR : Related R t t')
    (hS : Related S t' t'') : Related T t t'' := by
  intro pk
  have h1 := hR pk
  have h2 := hS pk
  generalize t.get? pk = x at h1
  generalize t'.get? pk = y at h1 h2
  generalize t''.get? pk = z at h2
  cases h1 with
  | none => cases h2; exact .none
  | some hab => cases h2 with
    | some hbc => exact .some (h _ _ _ _ hab hbc)

/-- A row that was there is still there. -/
theorem Related.of_some (h : Related R t t') (ha : t.get? pk = some a) :
    ∃ b, t'.get? pk = some b ∧ R pk a b := by
  have hrel := h pk
  rw [ha] at hrel
  generalize t'.get? pk = y at hrel
  cases hrel with
  | some hR => exact ⟨_, rfl, hR⟩

/-- A row that is there was there. -/
theorem Related.some_of (h : Related R t t') (hb : t'.get? pk = some b) :
    ∃ a, t.get? pk = some a ∧ R pk a b := by
  have hrel := h pk
  rw [hb] at hrel
  generalize t.get? pk = x at hrel
  cases hrel with
  | some hR => exact ⟨_, rfl, hR⟩

/-- Writing a row relates it to the row before, and the others to themselves. -/
theorem Related.put (hrefl : ∀ pk a, R pk a a) (ha : t.get? pk = some a) (hR : R pk a b) :
    Related R t (t.put pk b) := by
  intro q
  rw [get?_put ha]
  split
  · next hq => rw [hq, ha]; exact .some hR
  · exact Related.refl hrefl t q

theorem Related.updateWhere {p : α → Bool} {f : α → α}
    (h : ∀ pk a, R pk a (if p a then f a else a)) : Related R t (t.updateWhere p f) := by
  intro pk
  rw [get?_updateWhere]
  cases t.get? pk with
  | none => exact .none
  | some a => exact .some (h pk a)

end Related

/-! ### Counting rows -/

/-- How many rows `p` picks. -/
def count (p : α → Bool) (t : Table α) : Nat := t.rows.countP (·.any p)

section count

variable {p q : α → Bool} {t : Table α} {pk : Nat} {a b : α}

@[simp] theorem count_empty (p : α → Bool) : ({} : Table α).count p = 0 := rfl

@[simp] theorem count_insert (p : α → Bool) (t : Table α) (a : α) :
    (t.insert a).count p = t.count p + if p a then 1 else 0 := by
  simp only [count, insert, List.countP_append, List.countP_singleton, Option.any_some]

/-- Writing a row takes the old one out of the count and the new one in. -/
theorem count_put (h : t.get? pk = some b) (p : α → Bool) (a : α) :
    (t.put pk a).count p + (if p b then 1 else 0) = t.count p + if p a then 1 else 0 := by
  have hlt : pk < t.rows.length := lt_nextPk h
  have hrow : t.rows[pk] = some b := by
    unfold get? at h
    rwa [List.getD_eq_getElem?_getD, List.getElem?_eq_getElem hlt] at h
  have hle := List.boole_getElem_le_countP (p := fun row => row.any p) hlt
  unfold count put
  rw [List.countP_set hlt]
  rw [hrow] at hle ⊢
  simp only [Option.any_some] at hle ⊢
  omega

theorem count_put_same (h : t.get? pk = some b) (hp : p a = p b) :
    (t.put pk a).count p = t.count p := by
  have hput := count_put h p a
  rw [hp] at hput
  omega

/-- A row that comes to count makes one more. -/
theorem count_put_succ (h : t.get? pk = some b) (hb : p b = false) (ha : p a = true) :
    (t.put pk a).count p = t.count p + 1 := by
  have hput := count_put h p a
  rw [hb, ha] at hput
  simpa using hput

/-- What one test picks, another does. -/
theorem count_le_count (h : t.Forall fun _ a => p a = true → q a = true) :
    t.count p ≤ t.count q := by
  apply List.countP_mono_left
  intro row hrow hp
  cases row with
  | none => cases hp
  | some a =>
    obtain ⟨pk, hlt, hget⟩ := List.getElem_of_mem hrow
    refine h pk a ?_ hp
    unfold get?
    rw [List.getD_eq_getElem?_getD, List.getElem?_eq_getElem hlt, hget]
    rfl

end count

/-! ### Counting rows with their keys -/

/-- How many rows a test of key and row picks. -/
def tally (p : Nat → α → Bool) (t : Table α) : Nat :=
  t.entries.countP fun entry => p entry.1 entry.2

section tally

variable {p q : Nat → α → Bool} {t t' : Table α}

theorem tally_eq_range (p : Nat → α → Bool) (t : Table α) :
    t.tally p = (List.range t.nextPk).countP fun pk => (t.get? pk).any (p pk) := by
  have hrows : t.rows.zipIdx
      = (List.range t.rows.length).map fun i => (t.rows.getD i none, i) := by
    refine List.ext_getElem (by simp) fun i h _ => ?_
    have hi : i < t.rows.length := by simpa using h
    simp [List.getD_eq_getElem?_getD, List.getElem?_eq_getElem hi]
  unfold tally entries nextPk get?
  rw [List.countP_filterMap, hrows, List.countP_map]
  refine List.countP_congr fun pk _ => ?_
  simp only [Function.comp_apply]
  cases t.rows.getD pk none <;> simp

/-- Tests that agree at every key pick as many rows. -/
theorem tally_congr (hnext : t'.nextPk = t.nextPk)
    (h : ∀ pk, (t'.get? pk).any (p pk) = (t.get? pk).any (q pk)) : t'.tally p = t.tally q := by
  rw [tally_eq_range, tally_eq_range, hnext]
  exact List.countP_congr fun pk _ => by rw [h pk]

/-- Nothing is counted exactly if no row counts. -/
theorem tally_eq_zero : t.tally p = 0 ↔ ∀ pk a, t.get? pk = some a → p pk a = false := by
  unfold tally
  rw [List.countP_eq_zero]
  constructor
  · intro h pk a hget
    exact Bool.eq_false_iff.mpr (h (pk, a) (mem_entries.mpr hget))
  · intro h entry hmem
    exact Bool.eq_false_iff.mp (h entry.1 entry.2 (mem_entries.mp hmem))

/-- Each row that is picked passes a second test or fails it. -/
theorem tally_split (p q : Nat → α → Bool) (t : Table α) :
    t.tally p = t.tally (fun pk a => p pk a && q pk a)
      + t.tally (fun pk a => p pk a && !q pk a) := by
  unfold tally
  induction t.entries with
  | nil => rfl
  | cons entry rest ih =>
    simp only [List.countP_cons] at ih ⊢
    cases p entry.1 entry.2 <;> cases q entry.1 entry.2 <;> simp at ih ⊢ <;> omega

/-- A stricter test picks as many rows exactly when it picks the same ones. -/
theorem tally_eq_and_iff :
    t.tally p = t.tally (fun pk a => p pk a && q pk a)
      ↔ ∀ pk a, t.get? pk = some a → p pk a = true → q pk a = true := by
  have hsplit := tally_split p q t
  have hzero := tally_eq_zero (p := fun pk a => p pk a && !q pk a) (t := t)
  constructor
  · intro heq pk a hget hp
    have hnot := hzero.mp (by omega) pk a hget
    simpa [hp] using hnot
  · intro h
    have hnone := hzero.mpr fun pk a hget => by
      cases hp : p pk a with
      | false => rfl
      | true => simp [h pk a hget hp]
    omega

end tally

end Table

end WPanel.Lib
