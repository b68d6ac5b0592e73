import WPanel.Lib.Bytes
import WPanel.Lib.Checked

namespace WPanel.Backups

open WPanel.Lib

/-!
# The panel's own backups, encrypted

`encrypt_file` and `decrypt_file` of `core/crypto.py`, and `_open` of the command that reads a
backup.  A file is the magic, and then for each piece of the content four bytes of length and the
encrypted piece; an older one is one encrypted block.

* `Fernet` — authenticated encryption under one key, taken as ideal;
* `encryptFile`, `decryptFile`, `openBackup` — what is written, and how it is read;
* `Readable` — the magic and whole encrypted pieces, or one encrypted block alone;
* `decryptFile_eq_ok` — exactly what is readable is decrypted, into what its pieces hold;
* `decryptFile_encryptFile` — a file gives back its content;
* `Tamperproof` — and every other string of bytes is refused;
* `tamperproof_iff` — which holds of a string unless it is readable;
* `not_tamperproof` — a file cut before a piece, one with a piece written twice, and a piece alone
  without its container, are read without an error.
-/

/-! ### The encryption -/

/-- `FILE_CHUNK`. -/
def fileChunk : ℕ := 32 * 1024 * 1024

/-- Authenticated encryption under one key.  What `encrypt` makes depends on the time and on chance,
    here a nonce.  A string is decrypted exactly when `encrypt` makes it, and to what it was made
    of. -/
structure Fernet where
  encrypt : ℕ → Bytes → Bytes
  /-- `None` for `InvalidToken`. -/
  decrypt : Bytes → Option Bytes
  decrypt_eq_some : ∀ token content,
    decrypt token = some content ↔ ∃ nonce, encrypt nonce content = token
  encrypt_ne_nil : ∀ nonce content, encrypt nonce content ≠ []
  /-- The length of an encrypted piece fits in four bytes. -/
  length_encrypt_lt : ∀ nonce content, content.length ≤ fileChunk →
    (encrypt nonce content).length < 256 ^ 4

/-- What is raised by reading a file. -/
inductive BackupError where
  /-- `ValueError`. -/
  | value (message : String)
  /-- `CommandError`. -/
  | command (message : String)
  deriving DecidableEq, Repr

/-- What `InvalidToken` becomes. -/
def cannotBeDecrypted : BackupError :=
  .value "This backup cannot be decrypted with the current key."

variable (F : Fernet)

/-- `fernet.decrypt`. -/
def Fernet.open (token : Bytes) : Except BackupError Bytes :=
  match F.decrypt token with
  | some content => .ok content
  | none => .error cannotBeDecrypted

/-! ### The files -/

/-- `FILE_MAGIC`: `b"WHPB1\n"`. -/
def fileMagic : Bytes := [0x57, 0x48, 0x50, 0x42, 0x31, 0x0a]

/-- A piece: four bytes of length, and what was encrypted. -/
def encryptPiece (nonce : ℕ) (chunk : Bytes) : Bytes :=
  toBytes 4 (F.encrypt nonce chunk).length ++ F.encrypt nonce chunk

/-- `encrypt_file`, with a nonce for each piece. -/
def encryptFile (nonces : ℕ → ℕ) (content : Bytes) : Bytes :=
  fileMagic ++ (pieces fileChunk content).zipIdx.flatMap fun entry =>
    encryptPiece F (nonces entry.2) entry.1

/-- The pieces of a file.  A read past the end gives what is left. -/
def decryptPieces (body : Bytes) : Except BackupError Bytes :=
  if body = [] then pure []
  else do
    let size := body.take 4
    let token := (body.drop 4).take (ofBytes size)
    let chunk ← F.open token
    let others ← decryptPieces ((body.drop 4).drop (ofBytes size))
    return chunk ++ others
termination_by body.length
decreasing_by
  rename_i h
  have hpos : 0 < body.length := List.length_pos_iff.mpr h
  simp only [List.length_drop]
  omega

/-- `decrypt_file`. -/
def decryptFile (bytes : Bytes) : Except BackupError Bytes :=
  let head := bytes.take fileMagic.length
  if head ≠ fileMagic then F.open (head ++ bytes.drop fileMagic.length)
  else decryptPieces F (bytes.drop fileMagic.length)

/-- What a decrypted backup is taken for. -/
inductive BackupKind where
  | bundle
  | legacy
  deriving DecidableEq, Repr

/-- `_open`. -/
def openBackup (bytes : Bytes) : Except BackupError (BackupKind × Bytes) :=
  match decryptFile F bytes with
  | .ok plain => .ok (if plain.take 2 = [0x1f, 0x8b] then .bundle else .legacy, plain)
  | .error (.value message) => .error (.command message)
  | .error e => .error e

/-! ### What is readable -/

/-- Whole encrypted pieces, one after the other, and what they hold.  The length before the last
    one may be too large. -/
inductive Pieces : Bytes → Bytes → Prop
  | done : Pieces [] []
  | piece {size rest content : Bytes} (nonce : ℕ) (chunk : Bytes) (hsize : size.length = 4)
      (hlength : ofBytes size = (F.encrypt nonce chunk).length
        ∨ (rest = [] ∧ (F.encrypt nonce chunk).length ≤ ofBytes size))
      (hrest : Pieces rest content) :
      Pieces (size ++ F.encrypt nonce chunk ++ rest) (chunk ++ content)

/-- The magic and whole encrypted pieces, or one encrypted block alone. -/
def Readable (bytes content : Bytes) : Prop :=
  (∃ body, bytes = fileMagic ++ body ∧ Pieces F body content)
    ∨ (bytes.take fileMagic.length ≠ fileMagic ∧ ∃ nonce, F.encrypt nonce content = bytes)

section

variable {F} {bytes content body token : Bytes}

theorem Fernet.open_eq_ok :
    F.open token = .ok content ↔ ∃ nonce, F.encrypt nonce content = token := by
  rw [← F.decrypt_eq_some]
  unfold Fernet.open
  cases F.decrypt token with
  | none => simp
  | some plain => simp

/-- **The pieces that are decrypted** are whole encrypted pieces. -/
theorem decryptPieces_eq_ok : decryptPieces F body = .ok content ↔ Pieces F body content := by
  constructor
  · intro h
    induction body using decryptPieces.induct generalizing content with
    | case1 =>
      rw [decryptPieces, if_pos rfl] at h
      cases h
      exact .done
    | case2 body hne size =>
      rename_i ih
      rw [decryptPieces, if_neg hne] at h
      simp only [bind_eq_ok, pure_eq_ok] at h
      obtain ⟨chunk, hopen, others, hothers, rfl⟩ := h
      obtain ⟨nonce, hmade⟩ := Fernet.open_eq_ok.mp hopen
      have htoken : (body.drop 4).take (ofBytes (body.take 4)) ≠ [] := by
        rw [← hmade]
        exact F.encrypt_ne_nil nonce chunk
      -- so the length is whole
      have hlong : 4 < body.length := by
        by_contra hshort
        rw [List.drop_eq_nil_of_le (by omega), List.take_nil] at htoken
        exact htoken rfl
      have hsize : (body.take 4).length = 4 := by
        rw [List.length_take]
        omega
      have hsplit : body = body.take 4 ++ (body.drop 4).take (ofBytes (body.take 4))
          ++ (body.drop 4).drop (ofBytes (body.take 4)) := by
        rw [List.append_assoc, List.take_append_drop, List.take_append_drop]
      -- the length may say more than there is, at the end
      have hlength : ofBytes (body.take 4) = (F.encrypt nonce chunk).length
          ∨ ((body.drop 4).drop (ofBytes (body.take 4)) = []
            ∧ (F.encrypt nonce chunk).length ≤ ofBytes (body.take 4)) := by
        rw [hmade, List.length_take]
        rcases Nat.le_total (ofBytes (body.take 4)) (body.drop 4).length with hle | hle
        · exact .inl (Nat.min_eq_left hle).symm
        · exact .inr ⟨List.drop_eq_nil_of_le hle, Nat.min_le_left _ _⟩
      rw [hsplit, ← hmade]
      exact .piece nonce chunk hsize hlength (ih hothers)
  · intro h
    induction h with
    | done => rw [decryptPieces, if_pos rfl]; rfl
    | @piece size rest content nonce chunk hsize hlength hrest ih =>
      have hne : size ++ F.encrypt nonce chunk ++ rest ≠ [] := by
        intro hnil
        rw [List.append_eq_nil_iff, List.append_eq_nil_iff] at hnil
        exact F.encrypt_ne_nil nonce chunk hnil.1.2
      have htake : (size ++ F.encrypt nonce chunk ++ rest).take 4 = size := by
        rw [List.append_assoc, List.take_left' hsize]
      have hdrop : (size ++ F.encrypt nonce chunk ++ rest).drop 4
          = F.encrypt nonce chunk ++ rest := by
        rw [List.append_assoc, List.drop_left' hsize]
      have htoken : (F.encrypt nonce chunk ++ rest).take (ofBytes size)
          = F.encrypt nonce chunk := by
        rcases hlength with hlength | ⟨rfl, hle⟩
        · rw [hlength, List.take_left]
        · rw [List.append_nil, List.take_of_length_le hle]
      have hrestDrop : (F.encrypt nonce chunk ++ rest).drop (ofBytes size) = rest := by
        rcases hlength with hlength | ⟨rfl, hle⟩
        · rw [hlength, List.drop_left]
        · rw [List.append_nil, List.drop_eq_nil_of_le hle]
      rw [decryptPieces, if_neg hne]
      dsimp only
      rw [htake, hdrop, htoken, hrestDrop, Fernet.open_eq_ok.mpr ⟨nonce, rfl⟩, ok_bind, ih, ok_bind]
      rfl

/-- **Exactly what is readable is decrypted**, into what its pieces hold. -/
theorem decryptFile_eq_ok : decryptFile F bytes = .ok content ↔ Readable F bytes content := by
  unfold decryptFile Readable
  dsimp only
  by_cases hmagic : bytes.take fileMagic.length = fileMagic
  · rw [if_neg (not_not.mpr hmagic), decryptPieces_eq_ok]
    constructor
    · intro h
      refine .inl ⟨bytes.drop fileMagic.length, ?_, h⟩
      calc bytes = bytes.take fileMagic.length ++ bytes.drop fileMagic.length :=
            (List.take_append_drop _ _).symm
        _ = fileMagic ++ bytes.drop fileMagic.length := by rw [hmagic]
    · rintro (⟨body, rfl, h⟩ | ⟨hnot, _⟩)
      · rwa [List.drop_left]
      · exact absurd hmagic hnot
  · rw [if_pos hmagic, List.take_append_drop, Fernet.open_eq_ok]
    constructor
    · intro h
      exact .inr ⟨hmagic, h⟩
    · rintro (⟨body, rfl, _⟩ | ⟨_, h⟩)
      · exact absurd List.take_left hmagic
      · exact h

/-- Pieces that `encrypt` has made, in any order and any number of them, hold what they were made
    of. -/
theorem pieces_encryptPiece (nonces : ℕ → ℕ) (chunks : List (Bytes × ℕ))
    (h : ∀ entry ∈ chunks, entry.1.length ≤ fileChunk) :
    Pieces F (chunks.flatMap fun entry => encryptPiece F (nonces entry.2) entry.1)
      (chunks.flatMap Prod.fst) := by
  induction chunks with
  | nil => exact .done
  | cons entry chunks ih =>
    have hrest := ih fun entry hmem => h entry (List.mem_cons_of_mem _ hmem)
    have hfits := F.length_encrypt_lt (nonces entry.2) entry.1 (h entry List.mem_cons_self)
    rw [List.flatMap_cons, List.flatMap_cons, encryptPiece]
    exact .piece (nonces entry.2) entry.1 (length_toBytes 4 _) (.inl (ofBytes_toBytes 4 _ hfits))
      hrest

/-- A file is readable, as its content. -/
theorem readable_encryptFile (nonces : ℕ → ℕ) (content : Bytes) :
    Readable F (encryptFile F nonces content) content := by
  have hpieces := pieces_encryptPiece (F := F) nonces (pieces fileChunk content).zipIdx ?_
  · have hcontent : (pieces fileChunk content).zipIdx.flatMap Prod.fst = content := by
      rw [List.flatMap_def, List.zipIdx_map_fst, flatten_pieces (by decide)]
    rw [hcontent] at hpieces
    exact .inl ⟨_, rfl, hpieces⟩
  · intro entry hmem
    exact length_le_of_mem_pieces (List.fst_mem_of_mem_zipIdx hmem)

/-- **A file gives back its content.** -/
theorem decryptFile_encryptFile (nonces : ℕ → ℕ) (content : Bytes) :
    decryptFile F (encryptFile F nonces content) = .ok content :=
  decryptFile_eq_ok.mpr (readable_encryptFile nonces content)

/-- What is opened as a backup is readable, and a bundle when it starts like a `gzip` file. -/
theorem openBackup_eq_ok {kind : BackupKind} : openBackup F bytes = .ok (kind, content)
    ↔ Readable F bytes content ∧ (kind = .bundle ↔ content.take 2 = [0x1f, 0x8b]) := by
  unfold openBackup
  rw [← decryptFile_eq_ok]
  cases hread : decryptFile F bytes with
  | ok plain =>
    dsimp only
    by_cases hgzip : plain.take 2 = [0x1f, 0x8b]
    · rw [if_pos hgzip]
      constructor
      · intro h
        cases h
        exact ⟨rfl, iff_of_true rfl hgzip⟩
      · rintro ⟨hplain, hkind⟩
        cases hplain
        rw [hkind.mpr hgzip]
    · rw [if_neg hgzip]
      constructor
      · intro h
        cases h
        exact ⟨rfl, iff_of_false nofun hgzip⟩
      · rintro ⟨hplain, hkind⟩
        cases hplain
        cases kind with
        | bundle => exact absurd (hkind.mp rfl) hgzip
        | legacy => rfl
  | error e =>
    cases e with
    | value message => simp
    | command message => simp

end

/-! ### Whether damage is noticed -/

/-- A file gives back its content, and this string of bytes is refused, unless it is the file. -/
structure Tamperproof (nonces : ℕ → ℕ) (content bytes : Bytes) : Prop where
  whole : decryptFile F (encryptFile F nonces content) = .ok content
  damaged : bytes ≠ encryptFile F nonces content → ∃ e, decryptFile F bytes = .error e

/-- **Damage is noticed exactly when what it leaves is not readable.** -/
theorem tamperproof_iff (nonces : ℕ → ℕ) (content bytes : Bytes) :
    Tamperproof F nonces content bytes
      ↔ (bytes ≠ encryptFile F nonces content → ∀ content', ¬ Readable F bytes content') := by
  constructor
  · intro h hne content' hreadable
    obtain ⟨e, herror⟩ := h.damaged hne
    rw [decryptFile_eq_ok.mpr hreadable] at herror
    cases herror
  · intro h
    refine ⟨decryptFile_encryptFile nonces content, fun hne => ?_⟩
    cases hread : decryptFile F bytes with
    | ok content' => exact absurd (decryptFile_eq_ok.mp hread) (h hne content')
    | error e => exact ⟨e, rfl⟩

/-- A stand-in for the real encryption: the version byte, the nonce, and the content as it is. -/
private def plainFernet : Fernet where
  encrypt nonce content := 0x80 :: UInt8.ofNat nonce :: content
  decrypt
    | 0x80 :: _ :: content => some content
    | _ => none
  decrypt_eq_some token content := by
    constructor
    · intro h
      split at h
      · next nonce plain =>
        cases h
        exact ⟨nonce.toNat, by simp⟩
      · cases h
    · rintro ⟨nonce, rfl⟩
      rfl
  encrypt_ne_nil _ _ := by simp
  length_encrypt_lt _ content h := by
    have hchunk : fileChunk + 2 < 256 ^ 4 := by decide
    simp only [List.length_cons]
    omega

/-- The file of one byte. -/
private theorem encryptFile_oneByte : encryptFile plainFernet (fun _ => 0) [7]
    = fileMagic ++ [0, 0, 0, 3, 0x80, 0, 7] := by
  have hpieces : pieces fileChunk [7] = [[7]] := by
    rw [pieces_of_ne_nil (by decide) (by decide)]
    rw [List.take_of_length_le (by decide), List.drop_eq_nil_of_le (by decide), pieces_nil]
  rw [encryptFile, hpieces]
  rfl

/-- **Damage that is not noticed**: a file cut before its piece holds nothing, one with its piece
    written twice holds it twice, and the piece alone, without its container, is read too. -/
theorem not_tamperproof :
    ¬ Tamperproof plainFernet (fun _ => 0) [7] fileMagic
      ∧ ¬ Tamperproof plainFernet (fun _ => 0) [7]
        (fileMagic ++ [0, 0, 0, 3, 0x80, 0, 7] ++ [0, 0, 0, 3, 0x80, 0, 7])
      ∧ ¬ Tamperproof plainFernet (fun _ => 0) [7] [0x80, 0, 7] := by
  have hread : ∀ bytes content, Readable plainFernet bytes content →
      bytes ≠ fileMagic ++ [0, 0, 0, 3, 0x80, 0, 7] →
      ¬ Tamperproof plainFernet (fun _ => 0) [7] bytes := by
    intro bytes content hreadable hne h
    obtain ⟨e, herror⟩ := h.damaged (by rw [encryptFile_oneByte]; exact hne)
    rw [decryptFile_eq_ok.mpr hreadable] at herror
    cases herror
  have hpiece : ∀ rest content, Pieces plainFernet rest content →
      Pieces plainFernet ([0, 0, 0, 3] ++ [0x80, 0, 7] ++ rest) ([7] ++ content) :=
    fun rest content h => .piece 0 [7] rfl (.inl rfl) h
  refine ⟨hread _ [] (.inl ⟨[], rfl, .done⟩) (by decide), ?_, ?_⟩
  · exact hread _ [7, 7] (.inl ⟨_, rfl, hpiece _ _ (hpiece _ _ .done)⟩) (by decide)
  · exact hread _ [7] (.inr ⟨by decide, 0, rfl⟩) (by decide)

end WPanel.Backups
