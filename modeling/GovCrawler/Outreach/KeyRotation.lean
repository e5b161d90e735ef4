/-
`scripts/rotate_credential_encryption_key.py`, which puts a new key in the place of the previous.

The script is run with both keys in the chain, and the previous one is destroyed afterwards.  It
decrypts and encrypts the password of every row.  A row without a password, as OAuth leaves it,
raises; and the tokens are left under the key they are under, also where a row has a password.
-/
import GovCrawler.Outreach.Credentials

namespace GovCrawler

open Relational

/-! ### The script -/

/-- `decrypt_password` of a column, which may be `None`. -/
def decryptBlob (keys : EncKeys) : Option Encrypted → Except Exc String
  | none => .error (.other "cannot convert 'NoneType' object to bytes")
  | some blob => decryptPassword blob keys

/-- The chain that is left once the previous key is gone. -/
def EncKeys.newAlone (keys : EncKeys) : EncKeys := { keys with prev := none }

/-- The loop over the rows that the session has read. -/
def rotatePasswords (keys : EncKeys) : List SMTPCredential → OutreachDb → Except Exc OutreachDb
  | [], db => .ok db
  | c :: cs, db =>
      match decryptBlob keys c.passwordEncrypted with
      | .error e => .error e
      | .ok plain =>
          rotatePasswords keys cs (db.updateCredentialWhere c.id fun c =>
            { c with passwordEncrypted := some (encryptPassword plain keys.newAlone) })

/-- How the script ends. -/
inductive RotationEnd
  /-- `sys.exit(1)`: there is no previous key. -/
  | exits
  | raises (e : Exc)
  | rotated (count : Nat)
  deriving DecidableEq, Repr

/-- `main`, one transaction. -/
def rotateCredentialEncryptionKey (keys : EncKeys) (db : OutreachDb) : OutreachDb × RotationEnd :=
  match keys.prev with
  | none => (db, .exits)
  | some _ =>
      match rotatePasswords keys db.smtpCredentials.rows db with
      | .error e => (db, .raises e)
      | .ok db' => (db', .rotated db.smtpCredentials.rows.length)

/-! ### What is promised -/

/-- What was in the column can be read from it under the new key alone. -/
def ColumnKept (keys : EncKeys) (before after : Option Encrypted) : Prop :=
  decryptColumn keys.newAlone after = .ok (before.map Encrypted.plain)

structure RowKept (keys : EncKeys) (before after : SMTPCredential) : Prop where
  password : ColumnKept keys before.passwordEncrypted after.passwordEncrypted
  refreshToken : ColumnKept keys before.refreshTokenEncrypted after.refreshTokenEncrypted
  accessToken : ColumnKept keys before.accessTokenEncrypted after.accessTokenEncrypted

/-- The script completes, and every secret can be read under the new key alone. -/
structure LosesNoSecret (keys : EncKeys) (db : OutreachDb) : Prop where
  completes : ∃ count, (rotateCredentialEncryptionKey keys db).2 = .rotated count
  kept : ∀ c ∈ db.smtpCredentials.rows, ∃ c',
    (rotateCredentialEncryptionKey keys db).1.credential? c.id = some c' ∧ RowKept keys c c'

/-! ### The loop -/

/-- What a row is replaced by. -/
def SMTPCredential.rotated (keys : EncKeys) (c : SMTPCredential) : SMTPCredential :=
  { c with
    passwordEncrypted := c.passwordEncrypted.map fun blob =>
      encryptPassword blob.plain keys.newAlone }

variable {keys : EncKeys} {db db' : OutreachDb} {cs : List SMTPCredential}

theorem decryptBlob_eq_ok_iff {column : Option Encrypted} {plain : String} :
    decryptBlob keys column = .ok plain ↔
      ∃ blob, column = some blob ∧ keys.chain.contains blob.key = true ∧ plain = blob.plain := by
  cases column with
  | none => exact iff_of_false (by intro h; cases h) (by rintro ⟨_, h, -⟩; cases h)
  | some blob =>
      refine decryptPassword_eq_ok_iff.trans ⟨fun h => ⟨blob, rfl, h⟩, ?_⟩
      rintro ⟨blob', hblob, h⟩
      exact Option.some.inj hblob ▸ h

/-- The loop gets through the rows if every one of them has a password that it can decrypt. -/
theorem rotatePasswords_isOk_iff :
    (∃ db', rotatePasswords keys cs db = .ok db') ↔
      ∀ c ∈ cs, ∃ plain, decryptBlob keys c.passwordEncrypted = .ok plain := by
  induction cs generalizing db with
  | nil => exact iff_of_true ⟨db, rfl⟩ (by intro c hc; cases hc)
  | cons c cs ih =>
      rw [List.forall_mem_cons]
      unfold rotatePasswords
      cases hc : decryptBlob keys c.passwordEncrypted with
      | error e => exact iff_of_false (by rintro ⟨_, h⟩; cases h) (by rintro ⟨⟨_, h⟩, -⟩; cases h)
      | ok plain => exact ih.trans (iff_and_self.mpr fun _ => ⟨plain, rfl⟩)

/-- **What the loop does**: to each row that has been read the same, and to no other anything. -/
theorem rotatePasswords_spec (hrows : ∀ c ∈ cs, db.credential? c.id = some c)
    (hnodup : (cs.map SMTPCredential.id).Nodup) (h : rotatePasswords keys cs db = .ok db') (k : Nat) :
    db'.credential? k = (db.credential? k).map fun c =>
      if k ∈ cs.map SMTPCredential.id then c.rotated keys else c := by
  induction cs generalizing db with
  | nil =>
      obtain rfl := Except.ok.inj h
      simp
  | cons c cs ih =>
      unfold rotatePasswords at h
      cases hc : decryptBlob keys c.passwordEncrypted with
      | error e =>
          rw [hc] at h
          cases h
      | ok plain =>
          rw [hc] at h
          rw [List.map_cons, List.nodup_cons] at hnodup
          have hfirst := hrows c (List.mem_cons_self ..)
          have hrest : ∀ d ∈ cs, (db.updateCredentialWhere c.id fun c =>
              { c with passwordEncrypted := some (encryptPassword plain keys.newAlone) }).credential?
                d.id = some d := by
            intro d hd
            have hne : d.id ≠ c.id := fun heq => hnodup.1 (heq ▸ List.mem_map_of_mem hd)
            rw [OutreachDb.credential?_updateCredentialWhere, if_neg hne]
            exact hrows d (List.mem_cons_of_mem _ hd)
          rw [ih hrest hnodup.2 h, OutreachDb.credential?_updateCredentialWhere]
          by_cases hk : k = c.id
          · -- the row of this round, which no later round touches
            subst hk
            obtain ⟨blob, hblob, -, hplain⟩ := decryptBlob_eq_ok_iff.mp hc
            rw [if_pos rfl, hfirst]
            simp [hnodup.1, SMTPCredential.rotated, hblob, hplain]
          · rw [if_neg hk]
            simp [hk]

/-- After a rotation that gets through. -/
theorem credential?_rotated (h : rotatePasswords keys db.smtpCredentials.rows db = .ok db')
    {c : SMTPCredential} (hc : c ∈ db.smtpCredentials.rows) :
    db'.credential? c.id = some (c.rotated keys) := by
  have hrow : ∀ c ∈ db.smtpCredentials.rows, db.credential? c.id = some c :=
    fun _ hc => Table.get?_of_mem hc
  rw [rotatePasswords_spec hrow db.smtpCredentials.nodup_keys h, hrow c hc, Option.map_some,
    if_pos (List.mem_map_of_mem hc)]

/-! ### Which secrets are kept -/

/-- A column that is left as it is can be read on if it was under the new key. -/
theorem columnKept_self_iff {column : Option Encrypted} :
    ColumnKept keys column column ↔ ∀ blob ∈ column, blob.key = keys.primary := by
  unfold ColumnKept
  cases column with
  | none => exact iff_of_true rfl (by intro blob hblob; cases hblob)
  | some blob =>
      have hread : decryptColumn keys.newAlone (some blob) = .ok (some blob.plain) ↔
          decryptPassword blob keys.newAlone = .ok blob.plain := by
        cases hp : decryptPassword blob keys.newAlone <;> simp [decryptColumn, hp, Except.map]
      have hkey : keys.newAlone.chain.contains blob.key = true ↔ blob.key = keys.primary := by
        simp [EncKeys.newAlone, EncKeys.chain]
      rw [Option.map_some, hread, decryptPassword_eq_ok_iff, hkey]
      simp

/-- A password is kept. -/
theorem columnKept_rotated (column : Option Encrypted) :
    ColumnKept keys column (column.map fun blob => encryptPassword blob.plain keys.newAlone) := by
  unfold ColumnKept
  cases column with
  | none => rfl
  | some blob => simp [decryptColumn, Except.map]

theorem rowKept_rotated_iff {c : SMTPCredential} :
    RowKept keys c (c.rotated keys) ↔ ∀ token ∈ c.tokens, token.key = keys.primary := by
  have hboth : (∀ token ∈ c.tokens, token.key = keys.primary) ↔
      (∀ token ∈ c.refreshTokenEncrypted, token.key = keys.primary) ∧
        ∀ token ∈ c.accessTokenEncrypted, token.key = keys.primary := by
    simp [SMTPCredential.tokens, or_imp, forall_and]
  rw [hboth, ← columnKept_self_iff, ← columnKept_self_iff]
  constructor
  · rintro ⟨-, hrefresh, haccess⟩
    exact ⟨hrefresh, haccess⟩
  · rintro ⟨hrefresh, haccess⟩
    exact ⟨columnKept_rotated _, hrefresh, haccess⟩

/--
**A rotation loses no secret** exactly where every row has a password, and no token is under the
previous key.
-/
theorem rotation_loses_no_secret_iff (primary prev : String) (db : OutreachDb)
    (hstored : ∀ c ∈ db.smtpCredentials.rows, ∀ blob ∈ c.stored,
      blob.key = primary ∨ blob.key = prev) :
    LosesNoSecret ⟨primary, some prev⟩ db ↔
      ∀ c ∈ db.smtpCredentials.rows,
        c.passwordEncrypted.isSome = true ∧ ∀ token ∈ c.tokens, token.key = primary := by
  have hpassword : ∀ c ∈ db.smtpCredentials.rows,
      ((∃ plain, decryptBlob ⟨primary, some prev⟩ c.passwordEncrypted = .ok plain) ↔
        c.passwordEncrypted.isSome = true) := by
    intro c hc
    rw [Option.isSome_iff_exists]
    constructor
    · rintro ⟨plain, h⟩
      obtain ⟨blob, hblob, -⟩ := decryptBlob_eq_ok_iff.mp h
      exact ⟨blob, hblob⟩
    · rintro ⟨blob, hblob⟩
      have hkey := hstored c hc blob (by simp [SMTPCredential.stored, hblob])
      exact ⟨blob.plain, decryptBlob_eq_ok_iff.mpr
        ⟨blob, hblob, by simpa [EncKeys.chain] using hkey, rfl⟩⟩
  constructor
  · rintro ⟨⟨count, hend⟩, hkept⟩
    unfold rotateCredentialEncryptionKey at hend hkept
    cases hloop : rotatePasswords ⟨primary, some prev⟩ db.smtpCredentials.rows db with
    | error e =>
        rw [hloop] at hend
        cases hend
    | ok db' =>
        rw [hloop] at hkept
        intro c hc
        obtain ⟨c', hc', hrow⟩ := hkept c hc
        obtain rfl := Option.some.inj ((credential?_rotated hloop hc).symm.trans hc')
        exact ⟨(hpassword c hc).mp (rotatePasswords_isOk_iff.mp ⟨db', hloop⟩ c hc),
          rowKept_rotated_iff.mp hrow⟩
  · intro h
    obtain ⟨db', hloop⟩ := rotatePasswords_isOk_iff.mpr fun c hc =>
      (hpassword c hc).mpr (h c hc).1
    have hmain : rotateCredentialEncryptionKey ⟨primary, some prev⟩ db =
        (db', .rotated db.smtpCredentials.rows.length) := by
      unfold rotateCredentialEncryptionKey
      rw [hloop]
    refine ⟨⟨_, congrArg Prod.snd hmain⟩, fun c hc => ?_⟩
    rw [hmain]
    exact ⟨_, credential?_rotated hloop hc, rowKept_rotated_iff.mpr (h c hc).2⟩

/-! A mailbox with a password, and one that has been connected with OAuth. -/

def basicMailbox (id : Nat) (key : String) : SMTPCredential where
  id := id
  host := "smtp.example.org"
  port := 587
  username := "office@example.org"
  provider := "basic"
  passwordEncrypted := some ⟨key, "correct horse"⟩
  isActive := true
  cooldownUntil := none
  dailySendLimit := none
  refreshTokenEncrypted := none
  accessTokenEncrypted := none
  tokenExpiresAt := none

def oauthMailbox (id : Nat) (key : String) : SMTPCredential :=
  { basicMailbox id key with
    provider := "google"
    passwordEncrypted := none
    refreshTokenEncrypted := some ⟨key, "r0"⟩
    accessTokenEncrypted := some ⟨key, "a0"⟩ }

/-- The tables, with these credentials in them. -/
def mailboxes (first second : Nat → SMTPCredential)
    (hfirst : ∀ n, (first n).id = n := by intro _; rfl)
    (hsecond : ∀ n, (second n).id = n := by intro _; rfl) : OutreachDb where
  campaigns := Table.empty
  campaignEmails := Table.empty
  smtpCredentials := (Table.empty.insertNew first hfirst).insertNew second hsecond
  campaignCredentials := Table.empty
  blacklist := Table.empty

theorem passwords_rotated :
    LosesNoSecret ⟨"new", some "old"⟩
      (mailboxes (basicMailbox · "old") (basicMailbox · "new")) :=
  (rotation_loses_no_secret_iff "new" "old" _ (by decide)).mpr (by decide)

/-- The session is rolled back where it comes to the second row, and the old key stays in use. -/
theorem oauth_not_rotated :
    rotateCredentialEncryptionKey ⟨"new", some "old"⟩
        (mailboxes (basicMailbox · "old") (oauthMailbox · "old")) =
      (mailboxes (basicMailbox · "old") (oauthMailbox · "old"),
        .raises (.other "cannot convert 'NoneType' object to bytes")) ∧
      ¬ LosesNoSecret ⟨"new", some "old"⟩
        (mailboxes (basicMailbox · "old") (oauthMailbox · "old")) := by
  have hraises : rotateCredentialEncryptionKey ⟨"new", some "old"⟩
      (mailboxes (basicMailbox · "old") (oauthMailbox · "old")) =
      (mailboxes (basicMailbox · "old") (oauthMailbox · "old"),
        .raises (.other "cannot convert 'NoneType' object to bytes")) := rfl
  refine ⟨hraises, fun h => ?_⟩
  obtain ⟨count, hcount⟩ := h.completes
  rw [hraises] at hcount
  cases hcount

end GovCrawler
