/-
What `resolve_credential_pool` returns, next to what it is to return.

Its two queries test `SMTPCredential.cooldown_until is None`, which Python decides: a credential
that has never had a cooldown is never selected.  Its filter takes a limit of 0 for none.  And a
single secret that cannot be decrypted leaves no pool at all.
-/
import GovCrawler.Outreach.Dispatch
import GovCrawler.Outreach.KeyRotation

namespace GovCrawler

open Relational

namespace OutreachDb

variable (db : OutreachDb)

/-- `resolve_credential_pool`. -/
def resolvePool (keys : EncKeys) (assignedIds : List Nat) (now : Time) :
    Except Exc (List Credential) :=
  match db.poolCandidates keys assignedIds now with
  | .error e => .error e
  | .ok creds => .ok (creds.filter fun c => !db.capped now c)

/-- It is what a dispatch loop resolves. -/
theorem pool_eq_resolvePool (settings : DispatchSettings) (campaignId : Nat) (now : Time) :
    db.pool settings campaignId now =
      db.resolvePool settings.keys (db.getCampaignCredentialIds campaignId) now :=
  rfl

/-! ### What is promised -/

/-- The credential belongs to the assignment; all do, where nothing is assigned. -/
def assigned (assignedIds : List Nat) (c : SMTPCredential) : Bool :=
  assignedIds.isEmpty || assignedIds.contains c.id

/-- It is below its limit today, if it has one. -/
def belowLimit (now : Time) (c : SMTPCredential) : Bool :=
  c.dailySendLimit.all fun limit => decide ((db.getCredentialSentCountToday c.id now : Int) < limit)

/-- It is to be in the pool: a cooldown of `NULL` is none. -/
def eligible (assignedIds : List Nat) (now : Time) (c : SMTPCredential) : Bool :=
  assigned assignedIds c && c.isActive && c.cooldownUntil.all (· < now) && db.belowLimit now c

/-- The pool is the credentials that are to be in it. -/
def PoolExact (keys : EncKeys) (assignedIds : List Nat) (now : Time) : Prop :=
  ∃ creds, db.resolvePool keys assignedIds now = .ok creds ∧
    creds.map Credential.id = (db.smtpCredentials.select (db.eligible assignedIds now)).map
      SMTPCredential.id

/-- What the queries select. -/
def selected (assignedIds : List Nat) (now : Time) (c : SMTPCredential) : Bool :=
  assigned assignedIds c && usable now c

/-- The limit of the row is reached, as the filter sees it. -/
def limitReached (now : Time) (c : SMTPCredential) : Bool :=
  match c.dailySendLimit with
  | none => false
  | some limit => limit ≠ 0 && decide (limit ≤ (db.getCredentialSentCountToday c.id now : Int))

/-- A row is treated as it is to be. -/
structure RowRead (keys : EncKeys) (assignedIds : List Nat) (now : Time) (c : SMTPCredential) :
    Prop where
  /-- No active credential below its limit has never had a cooldown. -/
  cooldown : assigned assignedIds c = true → c.isActive = true → db.belowLimit now c = true →
    c.cooldownUntil ≠ none
  limit : selected assignedIds now c = true → c.dailySendLimit ≠ some 0
  secrets : selected assignedIds now c = true →
    ∀ blob ∈ c.stored, keys.chain.contains blob.key = true

end OutreachDb

/-! ### Dictionaries -/

variable {keys : EncKeys} {db : OutreachDb} {now : Time} {assignedIds : List Nat}

theorem decryptColumn_isOk_iff {column : Option Encrypted} :
    (∃ v, decryptColumn keys column = .ok v) ↔
      ∀ blob ∈ column, keys.chain.contains blob.key = true := by
  cases column with
  | none => exact iff_of_true ⟨none, rfl⟩ (by intro blob hblob; cases hblob)
  | some blob =>
      have hread : (∃ v, decryptColumn keys (some blob) = .ok v) ↔
          ∃ plain, decryptPassword blob keys = .ok plain := by
        cases hp : decryptPassword blob keys <;> simp [decryptColumn, hp, Except.map]
      rw [hread]
      simp [decryptPassword_eq_ok_iff]

/-- A row has a dictionary if all its secrets decrypt. -/
theorem credentialSendDict_isOk_iff {c : SMTPCredential} :
    (∃ d, credentialSendDict keys c = .ok d) ↔
      ∀ blob ∈ c.stored, keys.chain.contains blob.key = true := by
  have hcolumns : (∀ blob ∈ c.stored, keys.chain.contains blob.key = true) ↔
      (∀ blob ∈ c.passwordEncrypted, keys.chain.contains blob.key = true) ∧
        (∀ blob ∈ c.refreshTokenEncrypted, keys.chain.contains blob.key = true) ∧
          ∀ blob ∈ c.accessTokenEncrypted, keys.chain.contains blob.key = true := by
    simp [SMTPCredential.stored, SMTPCredential.tokens, or_imp, forall_and]
  rw [hcolumns, ← decryptColumn_isOk_iff, ← decryptColumn_isOk_iff, ← decryptColumn_isOk_iff]
  unfold credentialSendDict
  cases hp : decryptColumn keys c.passwordEncrypted <;>
    cases hr : decryptColumn keys c.refreshTokenEncrypted <;>
      cases ha : decryptColumn keys c.accessTokenEncrypted <;> simp

theorem sendDicts_isOk_iff {cs : List SMTPCredential} :
    (∃ ds, sendDicts keys cs = .ok ds) ↔ ∀ c ∈ cs, ∃ d, credentialSendDict keys c = .ok d := by
  induction cs with
  | nil => exact iff_of_true ⟨[], rfl⟩ (by intro c hc; cases hc)
  | cons c cs ih =>
      rw [List.forall_mem_cons, ← ih, sendDicts]
      cases hc : credentialSendDict keys c with
      | error e => simp
      | ok d => cases hcs : sendDicts keys cs <;> simp

/-- The filter reads of a dictionary what it would read of the row. -/
theorem capped_of_sendDict {c : SMTPCredential} {d : Credential}
    (h : credentialSendDict keys c = .ok d) : db.capped now d = db.limitReached now c := by
  obtain rfl := credentialSendDict_eq_ok h
  rfl

theorem filter_sendDicts {cs : List SMTPCredential} {ds : List Credential}
    (h : sendDicts keys cs = .ok ds) :
    (ds.filter fun d => !db.capped now d).map Credential.id =
      (cs.filter fun c => !db.limitReached now c).map SMTPCredential.id := by
  induction cs generalizing ds with
  | nil =>
      obtain rfl := Except.ok.inj h
      rfl
  | cons c cs ih =>
      unfold sendDicts at h
      cases hc : credentialSendDict keys c with
      | error e =>
          rw [hc] at h
          cases h
      | ok d =>
          rw [hc] at h
          cases hcs : sendDicts keys cs with
          | error e =>
              rw [hcs] at h
              cases h
          | ok ds' =>
              rw [hcs] at h
              obtain rfl := Except.ok.inj h
              have hid : d.id = c.id := congrArg Credential.id (credentialSendDict_eq_ok hc)
              rw [List.filter_cons, List.filter_cons, capped_of_sendDict hc]
              cases db.limitReached now c
              · exact congrArg₂ List.cons hid (ih hcs)
              · exact ih hcs

/-! ### The pool -/

theorem poolCandidates_eq (keys : EncKeys) (db : OutreachDb) (assignedIds : List Nat) (now : Time) :
    db.poolCandidates keys assignedIds now =
      sendDicts keys (db.smtpCredentials.select (OutreachDb.selected assignedIds now)) := by
  unfold OutreachDb.poolCandidates OutreachDb.getActiveCredentials OutreachDb.getCredentialsByIds
    OutreachDb.selected OutreachDb.assigned
  by_cases hempty : assignedIds.isEmpty = true
  · rw [if_pos hempty]
    simp [hempty]
  · rw [if_neg hempty, if_neg hempty]
    simp [hempty]

/-- Where all secrets decrypt, the pool is what is selected, less what has reached its limit. -/
theorem resolvePool_eq_ok_iff {ids : List Nat} :
    (∃ creds, db.resolvePool keys assignedIds now = .ok creds ∧ creds.map Credential.id = ids) ↔
      (∀ c ∈ db.smtpCredentials.rows, OutreachDb.selected assignedIds now c = true →
        ∀ blob ∈ c.stored, keys.chain.contains blob.key = true) ∧
      (db.smtpCredentials.select fun c =>
        OutreachDb.selected assignedIds now c && !db.limitReached now c).map SMTPCredential.id =
          ids := by
  have hdicts : (∀ c ∈ db.smtpCredentials.rows, OutreachDb.selected assignedIds now c = true →
      ∀ blob ∈ c.stored, keys.chain.contains blob.key = true) ↔
      ∃ ds, db.poolCandidates keys assignedIds now = .ok ds := by
    rw [poolCandidates_eq, sendDicts_isOk_iff]
    simp only [Table.select, List.mem_filter, and_imp, credentialSendDict_isOk_iff]
  have hselect : db.smtpCredentials.select (fun c =>
        OutreachDb.selected assignedIds now c && !db.limitReached now c) =
      (db.smtpCredentials.select (OutreachDb.selected assignedIds now)).filter fun c =>
        !db.limitReached now c := by
    unfold Table.select
    rw [List.filter_filter]
    exact List.filter_congr fun c _ => Bool.and_comm _ _
  rw [hdicts, hselect]
  unfold OutreachDb.resolvePool
  cases hpool : db.poolCandidates keys assignedIds now with
  | error e => simp
  | ok ds =>
      have hids := @filter_sendDicts keys db now _ ds ((poolCandidates_eq ..).symm.trans hpool)
      simp [hids]

/-- A limit is read as it is meant, unless it is 0. -/
theorem limitReached_eq_iff {c : SMTPCredential} :
    db.limitReached now c = !db.belowLimit now c ↔ c.dailySendLimit ≠ some 0 := by
  unfold OutreachDb.limitReached OutreachDb.belowLimit
  cases c.dailySendLimit with
  | none => simp
  | some limit =>
      have hle : decide (limit ≤ (db.getCredentialSentCountToday c.id now : Int)) =
          !decide ((db.getCredentialSentCountToday c.id now : Int) < limit) := by
        simp only [← decide_not, Int.not_lt]
      by_cases hzero : limit = 0
      · subst hzero
        simp
      · simp [hzero, hle]

/-- What is left of a row is whether its cooldown is `NULL` and its limit 0. -/
theorem selected_eq_eligible_iff {c : SMTPCredential} :
    (OutreachDb.selected assignedIds now c && !db.limitReached now c) =
        db.eligible assignedIds now c ↔
      (OutreachDb.assigned assignedIds c = true → c.isActive = true →
        db.belowLimit now c = true → c.cooldownUntil ≠ none) ∧
      (OutreachDb.selected assignedIds now c = true → c.dailySendLimit ≠ some 0) := by
  unfold OutreachDb.selected OutreachDb.eligible usable
  cases hassigned : OutreachDb.assigned assignedIds c with
  | false => simp
  | true =>
      cases hactive : c.isActive with
      | false => simp
      | true =>
          cases hcooldown : c.cooldownUntil with
          | none => simp
          | some t =>
              by_cases hpast : t < now
              · simp [hpast, limitReached_eq_iff]
              · simp [hpast]

/--
**The pool is exact** exactly where no active credential below its limit is without a cooldown, no
selected one has a limit of 0, and the secrets of those decrypt.
-/
theorem credential_pool_exact_iff (keys : EncKeys) (db : OutreachDb) (assignedIds : List Nat)
    (now : Time) :
    db.PoolExact keys assignedIds now ↔
      ∀ c ∈ db.smtpCredentials.rows, db.RowRead keys assignedIds now c := by
  have hselect := @Table.select_keys_eq_iff SMTPCredential _ db.smtpCredentials
    (fun c => OutreachDb.selected assignedIds now c && !db.limitReached now c)
    (db.eligible assignedIds now)
  refine resolvePool_eq_ok_iff.trans ((and_congr_right fun _ => hselect).trans ?_)
  constructor
  · rintro ⟨hsecrets, hrows⟩ c hc
    obtain ⟨hcooldown, hlimit⟩ := selected_eq_eligible_iff.mp (hrows c hc)
    exact ⟨hcooldown, hlimit, hsecrets c hc⟩
  · intro h
    exact ⟨fun c hc => (h c hc).secrets,
      fun c hc => selected_eq_eligible_iff.mpr ⟨(h c hc).cooldown, (h c hc).limit⟩⟩

/-! A mailbox that has never had a cooldown, and one that is not to be sent with. -/

def closedMailbox (id : Nat) : SMTPCredential :=
  { basicMailbox id "k" with cooldownUntil := some 5, dailySendLimit := some 0 }

/-- The new one is left out, and the closed one is in the pool. -/
theorem new_mailbox_left_out :
    ((mailboxes (basicMailbox · "k") closedMailbox).resolvePool ⟨"k", none⟩ [] 10).map
        (·.map Credential.id) = .ok [2] ∧
      (mailboxes (basicMailbox · "k") closedMailbox).smtpCredentials.select
        ((mailboxes (basicMailbox · "k") closedMailbox).eligible [] 10) = [basicMailbox 1 "k"] ∧
      ¬ (mailboxes (basicMailbox · "k") closedMailbox).PoolExact ⟨"k", none⟩ [] 10 := by
  refine ⟨rfl, rfl, ?_⟩
  rintro ⟨creds, hpool, hids⟩
  obtain rfl := Except.ok.inj hpool
  exact absurd hids (by decide)

end GovCrawler
