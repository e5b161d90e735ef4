/-
What one iteration of the dispatch loop makes of the outcome of its send.

Two questions are answered here, both about `trySend`.  Does an email the server
has accepted end up `SENT`?  The `try` covers `quit` too, and what `quit` raises is
handled as if the send had failed, so exactly when `quit` succeeds.  And is a
refusal handled as the table of send outcomes says?  The same refusal arrives as
one of two exceptions; the handler of one of them raises.
-/
import GovCrawler.Outreach.Dispatch

namespace GovCrawler

open Relational StoreProgram DispatchM

/-! ### Running a handler while the database answers -/

@[simp] theorem update_run (f : OutreachDb → OutreachDb) (notes : List Write) (s : Store) :
    (update f notes) s [] = (.ok (), ⟨f s.db, s.journal ++ notes⟩, []) := rfl

@[simp] theorem query_run {α : Type} (f : OutreachDb → α) (s : Store) :
    (query f) s [] = (.ok (f s.db), s, []) := rfl

/-! ### One send -/

/-- How each of the four steps of `_send_one_email` ends. -/
structure SendOutcomes where
  connect : Except Exc Unit
  auth : Except Exc Unit
  sendMessage : Except Exc Unit
  quit : Except Exc Unit

/-- `_send_one_email`. -/
def sendOneEmail (o : SendOutcomes) : Except Exc Unit := do
  o.connect
  o.auth
  o.sendMessage
  o.quit

/-- The server accepted the message. -/
def SendOutcomes.Accepted (o : SendOutcomes) : Prop :=
  o.connect = .ok () ∧ o.auth = .ok () ∧ o.sendMessage = .ok ()

theorem sendOneEmail_of_accepted {o : SendOutcomes} (h : o.Accepted) :
    sendOneEmail o = o.quit := by
  obtain ⟨hc, ha, hs⟩ := h
  unfold sendOneEmail
  rw [hc, ha, hs]
  rfl

/-- What the iteration leaves behind when the send ends in `sent`. -/
def afterSend (settings : DispatchSettings) (job : Job) (now : Time) (db : OutreachDb)
    (sent : Except Exc Unit) : Store :=
  (trySend settings job now sent ⟨db, []⟩ []).2.1

/-- How the iteration itself ends: back at the top of the loop, or with an exception. -/
def iterationResult (settings : DispatchSettings) (job : Job) (now : Time) (db : OutreachDb)
    (sent : Except Exc Unit) : Except Exc Unit :=
  (trySend settings job now sent ⟨db, []⟩ []).1

theorem trySend_ok (settings : DispatchSettings) (job : Job) (now : Time) (s : Store) :
    trySend settings job now (.ok ()) s [] =
      (.ok (), ⟨s.db.markEmailSent job.email.id (some job.cred.id) now,
        s.journal ++ [.email job.email.id .sent]⟩, []) := rfl

theorem trySend_error (settings : DispatchSettings) (job : Job) (now : Time) (e : Exc)
    (s : Store) :
    trySend settings job now (.error e) s [] = handleException settings job now e s [] := rfl

/-- The status a handler puts the email in; `none` where it raises instead. -/
def handledStatus : Exc → Option EmailStatus
  | .smtpAuthenticationError _ _ | .oauthTokenError _ => some .queued
  | .smtpResponseException code _ =>
      if isHardBounce code then some .failed
      else if isTemporary code then some .queued else some .failed
  | .smtpRecipientsRefused (.list _) => none
  | .smtpRecipientsRefused (.dict _) => some .failed
  | .smtpConnectError _ | .osError _ | .timeoutError _ => some .queued
  | _ => some .failed

/-- Only the handler of a rejection disables, and only the credential of the send. -/
def Rejects : Exc → Prop
  | .smtpAuthenticationError _ _ => True
  | .oauthTokenError _ => True
  | _ => False

instance : DecidablePred Rejects
  | .smtpAuthenticationError _ _ | .oauthTokenError _ => .isTrue trivial
  | .smtpResponseException _ _ | .smtpRecipientsRefused _ | .smtpConnectError _ | .osError _
  | .timeoutError _ | .attributeError _ | .valueError _ | .database _ | .other _ => .isFalse id

/-- What a handler can be: whether it is that of a rejection, the status it gives the email,
and what it runs. -/
inductive Handler (settings : DispatchSettings) (job : Job) :
    Bool → Option EmailStatus → DispatchM Unit → Prop
  | disables : Handler settings job true (some .queued) (do
      disableCredential job.cred.id
      requeueEmail job.email.id)
  | coolsDown (until_ : Time) : Handler settings job false (some .queued) (coolDown job until_)
  | bounces (reason : String) :
      Handler settings job false (some .failed) (hardBounce settings job reason)
  | fails (message : String) :
      Handler settings job false (some .failed) (markEmailFailed job.email.id message job.cred.id)
  | raises (e : Exc) : Handler settings job false none (Prog.raise e)

theorem handler_handleException (settings : DispatchSettings) (job : Job) (now : Time) (e : Exc) :
    Handler settings job (decide (Rejects e)) (handledStatus e)
      (handleException settings job now e) := by
  cases e with
  | smtpAuthenticationError code message => exact .disables
  | oauthTokenError text => exact .disables
  | smtpResponseException code message =>
      simp only [handledStatus, handleException]
      by_cases hbounce : isHardBounce code = true
      · rw [if_pos hbounce, if_pos hbounce]
        exact .bounces _
      · rw [if_neg hbounce, if_neg hbounce]
        by_cases htemporary : isTemporary code = true
        · rw [if_pos htemporary, if_pos htemporary]
          exact .coolsDown _
        · rw [if_neg htemporary, if_neg htemporary]
          exact .fails _
  | smtpRecipientsRefused refused =>
      rcases refused with refused | (_ | ⟨⟨_, code, message⟩, rest⟩)
      · exact .raises _
      · exact .fails _
      · simp only [handleException]
        by_cases hbounce : isHardBounce code = true
        · rw [if_pos hbounce]
          exact .bounces _
        · rw [if_neg hbounce]
          exact .fails _
  | smtpConnectError text => exact .coolsDown _
  | osError text => exact .coolsDown _
  | timeoutError text => exact .coolsDown _
  | attributeError text => exact .fails _
  | valueError text => exact .fails _
  | database text => exact .fails _
  | other text => exact .fails _

/-- The store `t` is `s` with the email put in `status`, noted once, and no other
email touched. -/
structure Settled (emailId : Nat) (status : EmailStatus) (s t : Store) : Prop where
  rows : ∀ k, t.db.emailStatus k =
    if k = emailId then (s.db.emailStatus k).map fun _ => status else s.db.emailStatus k
  notes : ∀ i st, Write.email i st ∈ t.journal ↔
    Write.email i st ∈ s.journal ∨ i = emailId ∧ st = status

theorem addToBlacklist_emailStatus (lower : String → String) (db : OutreachDb)
    (email domain : String) (reason : Option String) (k : Nat) :
    (db.addToBlacklist lower email domain reason).2.emailStatus k = db.emailStatus k := by
  unfold OutreachDb.addToBlacklist
  by_cases h : (db.blacklist.first? fun b => b.email == lower email).isSome
  · rw [if_pos h]
  · rw [if_neg h]
    rfl

section Handlers

variable (settings : DispatchSettings) (job : Job) (now : Time) (s : Store)

theorem markEmailFailed_settled (m : String) (c : Nat) :
    Settled job.email.id .failed s
      ⟨s.db.markEmailFailed job.email.id m (some c), s.journal ++ [.email job.email.id .failed]⟩ where
  rows := s.db.emailStatus_markEmailFailed job.email.id m (some c)
  notes := by simp

theorem hardBounce_run (reason : String) :
    ∃ t, hardBounce settings job reason s [] = (.ok (), t, []) ∧
      Settled job.email.id .failed s t := by
  refine ⟨_, rfl, ?_, by simp⟩
  intro k
  refine (OutreachDb.emailStatus_markEmailFailed _ _ _ _ k).trans ?_
  rw [addToBlacklist_emailStatus]

theorem coolDown_run (until_ : Time) :
    coolDown job until_ s [] =
      (.ok (),
        ⟨(s.db.setCredentialCooldown job.cred.id until_).requeueEmail job.email.id,
          s.journal ++ [.cooldown job.cred.id until_] ++ [.email job.email.id .queued]⟩, []) := rfl

theorem coolDown_settled (until_ : Time) :
    Settled job.email.id .queued s (coolDown job until_ s []).2.1 where
  rows := OutreachDb.emailStatus_requeueEmail _ job.email.id
  notes := by simp [coolDown_run]

theorem disable_settled :
    Settled job.email.id .queued s
      (handleException settings job now (.oauthTokenError "") s []).2.1 where
  rows := OutreachDb.emailStatus_requeueEmail _ job.email.id
  notes := by
    intro i st
    show Write.email i st ∈ s.journal ++ [.disable job.cred.id] ++ [.email job.email.id .queued] ↔ _
    simp

variable {settings job} in
theorem Handler.run {rejects : Bool} {status : EmailStatus} {m : DispatchM Unit}
    (h : Handler settings job rejects (some status) m) :
    ∃ t, m s [] = (.ok (), t, []) ∧ Settled job.email.id status s t := by
  cases h with
  | disables => exact ⟨_, rfl, disable_settled settings job 0 s⟩
  | coolsDown until_ => exact ⟨_, rfl, coolDown_settled job s until_⟩
  | bounces reason => exact hardBounce_run settings job s reason
  | fails message => exact ⟨_, rfl, markEmailFailed_settled job s message job.cred.id⟩

/-- **What a handler leaves.**  Every exception but the list of refused recipients
puts the email, and no other, in the status of `handledStatus`, and the loop goes on. -/
theorem handleException_run {e : Exc} {status : EmailStatus}
    (h : handledStatus e = some status) :
    ∃ t, handleException settings job now e s [] = (.ok (), t, []) ∧
      Settled job.email.id status s t := by
  have hhandler := handler_handleException settings job now e
  rw [h] at hhandler
  exact hhandler.run s

variable {settings job} in
theorem Handler.steady {rejects : Bool} {status : Option EmailStatus} {m : DispatchM Unit}
    (h : Handler settings job rejects status m) : Steady m := by
  cases h with
  | disables => exact steady_bind (steady_write _) fun _ => steady_write _
  | coolsDown until_ => exact steady_bind (steady_write _) fun _ => steady_write _
  | bounces reason => exact steady_bind (steady_write _) fun _ => steady_write _
  | fails message => exact steady_write _
  | raises e => exact steady_raise e

/-- The handlers settle the email on every quiet schedule. -/
theorem handleException_quiet {e : Exc} {status : EmailStatus} (h : handledStatus e = some status)
    {fs : List (Option Exc)} (hq : Quiet fs) :
    ∃ t fs', handleException settings job now e s fs = (.ok (), t, fs') ∧
      Settled job.email.id status s t := by
  obtain ⟨-, fs', -, hrun⟩ := (handler_handleException settings job now e).steady s fs hq
  obtain ⟨t, ht, hset⟩ := handleException_run settings job now s h
  refine ⟨t, fs', ?_, hset⟩
  rw [hrun, ht]

/-- The one exception whose handler raises: nothing is written. -/
theorem handleException_list (refused : List SMTPRecipientRefused) :
    handleException settings job now (.smtpRecipientsRefused (.list refused)) s [] =
      (.error (.attributeError "'list' object has no attribute 'items'"), s, []) := rfl

theorem handledStatus_eq_none_iff {e : Exc} :
    handledStatus e = none ↔ ∃ refused, e = .smtpRecipientsRefused (.list refused) := by
  constructor
  · intro h
    cases e with
    | smtpRecipientsRefused r =>
        cases r with
        | list l => exact ⟨l, rfl⟩
        | dict d => cases h
    | smtpResponseException code m =>
        simp only [handledStatus] at h
        split_ifs at h
    | _ => cases h
  · rintro ⟨l, rfl⟩
    rfl

/-- A handler gives the email back or fails it. -/
theorem handledStatus_eq_some {e : Exc} {status : EmailStatus}
    (h : handledStatus e = some status) : status = .failed ∨ status = .queued := by
  cases e with
  | smtpRecipientsRefused r =>
      cases r with
      | list l => cases h
      | dict d => exact Or.inl (Option.some.inj h).symm
  | smtpResponseException code m =>
      simp only [handledStatus] at h
      split_ifs at h
      · exact Or.inl (Option.some.inj h).symm
      · exact Or.inr (Option.some.inj h).symm
      · exact Or.inl (Option.some.inj h).symm
  | smtpAuthenticationError c m => exact Or.inr (Option.some.inj h).symm
  | oauthTokenError t => exact Or.inr (Option.some.inj h).symm
  | smtpConnectError t => exact Or.inr (Option.some.inj h).symm
  | osError t => exact Or.inr (Option.some.inj h).symm
  | timeoutError t => exact Or.inr (Option.some.inj h).symm
  | attributeError t => exact Or.inl (Option.some.inj h).symm
  | valueError t => exact Or.inl (Option.some.inj h).symm
  | database t => exact Or.inl (Option.some.inj h).symm
  | other t => exact Or.inl (Option.some.inj h).symm

end Handlers

/-! ### An accepted message -/

/-- The email is `SENT`, and this iteration never wrote it back. -/
def StaysSent (job : Job) (store : Store) : Prop :=
  store.db.emailStatus job.email.id = some .sent ∧
    Write.email job.email.id .queued ∉ store.journal ∧
    Write.email job.email.id .failed ∉ store.journal

/--
**An accepted message is `SENT` exactly when `quit` succeeds too.**  Whatever `quit`
raises runs through the handlers of a failed send.
-/
theorem accepted_sent_iff (settings : DispatchSettings) (job : Job) (now : Time)
    (db : OutreachDb) (hrow : db.emailStatus job.email.id = some .sending) (o : SendOutcomes) :
    (o.Accepted → StaysSent job (afterSend settings job now db (sendOneEmail o))) ↔
      (o.Accepted → o.quit = .ok ()) := by
  constructor
  · intro h hacc
    have hstays := h hacc
    rw [sendOneEmail_of_accepted hacc] at hstays
    cases hq : o.quit with
    | ok x => rfl
    | error e =>
        exfalso
        rw [hq] at hstays
        obtain ⟨hsent, -, -⟩ := hstays
        unfold afterSend at hsent
        rw [trySend_error] at hsent
        cases hs : handledStatus e with
        | none =>
            obtain ⟨refused, rfl⟩ := handledStatus_eq_none_iff.mp hs
            rw [handleException_list] at hsent
            exact absurd (hrow.symm.trans hsent) (by simp)
        | some status =>
            obtain ⟨t, ht, hset⟩ := handleException_run settings job now ⟨db, []⟩ hs
            rw [ht, hset.rows, if_pos rfl, hrow] at hsent
            obtain rfl : status = .sent := by simpa using hsent
            rcases handledStatus_eq_some hs with h | h <;> cases h
  · intro h hacc
    rw [sendOneEmail_of_accepted hacc, h hacc]
    unfold StaysSent afterSend
    rw [trySend_ok]
    refine ⟨?_, by simp, by simp⟩
    rw [OutreachDb.emailStatus_markEmailSent, if_pos rfl, hrow]
    rfl

/-- A database with one email, claimed, to one clerk. -/
def oneClaimed : OutreachDb where
  campaigns := Table.empty
  campaignEmails :=
    Table.empty.insertNew fun id =>
      { id, campaignId := 1, leadId := none, recipientEmail := "clerk@city.gov",
        subject := "Hello", body := "Dear clerk", status := .sending, sendingSince := some 0 }
  smtpCredentials := Table.empty
  campaignCredentials := Table.empty
  blacklist := Table.empty

/-- One credential, which is not cooling down. -/
def cityMailbox : Table SMTPCredential :=
  Table.empty.insertNew fun id =>
    { id, host := "mail.city.gov", port := 587, username := "outreach", provider := "basic",
      passwordEncrypted := some ⟨"k1", "pw"⟩, isActive := true, cooldownUntil := some 0,
      dailySendLimit := none, refreshTokenEncrypted := none, accessTokenEncrypted := none,
      tokenExpiresAt := none }

def clerkJob : Job where
  email := ⟨1, 1, "clerk@city.gov", "Hello", "Dear clerk"⟩
  cred :=
    { id := 1, host := "mail.city.gov", port := 587, username := "outreach", provider := "basic",
      password := some "pw", refreshToken := none, accessToken := none, tokenExpiresAt := none,
      dailySendLimit := none }
  nextIndex := 0

def plainSettings : DispatchSettings where
  keys := { primary := "k1" }
  oauth := { clientIds := [] }
  lower := id

/-- The server accepts the message and drops the connection before `QUIT` is answered. -/
def dropsAfterAccept : SendOutcomes where
  connect := .ok ()
  auth := .ok ()
  sendMessage := .ok ()
  quit := .error (.osError "Server disconnected")

theorem accepted_requeued :
    oneClaimed.emailStatus clerkJob.email.id = some .sending ∧
      dropsAfterAccept.Accepted ∧
      ¬ StaysSent clerkJob
        (afterSend plainSettings clerkJob 0 oneClaimed (sendOneEmail dropsAfterAccept)) := by
  refine ⟨by decide, ⟨rfl, rfl, rfl⟩, ?_⟩
  rintro ⟨h, -⟩
  revert h
  decide

/-- With an answered `QUIT` it is sent. -/
theorem accepted_sent :
    StaysSent clerkJob
      (afterSend plainSettings clerkJob 0 oneClaimed
        (sendOneEmail { dropsAfterAccept with quit := .ok () })) :=
  (accepted_sent_iff plainSettings clerkJob 0 oneClaimed (by decide)
    { dropsAfterAccept with quit := .ok () }).mpr (fun _ => rfl) ⟨rfl, rfl, rfl⟩

/-! ### A refused recipient or message -/

/-- The command of the SMTP dialogue a refusal answers. -/
inductive RefusedAt
  | rcpt
  | data
  deriving DecidableEq, Repr

/-- The exception a refusal arrives as: one refused recipient of one is all of them. -/
def refusal (stage : RefusedAt) (code : Int) (message recipient : String) : Exc :=
  match stage with
  | .rcpt => .smtpRecipientsRefused (.list [⟨code, message, recipient⟩])
  | .data => .smtpResponseException code message

/-- The address of the job is on the blacklist, and so is its domain. -/
def Blacklisted (lower : String → String) (db : OutreachDb) (recipient : String) : Prop :=
  (∃ b ∈ db.blacklist.rows, b.email = lower recipient) ∧
    ∃ b ∈ db.blacklist.rows, b.domain = lower (domainPart recipient)

/-- What the outcome table asks for a refusal with this code. -/
structure HandledAsTable (settings : DispatchSettings) (job : Job) (now : Time)
    (db : OutreachDb) (code : Int) (sent : Except Exc Unit) : Prop where
  /-- The loop goes on to its next iteration. -/
  goesOn : iterationResult settings job now db sent = .ok ()
  /-- A temporary refusal gives the email back … -/
  requeued : isTemporary code = true →
    (afterSend settings job now db sent).db.emailStatus job.email.id = some .queued
  /-- … and cools the credential down for an hour. -/
  cooled : isTemporary code = true →
    ∀ c, db.credential? job.cred.id = some c →
      (afterSend settings job now db sent).db.credential? job.cred.id =
        some { c with cooldownUntil := some (now + hours 1) }
  /-- Any other fails it. -/
  failed : isTemporary code = false →
    (afterSend settings job now db sent).db.emailStatus job.email.id = some .failed
  /-- A hard bounce blacklists the address and the domain … -/
  bounced : isHardBounce code = true →
    Blacklisted settings.lower (afterSend settings job now db sent).db job.email.recipientEmail
  /-- … and nothing else does. -/
  spared : isHardBounce code = false →
    (afterSend settings job now db sent).db.blacklist = db.blacklist

/-- Every row of this address carries the address's domain. -/
def RecordsDomain (lower : String → String) (db : OutreachDb) (recipient : String) : Prop :=
  ∀ b ∈ db.blacklist.rows, b.email = lower recipient → b.domain = lower (domainPart recipient)

theorem addToBlacklist_blacklisted {lower : String → String} {db : OutreachDb}
    {recipient : String} (hdom : RecordsDomain lower db recipient) (reason : Option String) :
    Blacklisted lower (db.addToBlacklist lower recipient (domainPart recipient) reason).2
      recipient := by
  unfold OutreachDb.addToBlacklist
  cases h : db.blacklist.first? fun b => b.email == lower recipient with
  | some b =>
      obtain ⟨hb, hget⟩ := Table.first?_spec h
      have hmem := Table.get?_mem hget
      have hemail : b.email = lower recipient := by simpa using hb
      exact ⟨⟨b, hmem, hemail⟩, b, hmem, hdom b hmem hemail⟩
  | none =>
      let row : Nat → Blacklist := fun id =>
        ⟨id, lower recipient, lower (domainPart recipient), reason⟩
      have hnew : row db.blacklist.nextKey ∈ (db.blacklist.insertNew row).rows :=
        (Table.mem_insertNew db.blacklist).mpr (Or.inr rfl)
      exact ⟨⟨_, hnew, rfl⟩, _, hnew, rfl⟩

section Data

variable (settings : DispatchSettings) (job : Job) (now : Time) (db : OutreachDb)
  (hrow : db.emailStatus job.email.id = some .sending) (code : Int) (message : String)

theorem not_temporary_of_hardBounce (h : isHardBounce code = true) : isTemporary code = false := by
  unfold isHardBounce at h
  unfold isTemporary
  simp only [Bool.or_eq_true, beq_iff_eq] at h
  simp only [Bool.or_eq_false_iff, beq_eq_false_iff_ne]
  omega

include hrow

theorem handledAsTable_hardBounce
    (hdom : RecordsDomain settings.lower db job.email.recipientEmail)
    (hb : isHardBounce code = true) :
    HandledAsTable settings job now db code (.error (.smtpResponseException code message)) := by
  have ht := not_temporary_of_hardBounce code hb
  have hstatus : handledStatus (.smtpResponseException code message) = some .failed := by
    simp [handledStatus, hb]
  obtain ⟨t, hrun, hset⟩ := handleException_run settings job now ⟨db, []⟩ hstatus
  have hstore : trySend settings job now (.error (.smtpResponseException code message)) ⟨db, []⟩ []
      = hardBounce settings job s!"{code}: {message}" ⟨db, []⟩ [] := by
    rw [trySend_error]
    simp only [handleException, hb, if_true]
  refine ⟨?_, by simp [ht], by simp [ht], fun _ => ?_, fun _ => ?_, by simp [hb]⟩
  · unfold iterationResult
    rw [trySend_error, hrun]
  · unfold afterSend
    rw [trySend_error, hrun, hset.rows, if_pos rfl, hrow]
    rfl
  · unfold afterSend
    rw [hstore]
    exact addToBlacklist_blacklisted hdom _

theorem handledAsTable_temporary (hb : isHardBounce code = false) (ht : isTemporary code = true) :
    HandledAsTable settings job now db code (.error (.smtpResponseException code message)) := by
  have hstore : trySend settings job now (.error (.smtpResponseException code message))
      ⟨db, []⟩ [] = coolDown job (now + hours 1) ⟨db, []⟩ [] := by
    rw [trySend_error]
    simp only [handleException, hb, ht, if_true, Bool.false_eq_true, if_false]
  refine ⟨?_, fun _ => ?_, fun _ c hc => ?_, by simp [ht], by simp [hb], fun _ => ?_⟩
  · unfold iterationResult
    rw [hstore, coolDown_run]
  · unfold afterSend
    rw [hstore, (coolDown_settled job ⟨db, []⟩ _).rows, if_pos rfl, hrow]
    rfl
  · unfold afterSend
    rw [hstore, coolDown_run]
    show (db.setCredentialCooldown _ _).credential? _ = _
    rw [OutreachDb.setCredentialCooldown, OutreachDb.credential?_updateCredentialWhere,
      if_pos rfl, hc]
    rfl
  · unfold afterSend
    rw [hstore, coolDown_run]
    rfl

theorem handledAsTable_other (hb : isHardBounce code = false) (ht : isTemporary code = false) :
    HandledAsTable settings job now db code (.error (.smtpResponseException code message)) := by
  have hstore : trySend settings job now (.error (.smtpResponseException code message))
      ⟨db, []⟩ [] =
        (.ok (), ⟨db.markEmailFailed job.email.id s!"{code}: {message}" (some job.cred.id),
          [.email job.email.id .failed]⟩, []) := by
    rw [trySend_error]
    simp only [handleException, hb, ht, Bool.false_eq_true, if_false]
    rfl
  refine ⟨?_, by simp [ht], by simp [ht], fun _ => ?_, by simp [hb], fun _ => ?_⟩
  · unfold iterationResult
    rw [hstore]
  · unfold afterSend
    rw [hstore, OutreachDb.emailStatus_markEmailFailed, if_pos rfl, hrow]
    rfl
  · unfold afterSend
    rw [hstore]
    rfl

/-- **A refusal at DATA is handled as the table says**, whatever its code. -/
theorem handledAsTable_of_data
    (hdom : RecordsDomain settings.lower db job.email.recipientEmail) :
    HandledAsTable settings job now db code (.error (.smtpResponseException code message)) := by
  cases hb : isHardBounce code with
  | true => exact handledAsTable_hardBounce settings job now db hrow code message hdom hb
  | false =>
      cases ht : isTemporary code with
      | true => exact handledAsTable_temporary settings job now db hrow code message hb ht
      | false => exact handledAsTable_other settings job now db hrow code message hb ht

end Data

/--
**Which refusals are handled as the table says: those at DATA.**  A refusal at RCPT
arrives as a list of recipients, the handler takes it for a mapping, and the
`AttributeError` ends the whole task.
-/
theorem refusal_handled_iff (settings : DispatchSettings) (job : Job) (now : Time)
    (db : OutreachDb) (hrow : db.emailStatus job.email.id = some .sending)
    (hdom : RecordsDomain settings.lower db job.email.recipientEmail) (stage : RefusedAt)
    (code : Int) (message : String) :
    HandledAsTable settings job now db code
        (.error (refusal stage code message job.email.recipientEmail)) ↔ stage = .data := by
  constructor
  · intro h
    cases stage with
    | data => rfl
    | rcpt =>
        have hgo := h.goesOn
        unfold iterationResult at hgo
        rw [refusal, trySend_error, handleException_list] at hgo
        cases hgo
  · rintro rfl
    exact handledAsTable_of_data settings job now db hrow code message hdom

/-- The clerk's server answers RCPT with 550: the task dies. -/
theorem rcpt_refusal_unhandled :
    ¬ HandledAsTable plainSettings clerkJob 0 oneClaimed 550
      (.error (refusal .rcpt 550 "No such user" "clerk@city.gov")) := by
  intro h
  have hgo := h.goesOn
  revert hgo
  decide

/-- The same refusal at DATA is a hard bounce. -/
theorem data_refusal_handled :
    HandledAsTable plainSettings clerkJob 0 oneClaimed 550
      (.error (refusal .data 550 "No such user" "clerk@city.gov")) :=
  (refusal_handled_iff plainSettings clerkJob 0 oneClaimed (by decide)
    (by intro b hb; cases hb) .data 550 "No such user").mpr rfl

end GovCrawler
