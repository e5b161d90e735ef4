/-
What becomes of the text of an email.

A staged email says to whom it goes, in which campaign, and with which text.  Three kinds of
statement write that: the insert, `update_email`, and the delete.  All others select, claim, send
or give back, and leave it alone; and of all of them only `mark_email_sent` makes an email SENT.

`writes_of_step` says so of every step of the service, so that what follows needs to look at three
kinds of step only.
-/
import GovCrawler.Outreach.Cancellation

namespace GovCrawler

open Relational StoreProgram Prog DispatchM

/-- What of an email the dispatcher does not write. -/
structure Letter where
  campaignId : Nat
  recipientEmail : String
  subject : String
  body : String
  deriving DecidableEq, Repr

def CampaignEmail.letter (e : CampaignEmail) : Letter :=
  ⟨e.campaignId, e.recipientEmail, e.subject, e.body⟩

/-- Every email of `db'` was there, with the same letter, and is SENT only if it was or may be
`marked`; campaigns keep their kind; and what joins the blacklist is in lower case. -/
structure Keeps (lower : String → String) (marked : Nat → Prop) (db db' : OutreachDb) : Prop where
  rows : ∀ k e', db'.email? k = some e' → ∃ e, db.email? k = some e ∧ e'.letter = e.letter ∧
    (e'.status = .sent → e.status = .sent ∨ marked k)
  emailKey : db'.campaignEmails.nextKey = db.campaignEmails.nextKey
  kinds : ∀ k, (db'.campaigns.get? k).map Campaign.kind = (db.campaigns.get? k).map Campaign.kind
  campaignKey : db'.campaigns.nextKey = db.campaigns.nextKey
  listed : ∀ b ∈ db'.blacklist.rows, b ∈ db.blacklist.rows ∨
    ∃ email domain, b.email = lower email ∧ b.domain = lower domain

section Keeps

variable {lower : String → String} {marked : Nat → Prop} {db db' db'' : OutreachDb}

theorem Keeps.refl (lower : String → String) (marked : Nat → Prop) (db : OutreachDb) :
    Keeps lower marked db db :=
  ⟨fun _ e' h => ⟨e', h, rfl, Or.inl⟩, rfl, fun _ => rfl, rfl, fun _ h => Or.inl h⟩

theorem Keeps.trans (h : Keeps lower marked db db') (h' : Keeps lower marked db' db'') :
    Keeps lower marked db db'' where
  rows k e'' he'' := by
    obtain ⟨e', he', hletter', hsent'⟩ := h'.rows k e'' he''
    obtain ⟨e, he, hletter, hsent⟩ := h.rows k e' he'
    refine ⟨e, he, hletter'.trans hletter, fun h => ?_⟩
    exact (hsent' h).elim hsent Or.inr
  emailKey := h'.emailKey.trans h.emailKey
  kinds k := (h'.kinds k).trans (h.kinds k)
  campaignKey := h'.campaignKey.trans h.campaignKey
  listed b hb := (h'.listed b hb).elim (h.listed b) Or.inr

/-- What is written is neither an email nor a campaign nor the blacklist. -/
theorem Keeps.of_eq (hemails : db'.campaignEmails = db.campaignEmails)
    (hcampaigns : db'.campaigns = db.campaigns) (hblacklist : db'.blacklist = db.blacklist) :
    Keeps lower marked db db' where
  rows k e' he' := by
    refine ⟨e', ?_, rfl, Or.inl⟩
    unfold OutreachDb.email? at he' ⊢
    rwa [← hemails]
  emailKey := by rw [hemails]
  kinds k := by rw [hcampaigns]
  campaignKey := by rw [hcampaigns]
  listed b hb := Or.inl (hblacklist ▸ hb)

/-- An update that leaves the letter alone. -/
theorem Keeps.updateEmails (lower : String → String) (marked : Nat → Prop) (db : OutreachDb)
    (p : CampaignEmail → Bool) (f : CampaignEmail → CampaignEmail) (hf : ∀ e, (f e).id = e.id)
    (hletter : ∀ e, p e = true → (f e).letter = e.letter)
    (hsent : ∀ e, p e = true → (f e).status = .sent → e.status = .sent ∨ marked e.id) :
    Keeps lower marked db (db.updateEmails p f hf) where
  rows k e' he' := by
    rw [OutreachDb.email?_updateEmails] at he'
    obtain ⟨e, he, rfl⟩ := Option.map_eq_some_iff.mp he'
    refine ⟨e, he, ?_⟩
    by_cases hp : p e = true
    · rw [if_pos hp]
      exact ⟨hletter e hp, fun h => db.email?_id he ▸ hsent e hp h⟩
    · rw [if_neg hp]
      exact ⟨rfl, Or.inl⟩
  emailKey := rfl
  kinds _ := rfl
  campaignKey := rfl
  listed _ hb := Or.inl hb

theorem Keeps.updateCampaignStatus (c : Nat) (status : CampaignStatus) (reason : Option String) :
    Keeps lower marked db (db.updateCampaignStatus c status reason).2 where
  rows _ e' he' := ⟨e', he', rfl, Or.inl⟩
  emailKey := rfl
  kinds k := by
    unfold OutreachDb.updateCampaignStatus
    dsimp only
    rw [Table.get?_updateWhere]
    cases db.campaigns.get? k with
    | none => rfl
    | some campaign =>
        rw [Option.map_some, Option.map_some]
        split
        · rfl
        · rfl
  campaignKey := rfl
  listed _ hb := Or.inl hb

theorem Keeps.addToBlacklist (email domain : String) (reason : Option String) :
    Keeps lower marked db (db.addToBlacklist lower email domain reason).2 := by
  unfold OutreachDb.addToBlacklist
  split
  · exact .refl lower marked db
  · refine ⟨fun _ e' he' => ⟨e', he', rfl, Or.inl⟩, rfl, fun _ => rfl, rfl, fun b hb => ?_⟩
    rcases (Table.mem_insertNew _).mp hb with hold | rfl
    · exact Or.inl hold
    · exact Or.inr ⟨email, domain, rfl, rfl⟩

theorem Keeps.deleteCampaignEmail (emailId : Nat) :
    Keeps lower marked db (db.deleteCampaignEmail emailId).2 where
  rows k e' he' := by
    rw [OutreachDb.email?_deleteCampaignEmail] at he'
    exact ⟨e', (Option.filter_eq_some_iff.mp he').1, rfl, Or.inl⟩
  emailKey := rfl
  kinds _ := rfl
  campaignKey := rfl
  listed _ hb := Or.inl hb

theorem Keeps.queueCampaignEmails (c : Nat) :
    Keeps lower marked db (db.queueCampaignEmails c).2 :=
  Keeps.updateEmails _ _ db _ _ _ (by intro _ _; rfl) (by rintro _ _ ⟨⟩)

theorem Keeps.cancelRemainingQueued (c : Nat) :
    Keeps lower marked db (db.cancelRemainingQueued c).2 :=
  Keeps.updateEmails _ _ db _ _ _ (by intro _ _; rfl) (by rintro _ _ ⟨⟩)

theorem Keeps.recoverStuckSending (threshold : Nat) (now : Time) :
    Keeps lower marked db (db.recoverStuckSending threshold now).2 :=
  Keeps.updateEmails _ _ db _ _ _ (by intro _ _; rfl) (by rintro _ _ ⟨⟩)

theorem Keeps.requeueEmail (emailId : Nat) : Keeps lower marked db (db.requeueEmail emailId) :=
  Keeps.updateEmails _ _ db _ _ _ (by intro _ _; rfl) (by rintro _ _ ⟨⟩)

theorem Keeps.markEmailFailed (emailId : Nat) (message : String) (credentialId : Option Nat) :
    Keeps lower marked db (db.markEmailFailed emailId message credentialId) :=
  Keeps.updateEmails _ _ db _ _ _ (by intro _ _; rfl) (by rintro _ _ ⟨⟩)

theorem Keeps.markEmailSent (emailId : Nat) (credentialId : Option Nat) (now : Time) :
    Keeps lower (· = emailId) db (db.markEmailSent emailId credentialId now) :=
  Keeps.updateEmails _ _ db _ _ _ (by intro _ _; rfl)
    fun _ hp _ => Or.inr (beq_iff_eq.mp hp)

theorem Keeps.setEmailSelection (emailId : Nat) (isSelected : Bool) :
    Keeps lower marked db (db.setEmailSelection emailId isSelected).2 := by
  unfold OutreachDb.setEmailSelection
  split
  · exact .refl lower marked db
  · split
    · exact Keeps.updateEmails _ _ db _ _ _ (by intro _ _; rfl) fun _ _ => Or.inl
    · refine Keeps.updateEmails _ _ db _ _ _ (by intro _ _; rfl) fun e _ h => Or.inl ?_
      dsimp only at h
      split at h
      · exact h
      · cases h
    · exact .refl lower marked db

theorem Keeps.setAllEmailSelection (c : Nat) (isSelected : Bool) :
    Keeps lower marked db (db.setAllEmailSelection c isSelected).2 := by
  have hdrafts : Keeps lower marked db (db.updateEmails
      (fun e => e.campaignId == c && e.status == .draft) fun e => { e with isSelected }) :=
    Keeps.updateEmails _ _ db _ _ _ (by intro _ _; rfl) fun _ _ => Or.inl
  unfold OutreachDb.setAllEmailSelection
  dsimp only
  split
  · exact hdrafts
  · exact hdrafts.trans
      (Keeps.updateEmails _ _ _ _ _ _ (by intro _ _; rfl) (by rintro _ _ ⟨⟩))

theorem Keeps.claimOnce (c : Nat) (now : Time) :
    Keeps lower marked db (db.claimOnce c now).2 := by
  unfold OutreachDb.claimOnce
  split
  · exact .refl lower marked db
  · exact Keeps.updateEmails _ _ db _ _ _ (by intro _ _; rfl) (by rintro _ _ ⟨⟩)

theorem Keeps.claimRounds (c : Nat) (now : Time) :
    Keeps lower marked db (OutreachDb.claimRounds c now 5 db).2 := by
  rcases db.claimRounds_cases c now 4 with ⟨-, hnone⟩ | ⟨e, -, -, hclaim, -⟩
  · rw [hnone]
    exact .refl lower marked db
  · rw [hclaim]
    exact Keeps.claimOnce c now

/-- The handlers of a send. -/
theorem Handler.keeps {settings : DispatchSettings} {job : Job} {rejects : Bool}
    {status : Option EmailStatus} {m : DispatchM Unit} (h : Handler settings job rejects status m)
    (before : OutreachDb) :
    Preserves (fun s : Store => Keeps settings.lower marked before s.db) m := by
  cases h with
  | disables =>
      exact preserves_bind (preserves_write fun s h => h.trans (.of_eq rfl rfl rfl))
        fun _ => preserves_write fun s h => h.trans (Keeps.requeueEmail _)
  | coolsDown until_ =>
      exact preserves_bind (preserves_write fun s h => h.trans (.of_eq rfl rfl rfl))
        fun _ => preserves_write fun s h => h.trans (Keeps.requeueEmail _)
  | bounces reason =>
      exact preserves_bind (preserves_write fun s h => h.trans (Keeps.addToBlacklist _ _ _))
        fun _ => preserves_write fun s h => h.trans (Keeps.markEmailFailed _ _ _)
  | fails message => exact preserves_write fun s h => h.trans (Keeps.markEmailFailed _ _ _)
  | raises e => exact preserves_raise e

theorem Keeps.failedSend (settings : DispatchSettings) (job : Job) (now : Time) (e : Exc) :
    Keeps settings.lower marked db (trySend settings job now (.error e) ⟨db, []⟩ []).2.1.db := by
  rw [trySend_error]
  exact (handler_handleException settings job now e).keeps db ⟨db, []⟩ [] (.refl _ _ db)

/-- A call of a task. -/
theorem Keeps.dispatchCall (settings : DispatchSettings) (c : Nat) (now : Time) (pc : CallPc) :
    Keeps lower marked db (dispatchCall settings c now (pc, db)).2 := by
  cases pc with
  | queueing => exact Keeps.queueCampaignEmails c
  | completing => exact Keeps.updateCampaignStatus c _ _
  | pausing reason => exact Keeps.updateCampaignStatus c _ _
  | cancelling => exact Keeps.cancelRemainingQueued c
  | claiming credIndex => exact Keeps.claimRounds c now
  | counted | checking | head | draining | choosing | sending | stopped =>
      exact .refl lower marked db

end Keeps

/-! ### Steps of the service -/

/-- The new emails of a campaign, in the order in which they are staged. -/
structure Appends (campaignId : Nat) (emails : List OutreachDb.StagedEmail)
    (db db' : OutreachDb) : Prop where
  old : ∀ k e, db.email? k = some e → db'.email? k = some e
  rows : ∀ k e', db'.email? k = some e' → db.email? k = some e' ∨
    ∃ i e, emails[i]? = some e ∧ k = db.campaignEmails.nextKey + i ∧
      e'.letter = ⟨campaignId, e.recipientEmail, e.subject, e.body⟩ ∧ e'.status = .draft
  new : ∀ i e, emails[i]? = some e → ∃ e', db'.email? (db.campaignEmails.nextKey + i) = some e' ∧
    e'.recipientEmail = e.recipientEmail
  emailKey : db'.campaignEmails.nextKey = db.campaignEmails.nextKey + emails.length

theorem appends_bulkCreate (campaignId : Nat) (emails : List OutreachDb.StagedEmail)
    (db : OutreachDb) :
    Appends campaignId emails db (db.bulkCreateCampaignEmails campaignId emails).2 := by
  have hget : ∀ k, (db.bulkCreateCampaignEmails campaignId emails).2.email? k =
      if db.campaignEmails.nextKey ≤ k then
        (emails[k - db.campaignEmails.nextKey]?).map fun e =>
          { id := k, campaignId, leadId := e.leadId, recipientEmail := e.recipientEmail,
            subject := e.subject, body := e.body, status := .draft, isSelected := e.isSelected,
            missingFields := e.missingFields }
      else db.email? k :=
    fun k => Table.get?_foldl_insertNew _ (by intro _ _; rfl) emails db.campaignEmails k
  refine ⟨?_, ?_, ?_, Table.nextKey_foldl_insertNew _ (by intro _ _; rfl) emails db.campaignEmails⟩
  · intro k e he
    have hlt := Table.lt_nextKey_of_get? he
    rw [hget, if_neg (by omega)]
    exact he
  · intro k e' he'
    rw [hget] at he'
    by_cases hle : db.campaignEmails.nextKey ≤ k
    · rw [if_pos hle] at he'
      obtain ⟨e, he, rfl⟩ := Option.map_eq_some_iff.mp he'
      exact Or.inr ⟨_, e, he, by omega, rfl, rfl⟩
    · rw [if_neg hle] at he'
      exact Or.inl he'
  · intro i e he
    rw [hget, if_pos (Nat.le_add_right _ i), Nat.add_sub_cancel_left, he]
    exact ⟨_, rfl, rfl⟩

/-- An edit that is answered without an error. -/
def OutreachDb.Edits (db : OutreachDb) (user : CurrentUser) (campaignId emailId : Nat)
    (req : CampaignEmailUpdate) : Prop :=
  (updateCampaignEmail db user campaignId emailId req).1.isOk = true

namespace Service

/-- What a step does to the letters. -/
inductive Writes (settings : DispatchSettings) (s s' : Service) : ServiceAction → Prop
  | keeps {a : ServiceAction} (h : Keeps settings.lower (fun _ => False) s.db s'.db) :
      Writes settings s s' a
  | marks {i campaignId : Nat} {job : Job} (hget : s.tasks[i]? = some ⟨campaignId, .sending job⟩)
      (h : Keeps settings.lower (· = job.email.id) s.db s'.db) :
      Writes settings s s' (.sent i (.ok ()))
  | edits {user : CurrentUser} {campaignId emailId : Nat} {req : CampaignEmailUpdate}
      (hadmitted : s.db.Edits user campaignId emailId req)
      (hdb : s'.db = (s.db.updateEmail emailId req.subject req.body).2)
      (htasks : s'.tasks = s.tasks) :
      Writes settings s s' (.request user (.email campaignId emailId (.edit req)))
  | stages {user : CurrentUser} {campaignId : Nat} {leadIds : List Nat}
      {emails : List OutreachDb.StagedEmail}
      (hdb : s'.db = (s.db.bulkCreateCampaignEmails campaignId emails).2)
      (htasks : s'.tasks = s.tasks) :
      Writes settings s s' (.addEmails user campaignId leadIds (.ok emails))

variable {mode : DispatchMode} {settings : DispatchSettings} {s s' : Service}

/-- An edit that is refused changes no email. -/
theorem updateCampaignEmail_cases (lower : String → String) (marked : Nat → Prop) (db : OutreachDb)
    (user : CurrentUser) (campaignId emailId : Nat) (req : CampaignEmailUpdate) :
    (db.Edits user campaignId emailId req ∧
        (updateCampaignEmail db user campaignId emailId req).2 =
          (db.updateEmail emailId req.subject req.body).2) ∨
      (¬ db.Edits user campaignId emailId req ∧
        Keeps lower marked db (updateCampaignEmail db user campaignId emailId req).2) := by
  unfold OutreachDb.Edits updateCampaignEmail
  split
  · exact Or.inr ⟨Bool.false_ne_true, .refl lower marked db⟩
  · split
    · exact Or.inr ⟨Bool.false_ne_true, .refl lower marked db⟩
    · split
      · rename_i db' hupdate
        obtain ⟨hnone, rfl⟩ := Prod.mk.inj hupdate
        refine Or.inr ⟨Bool.false_ne_true, ?_, rfl, fun _ => rfl, rfl, fun _ hb => Or.inl hb⟩
        intro k e' he'
        rw [OutreachDb.email?_updateEmails_id] at he'
        by_cases hk : k = emailId
        · rw [if_pos hk, hk, Option.isSome_eq_false_iff.mp hnone |> Option.isNone_iff_eq_none.mp]
            at he'
          cases he'
        · rw [if_neg hk] at he'
          exact ⟨e', he', rfl, Or.inl⟩
      · rename_i db' hupdate
        rw [hupdate]
        exact Or.inl ⟨rfl, rfl⟩

/-- A request of a single email. -/
theorem writes_serveEmailRequest (user : CurrentUser) (campaignId emailId : Nat)
    (req : EmailRequest) :
    Writes settings s (s.serve mode settings user (.email campaignId emailId req))
      (.request user (.email campaignId emailId req)) := by
  cases req with
  | edit req =>
      rcases updateCampaignEmail_cases settings.lower (fun _ => False) s.db user campaignId emailId
          req with ⟨hadmitted, hdb⟩ | ⟨-, hkeeps⟩
      · exact .edits hadmitted hdb rfl
      · exact .keeps hkeeps
  | select req =>
      refine .keeps ?_
      rcases serveEmailRequest_write s.db user campaignId emailId (.select req) with h | h
      · show Keeps _ _ s.db (serveEmailRequest s.db user campaignId emailId (.select req)).2
        rw [h]
        exact .refl _ _ s.db
      · show Keeps _ _ s.db (serveEmailRequest s.db user campaignId emailId (.select req)).2
        rw [h]
        exact .setEmailSelection emailId req.isSelected
  | delete =>
      refine .keeps ?_
      rcases serveEmailRequest_write s.db user campaignId emailId .delete with h | h
      · show Keeps _ _ s.db (serveEmailRequest s.db user campaignId emailId .delete).2
        rw [h]
        exact .refl _ _ s.db
      · show Keeps _ _ s.db (serveEmailRequest s.db user campaignId emailId .delete).2
        rw [h]
        exact .deleteCampaignEmail emailId

theorem writes_of_step {a : ServiceAction} (h : s.step mode settings a = some s') :
    Writes settings s s' a := by
  cases a with
  | tick span =>
      obtain rfl := Option.some.inj h
      exact .keeps (.refl _ _ s.db)
  | request user req =>
      obtain rfl := Option.some.inj h
      cases req with
      | dispatch campaignId =>
          unfold serve
          dsimp only
          split
          · exact .keeps (.refl _ _ s.db)
          · rename_i db haccepted
            refine .keeps ?_
            rw [dispatchCampaign_eq_ok haccepted]
            exact .updateCampaignStatus _ _ _
      | setStatus campaignId value =>
          unfold serve
          dsimp only
          split
          · exact .keeps (.refl _ _ s.db)
          · rename_i db haccepted
            obtain ⟨status, -, hdb⟩ := patchCampaignStatus_eq_ok haccepted
            refine .keeps ?_
            rw [hdb]
            exact .updateCampaignStatus _ _ _
      | email campaignId emailId req => exact writes_serveEmailRequest user campaignId emailId req
      | selectAll campaignId req =>
          refine .keeps ?_
          show Keeps _ _ s.db (bulkToggleEmailSelection s.db user campaignId req).2
          unfold bulkToggleEmailSelection
          split
          · exact .refl _ _ s.db
          · exact .setAllEmailSelection campaignId _
  | addEmails user campaignId leadIds rendered =>
      dsimp only [step] at h
      split at h
      · obtain rfl := Option.some.inj h
        exact .keeps (.refl _ _ s.db)
      · rename_i n db haccepted
        obtain rfl := Option.some.inj h
        obtain ⟨emails, rfl, hr⟩ := addEmailsToCampaign_eq_ok haccepted
        obtain ⟨-, rfl⟩ := Prod.mk.inj hr
        exact .stages rfl rfl
  | poll campaignId =>
      dsimp only [step] at h
      split at h
      · obtain rfl := Option.some.inj h
        exact .keeps (.refl _ _ s.db)
      · cases h
  | sweep =>
      obtain rfl := Option.some.inj h
      exact .keeps (.recoverStuckSending _ _)
  | credentials smtpCredentials campaignCredentials =>
      obtain rfl := Option.some.inj h
      exact .keeps (.of_eq rfl rfl rfl)
  | call i =>
      dsimp only [step] at h
      split at h
      · cases h
      · rename_i t hget
        obtain rfl := Option.some.inj h
        exact .keeps (.dispatchCall settings t.campaignId s.now t.pc)
  | sent i outcome =>
      dsimp only [step] at h
      split at h
      · rename_i campaignId job hget
        obtain rfl := Option.some.inj h
        cases outcome with
        | ok u => exact .marks hget (.markEmailSent job.email.id _ s.now)
        | error e => exact .keeps (.failedSend settings job s.now e)
      · cases h
  | crash i =>
      dsimp only [step] at h
      split at h
      · cases h
      · obtain rfl := Option.some.inj h
        exact .keeps (.refl _ _ s.db)

end Service

end GovCrawler
