/-
The dispatch tasks call by call, next to the requests.

In `dispatch.mode: external` the tasks run in a process of their own,
`cloud/dispatch_service.py`, and the API writes to the database between any two of a
task's calls.  So a task is cut at its database calls here and not at its awaits.  A
handler of the API has no `await` in it, so a request is one action.  What the credentials
become meanwhile, and how a send ends, is left to the outside.

`calls_prologue` and `calls_head` say that calls made back to back are the segments of
`Dispatch`, which is how they are made in embedded mode.
-/
import Mathlib.Logic.Function.Iterate
import GovCrawler.Outreach.DispatchSystem

namespace GovCrawler

open Relational StoreProgram Prog DispatchM

inductive DispatchMode
  | embedded | external
  deriving DecidableEq, Repr

/-- The call a task makes next. -/
inductive CallPc
  | queueing
  /-- `has_queued_email`, where nothing was queued. -/
  | counted (queuedCount : Nat)
  | checking
  /-- `update_campaign_status` to COMPLETED, after which the task is through. -/
  | completing
  /-- The same to PAUSED. -/
  | pausing (reason : Option String)
  | head (credIndex : Nat)
  | cancelling
  /-- The status has been read, and did not stop it. -/
  | claiming (credIndex : Nat)
  | draining
  | choosing (credIndex : Nat) (email : ClaimedEmail)
  | sending (job : Job)
  | stopped
  deriving DecidableEq, Repr

structure CallTask where
  campaignId : Nat
  pc : CallPc
  deriving DecidableEq, Repr

/-! ### One call of a task -/

/-- What `resolve_credential_pool` before the loop leads to. -/
def CallPc.afterCheck : Except Exc (List Credential) → CallPc
  | .error _ => .stopped
  | .ok [] => .pausing (some noUsableCredentialsReason)
  | .ok (_ :: _) => .head 0

/-- What step a leads to. -/
def CallPc.afterStatus (credIndex : Nat) : Option CampaignStatus → CallPc
  | none => .stopped
  | some .paused => .stopped
  | some .cancelled => .cancelling
  | some .running => .claiming credIndex
  | some .completed => .claiming credIndex

/-- What step b leads to, with the row of the email that was claimed. -/
def CallPc.afterClaim (credIndex : Nat) : Option (Option CampaignEmail) → CallPc
  | none => .draining
  | some none => .stopped
  | some (some e) =>
      .choosing credIndex ⟨e.id, e.campaignId, e.recipientEmail, e.subject, e.body⟩

/-- What step d leads to. -/
def CallPc.afterPool (credIndex : Nat) (email : ClaimedEmail) :
    Except Exc (List Credential) → CallPc
  | .error _ => .stopped
  | .ok creds =>
      match getNextCredential creds credIndex with
      | none => .pausing (some noUsableCredentialsReason)
      | some (cred, nextIndex) => .sending ⟨email, cred, nextIndex⟩

/-- Back to the top of the loop, unless a handler raised. -/
def CallPc.afterSend (job : Job) : Except Exc Unit → CallPc
  | .ok _ => .head job.nextIndex
  | .error _ => .stopped

/-- One call of `run_campaign_dispatch`.  A task that sends makes none until the send has
ended. -/
def dispatchCall (settings : DispatchSettings) (campaignId : Nat) (now : Time)
    (s : CallPc × OutreachDb) : CallPc × OutreachDb :=
  let db := s.2
  match s.1 with
  | .queueing =>
      (.counted (db.queueCampaignEmails campaignId).1, (db.queueCampaignEmails campaignId).2)
  | .counted queuedCount =>
      (if queuedCount = 0 ∧ db.hasQueuedEmail campaignId = false then .completing
        else .checking, db)
  | .checking => (.afterCheck (db.pool settings campaignId now), db)
  | .completing => (.stopped, (db.updateCampaignStatus campaignId .completed none).2)
  | .pausing reason => (.stopped, (db.updateCampaignStatus campaignId .paused reason).2)
  | .head credIndex =>
      (.afterStatus credIndex ((db.getCampaign campaignId none false).map Campaign.status), db)
  | .cancelling => (.stopped, (db.cancelRemainingQueued campaignId).2)
  | .claiming credIndex =>
      let r := OutreachDb.claimRounds campaignId now 5 db
      (.afterClaim credIndex (r.1.map r.2.email?), r.2)
  | .draining =>
      (if db.hasRemainingDrafts campaignId then .pausing none else .completing, db)
  | .choosing credIndex email => (.afterPool credIndex email (db.pool settings campaignId now), db)
  | .sending job => (.sending job, db)
  | .stopped => (.stopped, db)

/-! ### Calls back to back -/

section BackToBack

variable (settings : DispatchSettings) (campaignId : Nat) (now : Time) (db : OutreachDb)

/-- Where a task is when the prologue has ended. -/
def CallPc.ofPrologue : Except Exc Bool → CallPc
  | .ok true => .head 0
  | .ok false => .stopped
  | .error _ => .stopped

/-- Where a task is when the top of an iteration has ended. -/
def CallPc.ofHead : Except Exc Head → CallPc
  | .ok (.send job) => .sending job
  | .ok .stop => .stopped
  | .error _ => .stopped

theorem calls_requireCredentials :
    ∃ n, (dispatchCall settings campaignId now)^[n] (.checking, db) =
      (.ofPrologue (requireCredentials settings campaignId now ⟨db, []⟩ []).1,
        (requireCredentials settings campaignId now ⟨db, []⟩ []).2.1.db) := by
  unfold requireCredentials
  rw [bind_apply, resolveCredentialPool_run]
  have hcall : dispatchCall settings campaignId now (.checking, db) =
      (.afterCheck (db.pool settings campaignId now), db) := rfl
  cases hpool : db.pool settings campaignId now with
  | error e =>
      refine ⟨1, ?_⟩
      rw [Function.iterate_one, hcall, hpool]
      rfl
  | ok creds =>
      cases creds with
      | nil =>
          refine ⟨2, ?_⟩
          rw [Function.iterate_succ_apply, Function.iterate_one, hcall, hpool]
          rfl
      | cons cred creds =>
          refine ⟨1, ?_⟩
          rw [Function.iterate_one, hcall, hpool]
          rfl

/-- **The prologue.** -/
theorem calls_prologue :
    ∃ n, (dispatchCall settings campaignId now)^[n] (.queueing, db) =
      (.ofPrologue (dispatchPrologue settings campaignId now ⟨db, []⟩ []).1,
        (dispatchPrologue settings campaignId now ⟨db, []⟩ []).2.1.db) := by
  let queuedCount := (db.queueCampaignEmails campaignId).1
  let db' := (db.queueCampaignEmails campaignId).2
  -- whether there is anything to send decides which of the two calls is next
  have hrest : dispatchPrologue settings campaignId now ⟨db, []⟩ [] =
      if queuedCount = 0 ∧ db'.hasQueuedEmail campaignId = false then
        (.ok false, ⟨(db'.updateCampaignStatus campaignId .completed none).2, []⟩, [])
      else requireCredentials settings campaignId now ⟨db', []⟩ [] := by
    unfold dispatchPrologue
    show (anythingQueued campaignId queuedCount >>= _) ⟨db', []⟩ [] = _
    unfold anythingQueued
    by_cases hcount : queuedCount = 0
    · rw [if_pos hcount]
      cases hqueued : db'.hasQueuedEmail campaignId with
      | false =>
          rw [if_pos ⟨hcount, rfl⟩, bind_apply]
          show (if db'.hasQueuedEmail campaignId then _ else _ : DispatchM Bool) ⟨db', []⟩ [] = _
          rw [hqueued]
          rfl
      | true =>
          rw [if_neg (fun h => Bool.noConfusion h.2), bind_apply]
          show (if db'.hasQueuedEmail campaignId then _ else _ : DispatchM Bool) ⟨db', []⟩ [] = _
          rw [hqueued]
          rfl
    · rw [if_neg hcount, if_neg fun h => hcount h.1]
      rfl
  have hcalls : (dispatchCall settings campaignId now)^[2] (.queueing, db) =
      (if queuedCount = 0 ∧ db'.hasQueuedEmail campaignId = false then .completing
        else .checking, db') := rfl
  rw [hrest]
  by_cases hnothing : queuedCount = 0 ∧ db'.hasQueuedEmail campaignId = false
  · rw [if_pos hnothing] at hcalls ⊢
    refine ⟨3, ?_⟩
    rw [Function.iterate_succ_apply', hcalls]
    rfl
  · rw [if_neg hnothing] at hcalls ⊢
    obtain ⟨n, hn⟩ := calls_requireCredentials settings campaignId now db'
    exact ⟨n + 2, by rw [Function.iterate_add_apply, hcalls, hn]⟩

theorem calls_choose (credIndex : Nat) (email : ClaimedEmail) (journal : List Write) :
    ∃ n, (dispatchCall settings campaignId now)^[n] (.choosing credIndex email, db) =
      (.ofHead (chooseCredential settings campaignId credIndex now email ⟨db, journal⟩ []).1,
        (chooseCredential settings campaignId credIndex now email ⟨db, journal⟩ []).2.1.db) := by
  have hcall : dispatchCall settings campaignId now (.choosing credIndex email, db) =
      (.afterPool credIndex email (db.pool settings campaignId now), db) := rfl
  unfold chooseCredential
  rw [bind_apply, resolveCredentialPool_run]
  cases hpool : db.pool settings campaignId now with
  | error e =>
      refine ⟨1, ?_⟩
      rw [Function.iterate_one, hcall, hpool]
      rfl
  | ok creds =>
      rw [hpool] at hcall
      unfold CallPc.afterPool at hcall
      dsimp only at hcall ⊢
      cases hnext : getNextCredential creds credIndex with
      | none =>
          rw [hnext] at hcall
          refine ⟨2, ?_⟩
          rw [Function.iterate_succ_apply, Function.iterate_one, hcall]
          rfl
      | some next =>
          rw [hnext] at hcall
          refine ⟨1, ?_⟩
          rw [Function.iterate_one, hcall]
          rfl

theorem calls_claim (credIndex : Nat) :
    ∃ n, (dispatchCall settings campaignId now)^[n] (.claiming credIndex, db) =
      (.ofHead (claimAndChoose settings campaignId credIndex now ⟨db, []⟩ []).1,
        (claimAndChoose settings campaignId credIndex now ⟨db, []⟩ []).2.1.db) := by
  have hcall : dispatchCall settings campaignId now (.claiming credIndex, db) =
      (.afterClaim credIndex ((OutreachDb.claimRounds campaignId now 5 db).1.map
        (OutreachDb.claimRounds campaignId now 5 db).2.email?),
        (OutreachDb.claimRounds campaignId now 5 db).2) := rfl
  unfold claimAndChoose claimNextQueuedEmail
  rw [bind_apply, bind_apply]
  cases hclaim : OutreachDb.claimRounds campaignId now 5 db with
  | mk claimed db' =>
      rw [hclaim] at hcall
      cases claimed with
      | none =>
          have hrow : claimRow campaignId now ⟨db, []⟩ [] = (.ok none, ⟨db', []⟩, []) := by
            unfold claimRow
            rw [call_quiet quiet_nil, hclaim]
            rfl
          rw [hrow]
          have hdrain : dispatchCall settings campaignId now (.draining, db') =
              (if db'.hasRemainingDrafts campaignId then .pausing none else .completing, db') := rfl
          have hfinish : finishCampaign campaignId ⟨db', []⟩ [] =
              (.ok .stop, ⟨(db'.updateCampaignStatus campaignId
                (if db'.hasRemainingDrafts campaignId then .paused else .completed) none).2, []⟩,
                []) := rfl
          dsimp only [Prog.pure_apply]
          rw [hfinish]
          refine ⟨3, ?_⟩
          rw [Function.iterate_succ_apply, hcall, Function.iterate_succ_apply]
          show dispatchCall settings campaignId now
            (dispatchCall settings campaignId now (.draining, db')) = _
          rw [hdrain]
          split
          · rfl
          · rfl
      | some emailId =>
          have hrow : claimRow campaignId now ⟨db, []⟩ [] =
              (.ok (some emailId), ⟨db', [.email emailId .sending]⟩, []) := by
            unfold claimRow
            rw [call_quiet quiet_nil, hclaim]
            rfl
          rw [hrow]
          dsimp only
          rw [bind_apply]
          cases hemail : db'.email? emailId with
          | none =>
              have hread : readClaimed emailId ⟨db', [.email emailId .sending]⟩ [] =
                  (.error (.other
                    "Instance has been deleted, or its row is otherwise not present."),
                    ⟨db', [.email emailId .sending]⟩, []) := by
                unfold readClaimed query
                rw [bind_apply, read_quiet quiet_nil]
                dsimp only
                rw [hemail]
                rfl
              rw [hread]
              refine ⟨1, ?_⟩
              rw [Function.iterate_one, hcall]
              dsimp only
              rw [Option.map_some, hemail]
              rfl
          | some e =>
              have hread : readClaimed emailId ⟨db', [.email emailId .sending]⟩ [] =
                  (.ok ⟨e.id, e.campaignId, e.recipientEmail, e.subject, e.body⟩,
                    ⟨db', [.email emailId .sending]⟩, []) := by
                unfold readClaimed query
                rw [bind_apply, read_quiet quiet_nil]
                dsimp only
                rw [hemail]
                rfl
              rw [hread]
              obtain ⟨n, hn⟩ := calls_choose settings campaignId now db' credIndex
                ⟨e.id, e.campaignId, e.recipientEmail, e.subject, e.body⟩
                [.email emailId .sending]
              refine ⟨n + 1, ?_⟩
              rw [Function.iterate_succ_apply, hcall]
              dsimp only
              rw [Option.map_some, hemail]
              exact hn

/-- **The top of an iteration.** -/
theorem calls_head (credIndex : Nat) :
    ∃ n, (dispatchCall settings campaignId now)^[n] (.head credIndex, db) =
      (.ofHead (loopHead settings campaignId credIndex now ⟨db, []⟩ []).1,
        (loopHead settings campaignId credIndex now ⟨db, []⟩ []).2.1.db) := by
  have hcall : dispatchCall settings campaignId now (.head credIndex, db) =
      (.afterStatus credIndex ((db.getCampaign campaignId none false).map Campaign.status), db) :=
    rfl
  unfold loopHead query
  rw [bind_apply, read_quiet quiet_nil]
  dsimp only
  obtain ⟨n, hn⟩ := calls_claim settings campaignId now db credIndex
  cases hstatus : (db.getCampaign campaignId none false).map Campaign.status with
  | none =>
      refine ⟨1, ?_⟩
      rw [Function.iterate_one, hcall, hstatus]
      rfl
  | some status =>
      rw [hstatus] at hcall
      cases status with
      | paused => exact ⟨1, by rw [Function.iterate_one, hcall]; rfl⟩
      | cancelled =>
          refine ⟨2, ?_⟩
          rw [Function.iterate_succ_apply, Function.iterate_one, hcall]
          rfl
      | running =>
          refine ⟨n + 1, ?_⟩
          rw [Function.iterate_succ_apply, hcall]
          exact hn
      | completed =>
          refine ⟨n + 1, ?_⟩
          rw [Function.iterate_succ_apply, hcall]
          exact hn

end BackToBack

/-! ### The two processes -/

structure Service where
  now : Time
  db : OutreachDb
  tasks : List CallTask

inductive ServiceAction
  | tick (span : Time)
  | request (user : CurrentUser) (req : Request)
  | addEmails (user : CurrentUser) (campaignId : Nat) (leadIds : List Nat)
      (rendered : Except HttpError (List OutreachDb.StagedEmail))
  /-- `_poll_loop` finds a running campaign without a task. -/
  | poll (campaignId : Nat)
  | sweep
  /-- Credentials are added, edited, refreshed, or assigned to other campaigns. -/
  | credentials (smtpCredentials : Table SMTPCredential)
      (campaignCredentials : Table CampaignCredential)
  /-- A task makes its next call. -/
  | call (i : Nat)
  /-- The send of a task has ended, and what was raised is handled. -/
  | sent (i : Nat) (outcome : Except Exc Unit)
  /-- A call of a task raises, or its process dies. -/
  | crash (i : Nat)

namespace Service

/-- The task of an accepted dispatch. -/
def spawned : DispatchMode → Nat → List CallTask
  | .embedded, campaignId => [⟨campaignId, .queueing⟩]
  | .external, _ => []

def goto (s : Service) (i : Nat) (t : CallTask) (pc : CallPc) : Service :=
  { s with tasks := s.tasks.set i { t with pc } }

def serve (mode : DispatchMode) (settings : DispatchSettings) (s : Service)
    (user : CurrentUser) : Request → Service
  | .dispatch campaignId =>
      match dispatchCampaign settings s.db user campaignId s.now with
      | .error _ => s
      | .ok db => { s with db, tasks := s.tasks ++ spawned mode campaignId }
  | .setStatus campaignId status =>
      match patchCampaignStatus s.db user campaignId status with
      | .error _ => s
      | .ok db => { s with db }
  | .email campaignId emailId req =>
      { s with db := (serveEmailRequest s.db user campaignId emailId req).2 }
  | .selectAll campaignId req =>
      { s with db := (bulkToggleEmailSelection s.db user campaignId req).2 }

def step (mode : DispatchMode) (settings : DispatchSettings) (s : Service) :
    ServiceAction → Option Service
  | .tick span => some { s with now := s.now + span }
  | .request user req => some (s.serve mode settings user req)
  | .addEmails user campaignId leadIds rendered =>
      match addEmailsToCampaign s.db user campaignId leadIds rendered with
      | .error _ => some s
      | .ok (_, db) => some { s with db }
  | .poll campaignId =>
      if mode = .external ∧
          ((s.db.campaigns.get? campaignId).any fun c => c.status == .running) = true ∧
          ∀ t ∈ s.tasks, t.campaignId = campaignId → t.pc = .stopped then
        some { s with tasks := s.tasks ++ [⟨campaignId, .queueing⟩] }
      else none
  | .sweep => some { s with db := (s.db.recoverStuckSending stuckSendingThreshold s.now).2 }
  | .credentials smtpCredentials campaignCredentials =>
      some { s with db := { s.db with smtpCredentials, campaignCredentials } }
  | .call i =>
      match s.tasks[i]? with
      | none => none
      | some t =>
          let r := dispatchCall settings t.campaignId s.now (t.pc, s.db)
          some { s.goto i t r.1 with db := r.2 }
  | .sent i outcome =>
      match s.tasks[i]? with
      | some ⟨campaignId, .sending job⟩ =>
          let r := trySend settings job s.now outcome ⟨s.db, []⟩ []
          some { s.goto i ⟨campaignId, .sending job⟩ (.afterSend job r.1) with
            db := r.2.1.db }
      | _ => none
  | .crash i =>
      match s.tasks[i]? with
      | none => none
      | some t => some (s.goto i t .stopped)

def init (now : Time) (db : OutreachDb) : Service where
  now := now
  db := db
  tasks := []

/-! ### Where the tasks come from -/

/-- Where a task of the next state comes from. -/
inductive Comes (settings : DispatchSettings) (s s' : Service) : ServiceAction → CallTask → Prop
  | kept {a : ServiceAction} {t : CallTask} (h : t ∈ s.tasks) : Comes settings s s' a t
  | started {a : ServiceAction} (campaignId : Nat) : Comes settings s s' a ⟨campaignId, .queueing⟩
  | called {i : Nat} {t : CallTask} (hget : s.tasks[i]? = some t)
      (hdb : s'.db = (dispatchCall settings t.campaignId s.now (t.pc, s.db)).2) :
      Comes settings s s' (.call i)
        { t with pc := (dispatchCall settings t.campaignId s.now (t.pc, s.db)).1 }
  | sent {i : Nat} {outcome : Except Exc Unit} (campaignId : Nat) (job : Job)
      (r : Except Exc Unit) : Comes settings s s' (.sent i outcome) ⟨campaignId, .afterSend job r⟩
  | crashed {i : Nat} (campaignId : Nat) : Comes settings s s' (.crash i) ⟨campaignId, .stopped⟩

theorem comes_of_step {mode : DispatchMode} {settings : DispatchSettings} {s s' : Service}
    {a : ServiceAction} (h : s.step mode settings a = some s') {t : CallTask} (ht : t ∈ s'.tasks) :
    Comes settings s s' a t := by
  have hstarted : ∀ {campaignId : Nat}, t ∈ s.tasks ++ [⟨campaignId, .queueing⟩] →
      Comes settings s s' a t := by
    intro campaignId hmem
    rcases List.mem_append.mp hmem with hold | hnew
    · exact .kept hold
    · obtain rfl := List.mem_singleton.mp hnew
      exact .started campaignId
  cases a with
  | tick span =>
      obtain rfl := Option.some.inj h
      exact .kept ht
  | request user req =>
      obtain rfl := Option.some.inj h
      cases req with
      | email campaignId emailId req => exact .kept ht
      | selectAll campaignId req => exact .kept ht
      | setStatus campaignId value =>
          unfold serve at ht
          dsimp only at ht
          split at ht
          · exact .kept ht
          · exact .kept ht
      | dispatch campaignId =>
          have hmem : t ∈ s.tasks ∨ t ∈ s.tasks ++ spawned mode campaignId := by
            unfold serve at ht
            dsimp only at ht
            split at ht
            · exact Or.inl ht
            · exact Or.inr ht
          rcases hmem with hold | hmem
          · exact .kept hold
          · cases mode with
            | embedded => exact hstarted hmem
            | external => exact .kept (by simpa [spawned] using hmem)
  | addEmails user campaignId leadIds rendered =>
      dsimp only [step] at h
      split at h
      · obtain rfl := Option.some.inj h
        exact .kept ht
      · obtain rfl := Option.some.inj h
        exact .kept ht
  | poll campaignId =>
      dsimp only [step] at h
      split at h
      · obtain rfl := Option.some.inj h
        exact hstarted ht
      · cases h
  | sweep =>
      obtain rfl := Option.some.inj h
      exact .kept ht
  | credentials smtpCredentials campaignCredentials =>
      obtain rfl := Option.some.inj h
      exact .kept ht
  | call i =>
      dsimp only [step] at h
      split at h
      · cases h
      · rename_i u hget
        obtain rfl := Option.some.inj h
        rcases List.mem_or_eq_of_mem_set ht with hold | rfl
        · exact .kept hold
        · exact .called hget rfl
  | sent i outcome =>
      dsimp only [step] at h
      split at h
      · obtain rfl := Option.some.inj h
        rcases List.mem_or_eq_of_mem_set ht with hold | rfl
        · exact .kept hold
        · exact .sent _ _ _
      · cases h
  | crash i =>
      dsimp only [step] at h
      split at h
      · cases h
      · obtain rfl := Option.some.inj h
        rcases List.mem_or_eq_of_mem_set ht with hold | rfl
        · exact .kept hold
        · exact .crashed _

end Service

end GovCrawler
