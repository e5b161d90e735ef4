/-
Any number of dispatch tasks side by side, on one event loop.

A task is cut at its awaits: the queue for its credential's slot, the sleep in the
slot, and each exchange with a mail server or a token endpoint.  Between two awaits
it runs alone, so each action below is one such segment of one task, or a request,
a sweep of the recovery loop, or the passing of time.  An action carries what the
outside decides: the gap that is drawn, how an exchange ends, the tokens a provider
hands out.  Where the code would run on, cutting more finely only adds
interleavings.

The database answers here; what a call that raises does to a run is the subject of
`NoStuckSending`.  `SMTPAuthenticationError` is what authentication raises and
`OAuthTokenError` what the OAuth module raises, and neither comes from elsewhere.
-/
import GovCrawler.Lib.Transition
import GovCrawler.Outreach.CampaignRoutes
import GovCrawler.Outreach.SendOutcome

namespace GovCrawler

open Relational StoreProgram Prog DispatchM Transition

/-! ### The state -/

/-- The lock of one credential: `asyncio.Lock` wakes its waiters in order. -/
structure Slot where
  holder : Option Nat := none
  queue : List Nat := []
  lastSent : Option Time := none
  deriving DecidableEq, Repr

/-- Where a task is suspended. -/
inductive Pc
  | start
  | head (credIndex : Nat)
  /-- Queued for the credential's slot. -/
  | waiting (job : Job)
  /-- Asleep in the slot until `wake`. -/
  | sleeping (job : Job) (wake : Time)
  | connecting (job : Job)
  /-- A token request with this refresh token is on its way. -/
  | requesting (job : Job) (refreshToken : String)
  /-- The reply to it is on its way back. -/
  | responding (job : Job) (refreshToken : String) (reply : TokenReply)
  /-- `login`, or `auth_xoauth2` with an access token. -/
  | authenticating (job : Job) (accessToken : Option String)
  | sending (job : Job)
  | quitting (job : Job)
  | stopped
  deriving DecidableEq, Repr

/-- The job a task has in hand. -/
def Pc.job? : Pc → Option Job
  | .waiting job | .sleeping job _ | .connecting job | .requesting job _
  | .responding job _ _ | .authenticating job _ | .sending job | .quitting job => some job
  | .start | .head _ | .stopped => none

/-- Back to the top of the loop, unless a handler raised. -/
def Pc.afterSend (job : Job) : Except Exc Unit → Pc
  | .ok _ => .head job.nextIndex
  | .error _ => .stopped

def Pc.afterPrologue : Except Exc Bool → Pc
  | .ok true => .head 0
  | .ok false => .stopped
  | .error _ => .stopped

@[simp] theorem Pc.job?_afterSend (job : Job) (r : Except Exc Unit) :
    (Pc.afterSend job r).job? = none := by
  cases r <;> rfl

@[simp] theorem Pc.job?_afterPrologue (r : Except Exc Bool) : (Pc.afterPrologue r).job? = none := by
  unfold Pc.afterPrologue
  split <;> rfl

structure DispatchTask where
  campaignId : Nat
  pc : Pc
  deriving DecidableEq, Repr

/-- Why a handler ran. -/
inductive Cause
  /-- The mail server rejected this password. -/
  | passwordRejected (password : Option String)
  /-- The mail server rejected this access token. -/
  | accessTokenRejected (accessToken : String)
  /-- The provider rejected this refresh token. -/
  | refreshTokenRejected (refreshToken : String)
  /-- The token endpoint could not be reached, or its reply was lost. -/
  | tokenEndpointDown
  /-- No token request could be made. -/
  | notConnected
  | otherFailure
  deriving DecidableEq, Repr

/-- A handler's writes, with what it reacted to and the credential's row at that moment. -/
structure Handled where
  credentialId : Nat
  cause : Cause
  row : Option SMTPCredential
  writes : List Write
  deriving DecidableEq, Repr

/-- `provider` is, for each credential, the refresh token its OAuth provider accepts
now; `accepted` lists the emails mail servers have accepted. -/
structure World where
  now : Time
  db : OutreachDb
  slots : Nat → Slot
  tasks : List DispatchTask
  provider : Nat → Option String
  accepted : List Nat
  handled : List Handled

/-! ### Requests -/

inductive Request
  | dispatch (campaignId : Nat)
  | setStatus (campaignId : Nat) (status : String)
  | email (campaignId emailId : Nat) (req : EmailRequest)
  | selectAll (campaignId : Nat) (req : EmailSelectionUpdate)
  deriving DecidableEq, Repr

/-- Serve a request.  An accepted dispatch starts a task (`dispatch.mode: embedded`). -/
def World.serve (settings : DispatchSettings) (w : World) (user : CurrentUser) : Request → World
  | .dispatch campaignId =>
      match dispatchCampaign settings w.db user campaignId w.now with
      | .error _ => w
      | .ok db => { w with db, tasks := w.tasks ++ [⟨campaignId, .start⟩] }
  | .setStatus campaignId status =>
      match patchCampaignStatus w.db user campaignId status with
      | .error _ => w
      | .ok db => { w with db }
  | .email campaignId emailId req =>
      { w with db := (serveEmailRequest w.db user campaignId emailId req).2 }
  | .selectAll campaignId req =>
      { w with db := (bulkToggleEmailSelection w.db user campaignId req).2 }

/-! ### One segment of a task -/

/-- What the outside decides when a task moves. -/
inductive Event
  /-- The task runs on by itself. -/
  | go
  /-- Its turn for the slot, and the gap `random.uniform(30, 90)` draws. -/
  | slot (gap : Time)
  /-- How an exchange with the mail server ends. -/
  | smtp (outcome : Except Exc Unit)
  /-- The provider accepts the refresh token and issues new ones. -/
  | grant (accessToken refreshToken : String) (expiresAt : Option Time)
  /-- The provider rejects it. -/
  | refuse (text : String)
  /-- The token request, or the reply to it, is lost. -/
  | unreachable (text : String)

/-- The exceptions an exchange with a mail server can raise. -/
def smtpRaises (authenticating : Bool) : Exc → Bool
  | .oauthTokenError _ => false
  | .smtpAuthenticationError _ _ => authenticating
  | _ => true

/-- Put task `i` somewhere else. -/
def World.goto (w : World) (i : Nat) (pc : Pc) : World :=
  { w with tasks := w.tasks.modify i fun t => { t with pc } }

/-- Change the lock of a credential. -/
def World.setSlot (w : World) (credentialId : Nat) (slot : Slot) : World :=
  { w with slots := fun k => if k = credentialId then slot else w.slots k }

/-- The send of task `i` is over: mark the email or run the handler, and go back to
the top of the loop unless the handler raised. -/
def World.finish (settings : DispatchSettings) (w : World) (i : Nat) (job : Job)
    (sent : Except Exc Unit) (cause : Cause) : World :=
  let r := trySend settings job w.now sent ⟨w.db, []⟩ []
  { w.goto i (.afterSend job r.1) with
    db := r.2.1.db
    handled := w.handled ++
      [⟨job.cred.id, cause, w.db.credential? job.cred.id, r.2.1.journal⟩] }

/-- The send of task `i` failed. -/
def World.fail (settings : DispatchSettings) (w : World) (i : Nat) (job : Job) (e : Exc)
    (cause : Cause) : World :=
  w.finish settings i job (.error e) cause

/-- The wait is over: the slot is stamped and released before the send begins. -/
def World.leaveSlot (w : World) (i : Nat) (job : Job) : World :=
  (w.setSlot job.cred.id
    { w.slots job.cred.id with holder := none, lastSent := some w.now }).goto i (.connecting job)

/-- Connected: log in, or find an access token first. -/
def World.authenticate (settings : DispatchSettings) (w : World) (i : Nat) (job : Job) : World :=
  if job.cred.provider = "basic" then w.goto i (.authenticating job none)
  else
    match getValidAccessToken job.cred settings.oauth w.now with
    | .live accessToken => w.goto i (.authenticating job (some accessToken))
    | .refresh refreshToken => w.goto i (.requesting job refreshToken)
    | .raises e => w.fail settings i job e .notConnected

/-- What a failed exchange of authentication says about the credential. -/
def authCause (job : Job) (accessToken : Option String) : Exc → Cause
  | .smtpAuthenticationError _ _ =>
      match accessToken with
      | none => .passwordRejected job.cred.password
      | some token => .accessTokenRejected token
  | _ => .otherFailure

/-- The reply of the token endpoint has arrived. -/
def World.receiveTokens (settings : DispatchSettings) (w : World) (i : Nat) (job : Job)
    (refreshToken : String) (reply : TokenReply) : World :=
  match refreshOutcome job.cred.provider reply with
  | .ok (accessToken, fresh, expiresAt) =>
      { w.goto i (.authenticating job (some accessToken)) with
        db := w.db.updateCredentialTokens settings.keys job.cred.id accessToken
          ((fresh.filter (· ≠ "")).getD refreshToken) expiresAt }
  | .error e =>
      w.fail settings i job e
        (match reply with
          | .rejected _ => .refreshTokenRejected refreshToken
          | _ => .tokenEndpointDown)

/-- Task `i`, at `pc`, moves; `none` where the event does not fit. -/
def World.resume (settings : DispatchSettings) (w : World) (i campaignId : Nat) :
    Pc → Event → Option World
  | .start, .go =>
      let r := dispatchPrologue settings campaignId w.now ⟨w.db, []⟩ []
      some { w.goto i (.afterPrologue r.1) with db := r.2.1.db }
  | .head credIndex, .go =>
      let r := loopHead settings campaignId credIndex w.now ⟨w.db, []⟩ []
      match r.1 with
      | .ok (.send job) =>
          some
            { (w.goto i (.waiting job)).setSlot job.cred.id
                { w.slots job.cred.id with queue := (w.slots job.cred.id).queue ++ [i] } with
              db := r.2.1.db }
      | _ => some { w.goto i .stopped with db := r.2.1.db }
  | .waiting job, .slot gap =>
      let slot := w.slots job.cred.id
      if slot.holder = none ∧ slot.queue.head? = some i ∧ seconds 30 ≤ gap ∧ gap ≤ seconds 90 then
        let taken := w.setSlot job.cred.id { slot with holder := some i, queue := slot.queue.tail }
        match slot.lastSent with
        | none => some (taken.leaveSlot i job)
        | some last =>
            if w.now < last + gap then some (taken.goto i (.sleeping job (last + gap)))
            else some (taken.leaveSlot i job)
      else none
  | .sleeping job wake, .go => if wake ≤ w.now then some (w.leaveSlot i job) else none
  | .connecting job, .smtp (.ok _) => some (w.authenticate settings i job)
  | .connecting job, .smtp (.error e) =>
      if smtpRaises false e then some (w.fail settings i job e .otherFailure) else none
  | .requesting job refreshToken, .grant accessToken fresh expiresAt =>
      if w.provider job.cred.id = some refreshToken ∧ fresh ≠ refreshToken ∧ fresh ≠ "" then
        some
          { w.goto i (.responding job refreshToken (.tokens accessToken (some fresh) expiresAt)) with
            provider := fun k => if k = job.cred.id then some fresh else w.provider k }
      else none
  | .requesting job refreshToken, .refuse text =>
      if w.provider job.cred.id = some refreshToken then none
      else some (w.goto i (.responding job refreshToken (.rejected text)))
  | .requesting job refreshToken, .unreachable text =>
      some (w.goto i (.responding job refreshToken (.networkError text)))
  | .responding job refreshToken reply, .go =>
      some (w.receiveTokens settings i job refreshToken reply)
  | .responding job refreshToken _, .unreachable text =>
      some (w.receiveTokens settings i job refreshToken (.networkError text))
  | .authenticating job _, .smtp (.ok _) => some (w.goto i (.sending job))
  | .authenticating job accessToken, .smtp (.error e) =>
      if smtpRaises true e then some (w.fail settings i job e (authCause job accessToken e))
      else none
  | .sending job, .smtp (.ok _) =>
      some { w.goto i (.quitting job) with accepted := w.accepted ++ [job.email.id] }
  | .sending job, .smtp (.error e) =>
      if smtpRaises false e then some (w.fail settings i job e .otherFailure) else none
  -- an attempt that raises is taken to have failed before the message was accepted
  | .quitting job, .smtp (.ok _) => some (w.finish settings i job (.ok ()) .otherFailure)
  | _, _ => none

/-- What task `i` does at `pc`, and when it can. -/
inductive World.Resumes (settings : DispatchSettings) (w : World) (i campaignId : Nat) :
    Pc → Event → World → Prop
  | start : Resumes settings w i campaignId .start .go
      { w.goto i (.afterPrologue
            (dispatchPrologue settings campaignId w.now ⟨w.db, []⟩ []).1) with
          db := (dispatchPrologue settings campaignId w.now ⟨w.db, []⟩ []).2.1.db }
  | send {credIndex : Nat} {job : Job}
      (hrun : (loopHead settings campaignId credIndex w.now ⟨w.db, []⟩ []).1 = .ok (.send job)) :
      Resumes settings w i campaignId (.head credIndex) .go
        { (w.goto i (.waiting job)).setSlot job.cred.id
            { w.slots job.cred.id with queue := (w.slots job.cred.id).queue ++ [i] } with
          db := (loopHead settings campaignId credIndex w.now ⟨w.db, []⟩ []).2.1.db }
  | stop {credIndex : Nat}
      (hrun : ∀ job, (loopHead settings campaignId credIndex w.now ⟨w.db, []⟩ []).1 ≠
        .ok (.send job)) :
      Resumes settings w i campaignId (.head credIndex) .go
        { w.goto i .stopped with
          db := (loopHead settings campaignId credIndex w.now ⟨w.db, []⟩ []).2.1.db }
  | enterSlot {job : Job} {gap : Time}
      (hfree : (w.slots job.cred.id).holder = none ∧ (w.slots job.cred.id).queue.head? = some i)
      (hgap : seconds 30 ≤ gap ∧ gap ≤ seconds 90)
      (hrest : ∀ last, (w.slots job.cred.id).lastSent = some last → last + gap ≤ w.now) :
      Resumes settings w i campaignId (.waiting job) (.slot gap)
        ((w.setSlot job.cred.id
          { w.slots job.cred.id with
            holder := some i, queue := (w.slots job.cred.id).queue.tail }).leaveSlot i job)
  | sleep {job : Job} {gap last : Time}
      (hfree : (w.slots job.cred.id).holder = none ∧ (w.slots job.cred.id).queue.head? = some i)
      (hgap : seconds 30 ≤ gap ∧ gap ≤ seconds 90)
      (hlast : (w.slots job.cred.id).lastSent = some last) (hlt : w.now < last + gap) :
      Resumes settings w i campaignId (.waiting job) (.slot gap)
        ((w.setSlot job.cred.id
          { w.slots job.cred.id with
            holder := some i
            queue := (w.slots job.cred.id).queue.tail }).goto i (.sleeping job (last + gap)))
  | wakeUp {job : Job} {wake : Time} (hwake : wake ≤ w.now) :
      Resumes settings w i campaignId (.sleeping job wake) .go (w.leaveSlot i job)
  | connected {job : Job} {x : Unit} :
      Resumes settings w i campaignId (.connecting job) (.smtp (.ok x))
        (w.authenticate settings i job)
  | notConnected {job : Job} {e : Exc} (hraises : smtpRaises false e = true) :
      Resumes settings w i campaignId (.connecting job) (.smtp (.error e))
        (w.fail settings i job e .otherFailure)
  | granted {job : Job} {refreshToken accessToken fresh : String} {expiresAt : Option Time}
      (haccepts : w.provider job.cred.id = some refreshToken)
      (hfresh : fresh ≠ refreshToken ∧ fresh ≠ "") :
      Resumes settings w i campaignId (.requesting job refreshToken)
        (.grant accessToken fresh expiresAt)
        { w.goto i
            (.responding job refreshToken (.tokens accessToken (some fresh) expiresAt)) with
          provider := fun k => if k = job.cred.id then some fresh else w.provider k }
  | refused {job : Job} {refreshToken text : String}
      (hrefuses : ¬ w.provider job.cred.id = some refreshToken) :
      Resumes settings w i campaignId (.requesting job refreshToken) (.refuse text)
        (w.goto i (.responding job refreshToken (.rejected text)))
  | requestLost {job : Job} {refreshToken text : String} :
      Resumes settings w i campaignId (.requesting job refreshToken) (.unreachable text)
        (w.goto i (.responding job refreshToken (.networkError text)))
  | replied {job : Job} {refreshToken : String} {reply : TokenReply} :
      Resumes settings w i campaignId (.responding job refreshToken reply) .go
        (w.receiveTokens settings i job refreshToken reply)
  | replyLost {job : Job} {refreshToken text : String} {reply : TokenReply} :
      Resumes settings w i campaignId (.responding job refreshToken reply) (.unreachable text)
        (w.receiveTokens settings i job refreshToken (.networkError text))
  | authenticated {job : Job} {accessToken : Option String} {x : Unit} :
      Resumes settings w i campaignId (.authenticating job accessToken) (.smtp (.ok x))
        (w.goto i (.sending job))
  | notAuthenticated {job : Job} {accessToken : Option String} {e : Exc}
      (hraises : smtpRaises true e = true) :
      Resumes settings w i campaignId (.authenticating job accessToken) (.smtp (.error e))
        (w.fail settings i job e (authCause job accessToken e))
  | accepted {job : Job} {x : Unit} :
      Resumes settings w i campaignId (.sending job) (.smtp (.ok x))
        { w.goto i (.quitting job) with accepted := w.accepted ++ [job.email.id] }
  | notAccepted {job : Job} {e : Exc} (hraises : smtpRaises false e = true) :
      Resumes settings w i campaignId (.sending job) (.smtp (.error e))
        (w.fail settings i job e .otherFailure)
  | quit {job : Job} {x : Unit} :
      Resumes settings w i campaignId (.quitting job) (.smtp (.ok x))
        (w.finish settings i job (.ok ()) .otherFailure)

/-- **A segment is one of these.** -/
theorem World.resumes_of_resume {settings : DispatchSettings} {w w' : World} {i campaignId : Nat}
    {pc : Pc} {event : Event} (h : w.resume settings i campaignId pc event = some w') :
    w.Resumes settings i campaignId pc event w' := by
  unfold World.resume at h
  split at h
  · obtain rfl := Option.some.inj h
    exact .start
  · dsimp only at h
    split at h
    · rename_i job hrun
      obtain rfl := Option.some.inj h
      exact .send hrun
    · rename_i hrun
      obtain rfl := Option.some.inj h
      exact .stop hrun
  · dsimp only at h
    split at h
    · rename_i hguard
      obtain ⟨hholder, hhead, hgap⟩ := hguard
      split at h
      · rename_i hlast
        obtain rfl := Option.some.inj h
        exact .enterSlot ⟨hholder, hhead⟩ hgap fun last hsome => nomatch hlast.symm.trans hsome
      · rename_i last hlast
        split at h
        · rename_i hlt
          obtain rfl := Option.some.inj h
          exact .sleep ⟨hholder, hhead⟩ hgap hlast hlt
        · rename_i hle
          obtain rfl := Option.some.inj h
          refine .enterSlot ⟨hholder, hhead⟩ hgap fun last' hsome => ?_
          obtain rfl := Option.some.inj (hlast.symm.trans hsome)
          exact Nat.not_lt.mp hle
    · cases h
  · split at h
    · rename_i hwake
      obtain rfl := Option.some.inj h
      exact .wakeUp hwake
    · cases h
  · obtain rfl := Option.some.inj h
    exact .connected
  · split at h
    · rename_i hraises
      obtain rfl := Option.some.inj h
      exact .notConnected hraises
    · cases h
  · split at h
    · rename_i hguard
      obtain rfl := Option.some.inj h
      exact .granted hguard.1 hguard.2
    · cases h
  · split at h
    · cases h
    · rename_i hrefuses
      obtain rfl := Option.some.inj h
      exact .refused hrefuses
  · obtain rfl := Option.some.inj h
    exact .requestLost
  · obtain rfl := Option.some.inj h
    exact .replied
  · obtain rfl := Option.some.inj h
    exact .replyLost
  · obtain rfl := Option.some.inj h
    exact .authenticated
  · split at h
    · rename_i hraises
      obtain rfl := Option.some.inj h
      exact .notAuthenticated hraises
    · cases h
  · obtain rfl := Option.some.inj h
    exact .accepted
  · split at h
    · rename_i hraises
      obtain rfl := Option.some.inj h
      exact .notAccepted hraises
    · cases h
  · obtain rfl := Option.some.inj h
    exact .quit
  · cases h

/-! ### The system -/

inductive Action
  | tick (span : Time)
  | request (user : CurrentUser) (req : Request)
  /-- `_poll_loop` of the dispatch service finds a running campaign without a task. -/
  | poll (campaignId : Nat)
  /-- `recover_stuck_sending(600)`. -/
  | sweep
  /-- The owner of a mailbox withdraws consent. -/
  | revoke (credentialId : Nat)
  | move (i : Nat) (event : Event)

def stuckSendingThreshold : Nat := 600

/-- Nobody sleeps in a slot past the time it set. -/
def World.noOverslept (w : World) (now : Time) : Prop :=
  ∀ t ∈ w.tasks, ∀ job wake, t.pc = .sleeping job wake → now ≤ wake

instance (w : World) (now : Time) : Decidable (w.noOverslept now) :=
  decidable_of_iff (∀ t ∈ w.tasks, (match t.pc with
      | .sleeping _ wake => decide (now ≤ wake)
      | _ => true) = true) <| by
    unfold World.noOverslept
    refine forall₂_congr fun t _ => ?_
    cases t.pc <;> simp

def World.step (settings : DispatchSettings) (w : World) : Action → Option World
  | .tick span => if w.noOverslept (w.now + span) then some { w with now := w.now + span } else none
  | .request user req => some (w.serve settings user req)
  | .poll campaignId =>
      if ((w.db.campaigns.get? campaignId).any fun c => c.status == .running) = true ∧
          ∀ t ∈ w.tasks, t.campaignId = campaignId → t.pc = .stopped then
        some { w with tasks := w.tasks ++ [⟨campaignId, .start⟩] }
      else none
  | .sweep => some { w with db := (w.db.recoverStuckSending stuckSendingThreshold w.now).2 }
  | .revoke credentialId =>
      some { w with provider := fun k => if k = credentialId then none else w.provider k }
  | .move i event =>
      match w.tasks[i]? with
      | none => none
      | some t => w.resume settings i t.campaignId t.pc event

/-- No task has started yet. -/
def World.init (now : Time) (db : OutreachDb) (provider : Nat → Option String) : World where
  now := now
  db := db
  slots := fun _ => {}
  tasks := []
  provider := provider
  accepted := []
  handled := []

/-! ### The tasks after a move -/

theorem task_goto (w : World) (i : Nat) (pc : Pc) (j : Nat) :
    (w.goto i pc).tasks[j]? = (w.tasks[j]?).map fun t => if i = j then { t with pc } else t := by
  show (w.tasks.modify i _)[j]? = _
  rw [List.getElem?_modify]
  by_cases h : i = j
  · simp [h]
  · simp [h]

/-- A task after `goto` is the one that moved, or one that was there before. -/
theorem task_of_goto {w : World} {i : Nat} {t : DispatchTask} {pc : Pc}
    (ht : w.tasks[i]? = some t) {j : Nat} {u : DispatchTask}
    (hu : (w.goto i pc).tasks[j]? = some u) :
    j = i ∧ u = { t with pc } ∨ j ≠ i ∧ w.tasks[j]? = some u := by
  rw [task_goto] at hu
  obtain ⟨v, hv, rfl⟩ := Option.map_eq_some_iff.mp hu
  by_cases hij : i = j
  · subst hij
    rw [ht] at hv
    obtain rfl := Option.some.inj hv
    exact Or.inl ⟨rfl, if_pos rfl⟩
  · exact Or.inr ⟨Ne.symm hij, by rw [if_neg hij]; exact hv⟩

/-- A task after new ones have started is one that was there, or is at its start. -/
theorem task_of_started {w w' : World} {fresh : List Nat}
    (h : w'.tasks = w.tasks ++ fresh.map fun c => ⟨c, .start⟩) {i : Nat} {t : DispatchTask}
    (ht : w'.tasks[i]? = some t) : w.tasks[i]? = some t ∨ t.pc = .start := by
  rw [h] at ht
  by_cases hi : i < w.tasks.length
  · rw [List.getElem?_append_left hi] at ht
    exact Or.inl ht
  · rw [List.getElem?_append_right (Nat.le_of_not_lt hi), List.getElem?_map] at ht
    obtain ⟨c, -, rfl⟩ := Option.map_eq_some_iff.mp ht
    exact Or.inr rfl

theorem task_started {w w' : World} {fresh : List Nat}
    (h : w'.tasks = w.tasks ++ fresh.map fun c => ⟨c, .start⟩) {i : Nat} {t : DispatchTask}
    (ht : w.tasks[i]? = some t) : w'.tasks[i]? = some t := by
  rw [h, List.getElem?_append_left (List.getElem?_eq_some_iff.mp ht).1]
  exact ht

/-! ### A mailbox that campaigns share -/

/-- `n` paused campaigns nobody owns, each with one selected draft, and one credential. -/
def sharedMailbox (n : Nat) : OutreachDb where
  campaigns := (List.range n).foldl (fun t _ => t.insertNew fun id =>
    { id, name := "city clerks", templateId := none, kind := .production,
      testCredentialId := none, status := .paused, ownerId := none, pauseReason := none })
    Table.empty
  campaignEmails := (List.range n).foldl (fun t c => t.insertNew fun id =>
    { id, campaignId := c + 1, leadId := none, recipientEmail := "clerk@city.gov",
      subject := "Hello", body := "Dear clerk" }) Table.empty
  smtpCredentials := cityMailbox
  campaignCredentials := Table.empty
  blacklist := Table.empty

def admin : CurrentUser := { id := 1, email := "admin@x.org", isAdmin := true }

/-- Dispatch campaign `i + 1`: its task queues the draft, claims it and queues for the slot. -/
def dispatchAndClaim (i task : Nat) : List Action :=
  [.request admin (.dispatch (i + 1)), .move task .go, .move task .go]

/-- Connect, log in, send and quit, and look for more. -/
def sendAndFinish (task : Nat) : List Action :=
  [.move task (.smtp (.ok ())), .move task (.smtp (.ok ())), .move task (.smtp (.ok ())),
    .move task (.smtp (.ok ())), .move task .go]

end GovCrawler
