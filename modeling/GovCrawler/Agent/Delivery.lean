/-
From the agent's outbox to the cloud's leads table: whether a lead can be lost on the way.

`CloudApiClient._flush_kind` runs any number of times at once: from its own loop, from
`finish_job` and from `best_effort_drain`.  A run reads a batch, posts it, and
acknowledges or fails what it has read, and everybody else may step in between.  A
request may be lost before the cloud has handled it or after, it may be handled when
nobody waits for it any more, and while the cloud handles it any call to its database
may raise, for each item of the batch.

`leads_survive` says that a lead is in the outbox, among the dead, or in the leads
table, as long as no batch is acknowledged with an item that the cloud has rejected.
`lead_lost` acknowledges one.
-/
import GovCrawler.Lib.Transition
import GovCrawler.Agent.LocalOutbox
import GovCrawler.Leads.Landing

namespace GovCrawler

open Relational StoreProgram Transition

/-! ### Flushers -/

/-- Where a run of `_flush_kind` is, once it has a batch.  `retried` says that the request
was sent a second time, after a 401. -/
inductive FlushPc
  | posting (retried : Bool)
  | answered (retried : Bool) (reply : Except HttpError LeadsReply)
  /-- In the loop of the handler, with the rows to fail. -/
  | failing (error : String) (left : List OutboxRow)
  | done

/-- A run of `_flush_kind`.  `rejected` are the emails of the items that the cloud rejected
when it handled the request; the run does not know them. -/
structure Flusher where
  batch : List OutboxRow
  pc : FlushPc
  rejected : List String := []

/-- The body of the request. -/
def Flusher.items (fl : Flusher) : List LeadItem := fl.batch.map OutboxRow.payload

/-- The handler of `_flush_kind`. -/
def Flusher.fail (fl : Flusher) (error : String) : Flusher :=
  { fl with pc := .failing error fl.batch }

/-! ### The system -/

structure Delivery where
  outbox : LocalOutbox := {}
  cloud : LeadsDb
  flushers : List Flusher := []
  /-- Requests that are on their way although nobody waits for them. -/
  orphans : List (List LeadItem) := []
  /-- Every lead ever enqueued, with its row's id. -/
  enqueued : List (Nat × LeadItem) := []

inductive DeliveryAction
  /-- `CloudApiClient.save_lead`, of a lead with an email. -/
  | saveLead (item : LeadItem)
  /-- `_flush_kind` reads its batch. -/
  | flush
  /-- The cloud handles a request.  `caller` is who it takes the agent for, or why it does
  not come to the route. -/
  | deliver (f : Nat) (caller : Except HttpError CurrentUser)
      (faults : List (List (Option LeadExc)))
  | deliverOrphan (i : Nat) (user : CurrentUser) (faults : List (List (Option LeadExc)))
  /-- The request is lost. -/
  | lose (f : Nat) (error : String)
  /-- The flusher gives up on a request that is still on its way. -/
  | timeout (f : Nat) (error : String)
  | loseReply (f : Nat) (error : String)
  /-- The reply arrives. -/
  | receive (f : Nat) (error : String)
  /-- The token cannot be refreshed after a 401. -/
  | refreshFails (f : Nat) (error : String)
  /-- The handler fails the next row. -/
  | failNext (f : Nat)
  /-- The flusher's task is cancelled, or its process dies. -/
  | cancel (f : Nat)
  /-- What other requests do to the cloud's database: no code deletes a lead or changes its
  email. -/
  | others (cloud : LeadsDb)

namespace Delivery

variable (rules : LeadRules) (jobId : Nat) (s : Delivery)

/-- Put a flusher back. -/
def setFlusher (f : Nat) (fl : Flusher) : Delivery := { s with flushers := s.flushers.set f fl }

/-- The cloud handles the request of a flusher. -/
def handle (f : Nat) (fl : Flusher) (retried : Bool) (caller : Except HttpError CurrentUser)
    (faults : List (List (Option LeadExc))) : Delivery :=
  match caller with
  | .error e => s.setFlusher f { fl with pc := .answered retried (.error e), rejected := [] }
  | .ok user =>
      let r := coordinationSaveLeads rules jobId fl.items user faults s.cloud
      { s.setFlusher f { fl with
          pc := .answered retried r.1
          rejected :=
            if r.1.toBool then rejected rules jobId (some user.id) fl.items faults s.cloud
            else [] } with
        cloud := r.2 }

/-- The rest of `_flush_kind` up to the handler: `raise_for_status` lets a good reply pass, and
a 401 is answered once with a new token. -/
def conclude (f : Nat) (fl : Flusher) (retried : Bool) (error : String) :
    Except HttpError LeadsReply → Delivery
  | .ok _ =>
      { s.setFlusher f { fl with pc := .done } with
        outbox := s.outbox.ack (fl.batch.map OutboxRow.id) }
  | .error e =>
      if e.statusCode = 401 ∧ retried = false then s.setFlusher f { fl with pc := .posting true }
      else s.setFlusher f (fl.fail error)

def step : DeliveryAction → Option Delivery
  | .saveLead item =>
      if truthy item.email then
        some { s with
          outbox := s.outbox.enqueue jobId "lead" item
          enqueued := s.enqueued ++ [(s.outbox.outbox.nextKey, item)] }
      else none
  | .flush =>
      let batch := s.outbox.pendingBatch "lead" batchSize
      if batch.isEmpty then none
      else some { s with flushers := s.flushers ++ [{ batch := batch, pc := .posting false }] }
  | .deliver f caller faults =>
      match s.flushers[f]? with
      | some fl =>
          match fl.pc with
          | .posting retried => some (s.handle rules jobId f fl retried caller faults)
          | _ => none
      | none => none
  | .deliverOrphan i user faults =>
      match s.orphans[i]? with
      | some items =>
          some { s with
            orphans := s.orphans.eraseIdx i
            cloud := (coordinationSaveLeads rules jobId items user faults s.cloud).2 }
      | none => none
  | .lose f error =>
      match s.flushers[f]? with
      | some fl =>
          match fl.pc with
          | .posting _ => some (s.setFlusher f (fl.fail error))
          | _ => none
      | none => none
  | .timeout f error =>
      match s.flushers[f]? with
      | some fl =>
          match fl.pc with
          | .posting _ =>
              some { s.setFlusher f (fl.fail error) with orphans := s.orphans ++ [fl.items] }
          | _ => none
      | none => none
  | .loseReply f error =>
      match s.flushers[f]? with
      | some fl =>
          match fl.pc with
          | .answered _ _ => some (s.setFlusher f (fl.fail error))
          | _ => none
      | none => none
  | .receive f error =>
      match s.flushers[f]? with
      | some fl =>
          match fl.pc with
          | .answered retried reply => some (s.conclude f fl retried error reply)
          | _ => none
      | none => none
  | .refreshFails f error =>
      match s.flushers[f]? with
      | some fl =>
          match fl.pc with
          | .answered false (.error e) =>
              if e.statusCode = 401 then some (s.setFlusher f (fl.fail error)) else none
          | _ => none
      | none => none
  | .failNext f =>
      match s.flushers[f]? with
      | some fl =>
          match fl.pc with
          | .failing error (row :: left) =>
              some { s.setFlusher f { fl with pc := .failing error left } with
                outbox := s.outbox.fail row.id row.jobId "lead" row.payload error }
          | _ => none
      | none => none
  | .cancel f =>
      match s.flushers[f]? with
      | some fl =>
          match fl.pc with
          | .posting _ =>
              some { s.setFlusher f { fl with pc := .done } with
                orphans := s.orphans ++ [fl.items] }
          | _ => some (s.setFlusher f { fl with pc := .done })
      | none => none
  | .others cloud =>
      if s.cloud.leads.rows.all fun l => cloud.hasEmail l.email then some { s with cloud := cloud }
      else none

/-- What an action does, and when it can be taken. -/
inductive Moved : DeliveryAction → Delivery → Prop
  | saveLead {item : LeadItem} (hemail : truthy item.email = true) :
      Moved (.saveLead item) { s with
        outbox := s.outbox.enqueue jobId "lead" item
        enqueued := s.enqueued ++ [(s.outbox.outbox.nextKey, item)] }
  | flush (hbatch : ¬ (s.outbox.pendingBatch "lead" batchSize).isEmpty) :
      Moved .flush { s with
        flushers := s.flushers ++
          [{ batch := s.outbox.pendingBatch "lead" batchSize, pc := .posting false }] }
  | deliver {f : Nat} {fl : Flusher} {retried : Bool} (caller : Except HttpError CurrentUser)
      (faults : List (List (Option LeadExc))) (hget : s.flushers[f]? = some fl)
      (hpc : fl.pc = .posting retried) :
      Moved (.deliver f caller faults) (s.handle rules jobId f fl retried caller faults)
  | deliverOrphan {i : Nat} {items : List LeadItem} (user : CurrentUser)
      (faults : List (List (Option LeadExc))) (hget : s.orphans[i]? = some items) :
      Moved (.deliverOrphan i user faults) { s with
        orphans := s.orphans.eraseIdx i
        cloud := (coordinationSaveLeads rules jobId items user faults s.cloud).2 }
  | lose {f : Nat} {fl : Flusher} {retried : Bool} (error : String)
      (hget : s.flushers[f]? = some fl) (hpc : fl.pc = .posting retried) :
      Moved (.lose f error) (s.setFlusher f (fl.fail error))
  | timeout {f : Nat} {fl : Flusher} {retried : Bool} (error : String)
      (hget : s.flushers[f]? = some fl) (hpc : fl.pc = .posting retried) :
      Moved (.timeout f error)
        { s.setFlusher f (fl.fail error) with orphans := s.orphans ++ [fl.items] }
  | loseReply {f : Nat} {fl : Flusher} {retried : Bool} {reply : Except HttpError LeadsReply}
      (error : String) (hget : s.flushers[f]? = some fl) (hpc : fl.pc = .answered retried reply) :
      Moved (.loseReply f error) (s.setFlusher f (fl.fail error))
  | receive {f : Nat} {fl : Flusher} {retried : Bool} {reply : Except HttpError LeadsReply}
      (error : String) (hget : s.flushers[f]? = some fl) (hpc : fl.pc = .answered retried reply) :
      Moved (.receive f error) (s.conclude f fl retried error reply)
  | refreshFails {f : Nat} {fl : Flusher} {e : HttpError} (error : String)
      (hget : s.flushers[f]? = some fl) (hpc : fl.pc = .answered false (.error e))
      (hstatus : e.statusCode = 401) :
      Moved (.refreshFails f error) (s.setFlusher f (fl.fail error))
  | failNext {f : Nat} {fl : Flusher} {error : String} {row : OutboxRow} {left : List OutboxRow}
      (hget : s.flushers[f]? = some fl) (hpc : fl.pc = .failing error (row :: left)) :
      Moved (.failNext f) { s.setFlusher f { fl with pc := .failing error left } with
        outbox := s.outbox.fail row.id row.jobId "lead" row.payload error }
  | cancelPosting {f : Nat} {fl : Flusher} {retried : Bool} (hget : s.flushers[f]? = some fl)
      (hpc : fl.pc = .posting retried) :
      Moved (.cancel f)
        { s.setFlusher f { fl with pc := .done } with orphans := s.orphans ++ [fl.items] }
  | cancel {f : Nat} {fl : Flusher} (hget : s.flushers[f]? = some fl)
      (hpc : ∀ retried, fl.pc ≠ .posting retried) :
      Moved (.cancel f) (s.setFlusher f { fl with pc := .done })
  | others {cloud : LeadsDb}
      (hkeeps : s.cloud.leads.rows.all (fun l => cloud.hasEmail l.email) = true) :
      Moved (.others cloud) { s with cloud := cloud }

variable {rules jobId s} in
/-- **A step is one of these.** -/
theorem moved_of_step {a : DeliveryAction} {t : Delivery} (h : s.step rules jobId a = some t) :
    Moved rules jobId s a t := by
  cases a with
  | saveLead item =>
      dsimp only [step] at h
      split at h
      · rename_i hemail
        obtain rfl := Option.some.inj h
        exact .saveLead hemail
      · cases h
  | flush =>
      dsimp only [step] at h
      split at h
      · cases h
      · rename_i hbatch
        obtain rfl := Option.some.inj h
        exact .flush hbatch
  | deliver f caller faults =>
      dsimp only [step] at h
      split at h
      · rename_i fl hget
        split at h
        · rename_i retried hpc
          obtain rfl := Option.some.inj h
          exact .deliver caller faults hget hpc
        · cases h
      · cases h
  | deliverOrphan i user faults =>
      dsimp only [step] at h
      split at h
      · rename_i items hget
        obtain rfl := Option.some.inj h
        exact .deliverOrphan user faults hget
      · cases h
  | lose f error =>
      dsimp only [step] at h
      split at h
      · rename_i fl hget
        split at h
        · rename_i retried hpc
          obtain rfl := Option.some.inj h
          exact .lose error hget hpc
        · cases h
      · cases h
  | timeout f error =>
      dsimp only [step] at h
      split at h
      · rename_i fl hget
        split at h
        · rename_i retried hpc
          obtain rfl := Option.some.inj h
          exact .timeout error hget hpc
        · cases h
      · cases h
  | loseReply f error =>
      dsimp only [step] at h
      split at h
      · rename_i fl hget
        split at h
        · rename_i retried reply hpc
          obtain rfl := Option.some.inj h
          exact .loseReply error hget hpc
        · cases h
      · cases h
  | receive f error =>
      dsimp only [step] at h
      split at h
      · rename_i fl hget
        split at h
        · rename_i retried reply hpc
          obtain rfl := Option.some.inj h
          exact .receive error hget hpc
        · cases h
      · cases h
  | refreshFails f error =>
      dsimp only [step] at h
      split at h
      · rename_i fl hget
        split at h
        · rename_i e hpc
          split at h
          · rename_i hstatus
            obtain rfl := Option.some.inj h
            exact .refreshFails error hget hpc hstatus
          · cases h
        · cases h
      · cases h
  | failNext f =>
      dsimp only [step] at h
      split at h
      · rename_i fl hget
        split at h
        · rename_i error row left hpc
          obtain rfl := Option.some.inj h
          exact .failNext hget hpc
        · cases h
      · cases h
  | cancel f =>
      dsimp only [step] at h
      split at h
      · rename_i fl hget
        split at h
        · rename_i retried hpc
          obtain rfl := Option.some.inj h
          exact .cancelPosting hget hpc
        · rename_i hpc
          obtain rfl := Option.some.inj h
          exact .cancel hget hpc
      · cases h
  | others cloud =>
      dsimp only [step] at h
      split at h
      · rename_i hkeeps
        obtain rfl := Option.some.inj h
        exact .others hkeeps
      · cases h

/-- A lead is in the outbox, among the dead, or in the leads table. -/
def Safe (p : Nat × LeadItem) : Prop :=
  (∃ r, s.outbox.outbox.get? p.1 = some r ∧ r.payload = p.2) ∨
    (∃ d ∈ s.outbox.outboxDead.rows, d.payload = p.2) ∨
    HasEmail (storedEmail rules p.2) s.cloud

/-- A reply that is acknowledged is to a request of which the cloud rejected no item. -/
def NothingRejected : DeliveryAction → Prop
  | .receive f _ => ∀ fl ∈ s.flushers[f]?.toList, fl.rejected = []
  | _ => True

instance : ∀ a, Decidable (s.NothingRejected a)
  | .receive f _ => inferInstanceAs (Decidable (∀ fl ∈ s.flushers[f]?.toList, fl.rejected = []))
  | .saveLead _ | .flush | .deliver _ _ _ | .deliverOrphan _ _ _ | .lose _ _ | .timeout _ _
  | .loseReply _ _ | .refreshFails _ _ | .failNext _ | .cancel _ | .others _ => .isTrue trivial

end Delivery

/-! ### What the route does to the leads -/

variable {rules : LeadRules} {jobId : Nat}

theorem coordinationSaveLeads_keeps {items : List LeadItem} {user : CurrentUser}
    {faults : List (List (Option LeadExc))} {db : LeadsDb} {email : String}
    (h : HasEmail email db) :
    HasEmail email (coordinationSaveLeads rules jobId items user faults db).2 := by
  unfold coordinationSaveLeads
  cases authorizedJob db jobId user with
  | error e => exact h
  | ok job => exact bulkSaveLeads_keeps email items faults h

/-- After a good reply the leads of the batch are there, but for what was rejected. -/
theorem coordinationSaveLeads_lands {items : List LeadItem} {user : CurrentUser}
    {faults : List (List (Option LeadExc))} {db : LeadsDb}
    (hemails : ∀ item ∈ items, truthy item.email = true)
    (hok : (coordinationSaveLeads rules jobId items user faults db).1.toBool = true) :
    ∀ item ∈ items,
      HasEmail (storedEmail rules item) (coordinationSaveLeads rules jobId items user faults db).2 ∨
        storedEmail rules item ∈ rejected rules jobId (some user.id) items faults db := by
  unfold coordinationSaveLeads at hok ⊢
  cases hjob : authorizedJob db jobId user with
  | error e =>
      rw [hjob] at hok
      cases hok
  | ok job =>
      have hthere : (db.jobs.get? jobId).isSome = true := by
        unfold authorizedJob at hjob
        cases hget : db.jobs.get? jobId with
        | none => rw [hget] at hjob; cases hjob
        | some job => rfl
      exact bulkSaveLeads_lands items faults hthere hemails

/-! ### The invariant -/

/-- What a flusher holds was enqueued, and a good reply means that the cloud has what it did
not reject. -/
structure Flusher.Known (rules : LeadRules) (enqueued : List (Nat × LeadItem)) (cloud : LeadsDb)
    (fl : Flusher) : Prop where
  batch : ∀ row ∈ fl.batch, (row.id, row.payload) ∈ enqueued
  failing : ∀ error left, fl.pc = .failing error left →
    ∀ row ∈ left, (row.id, row.payload) ∈ enqueued
  answered : ∀ retried reply, fl.pc = .answered retried (.ok reply) → ∀ row ∈ fl.batch,
    HasEmail (storedEmail rules row.payload) cloud ∨ storedEmail rules row.payload ∈ fl.rejected

theorem Flusher.Known.mono {enqueued enqueued' : List (Nat × LeadItem)} {cloud cloud' : LeadsDb}
    {fl : Flusher} (h : fl.Known rules enqueued cloud) (henqueued : ∀ p ∈ enqueued, p ∈ enqueued')
    (hcloud : ∀ email, HasEmail email cloud → HasEmail email cloud') :
    fl.Known rules enqueued' cloud' :=
  ⟨fun row hrow => henqueued _ (h.batch row hrow),
    fun error left hpc row hrow => henqueued _ (h.failing error left hpc row hrow),
    fun retried reply hpc row hrow => (h.answered retried reply hpc row hrow).imp (hcloud _) id⟩

namespace Delivery

variable {s : Delivery}

/-- Ids are handed out once, so an id stands for one lead. -/
structure Inv (rules : LeadRules) (s : Delivery) : Prop where
  emails : ∀ p ∈ s.enqueued, truthy p.2.email = true
  handedOut : ∀ p ∈ s.enqueued, p.1 < s.outbox.outbox.nextKey
  unique : ∀ p ∈ s.enqueued, ∀ q ∈ s.enqueued, p.1 = q.1 → p = q
  rows : ∀ k r, s.outbox.outbox.get? k = some r → (k, r.payload) ∈ s.enqueued
  flushers : ∀ fl ∈ s.flushers, fl.Known rules s.enqueued s.cloud
  safe : ∀ p ∈ s.enqueued, s.Safe rules p

/-- The outbox is untouched, the cloud keeps its emails, and a flusher that has moved knows
what it has to. -/
theorem Inv.move (h : s.Inv rules) {cloud : LeadsDb} {flushers : List Flusher}
    {orphans : List (List LeadItem)}
    (hcloud : ∀ email, HasEmail email s.cloud → HasEmail email cloud)
    (hflushers : ∀ fl ∈ flushers, fl ∈ s.flushers ∨ fl.Known rules s.enqueued cloud) :
    Inv rules { s with cloud := cloud, flushers := flushers, orphans := orphans } where
  emails := h.emails
  handedOut := h.handedOut
  unique := h.unique
  rows := h.rows
  flushers := by
    intro fl hfl
    rcases hflushers fl hfl with hold | hknown
    · exact (h.flushers fl hold).mono (fun _ hp => hp) hcloud
    · exact hknown
  safe := fun p hp => (h.safe p hp).imp id (Or.imp id (hcloud _))

theorem mem_setFlusher {f : Nat} {fl fl' : Flusher} (h : fl' ∈ (s.setFlusher f fl).flushers) :
    fl' ∈ s.flushers ∨ fl' = fl := List.mem_or_eq_of_mem_set h

/-! ### Steps -/

/-- A flusher moves on with what it has. -/
theorem Inv.setFlusher (h : s.Inv rules) {f : Nat} {fl : Flusher}
    {orphans : List (List LeadItem)} (hknown : fl.Known rules s.enqueued s.cloud) :
    Inv rules { s.setFlusher f fl with orphans := orphans } :=
  h.move (fun _ he => he) fun fl' hfl =>
    (mem_setFlusher (s := s) hfl).imp id fun (heq : fl' = fl) => heq ▸ hknown

theorem Inv.enqueue (h : s.Inv rules) {item : LeadItem} (hemail : truthy item.email = true) :
    Inv rules { s with
      outbox := s.outbox.enqueue jobId "lead" item
      enqueued := s.enqueued ++ [(s.outbox.outbox.nextKey, item)] } := by
  have hmem : ∀ {p : Nat × LeadItem}, p ∈ s.enqueued ++ [(s.outbox.outbox.nextKey, item)] ↔
      p ∈ s.enqueued ∨ p = (s.outbox.outbox.nextKey, item) := by
    intro p
    rw [List.mem_append, List.mem_singleton]
  refine ⟨?_, ?_, ?_, ?_, ?_, ?_⟩
  · intro p hp
    rcases hmem.mp hp with hp | rfl
    · exact h.emails p hp
    · exact hemail
  · intro p hp
    rcases hmem.mp hp with hp | rfl
    · exact Nat.lt_succ_of_lt (h.handedOut p hp)
    · exact Nat.lt_succ_self _
  · intro p hp q hq heq
    rcases hmem.mp hp with hp | rfl <;> rcases hmem.mp hq with hq | rfl
    · exact h.unique p hp q hq heq
    · exact absurd heq (Nat.ne_of_lt (h.handedOut p hp))
    · exact absurd heq.symm (Nat.ne_of_lt (h.handedOut q hq))
    · rfl
  · intro k r hget
    dsimp only at hget ⊢
    rw [get?_enqueue] at hget
    split at hget
    · rename_i hk
      obtain rfl := Option.some.inj hget
      exact hmem.mpr (Or.inr (by rw [hk]))
    · exact hmem.mpr (Or.inl (h.rows k r hget))
  · intro fl hfl
    exact (h.flushers fl hfl).mono (fun p hp => hmem.mpr (Or.inl hp)) fun _ he => he
  · intro p hp
    rcases hmem.mp hp with hp | rfl
    · refine (h.safe p hp).imp (fun ⟨r, hget, hpayload⟩ => ⟨r, ?_, hpayload⟩) id
      dsimp only
      rw [get?_enqueue, if_neg (Nat.ne_of_lt (h.handedOut p hp))]
      exact hget
    · refine Or.inl ⟨⟨s.outbox.outbox.nextKey, jobId, "lead", item, 0, none⟩, ?_, rfl⟩
      dsimp only
      rw [get?_enqueue, if_pos rfl]

/-- The rows of a new batch were enqueued. -/
theorem Inv.flush (h : s.Inv rules) (limit : Nat) :
    Inv rules { s with
      flushers := s.flushers ++
        [{ batch := s.outbox.pendingBatch "lead" limit, pc := .posting false }] } := by
  refine h.move (fun _ he => he) fun fl hfl => ?_
  rw [List.mem_append, List.mem_singleton] at hfl
  refine hfl.imp id fun hfl => ?_
  rw [hfl]
  exact ⟨fun row hrow => h.rows row.id row (get?_of_pendingBatch hrow),
    fun _ _ hpc => (nomatch hpc), fun _ _ hpc => (nomatch hpc)⟩

/-- The cloud handles a request. -/
theorem Inv.handle (h : s.Inv rules) {f : Nat} {fl : Flusher} (hfl : fl ∈ s.flushers)
    (retried : Bool) (caller : Except HttpError CurrentUser)
    (faults : List (List (Option LeadExc))) :
    (s.handle rules jobId f fl retried caller faults).Inv rules := by
  have hknown := h.flushers fl hfl
  unfold Delivery.handle
  cases caller with
  | error e =>
      exact h.setFlusher ⟨hknown.batch, fun _ _ hpc => (nomatch hpc),
        fun _ _ hpc => (nomatch hpc)⟩
  | ok user =>
      refine h.move (fun _ he => coordinationSaveLeads_keeps he) fun fl' hfl' => ?_
      refine (mem_setFlusher hfl').imp id fun heq => ?_
      rw [heq]
      refine ⟨hknown.batch, fun _ _ hpc => (nomatch hpc), ?_⟩
      intro _ reply hpc row hrow
      have hreply := (FlushPc.answered.inj hpc).2
      have hok : (coordinationSaveLeads rules jobId fl.items user faults s.cloud).1.toBool = true := by
        rw [hreply]
        rfl
      have hemails : ∀ item ∈ fl.items, truthy item.email = true := by
        intro item hitem
        obtain ⟨row, hrow, rfl⟩ := List.mem_map.mp hitem
        exact h.emails _ (hknown.batch row hrow)
      dsimp only
      rw [if_pos hok]
      exact coordinationSaveLeads_lands hemails hok row.payload (List.mem_map_of_mem hrow)

/-- **An acknowledgement** of a request without rejected items deletes leads that are in the
leads table. -/
theorem Inv.acknowledge (h : s.Inv rules) {f : Nat} {fl : Flusher} (hfl : fl ∈ s.flushers)
    {retried : Bool} {reply : LeadsReply} (hpc : fl.pc = .answered retried (.ok reply))
    (hnone : fl.rejected = []) :
    Inv rules { s.setFlusher f { fl with pc := .done } with
      outbox := s.outbox.ack (fl.batch.map OutboxRow.id) } := by
  have hknown := h.flushers fl hfl
  refine ⟨h.emails, ?_, h.unique, ?_, ?_, ?_⟩
  · intro p hp
    dsimp only
    rw [nextKey_ack]
    exact h.handedOut p hp
  · intro k r hget
    dsimp only at hget
    rw [get?_ack] at hget
    split at hget
    · cases hget
    · exact h.rows k r hget
  · intro fl' hfl'
    rcases mem_setFlusher hfl' with hold | rfl
    · exact h.flushers fl' hold
    · exact ⟨hknown.batch, fun _ _ hdone => (nomatch hdone), fun _ _ hdone => (nomatch hdone)⟩
  · intro p hp
    by_cases hin : p.1 ∈ fl.batch.map OutboxRow.id
    · obtain ⟨row, hrow, hid⟩ := List.mem_map.mp hin
      obtain rfl : (row.id, row.payload) = p := h.unique _ (hknown.batch row hrow) p hp hid
      rcases hknown.answered retried reply hpc row hrow with hthere | hrejected
      · exact Or.inr (Or.inr hthere)
      · rw [hnone] at hrejected
        cases hrejected
    · rcases h.safe p hp with ⟨r, hget, hpayload⟩ | hdead | hthere
      · refine Or.inl ⟨r, ?_, hpayload⟩
        dsimp only
        rw [get?_ack, if_neg hin]
        exact hget
      · refine Or.inr (Or.inl ?_)
        dsimp only
        rw [dead_ack]
        exact hdead
      · exact Or.inr (Or.inr hthere)

/-- A failed row stays, or its lead is among the dead. -/
theorem Inv.failNext (h : s.Inv rules) {f : Nat} {fl : Flusher} (hfl : fl ∈ s.flushers)
    {error : String} {row : OutboxRow} {left : List OutboxRow}
    (hpc : fl.pc = .failing error (row :: left)) :
    Inv rules { s.setFlusher f { fl with pc := .failing error left } with
      outbox := s.outbox.fail row.id row.jobId "lead" row.payload error } := by
  have hknown := h.flushers fl hfl
  obtain ⟨hrow, hleft⟩ := List.forall_mem_cons.mp (hknown.failing error _ hpc)
  refine ⟨h.emails, ?_, h.unique, ?_, ?_, ?_⟩
  · intro p hp
    dsimp only
    rw [nextKey_fail]
    exact h.handedOut p hp
  · intro k r hget
    obtain ⟨r', hr', hpayload⟩ := payload_of_fail hget
    rw [← hpayload]
    exact h.rows k r' hr'
  · intro fl' hfl'
    rcases mem_setFlusher hfl' with hold | rfl
    · exact h.flushers fl' hold
    · refine ⟨hknown.batch, ?_, fun _ _ hdone => (nomatch hdone)⟩
      intro _ left' hfailing
      obtain ⟨-, rfl⟩ := FlushPc.failing.inj hfailing
      exact hleft
  · intro p hp
    rcases h.safe p hp with ⟨r, hget, hpayload⟩ | ⟨d, hd, hpayload⟩ | hthere
    · rcases fail_cases row.id row.jobId "lead" row.payload error hget with
        ⟨r', hget', hpayload'⟩ | ⟨hid, d, hd, hpayload'⟩
      · exact Or.inl ⟨r', hget', hpayload'.trans hpayload⟩
      · obtain rfl : (row.id, row.payload) = p := h.unique _ hrow p hp hid.symm
        exact Or.inr (Or.inl ⟨d, hd, hpayload'⟩)
    · exact Or.inr (Or.inl ⟨d, dead_fail hd, hpayload⟩)
    · exact Or.inr (Or.inr hthere)

theorem inv_step {a : DeliveryAction} {t : Delivery} (h : s.Inv rules)
    (hok : s.NothingRejected a) (hstep : s.step rules jobId a = some t) : t.Inv rules := by
  have hknown : ∀ {f : Nat} {fl : Flusher}, s.flushers[f]? = some fl →
      fl ∈ s.flushers := fun hget => List.mem_of_getElem? hget
  -- a flusher that is not answered knows what its rows are
  have hmoved : ∀ {f : Nat} {fl : Flusher}, s.flushers[f]? = some fl → ∀ {pc : FlushPc},
      (∀ error left, pc = .failing error left → ∀ row ∈ left, row ∈ fl.batch) →
      (∀ retried reply, pc ≠ .answered retried (.ok reply)) →
      ({ fl with pc := pc } : Flusher).Known rules s.enqueued s.cloud := by
    intro f fl hget pc hfailing hanswered
    have hbatch := (h.flushers fl (hknown hget)).batch
    exact ⟨hbatch, fun error left hpc row hrow => hbatch row (hfailing error left hpc row hrow),
      fun retried reply hpc => absurd hpc (hanswered retried reply)⟩
  have hfail : ∀ {f : Nat} {fl : Flusher}, s.flushers[f]? = some fl → ∀ error,
      (fl.fail error).Known rules s.enqueued s.cloud := by
    intro f fl hget error
    refine hmoved hget ?_ nofun
    intro _ left hpc
    obtain ⟨-, rfl⟩ := FlushPc.failing.inj hpc
    exact fun _ hrow => hrow
  cases moved_of_step hstep with
  | saveLead hemail => exact h.enqueue hemail
  | flush => exact h.flush batchSize
  | deliver caller faults hget hpc => exact h.handle (hknown hget) _ caller faults
  | deliverOrphan user faults hget =>
      exact h.move (fun _ he => coordinationSaveLeads_keeps he) fun _ hfl => Or.inl hfl
  | lose error hget hpc => exact h.setFlusher (hfail hget error)
  | timeout error hget hpc => exact h.setFlusher (hfail hget error)
  | loseReply error hget hpc => exact h.setFlusher (hfail hget error)
  | @receive f fl retried reply error hget hpc =>
      cases reply with
      | ok reply =>
          exact h.acknowledge (hknown hget) hpc (hok fl (by rw [hget]; exact List.mem_cons_self))
      | error e =>
          dsimp only [conclude]
          split
          · exact h.setFlusher (hmoved hget nofun nofun)
          · exact h.setFlusher (hfail hget error)
  | refreshFails error hget hpc hstatus => exact h.setFlusher (hfail hget error)
  | failNext hget hpc => exact h.failNext (hknown hget) hpc
  | cancelPosting hget hpc => exact h.setFlusher (hmoved hget nofun nofun)
  | cancel hget hpc => exact h.setFlusher (hmoved hget nofun nofun)
  | others hkeeps =>
      refine h.move (fun email he => ?_) fun _ hfl => Or.inl hfl
      obtain ⟨l, hl, rfl⟩ := hasEmail_iff.mp he
      exact List.all_eq_true.mp hkeeps l hl

theorem inv_run {cloud : LeadsDb} {t : Delivery} {as : List DeliveryAction}
    (hm : Meets (Delivery.step rules jobId) NothingRejected { cloud := cloud } as)
    (hr : run (Delivery.step rules jobId) { cloud := cloud } as = some t) : t.Inv rules := by
  have hstart : Inv rules { cloud := cloud } :=
    ⟨fun _ hp => (nomatch hp), fun _ hp => (nomatch hp), fun _ hp => (nomatch hp),
      fun _ _ hget => (nomatch hget), fun _ hfl => (nomatch hfl), fun _ hp => (nomatch hp)⟩
  exact run_invariant (fun _ _ _ hi hok hs => inv_step hi hok hs) hstart hm hr

end Delivery

/--
**A lead survives** any interleaving of flushers, any loss on the network and any failure
of the cloud's database, as long as no flusher acknowledges a request of which the cloud
rejected an item.
-/
theorem leads_survive (rules : LeadRules) (jobId : Nat) (cloud : LeadsDb) {t : Delivery}
    {as : List DeliveryAction}
    (hm : Meets (Delivery.step rules jobId) Delivery.NothingRejected { cloud := cloud } as)
    (hr : run (Delivery.step rules jobId) { cloud := cloud } as = some t) :
    ∀ p ∈ t.enqueued, t.Safe rules p :=
  (Delivery.inv_run hm hr).safe

/-! ### One lead, twice -/

def cityLeadRules : LeadRules where
  lower := id
  netloc := fun url => if url = "https://city.gov/staff" then some "city.gov" else none
  loads := fun _ => .malformed

/-- The cloud of a crawl that user 3 has started. -/
def cityCloud : LeadsDb where
  jobs := Table.empty.insertNew fun id => ⟨id, some 3⟩
  targetSuffixes := [".gov"]

def cityCrawler : CurrentUser := ⟨3, "crawler@x.org", false, []⟩

def clerkLead : LeadItem where
  snapshotId := none
  email := some "clerk@city.gov"
  sourceUrl := "https://city.gov/staff"

/-- The lead is enqueued, posted, and acknowledged; `faults` is what the cloud's database does
meanwhile. -/
def postClerk (faults : List (Option LeadExc)) : List DeliveryAction :=
  [.saveLead clerkLead, .flush, .deliver 0 (.ok cityCrawler) [faults], .receive 0 ""]

theorem clerk_survives :
    ∃ t, run (Delivery.step cityLeadRules 1) { cloud := cityCloud } (postClerk []) = some t ∧
      t.enqueued = [(1, clerkLead)] ∧ t.outbox.outbox.rows = [] ∧
      ∀ p ∈ t.enqueued, t.Safe cityLeadRules p := by
  have hend : (run (Delivery.step cityLeadRules 1) { cloud := cityCloud } (postClerk [])).map
      (fun t => (t.enqueued, t.outbox.outbox.rows)) = some ([(1, clerkLead)], []) := by
    decide +kernel
  obtain ⟨t, hr, heq⟩ := Option.map_eq_some_iff.mp hend
  obtain ⟨henqueued, hrows⟩ := Prod.mk.inj heq
  exact ⟨t, hr, henqueued, hrows, leads_survive cityLeadRules 1 cityCloud (by decide +kernel) hr⟩

/-- The cloud loses its database connection for a moment. -/
theorem lead_lost :
    ∃ t, run (Delivery.step cityLeadRules 1) { cloud := cityCloud }
        (postClerk [some (.database "server closed the connection unexpectedly")]) = some t ∧
      (1, clerkLead) ∈ t.enqueued ∧ ¬ t.Safe cityLeadRules (1, clerkLead) := by
  have hend : (run (Delivery.step cityLeadRules 1) { cloud := cityCloud }
      (postClerk [some (.database "server closed the connection unexpectedly")])).map
      (fun t => (t.enqueued, t.outbox.outbox.rows, t.outbox.outboxDead.rows, t.cloud.leads.rows)) =
        some ([(1, clerkLead)], [], [], []) := by
    decide +kernel
  obtain ⟨t, hr, heq⟩ := Option.map_eq_some_iff.mp hend
  obtain ⟨henqueued, hrest⟩ := Prod.mk.inj heq
  obtain ⟨hrows, hrest⟩ := Prod.mk.inj hrest
  obtain ⟨hdead, hleads⟩ := Prod.mk.inj hrest
  refine ⟨t, hr, henqueued ▸ List.mem_cons_self, ?_⟩
  rintro (⟨r, hget, -⟩ | ⟨d, hd, -⟩ | hthere)
  · have hmem := Table.get?_mem hget
    rw [hrows] at hmem
    cases hmem
  · rw [hdead] at hd
    cases hd
  · obtain ⟨l, hl, -⟩ := hasEmail_iff.mp hthere
    rw [hleads] at hl
    cases hl

end GovCrawler
