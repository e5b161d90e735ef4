/-
The rows that the outbox gives up on.

Batches are read under the lock of the outbox and failed under it later, row by row, so the row
that `fail` is called for may have been acknowledged or given up meanwhile by somebody who has
read it too.  `fail` reads the attempts again, counts a row that is gone as tried once, and the
update finds nothing.

`dead_letters_accounted` runs the flushers with a book of the deliveries that failed, of the rows
that were acknowledged and of those that died.
-/
import GovCrawler.Agent.Delivery

namespace GovCrawler

open Relational Transition

/-! ### The book -/

/-- The row whose delivery the action counts as failed. -/
def failedRow (s : Delivery) : DeliveryAction → Option OutboxRow
  | .failNext f =>
      match s.flushers[f]? with
      | none => none
      | some fl =>
          match fl.pc with
          | .failing _ (row :: _) => some row
          | _ => none
  | _ => none

/-- The rows that the action acknowledges: the batch that a 200 is for. -/
def ackedRows (s : Delivery) : DeliveryAction → List Nat
  | .receive f _ =>
      match s.flushers[f]? with
      | none => []
      | some fl =>
          match fl.pc with
          | .answered _ (.ok _) => fl.batch.map OutboxRow.id
          | _ => []
  | _ => []

/-- The flushers, the rows that each failed delivery was of, the rows that were acknowledged, and
the rows that died with what was kept of them. -/
structure DeadLetters where
  delivery : Delivery
  failures : List Nat := []
  acked : List Nat := []
  deaths : List (Nat × DeadRow) := []

namespace DeadLetters

/-- The dead rows that the action adds are of the row that it fails. -/
def step (rules : LeadRules) (jobId : Nat) (s : DeadLetters) (a : DeliveryAction) :
    Option DeadLetters :=
  (s.delivery.step rules jobId a).map fun delivery =>
    let failed := (failedRow s.delivery a).map OutboxRow.id
    let dead := delivery.outbox.outboxDead.rows.drop s.delivery.outbox.outboxDead.rows.length
    { delivery
      failures := s.failures ++ failed.toList
      acked := s.acked ++ ackedRows s.delivery a
      deaths := s.deaths ++ failed.toList.flatMap fun k => dead.map fun d => (k, d) }

/-- A row that died: eight deliveries of it had failed, what is kept is what was enqueued, and it
is not in the outbox. -/
structure Buried (jobId : Nat) (s : DeadLetters) (k : Nat) (d : DeadRow) : Prop where
  failed : maxAttempts ≤ s.failures.count k
  enqueued : (k, d.payload) ∈ s.delivery.enqueued
  only : ∀ item, (k, item) ∈ s.delivery.enqueued → item = d.payload
  columns : d.jobId = jobId ∧ d.kind = "lead"
  gone : s.delivery.outbox.outbox.get? k = none

end DeadLetters

/-! ### Where rows come from -/

/-- The row is as it was enqueued. -/
def OutboxRow.OfJob (jobId : Nat) (enqueued : List (Nat × LeadItem)) (row : OutboxRow) : Prop :=
  (row.id, row.payload) ∈ enqueued ∧ row.jobId = jobId

/-- All rows that the flusher has in hand are. -/
structure Flusher.OfJob (jobId : Nat) (enqueued : List (Nat × LeadItem)) (fl : Flusher) : Prop where
  batch : ∀ row ∈ fl.batch, row.OfJob jobId enqueued
  failing : ∀ error left, fl.pc = .failing error left → ∀ row ∈ left, row.OfJob jobId enqueued

/-- An id is handed out once, and stands for one lead. -/
structure Delivery.Traced (jobId : Nat) (s : Delivery) : Prop where
  handedOut : ∀ p ∈ s.enqueued, p.1 < s.outbox.outbox.nextKey
  unique : ∀ p ∈ s.enqueued, ∀ q ∈ s.enqueued, p.1 = q.1 → p = q
  rows : ∀ k r, s.outbox.outbox.get? k = some r → r.OfJob jobId s.enqueued
  flushers : ∀ fl ∈ s.flushers, fl.OfJob jobId s.enqueued

variable {jobId : Nat} {rules : LeadRules}

theorem OutboxRow.OfJob.mono {enqueued enqueued' : List (Nat × LeadItem)} {row : OutboxRow}
    (h : row.OfJob jobId enqueued) (hsub : enqueued ⊆ enqueued') : row.OfJob jobId enqueued' :=
  ⟨hsub h.1, h.2⟩

/-- A flusher that has its batch and nothing to fail. -/
theorem Flusher.OfJob.at {enqueued : List (Nat × LeadItem)} {fl : Flusher}
    (h : fl.OfJob jobId enqueued) (pc : FlushPc) (hpc : ∀ error left, pc ≠ .failing error left)
    (rejected : List String) :
    Flusher.OfJob jobId enqueued { fl with pc := pc, rejected := rejected } :=
  ⟨h.batch, fun error left heq => absurd heq (hpc error left)⟩

/-- One that is about to fail its batch. -/
theorem Flusher.OfJob.fail {enqueued : List (Nat × LeadItem)} {fl : Flusher}
    (h : fl.OfJob jobId enqueued) (error : String) : (fl.fail error).OfJob jobId enqueued := by
  refine ⟨h.batch, fun _ left hpc row hrow => ?_⟩
  obtain ⟨-, rfl⟩ := FlushPc.failing.inj hpc
  exact h.batch row hrow

namespace Delivery

variable {s t : Delivery}

/-- The outbox loses rows, or its rows keep what they are of. -/
theorem Traced.move (h : s.Traced jobId) {t : Delivery} (henqueued : t.enqueued = s.enqueued)
    (hnext : t.outbox.outbox.nextKey = s.outbox.outbox.nextKey)
    (hrows : ∀ k r, t.outbox.outbox.get? k = some r → r.OfJob jobId s.enqueued)
    (hflushers : ∀ fl ∈ t.flushers, fl ∈ s.flushers ∨ fl.OfJob jobId s.enqueued) :
    t.Traced jobId where
  handedOut := by
    rw [henqueued, hnext]
    exact h.handedOut
  unique := by
    rw [henqueued]
    exact h.unique
  rows := by
    rw [henqueued]
    exact hrows
  flushers := by
    rw [henqueued]
    intro fl hfl
    rcases hflushers fl hfl with hold | hnew
    · exact h.flushers fl hold
    · exact hnew

theorem ofJob_of_setFlusher {f : Nat} {fl : Flusher} (hfl : fl.OfJob jobId s.enqueued) :
    ∀ fl' ∈ (s.setFlusher f fl).flushers, fl' ∈ s.flushers ∨ fl'.OfJob jobId s.enqueued := by
  intro fl' hmem
  rcases mem_setFlusher hmem with hold | rfl
  · exact Or.inl hold
  · exact Or.inr hfl

theorem Traced.setFlusher (h : s.Traced jobId) {f : Nat} {fl : Flusher}
    (hfl : fl.OfJob jobId s.enqueued) : (s.setFlusher f fl).Traced jobId :=
  h.move rfl rfl h.rows (ofJob_of_setFlusher hfl)

/-- The outbox is another one. -/
theorem Traced.withOutbox (h : s.Traced jobId) {outbox : LocalOutbox}
    (hnext : outbox.outbox.nextKey = s.outbox.outbox.nextKey)
    (hrows : ∀ k r, outbox.outbox.get? k = some r → r.OfJob jobId s.enqueued) :
    Traced jobId { s with outbox := outbox } :=
  h.move rfl hnext hrows fun _ hfl => Or.inl hfl

theorem Traced.enqueue (h : s.Traced jobId) (item : LeadItem) :
    Traced jobId { s with
      outbox := s.outbox.enqueue jobId "lead" item
      enqueued := s.enqueued ++ [(s.outbox.outbox.nextKey, item)] } := by
  have hmem : ∀ {p : Nat × LeadItem}, p ∈ s.enqueued ++ [(s.outbox.outbox.nextKey, item)] ↔
      p ∈ s.enqueued ∨ p = (s.outbox.outbox.nextKey, item) := by
    intro p
    rw [List.mem_append, List.mem_singleton]
  have hsub : s.enqueued ⊆ s.enqueued ++ [(s.outbox.outbox.nextKey, item)] :=
    List.subset_append_left _ _
  refine ⟨?_, ?_, ?_, ?_⟩
  · intro p hp
    rcases hmem.mp hp with hp | rfl
    · exact Nat.lt_succ_of_lt (h.handedOut p hp)
    · exact Nat.lt_succ_self _
  · intro p hp q hq heq
    rcases hmem.mp hp with hp | rfl <;> rcases hmem.mp hq with hq | rfl
    · exact h.unique p hp q hq heq
    · exact absurd heq (Nat.ne_of_lt (h.handedOut p hp))
    · exact absurd heq.symm (Nat.ne_of_lt (h.handedOut q hq))
    · rfl
  · intro k r hget
    dsimp only at hget ⊢
    rw [get?_enqueue] at hget
    split at hget
    · rename_i hk
      obtain rfl := Option.some.inj hget
      exact ⟨hmem.mpr (Or.inr (by rw [hk])), rfl⟩
    · exact (h.rows k r hget).mono hsub
  · intro fl hfl
    have hold := h.flushers fl hfl
    exact ⟨fun row hrow => (hold.batch row hrow).mono hsub,
      fun error left hpc row hrow => (hold.failing error left hpc row hrow).mono hsub⟩

/-- A row that failed, or another one, is of what it was of. -/
theorem ofJob_of_fail (h : s.Traced jobId) {rowId job : Nat} {kind : String} {payload : LeadItem}
    {error : String} {k : Nat} {r : OutboxRow}
    (hget : (s.outbox.fail rowId job kind payload error).outbox.get? k = some r) :
    r.OfJob jobId s.enqueued := by
  cases hrow : s.outbox.outbox.get? rowId with
  | none =>
      rw [fail_of_gone job kind payload error hrow] at hget
      exact h.rows k r hget
  | some row =>
      by_cases hlt : row.attempts + 1 < maxAttempts
      · rw [(fail_of_lt job kind payload error hrow hlt).2] at hget
        split at hget
        · obtain rfl := Option.some.inj hget
          exact h.rows rowId row hrow
        · exact h.rows k r hget
      · rw [(fail_of_ge job kind payload error hrow (Nat.le_of_not_lt hlt)).2] at hget
        split at hget
        · cases hget
        · exact h.rows k r hget

/-- The step lemma. -/
theorem Traced.step (h : s.Traced jobId) {a : DeliveryAction}
    (hstep : s.step rules jobId a = some t) : t.Traced jobId := by
  have hold : ∀ {f : Nat} {fl : Flusher}, s.flushers[f]? = some fl → fl.OfJob jobId s.enqueued :=
    fun hget => h.flushers _ (List.mem_of_getElem? hget)
  have hacked : ∀ ids k r, (s.outbox.ack ids).outbox.get? k = some r →
      r.OfJob jobId s.enqueued := by
    intro ids k r hget
    rw [get?_ack] at hget
    split at hget
    · cases hget
    · exact h.rows k r hget
  cases moved_of_step hstep with
  | saveLead hemail => exact h.enqueue _
  | flush hbatch =>
      refine h.move rfl rfl h.rows fun fl hfl => ?_
      rcases List.mem_append.mp hfl with hmem | hmem
      · exact Or.inl hmem
      · obtain rfl := List.mem_singleton.mp hmem
        refine Or.inr ⟨fun row hrow => ?_, fun _ _ hpc => by cases hpc⟩
        exact h.rows row.id row (get?_of_pendingBatch hrow)
  | deliver caller faults hget hpc =>
      cases caller with
      | error e => exact h.setFlusher ((hold hget).at (.answered _ _) nofun [])
      | ok user =>
          exact h.move rfl rfl h.rows
            (ofJob_of_setFlusher ((hold hget).at (.answered _ _) nofun _))
  | deliverOrphan user faults hget => exact h.move rfl rfl h.rows fun _ hfl => Or.inl hfl
  | lose error hget hpc => exact h.setFlusher ((hold hget).fail error)
  | timeout error hget hpc =>
      exact h.move rfl rfl h.rows (ofJob_of_setFlusher ((hold hget).fail error))
  | loseReply error hget hpc => exact h.setFlusher ((hold hget).fail error)
  | @receive f fl retried reply error hget hpc =>
      cases reply with
      | ok reply =>
          exact (h.setFlusher ((hold hget).at .done nofun _)).withOutbox (nextKey_ack _ _)
            (hacked _)
      | error e =>
          dsimp only [conclude]
          split
          · exact h.setFlusher ((hold hget).at (.posting true) nofun _)
          · exact h.setFlusher ((hold hget).fail error)
  | refreshFails error hget hpc hstatus => exact h.setFlusher ((hold hget).fail error)
  | @failNext f fl error row left hget hpc =>
      have hfl : Flusher.OfJob jobId s.enqueued { fl with pc := .failing error left } := by
        refine ⟨(hold hget).batch, fun _ left' heq row' hrow' => ?_⟩
        obtain ⟨-, rfl⟩ := FlushPc.failing.inj heq
        exact (hold hget).failing _ _ hpc row' (List.mem_cons_of_mem _ hrow')
      exact (h.setFlusher hfl).withOutbox (nextKey_fail _ _ _ _ _ _) fun k r hget' =>
        ofJob_of_fail h hget'
  | cancelPosting hget hpc =>
      exact h.move rfl rfl h.rows (ofJob_of_setFlusher ((hold hget).at .done nofun _))
  | cancel hget hpc => exact h.setFlusher ((hold hget).at .done nofun _)
  | others hkeeps => exact h.move rfl rfl h.rows fun _ hfl => Or.inl hfl

/-- What a step does to the outbox, with the rows that it acknowledges and the row that it
fails. -/
inductive Touches (jobId : Nat) (s t : Delivery) : List Nat → Option OutboxRow → Prop
  | nothing (houtbox : t.outbox = s.outbox) (henqueued : t.enqueued = s.enqueued) :
      Touches jobId s t [] none
  | enqueue (item : LeadItem) (houtbox : t.outbox = s.outbox.enqueue jobId "lead" item)
      (henqueued : t.enqueued = s.enqueued ++ [(s.outbox.outbox.nextKey, item)]) :
      Touches jobId s t [] none
  | ack (ids : List Nat) (houtbox : t.outbox = s.outbox.ack ids)
      (henqueued : t.enqueued = s.enqueued) : Touches jobId s t ids none
  | fail (row : OutboxRow) (error : String)
      (houtbox : t.outbox = s.outbox.fail row.id row.jobId "lead" row.payload error)
      (henqueued : t.enqueued = s.enqueued) : Touches jobId s t [] (some row)

theorem ackedRows_receive {f : Nat} {fl : Flusher} {retried : Bool}
    {reply : Except HttpError LeadsReply} (error : String) (hget : s.flushers[f]? = some fl)
    (hpc : fl.pc = .answered retried reply) :
    ackedRows s (.receive f error) = if reply.isOk then fl.batch.map OutboxRow.id else [] := by
  unfold ackedRows
  dsimp only
  rw [hget]
  dsimp only
  rw [hpc]
  cases reply <;> rfl

theorem touches_of_step {a : DeliveryAction} (hstep : s.step rules jobId a = some t) :
    Touches jobId s t (ackedRows s a) (failedRow s a) := by
  cases moved_of_step hstep with
  | saveLead hemail => exact .enqueue _ rfl rfl
  | flush hbatch => exact .nothing rfl rfl
  | deliver caller faults hget hpc => cases caller <;> exact .nothing rfl rfl
  | deliverOrphan user faults hget => exact .nothing rfl rfl
  | lose error hget hpc => exact .nothing rfl rfl
  | timeout error hget hpc => exact .nothing rfl rfl
  | loseReply error hget hpc => exact .nothing rfl rfl
  | @receive f fl retried reply error hget hpc =>
      have hacked := ackedRows_receive error hget hpc
      cases reply with
      | ok reply =>
          rw [hacked]
          exact .ack _ rfl rfl
      | error e =>
          rw [hacked]
          dsimp only [conclude]
          split
          · exact .nothing rfl rfl
          · exact .nothing rfl rfl
  | refreshFails error hget hpc hstatus => exact .nothing rfl rfl
  | @failNext f fl error row left hget hpc =>
      have hrow : failedRow s (.failNext f) = some row := by
        unfold failedRow
        dsimp only
        rw [hget]
        dsimp only
        rw [hpc]
      rw [hrow]
      exact .fail row error rfl rfl
  | cancelPosting hget hpc => exact .nothing rfl rfl
  | cancel hget hpc => exact .nothing rfl rfl
  | others hkeeps => exact .nothing rfl rfl

theorem Traced.failedRow (h : s.Traced jobId) {a : DeliveryAction} {row : OutboxRow}
    (hrow : failedRow s a = some row) : row.OfJob jobId s.enqueued := by
  unfold GovCrawler.failedRow at hrow
  split at hrow
  · split at hrow
    · cases hrow
    · rename_i fl hget
      split at hrow
      · rename_i error row' left hpc
        obtain rfl := Option.some.inj hrow
        exact (h.flushers fl (List.mem_of_getElem? hget)).failing error _ hpc row'
          (List.mem_cons_self ..)
      · cases hrow
  · cases hrow

theorem Traced.ackedRows (h : s.Traced jobId) {a : DeliveryAction} {k : Nat}
    (hk : k ∈ ackedRows s a) : ∃ item, (k, item) ∈ s.enqueued := by
  unfold GovCrawler.ackedRows at hk
  split at hk
  · split at hk
    · cases hk
    · rename_i fl hget
      split at hk
      · obtain ⟨row, hrow, rfl⟩ := List.mem_map.mp hk
        exact ⟨_, ((h.flushers fl (List.mem_of_getElem? hget)).batch row hrow).1⟩
      · cases hk
  · cases hk

end Delivery

/-! ### What the book says -/

namespace DeadLetters

/-- A row that was enqueued and has gone. -/
def Gone (s : DeadLetters) (k : Nat) : Prop :=
  (∃ item, (k, item) ∈ s.delivery.enqueued) ∧ s.delivery.outbox.outbox.get? k = none

/-- The invariant. -/
structure Accounted (jobId : Nat) (s : DeadLetters) : Prop where
  traced : s.delivery.Traced jobId
  attempts : ∀ k r, s.delivery.outbox.outbox.get? k = some r → r.attempts ≤ s.failures.count k
  acked : ∀ k ∈ s.acked, s.Gone k
  all : s.delivery.outbox.outboxDead.rows = s.deaths.map Prod.snd
  once : (s.deaths.map Prod.fst).Nodup
  buried : ∀ k d, (k, d) ∈ s.deaths → s.Buried jobId k d

variable {s s' : DeadLetters} {d : Delivery} {failures acked : List Nat}

/-- What has gone stays so: no id is handed out again. -/
theorem Accounted.stillGone (h : s.Accounted jobId)
    (hsub : s.delivery.enqueued ⊆ s'.delivery.enqueued)
    (hgone : ∀ k, k < s.delivery.outbox.outbox.nextKey →
      s.delivery.outbox.outbox.get? k = none → s'.delivery.outbox.outbox.get? k = none)
    {k : Nat} (hk : s.Gone k) : s'.Gone k := by
  obtain ⟨⟨item, hitem⟩, hget⟩ := hk
  exact ⟨⟨item, hsub hitem⟩, hgone k (h.traced.handedOut _ hitem) hget⟩

/-- Who is buried stays so: no failure is taken back, and no id is handed out again. -/
theorem Accounted.stillBuried (h : s.Accounted jobId) (htraced : s'.delivery.Traced jobId)
    (hcount : ∀ k, s.failures.count k ≤ s'.failures.count k)
    (hsub : s.delivery.enqueued ⊆ s'.delivery.enqueued)
    (hgone : ∀ k, k < s.delivery.outbox.outbox.nextKey →
      s.delivery.outbox.outbox.get? k = none → s'.delivery.outbox.outbox.get? k = none)
    {k : Nat} {row : DeadRow} (hmem : (k, row) ∈ s.deaths) : s'.Buried jobId k row := by
  have hold := h.buried k row hmem
  have henqueued := hsub hold.enqueued
  exact
    { failed := Nat.le_trans hold.failed (hcount k)
      enqueued := henqueued
      only := fun item hitem => congrArg Prod.snd (htraced.unique _ hitem _ henqueued rfl)
      columns := hold.columns
      gone := (h.stillGone hsub hgone ⟨⟨_, hold.enqueued⟩, hold.gone⟩).2 }

/-- A step with which no row dies. -/
theorem Accounted.survives (h : s.Accounted jobId) (htraced : d.Traced jobId)
    (hcount : ∀ k, s.failures.count k ≤ failures.count k)
    (hattempts : ∀ k r, d.outbox.outbox.get? k = some r → r.attempts ≤ failures.count k)
    (hdead : d.outbox.outboxDead = s.delivery.outbox.outboxDead)
    (hsub : s.delivery.enqueued ⊆ d.enqueued)
    (hgone : ∀ k, k < s.delivery.outbox.outbox.nextKey →
      s.delivery.outbox.outbox.get? k = none → d.outbox.outbox.get? k = none)
    (hacked : ∀ k ∈ acked, (∃ item, (k, item) ∈ s.delivery.enqueued) ∧
      d.outbox.outbox.get? k = none) :
    Accounted jobId ⟨d, failures, s.acked ++ acked, s.deaths⟩ where
  traced := htraced
  attempts := hattempts
  acked := fun k hk => by
    rcases List.mem_append.mp hk with hold | hnew
    · exact h.stillGone hsub hgone (h.acked k hold)
    · obtain ⟨⟨item, hitem⟩, hget⟩ := hacked k hnew
      exact ⟨⟨item, hsub hitem⟩, hget⟩
  all := (congrArg Table.rows hdead).trans h.all
  once := h.once
  buried := fun _ _ hmem => h.stillBuried htraced hcount hsub hgone hmem

/-- Where nothing is acknowledged. -/
theorem none_acked (s : DeadLetters) (d : Delivery) : ∀ k ∈ ([] : List Nat),
    (∃ item, (k, item) ∈ s.delivery.enqueued) ∧ d.outbox.outbox.get? k = none :=
  fun _ hk => nomatch hk

/-- A failed delivery: of a row that has gone, of one that may fail again, or of one that dies. -/
theorem Accounted.fails (h : s.Accounted jobId) (htraced : d.Traced jobId) {row : OutboxRow}
    (hrow : row.OfJob jobId s.delivery.enqueued) {error : String}
    (houtbox : d.outbox = s.delivery.outbox.fail row.id row.jobId "lead" row.payload error)
    (henqueued : d.enqueued = s.delivery.enqueued) :
    Accounted jobId
      ⟨d, s.failures ++ [row.id], s.acked, s.deaths ++
        (d.outbox.outboxDead.rows.drop s.delivery.outbox.outboxDead.rows.length).map
          fun dead => (row.id, dead)⟩ := by
  have hsub : s.delivery.enqueued ⊆ d.enqueued := henqueued ▸ List.Subset.refl _
  have hcount : ∀ k, s.failures.count k ≤ (s.failures ++ [row.id]).count k := by
    intro k
    rw [List.count_append]
    exact Nat.le_add_right _ _
  have hone : (s.failures ++ [row.id]).count row.id = s.failures.count row.id + 1 := by
    rw [List.count_append, List.count_singleton_self]
  cases hget : s.delivery.outbox.outbox.get? row.id with
  | none =>
      rw [fail_of_gone _ _ _ _ hget] at houtbox
      rw [houtbox, List.drop_length, List.map_nil, List.append_nil, ← List.append_nil s.acked]
      refine h.survives htraced hcount ?_ (by rw [houtbox]) hsub
        (by rw [houtbox]; exact fun _ _ hg => hg) (none_acked _ _)
      rw [houtbox]
      exact fun k r hr => Nat.le_trans (h.attempts k r hr) (hcount k)
  | some r =>
      by_cases hlt : r.attempts + 1 < maxAttempts
      · obtain ⟨hdead, hrows⟩ := fail_of_lt row.jobId "lead" row.payload error hget hlt
        rw [← houtbox] at hdead hrows
        rw [hdead, List.drop_length, List.map_nil, List.append_nil, ← List.append_nil s.acked]
        refine h.survives htraced hcount (fun k r' hr' => ?_) hdead hsub (fun k _ hgone => ?_)
          (none_acked _ _)
        · rw [hrows] at hr'
          split at hr'
          · rename_i hk
            obtain rfl := Option.some.inj hr'
            rw [hk, hone]
            exact Nat.succ_le_succ (h.attempts _ r hget)
          · exact Nat.le_trans (h.attempts k r' hr') (hcount k)
        · rw [hrows, if_neg (by rintro rfl; rw [hget] at hgone; cases hgone)]
          exact hgone
      · have hge := Nat.le_of_not_lt hlt
        obtain ⟨hdead, hrows⟩ := fail_of_ge row.jobId "lead" row.payload error hget hge
        rw [← houtbox] at hdead hrows
        rw [hdead, List.drop_left, List.map_singleton]
        have hgone : ∀ k, s.delivery.outbox.outbox.get? k = none →
            d.outbox.outbox.get? k = none := by
          intro k hk
          rw [hrows]
          split
          · rfl
          · exact hk
        have hnew : row.id ∉ s.deaths.map Prod.fst := by
          rintro hmem
          obtain ⟨⟨k, dead⟩, hdeath, rfl⟩ := List.mem_map.mp hmem
          rw [(h.buried _ dead hdeath).gone] at hget
          cases hget
        refine ⟨htraced, fun k r' hr' => ?_, fun k hk => ?_, ?_, ?_, fun k dead hmem => ?_⟩
        · rw [hrows] at hr'
          split at hr'
          · cases hr'
          · exact Nat.le_trans (h.attempts k r' hr') (hcount k)
        · exact h.stillGone hsub (fun k _ hk => hgone k hk) (h.acked k hk)
        · rw [List.map_append, ← h.all]
          exact hdead
        · rw [List.map_append, List.nodup_append]
          refine ⟨h.once, List.nodup_singleton _, fun k hk k' hk' => ?_⟩
          obtain rfl := List.mem_singleton.mp hk'
          exact fun heq => hnew ((show k = row.id from heq) ▸ hk)
        · rcases List.mem_append.mp hmem with hold | hlast
          · exact h.stillBuried htraced hcount hsub (fun k _ hk => hgone k hk) hold
          · obtain ⟨rfl, rfl⟩ := Prod.mk.inj (List.mem_singleton.mp hlast)
            have hrow' := hsub hrow.1
            refine ⟨?_, hrow', fun item hitem => ?_, ⟨hrow.2, rfl⟩, ?_⟩
            · rw [hone]
              exact Nat.le_trans hge (Nat.succ_le_succ (h.attempts _ r hget))
            · exact congrArg Prod.snd (htraced.unique _ hitem _ hrow' rfl)
            · rw [hrows, if_pos rfl]

/-- The step lemma. -/
theorem Accounted.step (h : s.Accounted jobId) {a : DeliveryAction}
    (hstep : s.step rules jobId a = some s') : s'.Accounted jobId := by
  obtain ⟨d, hd, rfl⟩ := Option.map_eq_some_iff.mp hstep
  have htraced := h.traced.step hd
  have htouches := @Delivery.touches_of_step jobId rules _ d a hd
  have hrow := fun row => @Delivery.Traced.failedRow jobId s.delivery h.traced a row
  have hacked := fun k => @Delivery.Traced.ackedRows jobId s.delivery h.traced a k
  generalize failedRow s.delivery a = failed at htouches hrow ⊢
  generalize ackedRows s.delivery a = acked at htouches hacked ⊢
  cases htouches with
  | nothing houtbox henqueued =>
      dsimp only [Option.map_none, Option.toList_none]
      rw [List.flatMap_nil, List.append_nil s.failures, List.append_nil s.deaths]
      refine h.survives htraced (fun _ => Nat.le_refl _) ?_ (by rw [houtbox])
        (henqueued ▸ List.Subset.refl _) (by rw [houtbox]; exact fun _ _ hg => hg)
        (none_acked _ _)
      rw [houtbox]
      exact h.attempts
  | enqueue item houtbox henqueued =>
      dsimp only [Option.map_none, Option.toList_none]
      rw [List.flatMap_nil, List.append_nil s.failures, List.append_nil s.deaths]
      refine h.survives htraced (fun _ => Nat.le_refl _) (fun k r hr => ?_) (by rw [houtbox]; rfl)
        (henqueued ▸ List.subset_append_left _ _) (fun k hlt hgone => ?_)
        (none_acked _ _)
      · rw [houtbox, get?_enqueue] at hr
        split at hr
        · obtain rfl := Option.some.inj hr
          exact Nat.zero_le _
        · exact h.attempts k r hr
      · rw [houtbox, get?_enqueue, if_neg (Nat.ne_of_lt hlt)]
        exact hgone
  | ack ids houtbox henqueued =>
      dsimp only [Option.map_none, Option.toList_none]
      rw [List.flatMap_nil, List.append_nil s.failures, List.append_nil s.deaths]
      refine h.survives htraced (fun _ => Nat.le_refl _) (fun k r hr => ?_)
        (by rw [houtbox, dead_ack]) (henqueued ▸ List.Subset.refl _) (fun k _ hgone => ?_)
        fun k hk => ⟨hacked k hk, by rw [houtbox, get?_ack, if_pos hk]⟩
      · rw [houtbox, get?_ack] at hr
        split at hr
        · cases hr
        · exact h.attempts k r hr
      · rw [houtbox, get?_ack]
        split
        · rfl
        · exact hgone
  | fail row error houtbox henqueued =>
      simpa only [Option.map_some, Option.toList_some, List.flatMap_singleton, List.append_nil]
        using h.fails htraced (hrow row rfl) houtbox henqueued

theorem accounted_start (jobId : Nat) (cloud : LeadsDb) :
    Accounted jobId { delivery := { cloud := cloud } } where
  traced :=
    ⟨fun _ hp => (nomatch hp), fun _ hp => (nomatch hp), fun _ _ hget => (nomatch hget),
      fun _ hfl => (nomatch hfl)⟩
  attempts := fun _ _ hget => (nomatch hget)
  acked := fun _ hk => (nomatch hk)
  all := rfl
  once := List.nodup_nil
  buried := fun _ _ hmem => (nomatch hmem)

end DeadLetters

/--
**Each dead letter has one row, which failed eight times**: in every run, no row dies twice or with
another payload, none is in the outbox and dead, what was acknowledged is gone for good, and to
fail a row that is not in the outbox leaves the outbox and the dead as they are.
-/
theorem dead_letters_accounted (rules : LeadRules) (jobId : Nat) (cloud : LeadsDb)
    (as : List DeliveryAction) (s : DeadLetters)
    (hrun : run (DeadLetters.step rules jobId) { delivery := { cloud := cloud } } as = some s) :
    s.delivery.outbox.outboxDead.rows = s.deaths.map Prod.snd ∧
      (s.deaths.map Prod.fst).Nodup ∧
      (∀ k d, (k, d) ∈ s.deaths → s.Buried jobId k d) ∧
      (∀ k ∈ s.acked, s.delivery.outbox.outbox.get? k = none) ∧
      ∀ f s' row, s.step rules jobId (.failNext f) = some s' →
        failedRow s.delivery (.failNext f) = some row →
        row.id ∈ s.acked ∨ row.id ∈ s.deaths.map Prod.fst ∨
          s.delivery.outbox.outbox.get? row.id = none →
        s'.delivery.outbox = s.delivery.outbox := by
  have h : s.Accounted jobId :=
    run_invariant' (fun _ _ _ hi hs => hi.step hs) (DeadLetters.accounted_start jobId cloud) hrun
  refine ⟨h.all, h.once, h.buried, fun k hk => (h.acked k hk).2,
    fun f s' row hstep hrow hwhere => ?_⟩
  have hgone : s.delivery.outbox.outbox.get? row.id = none := by
    rcases hwhere with hacked | hdead | hgone
    · exact (h.acked _ hacked).2
    · obtain ⟨⟨k, dead⟩, hmem, hk⟩ := List.mem_map.mp hdead
      exact (show k = row.id from hk) ▸ (h.buried k dead hmem).gone
    · exact hgone
  obtain ⟨d, hd, rfl⟩ := Option.map_eq_some_iff.mp hstep
  have htouches := @Delivery.touches_of_step jobId rules _ d _ hd
  rw [hrow] at htouches
  cases htouches with
  | fail row error houtbox henqueued =>
      exact houtbox.trans (fail_of_gone _ _ _ _ hgone)

/-! A lead that never gets through, with a flusher that has read it before all others, and one that
two flushers have read when it does. -/

/-- One run of `_flush_kind` whose request is lost. -/
def failedFlush (f : Nat) : List DeliveryAction := [.flush, .lose f "timed out", .failNext f]

def eightLost : List DeliveryAction :=
  [.saveLead clerkLead, .flush] ++ (List.range 8).flatMap (fun i => failedFlush (i + 1)) ++
    [.lose 0 "timed out", .failNext 0]

/-- The second flusher fails the row that the first has acknowledged. -/
def ackedThenFailed : List DeliveryAction :=
  [.saveLead clerkLead, .flush, .flush, .deliver 9 (.ok cityCrawler) [], .receive 9 "",
    .lose 10 "timed out", .failNext 10]

theorem clerk_dead_once :
    ∃ s, run (DeadLetters.step cityLeadRules 1) { delivery := { cloud := cityCloud } }
        (eightLost ++ ackedThenFailed) = some s ∧
      s.failures.count 1 = 9 ∧ s.deaths.map Prod.fst = [1] ∧
      s.failures.count 2 = 1 ∧ s.acked = [2] ∧
      (∀ k d, (k, d) ∈ s.deaths → s.Buried 1 k d) ∧
      ∀ k ∈ s.acked, s.delivery.outbox.outbox.get? k = none := by
  have hend : (run (DeadLetters.step cityLeadRules 1) { delivery := { cloud := cityCloud } }
      (eightLost ++ ackedThenFailed)).map (fun s =>
        (s.failures.count 1, s.deaths.map Prod.fst, s.failures.count 2, s.acked)) =
      some (9, [1], 1, [2]) := by
    decide +kernel
  obtain ⟨s, hr, heq⟩ := Option.map_eq_some_iff.mp hend
  obtain ⟨hcount, heq⟩ := Prod.mk.inj heq
  obtain ⟨hdeaths, heq⟩ := Prod.mk.inj heq
  obtain ⟨hone, hacked⟩ := Prod.mk.inj heq
  obtain ⟨-, -, hburied, hgone, -⟩ :=
    dead_letters_accounted cityLeadRules 1 cityCloud (eightLost ++ ackedThenFailed) s hr
  exact ⟨s, hr, hcount, hdeaths, hone, hacked, hburied, hgone⟩

end GovCrawler
