/-
A long outage of the cloud: whether it can cost leads.

`LocalOutbox.fail` counts a row's failures to isolate the rows that the cloud will never
take, and gives a row up at the eighth.  But `_flush_kind` fails every row of the batch
whenever a request fails, so the count also goes up with every request that an outage
swallows, at one a second or two.

`outage_survived` says what the count is safe for: as long as no row is failed for the
eighth time, nothing is given up and every lead is in the outbox or in the cloud, and
when a row is, it is given up for good.  `clerk_given_up` is eight requests long.
-/
import GovCrawler.Agent.Delivery

namespace GovCrawler

open Relational StoreProgram Transition

/-- How often a row has failed; 0 for a row that is not there, as `fail` has it. -/
def LocalOutbox.attempts (o : LocalOutbox) (rowId : Nat) : Nat :=
  ((o.outbox.get? rowId).map OutboxRow.attempts).getD 0

/-- The row that the handler fails next. -/
def FlushPc.next : FlushPc → Option OutboxRow
  | .failing _ (row :: _) => some row
  | _ => none

/-! ### What a failure gives up -/

section Fail

variable {o : LocalOutbox} {rowId jobId : Nat} {kind : String} {payload : LeadItem} {error : String}

/-- A row below the limit is not given up. -/
theorem dead_fail_of_lt (h : o.attempts rowId + 1 < maxAttempts) :
    (o.fail rowId jobId kind payload error).outboxDead = o.outboxDead := by
  have hlimit : ¬ maxAttempts ≤ ((o.outbox.get? rowId).map OutboxRow.attempts).getD 0 + 1 :=
    Nat.not_le.mpr h
  unfold LocalOutbox.fail
  dsimp only
  rw [if_neg hlimit]

/-- A row at the limit is. -/
theorem dead_fail_of_le (h : maxAttempts ≤ o.attempts rowId + 1) :
    (o.fail rowId jobId kind payload error).outboxDead.rows ≠ [] := by
  have hlimit : maxAttempts ≤ ((o.outbox.get? rowId).map OutboxRow.attempts).getD 0 + 1 := h
  unfold LocalOutbox.fail
  dsimp only
  rw [if_pos hlimit]
  exact List.ne_nil_of_mem ((Table.mem_insertNew _).mpr (Or.inr rfl))

theorem dead_fail_ne_nil (h : o.outboxDead.rows ≠ []) :
    (o.fail rowId jobId kind payload error).outboxDead.rows ≠ [] := by
  obtain ⟨d, hd⟩ := List.exists_mem_of_ne_nil _ h
  exact List.ne_nil_of_mem (dead_fail hd)

end Fail

namespace Delivery

variable {rules : LeadRules} {jobId : Nat} {s t : Delivery} {a : DeliveryAction}

/-- The row that is failed has failed fewer than seven times. -/
def BelowLimit (s : Delivery) : DeliveryAction → Prop
  | .failNext f => ∀ fl ∈ s.flushers[f]?.toList, ∀ row ∈ fl.pc.next.toList,
      s.outbox.attempts row.id + 1 < maxAttempts
  | _ => True

instance : ∀ a, Decidable (s.BelowLimit a)
  | .failNext f => inferInstanceAs (Decidable (∀ fl ∈ s.flushers[f]?.toList,
      ∀ row ∈ fl.pc.next.toList, s.outbox.attempts row.id + 1 < maxAttempts))
  | .saveLead _ | .flush | .deliver _ _ _ | .deliverOrphan _ _ _ | .lose _ _ | .timeout _ _
  | .loseReply _ _ | .receive _ _ | .refreshFails _ _ | .cancel _ | .others _ => .isTrue trivial

/-- The handler fails the row that it comes to. -/
theorem outbox_of_failNext {f : Nat} (h : s.step rules jobId (.failNext f) = some t) :
    ∃ fl row error, s.flushers[f]? = some fl ∧ fl.pc.next = some row ∧
      t.outbox = s.outbox.fail row.id row.jobId "lead" row.payload error := by
  cases moved_of_step h with
  | failNext hget hpc => exact ⟨_, _, _, hget, by rw [hpc]; rfl, rfl⟩

/-- No other step touches the dead rows. -/
theorem dead_step (ha : ∀ f, a ≠ .failNext f) (h : s.step rules jobId a = some t) :
    t.outbox.outboxDead = s.outbox.outboxDead := by
  cases moved_of_step h with
  | @failNext f => exact absurd rfl (ha f)
  | deliver caller => cases caller <;> rfl
  | @receive _ _ _ reply =>
      cases reply with
      | ok reply => exact dead_ack _ _
      | error e =>
          dsimp only [conclude]
          split <;> rfl
  | saveLead | flush | deliverOrphan | lose | timeout | loseReply | refreshFails
  | cancelPosting | cancel | others => rfl

/-- A step below the limit gives nothing up. -/
theorem dead_of_belowLimit (hok : s.BelowLimit a) (h : s.step rules jobId a = some t) :
    t.outbox.outboxDead = s.outbox.outboxDead := by
  by_cases ha : ∃ f, a = .failNext f
  · obtain ⟨f, rfl⟩ := ha
    obtain ⟨fl, row, error, hget, hnext, heq⟩ := outbox_of_failNext h
    rw [heq]
    exact dead_fail_of_lt (hok fl (by simp [hget]) row (by simp [hnext]))
  · exact dead_step (fun f hf => ha ⟨f, hf⟩) h

/-- A step at the limit gives a row up. -/
theorem dead_of_not_belowLimit (hok : ¬ s.BelowLimit a) (h : s.step rules jobId a = some t) :
    t.outbox.outboxDead.rows ≠ [] := by
  by_cases ha : ∃ f, a = .failNext f
  · obtain ⟨f, rfl⟩ := ha
    obtain ⟨fl, row, error, hget, hnext, heq⟩ := outbox_of_failNext h
    rw [heq]
    refine dead_fail_of_le (Nat.not_lt.mp fun hlt => hok fun fl' hfl row' hrow => ?_)
    obtain rfl : fl' = fl := by simpa [hget] using hfl
    obtain rfl : row' = row := by simpa [hnext] using hrow
    exact hlt
  · exact absurd (show s.BelowLimit a by cases a <;> first | trivial | exact absurd ⟨_, rfl⟩ ha) hok

/-- What is given up stays given up. -/
theorem dead_ne_nil_step (hdead : s.outbox.outboxDead.rows ≠ [])
    (h : s.step rules jobId a = some t) : t.outbox.outboxDead.rows ≠ [] := by
  by_cases ha : ∃ f, a = .failNext f
  · obtain ⟨f, rfl⟩ := ha
    obtain ⟨fl, row, error, hget, hnext, heq⟩ := outbox_of_failNext h
    rw [heq]
    exact dead_fail_ne_nil hdead
  · rw [dead_step (fun f hf => ha ⟨f, hf⟩) h]
    exact hdead

/-- Every lead is still in the outbox, or it has been delivered; nothing was given up. -/
structure Kept (rules : LeadRules) (s : Delivery) : Prop where
  dead : s.outbox.outboxDead.rows = []
  leads : ∀ p ∈ s.enqueued,
    (∃ r, s.outbox.outbox.get? p.1 = some r ∧ r.payload = p.2) ∨
      HasEmail (storedEmail rules p.2) s.cloud

end Delivery

/--
**An outage costs nothing** if and only if no row is failed for the eighth time, in every
run in which the cloud takes all of what it acknowledges: nothing is given up, and every
lead is in the outbox, where the next flush finds it, or in the cloud.
-/
theorem outage_survived (rules : LeadRules) (jobId : Nat) (cloud : LeadsDb) {t : Delivery}
    {as : List DeliveryAction}
    (hm : Meets (Delivery.step rules jobId) Delivery.NothingRejected { cloud := cloud } as)
    (hr : run (Delivery.step rules jobId) { cloud := cloud } as = some t) :
    t.Kept rules ↔ Meets (Delivery.step rules jobId) Delivery.BelowLimit { cloud := cloud } as := by
  constructor
  · intro hkept
    exact Meets.of_latch (fun _ _ _ => Delivery.dead_of_not_belowLimit)
      (fun _ _ _ => Delivery.dead_ne_nil_step) hr (not_not.mpr hkept.dead)
  · intro hlimit
    have hstep : ∀ (s : Delivery) a s', s.outbox.outboxDead.rows = [] → s.BelowLimit a →
        s.step rules jobId a = some s' → s'.outbox.outboxDead.rows = [] := by
      intro s a s' hnone hok hs
      rw [Delivery.dead_of_belowLimit hok hs, hnone]
    have hdead : t.outbox.outboxDead.rows = [] := run_invariant hstep rfl hlimit hr
    refine ⟨hdead, fun p hp => ?_⟩
    rcases (Delivery.inv_run hm hr).safe p hp with hrow | ⟨d, hd, -⟩ | hthere
    · exact Or.inl hrow
    · rw [hdead] at hd
      cases hd
    · exact Or.inr hthere

/-! ### Eight requests -/

/-- A flush whose request does not get through. -/
def lostFlush (f : Nat) : List DeliveryAction :=
  [.flush, .lose f "All connection attempts failed", .failNext f]

theorem clerk_waits :
    ∃ t, run (Delivery.step cityLeadRules 1) { cloud := cityCloud }
        (.saveLead clerkLead :: (List.range 7).flatMap lostFlush) = some t ∧
      t.outbox.outbox.rows.map OutboxRow.attempts = [7] ∧ t.Kept cityLeadRules := by
  have hend : (run (Delivery.step cityLeadRules 1) { cloud := cityCloud }
      (.saveLead clerkLead :: (List.range 7).flatMap lostFlush)).map
      (fun t => t.outbox.outbox.rows.map OutboxRow.attempts) = some [7] := by
    decide +kernel
  obtain ⟨t, hr, hrows⟩ := Option.map_eq_some_iff.mp hend
  exact ⟨t, hr, hrows, (outage_survived cityLeadRules 1 cityCloud (by decide +kernel) hr).mpr
    (by decide +kernel)⟩

/-- The eighth request of the outage gives the lead up. -/
theorem clerk_given_up :
    ∃ t, Meets (Delivery.step cityLeadRules 1) Delivery.NothingRejected { cloud := cityCloud }
        (.saveLead clerkLead :: (List.range 8).flatMap lostFlush) ∧
      run (Delivery.step cityLeadRules 1) { cloud := cityCloud }
        (.saveLead clerkLead :: (List.range 8).flatMap lostFlush) = some t ∧
      t.outbox.outbox.rows = [] ∧ t.outbox.outboxDead.rows.map DeadRow.payload = [clerkLead] ∧
      ¬ t.Kept cityLeadRules := by
  have hend : (run (Delivery.step cityLeadRules 1) { cloud := cityCloud }
      (.saveLead clerkLead :: (List.range 8).flatMap lostFlush)).map
      (fun t => (t.outbox.outbox.rows, t.outbox.outboxDead.rows.map DeadRow.payload)) =
        some ([], [clerkLead]) := by
    decide +kernel
  obtain ⟨t, hr, heq⟩ := Option.map_eq_some_iff.mp hend
  obtain ⟨hrows, hdead⟩ := Prod.mk.inj heq
  refine ⟨t, by decide +kernel, hr, hrows, hdead, fun hkept => ?_⟩
  rw [hkept.dead] at hdead
  cases hdead

end GovCrawler
