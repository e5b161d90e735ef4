/-
The agent's outbox, `agent/local_store.py`: a table of leads that wait for the cloud, and
one of leads that were given up.

A lead leaves the first table in two ways.  `ack` deletes it, and `fail` moves it to the
second one when it has failed too often.  The columns that only say when a row was
written are left out.
-/
import GovCrawler.Leads.SaveLead

namespace GovCrawler

open Relational

structure OutboxRow where
  id : Nat
  jobId : Nat
  kind : String
  payload : LeadItem
  attempts : Nat := 0
  lastError : Option String := none
  deriving DecidableEq, Repr

structure DeadRow where
  id : Nat
  jobId : Nat
  kind : String
  payload : LeadItem
  lastError : Option String
  deriving DecidableEq, Repr

instance : Keyed OutboxRow := ⟨OutboxRow.id⟩
instance : Keyed DeadRow := ⟨DeadRow.id⟩

structure LocalOutbox where
  outbox : Table OutboxRow := Table.empty
  outboxDead : Table DeadRow := Table.empty

def maxAttempts : Nat := 8

def batchSize : Nat := 100

namespace LocalOutbox

variable (o : LocalOutbox)

def enqueue (jobId : Nat) (kind : String) (payload : LeadItem) : LocalOutbox :=
  { o with outbox := o.outbox.insertNew fun id => ⟨id, jobId, kind, payload, 0, none⟩ }

def pendingBatch (kind : String) (limit : Nat) : List OutboxRow :=
  (o.outbox.select fun r => r.kind == kind).take limit

def ack (ids : List Nat) : LocalOutbox :=
  if ids.isEmpty then o else { o with outbox := o.outbox.deleteWhere fun r => ids.contains r.id }

def fail (rowId jobId : Nat) (kind : String) (payload : LeadItem) (error : String) : LocalOutbox :=
  let attempts := ((o.outbox.get? rowId).map OutboxRow.attempts).getD 0 + 1
  if maxAttempts ≤ attempts then
    { outboxDead := o.outboxDead.insertNew fun id => ⟨id, jobId, kind, payload, some error⟩
      outbox := o.outbox.deleteWhere fun r => r.id == rowId }
  else
    { o with
      outbox := o.outbox.updateWhere (fun r => r.id == rowId)
        (fun r => { r with attempts := attempts, lastError := some error }) (by intro _; rfl) }

end LocalOutbox

/-! ### Where a lead is afterwards -/

variable {o : LocalOutbox} {k : Nat} {r : OutboxRow}

theorem get?_enqueue (o : LocalOutbox) (jobId : Nat) (kind : String) (payload : LeadItem) (k : Nat) :
    (o.enqueue jobId kind payload).outbox.get? k =
      if k = o.outbox.nextKey then some ⟨k, jobId, kind, payload, 0, none⟩ else o.outbox.get? k :=
  o.outbox.get?_insertNew _ _ k

/-- A batch is made of rows that are there. -/
theorem get?_of_pendingBatch {kind : String} {limit : Nat} (h : r ∈ o.pendingBatch kind limit) :
    o.outbox.get? r.id = some r :=
  Table.get?_of_mem (List.mem_of_mem_filter (List.mem_of_mem_take h))

/-- An acknowledgement deletes the rows it names, and no others. -/
theorem get?_ack (o : LocalOutbox) (ids : List Nat) (k : Nat) :
    (o.ack ids).outbox.get? k = if k ∈ ids then none else o.outbox.get? k := by
  unfold LocalOutbox.ack
  by_cases hids : ids = []
  · subst hids
    rfl
  · rw [if_neg (by simpa using hids), Table.get?_deleteWhere]
    cases hget : o.outbox.get? k with
    | none => simp
    | some r =>
        have hkey : r.id = k := Table.get?_key hget
        by_cases hk : k ∈ ids <;> simp [hkey, hk]

/-- A failure keeps the payload of a row in the table, or moves the failed row's own to the
dead ones. -/
theorem fail_cases (rowId jobId : Nat) (kind : String) (payload : LeadItem) (error : String)
    (h : o.outbox.get? k = some r) :
    (∃ r', (o.fail rowId jobId kind payload error).outbox.get? k = some r' ∧
        r'.payload = r.payload) ∨
      (k = rowId ∧
        ∃ d ∈ (o.fail rowId jobId kind payload error).outboxDead.rows, d.payload = payload) := by
  have hkey : r.id = k := Table.get?_key h
  unfold LocalOutbox.fail
  dsimp only
  split
  · by_cases hk : k = rowId
    · exact Or.inr ⟨hk, _, (Table.mem_insertNew _).mpr (Or.inr rfl), rfl⟩
    · refine Or.inl ⟨r, ?_, rfl⟩
      dsimp only
      rw [Table.get?_deleteWhere, h]
      simp [hkey, hk]
  · refine Or.inl ?_
    dsimp only
    rw [Table.get?_updateWhere, h, Option.map_some]
    refine ⟨_, rfl, ?_⟩
    split <;> rfl

/-- A failure brings no payload into the table. -/
theorem payload_of_fail {rowId jobId : Nat} {kind : String} {payload : LeadItem} {error : String}
    (h : (o.fail rowId jobId kind payload error).outbox.get? k = some r) :
    ∃ r', o.outbox.get? k = some r' ∧ r'.payload = r.payload := by
  unfold LocalOutbox.fail at h
  dsimp only at h
  split at h
  · dsimp only at h
    rw [Table.get?_deleteWhere] at h
    exact ⟨r, (Option.filter_eq_some_iff.mp h).1, rfl⟩
  · dsimp only at h
    rw [Table.get?_updateWhere] at h
    obtain ⟨r', hr', heq⟩ := Option.map_eq_some_iff.mp h
    refine ⟨r', hr', ?_⟩
    rw [← heq]
    split <;> rfl

section Attempts

variable {rowId : Nat} (jobId : Nat) (kind : String) (payload : LeadItem) (error : String)

/-- A failure of a row that has gone is nothing. -/
theorem fail_of_gone (h : o.outbox.get? rowId = none) :
    o.fail rowId jobId kind payload error = o := by
  have hnone : ∀ r ∈ o.outbox.rows, (r.id == rowId) = false := fun r hr =>
    beq_eq_false_iff_ne.mpr (Table.get?_eq_none_iff.mp h r hr)
  unfold LocalOutbox.fail
  rw [h]
  show { o with outbox := o.outbox.updateWhere _ _ _ } = o
  rw [Table.updateWhere_of_none _ _ _ _ hnone]

/-- A row that may fail again counts the attempt. -/
theorem fail_of_lt (h : o.outbox.get? rowId = some r) (hlt : r.attempts + 1 < maxAttempts) :
    (o.fail rowId jobId kind payload error).outboxDead = o.outboxDead ∧
      ∀ k, (o.fail rowId jobId kind payload error).outbox.get? k =
        if k = rowId then some { r with attempts := r.attempts + 1, lastError := some error }
        else o.outbox.get? k := by
  unfold LocalOutbox.fail
  rw [h]
  dsimp only [Option.map_some, Option.getD_some]
  rw [if_neg (Nat.not_le_of_lt hlt)]
  have hself := Table.get?_updateWhere_self o.outbox
    (fun r' => { r' with attempts := r.attempts + 1, lastError := some error })
    (by intro _; rfl) rowId
  have hother := fun k => @Table.get?_updateWhere_of_ne _ _ o.outbox
    (fun r' => { r' with attempts := r.attempts + 1, lastError := some error })
    (by intro _; rfl) rowId k
  refine ⟨rfl, fun k => ?_⟩
  by_cases hk : k = rowId
  · rw [if_pos hk, hk]
    exact hself.trans (by rw [h]; rfl)
  · rw [if_neg hk]
    exact hother k (Ne.symm hk)

/-- A row that has failed too often goes to the dead ones. -/
theorem fail_of_ge (h : o.outbox.get? rowId = some r) (hge : maxAttempts ≤ r.attempts + 1) :
    (o.fail rowId jobId kind payload error).outboxDead.rows = o.outboxDead.rows ++
        [⟨o.outboxDead.nextKey, jobId, kind, payload, some error⟩] ∧
      ∀ k, (o.fail rowId jobId kind payload error).outbox.get? k =
        if k = rowId then none else o.outbox.get? k := by
  unfold LocalOutbox.fail
  rw [h]
  dsimp only [Option.map_some, Option.getD_some]
  rw [if_pos hge]
  refine ⟨rfl, fun k => ?_⟩
  rw [Table.get?_deleteWhere]
  cases hget : o.outbox.get? k with
  | none => simp
  | some r' =>
      have hkey : r'.id = k := Table.get?_key hget
      by_cases hk : k = rowId <;> simp [hkey, hk]

end Attempts

/-- The dead stay. -/
theorem dead_fail {rowId jobId : Nat} {kind : String} {payload : LeadItem} {error : String}
    {d : DeadRow} (h : d ∈ o.outboxDead.rows) :
    d ∈ (o.fail rowId jobId kind payload error).outboxDead.rows := by
  unfold LocalOutbox.fail
  dsimp only
  split
  · exact (Table.mem_insertNew _).mpr (Or.inl h)
  · exact h

theorem nextKey_fail (o : LocalOutbox) (rowId jobId : Nat) (kind : String) (payload : LeadItem)
    (error : String) :
    (o.fail rowId jobId kind payload error).outbox.nextKey = o.outbox.nextKey := by
  unfold LocalOutbox.fail
  dsimp only
  split <;> rfl

theorem nextKey_ack (o : LocalOutbox) (ids : List Nat) :
    (o.ack ids).outbox.nextKey = o.outbox.nextKey := by
  unfold LocalOutbox.ack
  split <;> rfl

theorem dead_ack (o : LocalOutbox) (ids : List Nat) : (o.ack ids).outboxDead = o.outboxDead := by
  unfold LocalOutbox.ack
  split <;> rfl

end GovCrawler
