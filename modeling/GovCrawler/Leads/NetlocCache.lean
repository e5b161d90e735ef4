/-
The map that `_get_netloc_domain_map` keeps, next to the writes of the catalog.

A reader takes the lock to build the map, and a mutator empties the cache without it.  So an
invalidation can come between the query and the store, and the old map stays for good, or
between the store and the `return`, which reads the cache again and has `None`; and a reader that
comes between a commit and its invalidation has a map from before it was called.

`netloc_cache` says that there is no other way.  A map that lacks a write is only in the cache
while the mutator that made it has still to invalidate, and that is what the invariant says of
the rows on their way to the store as well.
-/
import GovCrawler.Lib.Transition
import GovCrawler.Leads.Attribution

namespace GovCrawler

open Relational ThreadPool Transition

/-! ### Calls of one process -/

/-- `clear_domains`: a catalog is replaced by none. -/
def CatalogWrite.clearDomains : CatalogWrite := .replaceCatalog []

/-- The process, and what map the table gave after so many writes, which nothing reads. -/
structure CacheState where
  portal : Portal
  mapAt : Nat → List (String × CatalogDomain)

namespace CacheState

variable (s : CacheState)

/-- `_netloc_map_cache`. -/
def cache : Option NetlocMap := (s.portal.objects 0).netlocMapCache

/-- `_netloc_map_lock` is held. -/
def locked : Bool := (s.portal.objects 0).locked

/-- How many writes of the catalog there have been. -/
def writes : Nat := s.portal.db.writes

end CacheState

inductive CacheCall
  /-- `_get_netloc_domain_map`, with how many writes there had been when it was called. -/
  | map (began : Nat) (pc : MapPc)
  /-- What it has returned, and how many writes there had been then. -/
  | returned (began ended : Nat) (found : Option NetlocMap)
  /-- A mutator, which is to commit. -/
  | mutate (write : CatalogWrite)
  /-- It has made write `number`, and is to invalidate. -/
  | committed (number : Nat)
  | finished

namespace CacheCall

variable (rules : LeadRules)

def next (s : CacheState) : CacheCall → Option (CacheState × CacheCall)
  | .map began pc =>
      (s.portal.netlocMapStep rules 0 pc).map fun r => ({ s with portal := r.1 }, match r.2 with
        | .goto pc => .map began pc
        | .returns found => .returned began s.writes found
        | .raises => .finished)
  | .mutate write =>
      let r := s.portal.writeStep 0 (.commit write)
      match r.2 with
      | .goto _ =>
          some
            ({ portal := r.1
               mapAt := Function.update s.mapAt r.1.db.writes
                 (buildNetlocDomainMap rules r.1.db.domains.rows) },
              .committed r.1.db.writes)
      | _ => some ({ s with portal := r.1 }, .finished)
  | .committed _ => some ({ s with portal := (s.portal.writeStep 0 .invalidate).1 }, .finished)
  | .returned _ _ _ | .finished => none

/-- The query or the transaction raises; the `with` gives the lock back. -/
def abort (s : CacheState) : CacheCall → Option (CacheState × CacheCall)
  | .map _ .query =>
      some ({ s with portal := s.portal.setObject 0 fun o => { o with locked := false } }, .finished)
  | .mutate _ => some (s, .finished)
  | _ => none

/-- It is inside the `with self._netloc_map_lock`. -/
def HoldsLock : CacheCall → Prop
  | .map _ pc => pc.holdsLock = true
  | _ => False

/-- It has committed, and has still to invalidate. -/
def invalidates : CacheCall → Bool
  | .committed _ => true
  | _ => false

end CacheCall

inductive CacheAction
  /-- `_get_netloc_domain_map` is called. -/
  | call
  | mutate (write : CatalogWrite)
  | advance (i : Nat)
  | abort (i : Nat)

abbrev CacheRun : Type := Pool CacheState CacheCall

namespace CacheRun

def step (rules : LeadRules) (s : CacheRun) : CacheAction → Option CacheRun
  | .call => some (s.spawn (.map s.shared.writes .look))
  | .mutate write => some (s.spawn (.mutate write))
  | .advance i => s.advance (CacheCall.next rules) i
  | .abort i => s.advance CacheCall.abort i

/-- A process begins, on any catalog. -/
def init (rules : LeadRules) (db : CatalogDb) : CacheRun where
  shared := ⟨⟨db, fun _ => {}⟩, fun _ => buildNetlocDomainMap rules db.domains.rows⟩
  threads := []

/-! ### What is promised -/

/-- Where no mutator is between its commit and its invalidation, the map in the cache is the one
the table gives. -/
def FreshAtRest (rules : LeadRules) (s : CacheRun) : Prop :=
  (∀ c ∈ s.threads, c.invalidates = false) → ∀ m ∈ s.shared.cache,
    m.entries = buildNetlocDomainMap rules s.shared.portal.db.domains.rows

/-- What a call has returned is a map, which the table gave at some moment of the call. -/
def Current (mapAt : Nat → List (String × CatalogDomain)) : CacheCall → Prop
  | .returned began ended found => ∃ m ∈ found, ∃ k ≤ ended, began ≤ k ∧ mapAt k = m.entries
  | _ => True

def ReturnsCurrent (s : CacheRun) : Prop := ∀ c ∈ s.threads, Current s.shared.mapAt c

/-- An invalidation of write `number` does not get in the way of the call. -/
def Undisturbed (number : Nat) : CacheCall → Prop
  | .map _ (.store m) => number ≤ m.asOf
  | .map _ .take | .map _ .takeLocked => False
  | _ => True

/-- A mutator invalidates where no call has rows to store that it queried before that write, and
no call has found or stored the map and has yet to read it; and a call finds no map that lacks a
write from before the call. -/
def MayGoOn (s : CacheRun) : CacheCall → Prop
  | .committed number => ∀ c ∈ s.threads, Undisturbed number c
  | .map began .look | .map began .check => ∀ m ∈ s.shared.cache, began ≤ m.asOf
  | _ => True

def InTime (s : CacheRun) : CacheAction → Prop
  | .advance i => ∀ c ∈ s.threads[i]?, MayGoOn s c
  | _ => True

instance : ∀ number c, Decidable (Undisturbed number c)
  | number, .map _ (.store m) => inferInstanceAs (Decidable (number ≤ m.asOf))
  | _, .map _ .take | _, .map _ .takeLocked => .isFalse id
  | _, .map _ .look | _, .map _ .lock | _, .map _ .check | _, .map _ .query
  | _, .returned _ _ _ | _, .mutate _ | _, .committed _ | _, .finished => .isTrue trivial

instance : ∀ s c, Decidable (MayGoOn s c)
  | s, .committed number => inferInstanceAs (Decidable (∀ c ∈ s.threads, Undisturbed number c))
  | s, .map began .look | s, .map began .check =>
      inferInstanceAs (Decidable (∀ m ∈ s.shared.cache, began ≤ m.asOf))
  | _, .map _ .take | _, .map _ .lock | _, .map _ .query | _, .map _ (.store _)
  | _, .map _ .takeLocked | _, .returned _ _ _ | _, .mutate _ | _, .finished => .isTrue trivial

instance : ∀ s a, Decidable (InTime s a)
  | s, .advance i => inferInstanceAs (Decidable (∀ c ∈ s.threads[i]?, MayGoOn s c))
  | _, .call | _, .mutate _ | _, .abort _ => .isTrue trivial

instance : ∀ mapAt c, Decidable (Current mapAt c)
  | mapAt, .returned began ended found =>
      inferInstanceAs (Decidable
        (∃ m ∈ found, ∃ k ≤ ended, began ≤ k ∧ mapAt k = m.entries))
  | _, .map _ _ | _, .mutate _ | _, .committed _ | _, .finished => .isTrue trivial

instance (rules : LeadRules) (s : CacheRun) : Decidable (s.FreshAtRest rules) :=
  inferInstanceAs (Decidable (_ → _))

instance (s : CacheRun) : Decidable s.ReturnsCurrent :=
  inferInstanceAs (Decidable (∀ c ∈ s.threads, Current s.shared.mapAt c))

end CacheRun

/-! ### The invariant -/

/-- The map is that of some moment, and of every write since the mutator has still to
invalidate. -/
structure Made (s : CacheState) (pending : Nat → Prop) (m : NetlocMap) : Prop where
  past : m.asOf ≤ s.writes
  entries : s.mapAt m.asOf = m.entries
  later : ∀ n, m.asOf < n → n ≤ s.writes → pending n

/-- What a call knows at the point where it is. -/
def MapPc.Knows (s : CacheState) (pending : Nat → Prop) (began : Nat) : MapPc → Prop
  | .look | .lock | .check => True
  | .query => s.cache = none
  | .store m => s.cache = none ∧ began ≤ m.asOf ∧ Made s pending m
  | .take | .takeLocked => ∃ m, s.cache = some m ∧ began ≤ m.asOf

/-- The invariant of one call. -/
def CacheCall.Ok (s : CacheState) (pending : Nat → Prop) : CacheCall → Prop
  | .map began pc => began ≤ s.writes ∧ pc.Knows s pending began
  | .returned began ended found =>
      ended ≤ s.writes ∧ ∃ m ∈ found, ∃ k ≤ ended, began ≤ k ∧ s.mapAt k = m.entries
  | .committed n => n ≤ s.writes
  | .mutate _ | .finished => True

/-- Write `n` has a mutator that has still to invalidate. -/
def Pending (threads : List CacheCall) (n : Nat) : Prop := .committed n ∈ threads

structure CacheRun.Cached (rules : LeadRules) (s : CacheRun) : Prop where
  table : s.shared.mapAt s.shared.writes =
    buildNetlocDomainMap rules s.shared.portal.db.domains.rows
  cache : ∀ m, s.shared.cache = some m → Made s.shared (Pending s.threads) m
  exclusive : Exclusive CacheCall.HoldsLock s.threads
  locked : ∀ c ∈ s.threads, c.HoldsLock → s.shared.locked = true
  calls : ∀ c ∈ s.threads, c.Ok s.shared (Pending s.threads)

variable {rules : LeadRules} {s s' : CacheState} {pending pending' : Nat → Prop}

/-- The cache stays as it is, and what writes there are more have still to be invalidated. -/
structure Continues (s : CacheState) (pending : Nat → Prop) (s' : CacheState)
    (pending' : Nat → Prop) : Prop where
  writes : s.writes ≤ s'.writes
  mapAt : ∀ k, k ≤ s.writes → s'.mapAt k = s.mapAt k
  cache : s'.cache = s.cache
  kept : ∀ n, pending n → pending' n
  added : ∀ n, s.writes < n → n ≤ s'.writes → pending' n

theorem Made.continues {m : NetlocMap} (h : Made s pending m)
    (hc : Continues s pending s' pending') : Made s' pending' m := by
  refine ⟨Nat.le_trans h.past hc.writes, (hc.mapAt _ h.past).trans h.entries, fun n hlt hle => ?_⟩
  by_cases hold : n ≤ s.writes
  · exact hc.kept n (h.later n hlt hold)
  · exact hc.added n (Nat.lt_of_not_le hold) hle

/-- A call knows what it knew. -/
theorem CacheCall.Ok.continues {c : CacheCall} (h : c.Ok s pending)
    (hc : Continues s pending s' pending') : c.Ok s' pending' := by
  cases c with
  | map began pc =>
      refine ⟨Nat.le_trans h.1 hc.writes, ?_⟩
      have hknows := h.2
      cases pc with
      | look => trivial
      | lock => trivial
      | check => trivial
      | query => exact hc.cache.trans hknows
      | store m => exact ⟨hc.cache.trans hknows.1, hknows.2.1, hknows.2.2.continues hc⟩
      | take => exact hknows.imp fun m hm => ⟨hc.cache.trans hm.1, hm.2⟩
      | takeLocked => exact hknows.imp fun m hm => ⟨hc.cache.trans hm.1, hm.2⟩
  | returned began ended found =>
      obtain ⟨hended, m, hfound, k, hk, hbegan, hmap⟩ := h
      have hpast := Nat.le_trans hk hended
      exact ⟨Nat.le_trans hended hc.writes, m, hfound, k, hk, hbegan,
        (hc.mapAt k hpast).trans hmap⟩
  | committed n => exact Nat.le_trans h hc.writes
  | mutate write => trivial
  | finished => trivial

namespace CacheRun

variable {r : CacheRun} {i : Nat} {c c' : CacheCall}

/-- A pending write stays pending when another call goes on. -/
theorem pending_set {n : Nat} (hget : r.threads[i]? = some c) (hne : c ≠ .committed n)
    (h : Pending r.threads n) : Pending (r.threads.set i c') n := by
  obtain ⟨j, hj⟩ := List.mem_iff_getElem?.mp h
  refine List.mem_iff_getElem?.mpr ⟨j, ?_⟩
  have hij : i ≠ j := by
    rintro rfl
    exact hne (Option.some.inj (hget.symm.trans hj))
  rw [List.getElem?_set_ne hij]
  exact hj

/-- A step of one call, with which all the others continue. -/
theorem Cached.moves (h : r.Cached rules) {shared : CacheState}
    (hcontinues : Continues r.shared (Pending r.threads) shared (Pending (r.threads.set i c')))
    (htable : shared.mapAt shared.writes =
      buildNetlocDomainMap rules shared.portal.db.domains.rows)
    (hok : c'.Ok shared (Pending (r.threads.set i c')))
    (hexclusive : Exclusive CacheCall.HoldsLock (r.threads.set i c'))
    (hlocked : ∀ c ∈ r.threads.set i c', c.HoldsLock → shared.locked = true) :
    CacheRun.Cached rules ⟨shared, r.threads.set i c'⟩ := by
  refine ⟨htable, fun m hm => ?_, hexclusive, hlocked, ?_⟩
  · exact (h.cache m (hcontinues.cache.symm.trans hm)).continues hcontinues
  · exact forall_mem_set (fun d hd => (h.calls d hd).continues hcontinues) i hok

/-- A step that leaves the table and the cache alone, and does not invalidate. -/
theorem Cached.quiet (h : r.Cached rules) (hget : r.threads[i]? = some c) {shared : CacheState}
    (hdb : shared.portal.db = r.shared.portal.db) (hmap : shared.mapAt = r.shared.mapAt)
    (hcache : shared.cache = r.shared.cache) (hc : ∀ n, c ≠ .committed n)
    (hok : c'.Ok r.shared (Pending r.threads))
    (hexclusive : Exclusive CacheCall.HoldsLock (r.threads.set i c'))
    (hlocked : ∀ c ∈ r.threads.set i c', c.HoldsLock → shared.locked = true) :
    CacheRun.Cached rules ⟨shared, r.threads.set i c'⟩ := by
  have hwrites : shared.writes = r.shared.writes := congrArg CatalogDb.writes hdb
  have hcontinues :
      Continues r.shared (Pending r.threads) shared (Pending (r.threads.set i c')) :=
    { writes := Nat.le_of_eq hwrites.symm
      mapAt := fun k _ => congrFun hmap k
      cache := hcache
      kept := fun n hn => pending_set hget (hc n) hn
      added := fun n hlt hle => absurd hlt (Nat.not_lt.mpr (hwrites ▸ hle)) }
  refine h.moves hcontinues ?_ (hok.continues hcontinues) hexclusive hlocked
  rw [hwrites, hmap, hdb]
  exact h.table

/-- Nobody holds the lock that can be taken. -/
theorem Cached.not_holds (h : r.Cached rules) (hfree : r.shared.locked = false) :
    ∀ c ∈ r.threads, ¬ c.HoldsLock := by
  intro c hc hholds
  rw [h.locked c hc hholds] at hfree
  cases hfree

/-- Another call does not hold the lock that one holds. -/
theorem Cached.not_holds_of_ne (h : r.Cached rules) (hget : r.threads[i]? = some c)
    (hholds : c.HoldsLock) {j : Nat} {d : CacheCall} (hd : r.threads[j]? = some d) (hne : j ≠ i) :
    ¬ d.HoldsLock := fun hholds' => hne (h.exclusive j i d c hd hget hholds' hholds)

/-- The holder goes on, or somebody who does not hold the lock. -/
theorem Cached.holds_set (h : r.Cached rules) (hget : r.threads[i]? = some c)
    (himp : c'.HoldsLock → c.HoldsLock) :
    ∀ d ∈ r.threads.set i c', d.HoldsLock → r.shared.locked = true :=
  forall_mem_set h.locked i fun hholds => h.locked c (List.mem_of_getElem? hget) (himp hholds)

/-- The lock is released. -/
theorem Cached.not_holds_set (h : r.Cached rules) (hget : r.threads[i]? = some c)
    (hholds : c.HoldsLock) (hc' : ¬ c'.HoldsLock) : ∀ d ∈ r.threads.set i c', ¬ d.HoldsLock := by
  intro d hd hdholds
  obtain ⟨j, hj⟩ := List.mem_iff_getElem?.mp hd
  rcases getElem?_set_cases hj with ⟨-, rfl⟩ | ⟨hne, hold⟩
  · exact hc' hdholds
  · exact h.not_holds_of_ne hget hholds hold hne hdholds

theorem setObject_cache (s : CacheState) (f : DatabaseObject → DatabaseObject) :
    CacheState.cache { s with portal := s.portal.setObject 0 f } =
      (f (s.portal.objects 0)).netlocMapCache := by
  show ((s.portal.setObject 0 f).objects 0).netlocMapCache = _
  rw [setObject_objects, if_pos rfl]

theorem setObject_locked (s : CacheState) (f : DatabaseObject → DatabaseObject) :
    CacheState.locked { s with portal := s.portal.setObject 0 f } =
      (f (s.portal.objects 0)).locked := by
  show ((s.portal.setObject 0 f).objects 0).locked = _
  rw [setObject_objects, if_pos rfl]

/-- What is in the cache can be returned, if it is not older than the call. -/
theorem Cached.ok_returned (h : r.Cached rules) {began : Nat} {m : NetlocMap}
    (hcache : r.shared.cache = some m) (hbegan : began ≤ m.asOf) :
    CacheCall.Ok r.shared (Pending r.threads)
      (.returned began r.shared.writes r.shared.cache) := by
  have hmade := h.cache m hcache
  exact ⟨Nat.le_refl _, m, hcache, m.asOf, hmade.past, hbegan, hmade.entries⟩

/-- The map is stored: nobody has found one to read, and nobody else has one to store. -/
theorem Cached.store (h : r.Cached rules) {began : Nat} {m : NetlocMap}
    (hget : r.threads[i]? = some (.map began (.store m))) :
    CacheRun.Cached rules
      ⟨{ r.shared with
          portal := r.shared.portal.setObject 0 fun o => { o with netlocMapCache := some m } },
        r.threads.set i (.map began .takeLocked)⟩ := by
  obtain ⟨hbegan, hnone, hasOf, hmade⟩ := h.calls _ (List.mem_of_getElem? hget)
  have hholds : CacheCall.HoldsLock (.map began (.store m)) := rfl
  have hpending : ∀ n, Pending r.threads n →
      Pending (r.threads.set i (.map began .takeLocked)) n :=
    fun n hn => pending_set hget nofun hn
  have hcache := setObject_cache r.shared fun o => { o with netlocMapCache := some m }
  refine ⟨h.table, fun m' hm' => ?_, h.exclusive.set hget fun _ => hholds, ?_, fun d hd => ?_⟩
  · obtain rfl := Option.some.inj (hcache.symm.trans hm')
    exact ⟨hmade.past, hmade.entries, fun n hlt hle => hpending n (hmade.later n hlt hle)⟩
  · intro d hd hdholds
    exact (setObject_locked r.shared _).trans (h.holds_set hget (fun _ => hholds) d hd hdholds)
  · obtain ⟨j, hj⟩ := List.mem_iff_getElem?.mp hd
    rcases getElem?_set_cases hj with ⟨-, rfl⟩ | ⟨hne, hold⟩
    · exact ⟨hbegan, m, hcache, hasOf⟩
    · have hfree := h.not_holds_of_ne hget hholds hold hne
      have hok := h.calls d (List.mem_of_getElem? hold)
      cases d with
      | map began' pc =>
          refine ⟨hok.1, ?_⟩
          have hknows := hok.2
          cases pc with
          | look => trivial
          | lock => trivial
          | take =>
              obtain ⟨m', hm', -⟩ := hknows
              rw [hnone] at hm'
              cases hm'
          | check => exact absurd rfl hfree
          | query => exact absurd rfl hfree
          | store m' => exact absurd rfl hfree
          | takeLocked => exact absurd rfl hfree
      | returned began' ended found => exact hok
      | committed n => exact hok
      | mutate write => trivial
      | finished => trivial

/-- **A reader goes on.** -/
theorem Cached.reads (h : r.Cached rules) {began : Nat} {pc : MapPc}
    (hget : r.threads[i]? = some (.map began pc)) (htime : r.MayGoOn (.map began pc))
    {shared : CacheState}
    (hnext : (CacheCall.map began pc).next rules r.shared = some (shared, c')) :
    CacheRun.Cached rules ⟨shared, r.threads.set i c'⟩ := by
  obtain ⟨⟨portal, turn⟩, hstep, heq⟩ := Option.map_eq_some_iff.mp hnext
  obtain ⟨rfl, rfl⟩ := Prod.mk.inj heq
  have hok := h.calls _ (List.mem_of_getElem? hget)
  cases pc with
  | look =>
      cases hstep
      cases hcache : (r.shared.portal.objects 0).netlocMapCache with
      | none =>
          exact h.quiet hget rfl rfl rfl nofun ⟨hok.1, trivial⟩ (h.exclusive.set hget nofun)
            (h.holds_set hget nofun)
      | some m =>
          exact h.quiet hget rfl rfl rfl nofun ⟨hok.1, m, hcache, htime m hcache⟩
            (h.exclusive.set hget nofun) (h.holds_set hget nofun)
  | take =>
      cases hstep
      obtain ⟨-, m, hcache, hbegan⟩ := hok
      exact h.quiet hget rfl rfl rfl nofun (h.ok_returned hcache hbegan)
        (h.exclusive.set hget nofun) (h.holds_set hget nofun)
  | lock =>
      dsimp only [Portal.netlocMapStep] at hstep
      split at hstep
      · cases hstep
      · rename_i hfree
        cases hstep
        have hunlocked : r.shared.locked = false := Bool.not_eq_true _ ▸ hfree
        have hcache := setObject_cache r.shared fun o => { o with locked := true }
        have hlocked := setObject_locked r.shared fun o => { o with locked := true }
        exact h.quiet hget rfl rfl hcache nofun ⟨hok.1, trivial⟩
          (exclusive_set (h.not_holds hunlocked) i _) fun _ _ _ => hlocked
  | check =>
      cases hstep
      cases hcache : (r.shared.portal.objects 0).netlocMapCache with
      | none =>
          exact h.quiet hget rfl rfl rfl nofun ⟨hok.1, hcache⟩
            (h.exclusive.set hget fun _ => rfl) (h.holds_set hget fun _ => rfl)
      | some m =>
          exact h.quiet hget rfl rfl rfl nofun ⟨hok.1, m, hcache, htime m hcache⟩
            (h.exclusive.set hget fun _ => rfl) (h.holds_set hget fun _ => rfl)
  | query =>
      cases hstep
      refine h.quiet hget rfl rfl rfl nofun ⟨hok.1, hok.2, hok.1, Nat.le_refl _, h.table, ?_⟩
        (h.exclusive.set hget fun _ => rfl) (h.holds_set hget fun _ => rfl)
      exact fun n hlt hle => absurd hlt (Nat.not_lt.mpr hle)
  | store m =>
      cases hstep
      exact h.store hget
  | takeLocked =>
      cases hstep
      obtain ⟨-, m, hcache, hbegan⟩ := hok
      have hkept := setObject_cache r.shared fun o => { o with locked := false }
      have hnotReturned : ¬ CacheCall.HoldsLock
          (.returned began r.shared.writes r.shared.cache) := nofun
      exact h.quiet hget rfl rfl hkept nofun (h.ok_returned hcache hbegan)
        (h.exclusive.set hget fun hholds => absurd hholds hnotReturned)
        fun d hd hholds => absurd hholds (h.not_holds_set hget rfl hnotReturned d hd)

/-- **A write is committed**: what was as of the write before lacks it, and its mutator has still
to invalidate. -/
theorem Cached.commits (h : r.Cached rules) {write : CatalogWrite}
    (hget : r.threads[i]? = some (.mutate write)) {shared : CacheState}
    (hnext : (CacheCall.mutate write).next rules r.shared = some (shared, c')) :
    CacheRun.Cached rules ⟨shared, r.threads.set i c'⟩ := by
  cases hcommit : r.shared.portal.db.commit write with
  | none =>
      simp only [CacheCall.next, Portal.writeStep, hcommit] at hnext
      cases hnext
      exact h.quiet hget rfl rfl rfl nofun trivial (h.exclusive.set hget nofun)
        (h.holds_set hget nofun)
  | some db =>
      simp only [CacheCall.next, Portal.writeStep, hcommit] at hnext
      cases hnext
      obtain ⟨domains, jobDomains, hdb⟩ := commit_eq hcommit
      have hwrites : db.writes = r.shared.writes + 1 := congrArg CatalogDb.writes hdb
      have hthere : Pending (r.threads.set i (.committed db.writes)) db.writes := by
        have hlt := (List.getElem?_eq_some_iff.mp hget).1
        exact List.mem_iff_getElem?.mpr ⟨i, List.getElem?_set_self hlt⟩
      have hpending : ∀ n, Pending r.threads n →
          Pending (r.threads.set i (.committed db.writes)) n :=
        fun n hn => pending_set hget nofun hn
      have hkept : ∀ g k, k ≤ r.shared.writes →
          Function.update r.shared.mapAt db.writes g k = r.shared.mapAt k :=
        fun g k hk => Function.update_of_ne (by omega) _ _
      refine h.moves ⟨?_, hkept _, rfl, hpending, fun n hlt hle => ?_⟩ (Function.update_self _ _ _)
        (Nat.le_refl _) (h.exclusive.set hget nofun) (h.holds_set hget nofun)
      · show r.shared.writes ≤ db.writes
        omega
      · have hle : n ≤ db.writes := hle
        obtain rfl : n = db.writes := by omega
        exact hthere

/-- Where nobody has found or stored the map, or has old rows to store, the cache is emptied. -/
theorem Cached.invalidates (h : r.Cached rules) {number : Nat}
    (hget : r.threads[i]? = some (.committed number))
    (htime : ∀ c ∈ r.threads, Undisturbed number c) :
    CacheRun.Cached rules
      ⟨{ r.shared with
          portal := r.shared.portal.setObject 0 fun o => { o with netlocMapCache := none } },
        r.threads.set i .finished⟩ := by
  have hpending : ∀ n, n ≠ number → Pending r.threads n → Pending (r.threads.set i .finished) n :=
    fun n hne hn => pending_set hget (fun heq => hne (CacheCall.committed.inj heq).symm) hn
  have hcache := setObject_cache r.shared fun o => { o with netlocMapCache := none }
  have hlocked := setObject_locked r.shared fun o => { o with netlocMapCache := none }
  have hfinished : ¬ CacheCall.finished.HoldsLock := id
  have hexclusive : Exclusive CacheCall.HoldsLock (r.threads.set i .finished) :=
    h.exclusive.set hget fun hholds => absurd hholds hfinished
  refine ⟨h.table, fun m hm => ?_, hexclusive, fun d hd hholds => ?_,
    forall_mem_set (fun d hd => ?_) i trivial⟩
  · rw [hcache] at hm
    cases hm
  · exact hlocked.trans (h.holds_set hget (fun hholds => absurd hholds hfinished) d hd hholds)
  · have hok := h.calls d hd
    have hd := htime d hd
    cases d with
    | map began pc =>
        refine ⟨hok.1, ?_⟩
        have hknows := hok.2
        cases pc with
        | look => trivial
        | lock => trivial
        | check => trivial
        | query => exact hcache
        | store m =>
            obtain ⟨-, hbegan, hmade⟩ := hknows
            refine ⟨hcache, hbegan, hmade.past, hmade.entries, fun n hlt hle => ?_⟩
            exact hpending n (Nat.ne_of_gt (Nat.lt_of_le_of_lt hd hlt)) (hmade.later n hlt hle)
        | take => exact hd.elim
        | takeLocked => exact hd.elim
    | returned began ended found => exact hok
    | committed n => exact hok
    | mutate write => trivial
    | finished => trivial

/-- A call that begins. -/
theorem Cached.begins (h : r.Cached rules) (hholds : ¬ c.HoldsLock)
    (hok : c.Ok r.shared (Pending r.threads)) : CacheRun.Cached rules (r.spawn c) := by
  have hcontinues : Continues r.shared (Pending r.threads) r.shared
      (Pending (r.threads ++ [c])) :=
    { writes := Nat.le_refl _
      mapAt := fun _ _ => rfl
      cache := rfl
      kept := fun n hn => List.mem_append_left _ hn
      added := fun n hlt hle => absurd hlt (Nat.not_lt.mpr hle) }
  refine ⟨h.table, fun m hm => (h.cache m hm).continues hcontinues, h.exclusive.append hholds,
    fun d hd hdholds => ?_, fun d hd => ?_⟩
  · rcases List.mem_append.mp hd with hold | hnew
    · exact h.locked d hold hdholds
    · obtain rfl := List.mem_singleton.mp hnew
      exact absurd hdholds hholds
  · rcases List.mem_append.mp hd with hold | hnew
    · exact (h.calls d hold).continues hcontinues
    · obtain rfl := List.mem_singleton.mp hnew
      exact hok.continues hcontinues

/-- A call that raises. -/
theorem Cached.aborts (h : r.Cached rules) (hget : r.threads[i]? = some c) {shared : CacheState}
    (habort : CacheCall.abort r.shared c = some (shared, c')) :
    CacheRun.Cached rules ⟨shared, r.threads.set i c'⟩ := by
  unfold CacheCall.abort at habort
  split at habort
  · cases habort
    have hkept := setObject_cache r.shared fun o => { o with locked := false }
    have hfinished : ¬ CacheCall.finished.HoldsLock := nofun
    exact h.quiet hget rfl rfl hkept nofun trivial
      (h.exclusive.set hget fun hholds => absurd hholds hfinished)
      fun d hd hholds => absurd hholds (h.not_holds_set hget rfl hfinished d hd)
  · cases habort
    exact h.quiet hget rfl rfl rfl nofun trivial (h.exclusive.set hget nofun)
      (h.holds_set hget nofun)
  · cases habort

/-- The step lemma. -/
theorem Cached.step {r' : CacheRun} {a : CacheAction} (h : r.Cached rules) (htime : r.InTime a)
    (hstep : r.step rules a = some r') : r'.Cached rules := by
  cases a with
  | call =>
      cases hstep
      have hlook : ¬ (CacheCall.map r.shared.writes .look).HoldsLock := nofun
      exact h.begins hlook ⟨Nat.le_refl _, trivial⟩
  | mutate write =>
      cases hstep
      have hmutate : ¬ (CacheCall.mutate write).HoldsLock := nofun
      exact h.begins hmutate trivial
  | advance i =>
      obtain ⟨c, shared, c', hget, hnext, rfl⟩ := Pool.advance_eq_some.mp hstep
      cases c with
      | map began pc => exact h.reads hget (htime _ hget) hnext
      | mutate write => exact h.commits hget hnext
      | committed number =>
          cases hnext
          exact h.invalidates hget (htime _ hget)
      | returned began ended found => cases hnext
      | finished => cases hnext
  | abort i =>
      obtain ⟨c, shared, c', hget, habort, rfl⟩ := Pool.advance_eq_some.mp hstep
      exact h.aborts hget habort

theorem cached_init (rules : LeadRules) (db : CatalogDb) : (init rules db).Cached rules :=
  { table := rfl
    cache := fun _ hm => by cases hm
    exclusive := fun _ _ _ _ ht => by cases ht
    locked := fun _ hc => by cases hc
    calls := fun _ hc => by cases hc }

theorem Cached.freshAtRest (h : r.Cached rules) : r.FreshAtRest rules := by
  intro hrest m hm
  have hmade := h.cache m hm
  have hlast : m.asOf = r.shared.writes := by
    by_contra hne
    have hlt : m.asOf < r.shared.writes := Nat.lt_of_le_of_ne hmade.past hne
    cases hrest _ (hmade.later _ hlt (Nat.le_refl _))
  rw [← hmade.entries, hlast]
  exact h.table

theorem Cached.returnsCurrent (h : r.Cached rules) : r.ReturnsCurrent := by
  intro c hc
  have hok := h.calls c hc
  cases c with
  | returned began ended found => exact hok.2
  | map began pc => trivial
  | mutate write => trivial
  | committed n => trivial
  | finished => trivial

end CacheRun

/--
**The cache is current at rest, and every call returns a map of its time**, in every run of calls
and writes in which a write is invalidated in time.
-/
theorem netloc_cache (rules : LeadRules) (db : CatalogDb) (as : List CacheAction) (s : CacheRun)
    (htime : Meets (CacheRun.step rules) CacheRun.InTime (CacheRun.init rules db) as)
    (hrun : run (CacheRun.step rules) (CacheRun.init rules db) as = some s) :
    s.FreshAtRest rules ∧ s.ReturnsCurrent := by
  have hcached : s.Cached rules :=
    run_invariant (fun _ _ _ h ha hs => h.step ha hs) (CacheRun.cached_init rules db) htime hrun
  exact ⟨hcached.freshAtRest, hcached.returnsCurrent⟩

/-! A map is built of an empty catalog, and a domain is entered meanwhile. -/

def thaneEntered : CacheAction := .mutate (.upsertDomain insertionOrder thaneFields)

/-- The map is built again after the write. -/
def rebuilt : List CacheAction :=
  [.call, thaneEntered] ++ List.replicate 6 (.advance 0) ++ List.replicate 2 (.advance 1) ++
    .call :: List.replicate 6 (.advance 2)

theorem netloc_cache_rebuilt :
    ∃ s, run (CacheRun.step thaneRules) (CacheRun.init thaneRules {}) rebuilt = some s ∧
      s.FreshAtRest thaneRules ∧ s.ReturnsCurrent := by
  obtain ⟨s, hs⟩ := Option.isSome_iff_exists.mp
    (show (run (CacheRun.step thaneRules) (CacheRun.init thaneRules {}) rebuilt).isSome = true by
      decide +kernel)
  exact ⟨s, hs, netloc_cache thaneRules {} rebuilt s (by decide +kernel) hs⟩

/-- A write between the query and the store. -/
def enteredBeforeStore : List CacheAction :=
  [.call, thaneEntered] ++ List.replicate 4 (.advance 0) ++ List.replicate 2 (.advance 1) ++
    List.replicate 2 (.advance 0)

/-- A write between the store and the last read. -/
def enteredBeforeRead : List CacheAction :=
  [.call, thaneEntered] ++ List.replicate 5 (.advance 0) ++ List.replicate 2 (.advance 1) ++
    [.advance 0]

/-- A call between the commit and the invalidation. -/
def calledBeforeInvalidation : List CacheAction :=
  [.call, thaneEntered] ++ List.replicate 6 (.advance 0) ++ [.advance 1, .call] ++
    List.replicate 2 (.advance 2)

/-- The empty map stays in the cache; `None` is returned; the empty map is returned, with the
domain in the table all along. -/
theorem write_unnoticed :
    (∃ s ∈ run (CacheRun.step thaneRules) (CacheRun.init thaneRules {}) enteredBeforeStore,
        ¬ s.FreshAtRest thaneRules) ∧
      (∃ s ∈ run (CacheRun.step thaneRules) (CacheRun.init thaneRules {}) enteredBeforeRead,
        ¬ s.ReturnsCurrent) ∧
      ∃ s ∈ run (CacheRun.step thaneRules) (CacheRun.init thaneRules {}) calledBeforeInvalidation,
        ¬ s.ReturnsCurrent := by
  decide +kernel

end GovCrawler
