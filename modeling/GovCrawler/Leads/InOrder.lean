/-
Attribution where calls come one after the other.

In one process, with every call over before the next begins, a lead is always attributed with a
map that is as of the last write: the write has emptied the cache before anything looks at it.
So it takes two calls at a time, or two processes, for a lead to be attributed with an old one.
-/
import GovCrawler.Leads.Attribution

namespace GovCrawler

open Relational ThreadPool Transition

/-! ### How old the maps are that a call has -/

def MapPc.AllAsOf (n : Nat) : MapPc → Prop
  | .store map => map.asOf = n
  | _ => True

def SavePc.AllAsOf (n : Nat) : SavePc → Prop
  | .find => True
  | .map pc => pc.AllAsOf n
  | .resolve found => ∀ m, found = some m → m.asOf = n
  | .inherit _ asOf | .snapshot _ asOf _ | .department _ asOf | .insert _ _ asOf => asOf = n

def CatalogPc.AllAsOf (n : Nat) : CatalogPc → Prop
  | .save _ pc => pc.AllAsOf n
  | _ => True

/-- The cache of the process, if it has a map, has one that is as of then. -/
def Portal.CacheAsOf (s : Portal) (process n : Nat) : Prop :=
  ∀ m, (s.objects process).netlocMapCache = some m → m.asOf = n

section Functions

variable {rules : LeadRules} {s s' : Portal} {process : Nat}

theorem Portal.CacheAsOf.setObject {n : Nat} {f : DatabaseObject → DatabaseObject}
    (hf : ∀ m, (f (s.objects process)).netlocMapCache = some m → m.asOf = n) :
    (s.setObject process f).CacheAsOf process n := by
  intro m hm
  rw [setObject_objects, if_pos rfl] at hm
  exact hf m hm

theorem netlocMapStep_asOf {pc : MapPc} {turn : Turn MapPc (Option NetlocMap)}
    (hcache : s.CacheAsOf process s.db.writes) (hpc : pc.AllAsOf s.db.writes)
    (h : s.netlocMapStep rules process pc = some (s', turn)) :
    s'.CacheAsOf process s.db.writes ∧
      turn.Meets (MapPc.AllAsOf s.db.writes) fun map =>
        ∀ m, map = some m → m.asOf = s.db.writes := by
  cases pc with
  | look =>
      cases h
      refine ⟨hcache, ?_⟩
      unfold Turn.Meets
      dsimp only
      split <;> trivial
  | take =>
      cases h
      exact ⟨hcache, hcache⟩
  | lock =>
      dsimp only [Portal.netlocMapStep] at h
      split at h
      · cases h
      · cases h
        exact ⟨.setObject hcache, trivial⟩
  | check =>
      cases h
      refine ⟨hcache, ?_⟩
      unfold Turn.Meets
      dsimp only
      split <;> trivial
  | query =>
      cases h
      exact ⟨hcache, rfl⟩
  | store map =>
      cases h
      refine ⟨.setObject fun m hm => ?_, trivial⟩
      obtain rfl := Option.some.inj hm
      exact hpc
  | takeLocked =>
      cases h
      exact ⟨.setObject hcache, hcache⟩

/-- `save_lead` takes no older map than it finds, and does not write the catalog. -/
theorem saveStep_asOf {call : SaveCall} {pc : SavePc} {turn : Turn SavePc Bool}
    (hcache : s.CacheAsOf process s.db.writes) (hpc : pc.AllAsOf s.db.writes)
    (h : s.saveStep rules process call pc = some (s', turn)) :
    s'.db.writes = s.db.writes ∧ s'.CacheAsOf process s.db.writes ∧
      turn.Meets (SavePc.AllAsOf s.db.writes) fun _ => True := by
  cases pc with
  | find =>
      dsimp only [Portal.saveStep] at h
      cases henrich : s.db.enrichLead rules call.item with
      | some db =>
          rw [henrich] at h
          cases h
          obtain ⟨lead, -, rfl⟩ := Option.map_eq_some_iff.mp henrich
          exact ⟨rfl, hcache, trivial⟩
      | none =>
          rw [henrich] at h
          cases h
          exact ⟨rfl, hcache, trivial⟩
  | map pc =>
      obtain ⟨⟨s₁, mapTurn⟩, hmap, heq⟩ := Option.map_eq_some_iff.mp h
      obtain ⟨hcache, hturn⟩ := netlocMapStep_asOf hcache hpc hmap
      have hdb := netlocMapStep_db hmap
      obtain ⟨rfl, rfl⟩ := Prod.mk.inj heq
      refine ⟨congrArg CatalogDb.writes hdb, hcache, ?_⟩
      cases mapTurn with
      | goto pc => exact hturn
      | returns map => exact hturn
      | raises => trivial
  | resolve map =>
      cases h
      refine ⟨rfl, hcache, ?_⟩
      have hasOf : (map.map NetlocMap.asOf).getD s.db.writes = s.db.writes := by
        cases map with
        | none => rfl
        | some m => exact hpc m rfl
      cases resolveIn rules call.item.sourceUrl s.db.targetSuffixes map with
      | error e => trivial
      | ok resolved => cases resolved <;> exact hasOf
  | inherit resolved asOf =>
      cases h
      refine ⟨rfl, hcache, ?_⟩
      unfold Turn.Meets
      dsimp only
      split <;> exact hpc
  | snapshot resolved asOf pc =>
      obtain ⟨-, ⟨-, hwrites⟩, -⟩ := crawlSnapshotStep_spec s.db call.jobId resolved false pc
      cases h
      refine ⟨hwrites, hcache, ?_⟩
      cases (s.db.crawlSnapshotStep call.jobId resolved false pc).2 with
      | goto pc => exact hpc
      | returns id => exact hpc
      | raises => trivial
  | department snapshotId asOf =>
      cases snapshotId with
      | none =>
          cases h
          exact ⟨rfl, hcache, hpc⟩
      | some k =>
          cases h
          refine ⟨rfl, hcache, ?_⟩
          cases departmentIsUrlFallback rules call.item.fieldProvenance with
          | error e => trivial
          | ok fallback => exact hpc
  | insert snapshotId department asOf =>
      dsimp only [Portal.saveStep] at h
      cases hadd : s.db.addLead rules call.jobId call.item (storedEmail rules call.item) snapshotId
          department with
      | none =>
          rw [hadd] at h
          cases h
          exact ⟨rfl, hcache, trivial⟩
      | some db =>
          rw [hadd] at h
          cases h
          have hwrites : db.writes = s.db.writes := by rw [addLead_inserts hadd]
          exact ⟨hwrites, hcache, trivial⟩

end Functions

/-! ### Runs -/

/-- The call is over. -/
def CatalogCall.Over (c : CatalogCall) : Prop := c.pc = .finished

/-- The write is committed, and the cache not emptied. -/
def CatalogCall.Invalidating (c : CatalogCall) : Prop := c.pc = .write .invalidate

/-- Calls come one after the other in the process `home`, and no write is cut off between its
commit and the cache. -/
def InOrder (home : Nat) (s : PortalRun) : CatalogAction → Prop
  | .call process _ => process = home ∧ ∀ c ∈ s.threads, c.Over
  | .abort i => ∀ c, s.threads[i]? = some c → ¬ c.Invalidating
  | _ => True

structure Orderly (home : Nat) (s : PortalRun) : Prop where
  process : ∀ c ∈ s.threads, c.process = home
  one : AllButOne CatalogCall.Over s.threads
  maps : ∀ c ∈ s.threads, c.pc.AllAsOf s.shared.db.writes
  cache : (∀ c ∈ s.threads, ¬ c.Invalidating) → s.shared.CacheAsOf home s.shared.db.writes

section Runs

variable {rules : LeadRules} {home : Nat} {s s' : Portal} {pool pool' : PortalRun}

theorem CatalogPc.AllAsOf.of_over {c : CatalogCall} (h : c.Over) (n : Nat) : c.pc.AllAsOf n := by
  unfold CatalogCall.Over at h
  rw [h]
  trivial

theorem CatalogCall.Over.not_invalidating {c : CatalogCall} (h : c.Over) : ¬ c.Invalidating := by
  unfold CatalogCall.Over at h
  unfold CatalogCall.Invalidating
  rw [h]
  nofun

/-- A step of the only call that is going on. -/
theorem step_asOf {pc pc' : CatalogPc}
    (hcache : pc ≠ .write .invalidate → s.CacheAsOf home s.db.writes)
    (hpc : pc.AllAsOf s.db.writes) (h : s.step rules home pc = some (s', pc')) :
    pc'.AllAsOf s'.db.writes ∧
      (pc' ≠ .write .invalidate → s'.CacheAsOf home s'.db.writes) := by
  cases pc with
  | finished => cases h
  | write pc =>
      cases pc with
      | commit write =>
          have hcache := hcache (by simp)
          dsimp only [Portal.step, Portal.writeStep] at h
          cases hcommit : s.db.commit write with
          | none =>
              rw [hcommit] at h
              cases h
              exact ⟨trivial, fun _ => hcache⟩
          | some db =>
              rw [hcommit] at h
              cases h
              exact ⟨trivial, fun hne => absurd rfl hne⟩
      | invalidate =>
          cases h
          dsimp only [Portal.writeStep]
          refine ⟨trivial, fun _ => Portal.CacheAsOf.setObject fun m hm => ?_⟩
          cases hm
  | job pc =>
      have hcache := hcache nofun
      obtain ⟨-, -, hwrites⟩ := jobStep_spec s.db pc
      cases h
      refine ⟨?_, fun _ m hm => (hcache m hm).trans hwrites.symm⟩
      cases (s.db.jobStep pc).2 <;> trivial
  | save call pc =>
      obtain ⟨⟨s₁, turn⟩, hsave, heq⟩ := Option.map_eq_some_iff.mp h
      obtain ⟨hwrites, hcache, hturn⟩ := saveStep_asOf (hcache nofun) hpc hsave
      obtain ⟨rfl, rfl⟩ := Prod.mk.inj heq
      rw [hwrites]
      refine ⟨?_, fun _ => hcache⟩
      cases turn with
      | goto pc => exact hturn
      | returns saved => trivial
      | raises => trivial

theorem next_over {c : CatalogCall} {r : Portal × CatalogCall}
    (h : CatalogCall.next rules s c = some r) : ¬ c.Over := by
  intro hover
  unfold CatalogCall.Over at hover
  unfold CatalogCall.next at h
  rw [hover] at h
  cases h

theorem abort_over {c c' : CatalogCall} (h : CatalogCall.abort s c = some (s', c')) :
    ¬ c.Over ∧ c'.Over ∧ c'.process = c.process ∧ s'.db = s.db ∧
      ∀ process n, s.CacheAsOf process n → s'.CacheAsOf process n := by
  have hunlock : ∀ q process n, s.CacheAsOf process n →
      (s.setObject q fun o => { o with locked := false }).CacheAsOf process n := by
    intro q process n hcache m hm
    rw [setObject_objects] at hm
    split at hm
    · exact hcache m hm
    · exact hcache m hm
  unfold CatalogCall.abort at h
  unfold CatalogCall.Over
  split at h
  · cases h
  · rename_i hpc
    cases h
    refine ⟨by rw [hpc]; nofun, rfl, rfl, ?_⟩
    split
    · exact ⟨rfl, hunlock c.process⟩
    · exact ⟨rfl, fun _ _ h => h⟩
  · rename_i hpc _
    cases h
    exact ⟨hpc, rfl, rfl, rfl, fun _ _ h => h⟩

/-- The step lemma. -/
theorem Orderly.step (h : Orderly home pool) {a : CatalogAction} (hok : InOrder home pool a)
    (hstep : pool.step rules a = some pool') : Orderly home pool' := by
  cases a with
  | call process request =>
      obtain ⟨rfl, hover⟩ := hok
      cases hstep
      refine ⟨fun c hc => ?_, allButOne_append hover _, fun c hc => ?_, fun _ => ?_⟩
      · rcases List.mem_append.mp hc with hold | hnew
        · exact h.process c hold
        · rw [List.mem_singleton.mp hnew]
      · rcases List.mem_append.mp hc with hold | hnew
        · exact h.maps c hold
        · rw [List.mem_singleton.mp hnew]
          cases request with
          | saveLead call =>
              show CatalogPc.AllAsOf _ (if _ then _ else _)
              split <;> trivial
          | _ => trivial
      · exact h.cache fun c hc => (hover c hc).not_invalidating
  | advance i =>
      obtain ⟨c, s, c', hget, hnext, rfl⟩ := Pool.advance_eq_some.mp hstep
      have hmem := List.mem_of_getElem? hget
      have hgoing := next_over hnext
      obtain ⟨⟨s₁, pc⟩, hpc, heq⟩ := Option.map_eq_some_iff.mp hnext
      obtain ⟨rfl, rfl⟩ := Prod.mk.inj heq
      have hothers : ∀ d ∈ pool.threads, d ≠ c → d.Over := by
        intro d hd hne
        obtain ⟨j, hj⟩ := List.getElem?_of_mem hd
        exact h.one.others hget hgoing hj fun hji => hne (Option.some.inj
          (hj.symm.trans (hji ▸ hget)))
      have hcache : c.pc ≠ .write .invalidate →
          pool.shared.CacheAsOf home pool.shared.db.writes := by
        intro hne
        refine h.cache fun d hd => ?_
        by_cases hdc : d = c
        · exact hdc ▸ hne
        · exact (hothers d hd hdc).not_invalidating
      rw [h.process c hmem] at hpc
      obtain ⟨hmaps, hafter⟩ := step_asOf hcache (h.maps c hmem) hpc
      refine ⟨forall_mem_set h.process i (h.process c hmem), h.one.set hget hgoing _, ?_, ?_⟩
      · intro d hd
        obtain ⟨j, hj⟩ := List.getElem?_of_mem hd
        by_cases hji : j = i
        · rw [hji, List.getElem?_set_self (List.getElem?_eq_some_iff.mp hget).1] at hj
          obtain rfl := Option.some.inj hj
          exact hmaps
        · rw [List.getElem?_set_ne (Ne.symm hji)] at hj
          exact .of_over (h.one.others hget hgoing hj hji) _
      · intro hnone
        have hlt : i < pool.threads.length := (List.getElem?_eq_some_iff.mp hget).1
        exact hafter (hnone _ (List.mem_set hlt _))
  | abort i =>
      obtain ⟨c, s, c', hget, habort, rfl⟩ := Pool.advance_eq_some.mp hstep
      have hmem := List.mem_of_getElem? hget
      obtain ⟨hgoing, hover, hprocess, hdb, hcache⟩ := abort_over habort
      refine ⟨forall_mem_set h.process i (hprocess.trans (h.process c hmem)), h.one.set hget hgoing _,
        ?_, fun _ => ?_⟩
      · refine forall_mem_set (fun d hd => ?_) i (.of_over hover _)
        rw [hdb]
        exact h.maps d hd
      · rw [hdb]
        refine hcache home _ (h.cache fun d hd => ?_)
        obtain ⟨j, hj⟩ := List.getElem?_of_mem hd
        by_cases hji : j = i
        · exact hok d (hji ▸ hj)
        · exact (h.one.others hget hgoing hj hji).not_invalidating
  | restart process =>
      cases hstep
      have hended : ∀ c ∈ pool.threads, (c.endedIn process).process = home := by
        intro c hc
        unfold CatalogCall.endedIn
        split <;> exact h.process c hc
      refine ⟨fun d hd => ?_, h.one.map fun c hc => ?_, fun d hd => ?_, fun hnone => ?_⟩
      · obtain ⟨c, hc, rfl⟩ := List.mem_map.mp hd
        exact hended c hc
      · unfold CatalogCall.endedIn
        split
        · rfl
        · exact hc
      · obtain ⟨c, hc, rfl⟩ := List.mem_map.mp hd
        unfold CatalogCall.endedIn
        split
        · trivial
        · exact h.maps c hc
      · by_cases hhome : home = process
        · subst hhome
          have hempty : (pool.shared.setObject home fun _ => {}).CacheAsOf home
              pool.shared.db.writes := .setObject fun m hm => by cases hm
          exact hempty
        · -- no call is in the process
          have hcache := h.cache fun c hc => by
            have hc' := hnone _ (List.mem_map_of_mem hc)
            unfold CatalogCall.endedIn at hc'
            rwa [if_neg fun hp => hhome ((h.process c hc).symm.trans hp)] at hc'
          intro m hm
          have hm : ((pool.shared.setObject process fun _ => {}).objects home).netlocMapCache =
              some m := hm
          rw [setObject_objects, if_neg hhome] at hm
          exact hcache m hm

/-- The map that a lead is inserted with is as of the last write. -/
theorem Orderly.insertsCurrent (h : Orderly home pool) (a : CatalogAction) :
    InsertsCurrent pool a := by
  cases a with
  | advance i =>
      intro asOf hasOf
      obtain ⟨⟨process, pc⟩, hget, hpc⟩ := Option.bind_eq_some_iff.mp hasOf
      have hmaps := h.maps _ (List.mem_of_getElem? hget)
      unfold CatalogPc.insertsAsOf at hpc
      split at hpc
      · rename_i hinsert
        rw [hinsert] at hmaps
        obtain rfl := Option.some.inj hpc
        exact hmaps
      · cases hpc
  | call process request => trivial
  | abort i => trivial
  | restart process => trivial

end Runs

/--
**Calls that come one after the other** in one process never insert a lead with a map that is
older than the last write.
-/
theorem inOrder_current (rules : LeadRules) (home : Nat) (s : PortalRun) (as : List CatalogAction)
    (hstart : s.StartsUp) (horder : Meets (PortalRun.step rules) (InOrder home) s as) :
    Meets (PortalRun.step rules) InsertsCurrent s as := by
  have horderly : Orderly home s := by
    have hnone : ∀ c, c ∉ s.threads := fun c hc => by
      rw [hstart.threads] at hc
      cases hc
    refine ⟨fun c hc => absurd hc (hnone c), ⟨0, fun j c hc _ => ?_⟩,
      fun c hc => absurd hc (hnone c), fun _ m hm => ?_⟩
    · exact absurd (List.mem_of_getElem? hc) (hnone c)
    · rw [hstart.objects home] at hm
      cases hm
  exact Meets.of_invariant (fun s a s' h ha hs => h.step ha hs) (fun s a h _ => h.insertsCurrent a)
    horderly horder

end GovCrawler
