/-
At most one acceptance for each email, over every interleaving.

A task that has claimed an email holds it until its handlers let go.  As long as the
row of a held email stays `SENDING`, nobody else can claim it, and an accepted one
is still held or already `SENT`.  The one statement that takes a row away from its
holder is the recovery sweep, which cannot tell a task that waits for its slot from
one that died.  `at_most_once` is the theorem for runs in which no sweep finds a
held email overdue, and `accepted_twice` a run in which one does: enough tasks queue
for one credential that the last of them waits longer than the threshold.
-/
import GovCrawler.Outreach.DispatchSystem

namespace GovCrawler

open Relational StoreProgram Prog DispatchM Transition

/-! ### Who holds which email -/

/-- Task `i` has this job in hand. -/
def HeldBy (w : World) (i : Nat) (job : Job) : Prop :=
  ∃ t, w.tasks[i]? = some t ∧ t.pc.job? = some job

/-- The row has been `SENDING` for longer than the sweep allows. -/
def Overdue (w : World) (emailId : Nat) : Prop :=
  ∃ e, w.db.email? emailId = some e ∧ e.status = .sending ∧
    ∃ since, e.sendingSince = some since ∧ since < w.now - seconds stuckSendingThreshold

/-- The condition on a step: a sweep finds no overdue email in a living task's hands. -/
def SweepsOnlyOrphans (w : World) : Action → Prop
  | .sweep => ∀ i job, HeldBy w i job → ¬ Overdue w job.email.id
  | _ => True

theorem overdue_iff {w : World} {emailId : Nat} :
    ((w.db.email? emailId).any fun e => decide (e.status = .sending) &&
      e.sendingSince.any fun since => decide (since < w.now - seconds stuckSendingThreshold)) ↔
      Overdue w emailId := by
  simp [Overdue, Option.any_eq_true]

instance (w : World) (emailId : Nat) : Decidable (Overdue w emailId) :=
  decidable_of_iff _ overdue_iff

theorem sweepsOnlyOrphans_sweep {w : World} : SweepsOnlyOrphans w .sweep ↔
    ∀ t ∈ w.tasks, ∀ job ∈ t.pc.job?, ¬ Overdue w job.email.id := by
  constructor
  · intro h t ht job hjob
    obtain ⟨i, hi⟩ := List.mem_iff_getElem?.mp ht
    exact h i job ⟨t, hi, hjob⟩
  · rintro h i job ⟨t, hi, hjob⟩
    exact h t (List.mem_of_getElem? hi) job hjob

instance (w : World) : (a : Action) → Decidable (SweepsOnlyOrphans w a)
  | .sweep => decidable_of_iff _ sweepsOnlyOrphans_sweep.symm
  | .tick _ | .request _ _ | .poll _ | .revoke _ | .move _ _ => .isTrue trivial

/-- What every step keeps. -/
structure SendInv (w : World) : Prop where
  held : ∀ i job, HeldBy w i job → w.db.emailStatus job.email.id = some .sending
  unique : ∀ i j a b, HeldBy w i a → HeldBy w j b → a.email.id = b.email.id → i = j
  accepted : ∀ e ∈ w.accepted, w.db.emailStatus e = some .sent ∨
    ∃ (i : Nat) (t : DispatchTask) (job : Job),
      w.tasks[i]? = some t ∧ t.pc = .quitting job ∧ job.email.id = e
  once : w.accepted.Nodup

/-- An email in a task's hands that is not yet quitting has not been accepted. -/
theorem SendInv.not_accepted {w : World} (hinv : SendInv w) {i : Nat} {t : DispatchTask}
    {job : Job} (ht : w.tasks[i]? = some t) (hjob : t.pc.job? = some job)
    (hq : ∀ a, t.pc ≠ .quitting a) : job.email.id ∉ w.accepted := by
  intro hmem
  rcases hinv.accepted _ hmem with hsent | ⟨j, u, a, hu, hpc, hid⟩
  · rw [hinv.held i job ⟨t, ht, hjob⟩] at hsent
    cases hsent
  · have ha : HeldBy w j a := ⟨u, hu, by rw [hpc]; rfl⟩
    obtain rfl := hinv.unique j i a job ha ⟨t, ht, hjob⟩ hid
    rw [ht] at hu
    obtain rfl := Option.some.inj hu
    exact hq a hpc

/-- **One task moves.**  Everybody else's emails stay `SENDING`, sent ones stay sent,
what the task holds afterwards is `SENDING` and nobody else's, and it leaves
`quitting` only for `SENT`. -/
theorem SendInv.move {w w' : World} (hinv : SendInv w) {i : Nat} {t : DispatchTask} {pc : Pc}
    (ht : w.tasks[i]? = some t) (htasks : w'.tasks = (w.goto i pc).tasks)
    (hothers : ∀ j job, j ≠ i → HeldBy w j job → w'.db.emailStatus job.email.id = some .sending)
    (hsent : ∀ e, w.db.emailStatus e = some .sent → w'.db.emailStatus e = some .sent)
    (hself : ∀ job, pc.job? = some job → w'.db.emailStatus job.email.id = some .sending ∧
      ∀ j a, j ≠ i → HeldBy w j a → a.email.id ≠ job.email.id)
    (hacc : w'.accepted = w.accepted ∨ ∃ job, pc = .quitting job ∧
      w'.accepted = w.accepted ++ [job.email.id] ∧ job.email.id ∉ w.accepted)
    (hquit : ∀ job, t.pc = .quitting job → w'.db.emailStatus job.email.id = some .sent) :
    SendInv w' := by
  have hself_task : w'.tasks[i]? = some { t with pc } := by
    rw [htasks, task_goto, ht]
    simp
  have hother_task : ∀ j, j ≠ i → w'.tasks[j]? = w.tasks[j]? := by
    intro j hj
    rw [htasks, task_goto]
    cases w.tasks[j]? with
    | none => rfl
    | some u => simp [Ne.symm hj]
  have hheld_self : ∀ job, HeldBy w' i job → pc.job? = some job := by
    rintro job ⟨u, hu, hjob⟩
    rw [hself_task] at hu
    obtain rfl := Option.some.inj hu
    exact hjob
  have hheld_other : ∀ j job, j ≠ i → HeldBy w' j job → HeldBy w j job := by
    rintro j job hj ⟨u, hu, hjob⟩
    exact ⟨u, (hother_task j hj).symm.trans hu, hjob⟩
  refine ⟨fun j job hj => ?_, fun j k a b ha hb hid => ?_, fun e he => ?_, ?_⟩
  · by_cases hji : j = i
    · subst hji
      exact (hself job (hheld_self job hj)).1
    · exact hothers j job hji (hheld_other j job hji hj)
  · by_cases hji : j = i
    · by_cases hki : k = i
      · rw [hji, hki]
      · subst hji
        exact absurd hid.symm
          ((hself a (hheld_self a ha)).2 k b hki (hheld_other k b hki hb))
    · by_cases hki : k = i
      · subst hki
        exact absurd hid ((hself b (hheld_self b hb)).2 j a hji (hheld_other j a hji ha))
      · exact hinv.unique j k a b (hheld_other j a hji ha) (hheld_other k b hki hb) hid
  · have hold : e ∈ w.accepted → w'.db.emailStatus e = some .sent ∨
        ∃ (j : Nat) (u : DispatchTask) (job : Job),
          w'.tasks[j]? = some u ∧ u.pc = .quitting job ∧ job.email.id = e := by
      intro hmem
      rcases hinv.accepted e hmem with hs | ⟨j, u, job, hu, hpc, hid⟩
      · exact Or.inl (hsent e hs)
      · by_cases hji : j = i
        · subst hji
          rw [ht] at hu
          obtain rfl := Option.some.inj hu
          exact Or.inl (hid ▸ hquit job hpc)
        · exact Or.inr ⟨j, u, job, (hother_task j hji).trans hu, hpc, hid⟩
    rcases hacc with hsame | ⟨job, hpc, hnew, -⟩
    · exact hold (hsame ▸ he)
    · rw [hnew, List.mem_append, List.mem_singleton] at he
      rcases he with he | rfl
      · exact hold he
      · exact Or.inr ⟨i, _, job, hself_task, hpc, rfl⟩
  · rcases hacc with hsame | ⟨job, -, hnew, hfresh⟩
    · rw [hsame]
      exact hinv.once
    · rw [hnew]
      exact List.nodup_append.mpr ⟨hinv.once, List.nodup_singleton _, by
        intro a ha b hb hab
        rw [List.mem_singleton] at hb
        exact hfresh (hb ▸ hab ▸ ha)⟩

/-- The task keeps its job, and the emails are as they were. -/
theorem SendInv.stay {w w' : World} (hinv : SendInv w) {i : Nat} {t : DispatchTask} {pc : Pc}
    (ht : w.tasks[i]? = some t) (htasks : w'.tasks = (w.goto i pc).tasks)
    (hrows : ∀ k, w'.db.emailStatus k = w.db.emailStatus k) (hacc : w'.accepted = w.accepted)
    (hjob : pc.job? = t.pc.job?) (hq : ∀ a, t.pc ≠ .quitting a) : SendInv w' := by
  refine hinv.move ht htasks (fun j job _ hj => (hrows _).trans (hinv.held j job hj))
    (fun e he => (hrows e).trans he) (fun job hpc => ?_) (Or.inl hacc)
    (fun job h => absurd h (hq job))
  have hmine : HeldBy w i job := ⟨t, ht, hjob ▸ hpc⟩
  refine ⟨(hrows _).trans (hinv.held i job hmine), fun j a hj ha hid => ?_⟩
  exact hj (hinv.unique j i a job ha hmine hid)

/-- The task ends up empty-handed, having touched nothing that is being sent or sent. -/
theorem SendInv.idle {w w' : World} (hinv : SendInv w) {i : Nat} {t : DispatchTask} {pc : Pc}
    (ht : w.tasks[i]? = some t) (htasks : w'.tasks = (w.goto i pc).tasks)
    (hspares : Spares w.db w'.db) (hacc : w'.accepted = w.accepted) (hpc : pc.job? = none)
    (hq : ∀ a, t.pc ≠ .quitting a) : SendInv w' := by
  refine hinv.move ht htasks
    (fun j job _ hj => hspares _ _ (Or.inl rfl) (hinv.held j job hj))
    (fun e he => hspares e _ (Or.inr rfl) he) (fun job h => ?_) (Or.inl hacc)
    (fun job h => absurd h (hq job))
  rw [hpc] at h
  cases h

/-- The send of the task is over, in whatever way. -/
theorem SendInv.finish {settings : DispatchSettings} {w : World} (hinv : SendInv w) {i : Nat}
    {t : DispatchTask} {job : Job} (ht : w.tasks[i]? = some t) (hjob : t.pc.job? = some job)
    (sent : Except Exc Unit) (cause : Cause)
    (hq : (∀ a, t.pc ≠ .quitting a) ∨ sent = .ok ()) :
    SendInv (w.finish settings i job sent cause) := by
  have hmine : HeldBy w i job := ⟨t, ht, hjob⟩
  have hrow := hinv.held i job hmine
  -- only the row of the job can change, and it changes to `SENT` after a success
  have hrows : (∀ k, k ≠ job.email.id →
        (w.finish settings i job sent cause).db.emailStatus k = w.db.emailStatus k) ∧
      (sent = .ok () →
        (w.finish settings i job sent cause).db.emailStatus job.email.id = some .sent) := by
    show (∀ k, k ≠ _ → (trySend settings job w.now sent ⟨w.db, []⟩ []).2.1.db.emailStatus k = _) ∧
      (_ → (trySend settings job w.now sent ⟨w.db, []⟩ []).2.1.db.emailStatus _ = _)
    cases sent with
    | ok x =>
        rw [trySend_ok]
        refine ⟨fun k hk => ?_, fun _ => ?_⟩
        · rw [OutreachDb.emailStatus_markEmailSent, if_neg hk]
        · rw [OutreachDb.emailStatus_markEmailSent, if_pos rfl, hrow]
          rfl
    | error e =>
        refine ⟨fun k hk => ?_, fun h => by cases h⟩
        rw [trySend_error]
        cases hs : handledStatus e with
        | none =>
            obtain ⟨refused, rfl⟩ := handledStatus_eq_none_iff.mp hs
            rfl
        | some status =>
            obtain ⟨s, hrun, hset⟩ := handleException_run settings job w.now ⟨w.db, []⟩ hs
            rw [hrun, hset.rows, if_neg hk]
  refine hinv.move ht rfl (fun j a hj ha => ?_) (fun e he => ?_) (fun a h => ?_) (Or.inl rfl)
    (fun a h => ?_)
  · have hne : a.email.id ≠ job.email.id := fun hid => hj (hinv.unique j i a job ha hmine hid)
    exact (hrows.1 _ hne).trans (hinv.held j a ha)
  · have hne : e ≠ job.email.id := by
      rintro rfl
      rw [hrow] at he
      cases he
    exact (hrows.1 e hne).trans he
  · rw [Pc.job?_afterSend] at h
    cases h
  · have ha : a = job := by
      rw [h] at hjob
      exact Option.some.inj hjob
    rw [ha]
    exact hrows.2 (hq.resolve_left fun hno => hno a h)

/-- The task claims an email nobody holds, and may get to hold it. -/
theorem SendInv.claim {w w' : World} (hinv : SendInv w) {i : Nat} {t : DispatchTask} {pc : Pc}
    {emailId : Nat} (ht : w.tasks[i]? = some t) (htasks : w'.tasks = (w.goto i pc).tasks)
    (hwas : w.db.emailStatus emailId = some .queued)
    (hrows : ∀ k, w'.db.emailStatus k =
      if k = emailId then some .sending else w.db.emailStatus k)
    (hacc : w'.accepted = w.accepted) (hpc : ∀ job, pc.job? = some job → job.email.id = emailId)
    (hq : ∀ a, t.pc ≠ .quitting a) : SendInv w' := by
  have hfree : ∀ j a, HeldBy w j a → a.email.id ≠ emailId := by
    rintro j a ha rfl
    rw [hinv.held j a ha] at hwas
    cases hwas
  refine hinv.move ht htasks (fun j a _ ha => ?_) (fun e he => ?_) (fun job h => ?_) (Or.inl hacc)
    (fun a h => absurd h (hq a))
  · rw [hrows, if_neg (hfree j a ha)]
    exact hinv.held j a ha
  · have hne : e ≠ emailId := by
      rintro rfl
      rw [he] at hwas
      cases hwas
    rw [hrows, if_neg hne]
    exact he
  · refine ⟨by rw [hrows, if_pos (hpc job h)], fun j a _ ha => ?_⟩
    rw [hpc job h]
    exact hfree j a ha

/-! ### Every action -/

section Actions

variable {settings : DispatchSettings} {w : World}

theorem sendInv_leaveSlot (hinv : SendInv w) {i : Nat} {t : DispatchTask} {job : Job}
    (ht : w.tasks[i]? = some t) (hjob : t.pc.job? = some job) (hq : ∀ a, t.pc ≠ .quitting a) :
    SendInv (w.leaveSlot i job) :=
  hinv.stay ht rfl (fun _ => rfl) rfl (by rw [hjob]; rfl) hq

theorem sendInv_authenticate (hinv : SendInv w) {i : Nat} {t : DispatchTask} {job : Job}
    (ht : w.tasks[i]? = some t) (hjob : t.pc.job? = some job) (hq : ∀ a, t.pc ≠ .quitting a) :
    SendInv (w.authenticate settings i job) := by
  unfold World.authenticate
  by_cases hb : job.cred.provider = "basic"
  · rw [if_pos hb]
    exact hinv.stay ht rfl (fun _ => rfl) rfl (by rw [hjob]; rfl) hq
  · rw [if_neg hb]
    cases getValidAccessToken job.cred settings.oauth w.now with
    | live token => exact hinv.stay ht rfl (fun _ => rfl) rfl (by rw [hjob]; rfl) hq
    | refresh token => exact hinv.stay ht rfl (fun _ => rfl) rfl (by rw [hjob]; rfl) hq
    | raises e => exact hinv.finish ht hjob _ _ (Or.inl hq)

theorem sendInv_receiveTokens (hinv : SendInv w) {i : Nat} {t : DispatchTask} {job : Job}
    (ht : w.tasks[i]? = some t) (hjob : t.pc.job? = some job) (hq : ∀ a, t.pc ≠ .quitting a)
    (refreshToken : String) (reply : TokenReply) :
    SendInv (w.receiveTokens settings i job refreshToken reply) := by
  unfold World.receiveTokens
  cases refreshOutcome job.cred.provider reply with
  | ok r => exact hinv.stay ht rfl (fun _ => rfl) rfl (by rw [hjob]; rfl) hq
  | error e => exact hinv.finish ht hjob _ _ (Or.inl hq)

/-- The prologue only queues drafts. -/
theorem sendInv_start (hinv : SendInv w) {i : Nat} {t : DispatchTask}
    (ht : w.tasks[i]? = some t) (hpc : t.pc = .start) :
    SendInv
      { w.goto i (.afterPrologue
            (dispatchPrologue settings t.campaignId w.now ⟨w.db, []⟩ []).1) with
          db := (dispatchPrologue settings t.campaignId w.now ⟨w.db, []⟩ []).2.1.db } := by
  refine hinv.idle ht rfl ?_ rfl (Pc.job?_afterPrologue _) (by simp [hpc])
  exact Spares.of_move .draft .queued (by decide)
    (dispatchPrologue_rows settings t.campaignId w.now ⟨w.db, []⟩ []).2

/-- The top of an iteration claims an email, or ends empty-handed. -/
theorem sendInv_head (hinv : SendInv w) {i c : Nat} {index : Nat}
    (ht : w.tasks[i]? = some ⟨c, .head index⟩) {w' : World} (pc : Pc)
    (htasks : w'.tasks = (w.goto i pc).tasks)
    (hdb : w'.db = (loopHead settings c index w.now ⟨w.db, []⟩ []).2.1.db)
    (hacc : w'.accepted = w.accepted)
    (hpc : ∀ job, pc.job? = some job →
      (loopHead settings c index w.now ⟨w.db, []⟩ []).1 = .ok (.send job)) : SendInv w' := by
  have hq : ∀ a, Pc.head index ≠ .quitting a := by simp
  rcases loopHead_cases settings c index w.now ⟨w.db, []⟩ [] with hidle | ⟨e, hclaim, -⟩
  · refine hinv.idle ht htasks ?_ hacc ?_ hq
    · rw [hdb]
      exact Spares.of_move .queued .failed (by decide) hidle.rows
    · cases hjob : pc.job? with
      | none => rfl
      | some job => exact absurd (hpc job hjob) (hidle.stops job)
  · refine hinv.claim ht htasks hclaim.was ?_ hacc (fun job hjob => hclaim.job job (hpc job hjob)) hq
    rw [hdb]
    exact hclaim.rows

/-- An email that the server accepts has not been accepted before. -/
theorem sendInv_accepted (hinv : SendInv w) {i c : Nat} {job : Job}
    (ht : w.tasks[i]? = some ⟨c, .sending job⟩) :
    SendInv { w.goto i (.quitting job) with accepted := w.accepted ++ [job.email.id] } := by
  have hq : ∀ a, Pc.sending job ≠ .quitting a := by simp
  have hmine : HeldBy w i job := ⟨_, ht, rfl⟩
  refine hinv.move ht rfl (fun j a _ ha => hinv.held j a ha) (fun e he => he)
    (fun a ha => ?_) (Or.inr ⟨job, rfl, rfl, hinv.not_accepted ht rfl hq⟩)
    (fun a ha => absurd ha (hq a))
  obtain rfl : job = a := Option.some.inj ha
  refine ⟨hinv.held i job hmine, fun j b hj hb hid => ?_⟩
  exact hj (hinv.unique j i b job hb hmine hid)

/-- A segment of a task keeps the invariant. -/
theorem sendInv_resume (hinv : SendInv w) {i : Nat} {t : DispatchTask} (ht : w.tasks[i]? = some t)
    {event : Event} {w' : World} (hs : w.resume settings i t.campaignId t.pc event = some w') :
    SendInv w' := by
  obtain ⟨campaignId, pc⟩ := t
  cases World.resumes_of_resume hs with
  | start => exact sendInv_start hinv ht rfl
  | @send index job hrun =>
      refine sendInv_head hinv ht (.waiting job) rfl rfl rfl fun a ha => ?_
      obtain rfl := Option.some.inj ha
      exact hrun
  | stop hrun => exact sendInv_head hinv ht .stopped rfl rfl rfl fun a ha => nomatch ha
  | enterSlot => exact hinv.stay ht rfl (fun _ => rfl) rfl rfl (by simp)
  | sleep => exact hinv.stay ht rfl (fun _ => rfl) rfl rfl (by simp)
  | wakeUp => exact sendInv_leaveSlot hinv ht rfl (by simp)
  | connected => exact sendInv_authenticate hinv ht rfl (by simp)
  | granted => exact hinv.stay ht rfl (fun _ => rfl) rfl rfl (by simp)
  | refused => exact hinv.stay ht rfl (fun _ => rfl) rfl rfl (by simp)
  | requestLost => exact hinv.stay ht rfl (fun _ => rfl) rfl rfl (by simp)
  | replied => exact sendInv_receiveTokens hinv ht rfl (by simp) _ _
  | replyLost => exact sendInv_receiveTokens hinv ht rfl (by simp) _ _
  | authenticated => exact hinv.stay ht rfl (fun _ => rfl) rfl rfl (by simp)
  | accepted => exact sendInv_accepted hinv ht
  | notConnected => exact hinv.finish ht rfl _ _ (Or.inl (by simp))
  | notAuthenticated => exact hinv.finish ht rfl _ _ (Or.inl (by simp))
  | notAccepted => exact hinv.finish ht rfl _ _ (Or.inl (by simp))
  | quit => exact hinv.finish ht rfl _ _ (Or.inr rfl)

/-- Whatever spares what is being sent and adds no task but fresh ones. -/
theorem SendInv.spare {w' : World} (hinv : SendInv w) (hspares : Spares w.db w'.db)
    (htasks : ∃ fresh : List Nat, w'.tasks = w.tasks ++ fresh.map fun c => ⟨c, .start⟩)
    (hacc : w'.accepted = w.accepted) : SendInv w' := by
  obtain ⟨fresh, htasks⟩ := htasks
  have hheld : ∀ i job, HeldBy w' i job → HeldBy w i job := by
    rintro i job ⟨t, ht, hjob⟩
    rcases task_of_started htasks ht with hold | hstart
    · exact ⟨t, hold, hjob⟩
    · rw [hstart] at hjob
      cases hjob
  refine ⟨fun i job h => hspares _ _ (Or.inl rfl) (hinv.held i job (hheld i job h)),
    fun i j a b ha hb => hinv.unique i j a b (hheld i a ha) (hheld j b hb), fun e he => ?_,
    by rw [hacc]; exact hinv.once⟩
  rw [hacc] at he
  rcases hinv.accepted e he with hsent | ⟨i, t, job, ht, hpc, hid⟩
  · exact Or.inl (hspares e _ (Or.inr rfl) hsent)
  · exact Or.inr ⟨i, t, job, task_started htasks ht, hpc, hid⟩

theorem sendInv_serve (hinv : SendInv w) (user : CurrentUser) (req : Request) :
    SendInv (w.serve settings user req) := by
  cases req with
  | dispatch c =>
      simp only [World.serve]
      cases hd : dispatchCampaign settings w.db user c w.now with
      | error e => exact hinv
      | ok db =>
          obtain rfl := dispatchCampaign_eq_ok hd
          exact hinv.spare (Spares.refl _) ⟨[c], rfl⟩ rfl
  | setStatus c st =>
      simp only [World.serve]
      cases hd : patchCampaignStatus w.db user c st with
      | error e => exact hinv
      | ok db =>
          obtain ⟨newStatus, -, rfl⟩ := patchCampaignStatus_eq_ok hd
          exact hinv.spare (Spares.refl _) ⟨[], by simp⟩ rfl
  | email c e r =>
      exact hinv.spare (spares_serveEmailRequest w.db user c e r) ⟨[], by simp [World.serve]⟩ rfl
  | selectAll c r =>
      exact hinv.spare (spares_bulkToggle w.db user c r) ⟨[], by simp [World.serve]⟩ rfl

/-- A sweep that finds no held email overdue takes nothing from anybody. -/
theorem sendInv_sweep (hinv : SendInv w)
    (hok : ∀ i job, HeldBy w i job → ¬ Overdue w job.email.id) :
    SendInv { w with db := (w.db.recoverStuckSending stuckSendingThreshold w.now).2 } := by
  have hrows : ∀ k, ¬ Overdue w k →
      (w.db.recoverStuckSending stuckSendingThreshold w.now).2.emailStatus k =
        w.db.emailStatus k := by
    intro k hk
    unfold OutreachDb.recoverStuckSending
    rw [OutreachDb.emailStatus_updateEmails, OutreachDb.emailStatus_eq]
    cases he : w.db.email? k with
    | none => rfl
    | some e =>
        have hnot : (e.status == .sending && (e.sendingSince.any fun since =>
            decide (since < w.now - seconds stuckSendingThreshold))) = false := by
          by_contra h
          simp only [Bool.not_eq_false, Bool.and_eq_true, beq_iff_eq, Option.any_eq_true,
            decide_eq_true_eq] at h
          exact hk ⟨e, he, h.1, h.2⟩
        simp only [Option.map_some, hnot, Bool.false_eq_true, if_false]
  have hkeep : ∀ k, w.db.emailStatus k = some .sent →
      (w.db.recoverStuckSending stuckSendingThreshold w.now).2.emailStatus k = some .sent := by
    intro k hk
    refine (hrows k ?_).trans hk
    rintro ⟨e, he, hs, -⟩
    rw [OutreachDb.emailStatus_eq, he, Option.map_some, hs] at hk
    cases hk
  refine ⟨fun i job h => (hrows _ (hok i job h)).trans (hinv.held i job h), hinv.unique,
    fun e he => ?_, hinv.once⟩
  rcases hinv.accepted e he with hsent | hq
  · exact Or.inl (hkeep e hsent)
  · exact Or.inr hq

/-- Every action that meets the condition keeps the invariant. -/
theorem sendInv_step (hinv : SendInv w) {a : Action} (hok : SweepsOnlyOrphans w a) {w' : World}
    (hs : w.step settings a = some w') : SendInv w' := by
  cases a with
  | tick span =>
      simp only [World.step] at hs
      split at hs
      · obtain rfl := Option.some.inj hs
        exact ⟨hinv.held, hinv.unique, hinv.accepted, hinv.once⟩
      · cases hs
  | request user req =>
      obtain rfl := Option.some.inj hs
      exact sendInv_serve hinv user req
  | poll c =>
      simp only [World.step] at hs
      split at hs
      · obtain rfl := Option.some.inj hs
        exact hinv.spare (Spares.refl _) ⟨[c], rfl⟩ rfl
      · cases hs
  | sweep =>
      obtain rfl := Option.some.inj hs
      exact sendInv_sweep hinv hok
  | revoke c =>
      obtain rfl := Option.some.inj hs
      exact ⟨hinv.held, hinv.unique, hinv.accepted, hinv.once⟩
  | move i event =>
      simp only [World.step] at hs
      split at hs
      · cases hs
      · next t ht => exact sendInv_resume hinv ht hs

end Actions

/--
**At most once.**  In every run in which no sweep finds an email overdue that a
living task still holds, every email is accepted by a mail server at most once.
-/
theorem at_most_once (settings : DispatchSettings) (now : Time) (db : OutreachDb)
    (provider : Nat → Option String) (as : List Action) (w : World)
    (hok : Meets (World.step settings) SweepsOnlyOrphans (.init now db provider) as)
    (hrun : run (World.step settings) (.init now db provider) as = some w) :
    ∀ e, w.accepted.count e ≤ 1 := by
  have hinit : SendInv (.init now db provider) := by
    have hnone : ∀ i job, ¬ HeldBy (.init now db provider) i job := by
      rintro i job ⟨t, ht, -⟩
      cases ht
    exact ⟨fun i job h => absurd h (hnone i job), fun i _ a _ h => absurd h (hnone i a),
      fun _ h => (nomatch h), List.nodup_nil⟩
  have hinv : SendInv w :=
    run_invariant (fun w a w' hi hok hs => sendInv_step hi hok hs) hinit hok hrun
  exact fun e => List.nodup_iff_count_le_one.mp hinv.once e

/-! ### A run in which one is accepted twice -/

/-- Take the slot, sleep out the longest gap, and send. -/
def waitAndSend (task : Nat) : List Action :=
  [.move task (.slot (seconds 90)), .tick (seconds 90), .move task .go] ++ sendAndFinish task

/-- Eight campaigns share the mailbox.  The eighth task has been waiting for 601
seconds when a sweep takes its email away; campaign 8 is paused and dispatched
again, the new task claims the email, and both send it. -/
def longQueueRun : List Action :=
  ((List.range 8).flatMap fun i => dispatchAndClaim i i) ++
  (.move 0 (.slot (seconds 30)) :: sendAndFinish 0) ++
  ((List.range 6).flatMap fun i => waitAndSend (i + 1)) ++
  [.move 7 (.slot (seconds 90)), .tick (seconds 61), .sweep,
    .request admin (.setStatus 8 "PAUSED")] ++ dispatchAndClaim 7 8 ++
  [.tick (seconds 29), .move 7 .go] ++ sendAndFinish 7 ++ waitAndSend 8

theorem accepted_twice :
    ∃ w, run (World.step plainSettings) (.init (seconds 1) (sharedMailbox 8) fun _ => none)
      longQueueRun = some w ∧ ¬ ∀ e, w.accepted.count e ≤ 1 := by
  have h : (run (World.step plainSettings)
      (.init (seconds 1) (sharedMailbox 8) fun _ => none) longQueueRun).map World.accepted =
        some [1, 2, 3, 4, 5, 6, 7, 8, 8] := by decide +kernel
  obtain ⟨w, hw, hacc⟩ := Option.map_eq_some_iff.mp h
  refine ⟨w, hw, fun hle => ?_⟩
  have := hle 8
  rw [hacc] at this
  revert this
  decide

/-- Two campaigns share the mailbox.  The second task has been queued for eight minutes when the
first sweep runs, which leaves its email alone, and is done at the second. -/
def twoCampaignsRun : List Action :=
  dispatchAndClaim 0 0 ++ dispatchAndClaim 1 1 ++ (.move 0 (.slot (seconds 30)) :: sendAndFinish 0) ++
    [.tick (seconds 480), .sweep, .tick (seconds 180), .move 1 (.slot (seconds 90))] ++
    sendAndFinish 1 ++ [.tick (seconds 601), .sweep]

theorem two_campaigns_once :
    ∃ w, run (World.step plainSettings) (.init (seconds 1) (sharedMailbox 2) fun _ => none)
      twoCampaignsRun = some w ∧ w.accepted = [1, 2] ∧ ∀ e, w.accepted.count e ≤ 1 := by
  have h : (run (World.step plainSettings)
      (.init (seconds 1) (sharedMailbox 2) fun _ => none) twoCampaignsRun).map World.accepted =
        some [1, 2] := by decide +kernel
  obtain ⟨w, hw, hacc⟩ := Option.map_eq_some_iff.mp h
  exact ⟨w, hw, hacc, at_most_once plainSettings (seconds 1) (sharedMailbox 2) (fun _ => none)
    twoCampaignsRun w (by decide +kernel) hw⟩

end GovCrawler
