/-
Whether the daily limit of a credential is kept.

`resolve_credential_pool` drops a credential whose limit is reached by the emails marked
SENT that day.  An email that a task then takes the credential for is marked after the wait
for the slot and an exchange with the mail server, and until then it counts for nobody.  So
the tasks that come by in the meantime find the same room.

`daily_cap`: no more emails are marked SENT with a credential in one UTC day than its limit,
in every run in which a task takes it only where the emails marked that day and those in the
hands of tasks are together below the limit.  `limit_exceeded` has two tasks that come by
before either has sent.  The invariant is that sum; an email that is in hand at midnight
still counts in it.
-/
import Mathlib.Data.Finset.Card
import GovCrawler.Outreach.Secrets
import GovCrawler.Outreach.DispatchSystem

namespace GovCrawler

open Relational StoreProgram Prog DispatchM Transition

/-! ### What is counted -/

/-- An email has been marked SENT. -/
structure Mark where
  emailId : Nat
  credentialId : Nat
  sentAt : Time
  deriving DecidableEq, Repr

def utcDay (t : Time) : Nat := t / days 1

/-- The emails marked SENT with the credential on that day. -/
def sentOn (marks : List Mark) (credentialId day : Nat) : Finset Nat :=
  ((marks.filter fun m => m.credentialId == credentialId && utcDay m.sentAt == day).map
    Mark.emailId).toFinset

/-- The marks that the table shows. -/
def OutreachDb.marks (db : OutreachDb) : List Mark :=
  db.campaignEmails.rows.filterMap fun e =>
    if e.status = .sent then e.credentialId.bind fun c => e.sentAt.map fun t => ⟨e.id, c, t⟩
    else none

/-- `mark_email_sent` runs where `quit` has succeeded. -/
def World.mark? (w : World) : Action → Option Mark
  | .move i (.smtp (.ok _)) =>
      match w.tasks[i]? with
      | some ⟨_, .quitting job⟩ => some ⟨job.email.id, job.cred.id, w.now⟩
      | _ => none
  | _ => none

/-- The system with a note of every email that was marked. -/
structure Marked where
  world : World
  marks : List Mark

namespace Marked

def step (settings : DispatchSettings) (s : Marked) (a : Action) : Option Marked :=
  (s.world.step settings a).map fun world =>
    { world, marks := s.marks ++ (s.world.mark? a).toList }

/-- Emails that were marked before the start are on record. -/
def init (now : Time) (db : OutreachDb) (provider : Nat → Option String) : Marked where
  world := .init now db provider
  marks := db.marks

end Marked

/-- The note is the write. -/
theorem markEmailSent_of_mark {settings : DispatchSettings} {w w' : World} {a : Action} {m : Mark}
    (hmark : w.mark? a = some m) (h : w.step settings a = some w') :
    w'.db = w.db.markEmailSent m.emailId (some m.credentialId) m.sentAt := by
  unfold World.mark? at hmark
  split at hmark
  · rename_i i x
    split at hmark
    · rename_i campaignId job hget
      obtain rfl := Option.some.inj hmark
      dsimp only [World.step] at h
      rw [hget] at h
      obtain rfl := Option.some.inj h
      rfl
    · cases hmark
  · cases hmark

/-! ### Emails in hand -/

/-- The task has an email in hand for this credential. -/
def Pc.uses (credentialId : Nat) (pc : Pc) : Bool := pc.job?.any fun job => job.cred.id == credentialId

/-- How many emails tasks have in hand for the credential. -/
def World.inHand (w : World) (credentialId : Nat) : Nat :=
  w.tasks.countP fun t => t.pc.uses credentialId

theorem Pc.uses_of_none {pc : Pc} (h : pc.job? = none) (c : Nat) : pc.uses c = false := by
  rw [Pc.uses, h]
  rfl

theorem inHand_goto {w w' : World} {i : Nat} {t : DispatchTask} {pc : Pc}
    (ht : w.tasks[i]? = some t) (htasks : w'.tasks = (w.goto i pc).tasks) (c : Nat) :
    w'.inHand c + (if t.pc.uses c then 1 else 0) = w.inHand c + (if pc.uses c then 1 else 0) := by
  obtain ⟨hlt, hget⟩ := List.getElem?_eq_some_iff.mp ht
  have hset : w'.tasks = w.tasks.set i { t with pc } := by
    rw [htasks]
    show w.tasks.modify i _ = _
    rw [List.modify_eq_set_getElem?, ht]
    rfl
  have hold : (if t.pc.uses c then 1 else 0) ≤ w.inHand c := by
    have h := List.boole_getElem_le_countP (p := fun t : DispatchTask => t.pc.uses c) hlt
    rwa [hget] at h
  unfold World.inHand at hold ⊢
  rw [hset, List.countP_set hlt, hget]
  dsimp only
  omega

theorem inHand_started {w w' : World} (fresh : List Nat)
    (h : w'.tasks = w.tasks ++ fresh.map fun c => ⟨c, .start⟩) (c : Nat) :
    w'.inHand c = w.inHand c := by
  unfold World.inHand
  rw [h, List.countP_append, List.countP_map]
  have hnone : fresh.countP ((fun t : DispatchTask => t.pc.uses c) ∘ fun c => ⟨c, .start⟩) = 0 :=
    List.countP_eq_zero.mpr fun a _ => by simp [Pc.uses, Pc.job?]
  rw [hnone]
  rfl

/-- What a segment leaves in the hands of its task: nothing, what it had, or what it has
just taken. -/
structure World.Hands (settings : DispatchSettings) (w w' : World) (i campaignId : Nat)
    (pc : Pc) (event : Event) (pc' : Pc) : Prop where
  tasks : w'.tasks = (w.goto i pc').tasks
  now : w'.now = w.now
  takes : pc'.job? = none ∨ pc'.job? = pc.job? ∨ ∃ index job, pc = .head index ∧ event = .go ∧
    pc' = .waiting job ∧
    (loopHead settings campaignId index w.now ⟨w.db, []⟩ []).1 = .ok (.send job)
  quits : ∀ job, pc = .quitting job → pc'.job? = none

section Hands

variable {settings : DispatchSettings} {w w' : World} {i c : Nat} {pc : Pc} {event : Event}

/-- The task goes on with the job it has. -/
theorem World.Hands.stay {pc' : Pc} (htasks : w'.tasks = (w.goto i pc').tasks)
    (hnow : w'.now = w.now) (hjob : pc'.job? = pc.job?) (hquit : ∀ job, pc ≠ .quitting job) :
    w.Hands settings w' i c pc event pc' :=
  ⟨htasks, hnow, Or.inr (Or.inl hjob), fun job h => absurd h (hquit job)⟩

/-- The task has nothing in hand any more. -/
theorem World.Hands.idle {pc' : Pc} (htasks : w'.tasks = (w.goto i pc').tasks)
    (hnow : w'.now = w.now) (hjob : pc'.job? = none) : w.Hands settings w' i c pc event pc' :=
  ⟨htasks, hnow, Or.inl hjob, fun _ _ => hjob⟩

theorem hands_finish (job : Job) (sent : Except Exc Unit) (cause : Cause) :
    ∃ pc', w.Hands settings (w.finish settings i job sent cause) i c pc event pc' :=
  ⟨_, .idle rfl rfl (Pc.job?_afterSend job _)⟩

theorem hands_authenticate {job : Job} (hjob : pc.job? = some job)
    (hquit : ∀ job, pc ≠ .quitting job) :
    ∃ pc', w.Hands settings (w.authenticate settings i job) i c pc event pc' := by
  unfold World.authenticate
  split
  · exact ⟨_, .stay rfl rfl hjob.symm hquit⟩
  · split
    · exact ⟨_, .stay rfl rfl hjob.symm hquit⟩
    · exact ⟨_, .stay rfl rfl hjob.symm hquit⟩
    · exact hands_finish job _ _

theorem hands_receiveTokens {job : Job} (hjob : pc.job? = some job)
    (hquit : ∀ job, pc ≠ .quitting job) (refreshToken : String) (reply : TokenReply) :
    ∃ pc', w.Hands settings (w.receiveTokens settings i job refreshToken reply) i c pc event
      pc' := by
  unfold World.receiveTokens
  split
  · exact ⟨_, .stay rfl rfl hjob.symm hquit⟩
  · exact hands_finish job _ _

theorem hands_resume (h : w.resume settings i c pc event = some w') :
    ∃ pc', w.Hands settings w' i c pc event pc' := by
  cases World.resumes_of_resume h with
  | start => exact ⟨_, .idle rfl rfl (Pc.job?_afterPrologue _)⟩
  | @send index job hrun =>
      exact ⟨.waiting job, rfl, rfl, Or.inr (Or.inr ⟨index, job, rfl, rfl, rfl, hrun⟩),
        fun _ h => by cases h⟩
  | stop => exact ⟨.stopped, .idle rfl rfl rfl⟩
  | @enterSlot job => exact ⟨.connecting job, .stay rfl rfl rfl (by simp)⟩
  | sleep => exact ⟨_, .stay rfl rfl rfl (by simp)⟩
  | @wakeUp job => exact ⟨.connecting job, .stay rfl rfl rfl (by simp)⟩
  | connected => exact hands_authenticate rfl (by simp)
  | granted => exact ⟨_, .stay rfl rfl rfl (by simp)⟩
  | refused => exact ⟨_, .stay rfl rfl rfl (by simp)⟩
  | requestLost => exact ⟨_, .stay rfl rfl rfl (by simp)⟩
  | replied => exact hands_receiveTokens rfl (by simp) _ _
  | replyLost => exact hands_receiveTokens rfl (by simp) _ _
  | authenticated => exact ⟨_, .stay rfl rfl rfl (by simp)⟩
  | @accepted job =>
      exact ⟨.quitting job, rfl, rfl, Or.inr (Or.inl rfl), fun _ h => by cases h⟩
  | notConnected => exact hands_finish _ _ _
  | notAuthenticated => exact hands_finish _ _ _
  | notAccepted => exact hands_finish _ _ _
  | quit => exact hands_finish _ _ _

end Hands

/-! ### Limits -/

/-- The stored limit of a credential, if there is such a credential. -/
def OutreachDb.limit? (db : OutreachDb) (credentialId : Nat) : Option (Option Int) :=
  db.viewed SMTPCredential.dailySendLimit credentialId

/-- The round robin hands out copies with the limit of their row. -/
theorem limit?_of_chosen {settings : DispatchSettings} {db : OutreachDb} {c index : Nat}
    {now : Time} {job : Job} (h : Chosen settings c now db index job) :
    db.limit? job.cred.id = some job.cred.dailySendLimit := by
  obtain ⟨creds, hpool, hnext⟩ := h
  have hmem := mem_of_getNextCredential hnext
  unfold OutreachDb.pool at hpool
  cases hp : db.poolCandidates settings.keys (db.getCampaignCredentialIds c) now with
  | error e =>
      rw [hp] at hpool
      cases hpool
  | ok all =>
      rw [hp] at hpool
      obtain rfl := Except.ok.inj hpool
      obtain ⟨row, hrow, -, hdict⟩ := OutreachDb.mem_poolCandidates hp (List.mem_filter.mp hmem).1
      have hrow' : db.credential? row.id = some row := hrow
      rw [credentialSendDict_eq_ok hdict]
      unfold OutreachDb.limit? OutreachDb.viewed
      dsimp only
      rw [hrow']
      rfl

theorem limit?_updateCredentialTokens (keys : EncKeys) (db : OutreachDb) (i : Nat)
    (accessToken refreshToken : String) (expiresAt : Option Time) (k : Nat) :
    (db.updateCredentialTokens keys i accessToken refreshToken expiresAt).limit? k = db.limit? k :=
  viewed_updateCredentialWhere SMTPCredential.dailySendLimit db i _ _ (by intro _; rfl) k

section Limits

variable {settings : DispatchSettings} {w w' : World}

theorem limit?_finish (i : Nat) (job : Job) (sent : Except Exc Unit) (cause : Cause) (k : Nat) :
    (w.finish settings i job sent cause).db.limit? k = w.db.limit? k :=
  viewed_trySend SMTPCredential.dailySendLimit (fun _ => rfl) (fun _ _ => rfl) settings job w.now
    sent w.db k

theorem limit?_authenticate (i : Nat) (job : Job) (k : Nat) :
    (w.authenticate settings i job).db.limit? k = w.db.limit? k := by
  unfold World.authenticate
  split
  · rfl
  · split
    · rfl
    · rfl
    · exact limit?_finish i job _ _ k

theorem limit?_receiveTokens (i : Nat) (job : Job) (refreshToken : String) (reply : TokenReply)
    (k : Nat) :
    (w.receiveTokens settings i job refreshToken reply).db.limit? k = w.db.limit? k := by
  unfold World.receiveTokens
  split
  · exact limit?_updateCredentialTokens settings.keys w.db job.cred.id _ _ _ k
  · exact limit?_finish i job _ _ k

theorem limit?_resume {i c : Nat} {pc : Pc} {event : Event}
    (h : w.resume settings i c pc event = some w') (k : Nat) :
    w'.db.limit? k = w.db.limit? k := by
  cases World.resumes_of_resume h with
  | start =>
      exact viewed_congr _ (sameCredentials_prologue settings w.db c w.now ⟨w.db, []⟩ [] rfl) k
  | @send index | @stop index =>
      exact viewed_congr _ (sameCredentials_loopHead settings w.db c w.now index ⟨w.db, []⟩ [] rfl) k
  | connected => exact limit?_authenticate i _ k
  | replied | replyLost => exact limit?_receiveTokens i _ _ _ k
  | notConnected | notAuthenticated | notAccepted | quit => exact limit?_finish i _ _ _ k
  | enterSlot | sleep | wakeUp | granted | refused | requestLost | authenticated | accepted => rfl

end Limits

/-! ### What can go wrong -/

/-- The credential that the round robin of a task comes to. -/
def World.comesTo (settings : DispatchSettings) (w : World) (campaignId index : Nat) :
    Option Credential :=
  match w.db.pool settings campaignId w.now with
  | .error _ => none
  | .ok creds => (getNextCredential creds index).map Prod.fst

/-- An iteration goes on to claim: `get_campaign` finds the campaign, running or completed. -/
def OutreachDb.isLive (db : OutreachDb) (campaignId : Nat) : Bool :=
  (db.getCampaign campaignId none false).any fun c => c.status == .running || c.status == .completed

/-- Where a task is at the top of an iteration. -/
def Pc.index? : Pc → Option Nat
  | .head index => some index
  | _ => none

namespace Marked

/-- Counting what tasks have in hand, the credential is below the limit today. -/
def HasRoom (s : Marked) (credentialId : Nat) (limit : Int) : Prop :=
  ((sentOn s.marks credentialId (utcDay s.world.now)).card + s.world.inHand credentialId : Int) <
    limit

/-- A task of a live campaign with an email to send comes to a credential that has room for
it. -/
def TakesWithinLimit (settings : DispatchSettings) (s : Marked) : Action → Prop
  | .move i .go => ∀ t ∈ s.world.tasks[i]?, ∀ index ∈ t.pc.index?,
      s.world.db.isLive t.campaignId = true → s.world.db.hasQueuedEmail t.campaignId = true →
      ∀ cred ∈ s.world.comesTo settings t.campaignId index, ∀ limit ∈ cred.dailySendLimit,
        1 ≤ limit → s.HasRoom cred.id limit
  | _ => True

instance (settings : DispatchSettings) (s : Marked) : DecidablePred (s.TakesWithinLimit settings)
  | .move _ .go => by
      unfold TakesWithinLimit HasRoom
      infer_instance
  | .move _ (.slot _) | .move _ (.smtp _) | .move _ (.grant _ _ _) | .move _ (.refuse _)
  | .move _ (.unreachable _) | .tick _ | .request _ _ | .poll _ | .sweep | .revoke _ =>
      .isTrue trivial

/-- **The invariant**: what was marked today and what is in hand stay within the limit. -/
structure WithinLimit (credentialId : Nat) (limit : Int) (s : Marked) : Prop where
  stored : s.world.db.limit? credentialId = some (some limit)
  past : ∀ m ∈ s.marks, m.sentAt ≤ s.world.now
  within : ∀ day, ((sentOn s.marks credentialId day).card : Int) ≤ limit
  room : ((sentOn s.marks credentialId (utcDay s.world.now)).card +
    s.world.inHand credentialId : Int) ≤ limit

variable {settings : DispatchSettings} {s s' : Marked} {c : Nat} {limit : Int}

theorem sentOn_append (marks more : List Mark) (c day : Nat) :
    sentOn (marks ++ more) c day = sentOn marks c day ∪ sentOn more c day := by
  unfold sentOn
  rw [List.filter_append, List.map_append, List.toFinset_append]

theorem sentOn_single_of_ne {m : Mark} {c day : Nat} (h : m.credentialId ≠ c) :
    sentOn [m] c day = ∅ := by
  simp [sentOn, h]

theorem sentOn_single_of_day_ne {m : Mark} {c day : Nat} (h : utcDay m.sentAt ≠ day) :
    sentOn [m] c day = ∅ := by
  simp [sentOn, h]

theorem card_sentOn_single (m : Mark) (c day : Nat) : (sentOn [m] c day).card ≤ 1 := by
  unfold sentOn
  refine (List.toFinset_card_le _).trans ?_
  rw [List.length_map]
  exact List.length_filter_le _ _

/-- On a day that has not come nothing was marked. -/
theorem sentOn_eq_empty {marks : List Mark} {now : Time} (hpast : ∀ m ∈ marks, m.sentAt ≤ now)
    {c day : Nat} (h : utcDay now < day) : sentOn marks c day = ∅ := by
  have hnone : marks.filter (fun m => m.credentialId == c && utcDay m.sentAt == day) = [] := by
    refine List.filter_eq_nil_iff.mpr fun m hm hp => ?_
    simp only [Bool.and_eq_true, beq_iff_eq] at hp
    have hle : utcDay m.sentAt ≤ utcDay now := Nat.div_le_div_right (hpast m hm)
    rw [hp.2] at hle
    exact absurd hle (Nat.not_le.mpr h)
  unfold sentOn
  rw [hnone]
  rfl

/-- Time passes, and a new day may begin. -/
theorem WithinLimit.tick (h : s.WithinLimit c limit) {w : World} (hnow : s.world.now ≤ w.now)
    (hlimit : w.db.limit? c = s.world.db.limit? c) (hhand : w.inHand c = s.world.inHand c) :
    WithinLimit c limit ⟨w, s.marks⟩ where
  stored := hlimit.trans h.stored
  past m hm := (h.past m hm).trans hnow
  within := h.within
  room := by
    have hroom := h.room
    dsimp only
    rw [hhand]
    by_cases hday : utcDay w.now = utcDay s.world.now
    · rwa [hday]
    · have hlt : utcDay s.world.now < utcDay w.now :=
        Nat.lt_of_le_of_ne (Nat.div_le_div_right hnow) (Ne.symm hday)
      rw [sentOn_eq_empty h.past hlt, Finset.card_empty]
      omega

/-- A step without a mark, after which no more is in hand than there is room for. -/
theorem WithinLimit.unmarked (h : s.WithinLimit c limit) {w : World} (hnow : w.now = s.world.now)
    (hlimit : w.db.limit? c = s.world.db.limit? c)
    (hhand : w.inHand c ≤ s.world.inHand c ∨
      w.inHand c = s.world.inHand c + 1 ∧ s.HasRoom c limit) :
    WithinLimit c limit ⟨w, s.marks⟩ where
  stored := hlimit.trans h.stored
  past m hm := by
    rw [hnow]
    exact h.past m hm
  within := h.within
  room := by
    have hroom := h.room
    dsimp only
    rw [hnow]
    rcases hhand with hle | ⟨heq, hbelow⟩
    · omega
    · unfold HasRoom at hbelow
      omega

/-- An email that was in hand is marked. -/
theorem WithinLimit.marked (h : s.WithinLimit c limit) {w : World} {m : Mark}
    (hnow : w.now = s.world.now) (hlimit : w.db.limit? c = s.world.db.limit? c)
    (hat : m.sentAt = s.world.now)
    (hhand : w.inHand c + (if m.credentialId = c then 1 else 0) = s.world.inHand c) :
    WithinLimit c limit ⟨w, s.marks ++ [m]⟩ := by
  have hcard : ∀ day, (sentOn (s.marks ++ [m]) c day).card ≤
      (sentOn s.marks c day).card + (sentOn [m] c day).card := fun day => by
    rw [sentOn_append]
    exact Finset.card_union_le _ _
  have hroom := h.room
  have hone := card_sentOn_single m c (utcDay s.world.now)
  have htoday := hcard (utcDay s.world.now)
  have hmine : ((sentOn (s.marks ++ [m]) c (utcDay s.world.now)).card + w.inHand c : Int) ≤
      limit := by
    by_cases hc : m.credentialId = c
    · rw [if_pos hc] at hhand
      omega
    · rw [if_neg hc] at hhand
      rw [sentOn_single_of_ne hc, Finset.card_empty] at htoday
      omega
  refine ⟨hlimit.trans h.stored, fun n hn => ?_, fun day => ?_, ?_⟩
  · dsimp only at hn ⊢
    rw [hnow]
    rcases List.mem_append.mp hn with hold | hnew
    · exact h.past n hold
    · rw [List.mem_singleton.mp hnew, hat]
  · by_cases hday : utcDay s.world.now = day
    · subst hday
      dsimp only
      omega
    · have hother := hcard day
      rw [sentOn_single_of_day_ne (by rw [hat]; exact hday), Finset.card_empty] at hother
      have hwithin := h.within day
      dsimp only
      omega
  · dsimp only
    rw [hnow]
    exact hmine

/-- What a task takes a credential for, there is room for. -/
theorem hasRoom_of_send (h : s.WithinLimit c limit) (hpos : 1 ≤ limit) {i campaignId index : Nat}
    (ht : s.world.tasks[i]? = some ⟨campaignId, .head index⟩) {job : Job} (hjob : job.cred.id = c)
    (hrun : (loopHead settings campaignId index s.world.now ⟨s.world.db, []⟩ []).1 =
      .ok (.send job)) (hok : s.TakesWithinLimit settings (.move i .go)) : s.HasRoom c limit := by
  have hchosen := loopHead_chosen settings campaignId s.world.now index ⟨s.world.db, []⟩ hrun
  have hlimit : job.cred.dailySendLimit = some limit := by
    have hstored := h.stored
    rw [← hjob, limit?_of_chosen hchosen] at hstored
    exact Option.some.inj hstored
  obtain ⟨hlive, hqueued⟩ : s.world.db.isLive campaignId = true ∧
      s.world.db.hasQueuedEmail campaignId = true := by
    rcases loopHead_cases settings campaignId index s.world.now ⟨s.world.db, []⟩ [] with
      hidle | ⟨e, -, hclaims⟩
    · exact absurd hrun (hidle.stops job)
    · exact ⟨hclaims.1, hclaims.2.1⟩
  obtain ⟨creds, hpool, hnext⟩ := hchosen
  have hcomes : s.world.comesTo settings campaignId index = some job.cred := by
    unfold World.comesTo
    have hpool : s.world.db.pool settings campaignId s.world.now = .ok creds := hpool
    rw [hpool]
    dsimp only
    rw [hnext]
    rfl
  rw [← hjob]
  exact hok _ ht index rfl hlive hqueued job.cred hcomes limit hlimit hpos

/-- A segment of a task. -/
theorem withinLimit_move (h : s.WithinLimit c limit) (hpos : 1 ≤ limit) {i : Nat} {event : Event}
    {t : DispatchTask} {w : World} (ht : s.world.tasks[i]? = some t)
    (hok : s.TakesWithinLimit settings (.move i event))
    (hs : s.world.resume settings i t.campaignId t.pc event = some w) :
    WithinLimit c limit ⟨w, s.marks ++ (s.world.mark? (.move i event)).toList⟩ := by
  obtain ⟨pc', hands⟩ := hands_resume hs
  have hcount := inHand_goto ht hands.tasks c
  have hlimit := limit?_resume hs c
  by_cases hquit : ∃ job, t.pc = .quitting job
  · obtain ⟨job, hpc⟩ := hquit
    obtain ⟨campaignId, pc⟩ := t
    obtain rfl : pc = .quitting job := hpc
    cases World.resumes_of_resume hs with
    | @quit _ x =>
        have hmark : s.world.mark? (.move i (.smtp (.ok x))) =
            some ⟨job.email.id, job.cred.id, s.world.now⟩ := by
          unfold World.mark?
          dsimp only
          rw [ht]
        rw [hmark]
        refine h.marked hands.now hlimit rfl ?_
        rw [Pc.uses_of_none (hands.quits job rfl)] at hcount
        simp only [Pc.uses, Pc.job?, Option.any_some, beq_iff_eq, Bool.false_eq_true,
          if_false] at hcount
        exact hcount
  · have hmark : s.world.mark? (.move i event) = none := by
      unfold World.mark?
      split
      · rename_i heq
        obtain ⟨rfl, rfl⟩ := Action.move.inj heq
        rw [ht]
        split
        · rename_i heq
          exact absurd ⟨_, congrArg DispatchTask.pc (Option.some.inj heq)⟩ hquit
        · rfl
      · rfl
    rw [hmark, Option.toList_none, List.append_nil]
    refine h.unmarked hands.now hlimit ?_
    rcases hands.takes with hnone | hsame | ⟨index, job, hpc, rfl, rfl, hrun⟩
    · rw [Pc.uses_of_none hnone] at hcount
      exact Or.inl (by simp at hcount; omega)
    · have huses : pc'.uses c = t.pc.uses c := by rw [Pc.uses, Pc.uses, hsame]
      rw [huses] at hcount
      exact Or.inl (by omega)
    · obtain ⟨campaignId, pc⟩ := t
      obtain rfl : pc = .head index := hpc
      by_cases hc : job.cred.id = c
      · refine Or.inr ⟨?_, hasRoom_of_send h hpos ht hc hrun hok⟩
        simpa [Pc.uses, Pc.job?, hc] using hcount
      · refine Or.inl (Nat.le_of_eq ?_)
        simpa [Pc.uses, Pc.job?, hc] using hcount

/-- Requests start tasks at most. -/
theorem withinLimit_serve (h : s.WithinLimit c limit) (user : CurrentUser) (req : Request) :
    WithinLimit c limit ⟨s.world.serve settings user req, s.marks⟩ := by
  have hdone : ∀ (w : World), w.now = s.world.now →
      w.db.smtpCredentials = s.world.db.smtpCredentials → w.inHand c = s.world.inHand c →
      WithinLimit c limit ⟨w, s.marks⟩ := fun w hnow hdb hhand =>
    h.unmarked hnow (viewed_congr _ hdb c) (Or.inl (Nat.le_of_eq hhand))
  cases req with
  | dispatch campaignId =>
      unfold World.serve
      dsimp only
      split
      · exact h
      · rename_i db hd
        obtain rfl := dispatchCampaign_eq_ok hd
        exact hdone _ rfl rfl (inHand_started [campaignId] rfl c)
  | setStatus campaignId status =>
      unfold World.serve
      dsimp only
      split
      · exact h
      · rename_i db hd
        obtain ⟨newStatus, -, rfl⟩ := patchCampaignStatus_eq_ok hd
        exact hdone _ rfl rfl rfl
  | email campaignId emailId r =>
      exact hdone _ rfl (smtpCredentials_serveEmailRequest s.world.db user campaignId emailId r) rfl
  | selectAll campaignId r =>
      exact hdone _ rfl (smtpCredentials_bulkToggle s.world.db user campaignId r) rfl

/-- Every step that meets the condition keeps the invariant. -/
theorem withinLimit_step (h : s.WithinLimit c limit) (hpos : 1 ≤ limit) {a : Action}
    (hok : s.TakesWithinLimit settings a) (hs : s.step settings a = some s') :
    s'.WithinLimit c limit := by
  obtain ⟨w, hw, rfl⟩ := Option.map_eq_some_iff.mp hs
  -- only a segment of a task marks
  have hunmarked : ∀ {w : World}, WithinLimit c limit ⟨w, s.marks⟩ →
      WithinLimit c limit ⟨w, s.marks ++ []⟩ := fun h => by rwa [List.append_nil]
  cases a with
  | move i event =>
      dsimp only [World.step] at hw
      split at hw
      · cases hw
      · rename_i t ht
        exact withinLimit_move h hpos ht hok hw
  | tick span =>
      dsimp only [World.step] at hw
      split at hw
      · obtain rfl := Option.some.inj hw
        exact hunmarked (h.tick (Nat.le_add_right _ _) rfl rfl)
      · cases hw
  | request user req =>
      obtain rfl := Option.some.inj hw
      exact hunmarked (withinLimit_serve h user req)
  | poll campaignId =>
      dsimp only [World.step] at hw
      split at hw
      · obtain rfl := Option.some.inj hw
        exact hunmarked (h.unmarked rfl rfl
          (Or.inl (Nat.le_of_eq (inHand_started [campaignId] rfl c))))
      · cases hw
  | sweep =>
      obtain rfl := Option.some.inj hw
      exact hunmarked (h.unmarked rfl rfl (Or.inl (Nat.le_refl _)))
  | revoke credentialId =>
      obtain rfl := Option.some.inj hw
      exact hunmarked (h.unmarked rfl rfl (Or.inl (Nat.le_refl _)))

end Marked

/--
**The daily cap**, where tasks take a credential within its limit: no more emails are marked
SENT with it on any one day than its limit.
-/
theorem daily_cap (settings : DispatchSettings) (now : Time) (db : OutreachDb)
    (provider : Nat → Option String) (as : List Action) {s : Marked} (c : Nat) (limit : Int)
    (hlimit : db.limit? c = some (some limit)) (hpos : 1 ≤ limit)
    (hpast : ∀ m ∈ db.marks, m.sentAt ≤ now)
    (hsofar : ∀ day, ((sentOn db.marks c day).card : Int) ≤ limit)
    (hok : Meets (Marked.step settings) (Marked.TakesWithinLimit settings)
      (.init now db provider) as)
    (hrun : run (Marked.step settings) (.init now db provider) as = some s) (day : Nat) :
    ((sentOn s.marks c day).card : Int) ≤ limit := by
  have hstart : (Marked.init now db provider).WithinLimit c limit :=
    ⟨hlimit, hpast, hsofar, by
      have htoday := hsofar (utcDay now)
      show ((sentOn db.marks c (utcDay now)).card + (0 : Nat) : Int) ≤ limit
      omega⟩
  exact (run_invariant (fun _ _ _ h hok hs => Marked.withinLimit_step h hpos hok hs) hstart hok
    hrun).within day

/-! ### A mailbox that may send one email a day -/

def oneADay (n : Nat) : OutreachDb :=
  (sharedMailbox n).updateCredentialWhere 1 fun c => { c with dailySendLimit := some 1 }

/-- Two campaigns are dispatched.  The second task comes by when the first has sent. -/
def oneAfterTheOther : List Action :=
  [.request admin (.dispatch 1), .request admin (.dispatch 2), .move 0 .go, .move 0 .go,
    .move 0 (.slot (seconds 30))] ++ sendAndFinish 0 ++ [.move 1 .go]

theorem one_sent_that_day :
    ∃ s, run (Marked.step plainSettings) (.init (seconds 1) (oneADay 2) fun _ => none)
        oneAfterTheOther = some s ∧ sentOn s.marks 1 0 = {1} ∧
      ∀ day, ((sentOn s.marks 1 day).card : Int) ≤ 1 := by
  have h : (run (Marked.step plainSettings) (.init (seconds 1) (oneADay 2) fun _ => none)
      oneAfterTheOther).map (fun s => s.marks) = some [⟨1, 1, seconds 1⟩] := by
    decide +kernel
  obtain ⟨s, hs, hmarks⟩ := Option.map_eq_some_iff.mp h
  have hnone : (oneADay 2).marks = [] := by decide +kernel
  refine ⟨s, hs, by rw [hmarks]; decide +kernel, daily_cap plainSettings (seconds 1) (oneADay 2)
    (fun _ => none) oneAfterTheOther 1 1 (by decide +kernel) (by decide) ?_ ?_ (by decide +kernel)
    hs⟩
  · rw [hnone]
    exact fun _ h => nomatch h
  · rw [hnone]
    exact fun _ => by simp [sentOn]

/-- Both tasks come by before either has sent. -/
def bothBefore : List Action :=
  dispatchAndClaim 0 0 ++ dispatchAndClaim 1 1 ++ .move 0 (.slot (seconds 30)) :: sendAndFinish 0 ++
  [.move 1 (.slot (seconds 30)), .tick (seconds 30), .move 1 .go] ++ sendAndFinish 1

/-- Two emails are marked SENT that day, one more than the limit. -/
theorem limit_exceeded :
    (oneADay 2).limit? 1 = some (some 1) ∧ (oneADay 2).marks = [] ∧
      ∃ s, run (Marked.step plainSettings) (.init (seconds 1) (oneADay 2) fun _ => none)
          bothBefore = some s ∧ sentOn s.marks 1 0 = {1, 2} ∧
        ¬ ((sentOn s.marks 1 0).card : Int) ≤ 1 := by
  have h : (run (Marked.step plainSettings) (.init (seconds 1) (oneADay 2) fun _ => none)
      bothBefore).map (fun s => s.marks) = some [⟨1, 1, seconds 1⟩, ⟨2, 1, seconds 31⟩] := by
    decide +kernel
  obtain ⟨s, hs, hmarks⟩ := Option.map_eq_some_iff.mp h
  exact ⟨by decide +kernel, by decide +kernel, s, hs, by rw [hmarks]; decide +kernel,
    by rw [hmarks]; decide +kernel⟩

end GovCrawler
