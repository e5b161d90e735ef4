/-
The gap between two sends through one credential: `_wait_for_credential_slot` in
`cloud/api/dispatcher.py`.

The tasks of all campaigns of a process go through it before they send, and the task of a campaign
may be cancelled wherever it waits.  Keys are credentials; `_credential_locks` and
`_credential_last_sent` have no entry for one that was not used.

`credential_sends_spaced`: whatever campaigns share a credential, it is never used faster than
every half minute, and nobody waits for it forever.
-/
import GovCrawler.Lib.PacedGate

namespace GovCrawler

open PacedGate Transition

/-- `random.uniform(30, 90)`. -/
abbrev SendGap : Type := { gap : ℚ // 30 ≤ gap ∧ gap ≤ 90 }

/-- `_wait_for_credential_slot`: what is stored is when the last send was. -/
def waitForCredentialSlot : Pacing SendGap where
  due last gap := last.map fun sent => sent + gap.val
  stamp now := now

/-- The sends of a process, by credential. -/
abbrev Sends : Type := Gates Nat

namespace Sends

def step (resolution : ℚ) : Sends → GatesAction Nat SendGap → Option Sends :=
  Gates.step waitForCredentialSlot resolution

/-- A process starts, at some time. -/
def start (clock : ℚ) : Sends := { clock }

end Sends

theorem waitForCredentialSlot_keeps : waitForCredentialSlot.Keeps 30 :=
  fun time gap => ⟨time + gap.val, rfl, by linarith [gap.property.1]⟩

/--
**A credential is never used too fast.**  Over every run, of any number of campaigns, with the task
of any of them cancelled wherever it waits: the sends through a credential come in the order in
which they were asked for, each at least thirty seconds after the one before it, less the
resolution of the clock.  And one that waits and was not cancelled can still come.
-/
theorem credential_sends_spaced {resolution clock : ℚ} {as : List (GatesAction Nat SendGap)}
    {s : Sends} (hresolution : 0 ≤ resolution)
    (hrun : run (Sends.step resolution) (Sends.start clock) as = some s) (credentialId : Nat) :
    (s.gate credentialId).passed.Pairwise (After 30 resolution) ∧
      ∀ ticket, Wants (s.gate credentialId) ticket →
        ∃ bs, (∀ b ∈ bs, ∀ k action, b = .on k action → k = credentialId ∧ action.Serves) ∧
          ∃ t, run (Sends.step resolution) s bs = some t ∧
            ticket ∈ (t.gate credentialId).passed.map Prod.fst := by
  have hpaced : AllPaced waitForCredentialSlot 30 resolution s :=
    allPaced_of_run waitForCredentialSlot_keeps hresolution hrun
  refine ⟨(hpaced credentialId).spaced, fun ticket hwants => ?_⟩
  exact exists_run_passed waitForCredentialSlot_keeps hresolution ⟨30, le_refl 30, by norm_num⟩
    hpaced hwants

/-! Two campaigns send through one credential.  The second sleeps when it is cancelled, and a third
comes in its place. -/

def twoCampaigns : List (GatesAction Nat SendGap) :=
  [.on 4 .call, .on 4 (.look 0 ⟨60, by norm_num⟩), .on 4 (.pass 0), .on 4 .call,
    .on 4 (.look 1 ⟨45, by norm_num⟩), .on 4 .call, .on 4 (.sleep 1), .tick 10 (by norm_num),
    .on 4 (.cancel 1), .on 4 (.wake 1), .on 4 (.resume 2)]

def afterTwoCampaigns : Option Sends := run (Sends.step 0) (Sends.start 100) twoCampaigns

theorem afterTwoCampaigns_isSome : afterTwoCampaigns.isSome = true := by decide +kernel

theorem credential_sends_spaced_twoCampaigns :
    let s := afterTwoCampaigns.get afterTwoCampaigns_isSome
    (s.gate 4).passed.Pairwise (After 30 0) ∧
      ∃ bs t, run (Sends.step 0) s bs = some t ∧ 2 ∈ (t.gate 4).passed.map Prod.fst := by
  obtain ⟨hspaced, hthrough⟩ := credential_sends_spaced (le_refl 0)
    (Option.some_get afterTwoCampaigns_isSome).symm 4
  obtain ⟨bs, -, t, hrun, hpassed⟩ := hthrough 2 (Or.inr ⟨by decide +kernel, by decide +kernel⟩)
  exact ⟨hspaced, bs, t, hrun, hpassed⟩

end GovCrawler
