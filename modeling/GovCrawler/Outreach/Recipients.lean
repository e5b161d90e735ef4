/-
Who is written to.

A production campaign writes to nobody twice, and to nobody who was on the blacklist when the email
was staged.  The first rests on three things: the lead pool has an address once, a staging request
leaves out what its campaign has, and a new campaign has nothing.  The second on the blacklist being
in lower case, which is what the address is compared in.

What a staging request finds is divided among four fates, and the first that applies is a lead's:
on the blacklist, in the campaign already, not to be found again, or staged.
-/
import GovCrawler.Outreach.CampaignSystem

namespace GovCrawler

open Relational Transition

/-! ### What is promised -/

namespace OutreachDb

/-- An address is on the blacklist, or its domain is, in whatever case. -/
def Suppressed (lower : String → String) (db : OutreachDb) (recipient : String) : Prop :=
  ∃ b ∈ db.blacklist.rows,
    lower b.email = lower recipient ∨ lower b.domain = domainPart (lower recipient)

instance (lower : String → String) (db : OutreachDb) (recipient : String) :
    Decidable (db.Suppressed lower recipient) := by
  unfold Suppressed
  infer_instance

/-- A campaign has an email to an address. -/
def HasRecipient (db : OutreachDb) (campaignId : Nat) (recipient : String) : Prop :=
  ∃ e ∈ db.campaignEmails.rows, e.campaignId = campaignId ∧ e.recipientEmail = recipient

instance (db : OutreachDb) (campaignId : Nat) (recipient : String) :
    Decidable (db.HasRecipient campaignId recipient) := by
  unfold HasRecipient
  infer_instance

def IsProduction (db : OutreachDb) (campaignId : Nat) : Prop :=
  (db.campaigns.get? campaignId).map Campaign.kind = some .production

/-- No production campaign writes to an address twice. -/
def DistinctRecipients (db : OutreachDb) : Prop :=
  ∀ k k' e e', db.email? k = some e → db.email? k' = some e' → db.IsProduction e.campaignId →
    e.campaignId = e'.campaignId → e.recipientEmail = e'.recipientEmail → k = k'

/-- The blacklist is in lower case. -/
def LowerCase (lower : String → String) (db : OutreachDb) : Prop :=
  ∀ b ∈ db.blacklist.rows, lower b.email = b.email ∧ lower b.domain = b.domain

end OutreachDb

/-- What becomes of a lead that a staging request has found. -/
inductive Fate
  | staged | blacklisted | alreadyInCampaign | unresolvable
  deriving DecidableEq, Repr

namespace Staging

variable (lower : String → String) (g : Staging)

def fate (lead : ExportRow) : Fate :=
  if g.before.Suppressed lower lead.email then .blacklisted
  else if g.before.HasRecipient g.drafts.campaignId lead.email then .alreadyInCampaign
  else if g.leadIdByEmail lead.email = none then .unresolvable
  else .staged

/-- How many leads there are of a fate. -/
def count (fate : Fate) : Nat := g.found.countP fun lead => g.fate lower lead == fate

/-- An email that the request has staged. -/
def New (k : Nat) (e : CampaignEmail) : Prop :=
  g.after.email? k = some e ∧ g.before.email? k = none

/-- Nobody is staged who is on the blacklist at that moment. -/
def Clean : Prop := ∀ k e, g.New k e → ¬ g.before.Suppressed lower e.recipientEmail

/-- The leads found are divided among the four fates, and the answer says so. -/
structure SplitsExactly : Prop where
  /-- The new emails are to the leads that are to be staged, and to nobody else … -/
  staged : ∀ email, (∃ k e, g.New k e ∧ e.recipientEmail = email) ↔
    ∃ lead ∈ g.found, lead.email = email ∧ g.fate lower lead = .staged
  /-- … to each of them once, in the one campaign. -/
  once : ∀ k k' e e', g.New k e → g.New k' e' → e.recipientEmail = e'.recipientEmail → k = k'
  campaign : ∀ k e, g.New k e → e.campaignId = g.drafts.campaignId
  stagedCount : g.drafts.stagedCount = g.count lower .staged
  blacklistedCount : g.drafts.blacklistedCount = g.count lower .blacklisted
  alreadyCount : g.drafts.alreadyCount = g.count lower .alreadyInCampaign
  total : g.drafts.stagedCount + g.drafts.blacklistedCount + g.drafts.alreadyCount +
    g.count lower .unresolvable = g.found.length

end Staging

/-! ### What is rendered -/

theorem mem_getCampaignRecipientEmails {db : OutreachDb} {c : Nat} {email : String} :
    email ∈ db.getCampaignRecipientEmails c ↔ db.HasRecipient c email := by
  unfold OutreachDb.getCampaignRecipientEmails OutreachDb.HasRecipient Table.select
  constructor
  · intro h
    obtain ⟨e, he, hemail⟩ := List.mem_map.mp h
    obtain ⟨hrow, hc⟩ := List.mem_filter.mp he
    exact ⟨e, hrow, beq_iff_eq.mp hc, hemail⟩
  · rintro ⟨e, hrow, hc, hemail⟩
    exact List.mem_map.mpr ⟨e, List.mem_filter.mpr ⟨hrow, beq_iff_eq.mpr hc⟩, hemail⟩

/-- The test of the service, of a blacklist in lower case. -/
theorem isBlacklisted_iff {lower : String → String} {db : OutreachDb} (hcase : db.LowerCase lower)
    (email : String) :
    isBlacklisted lower email db.getBlacklistedEmailsSet db.getBlacklistedDomainsSet = true ↔
      db.Suppressed lower email := by
  unfold isBlacklisted OutreachDb.Suppressed OutreachDb.getBlacklistedEmailsSet
    OutreachDb.getBlacklistedDomainsSet
  dsimp only
  rw [Bool.or_eq_true, List.contains_iff_mem, List.contains_iff_mem, List.mem_map, List.mem_map]
  constructor
  · rintro (⟨b, hb, heq⟩ | ⟨b, hb, heq⟩)
    · exact ⟨b, hb, Or.inl ((hcase b hb).1.trans heq)⟩
    · exact ⟨b, hb, Or.inr ((hcase b hb).2.trans heq)⟩
  · rintro ⟨b, hb, heq | heq⟩
    · exact Or.inl ⟨b, hb, (hcase b hb).1.symm.trans heq⟩
    · exact Or.inr ⟨b, hb, (hcase b hb).2.symm.trans heq⟩

/-- A draft is to the lead it is rendered for. -/
theorem recipients_filterMap (jinja : Jinja) (template : EmailTemplate)
    (leadIdByEmail : String → Option Nat) (leads : List ExportRow) :
    (leads.filterMap fun lead =>
      (leadIdByEmail lead.email).map (lead.draft jinja template)).map
        OutreachDb.StagedEmail.recipientEmail =
      (leads.filter fun lead => (leadIdByEmail lead.email).isSome).map ExportRow.email := by
  induction leads with
  | nil => rfl
  | cons lead leads ih =>
      cases hid : leadIdByEmail lead.email with
      | none =>
          rw [List.filterMap_cons_none (by rw [hid]; rfl), List.filter_cons_of_neg (by simp [hid])]
          exact ih
      | some leadId =>
          rw [List.filterMap_cons_some (by rw [hid]; rfl), List.filter_cons_of_pos (by simp [hid]),
            List.map_cons, List.map_cons, ih]
          rfl

/-- Every element is of one of the four fates. -/
theorem countP_fates {A : Type} (fate : A → Fate) (l : List A) :
    (l.countP fun a => fate a == .staged) + (l.countP fun a => fate a == .blacklisted) +
      (l.countP fun a => fate a == .alreadyInCampaign) +
      (l.countP fun a => fate a == .unresolvable) = l.length := by
  induction l with
  | nil => rfl
  | cons a l ih =>
      simp only [List.countP_cons, List.length_cons]
      cases fate a <;> simp <;> omega

namespace Staging

variable {jinja : Jinja} {lower : String → String} {template : EmailTemplate} {g : Staging}

theorem fate_eq (hcase : g.before.LowerCase lower) (lead : ExportRow) :
    g.fate lower lead =
      if isBlacklisted lower lead.email g.before.getBlacklistedEmailsSet
          g.before.getBlacklistedDomainsSet then .blacklisted
      else if (g.before.getCampaignRecipientEmails g.drafts.campaignId).contains lead.email then
        .alreadyInCampaign
      else if (g.leadIdByEmail lead.email).isSome then .staged
      else .unresolvable := by
  unfold fate
  simp only [isBlacklisted_iff hcase, List.contains_iff_mem, mem_getCampaignRecipientEmails]
  split
  · rfl
  · split
    · rfl
    · cases g.leadIdByEmail lead.email with
      | none => rfl
      | some leadId => rfl

/-- **What is rendered is what is to be staged.** -/
theorem recipients_rendered (hcase : g.before.LowerCase lower) :
    (g.rendered jinja lower template).emailDicts.map OutreachDb.StagedEmail.recipientEmail =
      (g.found.filter fun lead => g.fate lower lead == .staged).map ExportRow.email := by
  unfold rendered renderDraftEmails
  dsimp only
  rw [recipients_filterMap]
  -- an empty list of recipients leaves nobody out, whether it is looked at or not
  have hall : ∀ leads : List ExportRow,
      (if (g.before.getCampaignRecipientEmails g.drafts.campaignId).isEmpty then leads
        else leads.filter fun lead =>
          !(g.before.getCampaignRecipientEmails g.drafts.campaignId).contains lead.email) =
        leads.filter fun lead =>
          !(g.before.getCampaignRecipientEmails g.drafts.campaignId).contains lead.email := by
    intro leads
    split
    · rename_i hempty
      rw [List.isEmpty_iff.mp hempty]
      exact (List.filter_eq_self.mpr fun _ _ => rfl).symm
    · rfl
  rw [hall, List.filter_filter, List.filter_filter]
  congr 1
  refine List.filter_congr fun lead _ => ?_
  rw [fate_eq hcase]
  cases isBlacklisted lower lead.email g.before.getBlacklistedEmailsSet
    g.before.getBlacklistedDomainsSet with
  | true => simp
  | false =>
      cases (g.before.getCampaignRecipientEmails g.drafts.campaignId).contains lead.email with
      | true => simp
      | false => cases (g.leadIdByEmail lead.email).isSome <;> simp

theorem blacklistedCount_rendered (hcase : g.before.LowerCase lower) :
    (g.rendered jinja lower template).blacklistedCount = g.count lower .blacklisted := by
  have hsum := List.length_eq_countP_add_countP (l := g.found) fun lead =>
    isBlacklisted lower lead.email g.before.getBlacklistedEmailsSet
      g.before.getBlacklistedDomainsSet
  have hcount : g.count lower .blacklisted = g.found.countP fun lead =>
      isBlacklisted lower lead.email g.before.getBlacklistedEmailsSet
        g.before.getBlacklistedDomainsSet := by
    refine List.countP_congr fun lead _ => ?_
    rw [fate_eq hcase]
    split
    · simp [*]
    · split
      · simp [*]
      · split <;> simp [*]
  unfold rendered renderDraftEmails
  dsimp only
  rw [hcount, ← List.countP_eq_length_filter]
  simp only [Bool.not_eq_true] at hsum
  have hnot : (g.found.countP fun lead => !isBlacklisted lower lead.email
      g.before.getBlacklistedEmailsSet g.before.getBlacklistedDomainsSet) =
      g.found.countP fun lead => decide (isBlacklisted lower lead.email
        g.before.getBlacklistedEmailsSet g.before.getBlacklistedDomainsSet = false) :=
    List.countP_congr fun lead _ => by simp
  omega

theorem excludedCount_rendered (hcase : g.before.LowerCase lower) :
    (g.rendered jinja lower template).excludedCount = g.count lower .alreadyInCampaign := by
  unfold rendered renderDraftEmails count
  dsimp only
  rw [← List.countP_eq_length_filter, List.countP_filter]
  refine List.countP_congr fun lead _ => ?_
  rw [fate_eq hcase]
  cases isBlacklisted lower lead.email g.before.getBlacklistedEmailsSet
    g.before.getBlacklistedDomainsSet with
  | true => simp
  | false =>
      cases (g.before.getCampaignRecipientEmails g.drafts.campaignId).contains lead.email with
      | true => simp
      | false => cases (g.leadIdByEmail lead.email).isSome <;> simp

end Staging

/-! ### One staging request -/

section Extends

variable {c : Nat} {emails : List OutreachDb.StagedEmail} {db db' : OutreachDb}

/-- An email of afterwards was there, or is the draft of one of the recipients. -/
theorem Extends.email?_cases (h : Extends c emails db db') {k : Nat} {e : CampaignEmail}
    (he : db'.email? k = some e) :
    db.email? k = some e ∨
      db.email? k = none ∧ e.campaignId = c ∧
        ∃ i, (emails.map OutreachDb.StagedEmail.recipientEmail)[i]? = some e.recipientEmail ∧
          k = db.campaignEmails.nextKey + i := by
  rcases h.appends.rows k e he with hold | ⟨i, staged, hi, hk, hletter, -⟩
  · exact Or.inl hold
  · have hrecipient : e.recipientEmail = staged.recipientEmail :=
      congrArg Letter.recipientEmail hletter
    have hnone : db.email? k = none := Table.get?_of_nextKey_le (by omega)
    refine Or.inr ⟨hnone, congrArg Letter.campaignId hletter, i, ?_, hk⟩
    rw [List.getElem?_map, hi, hrecipient]
    rfl

/-- There is a draft for each of the recipients. -/
theorem Extends.exists_email (h : Extends c emails db db') {recipient : String}
    (hmem : recipient ∈ emails.map OutreachDb.StagedEmail.recipientEmail) :
    ∃ k e, db'.email? k = some e ∧ db.email? k = none ∧ e.recipientEmail = recipient := by
  obtain ⟨staged, hstaged, rfl⟩ := List.mem_map.mp hmem
  obtain ⟨i, hi⟩ := List.mem_iff_getElem?.mp hstaged
  obtain ⟨e, he, hrecipient⟩ := h.appends.new i staged hi
  exact ⟨_, e, he, Table.get?_of_nextKey_le (Nat.le_add_right _ i), hrecipient⟩

theorem Extends.homed (h : Extends c emails db db') (hhomed : db.Homed) : db'.Homed := by
  intro e he
  rcases h.email?_cases (Table.get?_of_mem he) with hold | ⟨-, rfl, -⟩
  · exact Nat.lt_of_lt_of_le (hhomed e (Table.get?_mem hold)) h.campaignKey
  · exact h.member

/-- **Distinct recipients that the campaign does not have stay distinct.** -/
theorem Extends.distinctRecipients (h : Extends c emails db db') (hhomed : db.Homed)
    (hdistinct : db.DistinctRecipients)
    (hnew : db'.IsProduction c → (emails.map OutreachDb.StagedEmail.recipientEmail).Nodup ∧
      ∀ email ∈ emails.map OutreachDb.StagedEmail.recipientEmail, ¬ db.HasRecipient c email) :
    db'.DistinctRecipients := by
  -- the new recipients are none of the old ones
  have hcross : ∀ {k i : Nat} {e e' : CampaignEmail}, db.email? k = some e → db'.IsProduction c →
      e.campaignId = c → e.recipientEmail = e'.recipientEmail →
      (emails.map OutreachDb.StagedEmail.recipientEmail)[i]? = some e'.recipientEmail → False := by
    intro k i e e' hold hproduction hcampaign hrecipient hi
    exact (hnew hproduction).2 _ (List.mem_of_getElem? hi)
      ⟨e, Table.get?_mem hold, hcampaign, hrecipient⟩
  intro k k' e e' he he' hproduction hcampaign hrecipient
  rcases h.email?_cases he with hold | ⟨-, rfl, i, hi, rfl⟩
  · rcases h.email?_cases he' with hold' | ⟨-, rfl, i', hi', rfl⟩
    · refine hdistinct k k' e e' hold hold' ?_ hcampaign hrecipient
      unfold OutreachDb.IsProduction at hproduction ⊢
      rwa [← h.kinds _ (hhomed e (Table.get?_mem hold))]
    · rw [hcampaign] at hproduction
      exact (hcross hold hproduction hcampaign hrecipient hi').elim
  · rcases h.email?_cases he' with hold' | ⟨-, -, i', hi', rfl⟩
    · exact (hcross hold' hproduction hcampaign.symm hrecipient.symm hi).elim
    · rw [← hrecipient, ← hi] at hi'
      have hlt := (List.getElem?_eq_some_iff.mp hi).1
      rw [(List.getElem?_inj hlt (hnew hproduction).1).mp hi'.symm]

end Extends

namespace Staging.Renders

variable {jinja : Jinja} {lower : String → String} {template : EmailTemplate} {g : Staging}

theorem mem_recipients (hcase : g.before.LowerCase lower) {email : String} :
    email ∈ (g.rendered jinja lower template).emailDicts.map
        OutreachDb.StagedEmail.recipientEmail ↔
      ∃ lead ∈ g.found, lead.email = email ∧ g.fate lower lead = .staged := by
  rw [recipients_rendered hcase, List.mem_map]
  constructor
  · rintro ⟨lead, hlead, hemail⟩
    obtain ⟨hfound, hfate⟩ := List.mem_filter.mp hlead
    exact ⟨lead, hfound, hemail, beq_iff_eq.mp hfate⟩
  · rintro ⟨lead, hfound, hemail, hfate⟩
    exact ⟨lead, List.mem_filter.mpr ⟨hfound, beq_iff_eq.mpr hfate⟩, hemail⟩

theorem nodup_recipients (h : g.Renders jinja lower template) (hcase : g.before.LowerCase lower) :
    ((g.rendered jinja lower template).emailDicts.map
      OutreachDb.StagedEmail.recipientEmail).Nodup := by
  rw [recipients_rendered hcase]
  exact h.nodup.sublist (List.filter_sublist.map _)

/-- A lead that is staged is on no blacklist, and not in the campaign. -/
theorem spared {lead : ExportRow} (hfate : g.fate lower lead = .staged) :
    ¬ g.before.Suppressed lower lead.email ∧
      ¬ g.before.HasRecipient g.drafts.campaignId lead.email := by
  unfold fate at hfate
  split_ifs at hfate with hsuppressed hhas
  exact ⟨hsuppressed, hhas⟩

theorem of_new (h : g.Renders jinja lower template) (hcase : g.before.LowerCase lower) {k : Nat}
    {e : CampaignEmail} (hnew : g.New k e) :
    e.campaignId = g.drafts.campaignId ∧
      (∃ i, ((g.rendered jinja lower template).emailDicts.map
        OutreachDb.StagedEmail.recipientEmail)[i]? = some e.recipientEmail ∧
          k = g.before.campaignEmails.nextKey + i) ∧
      ∃ lead ∈ g.found, lead.email = e.recipientEmail ∧ g.fate lower lead = .staged := by
  rcases h.staged.email?_cases hnew.1 with hold | ⟨-, hcampaign, i, hi, hk⟩
  · cases hold.symm.trans hnew.2
  · exact ⟨hcampaign, ⟨i, hi, hk⟩, (mem_recipients hcase).mp (List.mem_of_getElem? hi)⟩

/-- **Nobody on the blacklist is staged.** -/
theorem clean (h : g.Renders jinja lower template) (hcase : g.before.LowerCase lower) :
    g.Clean lower := by
  intro k e hnew
  obtain ⟨-, -, lead, -, hemail, hfate⟩ := h.of_new hcase hnew
  exact hemail ▸ (spared hfate).1

/-- **The leads found are divided among the four fates.** -/
theorem splitsExactly (h : g.Renders jinja lower template) (hcase : g.before.LowerCase lower) :
    g.SplitsExactly lower := by
  have hstaged : g.drafts.stagedCount = g.count lower .staged := by
    rw [h.stagedCount, ← List.length_map OutreachDb.StagedEmail.recipientEmail,
      recipients_rendered hcase, List.length_map, ← List.countP_eq_length_filter]
    rfl
  have hblacklisted := h.blacklistedCount.trans (blacklistedCount_rendered hcase)
  have halready := h.alreadyCount.trans (excludedCount_rendered hcase)
  refine ⟨?_, ?_, ?_, hstaged, hblacklisted, halready, ?_⟩
  · intro email
    rw [← mem_recipients hcase]
    constructor
    · rintro ⟨k, e, hnew, rfl⟩
      obtain ⟨-, ⟨i, hi, -⟩, -⟩ := h.of_new hcase hnew
      exact List.mem_of_getElem? hi
    · intro hmem
      obtain ⟨k, e, he, hnone, hrecipient⟩ := h.staged.exists_email hmem
      exact ⟨k, e, ⟨he, hnone⟩, hrecipient⟩
  · intro k k' e e' hnew hnew' hrecipient
    obtain ⟨-, ⟨i, hi, rfl⟩, -⟩ := h.of_new hcase hnew
    obtain ⟨-, ⟨i', hi', rfl⟩, -⟩ := h.of_new hcase hnew'
    rw [← hrecipient, ← hi] at hi'
    have hlt := (List.getElem?_eq_some_iff.mp hi).1
    rw [(List.getElem?_inj hlt (h.nodup_recipients hcase)).mp hi'.symm]
  · exact fun k e hnew => (h.of_new hcase hnew).1
  · rw [hstaged, hblacklisted, halready]
    exact countP_fates (g.fate lower) g.found

end Staging.Renders

/-! ### Runs -/

/-- The emails of `db'` are emails of `db`, to the same recipients in the same campaigns. -/
structure Retains (db db' : OutreachDb) : Prop where
  rows : ∀ k e', db'.email? k = some e' → ∃ e, db.email? k = some e ∧
    e.campaignId = e'.campaignId ∧ e.recipientEmail = e'.recipientEmail
  kinds : ∀ k, (db'.campaigns.get? k).map Campaign.kind = (db.campaigns.get? k).map Campaign.kind
  campaignKey : db'.campaigns.nextKey = db.campaigns.nextKey

theorem Keeps.retains {lower : String → String} {marked : Nat → Prop} {db db' : OutreachDb}
    (h : Keeps lower marked db db') : Retains db db' where
  rows k e' he' := by
    obtain ⟨e, he, hletter, -⟩ := h.rows k e' he'
    exact ⟨e, he, (congrArg Letter.campaignId hletter).symm,
      (congrArg Letter.recipientEmail hletter).symm⟩
  kinds := h.kinds
  campaignKey := h.campaignKey

theorem Keeps.lowerCase {lower : String → String} (hlower : ∀ s, lower (lower s) = lower s)
    {marked : Nat → Prop} {db db' : OutreachDb} (h : Keeps lower marked db db')
    (hcase : db.LowerCase lower) : db'.LowerCase lower := by
  intro b hb
  rcases h.listed b hb with hold | ⟨email, domain, hemail, hdomain⟩
  · exact hcase b hold
  · rw [hemail, hdomain]
    exact ⟨hlower email, hlower domain⟩

theorem retains_updateEmail (db : OutreachDb) (emailId : Nat) (subject body : String) :
    Retains db (db.updateEmail emailId subject body).2 where
  rows k e' he' := by
    rw [OutreachDb.email?_updateEmail] at he'
    split_ifs at he'
    · obtain ⟨e, he, rfl⟩ := Option.map_eq_some_iff.mp he'
      exact ⟨e, he, rfl, rfl⟩
    · exact ⟨e', he', rfl, rfl⟩
  kinds _ := rfl
  campaignKey := rfl

/-- What holds after every step: no recipient twice, every recipient on record, and every staging
request clean and exact. -/
structure WritesOnce (lower : String → String) (start db : OutreachDb)
    (stagings : List Staging) : Prop where
  distinct : db.DistinctRecipients
  homed : db.Homed
  lowerCase : db.LowerCase lower
  onRecord : ∀ k e, db.email? k = some e → db.IsProduction e.campaignId →
    (∃ e₀, start.email? k = some e₀ ∧ e₀.campaignId = e.campaignId ∧
        e₀.recipientEmail = e.recipientEmail) ∨
      ∃ g ∈ stagings, ∃ e', g.New k e' ∧ e'.campaignId = e.campaignId ∧
        e'.recipientEmail = e.recipientEmail
  exact : ∀ g ∈ stagings, g.Clean lower ∧ g.SplitsExactly lower

section WritesOnce

variable {jinja : Jinja} {lower : String → String} {start db db' : OutreachDb}
  {stagings : List Staging}

theorem WritesOnce.retains (h : WritesOnce lower start db stagings) (hkept : Retains db db')
    (hcase : db'.LowerCase lower) : WritesOnce lower start db' stagings := by
  have hkind : ∀ {c}, db'.IsProduction c → db.IsProduction c := by
    intro c hproduction
    unfold OutreachDb.IsProduction at hproduction ⊢
    rwa [← hkept.kinds c]
  refine ⟨?_, ?_, hcase, ?_, h.exact⟩
  · intro k k' e e' he he' hproduction hcampaign hrecipient
    obtain ⟨f, hf, hfcampaign, hfrecipient⟩ := hkept.rows k e he
    obtain ⟨f', hf', hfcampaign', hfrecipient'⟩ := hkept.rows k' e' he'
    refine h.distinct k k' f f' hf hf' ?_ ?_ ?_
    · rw [hfcampaign]
      exact hkind hproduction
    · rw [hfcampaign, hfcampaign', hcampaign]
    · rw [hfrecipient, hfrecipient', hrecipient]
  · intro e he
    obtain ⟨f, hf, hfcampaign, -⟩ := hkept.rows _ e (Table.get?_of_mem he)
    rw [← hfcampaign, hkept.campaignKey]
    exact h.homed f (Table.get?_mem hf)
  · intro k e he hproduction
    obtain ⟨f, hf, hfcampaign, hfrecipient⟩ := hkept.rows k e he
    rw [← hfcampaign, ← hfrecipient]
    exact h.onRecord k f hf (hfcampaign ▸ hkind hproduction)

/-- The emails that a request adds are those that it puts on record. -/
theorem WritesOnce.extends (h : WritesOnce lower start db stagings) {c : Nat}
    {emails : List OutreachDb.StagedEmail} (hext : Extends c emails db db')
    {later : List Staging} (hlater : ∀ g ∈ stagings, g ∈ later)
    (hexact : ∀ g ∈ later, g.Clean lower ∧ g.SplitsExactly lower)
    (hrecipients : db'.IsProduction c →
      (emails.map OutreachDb.StagedEmail.recipientEmail).Nodup ∧
        ∀ email ∈ emails.map OutreachDb.StagedEmail.recipientEmail, ¬ db.HasRecipient c email)
    (hnew : db'.IsProduction c → ∀ k e, db'.email? k = some e → db.email? k = none →
      ∃ g ∈ later, g.New k e) : WritesOnce lower start db' later := by
  refine ⟨hext.distinctRecipients h.homed h.distinct hrecipients, hext.homed h.homed, ?_, ?_, hexact⟩
  · unfold OutreachDb.LowerCase
    rw [hext.blacklist]
    exact h.lowerCase
  · intro k e he hproduction
    rcases hext.email?_cases he with hold | ⟨hnone, rfl, -⟩
    · have hwas : db.IsProduction e.campaignId := by
        unfold OutreachDb.IsProduction at hproduction ⊢
        rwa [← hext.kinds _ (h.homed e (Table.get?_mem hold))]
      rcases h.onRecord k e hold hwas with hstart | ⟨g, hg, hlog⟩
      · exact Or.inl hstart
      · exact Or.inr ⟨g, hlater g hg, hlog⟩
    · obtain ⟨g, hg, hgnew⟩ := hnew hproduction k e he hnone
      exact Or.inr ⟨g, hg, e, hgnew, rfl, rfl⟩

theorem WritesOnce.tests (h : WritesOnce lower start db stagings) {c : Nat}
    {emails : List OutreachDb.StagedEmail} (hext : Extends c emails db db')
    (hkind : (db'.campaigns.get? c).map Campaign.kind = some .test) :
    WritesOnce lower start db' stagings := by
  have hnot : ¬ db'.IsProduction c := by
    intro hproduction
    cases hkind.symm.trans hproduction
  exact h.extends hext (fun _ hg => hg) h.exact (fun hproduction => absurd hproduction hnot)
    fun hproduction => absurd hproduction hnot

theorem WritesOnce.stages {g : Staging} {template : EmailTemplate}
    (h : WritesOnce lower start g.before stagings) (hrenders : g.Renders jinja lower template) :
    WritesOnce lower start g.after (stagings ++ [g]) := by
  refine h.extends hrenders.staged (fun _ hg => List.mem_append_left _ hg) ?_ (fun _ => ?_)
    fun _ k e he hnone => ⟨g, List.mem_append_right _ (List.mem_singleton_self g), he, hnone⟩
  · intro g' hg'
    rcases List.mem_append.mp hg' with hold | hnew
    · exact h.exact g' hold
    · obtain rfl := List.mem_singleton.mp hnew
      exact ⟨hrenders.clean h.lowerCase, hrenders.splitsExactly h.lowerCase⟩
  · refine ⟨hrenders.nodup_recipients h.lowerCase, fun email hmem => ?_⟩
    obtain ⟨lead, -, rfl, hfate⟩ := (Staging.Renders.mem_recipients h.lowerCase).mp hmem
    exact (Staging.Renders.spared hfate).2

end WritesOnce

namespace CampaignSystem

variable {mode : DispatchMode} {settings : DispatchSettings} {jinja : Jinja}
  {s s' : CampaignSystem} {start : OutreachDb}

/-- **One step.** -/
theorem writesOnce_step (hlower : ∀ text, settings.lower (settings.lower text) = settings.lower text)
    {a : CampaignAction} (h : WritesOnce settings.lower start s.db s.stagings)
    (hstep : s.step mode settings jinja a = some s') :
    WritesOnce settings.lower start s'.db s'.stagings := by
  cases effect_of_step hstep with
  | served hservice hno hmails hlog =>
      rw [hlog]
      cases Service.writes_of_step hservice with
      | keeps hkeeps => exact h.retains hkeeps.retains (hkeeps.lowerCase hlower h.lowerCase)
      | marks hget hkeeps => exact h.retains hkeeps.retains (hkeeps.lowerCase hlower h.lowerCase)
      | edits hadmitted hdb htasks =>
          unfold db at h ⊢
          rw [hdb]
          exact h.retains (retains_updateEmail _ _ _ _) h.lowerCase
      | stages hdb htasks => exact absurd rfl (hno _ _ _ _)
  | keeps hno hkeeps htasks hmails hlog =>
      rw [hlog]
      exact h.retains hkeeps.retains (hkeeps.lowerCase hlower h.lowerCase)
  | tests hno hext hkind htasks hmails hlog =>
      rw [hlog]
      exact h.tests hext hkind
  | stages hno hbefore hstaged hrenders hafter htasks hmails hlog =>
      obtain ⟨template, hrenders⟩ := hrenders h.homed
      rw [← hbefore] at h
      have hstages := h.stages hrenders
      rw [hlog]
      exact hstages.retains hafter.retains (hafter.lowerCase hlower hstages.lowerCase)

/-- Nothing has been staged on record yet, and what is in the database is in order. -/
structure Orderly (lower : String → String) (s : CampaignSystem) : Prop where
  distinct : s.db.DistinctRecipients
  homed : s.db.Homed
  lowerCase : s.db.LowerCase lower
  unrecorded : s.stagings = []

theorem Orderly.writesOnce (h : s.Orderly settings.lower) :
    WritesOnce settings.lower s.db s.db s.stagings where
  distinct := h.distinct
  homed := h.homed
  lowerCase := h.lowerCase
  onRecord k e he _ := Or.inl ⟨e, he, rfl, rfl⟩
  exact g hg := by
    rw [h.unrecorded] at hg
    cases hg

end CampaignSystem

/--
**Production recipients.**  In whatever order campaigns are created, leads added, drafts deleted and
selected, campaigns dispatched and the blacklist changed: no production campaign has an address
twice; each of its emails was there at the start or has been staged by a request on record; and of
every such request, nobody staged was on the blacklist at that moment, and the leads found are
divided exactly among the staged, the blacklisted, those in the campaign already and those that were
not found again.
-/
theorem production_recipients {mode : DispatchMode} {settings : DispatchSettings} {jinja : Jinja}
    (hlower : ∀ text, settings.lower (settings.lower text) = settings.lower text)
    {s s' : CampaignSystem} {as : List CampaignAction} (hstart : s.Orderly settings.lower)
    (hrun : run (CampaignSystem.step mode settings jinja) s as = some s') :
    s'.db.DistinctRecipients ∧
      (∀ k e, s'.db.email? k = some e → s'.db.IsProduction e.campaignId →
        (∃ e₀, s.db.email? k = some e₀ ∧ e₀.campaignId = e.campaignId ∧
            e₀.recipientEmail = e.recipientEmail) ∨
          ∃ g ∈ s'.stagings, ∃ e', g.New k e' ∧ e'.campaignId = e.campaignId ∧
            e'.recipientEmail = e.recipientEmail) ∧
      ∀ g ∈ s'.stagings, g.Clean settings.lower ∧ g.SplitsExactly settings.lower := by
  have hall : WritesOnce settings.lower s.db s'.db s'.stagings :=
    @run_invariant' _ _ _ (fun t => WritesOnce settings.lower s.db t.db t.stagings)
      (fun _ _ _ h hstep => CampaignSystem.writesOnce_step hlower h hstep) _ _ _
      hstart.writesOnce hrun
  exact ⟨hall.distinct, hall.onRecord, hall.exact⟩

/-- `str.lower`, of ASCII. -/
def lowerAscii (text : String) : String := String.ofList (text.toList.map Char.toLower)

theorem toLower_toLower (c : Char) : c.toLower.toLower = c.toLower := by
  unfold Char.toLower
  split
  · rename_i h
    rw [dif_neg]
    intro hupper
    have hle := UInt32.le_iff_toNat_le.mp h.1
    have hle' := UInt32.le_iff_toNat_le.mp h.2
    have hupper' := UInt32.le_iff_toNat_le.mp hupper.2
    rw [UInt32.toNat_add] at hupper'
    have hA : 'A'.val.toNat = 65 := rfl
    have hZ : 'Z'.val.toNat = 90 := rfl
    have hgap : ('a'.val - 'A'.val).toNat = 32 := rfl
    rw [hA] at hle
    rw [hZ] at hle'
    rw [hgap, hZ] at hupper'
    omega
  · rfl

theorem lowerAscii_lowerAscii (text : String) : lowerAscii (lowerAscii text) = lowerAscii text := by
  unfold lowerAscii
  rw [String.toList_ofList, List.map_map]
  congr 1
  exact List.map_congr_left fun c _ => toLower_toLower c

def asciiSettings : DispatchSettings := { plainSettings with lower := lowerAscii }

/-- No campaign yet, and a template. -/
def freshSystem : CampaignSystem where
  service := Service.init 0
    { campaigns := .empty, campaignEmails := .empty, smtpCredentials := .empty,
      campaignCredentials := .empty, blacklist := .empty }
  templates := Table.empty.insertNew fun id =>
    { id, name := "Notice", subject := "Dear {{name}}", rawBody := "{{designation}}" }
  stagings := []
  mails := []

theorem orderly_freshSystem (lower : String → String) : freshSystem.Orderly lower where
  distinct k k' e e' he := by cases he
  homed e he := by cases he
  lowerCase b hb := by cases hb
  unrecorded := rfl

def poolLead (id : Nat) (email : String) (personName : Option String) : Lead :=
  { id, jobId := 1, snapshotId := none, email, personName, designation := personName,
    department := none, sourceUrl := "", sourceTitle := none, contextSnippet := none,
    entityKind := none, phone := none, channelTag := none, confidenceBand := none,
    fieldProvenance := none }

def threeLeads : LeadPool where
  leads := [poolLead 1 "a@x.gov" (some "A"), poolLead 2 "b@x.gov" none, poolLead 3 "c@spam.in" none]
  uqLeadEmail := by decide

def fourLeads : LeadPool where
  leads := threeLeads.leads ++ [poolLead 4 "d@x.gov" none]
  uqLeadEmail := by decide

/-- The blacklist in upper case, a campaign, and its leads once more with another. -/
def noticeRun : List CampaignAction :=
  [.block admin ⟨"Spam@SPAM.in", none⟩,
    .create admin { name := "Notice", templateId := 1, leadIds := some [1, 2, 3] } threeLeads
      threeLeads,
    .addLeads admin 1 [1, 2, 3, 4] fourLeads threeLeads]

theorem notice_staged :
    ∃ s', run (CampaignSystem.step .embedded asciiSettings fun t _ => some t) freshSystem noticeRun =
        some s' ∧
      s'.stagings.map Staging.drafts = [⟨1, 2, 1, 0⟩, ⟨1, 0, 1, 2⟩] ∧ s'.db.DistinctRecipients ∧
      ∀ g ∈ s'.stagings, g.Clean asciiSettings.lower ∧ g.SplitsExactly asciiSettings.lower := by
  have hrun : (run (CampaignSystem.step .embedded asciiSettings fun t _ => some t) freshSystem
      noticeRun).map (fun s' => s'.stagings.map Staging.drafts) =
        some [⟨1, 2, 1, 0⟩, ⟨1, 0, 1, 2⟩] := by decide +kernel
  obtain ⟨s', hrun, hdrafts⟩ := Option.map_eq_some_iff.mp hrun
  have hlower : ∀ text, asciiSettings.lower (asciiSettings.lower text) = asciiSettings.lower text :=
    lowerAscii_lowerAscii
  have h := production_recipients hlower (orderly_freshSystem asciiSettings.lower) hrun
  exact ⟨s', hrun, hdrafts, h.1, h.2.2⟩
end GovCrawler
