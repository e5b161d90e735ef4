/-
The outreach tables: campaigns, their emails, and the SMTP credentials they are
sent through.

Columns follow `cloud/db/tables/outreach.py`.  A secret column holds what Fernet
would: the plaintext together with the key it was encrypted under, readable only
with a key chain that contains that key.
-/
import GovCrawler.Basic
import GovCrawler.Lib.Table

namespace GovCrawler

open Relational

inductive CampaignStatus
  | running | paused | cancelled | completed
  deriving DecidableEq, Repr

inductive CampaignKind
  | production | test
  deriving DecidableEq, Repr

inductive EmailStatus
  | draft | queued | sending | sent | failed
  deriving DecidableEq, Repr

structure Campaign where
  id : Nat
  name : String
  templateId : Option Nat
  kind : CampaignKind
  testCredentialId : Option Nat
  status : CampaignStatus
  ownerId : Option Nat
  pauseReason : Option String
  deriving DecidableEq, Repr

structure CampaignEmail where
  id : Nat
  campaignId : Nat
  leadId : Option Nat
  recipientEmail : String
  subject : String
  body : String
  status : EmailStatus := .draft
  isSelected : Bool := true
  missingFields : Option String := none
  errorMessage : Option String := none
  sentAt : Option Time := none
  sendingSince : Option Time := none
  credentialId : Option Nat := none
  deriving DecidableEq, Repr

/-- A Fernet token: `plain` under `key`. -/
structure Encrypted where
  key : String
  plain : String
  deriving DecidableEq, Repr

structure SMTPCredential where
  id : Nat
  host : String
  port : Nat
  username : String
  provider : String
  passwordEncrypted : Option Encrypted
  isActive : Bool
  cooldownUntil : Option Time
  dailySendLimit : Option Int
  refreshTokenEncrypted : Option Encrypted
  accessTokenEncrypted : Option Encrypted
  tokenExpiresAt : Option Time
  deriving DecidableEq, Repr

structure CampaignCredential where
  id : Nat
  campaignId : Nat
  credentialId : Nat
  deriving DecidableEq, Repr

structure Blacklist where
  id : Nat
  email : String
  domain : String
  reason : Option String
  deriving DecidableEq, Repr

instance : Keyed Campaign := ⟨Campaign.id⟩
instance : Keyed CampaignEmail := ⟨CampaignEmail.id⟩
instance : Keyed SMTPCredential := ⟨SMTPCredential.id⟩
instance : Keyed CampaignCredential := ⟨CampaignCredential.id⟩
instance : Keyed Blacklist := ⟨Blacklist.id⟩

@[simp] theorem key_campaign (c : Campaign) : Keyed.key c = c.id := rfl
@[simp] theorem key_campaignEmail (e : CampaignEmail) : Keyed.key e = e.id := rfl
@[simp] theorem key_smtpCredential (c : SMTPCredential) : Keyed.key c = c.id := rfl

/-- The tables an outreach request or a dispatch loop reads and writes. -/
structure OutreachDb where
  campaigns : Table Campaign
  campaignEmails : Table CampaignEmail
  smtpCredentials : Table SMTPCredential
  campaignCredentials : Table CampaignCredential
  blacklist : Table Blacklist

/-- The status of an email, if there is one of that id. -/
def OutreachDb.emailStatus (db : OutreachDb) (emailId : Nat) : Option EmailStatus :=
  (db.campaignEmails.get? emailId).map CampaignEmail.status

end GovCrawler
