/-
The audit log tells who changed what.

A request writes a row for each change it makes, after it.  So the log only grows, what is new in it
names a user who was signed in and had the permission at that point of the run, and a run that has
written nothing has changed nothing.  A server that dies between a change and its row is not
considered: a request is served to its end.
-/
import GovCrawler.Auth.AccessControl

namespace GovCrawler

open Relational Transition

/-- The log has grown by rows that meet `P`, and is the same only if everything is. -/
def AccessDb.Logged (P : AuditLog → Prop) (db db' : AccessDb) : Prop :=
  ∃ new, db'.auditLog.rows = db.auditLog.rows ++ new ∧ (∀ row ∈ new, P row) ∧
    (new = [] → db' = db)

section Requests

variable {lib : AuthLib} {db db' db'' : AccessDb} {perm : String} {P : AuditLog → Prop}

theorem AccessDb.Logged.refl (P : AuditLog → Prop) (db : AccessDb) : db.Logged P db :=
  ⟨[], (List.append_nil _).symm, fun _ h => absurd h List.not_mem_nil, fun _ => rfl⟩

theorem AccessDb.Logged.trans (h : db.Logged P db') (h' : db'.Logged P db'') :
    db.Logged P db'' := by
  obtain ⟨new, hrows, hP, hsame⟩ := h
  obtain ⟨new', hrows', hP', hsame'⟩ := h'
  refine ⟨new ++ new', by rw [hrows', hrows, List.append_assoc], fun row hrow => ?_, fun hnil => ?_⟩
  · exact (List.mem_append.mp hrow).elim (hP row) (hP' row)
  · obtain ⟨hnil, hnil'⟩ := List.append_eq_nil_iff.mp hnil
    rw [hsame' hnil', hsame hnil]

/-- A change leaves the log to the route. -/
theorem Change.auditLog_eq (h : Change lib db perm db') : db'.auditLog = db.auditLog := by
  cases h with
  | createUser => rfl
  | setUserActive userId isActive now hguard =>
      rcases AccessDb.setUserActive_cases userId isActive now with ⟨-, heq⟩ | ⟨_, _, -, heq, hedit⟩
      · rw [heq]
      · rw [heq]
        exact hedit.auditLog
  | setUserRole userId roleName =>
      rcases AccessDb.setUserRole_cases userId roleName with ⟨-, heq⟩ | ⟨_, _, _, -, -, heq, hedit⟩
      · rw [heq]
      · rw [heq]
        exact hedit.auditLog
  | setPassword userId password now =>
      rcases AccessDb.setPassword_cases lib userId password now with
        ⟨-, heq⟩ | ⟨_, _, -, heq, hedit⟩
      · rw [heq]
      · rw [heq]
        exact hedit.auditLog
  | override userId permissionKey effect done db' hkey h =>
      rcases AccessDb.override_cases h with ⟨-, -, rfl⟩ | ⟨_, _, -, -, rfl, -⟩
      · rfl
      · rfl
  | createRole name description keys roleId db' h =>
      unfold AccessDb.createRole at h
      split at h
      · cases h
      · obtain ⟨-, rfl⟩ := Prod.mk.inj (Except.ok.inj h)
        rfl
  | updateRole roleId description keys done db' h =>
      rcases AccessDb.updateRole_cases h with ⟨-, -, rfl⟩ | ⟨_, -, -, -, hdone⟩
      · rfl
      · have hdescribed : (db.describe roleId description).auditLog = db.auditLog := by
          cases description <;> rfl
        rcases hdone with ⟨-, rfl⟩ | ⟨given, -, -, rfl⟩
        · exact hdescribed
        · exact hdescribed
  | deleteRole roleId done db' h =>
      rcases AccessDb.deleteRole_cases h with ⟨-, -, rfl⟩ | ⟨_, -, -, -, -, rfl⟩
      · rfl
      · rfl

/-- The row is about a request of this caller. -/
def AuditLog.By (row : AuditLog) (caller : Caller) : Prop :=
  row.userId = some caller.user.id ∧ row.ip = caller.ip ∧ row.createdAt = caller.now

theorem AuditedChange.logged {caller : Caller} (h : AuditedChange lib caller perm db db'') :
    db.Logged (·.By caller) db'' := by
  obtain ⟨db', action, targetType, targetId, detail, hc, rfl⟩ := h
  unfold AccessDb.Logged AccessDb.audit AccessDb.writeAudit
  rw [hc.auditLog_eq]
  refine ⟨[_], rfl, fun row hrow => ?_, fun hnil => absurd hnil (List.cons_ne_nil _ _)⟩
  obtain rfl := List.mem_singleton.mp hrow
  exact ⟨rfl, rfl, rfl⟩

end Requests

/-- Who makes a request that is let through. -/
def AccessWorld.Serves (settings : AuthSettings) (w : AccessWorld) (caller : Caller) :
    AccessAction → Prop
  | .boot _ _ => False
  | .request ctx now req =>
      getCurrentUser settings w.db.auth ctx now = .ok caller.user ∧
        caller.user.hasAll [req.requires] = true ∧ caller.ip = ctx.ip ∧ caller.now = now

theorem step_logged {settings : AuthSettings} {w w' : AccessWorld} {a : AccessAction}
    (h : w.Inv) (hseeded : w.db.Seeded) (hs : w.step settings a = some w') :
    w.db.Logged (fun row => ∃ caller, w.Serves settings caller a ∧ row.By caller) w'.db ∧
      w'.db.Seeded := by
  refine ⟨?_, step_seeded h hseeded hs⟩
  cases a with
  | boot defaults killedAfter =>
      obtain rfl := Option.some.inj hs
      rw [AccessDb.seedRbac_eq_self h.sound hseeded]
      exact .refl _ _
  | request ctx now req =>
      have hup : w.up = true := by
        rw [AccessWorld.step] at hs
        split at hs
        · assumption
        · cases hs
      rw [AccessWorld.step, if_pos hup] at hs
      obtain rfl := Option.some.inj hs
      rcases serve_changes settings w.db ctx now req with heq | ⟨user, huser, hhas, hpath⟩
      · rw [heq]
        exact .refl _ _
      · dsimp only
        generalize (req.serve settings w.db ctx now).2 = served at hpath
        induction hpath with
        | refl => exact .refl _ _
        | tail _ hstep ih =>
            obtain ⟨new, hrows, hby, hsame⟩ := hstep.logged
            exact ih.trans ⟨new, hrows,
              fun row hrow => ⟨_, ⟨huser, hhas, rfl, rfl⟩, hby row hrow⟩, hsame⟩

/-- **The audit log is a trail**: in every run it only grows; each new row is by the caller of a
request of the run, who was signed in then and had the permission; and if it is as long as it was,
nothing at all has changed. -/
theorem audit_trail (settings : AuthSettings) {w w' : AccessWorld} (as : List AccessAction)
    (h : w.Inv) (hseeded : w.db.Seeded)
    (hr : run (AccessWorld.step settings) w as = some w') :
    w.db.Logged (fun row => ∃ before a after w₁ caller, as = before ++ a :: after ∧
      run (AccessWorld.step settings) w before = some w₁ ∧ w₁.Serves settings caller a ∧
        row.By caller) w'.db := by
  induction as generalizing w with
  | nil =>
      obtain rfl : w = w' := by simpa using hr
      exact .refl _ _
  | cons a as ih =>
      obtain ⟨w₂, hs, hr'⟩ := run_cons_eq_some.mp hr
      obtain ⟨⟨new, hrows, hby, hsame⟩, hseeded'⟩ := step_logged h hseeded hs
      obtain ⟨new', hrows', hby', hsame'⟩ := ih (step_inv h hs) hseeded' hr'
      refine AccessDb.Logged.trans ⟨new, hrows, fun row hrow => ?_, hsame⟩
        ⟨new', hrows', fun row hrow => ?_, hsame'⟩
      · obtain ⟨caller, hserves, hrow⟩ := hby row hrow
        exact ⟨[], a, as, w, caller, rfl, rfl, hserves, hrow⟩
      · obtain ⟨before, b, after, w₁, caller, rfl, hbefore, hserves, hrow⟩ := hby' row hrow
        exact ⟨a :: before, b, after, w₁, caller, rfl,
          run_cons_eq_some.mpr ⟨w₂, hs, hbefore⟩, hserves, hrow⟩

theorem seeded_newInstallation :
    (newInstallation.seedRbac AccessDb.writtenOrder none).Sound ∧
      (newInstallation.seedRbac AccessDb.writtenOrder none).Seeded := by
  obtain ⟨hreseeds, hseeded⟩ :=
    AccessDb.seedRbac_spec inv_newInstallation.sound AccessDb.writtenOrder none
  exact ⟨hreseeds.sound, hseeded rfl⟩

/-- The first request writes a row, the second is refused. -/
theorem audit_trail_firstDay :
    ∃ w' new, run (AccessWorld.step plainAuth)
        ⟨newInstallation.seedRbac AccessDb.writtenOrder none, false⟩ firstDay = some w' ∧
      w'.db.auditLog.rows = new ∧ ∀ row ∈ new, row.userId.isSome := by
  obtain ⟨hsound, hseeded⟩ := seeded_newInstallation
  obtain ⟨new, hrows, hby, -⟩ :=
    audit_trail plainAuth (w := ⟨_, false⟩) firstDay ⟨hsound, fun _ => hseeded⟩ hseeded rfl
  refine ⟨_, new, rfl, hrows, fun row hrow => ?_⟩
  obtain ⟨_, _, _, _, _, _, _, _, huser, _⟩ := hby row hrow
  rw [huser]
  rfl

end GovCrawler
