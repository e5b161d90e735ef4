/-
The methods of `AuthMixin`, `cloud/db/mixins/auth_mixin.py`, that the routes of a
session and the administration of users go through.

A session row stands for one login on one device.  Its refresh token is replaced in
place by every refresh, so the row knows the latest token and no earlier one.
-/
import Mathlib.Data.List.Sort
import GovCrawler.Auth.Tables

namespace GovCrawler

open Relational

/-- The keys of `PERMISSIONS`. -/
def permissionKeys : List String :=
  ["users.manage", "roles.manage", "audit.view", "settings.manage", "domains.view",
    "domains.import", "crawl.run", "crawl.cancel_all", "jobs.view_all", "leads.view",
    "leads.edit", "leads.export", "leads.import", "campaigns.manage", "campaigns.dispatch",
    "campaigns.view_all", "templates.manage", "credentials.manage", "blacklist.manage"]

/-- What the libraries decide: Unicode case mapping, and the hashes. -/
structure AuthLib where
  /-- `email.strip().lower()`. -/
  normalizeEmail : String → String
  /-- `hash_password`. -/
  hashPassword : String → String
  /-- `verify_password(password_hash, password)`. -/
  verifyPassword : String → String → Bool
  /-- `hash_refresh_token`. -/
  hashRefreshToken : String → String

namespace AuthDb

variable (db : AuthDb)

/-! ### Users -/

/-- `get_user_by_id`. -/
def getUserById (userId : Nat) : Option User := db.users.get? userId

/-- `get_user_by_email`. -/
def getUserByEmail (lib : AuthLib) (email : String) : Option User :=
  db.users.first? fun u => u.email == lib.normalizeEmail email

def updateUser (userId : Nat) (f : User → User)
    (hf : ∀ u, (f u).id = u.id := by intro _; rfl) : AuthDb :=
  { db with users := db.users.updateWhere (fun u => u.id == userId) f hf }

/-- `create_user`.  Its email is unique by the check of the route. -/
def createUser (lib : AuthLib) (email password : String) (fullName : Option String)
    (isAdmin : Bool) (roleName : Option String) : AuthDb :=
  { db with
    users := db.users.insertNew fun id =>
      { id, email := lib.normalizeEmail email, passwordHash := lib.hashPassword password,
        fullName, isAdmin,
        roleId := (roleName.filter (· ≠ "")).bind fun name =>
          (db.roles.first? fun r => r.name == name).map Role.id } }

/-- `record_login_success`. -/
def recordLoginSuccess (userId : Nat) (now : Time) : AuthDb :=
  db.updateUser userId fun u =>
    { u with failedLogins := 0, lockedUntil := none, lastLoginAt := some now }

/-- `record_login_failure`. -/
def recordLoginFailure (userId threshold lockoutMinutes : Nat) (now : Time) : AuthDb :=
  db.updateUser userId fun u =>
    { u with
      failedLogins := u.failedLogins + 1
      lockedUntil := if threshold ≤ u.failedLogins + 1 then some (now + minutes lockoutMinutes)
        else u.lockedUntil }

/-- One override of `resolve_effective_permissions`. -/
def applyOverride (perms : List String) (o : UserPermission) : List String :=
  match o.effect with
  | .grant => if perms.contains o.permissionKey then perms else perms ++ [o.permissionKey]
  | .deny => perms.filter (· ≠ o.permissionKey)

/-- `resolve_effective_permissions`. -/
def resolveEffectivePermissions (userId : Nat) : List String :=
  match db.users.get? userId with
  | none => []
  | some user =>
      if user.isAdmin then permissionKeys
      else
        let rolePerms := match user.roleId with
          | none => []
          | some roleId =>
              (db.rolePermissions.select fun rp => rp.roleId == roleId).map
                RolePermission.permissionKey
        (db.userPermissions.select fun o => o.userId == userId).foldl applyOverride rolePerms

/-- `get_role_name`. -/
def getRoleName (roleId : Option Nat) : Option String :=
  roleId.bind fun id => (db.roles.get? id).map Role.name

/-! ### Sessions -/

/-- `create_session`, with the key of the new row. -/
def createSession (userId : Nat) (refreshTokenHash : String) (expiresAt : Time)
    (userAgent ip : Option String) : AuthDb :=
  { db with
    userSessions := db.userSessions.insertNew fun id =>
      { id, userId, refreshTokenHash, userAgent, ip, expiresAt } }

/-- `get_session_by_hash`. -/
def getSessionByHash (refreshTokenHash : String) : Option UserSession :=
  db.userSessions.first? fun s => s.refreshTokenHash == refreshTokenHash

/-- `get_session_by_id`. -/
def getSessionById (sessionId : Nat) : Option UserSession := db.userSessions.get? sessionId

def updateSessions (p : UserSession → Bool) (f : UserSession → UserSession)
    (hf : ∀ s, (f s).id = s.id := by intro _; rfl) : AuthDb :=
  { db with userSessions := db.userSessions.updateWhere p f hf }

/-- `rotate_session`: the new token's hash takes the place of the old one's. -/
def rotateSession (sessionId : Nat) (newRefreshTokenHash : String) (newExpiresAt now : Time) :
    AuthDb :=
  db.updateSessions (fun s => s.id == sessionId) fun s =>
    { s with
      refreshTokenHash := newRefreshTokenHash
      expiresAt := newExpiresAt
      lastUsedAt := some now }

/-- Stamp `revoked_at` on the rows `p` holds of. -/
def revokeWhere (p : UserSession → Bool) (now : Time) : AuthDb :=
  db.updateSessions p fun s => { s with revokedAt := some now }

/-- `revoke_session`. -/
def revokeSession (sessionId : Nat) (now : Time) : AuthDb :=
  db.revokeWhere (fun s => s.id == sessionId) now

/-- The rows `revoke_sessions_except` updates. -/
def liveExcept (userId : Nat) (keepSessionId : Option Nat) (s : UserSession) : Bool :=
  s.userId == userId && s.revokedAt.isNone && keepSessionId.all fun keep => s.id != keep

/-- `revoke_sessions_except`, with the count it returns. -/
def revokeSessionsExcept (userId : Nat) (keepSessionId : Option Nat) (now : Time) : Nat × AuthDb :=
  (db.userSessions.count (liveExcept userId keepSessionId),
    db.revokeWhere (liveExcept userId keepSessionId) now)

/-- `revoke_session_family`. -/
def revokeSessionFamily (userId : Nat) (now : Time) : AuthDb :=
  (db.revokeSessionsExcept userId none now).2

/-! ### Passwords and deactivation -/

/-- `set_password`. -/
def setPassword (lib : AuthLib) (userId : Nat) (password : String) (now : Time) : Bool × AuthDb :=
  match db.users.get? userId with
  | none => (false, db)
  | some _ =>
      (true,
        (db.updateUser userId fun u =>
          { u with
            passwordHash := lib.hashPassword password
            tokenVersion := u.tokenVersion + 1 }).revokeSessionFamily userId now)

/-- `set_user_active`. -/
def setUserActive (userId : Nat) (isActive : Bool) (now : Time) : Bool × AuthDb :=
  match db.users.get? userId with
  | none => (false, db)
  | some _ =>
      if isActive then (true, db.updateUser userId fun u => { u with isActive })
      else
        (true,
          (db.updateUser userId fun u =>
            { u with isActive, tokenVersion := u.tokenVersion + 1 }).revokeSessionFamily userId now)

/-! ### What the statements do to a row -/

/-- The row of a session. -/
def session? (k : Nat) : Option UserSession := db.userSessions.get? k

theorem session?_id {db : AuthDb} {k : Nat} {s : UserSession} (h : db.session? k = some s) :
    s.id = k := Table.get?_key h

theorem session?_createSession (userId : Nat) (hash : String) (expires : Time)
    (userAgent ip : Option String) (k : Nat) :
    (db.createSession userId hash expires userAgent ip).session? k =
      if k = db.userSessions.nextKey then
        some { id := k, userId, refreshTokenHash := hash, userAgent, ip, expiresAt := expires }
      else db.session? k :=
  Table.get?_insertNew db.userSessions _ _ k

theorem session?_updateSessions (p : UserSession → Bool) (f : UserSession → UserSession)
    (hf : ∀ s, (f s).id = s.id) (k : Nat) :
    (db.updateSessions p f hf).session? k =
      (db.session? k).map fun s => if p s then f s else s :=
  Table.get?_updateWhere db.userSessions p f hf k

theorem session?_rotateSession (i : Nat) (hash : String) (expires now : Time) (k : Nat) :
    (db.rotateSession i hash expires now).session? k =
      (db.session? k).map fun s =>
        if s.id == i then
          { s with refreshTokenHash := hash, expiresAt := expires, lastUsedAt := some now }
        else s :=
  db.session?_updateSessions _ _ _ k

theorem session?_revokeWhere (p : UserSession → Bool) (now : Time) (k : Nat) :
    (db.revokeWhere p now).session? k =
      (db.session? k).map fun s => if p s then { s with revokedAt := some now } else s :=
  db.session?_updateSessions p _ _ k

/-- A row found by a token's hash is the row of its own key. -/
theorem getSessionByHash_spec {db : AuthDb} {hash : String} {s : UserSession}
    (h : db.getSessionByHash hash = some s) :
    s.refreshTokenHash = hash ∧ db.session? s.id = some s := by
  obtain ⟨hp, hs⟩ := Table.first?_spec h
  exact ⟨by simpa using hp, hs⟩

theorem getSessionByHash_eq_none {db : AuthDb} {hash : String}
    (h : ∀ k s, db.session? k = some s → s.refreshTokenHash ≠ hash) :
    db.getSessionByHash hash = none := by
  refine Table.first?_eq_none_iff.mpr fun s hs => ?_
  have := h s.id s (Table.get?_of_mem hs)
  simpa using this

theorem getUserById_updateUser (i : Nat) (f : User → User) (hf : ∀ u, (f u).id = u.id) (k : Nat) :
    (db.updateUser i f hf).getUserById k =
      (db.getUserById k).map fun u => if u.id == i then f u else u :=
  Table.get?_updateWhere db.users _ f hf k

end AuthDb

end GovCrawler
