/-
The tables of `cloud/db/tables/auth.py`: users, what they may do, and the sessions
that carry their refresh tokens.

Columns no request reads (who created a user, when a row was touched) are left out,
and so is the append-only audit log.
-/
import GovCrawler.Basic
import GovCrawler.Lib.Table

namespace GovCrawler

open Relational

structure Role where
  id : Nat
  name : String
  deriving DecidableEq, Repr

structure RolePermission where
  id : Nat
  roleId : Nat
  permissionKey : String
  deriving DecidableEq, Repr

/-- `effect` of a `UserPermission`: anything else has no effect. -/
inductive OverrideEffect
  | grant
  | deny
  deriving DecidableEq, Repr

structure UserPermission where
  id : Nat
  userId : Nat
  permissionKey : String
  effect : OverrideEffect
  deriving DecidableEq, Repr

/-- `email` is stored stripped and lowercased. -/
structure User where
  id : Nat
  email : String
  passwordHash : String
  fullName : Option String := none
  isActive : Bool := true
  isAdmin : Bool := false
  roleId : Option Nat := none
  tokenVersion : Nat := 0
  failedLogins : Nat := 0
  lockedUntil : Option Time := none
  lastLoginAt : Option Time := none
  deriving DecidableEq, Repr

structure UserSession where
  id : Nat
  userId : Nat
  refreshTokenHash : String
  userAgent : Option String := none
  ip : Option String := none
  lastUsedAt : Option Time := none
  expiresAt : Time
  revokedAt : Option Time := none
  deriving DecidableEq, Repr

instance : Keyed Role := ⟨Role.id⟩
instance : Keyed RolePermission := ⟨RolePermission.id⟩
instance : Keyed UserPermission := ⟨UserPermission.id⟩
instance : Keyed User := ⟨User.id⟩
instance : Keyed UserSession := ⟨UserSession.id⟩

@[simp] theorem key_user (u : User) : Keyed.key u = u.id := rfl

@[simp] theorem key_userSession (s : UserSession) : Keyed.key s = s.id := rfl

/-- The part of the cloud database that decides who is asking. -/
structure AuthDb where
  roles : Table Role
  rolePermissions : Table RolePermission
  users : Table User
  userPermissions : Table UserPermission
  userSessions : Table UserSession

end GovCrawler
