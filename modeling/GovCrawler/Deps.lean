/-
The request dependencies of `cloud/api/deps.py`: who is asking, what they may do,
and the two guards every route of an owned resource goes through.
-/
import GovCrawler.Basic

namespace GovCrawler

/-- An `HTTPException`. -/
structure HttpError where
  statusCode : Nat
  detail : String
  deriving DecidableEq, Repr

structure CurrentUser where
  id : Nat
  email : String
  isAdmin : Bool
  permissions : List String := []
  deriving DecidableEq, Repr

def CurrentUser.can (user : CurrentUser) (perm : String) : Bool :=
  user.isAdmin || user.permissions.contains perm

def CurrentUser.hasAll (user : CurrentUser) (perms : List String) : Bool :=
  user.isAdmin || perms.all fun p => user.permissions.contains p

def insufficientPermissions : HttpError := ⟨403, "Insufficient permissions"⟩

/-- The dependency `require(*perms)` builds. -/
def require (perms : List String) (user : CurrentUser) : Except HttpError CurrentUser :=
  if user.hasAll perms then .ok user else .error insufficientPermissions

/-- `forbid_unless_owner`, as the campaign routes call it (without `allow`). -/
def forbidUnlessOwner (ownerId : Option Nat) (user : CurrentUser) : Except HttpError Unit :=
  if ownerId == some user.id || user.isAdmin then .ok () else .error insufficientPermissions

/-- `forbid_unless_owner` with `allow`. -/
def forbidUnlessOwnerOr (allow : String) (ownerId : Option Nat) (user : CurrentUser) :
    Except HttpError Unit :=
  if ownerId == some user.id || user.isAdmin || user.can allow then .ok ()
  else .error insufficientPermissions

theorem require_eq_ok_iff {perms : List String} {user u : CurrentUser} :
    require perms user = .ok u ↔ user.hasAll perms = true ∧ user = u := by
  unfold require
  by_cases h : user.hasAll perms = true <;> simp [h]

theorem forbidUnlessOwner_eq_ok_iff {ownerId : Option Nat} {user : CurrentUser} {x : Unit} :
    forbidUnlessOwner ownerId user = .ok x ↔ ownerId = some user.id ∨ user.isAdmin = true := by
  unfold forbidUnlessOwner
  by_cases h : (ownerId == some user.id || user.isAdmin) = true
  · rw [if_pos h]
    simpa using h
  · rw [if_neg h]
    simpa using h

end GovCrawler
