/-
The routes of `cloud/api/admin.py` and `cloud/api/roles.py` that change something.

Every route is served in one piece: no handler awaits anything.  The routers are mounted behind
`get_current_user` and `verify_csrf`, and each depends on one permission.
-/
import GovCrawler.Auth.Roles
import GovCrawler.Auth.Routes
import GovCrawler.Lib.Transition

namespace GovCrawler

open Relational Transition Json

/-! ### Requests -/

/-- A password that `_validate_password_strength` lets through. -/
abbrev Password : Type := { s : String // 8 ≤ s.length }

structure UserCreate where
  email : String
  password : Password
  fullName : Option String := none
  role : Option String := none
  isAdmin : Bool := false
  deriving DecidableEq, Repr

structure UserPatch where
  isActive : Option Bool := none
  role : Option String := none
  deriving DecidableEq, Repr

structure RoleCreate where
  name : String
  description : Option String := none
  permissions : List String := []
  deriving DecidableEq, Repr

structure RolePatch where
  description : Option String := none
  permissions : Option (List String) := none
  deriving DecidableEq, Repr

inductive AdminRequest
  | createUser (req : UserCreate)
  | patchUser (userId : Nat) (req : UserPatch)
  | resetPassword (userId : Nat) (password : Password)
  | setUserPermission (userId : Nat) (permissionKey : String) (effect : Option String)
  | createRole (req : RoleCreate)
  | updateRole (roleId : Nat) (req : RolePatch)
  | deleteRole (roleId : Nat)
  | cloneRole (roleId : Nat) (name : String)
  deriving DecidableEq, Repr

/-- What the router of the request depends on. -/
def AdminRequest.requires : AdminRequest → String
  | .createUser _ | .patchUser _ _ | .resetPassword _ _ | .setUserPermission _ _ _ => "users.manage"
  | .createRole _ | .updateRole _ _ | .deleteRole _ | .cloneRole _ _ => "roles.manage"

structure AdminResponse where
  message : String
  id : Option Nat := none
  deriving DecidableEq, Repr

/-- Who asks, from where, and when. -/
structure Caller where
  user : CurrentUser
  ip : Option String := none
  now : Time

/-- A response, and the database after it. -/
abbrev Answer : Type := Except HttpError AdminResponse × AccessDb

/-- `_unhandled_exception_handler`. -/
def internalError : HttpError := ⟨500, "Something went wrong on the server."⟩

section Handlers

variable (lib : AuthLib) (db : AccessDb) (caller : Caller)

/-- `db.write_audit(user.id, action, target_type, target_id, detail, ip)`. -/
def AccessDb.audit (db : AccessDb) (caller : Caller) (action targetType : String) (targetId : Nat)
    (detail : Dict) : AccessDb :=
  db.writeAudit (some caller.user.id) action (some targetType) (some targetId) detail caller.ip
    caller.now

/-! ### `admin.py` -/

/-- `create_user`. -/
def serveCreateUser (req : UserCreate) : Answer :=
  if (db.auth.getUserByEmail lib req.email).isSome then
    (.error ⟨409, "A user with this email already exists"⟩, db)
  else
    let r := db.createUser lib req.email req.password.val req.fullName req.isAdmin req.role
    (.ok ⟨"User created", some r.1⟩, r.2.audit caller "user.create" "user" r.1 [])

/-- What `patch_user` refuses before it changes anything. -/
def patchRefused (userId : Nat) (req : UserPatch) : Option HttpError :=
  if req.isActive = some false then
    match db.users.get? userId with
    | none => some ⟨404, "User not found"⟩
    | some target =>
        if target.isAdmin && target.isActive && decide (db.countActiveAdmins ≤ 1) then
          some ⟨409, "Cannot deactivate the last remaining admin account"⟩
        else none
  else none

/-- `if req.is_active is not None: …`. -/
def patchActive (userId : Nat) (isActive : Option Bool) : Except HttpError Unit × AccessDb :=
  match isActive with
  | none => (.ok (), db)
  | some isActive =>
      let r := db.setUserActive userId isActive caller.now
      if r.1 = false then (.error ⟨404, "User not found"⟩, r.2)
      else
        (.ok (), r.2.audit caller "user.set_active" "user" userId [("is_active", .bool isActive)])

/-- `if req.role is not None: …`. -/
def patchRole (userId : Nat) (role : Option String) : Except HttpError Unit × AccessDb :=
  match role with
  | none => (.ok (), db)
  | some role =>
      let r := db.setUserRole userId role
      if r.1 = false then (.error ⟨404, "User or role not found"⟩, r.2)
      else (.ok (), r.2.audit caller "user.set_role" "user" userId [("role", .str role)])

/-- `patch_user`. -/
def servePatchUser (userId : Nat) (req : UserPatch) : Answer :=
  match patchRefused db userId req with
  | some e => (.error e, db)
  | none =>
      match patchActive db caller userId req.isActive with
      | (.error e, db) => (.error e, db)
      | (.ok _, db) =>
          match patchRole db caller userId req.role with
          | (.error e, db) => (.error e, db)
          | (.ok _, db) => (.ok ⟨"User updated", none⟩, db)

/-- `reset_password`. -/
def serveResetPassword (userId : Nat) (password : Password) : Answer :=
  let r := db.setPassword lib userId password.val caller.now
  if r.1 = false then (.error ⟨404, "User not found"⟩, r.2)
  else (.ok ⟨"Password reset", none⟩, r.2.audit caller "user.reset_password" "user" userId [])

/-- `effect`, as `set_user_permission` lets it through. -/
def parseEffect : Option String → Option (Option OverrideEffect)
  | none => some none
  | some "grant" => some (some .grant)
  | some "deny" => some (some .deny)
  | some _ => none

def effectJson : Option String → Value
  | none => .null
  | some effect => .str effect

/-- `set_user_permission`. -/
def serveSetUserPermission (userId : Nat) (permissionKey : String) (effect : Option String) :
    Answer :=
  if permissionKeys.contains permissionKey = false then
    (.error ⟨404, "Unknown permission: " ++ permissionKey⟩, db)
  else
    match parseEffect effect with
    | none => (.error ⟨400, "effect must be 'grant', 'deny', or null"⟩, db)
    | some parsed =>
        match db.setUserPermissionOverride userId permissionKey parsed with
        | .error _ => (.error internalError, db)
        | .ok (false, db) => (.error ⟨404, "User not found"⟩, db)
        | .ok (true, db) =>
            (.ok ⟨"Permission override updated", none⟩,
              db.audit caller "user.permission_override_set" "user" userId
                [("permission_key", .str permissionKey), ("effect", effectJson effect)])

/-! ### `roles.py` -/

/-- `_validate_permission_keys`. -/
def validatePermissionKeys (keys : List String) : Except HttpError Unit :=
  match (keys.filter fun key => !permissionKeys.contains key).dedup.insertionSort (· ≤ ·) with
  | [] => .ok ()
  | unknown => .error ⟨400, "Unknown permission key(s): " ++ ", ".intercalate unknown⟩

def stringsJson (keys : List String) : Value := .list (keys.map .str)

/-- `create_role`. -/
def serveCreateRole (req : RoleCreate) : Answer :=
  match validatePermissionKeys req.permissions with
  | .error e => (.error e, db)
  | .ok _ =>
      match db.createRole req.name req.description req.permissions with
      | .error _ => (.error ⟨409, "A role with this name already exists"⟩, db)
      | .ok (roleId, db) =>
          (.ok ⟨"Role created", some roleId⟩,
            db.audit caller "role.create" "role" roleId
              [("name", .str req.name), ("permissions", stringsJson req.permissions)])

/-- `update_role`. -/
def serveUpdateRole (roleId : Nat) (req : RolePatch) : Answer :=
  match req.permissions.elim (.ok ()) validatePermissionKeys with
  | .error e => (.error e, db)
  | .ok _ =>
      match db.updateRole roleId req.description req.permissions with
      | .error .integrityError => (.error internalError, db)
      | .error _ => (.error ⟨403, "Built-in roles cannot be modified"⟩, db)
      | .ok (false, db) => (.error ⟨404, "Role not found"⟩, db)
      | .ok (true, db) =>
          (.ok ⟨"Role updated", none⟩,
            db.audit caller "role.update" "role" roleId
              [("description", effectJson req.description),
                ("permissions", (req.permissions.map stringsJson).getD .null)])

/-- `delete_role`. -/
def serveDeleteRole (roleId : Nat) : Answer :=
  match db.deleteRole roleId with
  | .error .systemRole => (.error ⟨403, "Built-in roles cannot be deleted"⟩, db)
  | .error _ => (.error ⟨409, "Role is assigned to one or more users"⟩, db)
  | .ok (false, db) => (.error ⟨404, "Role not found"⟩, db)
  | .ok (true, db) =>
      (.ok ⟨"Role deleted", none⟩, db.audit caller "role.delete" "role" roleId [])

/-- `clone_role`. -/
def serveCloneRole (roleId : Nat) (name : String) : Answer :=
  match db.getRole roleId with
  | none => (.error ⟨404, "Role not found"⟩, db)
  | some (source, permissions) =>
      match db.createRole name source.description permissions with
      | .error _ => (.error ⟨409, "A role with this name already exists"⟩, db)
      | .ok (newRoleId, db) =>
          (.ok ⟨"Role cloned", some newRoleId⟩,
            db.audit caller "role.clone" "role" newRoleId
              [("cloned_from", .int roleId), ("name", .str name)])

/-- The handler of a request. -/
def AdminRequest.handle : AdminRequest → Answer
  | .createUser req => serveCreateUser lib db caller req
  | .patchUser userId req => servePatchUser db caller userId req
  | .resetPassword userId password => serveResetPassword lib db caller userId password
  | .setUserPermission userId permissionKey effect =>
      serveSetUserPermission db caller userId permissionKey effect
  | .createRole req => serveCreateRole db caller req
  | .updateRole roleId req => serveUpdateRole db caller roleId req
  | .deleteRole roleId => serveDeleteRole db caller roleId
  | .cloneRole roleId name => serveCloneRole db caller roleId name

end Handlers

/-- A request, past the dependencies of its router. -/
def AdminRequest.serve (settings : AuthSettings) (db : AccessDb) (ctx : RequestContext) (now : Time)
    (req : AdminRequest) : Answer :=
  match getCurrentUser settings db.auth ctx now, verifyCsrf ctx with
  | .error e, _ => (.error e, db)
  | .ok _, .error e => (.error e, db)
  | .ok user, .ok _ =>
      match require [req.requires] user with
      | .error e => (.error e, db)
      | .ok user => req.handle settings.lib db ⟨user, ctx.ip, now⟩

/-! ### Runs -/

/-- The database, and whether a server that has been through its start is up. -/
structure AccessWorld where
  db : AccessDb := {}
  up : Bool := false

inductive AccessAction
  /-- A server starts, and may be killed while it seeds the tables. -/
  | boot (defaults : Iteration) (killedAfter : Option Nat)
  | request (ctx : RequestContext) (now : Time) (req : AdminRequest)

/-- Nothing is served unless a server is up. -/
def AccessWorld.step (settings : AuthSettings) (w : AccessWorld) : AccessAction → Option AccessWorld
  | .boot defaults killedAfter => some ⟨w.db.seedRbac defaults killedAfter, killedAfter.isNone⟩
  | .request ctx now req =>
      if w.up then some { w with db := (req.serve settings w.db ctx now).2 } else none

end GovCrawler
