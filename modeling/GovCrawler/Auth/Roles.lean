/-
Roles, overrides and the audit log: the methods of `AuthMixin`, `cloud/db/mixins/auth_mixin.py`,
behind the administration of users and roles, with the catalog of `shared/permissions.py`.

`AccessDb` has the tables in full.  What a session sees of them is `AccessDb.auth`, and the methods
that are about users alone are those of that database.

`json.dumps` is left out: the `detail` of an audit row is the value it encodes.
-/
import GovCrawler.Auth.Mixin
import GovCrawler.Lib.Constraints
import GovCrawler.Lib.Json

namespace GovCrawler

open Relational

/-! ### `shared/permissions.py` -/

/-- `PERMISSIONS`. -/
def permissionCatalog : List (String × String) :=
  [("users.manage", "Create, edit, and revoke user accounts"),
    ("roles.manage", "Create and edit roles and their permission bundles"),
    ("audit.view", "View the audit log"),
    ("settings.manage", "Edit global crawl policy / extraction / score weights"),
    ("domains.view", "Browse the domains catalog"),
    ("domains.import", "Trigger a domains catalog import/refresh"),
    ("crawl.run", "Create and start crawl jobs; cancel own jobs"),
    ("crawl.cancel_all", "Cancel any user's crawl job"),
    ("jobs.view_all", "See all users' crawl jobs (else own only)"),
    ("leads.view", "Browse the shared leads pool"),
    ("leads.edit", "Edit lead fields"),
    ("leads.export", "Export leads to CSV"),
    ("leads.import", "Bulk-import leads from CSV"),
    ("campaigns.manage", "Create and edit campaigns, templates usage"),
    ("campaigns.dispatch", "Start/pause/cancel campaign dispatch"),
    ("campaigns.view_all", "See all users' campaigns (else own only)"),
    ("templates.manage", "Create, edit, and delete email templates"),
    ("credentials.manage", "Create, edit, and delete SMTP credentials"),
    ("blacklist.manage", "Add/remove blacklist entries")]

theorem keys_permissionCatalog : permissionCatalog.map Prod.fst = permissionKeys := rfl

/-- `ROLE_DEFAULTS`.  The permissions of a role are a set there. -/
def roleDefaults : List (String × List String) :=
  [("Admin", permissionKeys),
    ("Operator",
      ["domains.view", "domains.import", "crawl.run", "leads.view", "leads.edit", "leads.export",
        "leads.import", "campaigns.manage", "campaigns.dispatch", "templates.manage",
        "credentials.manage", "blacklist.manage"]),
    ("Viewer", ["domains.view", "leads.view"])]

/-- A way to iterate over `ROLE_DEFAULTS`: the order of a set is up to the interpreter. -/
def Iterates (defaults : List (String × List String)) : Prop :=
  defaults.map Prod.fst = roleDefaults.map Prod.fst ∧
    ∀ d ∈ defaults, ∀ e ∈ roleDefaults, d.1 = e.1 → d.2.Perm e.2

abbrev Iteration : Type := { defaults // Iterates defaults }

/-! ### Tables -/

structure Permission where
  key : String
  description : String
  deriving DecidableEq, Repr

/-- All columns of `roles`. -/
structure RoleRow extends Role where
  description : Option String := none
  isSystem : Bool := false
  deriving DecidableEq, Repr

structure AuditLog where
  id : Nat
  userId : Option Nat
  action : String
  targetType : Option String := none
  targetId : Option String := none
  detail : Option Json.Dict := none
  ip : Option String := none
  createdAt : Time
  deriving Repr

instance : Keyed RoleRow := ⟨fun r => r.id⟩
instance : Keyed AuditLog := ⟨AuditLog.id⟩

structure AccessDb where
  permissions : List Permission := []
  roles : Table RoleRow := Table.empty
  rolePermissions : Table RolePermission := Table.empty
  users : Table User := Table.empty
  userPermissions : Table UserPermission := Table.empty
  userSessions : Table UserSession := Table.empty
  auditLog : Table AuditLog := Table.empty

/-- What `AuthMixin` raises. -/
inductive DbError
  | integrityError
  /-- `ValueError("system_role")`. -/
  | systemRole
  /-- `ValueError("in_use")`. -/
  | inUse
  deriving DecidableEq, Repr

namespace AccessDb

variable (db : AccessDb)

/-- What the requests of a session see. -/
def auth : AuthDb where
  roles := db.roles.mapRows RoleRow.toRole fun _ => rfl
  rolePermissions := db.rolePermissions
  users := db.users
  userPermissions := db.userPermissions
  userSessions := db.userSessions

def withAccounts (auth : AuthDb) : AccessDb :=
  { db with users := auth.users, userSessions := auth.userSessions }

def knowsPermission (key : String) : Bool := db.permissions.any fun p => p.key == key

/-- The keys of `s.query(RolePermission.permission_key).filter_by(role_id=role_id)`. -/
def bundle (roleId : Nat) : List String :=
  (db.rolePermissions.select fun rp => rp.roleId == roleId).map RolePermission.permissionKey

/-! ### `seed_rbac` -/

def seedPermissions : AccessDb :=
  { db with
    permissions := db.permissions ++
      (permissionCatalog.filter fun p => !db.knowsPermission p.1).map fun p => ⟨p.1, p.2⟩ }

/-- `s.add(RolePermission(role_id=role_id, permission_key=key))` for each key. -/
def addRolePermissions (roleId : Nat) (keys : List String) : AccessDb :=
  { db with
    rolePermissions := keys.foldl
      (fun t permissionKey => t.insertNew fun id => { id, roleId, permissionKey })
      db.rolePermissions }

/-- The permissions of a role that it lacks. -/
def addMissing (roleId : Nat) (keys : List String) : AccessDb :=
  db.addRolePermissions roleId (keys.filter fun key => !(db.bundle roleId).contains key)

def addRole (name : String) (description : Option String) (isSystem : Bool) : AccessDb :=
  { db with roles := db.roles.insertNew fun id => { id, name, description, isSystem } }

end AccessDb

/-- The session of `seed_rbac`: what has been committed, and what it would commit now. -/
structure Seeding where
  committed : AccessDb
  session : AccessDb

/-- One role of the loop.  Making a role commits, and with it what earlier roles were given. -/
def Seeding.role (existing : Table RoleRow) (s : Seeding) (d : String × List String) : Seeding :=
  match existing.first? fun r => r.name == d.1 with
  | some role => { s with session := s.session.addMissing role.id d.2 }
  | none =>
      let db := s.session.addRole d.1 none true
      ⟨db, db.addMissing s.session.roles.nextKey d.2⟩

/-- `seed_rbac`, which may be killed when it has been through some of the roles. -/
def AccessDb.seedRbac (db : AccessDb) (defaults : Iteration) (killedAfter : Option Nat) :
    AccessDb :=
  let db := db.seedPermissions
  match killedAfter with
  | some n => ((defaults.val.take n).foldl (Seeding.role db.roles) ⟨db, db⟩).committed
  | none => (defaults.val.foldl (Seeding.role db.roles) ⟨db, db⟩).session

namespace AccessDb

variable (db : AccessDb)

/-! ### Users -/

/-- `create_user`, with the id of the new user. -/
def createUser (lib : AuthLib) (email password : String) (fullName : Option String)
    (isAdmin : Bool) (roleName : Option String) : Nat × AccessDb :=
  (db.users.nextKey,
    db.withAccounts (db.auth.createUser lib email password fullName isAdmin roleName))

/-- `set_password`. -/
def setPassword (lib : AuthLib) (userId : Nat) (password : String) (now : Time) :
    Bool × AccessDb :=
  let r := db.auth.setPassword lib userId password now
  (r.1, db.withAccounts r.2)

/-- `set_user_active`. -/
def setUserActive (userId : Nat) (isActive : Bool) (now : Time) : Bool × AccessDb :=
  let r := db.auth.setUserActive userId isActive now
  (r.1, db.withAccounts r.2)

/-- `count_active_admins`. -/
def countActiveAdmins : Nat := db.users.count fun u => u.isAdmin && u.isActive

/-- `set_user_role`. -/
def setUserRole (userId : Nat) (roleName : String) : Bool × AccessDb :=
  match db.users.get? userId with
  | none => (false, db)
  | some _ =>
      if roleName ≠ "" then
        match db.roles.first? fun r => r.name == roleName with
        | none => (false, db)
        | some role =>
            (true, db.withAccounts (db.auth.updateUser userId fun u =>
              { u with roleId := some role.id }))
      else (true, db.withAccounts (db.auth.updateUser userId fun u => { u with roleId := none }))

/-! ### Roles -/

/-- `s.commit()` of new role permissions: the pairs must be new, and the keys rows of
`permissions`. -/
def acceptsKeys (keys : List String) : Bool :=
  decide keys.Nodup && keys.all fun key => db.knowsPermission key

/-- `create_role`, with the id of the new role. -/
def createRole (name : String) (description : Option String) (permissionKeys : List String) :
    Except DbError (Nat × AccessDb) :=
  if (db.roles.first? fun r => r.name == name).isSome || !db.acceptsKeys permissionKeys then
    .error .integrityError
  else
    .ok (db.roles.nextKey,
      (db.addRole name description false).addRolePermissions db.roles.nextKey permissionKeys)

def dropBundle (roleId : Nat) : AccessDb :=
  { db with rolePermissions := db.rolePermissions.deleteWhere fun rp => rp.roleId == roleId }

/-- `update_role`. -/
def updateRole (roleId : Nat) (description : Option String)
    (permissionKeys : Option (List String)) : Except DbError (Bool × AccessDb) :=
  match db.roles.get? roleId with
  | none => .ok (false, db)
  | some role =>
      if role.isSystem then .error .systemRole
      else
        let described := match description with
          | none => db
          | some text =>
              { db with
                roles := db.roles.updateWhere (fun r => r.id == roleId) fun r =>
                  { r with description := some text } }
        match permissionKeys with
        | none => .ok (true, described)
        | some keys =>
            if db.acceptsKeys keys then
              .ok (true, (described.dropBundle roleId).addRolePermissions roleId keys)
            else .error .integrityError

/-- `delete_role`. -/
def deleteRole (roleId : Nat) : Except DbError (Bool × AccessDb) :=
  match db.roles.get? roleId with
  | none => .ok (false, db)
  | some role =>
      if role.isSystem then .error .systemRole
      else if (db.users.first? fun u => u.roleId == some roleId).isSome then .error .inUse
      else
        .ok (true,
          { db.dropBundle roleId with roles := db.roles.deleteWhere fun r => r.id == roleId })

/-- `get_role`: the row, and its sorted bundle. -/
def getRole (roleId : Nat) : Option (RoleRow × List String) :=
  (db.roles.get? roleId).map fun role => (role, (db.bundle roleId).insertionSort (· ≤ ·))

/-! ### Overrides -/

def overrideOf (userId : Nat) (permissionKey : String) : Option UserPermission :=
  db.userPermissions.first? fun o => o.userId == userId && o.permissionKey == permissionKey

/-- `set_user_permission_override`. -/
def setUserPermissionOverride (userId : Nat) (permissionKey : String)
    (effect : Option OverrideEffect) : Except DbError (Bool × AccessDb) :=
  match db.users.get? userId with
  | none => .ok (false, db)
  | some _ =>
      match effect, db.overrideOf userId permissionKey with
      | none, none => .ok (true, db)
      | none, some o =>
          .ok (true,
            { db with userPermissions := db.userPermissions.deleteWhere fun q => q.id == o.id })
      | some effect, some o =>
          .ok (true,
            { db with
              userPermissions := db.userPermissions.updateWhere (fun q => q.id == o.id) fun q =>
                { q with effect } })
      | some effect, none =>
          if db.knowsPermission permissionKey then
            .ok (true,
              { db with
                userPermissions := db.userPermissions.insertNew fun id =>
                  { id, userId, permissionKey, effect } })
          else .error .integrityError

/-! ### Audit -/

/-- `write_audit`. -/
def writeAudit (userId : Option Nat) (action : String) (targetType : Option String)
    (targetId : Option Nat) (detail : Json.Dict) (ip : Option String) (now : Time) : AccessDb :=
  { db with
    auditLog := db.auditLog.insertNew fun id =>
      { id, userId, action, targetType, targetId := targetId.map toString
        detail := if detail.isEmpty then none else some detail, ip, createdAt := now } }

/-! ### What the methods do -/

/-- One user has been edited, and sessions perhaps. -/
structure EditsUser (db' : AccessDb) (userId : Nat) (f : User → User) : Prop where
  key : ∀ u, (f u).id = u.id
  users : db'.users = db.users.updateWhere (fun u => u.id == userId) f key
  permissions : db'.permissions = db.permissions
  roles : db'.roles = db.roles
  rolePermissions : db'.rolePermissions = db.rolePermissions
  userPermissions : db'.userPermissions = db.userPermissions
  auditLog : db'.auditLog = db.auditLog

variable {db}

theorem editsUser_withAccounts {auth : AuthDb} {userId : Nat} {f : User → User}
    (hf : ∀ u, (f u).id = u.id) (h : auth.users = (db.auth.updateUser userId f hf).users) :
    db.EditsUser (db.withAccounts auth) userId f where
  key := hf
  users := h
  permissions := rfl
  roles := rfl
  rolePermissions := rfl
  userPermissions := rfl
  auditLog := rfl

theorem setPassword_cases (lib : AuthLib) (userId : Nat) (password : String) (now : Time) :
    (db.users.get? userId = none ∧ db.setPassword lib userId password now = (false, db)) ∨
      ∃ user db', db.users.get? userId = some user ∧
        db.setPassword lib userId password now = (true, db') ∧
        db.EditsUser db' userId fun u =>
          { u with
            passwordHash := lib.hashPassword password
            tokenVersion := u.tokenVersion + 1 } := by
  have husers : db.auth.users = db.users := rfl
  unfold setPassword AuthDb.setPassword
  rw [husers]
  cases db.users.get? userId with
  | none => exact Or.inl ⟨rfl, rfl⟩
  | some user =>
      exact Or.inr ⟨user, _, rfl, rfl, editsUser_withAccounts (by intro _; rfl) rfl⟩

theorem setUserActive_cases (userId : Nat) (isActive : Bool) (now : Time) :
    (db.users.get? userId = none ∧ db.setUserActive userId isActive now = (false, db)) ∨
      ∃ user db', db.users.get? userId = some user ∧
        db.setUserActive userId isActive now = (true, db') ∧
        db.EditsUser db' userId fun u =>
          { u with
            isActive
            tokenVersion := if isActive then u.tokenVersion else u.tokenVersion + 1 } := by
  have husers : db.auth.users = db.users := rfl
  unfold setUserActive AuthDb.setUserActive
  rw [husers]
  cases db.users.get? userId with
  | none => exact Or.inl ⟨rfl, rfl⟩
  | some user =>
      cases isActive with
      | true => exact Or.inr ⟨user, _, rfl, rfl, editsUser_withAccounts (by intro _; rfl) rfl⟩
      | false => exact Or.inr ⟨user, _, rfl, rfl, editsUser_withAccounts (by intro _; rfl) rfl⟩

/-- The role that a name stands for in `set_user_role`: none for the empty name. -/
def namesRole (roleName : String) (roleId : Option Nat) : Prop :=
  if roleName = "" then roleId = none
  else ∃ role, (db.roles.first? fun r => r.name == roleName) = some role ∧ roleId = some role.id

theorem setUserRole_cases (userId : Nat) (roleName : String) :
    ((db.users.get? userId = none ∨
        (roleName ≠ "" ∧ (db.roles.first? fun r => r.name == roleName) = none)) ∧
      db.setUserRole userId roleName = (false, db)) ∨
      ∃ user db' roleId, db.users.get? userId = some user ∧ db.namesRole roleName roleId ∧
        db.setUserRole userId roleName = (true, db') ∧
        db.EditsUser db' userId fun u => { u with roleId } := by
  unfold setUserRole
  cases db.users.get? userId with
  | none => exact Or.inl ⟨Or.inl rfl, rfl⟩
  | some user =>
      by_cases hname : roleName = ""
      · have hnames : db.namesRole roleName none := by rw [namesRole, if_pos hname]
        exact Or.inr ⟨user, _, none, rfl, hnames, if_neg (not_not.mpr hname),
          editsUser_withAccounts (by intro _; rfl) rfl⟩
      · cases hrole : db.roles.first? fun r => r.name == roleName with
        | none => exact Or.inl ⟨Or.inr ⟨hname, rfl⟩, if_pos hname⟩
        | some role =>
            have hnames : db.namesRole roleName (some role.id) := by
              rw [namesRole, if_neg hname]
              exact ⟨role, hrole, rfl⟩
            exact Or.inr ⟨user, _, some role.id, rfl, hnames, if_pos hname,
              editsUser_withAccounts (by intro _; rfl) rfl⟩

end AccessDb

end GovCrawler
