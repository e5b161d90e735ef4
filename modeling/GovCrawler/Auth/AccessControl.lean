/-
What requests do to the tables of users, roles and permissions, in every run.

A request is served by a few calls of methods, each followed by a row of the audit log.  `Change` is
a call that has gone through, with what the route has checked for it, and `AuditedChange` the call
with its row.  That a request is made of these is proved once; an invariant of all runs is then one
of each method, and one of the start of a server.
-/
import Mathlib.Logic.Relation
import GovCrawler.Auth.AdminRoutes
import GovCrawler.Auth.Reuse
import GovCrawler.Auth.Seeding

namespace GovCrawler

open Relational Transition

/-- The user is the last admin who is active. -/
def AccessDb.LastAdmin (db : AccessDb) (userId : Nat) : Prop :=
  ∃ target, db.users.get? userId = some target ∧ target.isAdmin = true ∧ target.isActive = true ∧
    db.countActiveAdmins ≤ 1

/-- A call that has gone through, behind a router that depends on the permission. -/
inductive Change (lib : AuthLib) (db : AccessDb) : String → AccessDb → Prop
  | createUser (email password : String) (fullName : Option String) (isAdmin : Bool)
      (roleName : Option String) (hfree : db.auth.getUserByEmail lib email = none) :
      Change lib db "users.manage" (db.createUser lib email password fullName isAdmin roleName).2
  | setUserActive (userId : Nat) (isActive : Bool) (now : Time)
      (hguard : isActive = false → ¬ db.LastAdmin userId) :
      Change lib db "users.manage" (db.setUserActive userId isActive now).2
  | setUserRole (userId : Nat) (roleName : String) :
      Change lib db "users.manage" (db.setUserRole userId roleName).2
  | setPassword (userId : Nat) (password : String) (now : Time) :
      Change lib db "users.manage" (db.setPassword lib userId password now).2
  | override (userId : Nat) (permissionKey : String) (effect : Option OverrideEffect) (done : Bool)
      (db' : AccessDb) (hkey : permissionKey ∈ permissionKeys)
      (h : db.setUserPermissionOverride userId permissionKey effect = .ok (done, db')) :
      Change lib db "users.manage" db'
  | createRole (name : String) (description : Option String) (keys : List String) (roleId : Nat)
      (db' : AccessDb) (h : db.createRole name description keys = .ok (roleId, db')) :
      Change lib db "roles.manage" db'
  | updateRole (roleId : Nat) (description : Option String) (keys : Option (List String))
      (done : Bool) (db' : AccessDb) (h : db.updateRole roleId description keys = .ok (done, db')) :
      Change lib db "roles.manage" db'
  | deleteRole (roleId : Nat) (done : Bool) (db' : AccessDb)
      (h : db.deleteRole roleId = .ok (done, db')) : Change lib db "roles.manage" db'

/-- The call, and its row of the audit log. -/
def AuditedChange (lib : AuthLib) (caller : Caller) (perm : String) (db db'' : AccessDb) : Prop :=
  ∃ db' action targetType targetId detail, Change lib db perm db' ∧
    db'' = db'.audit caller action targetType targetId detail

/-! ### Requests are made of audited changes -/

section Requests

variable {lib : AuthLib} {db : AccessDb} {caller : Caller}

theorem AuditedChange.intro {perm : String} {db' : AccessDb} (h : Change lib db perm db')
    (action targetType : String) (targetId : Nat) (detail : Json.Dict) :
    AuditedChange lib caller perm db (db'.audit caller action targetType targetId detail) :=
  ⟨db', action, targetType, targetId, detail, h, rfl⟩

theorem patchRefused_eq_none {userId : Nat} {req : UserPatch}
    (h : patchRefused db userId req = none) :
    req.isActive = some false → ¬ db.LastAdmin userId := by
  rintro hfalse ⟨target, htarget, hadmin, hactive, hcount⟩
  unfold patchRefused at h
  rw [if_pos hfalse, htarget] at h
  dsimp only at h
  rw [hadmin, hactive, decide_eq_true hcount] at h
  cases h

/-- The first half of `patch_user`. -/
theorem patchActive_cases {userId : Nat} {isActive : Option Bool} {r : Except HttpError Unit}
    {db' : AccessDb} (hguard : isActive = some false → ¬ db.LastAdmin userId)
    (h : patchActive db caller userId isActive = (r, db')) :
    db' = db ∨ AuditedChange lib caller "users.manage" db db' := by
  unfold patchActive at h
  cases isActive with
  | none =>
      obtain ⟨-, rfl⟩ := Prod.mk.inj h
      exact Or.inl rfl
  | some isActive =>
      dsimp only at h
      rcases AccessDb.setUserActive_cases userId isActive caller.now with
        ⟨-, heq⟩ | ⟨_, db₁, -, heq, -⟩
      · rw [heq, if_pos rfl] at h
        obtain ⟨-, rfl⟩ := Prod.mk.inj h
        exact Or.inl rfl
      · have hchange : Change lib db "users.manage" _ :=
          .setUserActive userId isActive caller.now fun hfalse => hguard (hfalse ▸ rfl)
        rw [heq] at hchange
        rw [heq, if_neg Bool.true_eq_false_eq_False] at h
        obtain ⟨-, rfl⟩ := Prod.mk.inj h
        exact Or.inr (.intro hchange _ _ _ _)

/-- The second half. -/
theorem patchRole_cases {userId : Nat} {role : Option String} {r : Except HttpError Unit}
    {db' : AccessDb} (h : patchRole db caller userId role = (r, db')) :
    db' = db ∨ AuditedChange lib caller "users.manage" db db' := by
  unfold patchRole at h
  cases role with
  | none =>
      obtain ⟨-, rfl⟩ := Prod.mk.inj h
      exact Or.inl rfl
  | some role =>
      dsimp only at h
      rcases AccessDb.setUserRole_cases userId role with ⟨-, heq⟩ | ⟨_, db₁, _, -, -, heq, -⟩
      · rw [heq, if_pos rfl] at h
        obtain ⟨-, rfl⟩ := Prod.mk.inj h
        exact Or.inl rfl
      · have hchange : Change lib db "users.manage" _ := .setUserRole userId role
        rw [heq] at hchange
        rw [heq, if_neg Bool.true_eq_false_eq_False] at h
        obtain ⟨-, rfl⟩ := Prod.mk.inj h
        exact Or.inr (.intro hchange _ _ _ _)

/-- **A request is made of audited changes** that its router stands for. -/
theorem handle_changes (req : AdminRequest) :
    Relation.ReflTransGen (AuditedChange lib caller req.requires) db
      (req.handle lib db caller).2 := by
  cases req with
  | createUser req =>
      show Relation.ReflTransGen _ db (serveCreateUser lib db caller req).2
      unfold serveCreateUser
      split
      · exact .refl
      · rename_i hfree
        exact .single (.intro (.createUser _ _ _ _ _ (by simpa using hfree)) _ _ _ _)
  | patchUser userId req =>
      show Relation.ReflTransGen _ db (servePatchUser db caller userId req).2
      unfold servePatchUser
      split
      · exact .refl
      · rename_i hchecked
        -- the second half sees what the first one has left
        have hfirst : ∀ {r db₁}, patchActive db caller userId req.isActive = (r, db₁) →
            Relation.ReflTransGen (AuditedChange lib caller "users.manage") db db₁ := by
          intro r db₁ hr
          rcases patchActive_cases (patchRefused_eq_none hchecked) hr with rfl | hchange
          · exact .refl
          · exact .single hchange
        split
        · exact hfirst ‹_›
        · rename_i db₁ hactive
          have hsecond : ∀ {r db₂}, patchRole db₁ caller userId req.role = (r, db₂) →
              Relation.ReflTransGen (AuditedChange lib caller "users.manage") db db₂ := by
            intro r db₂ hr
            rcases patchRole_cases hr with rfl | hchange
            · exact hfirst hactive
            · exact .tail (hfirst hactive) hchange
          split
          · exact hsecond ‹_›
          · exact hsecond ‹_›
  | resetPassword userId password =>
      show Relation.ReflTransGen _ db (serveResetPassword lib db caller userId password).2
      unfold serveResetPassword
      have hchange : Change lib db "users.manage" _ :=
        .setPassword userId password.val caller.now
      rcases AccessDb.setPassword_cases lib userId password.val caller.now with
        ⟨-, heq⟩ | ⟨_, db', -, heq, -⟩
      · rw [heq, if_pos rfl]
      · rw [heq] at hchange ⊢
        rw [if_neg Bool.true_eq_false_eq_False]
        exact .single (.intro hchange _ _ _ _)
  | setUserPermission userId permissionKey effect =>
      show Relation.ReflTransGen _ db
        (serveSetUserPermission db caller userId permissionKey effect).2
      unfold serveSetUserPermission
      split
      · exact .refl
      · rename_i hkey
        split
        · exact .refl
        · split
          · exact .refl
          · rename_i h
            rcases AccessDb.override_cases h with ⟨-, -, rfl⟩ | ⟨_, _, -, hdone, -⟩
            · exact .refl
            · cases hdone
          · rename_i h
            exact .single (.intro (.override _ _ _ _ _ (by simpa using hkey) h) _ _ _ _)
  | createRole req =>
      show Relation.ReflTransGen _ db (serveCreateRole db caller req).2
      unfold serveCreateRole
      split
      · exact .refl
      · split
        · exact .refl
        · exact .single (.intro (.createRole _ _ _ _ _ ‹_›) _ _ _ _)
  | updateRole roleId req =>
      show Relation.ReflTransGen _ db (serveUpdateRole db caller roleId req).2
      unfold serveUpdateRole
      split
      · exact .refl
      · split
        · exact .refl
        · exact .refl
        · rename_i h
          rcases AccessDb.updateRole_cases h with ⟨-, -, rfl⟩ | ⟨_, -, -, hdone, -⟩
          · exact .refl
          · cases hdone
        · exact .single (.intro (.updateRole _ _ _ _ _ ‹_›) _ _ _ _)
  | deleteRole roleId =>
      show Relation.ReflTransGen _ db (serveDeleteRole db caller roleId).2
      unfold serveDeleteRole
      split
      · exact .refl
      · exact .refl
      · rename_i h
        rcases AccessDb.deleteRole_cases h with ⟨-, -, rfl⟩ | ⟨_, -, -, hdone, -⟩
        · exact .refl
        · cases hdone
      · exact .single (.intro (.deleteRole _ _ _ ‹_›) _ _ _ _)
  | cloneRole roleId name =>
      show Relation.ReflTransGen _ db (serveCloneRole db caller roleId name).2
      unfold serveCloneRole
      split
      · exact .refl
      · split
        · exact .refl
        · exact .single (.intro (.createRole _ _ _ _ _ ‹_›) _ _ _ _)

/-- Behind its router, a request is served for a caller who has the permission, or not at all. -/
theorem serve_changes (settings : AuthSettings) (db : AccessDb) (ctx : RequestContext) (now : Time)
    (req : AdminRequest) :
    (req.serve settings db ctx now).2 = db ∨
      ∃ user, getCurrentUser settings db.auth ctx now = .ok user ∧
        user.hasAll [req.requires] = true ∧
        Relation.ReflTransGen (AuditedChange settings.lib ⟨user, ctx.ip, now⟩ req.requires) db
          (req.serve settings db ctx now).2 := by
  unfold AdminRequest.serve
  split
  · exact Or.inl rfl
  · exact Or.inl rfl
  · rename_i user _ huser _
    split
    · exact Or.inl rfl
    · rename_i hrequire
      obtain ⟨hhas, rfl⟩ := require_eq_ok_iff.mp hrequire
      exact Or.inr ⟨user, huser, hhas, handle_changes req⟩

/-- What no change of a request unmakes, no request unmakes. -/
theorem serve_invariant {settings : AuthSettings} {I : AccessDb → Prop} {ctx : RequestContext}
    {now : Time} {req : AdminRequest}
    (hchange : ∀ db db', I db → Change settings.lib db req.requires db' → I db')
    (haudit : ∀ (db : AccessDb) caller action targetType targetId detail, I db →
      I (db.audit caller action targetType targetId detail))
    (hI : I db) : I (req.serve settings db ctx now).2 := by
  rcases serve_changes settings db ctx now req with heq | ⟨user, -, -, hpath⟩
  · rwa [heq]
  · generalize (req.serve settings db ctx now).2 = served at hpath
    induction hpath with
    | refl => exact hI
    | tail _ hstep ih =>
        obtain ⟨db', action, targetType, targetId, detail, hc, rfl⟩ := hstep
        exact haudit _ _ _ _ _ _ (hchange _ _ ih hc)

end Requests

/-! ### What every change keeps -/

/-- The rows of `role_permissions` of a role are what they were. -/
def AccessDb.SameBundle (db db' : AccessDb) (roleId : Nat) : Prop :=
  ∀ rp, rp.roleId = roleId → (rp ∈ db'.rolePermissions.rows ↔ rp ∈ db.rolePermissions.rows)

theorem AccessDb.SameBundle.bundle_eq {db db' : AccessDb} {roleId : Nat}
    (h : db.SameBundle db' roleId) : db'.bundle roleId = db.bundle roleId := by
  unfold AccessDb.bundle
  rw [Table.select_congr fun rp hrp => h rp (by simpa using hrp)]

/-- The catalog is what it was, and the built-in roles are. -/
structure AccessDb.KeepsSystem (db db' : AccessDb) : Prop where
  permissions : db'.permissions = db.permissions
  roles : ∀ r ∈ db.roles.rows, r.isSystem = true → r ∈ db'.roles.rows
  bundles : ∀ r ∈ db.roles.rows, r.isSystem = true → db.SameBundle db' r.id

section Changes

variable {lib : AuthLib} {db db' : AccessDb} {perm : String}

theorem AccessDb.EditsUser.keepsSystem {userId : Nat} {f : User → User}
    (h : db.EditsUser db' userId f) : db.KeepsSystem db' where
  permissions := h.permissions
  roles _ hr _ := h.roles ▸ hr
  bundles _ _ _ _ _ := by rw [h.rolePermissions]

theorem AccessDb.KeepsSystem.refl (db : AccessDb) : db.KeepsSystem db where
  permissions := rfl
  roles _ hr _ := hr
  bundles _ _ _ _ _ := Iff.rfl

theorem keepsSystem_createRole {name : String} {description : Option String} {keys : List String}
    {roleId : Nat} (h : db.createRole name description keys = .ok (roleId, db')) :
    db.KeepsSystem db' := by
  unfold AccessDb.createRole at h
  split at h
  · cases h
  · obtain ⟨-, rfl⟩ := Prod.mk.inj (Except.ok.inj h)
    refine ⟨rfl, fun r hr _ => (Table.mem_insertNew _).mpr (Or.inl hr), fun r hr _ rp hrp => ?_⟩
    rw [AccessDb.mem_addRolePermissions, or_iff_left]
    · rfl
    · rintro ⟨i, key, -, rfl⟩
      exact Nat.ne_of_lt (db.roles.bounded r hr) hrp.symm

theorem ne_of_system {roleId : Nat} {role : RoleRow} (hrole : db.roles.get? roleId = some role)
    (hsystem : role.isSystem = false) : ∀ r ∈ db.roles.rows, r.isSystem = true → r.id ≠ roleId := by
  intro r hr hr' heq
  have hget : db.roles.get? roleId = some r := heq ▸ Table.get?_of_mem hr
  rw [hrole] at hget
  rw [Option.some.inj hget, hr'] at hsystem
  cases hsystem

theorem keepsSystem_updateRole {roleId : Nat} {description : Option String}
    {keys : Option (List String)} {done : Bool}
    (h : db.updateRole roleId description keys = .ok (done, db')) : db.KeepsSystem db' := by
  rcases AccessDb.updateRole_cases h with ⟨-, -, rfl⟩ | ⟨role, hrole, hsystem, -, hdone⟩
  · exact .refl _
  · have hne := ne_of_system hrole hsystem
    have hdescribed : db.KeepsSystem (db.describe roleId description) := by
      cases description with
      | none => exact .refl _
      | some text =>
          refine ⟨rfl, fun r hr hr' => List.mem_map.mpr ⟨r, hr, if_neg ?_⟩,
            fun _ _ _ _ _ => Iff.rfl⟩
          simpa using hne r hr hr'
    rcases hdone with ⟨-, rfl⟩ | ⟨given, -, -, rfl⟩
    · exact hdescribed
    · refine ⟨hdescribed.permissions, hdescribed.roles, fun r hr hr' rp hrp => ?_⟩
      rw [AccessDb.mem_addRolePermissions, or_iff_left]
      · rw [← hdescribed.bundles r hr hr' rp hrp]
        refine ⟨fun hmem => (List.mem_filter.mp hmem).1, fun hmem => List.mem_filter.mpr ⟨hmem, ?_⟩⟩
        simpa [hrp] using hne r hr hr'
      · rintro ⟨i, key, -, rfl⟩
        exact hne r hr hr' hrp.symm

theorem keepsSystem_deleteRole {roleId : Nat} {done : Bool}
    (h : db.deleteRole roleId = .ok (done, db')) : db.KeepsSystem db' := by
  rcases AccessDb.deleteRole_cases h with ⟨-, -, rfl⟩ | ⟨role, hrole, hsystem, -, -, rfl⟩
  · exact .refl _
  · have hne := ne_of_system hrole hsystem
    refine ⟨rfl, fun r hr hr' => List.mem_filter.mpr ⟨hr, by simpa using hne r hr hr'⟩,
      fun r hr hr' rp hrp => ?_⟩
    refine ⟨fun hmem => (List.mem_filter.mp hmem).1, fun hmem => List.mem_filter.mpr ⟨hmem, ?_⟩⟩
    simpa [hrp] using hne r hr hr'

/-- No change touches the catalog or a built-in role. -/
theorem Change.keepsSystem (h : Change lib db perm db') : db.KeepsSystem db' := by
  cases h with
  | createUser => exact ⟨rfl, fun _ hr _ => hr, fun _ _ _ _ _ => Iff.rfl⟩
  | setUserActive userId isActive now hguard =>
      rcases AccessDb.setUserActive_cases userId isActive now with ⟨-, heq⟩ | ⟨_, _, -, heq, hedit⟩
      · rw [heq]
        exact .refl _
      · rw [heq]
        exact hedit.keepsSystem
  | setUserRole userId roleName =>
      rcases AccessDb.setUserRole_cases userId roleName with ⟨-, heq⟩ | ⟨_, _, _, -, -, heq, hedit⟩
      · rw [heq]
        exact .refl _
      · rw [heq]
        exact hedit.keepsSystem
  | setPassword userId password now =>
      rcases AccessDb.setPassword_cases lib userId password now with
        ⟨-, heq⟩ | ⟨_, _, -, heq, hedit⟩
      · rw [heq]
        exact .refl _
      · rw [heq]
        exact hedit.keepsSystem
  | override userId permissionKey effect done db' hkey h =>
      rcases AccessDb.override_cases h with ⟨-, -, rfl⟩ | ⟨_, _, -, -, rfl, -⟩
      · exact .refl _
      · exact ⟨rfl, fun _ hr _ => hr, fun _ _ _ _ _ => Iff.rfl⟩
  | createRole name description keys roleId db' h => exact keepsSystem_createRole h
  | updateRole roleId description keys done db' h => exact keepsSystem_updateRole h
  | deleteRole roleId done db' h => exact keepsSystem_deleteRole h

theorem Change.sound (h : Change lib db perm db') (hsound : db.Sound) (hseeded : db.Seeded) :
    db'.Sound := by
  cases h with
  | createUser email password fullName isAdmin roleName hfree => exact hsound.createUser hfree
  | setUserActive userId isActive now => exact hsound.setUserActive userId isActive now
  | setUserRole userId roleName => exact hsound.setUserRole userId roleName
  | setPassword userId password now => exact hsound.setPassword lib userId password now
  | override userId permissionKey effect done db' hkey h => exact hsound.override h
  | createRole name description keys roleId db' h => exact hsound.createRole hseeded h
  | updateRole roleId description keys done db' h => exact hsound.updateRole h
  | deleteRole roleId done db' h => exact hsound.deleteRole h

theorem AccessDb.KeepsSystem.seeded (h : db.KeepsSystem db') (hsound : db.Sound)
    (hseeded : db.Seeded) : db'.Seeded where
  permissions key hkey := (knowsPermission_congr h.permissions).trans (hseeded.permissions key hkey)
  roles d hd := by
    obtain ⟨r, hr, hname, hkeys⟩ := hseeded.roles d hd
    have hsystem : r.isSystem = true :=
      hsound.builtin r hr (hname ▸ List.mem_map_of_mem hd)
    refine ⟨r, h.roles r hr hsystem, hname, fun key hkey => ?_⟩
    rw [(h.bundles r hr hsystem).bundle_eq]
    exact hkeys key hkey

end Changes

/-! ### Every run -/

structure AccessWorld.Inv (w : AccessWorld) : Prop where
  sound : w.db.Sound
  seeded : w.up = true → w.db.Seeded

theorem step_inv {settings : AuthSettings} {w w' : AccessWorld} {a : AccessAction} (h : w.Inv)
    (hs : w.step settings a = some w') : w'.Inv := by
  cases a with
  | boot defaults killedAfter =>
      obtain rfl := Option.some.inj hs
      obtain ⟨hreseeds, hseeded⟩ := AccessDb.seedRbac_spec h.sound defaults killedAfter
      exact ⟨hreseeds.sound, fun hup => hseeded (Option.isNone_iff_eq_none.mp hup)⟩
  | request ctx now req =>
      rw [AccessWorld.step] at hs
      split at hs
      · rename_i hup
        obtain rfl := Option.some.inj hs
        have hboth : (req.serve settings w.db ctx now).2.Sound ∧
            (req.serve settings w.db ctx now).2.Seeded :=
          serve_invariant (I := fun db => db.Sound ∧ db.Seeded)
            (fun _ _ hI hc => ⟨hc.sound hI.1 hI.2, hc.keepsSystem.seeded hI.1 hI.2⟩)
            (fun _ _ _ _ _ _ hI => ⟨hI.1.writeAudit _ _ _ _ _ _ _, hI.2.permissions, hI.2.roles⟩)
            ⟨h.sound, h.seeded hup⟩
        exact ⟨hboth.1, fun _ => hboth.2⟩
      · cases hs

/-- Tables that were seeded stay so, also where a start is killed. -/
theorem step_seeded {settings : AuthSettings} {w w' : AccessWorld} {a : AccessAction} (h : w.Inv)
    (hseeded : w.db.Seeded) (hs : w.step settings a = some w') : w'.db.Seeded := by
  have hinv' := step_inv h hs
  cases a with
  | boot defaults killedAfter =>
      obtain rfl := Option.some.inj hs
      dsimp only
      rwa [AccessDb.seedRbac_eq_self h.sound hseeded]
  | request ctx now req =>
      rw [AccessWorld.step] at hs
      split at hs
      · rename_i hup
        obtain rfl := Option.some.inj hs
        exact hinv'.seeded hup
      · cases hs

/-- **The tables stay sound, and the built-in roles whole**, in every run of starts, kills and
requests: once a start has come through, they are seeded for good. -/
theorem access_tables_sound (settings : AuthSettings) {w w' : AccessWorld}
    (as : List AccessAction) (h : w.Inv) (hr : run (AccessWorld.step settings) w as = some w') :
    w'.Inv ∧ (w.db.Seeded ∨ (∃ defaults, .boot defaults none ∈ as) → w'.db.Seeded) := by
  induction as generalizing w with
  | nil =>
      obtain rfl : w = w' := by simpa using hr
      refine ⟨h, fun hseeded => hseeded.resolve_right ?_⟩
      rintro ⟨_, hmem⟩
      cases hmem
  | cons a as ih =>
      obtain ⟨w₂, hs, hr'⟩ := run_cons_eq_some.mp hr
      obtain ⟨hinv, hseeds⟩ := ih (step_inv h hs) hr'
      refine ⟨hinv, ?_⟩
      rintro (hseeded | ⟨defaults, hmem⟩)
      · exact hseeds (Or.inl (step_seeded h hseeded hs))
      · rcases List.mem_cons.mp hmem with rfl | hlater
        · have hup : w₂.up = true := by
            obtain rfl := Option.some.inj hs
            rfl
          exact hseeds (Or.inl ((step_inv h hs).seeded hup))
        · exact hseeds (Or.inr ⟨defaults, hlater⟩)

/-! ### The last admin -/

section LastAdmin

variable {lib : AuthLib} {db db' : AccessDb} {perm : String}

theorem countActiveAdmins_pos_iff :
    0 < db.countActiveAdmins ↔ ∃ u ∈ db.users.rows, u.isAdmin = true ∧ u.isActive = true := by
  unfold AccessDb.countActiveAdmins
  rw [Table.count_pos_iff]
  simp only [Bool.and_eq_true]

/-- Who is not the last admin is not the only one. -/
theorem exists_other_admin {userId : Nat} (hpos : 0 < db.countActiveAdmins)
    (h : ¬ db.LastAdmin userId) :
    ∃ u ∈ db.users.rows, (u.isAdmin = true ∧ u.isActive = true) ∧ u.id ≠ userId := by
  obtain ⟨u, hu, hadmin, hactive⟩ := countActiveAdmins_pos_iff.mp hpos
  by_cases hid : u.id = userId
  · have hmany : 1 < db.countActiveAdmins := by
      by_contra hle
      exact h ⟨u, hid ▸ Table.get?_of_mem hu, hadmin, hactive, Nat.le_of_not_lt hle⟩
    obtain ⟨v, hv, hboth, hne⟩ := Table.exists_ne_of_one_lt_count hmany userId
    exact ⟨v, hv, Bool.and_eq_true_iff.mp hboth, hne⟩
  · exact ⟨u, hu, ⟨hadmin, hactive⟩, hid⟩

/-- An edit of one user leaves every admin whom it does not deactivate. -/
theorem AccessDb.EditsUser.admin_left {userId : Nat} {f : User → User}
    (h : db.EditsUser db' userId f) {u : User} (hu : u ∈ db.users.rows)
    (hleft : u.id ≠ userId ∨ ((f u).isAdmin = u.isAdmin ∧ (f u).isActive = u.isActive))
    (hadmin : u.isAdmin = true ∧ u.isActive = true) : 0 < db'.countActiveAdmins := by
  refine countActiveAdmins_pos_iff.mpr ⟨if u.id == userId then f u else u, ?_, ?_⟩
  · rw [h.users]
    exact List.mem_map_of_mem hu
  · split
    · rename_i hid
      rcases hleft with hne | ⟨hsame, hsame'⟩
      · exact absurd (beq_iff_eq.mp hid) hne
      · rwa [hsame, hsame']
    · exact hadmin

theorem Change.admin_left (h : Change lib db perm db') (hpos : 0 < db.countActiveAdmins) :
    0 < db'.countActiveAdmins := by
  obtain ⟨u, hu, hadmin⟩ := countActiveAdmins_pos_iff.mp hpos
  cases h with
  | createUser =>
      exact countActiveAdmins_pos_iff.mpr ⟨u, (Table.mem_insertNew _).mpr (Or.inl hu), hadmin⟩
  | setUserActive userId isActive now hguard =>
      rcases AccessDb.setUserActive_cases userId isActive now with ⟨-, heq⟩ | ⟨_, _, -, heq, hedit⟩
      · rwa [heq]
      · rw [heq]
        cases isActive with
        | true => exact hedit.admin_left hu (Or.inr ⟨rfl, hadmin.2.symm⟩) hadmin
        | false =>
            obtain ⟨v, hv, hvadmin, hne⟩ := exists_other_admin hpos (hguard rfl)
            exact hedit.admin_left hv (Or.inl hne) hvadmin
  | setUserRole userId roleName =>
      rcases AccessDb.setUserRole_cases userId roleName with ⟨-, heq⟩ | ⟨_, _, _, -, -, heq, hedit⟩
      · rwa [heq]
      · rw [heq]
        exact hedit.admin_left hu (Or.inr ⟨rfl, rfl⟩) hadmin
  | setPassword userId password now =>
      rcases AccessDb.setPassword_cases lib userId password now with
        ⟨-, heq⟩ | ⟨_, _, -, heq, hedit⟩
      · rwa [heq]
      · rw [heq]
        exact hedit.admin_left hu (Or.inr ⟨rfl, rfl⟩) hadmin
  | override userId permissionKey effect done db' hkey h =>
      rcases AccessDb.override_cases h with ⟨-, -, rfl⟩ | ⟨_, _, -, -, rfl, -⟩
      · exact hpos
      · exact hpos
  | createRole name description keys roleId db' h =>
      unfold AccessDb.createRole at h
      split at h
      · cases h
      · obtain ⟨-, rfl⟩ := Prod.mk.inj (Except.ok.inj h)
        exact hpos
  | updateRole roleId description keys done db' h =>
      rcases AccessDb.updateRole_cases h with ⟨-, -, rfl⟩ | ⟨_, -, -, -, hdone⟩
      · exact hpos
      · have hdescribed : (db.describe roleId description).users = db.users := by
          cases description <;> rfl
        unfold AccessDb.countActiveAdmins at hpos ⊢
        rcases hdone with ⟨-, rfl⟩ | ⟨given, -, -, rfl⟩
        · rwa [hdescribed]
        · rwa [show (((db.describe roleId description).dropBundle roleId).addRolePermissions roleId
            given).users = db.users from hdescribed]
  | deleteRole roleId done db' h =>
      rcases AccessDb.deleteRole_cases h with ⟨-, -, rfl⟩ | ⟨_, -, -, -, -, rfl⟩
      · exact hpos
      · exact hpos

theorem step_admin_left {settings : AuthSettings} {w w' : AccessWorld} {a : AccessAction}
    (h : w.Inv ∧ 0 < w.db.countActiveAdmins) (hs : w.step settings a = some w') :
    w'.Inv ∧ 0 < w'.db.countActiveAdmins := by
  refine ⟨step_inv h.1 hs, ?_⟩
  cases a with
  | boot defaults killedAfter =>
      obtain rfl := Option.some.inj hs
      have husers := (AccessDb.seedRbac_spec h.1.sound defaults killedAfter).1.users
      unfold AccessDb.countActiveAdmins
      rw [husers]
      exact h.2
  | request ctx now req =>
      rw [AccessWorld.step] at hs
      split at hs
      · obtain rfl := Option.some.inj hs
        exact serve_invariant (I := fun db => 0 < db.countActiveAdmins)
          (fun _ _ hI hc => hc.admin_left hI) (fun _ _ _ _ _ _ hI => hI) h.2
      · cases hs

end LastAdmin

/-- **An admin is left**, in every run, and every user but the last admin can be deactivated. -/
theorem an_admin_is_left (settings : AuthSettings) {w w' : AccessWorld} (as : List AccessAction)
    (h : w.Inv) (hpos : 0 < w.db.countActiveAdmins)
    (hr : run (AccessWorld.step settings) w as = some w') :
    0 < w'.db.countActiveAdmins ∧ ∀ (caller : Caller) (userId : Nat),
      (∃ r, ((AdminRequest.patchUser userId ⟨some false, none⟩).handle settings.lib w'.db
          caller).1 = .ok r) ↔
        (w'.db.users.get? userId).isSome ∧ ¬ w'.db.LastAdmin userId := by
  refine ⟨(run_invariant' (fun _ _ _ => step_admin_left) ⟨h, hpos⟩ hr).2, fun caller userId => ?_⟩
  generalize w'.db = db
  show (∃ r, (servePatchUser db caller userId ⟨some false, none⟩).1 = .ok r) ↔ _
  unfold servePatchUser
  cases hrefused : patchRefused db userId ⟨some false, none⟩ with
  | some e =>
      dsimp only
      refine ⟨fun ⟨_, hr⟩ => (by cases hr), fun ⟨hsome, hlast⟩ => ?_⟩
      unfold patchRefused at hrefused
      obtain ⟨target, htarget⟩ := Option.isSome_iff_exists.mp hsome
      rw [if_pos rfl, htarget] at hrefused
      dsimp only at hrefused
      split at hrefused
      · rename_i hall
        rw [Bool.and_eq_true, Bool.and_eq_true, decide_eq_true_iff] at hall
        exact absurd ⟨target, htarget, hall.1.1, hall.1.2, hall.2⟩ hlast
      · cases hrefused
  | none =>
      have hlast := patchRefused_eq_none hrefused rfl
      dsimp only
      unfold patchActive
      dsimp only
      rcases AccessDb.setUserActive_cases userId false caller.now with
        ⟨hnone, heq⟩ | ⟨user, db', hsome, heq, -⟩
      · rw [heq, if_pos rfl, hnone]
        exact ⟨fun ⟨_, hr⟩ => (by cases hr), fun ⟨hsome, _⟩ => (by cases hsome)⟩
      · rw [heq, if_neg Bool.true_eq_false_eq_False, hsome]
        exact ⟨fun _ => ⟨rfl, hlast⟩, fun _ => ⟨_, rfl⟩⟩

/-! ### A new installation -/

/-- The one user there is, an admin. -/
def newInstallation : AccessDb :=
  (AccessDb.createUser {} plainLib "root@x.org" "correct horse" none true none).2

theorem inv_newInstallation : AccessWorld.Inv ⟨newInstallation, false⟩ where
  sound := AccessDb.sound_empty.createUser rfl
  seeded h := by cases h

def asRoot : RequestContext := { authorization := "Bearer eyJ" }

/-- The first start is killed; after the second there is a new role, but root stays active. -/
def firstDay : List AccessAction :=
  [.boot AccessDb.writtenOrder (some 1), .boot AccessDb.writtenOrder none,
    .request asRoot 0 (.createRole { name := "Auditor", permissions := ["audit.view"] }),
    .request asRoot 0 (.patchUser 1 { isActive := some false })]

/-- The next start is killed too, and takes nothing away. -/
theorem access_tables_sound_firstDay :
    ∃ w', run (AccessWorld.step plainAuth) ⟨newInstallation, false⟩
        (firstDay ++ [.boot AccessDb.writtenOrder (some 0)]) = some w' ∧
      w'.up = false ∧ w'.Inv ∧ w'.db.Seeded := by
  obtain ⟨hinv, hseeded⟩ := access_tables_sound plainAuth
    (firstDay ++ [.boot AccessDb.writtenOrder (some 0)]) inv_newInstallation rfl
  exact ⟨_, rfl, rfl, hinv, hseeded (Or.inr ⟨AccessDb.writtenOrder, by simp [firstDay]⟩)⟩

theorem an_admin_is_left_firstDay :
    ∃ w', run (AccessWorld.step plainAuth) ⟨newInstallation, false⟩ firstDay = some w' ∧
      0 < w'.db.countActiveAdmins :=
  ⟨_, rfl, (an_admin_is_left plainAuth firstDay inv_newInstallation (by decide) rfl).1⟩

end GovCrawler
