/-
What a user may do, and who can change it.

`resolve_effective_permissions` starts from the bundle of the role and applies the overrides one by
one.  There is at most one for each permission, so their order does not matter: an override decides
its permission, and where there is none the role does.  An override that is set therefore decides
about that permission of that user and nothing else.

Roles are edited behind another permission than users.  Who may edit roles only, changes what the
users of custom roles may do, but neither a user nor an override nor a built-in role.
-/
import GovCrawler.Auth.AccessControl

namespace GovCrawler

open Relational Transition

namespace AccessDb

/-! ### The law -/

theorem mem_applyOverride {perms : List String} {o : UserPermission} {key : String} :
    key ∈ AuthDb.applyOverride perms o ↔
      (o.permissionKey = key ∧ o.effect = .grant) ∨ (key ∈ perms ∧ o.permissionKey ≠ key) ∨
        (key ∈ perms ∧ o.effect = .grant) := by
  unfold AuthDb.applyOverride
  cases heffect : o.effect with
  | grant =>
      dsimp only
      split
      · rename_i hmem
        rw [List.contains_iff_mem] at hmem
        exact ⟨fun h => Or.inr (Or.inr ⟨h, rfl⟩), fun h => h.elim (fun h => h.1 ▸ hmem)
          fun h => h.elim And.left And.left⟩
      · rw [List.mem_append, List.mem_singleton]
        constructor
        · rintro (h | rfl)
          · exact Or.inr (Or.inr ⟨h, rfl⟩)
          · exact Or.inl ⟨rfl, rfl⟩
        · rintro (⟨rfl, -⟩ | ⟨h, -⟩ | ⟨h, -⟩)
          · exact Or.inr rfl
          · exact Or.inl h
          · exact Or.inl h
  | deny =>
      dsimp only
      rw [List.mem_filter, decide_eq_true_iff]
      constructor
      · exact fun ⟨h, hne⟩ => Or.inr (Or.inl ⟨h, hne.symm⟩)
      · rintro (⟨-, h⟩ | ⟨h, hne⟩ | ⟨-, h⟩)
        · cases h
        · exact ⟨h, hne.symm⟩
        · cases h

/-- Overrides of different permissions: each decides its own. -/
theorem mem_foldl_applyOverride {os : List UserPermission}
    (hnodup : (os.map UserPermission.permissionKey).Nodup) {perms : List String} {key : String} :
    key ∈ os.foldl AuthDb.applyOverride perms ↔
      (∃ o ∈ os, o.permissionKey = key ∧ o.effect = .grant) ∨
        (key ∈ perms ∧ ∀ o ∈ os, o.permissionKey ≠ key) := by
  induction os generalizing perms with
  | nil => simp
  | cons o os ih =>
      rw [List.map_cons, List.nodup_cons] at hnodup
      rw [List.foldl_cons, ih hnodup.2, mem_applyOverride]
      -- the later overrides are of other permissions than this one
      have hother : ∀ q ∈ os, q.permissionKey ≠ o.permissionKey :=
        fun q hq heq => hnodup.1 (heq ▸ List.mem_map_of_mem hq)
      simp only [List.mem_cons, exists_eq_or_imp, forall_eq_or_imp]
      constructor
      · rintro (h | ⟨(h | h | h), hrest⟩)
        · exact Or.inl (Or.inr h)
        · exact Or.inl (Or.inl h)
        · exact Or.inr ⟨h.1, h.2, hrest⟩
        · by_cases hkey : o.permissionKey = key
          · exact Or.inl (Or.inl ⟨hkey, h.2⟩)
          · exact Or.inr ⟨h.1, hkey, hrest⟩
      · rintro ((h | h) | ⟨hmem, hkey, hrest⟩)
        · exact Or.inr ⟨Or.inl h, fun q hq => h.1 ▸ hother q hq⟩
        · exact Or.inl h
        · exact Or.inr ⟨Or.inr (Or.inl ⟨hmem, hkey⟩), hrest⟩

/-- There is an override of the permission, with this effect. -/
def Overrides (db : AccessDb) (userId : Nat) (key : String) (effect : OverrideEffect) : Prop :=
  ∃ o ∈ db.userPermissions.rows, o.userId = userId ∧ o.permissionKey = key ∧ o.effect = effect

/-- The role of the user has the permission. -/
def RoleAllows (db : AccessDb) (user : User) (key : String) : Prop :=
  ∃ roleId, user.roleId = some roleId ∧ key ∈ db.bundle roleId

variable {db db' : AccessDb}

/-- Who is no admin starts from the bundle of the role. -/
theorem resolve_of_not_admin {userId : Nat} {user : User}
    (huser : db.users.get? userId = some user) (hadmin : user.isAdmin = false) :
    ∃ perms, db.auth.resolveEffectivePermissions userId =
        (db.auth.userPermissions.select fun o => o.userId == userId).foldl AuthDb.applyOverride
          perms ∧
      ∀ key, key ∈ perms ↔ db.RoleAllows user key := by
  have hget : db.auth.users.get? userId = some user := huser
  unfold AuthDb.resolveEffectivePermissions
  rw [hget]
  dsimp only
  rw [if_neg (by rw [hadmin]; exact Bool.false_ne_true)]
  cases hrole : user.roleId with
  | none =>
      refine ⟨[], rfl, fun key => ⟨fun h => absurd h List.not_mem_nil, ?_⟩⟩
      rintro ⟨roleId, hsome, -⟩
      rw [hrole] at hsome
      cases hsome
  | some roleId =>
      refine ⟨db.bundle roleId, rfl, fun key => ⟨fun h => ⟨roleId, hrole, h⟩, ?_⟩⟩
      rintro ⟨roleId', hsome, hkey⟩
      rw [hrole] at hsome
      rwa [Option.some.inj hsome]

theorem mem_select_overrides {userId : Nat} {o : UserPermission} :
    o ∈ db.auth.userPermissions.select (fun o => o.userId == userId) ↔
      o ∈ db.userPermissions.rows ∧ o.userId = userId := by
  rw [Table.mem_select, beq_iff_eq]
  rfl

/-- The overrides of one user are of different permissions. -/
theorem Sound.nodup_overrides (h : db.Sound) (userId : Nat) :
    ((db.auth.userPermissions.select fun o => o.userId == userId).map
      UserPermission.permissionKey).Nodup := by
  have hrows : (db.auth.userPermissions.select fun o => o.userId == userId).Nodup :=
    (db.userPermissions.sorted.filter _).imp fun hlt heq => Nat.ne_of_lt hlt (congrArg _ heq)
  refine hrows.map_on fun a ha b hb hab => ?_
  obtain ⟨ha, hua⟩ := mem_select_overrides.mp ha
  obtain ⟨hb, hub⟩ := mem_select_overrides.mp hb
  exact h.overrides a ha b hb (Prod.ext (hua.trans hub.symm) hab)

/-- What a user who is no admin may do. -/
theorem mem_effective_iff (h : db.Sound) {userId : Nat} {user : User}
    (huser : db.users.get? userId = some user) (hadmin : user.isAdmin = false) {key : String} :
    key ∈ db.auth.resolveEffectivePermissions userId ↔
      db.Overrides userId key .grant ∨
        (db.RoleAllows user key ∧ ¬ db.Overrides userId key .deny) := by
  obtain ⟨perms, heq, hperms⟩ := resolve_of_not_admin huser hadmin
  rw [heq, mem_foldl_applyOverride (h.nodup_overrides userId), hperms]
  constructor
  · rintro (⟨o, ho, hkey, heffect⟩ | ⟨hallows, hnone⟩)
    · obtain ⟨ho, hu⟩ := mem_select_overrides.mp ho
      exact Or.inl ⟨o, ho, hu, hkey, heffect⟩
    · refine Or.inr ⟨hallows, ?_⟩
      rintro ⟨o, ho, hu, hkey, -⟩
      exact hnone o (mem_select_overrides.mpr ⟨ho, hu⟩) hkey
  · rintro (⟨o, ho, hu, hkey, heffect⟩ | ⟨hallows, hdeny⟩)
    · exact Or.inl ⟨o, mem_select_overrides.mpr ⟨ho, hu⟩, hkey, heffect⟩
    · by_cases hsome : ∃ o ∈ db.auth.userPermissions.select (fun o => o.userId == userId),
          o.permissionKey = key
      · obtain ⟨o, ho, hkey⟩ := hsome
        obtain ⟨hrow, hu⟩ := mem_select_overrides.mp ho
        cases heffect : o.effect with
        | grant => exact Or.inl ⟨o, ho, hkey, heffect⟩
        | deny => exact absurd ⟨o, hrow, hu, hkey, heffect⟩ hdeny
      · exact Or.inr ⟨hallows, fun o ho hkey => hsome ⟨o, ho, hkey⟩⟩

theorem effective_of_admin {userId : Nat} {user : User}
    (huser : db.users.get? userId = some user) (hadmin : user.isAdmin = true) :
    db.auth.resolveEffectivePermissions userId = permissionKeys := by
  have hget : db.auth.users.get? userId = some user := huser
  unfold AuthDb.resolveEffectivePermissions
  rw [hget]
  exact if_pos hadmin

theorem effective_of_no_user {userId : Nat} (h : db.users.get? userId = none) :
    db.auth.resolveEffectivePermissions userId = [] := by
  have hget : db.auth.users.get? userId = none := h
  unfold AuthDb.resolveEffectivePermissions
  rw [hget]

/-! ### An override decides -/

theorem overrideOf_spec {userId : Nat} {key : String} {o : UserPermission}
    (h : db.overrideOf userId key = some o) :
    o ∈ db.userPermissions.rows ∧ o.userId = userId ∧ o.permissionKey = key := by
  obtain ⟨hp, hget⟩ := Table.first?_spec h
  rw [Bool.and_eq_true, beq_iff_eq, beq_iff_eq] at hp
  exact ⟨Table.get?_mem hget, hp⟩

/-- The overrides of the permission of the user become this one; the others stay. -/
theorem SetsOverride.overrides_iff (h : db.Sound) {userId : Nat} {key : String}
    {effect : Option OverrideEffect} {t : Table UserPermission}
    (hset : SetsOverride db userId key effect t) {userId' : Nat} {key' : String}
    {e : OverrideEffect} :
    Overrides { db with userPermissions := t } userId' key' e ↔
      if userId' = userId ∧ key' = key then effect = some e else db.Overrides userId' key' e := by
  unfold Overrides
  cases hset with
  | absent hnone =>
      split
      · rename_i hsame
        obtain ⟨rfl, rfl⟩ := hsame
        refine ⟨?_, fun hfalse => (by cases hfalse)⟩
        rintro ⟨o, ho, hu, hk, -⟩
        exact absurd (Prod.ext hu hk) (overrideOf_eq_none hnone o ho)
      · rfl
  | delete o ho =>
      obtain ⟨hmem, rfl, rfl⟩ := overrideOf_spec ho
      split
      · rename_i hsame
        obtain ⟨rfl, rfl⟩ := hsame
        refine ⟨?_, fun hfalse => (by cases hfalse)⟩
        rintro ⟨q, hq, hu, hk, -⟩
        obtain ⟨hq, hne⟩ := List.mem_filter.mp hq
        rw [h.overrides q hq o hmem (Prod.ext hu hk)] at hne
        simp at hne
      · rename_i hother
        constructor
        · rintro ⟨q, hq, hrest⟩
          exact ⟨q, (List.mem_filter.mp hq).1, hrest⟩
        · rintro ⟨q, hq, rfl, rfl, he⟩
          refine ⟨q, List.mem_filter.mpr ⟨hq, ?_⟩, rfl, rfl, he⟩
          rw [Bool.not_eq_true', beq_eq_false_iff_ne]
          intro hid
          rw [Table.eq_of_key_eq _ hq hmem hid] at hother
          exact hother ⟨rfl, rfl⟩
  | update effect o ho =>
      obtain ⟨hmem, rfl, rfl⟩ := overrideOf_spec ho
      have himage : ∀ {q : UserPermission},
          q ∈ (db.userPermissions.updateWhere (fun q => q.id == o.id) fun q =>
            { q with effect }).rows ↔
          (q ∈ db.userPermissions.rows ∧ q.id ≠ o.id) ∨ q = { o with effect } :=
        db.userPermissions.mem_updateWhere_key _ (by intro _; rfl) hmem
      split
      · rename_i hsame
        obtain ⟨rfl, rfl⟩ := hsame
        constructor
        · rintro ⟨q, hq, hu, hk, rfl⟩
          rcases himage.mp hq with ⟨hq, hne⟩ | rfl
          · exact absurd (congrArg _ (h.overrides q hq o hmem (Prod.ext hu hk))) hne
          · rfl
        · intro heq
          exact ⟨_, himage.mpr (Or.inr rfl), rfl, rfl, Option.some.inj heq⟩
      · rename_i hother
        constructor
        · rintro ⟨q, hq, rfl, rfl, he⟩
          rcases himage.mp hq with ⟨hq, -⟩ | rfl
          · exact ⟨q, hq, rfl, rfl, he⟩
          · exact absurd ⟨rfl, rfl⟩ hother
        · rintro ⟨q, hq, rfl, rfl, he⟩
          refine ⟨q, himage.mpr (Or.inl ⟨hq, fun hid => ?_⟩), rfl, rfl, he⟩
          rw [Table.eq_of_key_eq _ hq hmem hid] at hother
          exact hother ⟨rfl, rfl⟩
  | insert effect hnone hknown =>
      have hnew := overrideOf_eq_none hnone
      split
      · rename_i hsame
        obtain ⟨rfl, rfl⟩ := hsame
        constructor
        · rintro ⟨q, hq, hu, hk, rfl⟩
          rcases (Table.mem_insertNew _).mp hq with hq | rfl
          · exact absurd (Prod.ext hu hk) (hnew q hq)
          · rfl
        · intro heq
          exact ⟨_, (Table.mem_insertNew _).mpr (Or.inr rfl), rfl, rfl, Option.some.inj heq⟩
      · rename_i hother
        constructor
        · rintro ⟨q, hq, rfl, rfl, he⟩
          rcases (Table.mem_insertNew _).mp hq with hq | rfl
          · exact ⟨q, hq, rfl, rfl, he⟩
          · exact absurd ⟨rfl, rfl⟩ hother
        · rintro ⟨q, hq, hrest⟩
          exact ⟨q, (Table.mem_insertNew _).mpr (Or.inl hq), hrest⟩

/-- Who may do what, after an override of one permission of one user. -/
theorem SetsOverride.mem_effective (h : db.Sound) {userId : Nat} {user : User} {key : String}
    {effect : Option OverrideEffect} {t : Table UserPermission}
    (huser : db.users.get? userId = some user) (hset : SetsOverride db userId key effect t)
    (userId' : Nat) (key' : String) :
    key' ∈ (AccessDb.auth { db with userPermissions := t }).resolveEffectivePermissions userId' ↔
      if userId' = userId ∧ key' = key ∧ user.isAdmin = false then
        effect = some .grant ∨ (effect = none ∧ db.RoleAllows user key)
      else key' ∈ db.auth.resolveEffectivePermissions userId' := by
  have hsound := h.setsOverride (Option.isSome_iff_exists.mpr ⟨user, huser⟩) hset
  cases huser' : db.users.get? userId' with
  | none =>
      have hne : ¬ (userId' = userId ∧ key' = key ∧ user.isAdmin = false) := by
        rintro ⟨rfl, -⟩
        rw [huser] at huser'
        cases huser'
      rw [if_neg hne, effective_of_no_user huser', effective_of_no_user (by exact huser')]
  | some user' =>
      cases hadmin : user'.isAdmin with
      | true =>
          have hne : ¬ (userId' = userId ∧ key' = key ∧ user.isAdmin = false) := by
            rintro ⟨rfl, -, hfalse⟩
            rw [huser] at huser'
            rw [Option.some.inj huser', hadmin] at hfalse
            cases hfalse
          rw [if_neg hne, effective_of_admin huser' hadmin,
            effective_of_admin (by exact huser') hadmin]
      | false =>
          have hrole : RoleAllows { db with userPermissions := t } user' key' ↔
              db.RoleAllows user' key' := Iff.rfl
          rw [mem_effective_iff hsound huser' hadmin, mem_effective_iff h huser' hadmin,
            hset.overrides_iff h, hset.overrides_iff h, hrole]
          by_cases hsame : userId' = userId ∧ key' = key
          · obtain ⟨rfl, rfl⟩ := hsame
            rw [huser] at huser'
            obtain rfl := Option.some.inj huser'
            rw [if_pos ⟨rfl, rfl⟩, if_pos ⟨rfl, rfl⟩, if_pos ⟨rfl, rfl, hadmin⟩]
            -- the role decides where the override is taken away
            cases effect with
            | none => simp
            | some effect => cases effect <;> simp
          · rw [if_neg hsame, if_neg hsame, if_neg fun hall => hsame ⟨hall.1, hall.2.1⟩]

/-- **An override decides about its permission of its user, and nothing else**: it is accepted for
the users and permissions there are, and then what the user may do is granted, denied or back to
the role, unless the user is an admin. -/
theorem override_decides (h : db.Sound) (hseeded : db.Seeded) (caller : Caller) (userId : Nat)
    (key : String) (effect : Option String) :
    ((∃ r, (serveSetUserPermission db caller userId key effect).1 = .ok r) ↔
        key ∈ GovCrawler.permissionKeys ∧ (parseEffect effect).isSome ∧
          (db.users.get? userId).isSome) ∧
      ∀ r db', serveSetUserPermission db caller userId key effect = (.ok r, db') →
        ∃ user parsed, db.users.get? userId = some user ∧ parseEffect effect = some parsed ∧
          ∀ userId' key', key' ∈ db'.auth.resolveEffectivePermissions userId' ↔
            if userId' = userId ∧ key' = key ∧ user.isAdmin = false then
              parsed = some .grant ∨ (parsed = none ∧ db.RoleAllows user key)
            else key' ∈ db.auth.resolveEffectivePermissions userId' := by
  unfold serveSetUserPermission
  by_cases hkey : GovCrawler.permissionKeys.contains key = true
  · rw [if_neg (by rw [hkey]; exact Bool.true_eq_false_eq_False)]
    rw [List.contains_iff_mem] at hkey
    cases heffect : parseEffect effect with
    | none => simp
    | some parsed =>
        dsimp only
        cases hset : db.setUserPermissionOverride userId key parsed with
        | error e =>
            -- the permission is in the catalog, so the row refers to one that is there
            exfalso
            unfold setUserPermissionOverride at hset
            rw [hseeded.permissions key hkey] at hset
            split at hset
            · cases hset
            · split at hset <;> cases hset
        | ok result =>
            obtain ⟨done, db₁⟩ := result
            rcases override_cases hset with ⟨hnone, rfl, rfl⟩ | ⟨user, t, huser, rfl, rfl, hsets⟩
            · simp [hnone]
            · refine ⟨by simp [hkey, huser], fun r db' heq => ⟨user, parsed, huser, rfl, ?_⟩⟩
              obtain ⟨-, rfl⟩ := Prod.mk.inj heq
              exact hsets.mem_effective h huser
  · rw [if_pos (by simpa using hkey)]
    have hnot : key ∉ GovCrawler.permissionKeys := by simpa using hkey
    simp [hnot]

end AccessDb

/-! ### Who may edit roles, but not users -/

section RolesManagers

variable {lib : AuthLib} {db db' : AccessDb} {perm : String}

/-- A user about whom no role that can be edited says anything. -/
def AccessDb.BehindSystemRole (db : AccessDb) (user : User) : Prop :=
  user.isAdmin = true ∨
    ∀ roleId, user.roleId = some roleId → ∃ r ∈ db.roles.rows, r.id = roleId ∧ r.isSystem = true

/-- No caller of the request may edit users. -/
def WithoutUserManagers (settings : AuthSettings) (w : AccessWorld) : AccessAction → Prop
  | .boot _ _ => True
  | .request ctx now _ =>
      ∀ user, getCurrentUser settings w.db.auth ctx now = .ok user →
        user.hasAll ["users.manage"] = false

/-- Users and overrides are what they were, and the built-in roles. -/
structure AccessDb.KeepsUsers (db db' : AccessDb) : Prop where
  users : db'.users = db.users
  overrides : db'.userPermissions = db.userPermissions
  system : db.KeepsSystem db'

theorem AccessDb.KeepsSystem.trans {db'' : AccessDb} (h : db.KeepsSystem db')
    (h' : db'.KeepsSystem db'') : db.KeepsSystem db'' where
  permissions := h'.permissions.trans h.permissions
  roles r hr hsystem := h'.roles r (h.roles r hr hsystem) hsystem
  bundles r hr hsystem rp hrp :=
    (h'.bundles r (h.roles r hr hsystem) hsystem rp hrp).trans (h.bundles r hr hsystem rp hrp)

theorem AccessDb.users_describe (db : AccessDb) (roleId : Nat) (description : Option String) :
    (db.describe roleId description).users = db.users ∧
      (db.describe roleId description).userPermissions = db.userPermissions := by
  cases description <;> exact ⟨rfl, rfl⟩

/-- A change behind `roles.manage` leaves the users alone. -/
theorem Change.keepsUsers (h : Change lib db perm db') (hperm : perm = "roles.manage") :
    db.KeepsUsers db' := by
  have hsystem := h.keepsSystem
  cases h with
  | createUser => exact absurd hperm (by decide)
  | setUserActive => exact absurd hperm (by decide)
  | setUserRole => exact absurd hperm (by decide)
  | setPassword => exact absurd hperm (by decide)
  | override => exact absurd hperm (by decide)
  | createRole name description keys roleId db' h =>
      unfold AccessDb.createRole at h
      split at h
      · cases h
      · obtain ⟨-, rfl⟩ := Prod.mk.inj (Except.ok.inj h)
        exact ⟨rfl, rfl, hsystem⟩
  | updateRole roleId description keys done db' h =>
      rcases AccessDb.updateRole_cases h with ⟨-, -, rfl⟩ | ⟨_, -, -, -, hdone⟩
      · exact ⟨rfl, rfl, hsystem⟩
      · obtain ⟨husers, hoverrides⟩ := db.users_describe roleId description
        rcases hdone with ⟨-, rfl⟩ | ⟨given, -, -, rfl⟩
        · exact ⟨husers, hoverrides, hsystem⟩
        · exact ⟨husers, hoverrides, hsystem⟩
  | deleteRole roleId done db' h =>
      rcases AccessDb.deleteRole_cases h with ⟨-, -, rfl⟩ | ⟨_, -, -, -, -, rfl⟩
      · exact ⟨rfl, rfl, hsystem⟩
      · exact ⟨rfl, rfl, hsystem⟩

/-- The permissions of a user behind a built-in role are those of the users and built-in roles. -/
theorem AccessDb.KeepsUsers.effective_eq (h : db.KeepsUsers db') {userId : Nat} {user : User}
    (huser : db.users.get? userId = some user) (hbehind : db.BehindSystemRole user) :
    db'.auth.resolveEffectivePermissions userId = db.auth.resolveEffectivePermissions userId := by
  have hget : db.auth.users.get? userId = some user := huser
  have hget' : db'.auth.users.get? userId = some user := (congrArg (·.get? userId) h.users).trans huser
  have hoverrides : db'.auth.userPermissions = db.auth.userPermissions := h.overrides
  unfold AuthDb.resolveEffectivePermissions
  rw [hget, hget', hoverrides]
  dsimp only
  cases hadmin : user.isAdmin with
  | true => rfl
  | false =>
      rw [if_neg Bool.false_ne_true, if_neg Bool.false_ne_true]
      cases hrole : user.roleId with
      | none => rfl
      | some roleId =>
          rcases hbehind with htrue | hsystem
          · rw [hadmin] at htrue
            cases htrue
          · obtain ⟨r, hr, rfl, hr'⟩ := hsystem roleId hrole
            exact congrArg (fun perms => List.foldl AuthDb.applyOverride perms _)
              (h.system.bundles r hr hr').bundle_eq

theorem AccessDb.KeepsUsers.refl (db : AccessDb) : db.KeepsUsers db := ⟨rfl, rfl, .refl db⟩

theorem AccessDb.KeepsUsers.trans {db'' : AccessDb} (h : db.KeepsUsers db')
    (h' : db'.KeepsUsers db'') : db.KeepsUsers db'' :=
  ⟨h'.users.trans h.users, h'.overrides.trans h.overrides, h.system.trans h'.system⟩

theorem serve_keepsUsers {settings : AuthSettings} {ctx : RequestContext} {now : Time}
    {req : AdminRequest}
    (hok : ∀ user, getCurrentUser settings db.auth ctx now = .ok user →
      user.hasAll ["users.manage"] = false) :
    db.KeepsUsers (req.serve settings db ctx now).2 := by
  rcases serve_changes settings db ctx now req with heq | ⟨user, huser, hhas, hpath⟩
  · rw [heq]
    exact .refl db
  · have hrequires : req.requires = "roles.manage" := by
      have hnot : req.requires ≠ "users.manage" := by
        intro husers
        rw [husers, hok user huser] at hhas
        cases hhas
      cases req <;> first | rfl | exact absurd rfl hnot
    rw [hrequires] at hpath
    generalize (req.serve settings db ctx now).2 = served at hpath
    induction hpath with
    | refl => exact .refl db
    | tail _ hstep ih =>
        obtain ⟨db', action, targetType, targetId, detail, hc, rfl⟩ := hstep
        have hchanged := ih.trans (hc.keepsUsers rfl)
        exact ⟨hchanged.users, hchanged.overrides, hchanged.system.permissions,
          hchanged.system.roles, hchanged.system.bundles⟩

theorem step_keepsUsers {settings : AuthSettings} {w w' : AccessWorld} {a : AccessAction}
    (h : (w.Inv ∧ w.db.Seeded) ∧ db.KeepsUsers w.db) (hok : WithoutUserManagers settings w a)
    (hs : w.step settings a = some w') : (w'.Inv ∧ w'.db.Seeded) ∧ db.KeepsUsers w'.db := by
  obtain ⟨⟨hinv, hseeded⟩, hkeeps⟩ := h
  have hkept : w.db.KeepsUsers w'.db := by
    cases a with
    | boot defaults killedAfter =>
        -- a start finds everything there
        obtain rfl := Option.some.inj hs
        rw [AccessDb.seedRbac_eq_self hinv.sound hseeded]
        exact .refl w.db
    | request ctx now req =>
        rw [AccessWorld.step] at hs
        split at hs
        · obtain rfl := Option.some.inj hs
          exact serve_keepsUsers hok
        · cases hs
  exact ⟨⟨step_inv hinv hs, hkept.system.seeded hinv.sound hseeded⟩, hkeeps.trans hkept⟩

end RolesManagers

/-- **Who may edit roles only, edits nobody's rights but through custom roles**: in a run in which
no caller may edit users, there are the same users with the same overrides, and an admin, a user
without a role and a user of a built-in role may do what they could. -/
theorem roles_manager_confined (settings : AuthSettings) {w w' : AccessWorld}
    (as : List AccessAction) (h : w.Inv) (hseeded : w.db.Seeded)
    (hm : Meets (AccessWorld.step settings) (WithoutUserManagers settings) w as)
    (hr : run (AccessWorld.step settings) w as = some w') :
    w'.db.users = w.db.users ∧ w'.db.userPermissions = w.db.userPermissions ∧
      ∀ userId user, w.db.users.get? userId = some user → w.db.BehindSystemRole user →
        w'.db.auth.resolveEffectivePermissions userId =
          w.db.auth.resolveEffectivePermissions userId := by
  have hkept := (run_invariant (fun _ _ _ => step_keepsUsers) ⟨⟨h, hseeded⟩, .refl w.db⟩ hm hr).2
  exact ⟨hkept.users, hkept.overrides, fun _ _ huser hbehind => hkept.effective_eq huser hbehind⟩

/-! ### A registry -/

/-- A role that may edit roles. -/
def registrarRole : AccessDb :=
  ((AccessDb.seedRbac {} AccessDb.writtenOrder none).addRole "Registrar" none
    false).addRolePermissions 4 ["roles.manage"]

/-- One user has that role, the other is a viewer. -/
def registry : AccessDb :=
  let db := (registrarRole.createUser plainLib "clerk@x.org" "correct horse" none false
    (some "Registrar")).2
  (db.createUser plainLib "viewer@x.org" "correct horse" none false (some "Viewer")).2

theorem registry_sound : registry.Sound ∧ registry.Seeded := by
  obtain ⟨hreseeds, hseeded⟩ :=
    AccessDb.seedRbac_spec AccessDb.sound_empty AccessDb.writtenOrder none
  have hrole : (AccessDb.seedRbac {} AccessDb.writtenOrder none).createRole "Registrar" none
      ["roles.manage"] = .ok (4, registrarRole) := rfl
  have hsound : registrarRole.Sound := hreseeds.sound.createRole (hseeded rfl) hrole
  have hboth : registrarRole.Seeded :=
    (keepsSystem_createRole hrole).seeded hreseeds.sound (hseeded rfl)
  exact ⟨(hsound.createUser rfl).createUser rfl, hboth.permissions, hboth.roles⟩

def asClerk : Caller := ⟨{ id := 1, email := "clerk@x.org", isAdmin := false }, none, 0⟩

theorem override_decides_registry :
    ∃ r db', serveSetUserPermission registry asClerk 2 "audit.view" (some "grant") = (.ok r, db') ∧
      "audit.view" ∈ db'.auth.resolveEffectivePermissions 2 := by
  obtain ⟨user, parsed, huser, hparsed, h⟩ :=
    (AccessDb.override_decides registry_sound.1 registry_sound.2 asClerk 2 "audit.view"
      (some "grant")).2 _ _ rfl
  refine ⟨_, _, rfl, (h 2 "audit.view").mpr ?_⟩
  rw [if_pos ⟨rfl, rfl, by obtain rfl := Option.some.inj huser; rfl⟩]
  exact Or.inl (Option.some.inj hparsed.symm)

/-- The clerk makes a role, and the server is started anew. -/
def quietDay : List AccessAction :=
  [.request asRoot 0 (.createRole { name := "Auditor", permissions := ["audit.view"] }),
    .boot AccessDb.writtenOrder none]

theorem quietDay_without_user_managers :
    Meets (AccessWorld.step plainAuth) (WithoutUserManagers plainAuth) ⟨registry, true⟩
      quietDay := by
  refine ⟨fun user huser => ?_, trivial, trivial⟩
  obtain rfl := Except.ok.inj huser
  rfl

theorem roles_manager_confined_quietDay :
    ∃ w', run (AccessWorld.step plainAuth) ⟨registry, true⟩ quietDay = some w' ∧
      w'.db.users = registry.users := by
  obtain ⟨hsound, hseeded⟩ := registry_sound
  exact ⟨_, rfl, (roles_manager_confined plainAuth quietDay ⟨hsound, fun _ => hseeded⟩ hseeded
    quietDay_without_user_managers rfl).1⟩

end GovCrawler
