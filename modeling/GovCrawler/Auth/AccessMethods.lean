/-
What the methods of roles, users and overrides keep.

`Sound` is what the schema promises and the methods rely on: names, addresses and pairs are unique,
and what a row refers to is there.  `Seeded` is what a server relies on when it is up: the catalog
is in `permissions`, and the built-in roles have at least the permissions they come with.  Every
method keeps `Sound`; a new role needs `Seeded` for it, since only then are the names of the
built-in roles taken.
-/
import GovCrawler.Auth.Roles

namespace GovCrawler

open Relational

/-- The names of the built-in roles. -/
def builtinRoles : List String := roleDefaults.map Prod.fst

namespace AccessDb

structure Sound (db : AccessDb) : Prop where
  permissionKeys : (db.permissions.map Permission.key).Nodup
  roleNames : Unique (fun r : RoleRow => r.name) db.roles
  grants : Unique (fun rp : RolePermission => (rp.roleId, rp.permissionKey)) db.rolePermissions
  overrides : Unique (fun o : UserPermission => (o.userId, o.permissionKey)) db.userPermissions
  emails : Unique User.email db.users
  grantRole : ∀ rp ∈ db.rolePermissions.rows, (db.roles.get? rp.roleId).isSome
  grantKey : ∀ rp ∈ db.rolePermissions.rows, db.knowsPermission rp.permissionKey = true
  overrideUser : ∀ o ∈ db.userPermissions.rows, (db.users.get? o.userId).isSome
  overrideKey : ∀ o ∈ db.userPermissions.rows, db.knowsPermission o.permissionKey = true
  userRole : ∀ u ∈ db.users.rows, ∀ roleId, u.roleId = some roleId → (db.roles.get? roleId).isSome
  builtin : ∀ r ∈ db.roles.rows, r.name ∈ builtinRoles → r.isSystem = true

structure Seeded (db : AccessDb) : Prop where
  permissions : ∀ key ∈ permissionKeys, db.knowsPermission key = true
  roles : ∀ d ∈ roleDefaults, ∃ r ∈ db.roles.rows, r.name = d.1 ∧ ∀ key ∈ d.2, key ∈ db.bundle r.id

variable {db : AccessDb}

theorem sound_empty : Sound {} where
  permissionKeys := List.nodup_nil
  roleNames := Unique.empty _
  grants := Unique.empty _
  overrides := Unique.empty _
  emails := Unique.empty _
  grantRole _ h := absurd h List.not_mem_nil
  grantKey _ h := absurd h List.not_mem_nil
  overrideUser _ h := absurd h List.not_mem_nil
  overrideKey _ h := absurd h List.not_mem_nil
  userRole _ h := absurd h List.not_mem_nil
  builtin _ h := absurd h List.not_mem_nil

/-! ### Reading -/

theorem knowsPermission_congr {db' : AccessDb} (h : db'.permissions = db.permissions) {key : String} :
    db'.knowsPermission key = db.knowsPermission key := by
  unfold knowsPermission
  rw [h]

theorem knowsPermission_iff {key : String} :
    db.knowsPermission key = true ↔ key ∈ db.permissions.map Permission.key := by
  unfold knowsPermission
  rw [List.any_eq_true, List.mem_map]
  simp only [beq_iff_eq]

theorem mem_bundle {roleId : Nat} {key : String} :
    key ∈ db.bundle roleId ↔
      ∃ rp ∈ db.rolePermissions.rows, rp.roleId = roleId ∧ rp.permissionKey = key := by
  unfold bundle
  rw [List.mem_map]
  constructor
  · rintro ⟨rp, hrp, hkey⟩
    obtain ⟨hmem, hrole⟩ := List.mem_filter.mp hrp
    exact ⟨rp, hmem, by simpa using hrole, hkey⟩
  · rintro ⟨rp, hmem, rfl, hkey⟩
    exact ⟨rp, List.mem_filter.mpr ⟨hmem, by simp⟩, hkey⟩

theorem mem_acceptsKeys {keys : List String} (h : db.acceptsKeys keys = true) :
    keys.Nodup ∧ ∀ key ∈ keys, db.knowsPermission key = true := by
  obtain ⟨hnodup, hknown⟩ := Bool.and_eq_true_iff.mp h
  exact ⟨of_decide_eq_true hnodup, fun key hkey => List.all_eq_true.mp hknown key hkey⟩

/-! ### Users and sessions -/

/-- What changes users and sessions only. -/
theorem Sound.withAccounts (h : db.Sound) {auth : AuthDb} (hemails : Unique User.email auth.users)
    (hkept : ∀ k, (db.users.get? k).isSome → (auth.users.get? k).isSome)
    (hrole : ∀ u ∈ auth.users.rows, ∀ roleId, u.roleId = some roleId →
      (db.roles.get? roleId).isSome) :
    (db.withAccounts auth).Sound where
  permissionKeys := h.permissionKeys
  roleNames := h.roleNames
  grants := h.grants
  overrides := h.overrides
  emails := hemails
  grantRole := h.grantRole
  grantKey := h.grantKey
  overrideUser o ho := hkept _ (h.overrideUser o ho)
  overrideKey := h.overrideKey
  userRole := hrole
  builtin := h.builtin

/-- One user is edited, but for the address. -/
theorem Sound.editsUser (h : db.Sound) {db' : AccessDb} {userId : Nat} {f : User → User}
    (hedit : db.EditsUser db' userId f) (hemail : ∀ u, (f u).email = u.email)
    (hrole : ∀ u roleId, (f u).roleId = some roleId →
      u.roleId = some roleId ∨ (db.roles.get? roleId).isSome) : db'.Sound where
  permissionKeys := hedit.permissions ▸ h.permissionKeys
  roleNames := hedit.roles ▸ h.roleNames
  grants := hedit.rolePermissions ▸ h.grants
  overrides := hedit.userPermissions ▸ h.overrides
  emails := hedit.users ▸ h.emails.updateWhere hedit.key hemail
  grantRole := hedit.roles ▸ hedit.rolePermissions ▸ h.grantRole
  grantKey := hedit.rolePermissions ▸ fun rp hrp =>
    knowsPermission_congr hedit.permissions ▸ h.grantKey rp hrp
  overrideUser := hedit.userPermissions ▸ hedit.users ▸ fun o ho =>
    Table.isSome_get?_updateWhere hedit.key (h.overrideUser o ho)
  overrideKey := hedit.userPermissions ▸ fun o ho =>
    knowsPermission_congr hedit.permissions ▸ h.overrideKey o ho
  userRole := by
    rw [hedit.users, hedit.roles]
    refine Table.forall_updateWhere hedit.key h.userRole fun u _ hu roleId hroleId => ?_
    exact (hrole u roleId hroleId).elim (hu roleId) id
  builtin := hedit.roles ▸ h.builtin

theorem Sound.createUser (h : db.Sound) {lib : AuthLib} {email password : String}
    {fullName : Option String} {isAdmin : Bool} {roleName : Option String}
    (hfree : db.auth.getUserByEmail lib email = none) :
    (db.createUser lib email password fullName isAdmin roleName).2.Sound := by
  refine h.withAccounts ?_ (fun k => Table.isSome_get?_insertNew) ?_
  · refine h.emails.insertNew fun u hu heq => ?_
    have hne := Table.first?_eq_none_iff.mp hfree u hu
    simp only [beq_eq_false_iff_ne] at hne
    exact hne heq
  · refine Table.forall_insertNew h.userRole fun roleId hroleId => ?_
    obtain ⟨name, -, hname⟩ := Option.bind_eq_some_iff.mp hroleId
    obtain ⟨role, hrole, rfl⟩ := Option.map_eq_some_iff.mp hname
    have hget := (Table.first?_spec hrole).2
    rw [show db.auth.roles = db.roles.mapRows RoleRow.toRole fun _ => rfl from rfl,
      Table.get?_mapRows] at hget
    obtain ⟨row, hrow, -⟩ := Option.map_eq_some_iff.mp hget
    exact Option.isSome_iff_exists.mpr ⟨row, hrow⟩

theorem Sound.setPassword (h : db.Sound) (lib : AuthLib) (userId : Nat) (password : String)
    (now : Time) : (db.setPassword lib userId password now).2.Sound := by
  rcases setPassword_cases lib userId password now with ⟨-, heq⟩ | ⟨_, _, -, heq, hedit⟩
  · rwa [heq]
  · rw [heq]
    exact h.editsUser hedit (fun _ => rfl) fun _ _ => Or.inl

theorem Sound.setUserActive (h : db.Sound) (userId : Nat) (isActive : Bool) (now : Time) :
    (db.setUserActive userId isActive now).2.Sound := by
  rcases setUserActive_cases userId isActive now with ⟨-, heq⟩ | ⟨_, _, -, heq, hedit⟩
  · rwa [heq]
  · rw [heq]
    exact h.editsUser hedit (fun _ => rfl) fun _ _ => Or.inl

theorem Sound.setUserRole (h : db.Sound) (userId : Nat) (roleName : String) :
    (db.setUserRole userId roleName).2.Sound := by
  rcases setUserRole_cases userId roleName with ⟨-, heq⟩ | ⟨_, _, roleId, -, hnames, heq, hedit⟩
  · rwa [heq]
  · rw [heq]
    refine h.editsUser hedit (fun _ => rfl) fun u k hk => Or.inr ?_
    obtain rfl : roleId = some k := hk
    unfold namesRole at hnames
    split at hnames
    · cases hnames
    · obtain ⟨role, hrole, hid⟩ := hnames
      rw [Option.some.inj hid]
      exact Option.isSome_iff_exists.mpr ⟨role, (Table.first?_spec hrole).2⟩

/-! ### Roles and their bundles -/

theorem mem_addRolePermissions {roleId : Nat} {keys : List String} {rp : RolePermission} :
    rp ∈ (db.addRolePermissions roleId keys).rolePermissions.rows ↔
      rp ∈ db.rolePermissions.rows ∨
        ∃ i key, keys[i]? = some key ∧ rp = ⟨db.rolePermissions.nextKey + i, roleId, key⟩ :=
  Table.mem_foldl_insertNew

theorem mem_bundle_addRolePermissions {roleId roleId' : Nat} {keys : List String} {key : String} :
    key ∈ (db.addRolePermissions roleId keys).bundle roleId' ↔
      key ∈ db.bundle roleId' ∨ (roleId = roleId' ∧ key ∈ keys) := by
  rw [mem_bundle, mem_bundle]
  constructor
  · rintro ⟨rp, hrp, hrole, hkey⟩
    rcases mem_addRolePermissions.mp hrp with hold | ⟨i, k, hk, rfl⟩
    · exact Or.inl ⟨rp, hold, hrole, hkey⟩
    · exact Or.inr ⟨hrole, hkey ▸ List.mem_of_getElem? hk⟩
  · rintro (⟨rp, hrp, hrole, hkey⟩ | ⟨rfl, hkey⟩)
    · exact ⟨rp, mem_addRolePermissions.mpr (Or.inl hrp), hrole, hkey⟩
    · obtain ⟨i, hi⟩ := List.mem_iff_getElem?.mp hkey
      exact ⟨_, mem_addRolePermissions.mpr (Or.inr ⟨i, key, hi, rfl⟩), rfl, rfl⟩

theorem Sound.addRolePermissions (h : db.Sound) {roleId : Nat} {keys : List String}
    (hrole : (db.roles.get? roleId).isSome) (hnodup : keys.Nodup)
    (hnew : ∀ key ∈ keys, key ∉ db.bundle roleId)
    (hknown : ∀ key ∈ keys, db.knowsPermission key = true) :
    (db.addRolePermissions roleId keys).Sound where
  permissionKeys := h.permissionKeys
  roleNames := h.roleNames
  grants := by
    have hpairs : (keys.map fun key => (roleId, key)).Nodup :=
      hnodup.map fun _ _ heq => (Prod.mk.inj heq).2
    refine Unique.foldl_insertNew (f := fun rp : RolePermission => (rp.roleId, rp.permissionKey))
      (by intro _ _; rfl) hpairs h.grants fun key hkey rp hrp heq => ?_
    obtain ⟨hroleId, hk⟩ := Prod.mk.inj heq
    exact hnew key hkey (mem_bundle.mpr ⟨rp, hrp, hroleId, hk⟩)
  overrides := h.overrides
  emails := h.emails
  grantRole rp hrp := by
    rcases mem_addRolePermissions.mp hrp with hold | ⟨i, key, hkey, rfl⟩
    · exact h.grantRole rp hold
    · exact hrole
  grantKey rp hrp := by
    rcases mem_addRolePermissions.mp hrp with hold | ⟨i, key, hkey, rfl⟩
    · exact h.grantKey rp hold
    · exact hknown key (List.mem_of_getElem? hkey)
  overrideUser := h.overrideUser
  overrideKey := h.overrideKey
  userRole := h.userRole
  builtin := h.builtin

theorem Sound.addRole (h : db.Sound) {name : String} (description : Option String) (isSystem : Bool)
    (hfree : (db.roles.first? fun r => r.name == name) = none)
    (hbuiltin : name ∈ builtinRoles → isSystem = true) :
    (db.addRole name description isSystem).Sound where
  permissionKeys := h.permissionKeys
  roleNames := h.roleNames.insertNew fun r hr heq => by
    have hne := Table.first?_eq_none_iff.mp hfree r hr
    simp only [beq_eq_false_iff_ne] at hne
    exact hne heq
  grants := h.grants
  overrides := h.overrides
  emails := h.emails
  grantRole rp hrp := Table.isSome_get?_insertNew (h.grantRole rp hrp)
  grantKey := h.grantKey
  overrideUser := h.overrideUser
  overrideKey := h.overrideKey
  userRole u hu roleId hroleId := Table.isSome_get?_insertNew (h.userRole u hu roleId hroleId)
  builtin := Table.forall_insertNew h.builtin hbuiltin

/-- A new role has no permissions yet. -/
theorem Sound.bundle_nextKey (h : db.Sound) : db.bundle db.roles.nextKey = [] := by
  refine List.eq_nil_iff_forall_not_mem.mpr fun key hkey => ?_
  obtain ⟨rp, hrp, hrole, -⟩ := mem_bundle.mp hkey
  have hsome := h.grantRole rp hrp
  rw [hrole, Table.get?_of_nextKey_le (Nat.le_refl _)] at hsome
  cases hsome

theorem Sound.createRole (h : db.Sound) (hseeded : db.Seeded) {name : String}
    {description : Option String} {keys : List String} {roleId : Nat} {db' : AccessDb}
    (heq : db.createRole name description keys = .ok (roleId, db')) : db'.Sound := by
  unfold AccessDb.createRole at heq
  split at heq
  · cases heq
  · rename_i hok
    rw [Bool.not_eq_true, Bool.or_eq_false_iff] at hok
    obtain ⟨hfree, haccepts⟩ := hok
    have hfree : (db.roles.first? fun r => r.name == name) = none := by
      simpa using hfree
    obtain ⟨hnodup, hknown⟩ := mem_acceptsKeys (by simpa using haccepts)
    obtain ⟨-, rfl⟩ := Prod.mk.inj (Except.ok.inj heq)
    -- the names of the built-in roles are taken
    have hadded := h.addRole description false hfree fun hbuiltin => by
      obtain ⟨d, hd, rfl⟩ := List.mem_map.mp hbuiltin
      obtain ⟨r, hr, hname, -⟩ := hseeded.roles d hd
      have hne := Table.first?_eq_none_iff.mp hfree r hr
      simp [hname] at hne
    refine hadded.addRolePermissions ?_ hnodup (fun key _ hmem => ?_) hknown
    · rw [show (db.addRole name description false).roles.get? db.roles.nextKey = _ from
        Table.get?_insertNew _ _ _ _, if_pos rfl]
      rfl
    · rw [show (db.addRole name description false).bundle db.roles.nextKey =
        db.bundle db.roles.nextKey from rfl, h.bundle_nextKey] at hmem
      cases hmem

theorem Sound.dropBundle (h : db.Sound) (roleId : Nat) : (db.dropBundle roleId).Sound where
  permissionKeys := h.permissionKeys
  roleNames := h.roleNames
  grants := h.grants.deleteWhere
  overrides := h.overrides
  emails := h.emails
  grantRole := Table.forall_deleteWhere h.grantRole
  grantKey := Table.forall_deleteWhere h.grantKey
  overrideUser := h.overrideUser
  overrideKey := h.overrideKey
  userRole := h.userRole
  builtin := h.builtin

theorem mem_bundle_dropBundle {roleId roleId' : Nat} {key : String} :
    key ∈ (db.dropBundle roleId).bundle roleId' ↔ roleId' ≠ roleId ∧ key ∈ db.bundle roleId' := by
  rw [mem_bundle, mem_bundle]
  constructor
  · rintro ⟨rp, hrp, rfl, hkey⟩
    obtain ⟨hmem, hne⟩ := List.mem_filter.mp hrp
    exact ⟨by simpa using hne, rp, hmem, rfl, hkey⟩
  · rintro ⟨hne, rp, hmem, rfl, hkey⟩
    exact ⟨rp, List.mem_filter.mpr ⟨hmem, by simpa using hne⟩, rfl, hkey⟩

theorem key_described (text : String) (r : RoleRow) :
    Keyed.key { r with description := some text } = Keyed.key r := rfl

/-- A role is given another text, perhaps. -/
def describe (db : AccessDb) (roleId : Nat) (description : Option String) : AccessDb :=
  match description with
  | none => db
  | some text =>
      { db with
        roles := db.roles.updateWhere (fun r => r.id == roleId)
          (fun r => { r with description := some text }) (key_described text) }

theorem Sound.describe (h : db.Sound) (roleId : Nat) (description : Option String) :
    (db.describe roleId description).Sound := by
  unfold AccessDb.describe
  cases description with
  | none => exact h
  | some text =>
      exact
        { permissionKeys := h.permissionKeys
          roleNames := h.roleNames.updateWhere (by intro _; rfl) fun _ => rfl
          grants := h.grants
          overrides := h.overrides
          emails := h.emails
          grantRole := fun rp hrp => Table.isSome_get?_updateWhere (by intro _; rfl) (h.grantRole rp hrp)
          grantKey := h.grantKey
          overrideUser := h.overrideUser
          overrideKey := h.overrideKey
          userRole := fun u hu k hk =>
            Table.isSome_get?_updateWhere (by intro _; rfl) (h.userRole u hu k hk)
          builtin := Table.forall_updateWhere (by intro _; rfl) h.builtin fun _ _ => id }

/-- What `update_role` does, where it does something. -/
theorem updateRole_cases {roleId : Nat} {description : Option String}
    {keys : Option (List String)} {done : Bool} {db' : AccessDb}
    (heq : db.updateRole roleId description keys = .ok (done, db')) :
    (db.roles.get? roleId = none ∧ done = false ∧ db' = db) ∨
      ∃ role, db.roles.get? roleId = some role ∧ role.isSystem = false ∧ done = true ∧
        ((keys = none ∧ db' = db.describe roleId description) ∨
          ∃ given, keys = some given ∧ db.acceptsKeys given = true ∧
            db' = ((db.describe roleId description).dropBundle roleId).addRolePermissions roleId
              given) := by
  unfold AccessDb.updateRole at heq
  cases hrole : db.roles.get? roleId with
  | none =>
      rw [hrole] at heq
      obtain ⟨rfl, rfl⟩ := Prod.mk.inj (Except.ok.inj heq)
      exact Or.inl ⟨rfl, rfl, rfl⟩
  | some role =>
      rw [hrole] at heq
      dsimp only at heq
      split at heq
      · cases heq
      · rename_i hsystem
        refine Or.inr ⟨role, rfl, by simpa using hsystem, ?_⟩
        cases keys with
        | none =>
            change Except.ok (true, db.describe roleId description) = _ at heq
            obtain ⟨rfl, rfl⟩ := Prod.mk.inj (Except.ok.inj heq)
            exact ⟨rfl, Or.inl ⟨rfl, rfl⟩⟩
        | some given =>
            change (if db.acceptsKeys given then
                Except.ok (true, ((db.describe roleId description).dropBundle
                  roleId).addRolePermissions roleId given)
              else Except.error DbError.integrityError) = _ at heq
            split at heq
            · rename_i haccepts
              obtain ⟨rfl, rfl⟩ := Prod.mk.inj (Except.ok.inj heq)
              exact ⟨rfl, Or.inr ⟨given, rfl, haccepts, rfl⟩⟩
            · cases heq

theorem isSome_roles_describe {roleId k : Nat} {description : Option String}
    (h : (db.roles.get? k).isSome) : ((db.describe roleId description).roles.get? k).isSome := by
  unfold AccessDb.describe
  cases description with
  | none => exact h
  | some text => exact Table.isSome_get?_updateWhere (by intro _; rfl) h

theorem permissions_describe (roleId : Nat) (description : Option String) :
    (db.describe roleId description).permissions = db.permissions := by
  cases description <;> rfl

theorem Sound.updateRole (h : db.Sound) {roleId : Nat} {description : Option String}
    {keys : Option (List String)} {done : Bool} {db' : AccessDb}
    (heq : db.updateRole roleId description keys = .ok (done, db')) : db'.Sound := by
  rcases updateRole_cases heq with ⟨-, -, rfl⟩ | ⟨role, hrole, -, -, hdone⟩
  · exact h
  · rcases hdone with ⟨-, rfl⟩ | ⟨given, -, haccepts, rfl⟩
    · exact h.describe roleId description
    · obtain ⟨hnodup, hknown⟩ := mem_acceptsKeys haccepts
      refine ((h.describe roleId description).dropBundle roleId).addRolePermissions ?_ hnodup
        (fun key _ hmem => (mem_bundle_dropBundle.mp hmem).1 rfl) fun key hkey => ?_
      · exact isSome_roles_describe (Option.isSome_iff_exists.mpr ⟨role, hrole⟩)
      · exact (knowsPermission_congr (permissions_describe roleId description)).trans
          (hknown key hkey)

/-- What `delete_role` does, where it does something. -/
theorem deleteRole_cases {roleId : Nat} {done : Bool} {db' : AccessDb}
    (heq : db.deleteRole roleId = .ok (done, db')) :
    (db.roles.get? roleId = none ∧ done = false ∧ db' = db) ∨
      ∃ role, db.roles.get? roleId = some role ∧ role.isSystem = false ∧ done = true ∧
        (∀ u ∈ db.users.rows, u.roleId ≠ some roleId) ∧
        db' = { db.dropBundle roleId with
          roles := db.roles.deleteWhere fun r => r.id == roleId } := by
  unfold AccessDb.deleteRole at heq
  cases hrole : db.roles.get? roleId with
  | none =>
      rw [hrole] at heq
      obtain ⟨rfl, rfl⟩ := Prod.mk.inj (Except.ok.inj heq)
      exact Or.inl ⟨rfl, rfl, rfl⟩
  | some role =>
      rw [hrole] at heq
      dsimp only at heq
      split at heq
      · cases heq
      · rename_i hsystem
        split at heq
        · cases heq
        · rename_i hfree
          obtain ⟨rfl, rfl⟩ := Prod.mk.inj (Except.ok.inj heq)
          refine Or.inr ⟨role, rfl, by simpa using hsystem, rfl, fun u hu => ?_, rfl⟩
          have hnone : (db.users.first? fun u => u.roleId == some roleId) = none := by
            simpa using hfree
          simpa using Table.first?_eq_none_iff.mp hnone u hu

theorem Sound.deleteRole (h : db.Sound) {roleId : Nat} {done : Bool} {db' : AccessDb}
    (heq : db.deleteRole roleId = .ok (done, db')) : db'.Sound := by
  rcases deleteRole_cases heq with ⟨-, -, rfl⟩ | ⟨role, -, -, -, hfree, rfl⟩
  · exact h
  · have hother : ∀ {k : Nat}, k ≠ roleId → (db.roles.get? k).isSome →
        ((db.roles.deleteWhere fun r => r.id == roleId).get? k).isSome := by
      intro k hne hsome
      rw [show (db.roles.deleteWhere fun r => r.id == roleId).get? k = _ from
        Table.get?_deleteWhere_key _ k roleId, if_neg hne]
      exact hsome
    have hdropped := h.dropBundle roleId
    exact
      { permissionKeys := h.permissionKeys
        roleNames := h.roleNames.deleteWhere
        grants := hdropped.grants
        overrides := h.overrides
        emails := h.emails
        grantRole := fun rp hrp => by
          obtain ⟨hmem, hne⟩ := List.mem_filter.mp hrp
          exact hother (by simpa using hne) (h.grantRole rp hmem)
        grantKey := hdropped.grantKey
        overrideUser := h.overrideUser
        overrideKey := h.overrideKey
        userRole := fun u hu k hk =>
          hother (fun heq => hfree u hu (heq ▸ hk)) (h.userRole u hu k hk)
        builtin := Table.forall_deleteWhere h.builtin }

/-! ### Overrides and the audit log -/

/-- What an override that is set does to the table. -/
inductive SetsOverride (db : AccessDb) (userId : Nat) (permissionKey : String) :
    Option OverrideEffect → Table UserPermission → Prop
  | absent (h : db.overrideOf userId permissionKey = none) :
      SetsOverride db userId permissionKey none db.userPermissions
  | delete (o : UserPermission) (h : db.overrideOf userId permissionKey = some o) :
      SetsOverride db userId permissionKey none
        (db.userPermissions.deleteWhere fun q => q.id == o.id)
  | update (effect : OverrideEffect) (o : UserPermission)
      (h : db.overrideOf userId permissionKey = some o) :
      SetsOverride db userId permissionKey (some effect)
        (db.userPermissions.updateWhere (fun q => q.id == o.id) fun q => { q with effect })
  | insert (effect : OverrideEffect) (h : db.overrideOf userId permissionKey = none)
      (hknown : db.knowsPermission permissionKey = true) :
      SetsOverride db userId permissionKey (some effect)
        (db.userPermissions.insertNew fun id => { id, userId, permissionKey, effect })

theorem override_cases {userId : Nat} {permissionKey : String} {effect : Option OverrideEffect}
    {done : Bool} {db' : AccessDb}
    (heq : db.setUserPermissionOverride userId permissionKey effect = .ok (done, db')) :
    (db.users.get? userId = none ∧ done = false ∧ db' = db) ∨
      ∃ user t, db.users.get? userId = some user ∧ done = true ∧
        db' = { db with userPermissions := t } ∧ SetsOverride db userId permissionKey effect t := by
  unfold setUserPermissionOverride at heq
  cases huser : db.users.get? userId with
  | none =>
      rw [huser] at heq
      obtain ⟨rfl, rfl⟩ := Prod.mk.inj (Except.ok.inj heq)
      exact Or.inl ⟨rfl, rfl, rfl⟩
  | some user =>
      rw [huser] at heq
      cases ho : db.overrideOf userId permissionKey with
      | none =>
          rw [ho] at heq
          cases effect with
          | none =>
              obtain ⟨rfl, rfl⟩ := Prod.mk.inj (Except.ok.inj heq)
              exact Or.inr ⟨user, _, rfl, rfl, rfl, .absent ho⟩
          | some effect =>
              dsimp only at heq
              split at heq
              · rename_i hknown
                obtain ⟨rfl, rfl⟩ := Prod.mk.inj (Except.ok.inj heq)
                exact Or.inr ⟨user, _, rfl, rfl, rfl, .insert effect ho hknown⟩
              · cases heq
      | some o =>
          rw [ho] at heq
          cases effect with
          | none =>
              obtain ⟨rfl, rfl⟩ := Prod.mk.inj (Except.ok.inj heq)
              exact Or.inr ⟨user, _, rfl, rfl, rfl, .delete o ho⟩
          | some effect =>
              obtain ⟨rfl, rfl⟩ := Prod.mk.inj (Except.ok.inj heq)
              exact Or.inr ⟨user, _, rfl, rfl, rfl, .update effect o ho⟩

theorem overrideOf_eq_none {userId : Nat} {permissionKey : String}
    (h : db.overrideOf userId permissionKey = none) :
    ∀ o ∈ db.userPermissions.rows, (o.userId, o.permissionKey) ≠ (userId, permissionKey) := by
  intro o ho heq
  obtain ⟨rfl, rfl⟩ := Prod.mk.inj heq
  have hfalse := Table.first?_eq_none_iff.mp h o ho
  simp at hfalse

theorem Sound.setsOverride (h : db.Sound) {userId : Nat} {permissionKey : String}
    {effect : Option OverrideEffect} {t : Table UserPermission}
    (huser : (db.users.get? userId).isSome)
    (hset : SetsOverride db userId permissionKey effect t) :
    Sound { db with userPermissions := t } := by
  -- the pairs stay unique, and every override one of a user and a permission that there are
  have hrows : Unique (fun o : UserPermission => (o.userId, o.permissionKey)) t ∧
      ∀ o ∈ t.rows, (db.users.get? o.userId).isSome ∧
        db.knowsPermission o.permissionKey = true := by
    have hold : ∀ o ∈ db.userPermissions.rows, (db.users.get? o.userId).isSome ∧
        db.knowsPermission o.permissionKey = true :=
      fun o ho => ⟨h.overrideUser o ho, h.overrideKey o ho⟩
    cases hset with
    | absent => exact ⟨h.overrides, hold⟩
    | delete o ho => exact ⟨h.overrides.deleteWhere, Table.forall_deleteWhere hold⟩
    | update effect o ho =>
        exact ⟨h.overrides.updateWhere (by intro _; rfl) fun _ => rfl,
          Table.forall_updateWhere (by intro _; rfl) hold fun _ _ => id⟩
    | insert effect ho hknown =>
        exact ⟨h.overrides.insertNew (overrideOf_eq_none ho),
          Table.forall_insertNew hold ⟨huser, hknown⟩⟩
  exact
    { permissionKeys := h.permissionKeys
      roleNames := h.roleNames
      grants := h.grants
      overrides := hrows.1
      emails := h.emails
      grantRole := h.grantRole
      grantKey := h.grantKey
      overrideUser := fun o ho => (hrows.2 o ho).1
      overrideKey := fun o ho => (hrows.2 o ho).2
      userRole := h.userRole
      builtin := h.builtin }

theorem Sound.override (h : db.Sound) {userId : Nat} {permissionKey : String}
    {effect : Option OverrideEffect} {done : Bool} {db' : AccessDb}
    (heq : db.setUserPermissionOverride userId permissionKey effect = .ok (done, db')) :
    db'.Sound := by
  rcases override_cases heq with ⟨-, -, rfl⟩ | ⟨user, t, huser, -, rfl, hset⟩
  · exact h
  · exact h.setsOverride (Option.isSome_iff_exists.mpr ⟨user, huser⟩) hset

theorem Sound.writeAudit (h : db.Sound) (userId : Option Nat) (action : String)
    (targetType : Option String) (targetId : Option Nat) (detail : Json.Dict) (ip : Option String)
    (now : Time) : (db.writeAudit userId action targetType targetId detail ip now).Sound where
  permissionKeys := h.permissionKeys
  roleNames := h.roleNames
  grants := h.grants
  overrides := h.overrides
  emails := h.emails
  grantRole := h.grantRole
  grantKey := h.grantKey
  overrideUser := h.overrideUser
  overrideKey := h.overrideKey
  userRole := h.userRole
  builtin := h.builtin

end AccessDb

end GovCrawler
