/-
Seeding the catalog of permissions and the built-in roles.

`seed_rbac` runs whenever a server starts.  It commits several times, so a start that is killed
leaves some of the work done, and a set has no order, so no two starts do it in the same one.
`SeededFrom` is what holds at each point of the loop: nothing that was there is gone, and what is
new are defaults.  Hence the order and the kills make no difference once a start has come through.
-/
import GovCrawler.Auth.AccessMethods

namespace GovCrawler

open Relational

/-! ### Ways to iterate -/

theorem nodup_builtinRoles : builtinRoles.Nodup := by decide

theorem roleDefaults_spec : ∀ d ∈ roleDefaults, d.2.Nodup ∧ ∀ key ∈ d.2, key ∈ permissionKeys := by
  decide

namespace Iterates

variable {defaults : List (String × List String)}

theorem exists_default (h : Iterates defaults) {d : String × List String} (hd : d ∈ defaults) :
    ∃ e ∈ roleDefaults, d.1 = e.1 ∧ d.2.Perm e.2 := by
  have hname : d.1 ∈ roleDefaults.map Prod.fst := h.1 ▸ List.mem_map_of_mem hd
  obtain ⟨e, he, heq⟩ := List.mem_map.mp hname
  exact ⟨e, he, heq.symm, h.2 d hd e he heq.symm⟩

theorem exists_of_default (h : Iterates defaults) {e : String × List String}
    (he : e ∈ roleDefaults) : ∃ d ∈ defaults, d.1 = e.1 ∧ d.2.Perm e.2 := by
  have hname : e.1 ∈ defaults.map Prod.fst := h.1 ▸ List.mem_map_of_mem he
  obtain ⟨d, hd, heq⟩ := List.mem_map.mp hname
  exact ⟨d, hd, heq, h.2 d hd e he heq⟩

theorem nodup_names (h : Iterates defaults) : (defaults.map Prod.fst).Nodup :=
  h.1 ▸ nodup_builtinRoles

theorem spec (h : Iterates defaults) {d : String × List String} (hd : d ∈ defaults) :
    d.1 ∈ builtinRoles ∧ d.2.Nodup ∧ ∀ key ∈ d.2, key ∈ permissionKeys := by
  obtain ⟨e, he, hname, hperm⟩ := h.exists_default hd
  obtain ⟨hnodup, hkeys⟩ := roleDefaults_spec e he
  exact ⟨hname ▸ List.mem_map_of_mem he, hperm.nodup_iff.mpr hnodup,
    fun key hkey => hkeys key (hperm.mem_iff.mp hkey)⟩

end Iterates

namespace AccessDb

variable {db : AccessDb}

/-! ### The catalog -/

theorem Sound.seedPermissions (h : db.Sound) : db.seedPermissions.Sound := by
  have hkept : ∀ key, db.knowsPermission key = true → db.seedPermissions.knowsPermission key = true := by
    intro key hkey
    unfold AccessDb.seedPermissions knowsPermission
    rw [List.any_append, show db.permissions.any (fun p => p.key == key) = true from hkey,
      Bool.true_or]
  exact
    { permissionKeys := by
        unfold AccessDb.seedPermissions
        rw [List.map_append, List.map_map, List.nodup_append]
        have hcatalog : (permissionCatalog.map Prod.fst).Nodup := by decide
        refine ⟨h.permissionKeys, ?_, fun a ha b hb hab => ?_⟩
        · exact hcatalog.sublist (List.filter_sublist.map Prod.fst)
        · obtain ⟨p, hp, rfl⟩ := List.mem_map.mp hb
          obtain ⟨-, hnew⟩ := List.mem_filter.mp hp
          rw [knowsPermission_iff.mpr ((show a = p.1 from hab) ▸ ha)] at hnew
          cases hnew
      roleNames := h.roleNames
      grants := h.grants
      overrides := h.overrides
      emails := h.emails
      grantRole := h.grantRole
      grantKey := fun rp hrp => hkept _ (h.grantKey rp hrp)
      overrideUser := h.overrideUser
      overrideKey := fun o ho => hkept _ (h.overrideKey o ho)
      userRole := h.userRole
      builtin := h.builtin }

theorem knowsPermission_seedPermissions (db : AccessDb) {key : String} (h : key ∈ permissionKeys) :
    db.seedPermissions.knowsPermission key = true := by
  rw [← keys_permissionCatalog] at h
  obtain ⟨p, hp, rfl⟩ := List.mem_map.mp h
  rw [knowsPermission_iff]
  unfold AccessDb.seedPermissions
  rw [List.map_append, List.mem_append, List.map_map]
  by_cases hold : db.knowsPermission p.1 = true
  · exact Or.inl (knowsPermission_iff.mp hold)
  · exact Or.inr (List.mem_map.mpr ⟨p, List.mem_filter.mpr ⟨hp, by simpa using hold⟩, rfl⟩)

theorem seedPermissions_eq_self (h : ∀ key ∈ permissionKeys, db.knowsPermission key = true) :
    db.seedPermissions = db := by
  have hnone : (permissionCatalog.filter fun p => !db.knowsPermission p.1) = [] := by
    refine List.filter_eq_nil_iff.mpr fun p hp => ?_
    rw [h p.1 (keys_permissionCatalog ▸ List.mem_map_of_mem hp)]
    exact Bool.false_ne_true
  unfold AccessDb.seedPermissions
  rw [hnone, List.map_nil, List.append_nil]

/-! ### Giving a role what it lacks -/

theorem mem_bundle_addMissing {roleId roleId' : Nat} {keys : List String} {key : String} :
    key ∈ (db.addMissing roleId keys).bundle roleId' ↔
      key ∈ db.bundle roleId' ∨ (roleId = roleId' ∧ key ∈ keys) := by
  unfold addMissing
  rw [mem_bundle_addRolePermissions, List.mem_filter]
  constructor
  · rintro (hold | ⟨hrole, hkey, -⟩)
    · exact Or.inl hold
    · exact Or.inr ⟨hrole, hkey⟩
  · rintro (hold | ⟨rfl, hkey⟩)
    · exact Or.inl hold
    · by_cases hmem : key ∈ db.bundle roleId
      · exact Or.inl hmem
      · exact Or.inr ⟨rfl, hkey, by simpa using hmem⟩

theorem Sound.addMissing (h : db.Sound) {roleId : Nat} {keys : List String}
    (hrole : (db.roles.get? roleId).isSome) (hnodup : keys.Nodup)
    (hknown : ∀ key ∈ keys, db.knowsPermission key = true) : (db.addMissing roleId keys).Sound := by
  refine h.addRolePermissions hrole (hnodup.filter _) (fun key hkey hmem => ?_) fun key hkey =>
    hknown key (List.mem_filter.mp hkey).1
  have hnew := (List.mem_filter.mp hkey).2
  rw [List.contains_iff_mem.mpr hmem] at hnew
  cases hnew

theorem addMissing_eq_self {roleId : Nat} {keys : List String}
    (h : ∀ key ∈ keys, key ∈ db.bundle roleId) : db.addMissing roleId keys = db := by
  have hnone : (keys.filter fun key => !(db.bundle roleId).contains key) = [] := by
    refine List.filter_eq_nil_iff.mpr fun key hkey => ?_
    rw [List.contains_iff_mem.mpr (h key hkey)]
    exact Bool.false_ne_true
  unfold AccessDb.addMissing
  rw [hnone]
  rfl

end AccessDb

/-! ### The loop over the roles -/

/-- What holds when `done` has been seeded, and the roles called `names` may have been made. -/
structure SeededFrom (db : AccessDb) (names : List String) (done : List (String × List String))
    (s : Seeding) : Prop where
  session : s.session.Sound
  committed : s.committed.Sound
  sameSession : s.session = { db with
    roles := s.session.roles, rolePermissions := s.session.rolePermissions }
  sameCommitted : s.committed = { db with
    roles := s.session.roles, rolePermissions := s.committed.rolePermissions }
  oldRoles : ∀ r ∈ db.roles.rows, r ∈ s.session.roles.rows
  newRoles : ∀ r ∈ s.session.roles.rows, r ∈ db.roles.rows ∨ r.name ∈ names
  oldGrants : ∀ rp ∈ db.rolePermissions.rows, rp ∈ s.committed.rolePermissions.rows
  within : ∀ rp ∈ s.committed.rolePermissions.rows, rp ∈ s.session.rolePermissions.rows
  newGrants : ∀ rp ∈ s.session.rolePermissions.rows, rp ∈ db.rolePermissions.rows ∨
    ∃ r ∈ s.session.roles.rows, r.id = rp.roleId ∧ ∃ d ∈ done, d.1 = r.name ∧
      rp.permissionKey ∈ d.2
  given : ∀ d ∈ done, ∃ r ∈ s.session.roles.rows, r.name = d.1 ∧
    ∀ key ∈ d.2, key ∈ s.session.bundle r.id

namespace SeededFrom

variable {db : AccessDb} {names : List String} {done : List (String × List String)} {s : Seeding}

theorem start (h : db.Sound) : SeededFrom db [] [] ⟨db, db⟩ where
  session := h
  committed := h
  sameSession := rfl
  sameCommitted := rfl
  oldRoles _ := id
  newRoles _ := Or.inl
  oldGrants _ := id
  within _ := id
  newGrants _ := Or.inl
  given _ hd := absurd hd List.not_mem_nil

/-- A role is made, and all is committed. -/
theorem make (h : SeededFrom db names done s) {name : String}
    (hfree : (s.session.roles.first? fun r => r.name == name) = none) :
    SeededFrom db (names ++ [name]) done
      ⟨s.session.addRole name none true, s.session.addRole name none true⟩ where
  session := h.session.addRole none true hfree fun _ => rfl
  committed := h.session.addRole none true hfree fun _ => rfl
  sameSession := by
    rw [AccessDb.addRole, h.sameSession]
  sameCommitted := by
    rw [AccessDb.addRole, h.sameSession]
  oldRoles r hr := (Table.mem_insertNew _).mpr (Or.inl (h.oldRoles r hr))
  newRoles r hr := by
    rcases (Table.mem_insertNew _).mp hr with hold | rfl
    · exact (h.newRoles r hold).imp_right (List.mem_append_left _)
    · exact Or.inr (List.mem_append_right _ List.mem_cons_self)
  oldGrants rp hrp := h.within rp (h.oldGrants rp hrp)
  within _ := id
  newGrants rp hrp := by
    refine (h.newGrants rp hrp).imp_right ?_
    rintro ⟨r, hr, hd⟩
    exact ⟨r, (Table.mem_insertNew _).mpr (Or.inl hr), hd⟩
  given d hd := by
    obtain ⟨r, hr, hgiven⟩ := h.given d hd
    exact ⟨r, (Table.mem_insertNew _).mpr (Or.inl hr), hgiven⟩

/-- A role that is there is given what it lacks. -/
theorem fill (h : SeededFrom db names done s) {r : RoleRow} (hr : r ∈ s.session.roles.rows)
    {d : String × List String} (hname : r.name = d.1) (hnodup : d.2.Nodup)
    (hknown : ∀ key ∈ d.2, db.knowsPermission key = true) :
    SeededFrom db names (done ++ [d]) { s with session := s.session.addMissing r.id d.2 } where
  session := by
    refine h.session.addMissing ?_ hnodup fun key hkey => ?_
    · exact Option.isSome_iff_exists.mpr ⟨r, Table.get?_of_mem hr⟩
    · rw [h.sameSession]
      exact hknown key hkey
  committed := h.committed
  sameSession := by
    rw [AccessDb.addMissing, AccessDb.addRolePermissions, h.sameSession]
  sameCommitted := h.sameCommitted
  oldRoles := h.oldRoles
  newRoles := h.newRoles
  oldGrants := h.oldGrants
  within rp hrp := AccessDb.mem_addRolePermissions.mpr (Or.inl (h.within rp hrp))
  newGrants rp hrp := by
    rcases AccessDb.mem_addRolePermissions.mp hrp with hold | ⟨i, key, hkey, rfl⟩
    · refine (h.newGrants rp hold).imp_right ?_
      rintro ⟨q, hq, hid, e, he, hgiven⟩
      exact ⟨q, hq, hid, e, List.mem_append_left _ he, hgiven⟩
    · exact Or.inr ⟨r, hr, rfl, d, List.mem_append_right _ List.mem_cons_self, hname.symm,
        (List.mem_filter.mp (List.mem_of_getElem? hkey)).1⟩
  given e he := by
    rcases List.mem_append.mp he with he | he
    · obtain ⟨q, hq, hqname, hkeys⟩ := h.given e he
      exact ⟨q, hq, hqname, fun key hkey =>
        AccessDb.mem_bundle_addMissing.mpr (Or.inl (hkeys key hkey))⟩
    · obtain rfl := List.mem_singleton.mp he
      exact ⟨r, hr, hname, fun key hkey =>
        AccessDb.mem_bundle_addMissing.mpr (Or.inr ⟨rfl, hkey⟩)⟩

/-- One role of the loop. -/
theorem role (h : SeededFrom db names done s) {d : String × List String} (hnew : d.1 ∉ names)
    (hnodup : d.2.Nodup) (hknown : ∀ key ∈ d.2, db.knowsPermission key = true) :
    SeededFrom db (names ++ [d.1]) (done ++ [d]) (s.role db.roles d) := by
  unfold Seeding.role
  cases hfound : db.roles.first? fun r => r.name == d.1 with
  | some role =>
      obtain ⟨hname, hget⟩ := Table.first?_spec hfound
      have hfilled := h.fill (h.oldRoles role (Table.get?_mem hget)) (beq_iff_eq.mp hname) hnodup
        hknown
      exact { hfilled with
        newRoles := fun r hr => (h.newRoles r hr).imp_right (List.mem_append_left _) }
  | none =>
      -- neither was it there before, nor has the loop made it
      have hfree : (s.session.roles.first? fun r => r.name == d.1) = none := by
        refine Table.first?_eq_none_iff.mpr fun r hr => ?_
        rcases h.newRoles r hr with hold | hmade
        · exact Table.first?_eq_none_iff.mp hfound r hold
        · rw [beq_eq_false_iff_ne]
          exact fun heq => hnew (heq ▸ hmade)
      exact (h.make hfree).fill ((Table.mem_insertNew _).mpr (Or.inr rfl)) rfl hnodup hknown

/-- The loop. -/
theorem foldl (h : SeededFrom db names done s) {l : List (String × List String)}
    (hnodup : (l.map Prod.fst).Nodup)
    (hl : ∀ d ∈ l, d.1 ∉ names ∧ d.2.Nodup ∧ ∀ key ∈ d.2, db.knowsPermission key = true) :
    SeededFrom db (names ++ l.map Prod.fst) (done ++ l) (l.foldl (Seeding.role db.roles) s) := by
  induction l generalizing names done s with
  | nil =>
      rw [List.map_nil, List.append_nil, List.append_nil]
      exact h
  | cons d l ih =>
      rw [List.map_cons, List.nodup_cons] at hnodup
      obtain ⟨hnew, hkeys, hknown⟩ := hl d List.mem_cons_self
      have hrest := ih (h.role hnew hkeys hknown) hnodup.2 fun e he => by
        obtain ⟨henew, hespec⟩ := hl e (List.mem_cons_of_mem d he)
        refine ⟨fun hmem => ?_, hespec⟩
        rcases List.mem_append.mp hmem with hmem | hmem
        · exact henew hmem
        · exact hnodup.1 (List.mem_singleton.mp hmem ▸ List.mem_map_of_mem he)
      rw [List.append_assoc, List.append_assoc] at hrest
      exact hrest

end SeededFrom

/-! ### Starts -/

/-- A role of the name has the permission. -/
def AccessDb.Grants (db : AccessDb) (name key : String) : Prop :=
  ∃ r ∈ db.roles.rows, r.name = name ∧ key ∈ db.bundle r.id

/-- The permission is one of those that the role comes with. -/
def DefaultGrant (name key : String) : Prop := ∃ d ∈ roleDefaults, d.1 = name ∧ key ∈ d.2

/-- What a start does, whether it is killed or not. -/
structure Reseeds (db db' : AccessDb) : Prop where
  sound : db'.Sound
  users : db'.users = db.users
  userPermissions : db'.userPermissions = db.userPermissions
  userSessions : db'.userSessions = db.userSessions
  auditLog : db'.auditLog = db.auditLog
  permissions : ∀ p ∈ db.permissions, p ∈ db'.permissions
  oldRoles : ∀ r ∈ db.roles.rows, r ∈ db'.roles.rows
  newRoles : ∀ r ∈ db'.roles.rows, r ∈ db.roles.rows ∨ r.name ∈ builtinRoles
  oldGrants : ∀ rp ∈ db.rolePermissions.rows, rp ∈ db'.rolePermissions.rows
  newGrants : ∀ name key, db'.Grants name key → db.Grants name key ∨ DefaultGrant name key

namespace Reseeds

variable {db db' db'' : AccessDb}

theorem refl (h : db.Sound) : Reseeds db db where
  sound := h
  users := rfl
  userPermissions := rfl
  userSessions := rfl
  auditLog := rfl
  permissions _ := id
  oldRoles _ := id
  newRoles _ := Or.inl
  oldGrants _ := id
  newGrants _ _ := Or.inl

theorem trans (h : Reseeds db db') (h' : Reseeds db' db'') : Reseeds db db'' where
  sound := h'.sound
  users := h'.users.trans h.users
  userPermissions := h'.userPermissions.trans h.userPermissions
  userSessions := h'.userSessions.trans h.userSessions
  auditLog := h'.auditLog.trans h.auditLog
  permissions p hp := h'.permissions p (h.permissions p hp)
  oldRoles r hr := h'.oldRoles r (h.oldRoles r hr)
  newRoles r hr := (h'.newRoles r hr).elim (h.newRoles r) Or.inr
  oldGrants rp hrp := h'.oldGrants rp (h.oldGrants rp hrp)
  newGrants name key hg := (h'.newGrants name key hg).elim (h.newGrants name key) Or.inr

theorem grants (h : Reseeds db db') {name key : String} (hg : db.Grants name key) :
    db'.Grants name key := by
  obtain ⟨r, hr, hname, hkey⟩ := hg
  obtain ⟨rp, hrp, hrole, hrpkey⟩ := AccessDb.mem_bundle.mp hkey
  exact ⟨r, h.oldRoles r hr, hname, AccessDb.mem_bundle.mpr ⟨rp, h.oldGrants rp hrp, hrole, hrpkey⟩⟩

end Reseeds

namespace AccessDb

variable {db : AccessDb}

theorem Seeded.grants (h : db.Seeded) {name key : String} (hd : DefaultGrant name key) :
    db.Grants name key := by
  obtain ⟨d, hd, rfl, hkey⟩ := hd
  obtain ⟨r, hr, hname, hkeys⟩ := h.roles d hd
  exact ⟨r, hr, hname, hkeys key hkey⟩

theorem reseeds_seedPermissions (h : db.Sound) : Reseeds db db.seedPermissions where
  sound := h.seedPermissions
  users := rfl
  userPermissions := rfl
  userSessions := rfl
  auditLog := rfl
  permissions _ hp := List.mem_append_left _ hp
  oldRoles _ := id
  newRoles _ := Or.inl
  oldGrants _ := id
  newGrants _ _ := Or.inl

/-- What the loop has committed, or would commit, is more of the defaults. -/
theorem reseeds_of_seededFrom (hbase : db.Sound) {names : List String} {done : List (String × List String)} {s : Seeding}
    (h : SeededFrom db names done s) (hnames : ∀ name ∈ names, name ∈ builtinRoles)
    (hdone : ∀ d ∈ done, ∀ key ∈ d.2, DefaultGrant d.1 key) {db' : AccessDb} (hsound : db'.Sound)
    (hsame : db' = { db with roles := s.session.roles, rolePermissions := db'.rolePermissions })
    (hold : ∀ rp ∈ db.rolePermissions.rows, rp ∈ db'.rolePermissions.rows)
    (hwithin : ∀ rp ∈ db'.rolePermissions.rows, rp ∈ s.session.rolePermissions.rows) :
    Reseeds db db' where
  sound := hsound
  users := by rw [hsame]
  userPermissions := by rw [hsame]
  userSessions := by rw [hsame]
  auditLog := by rw [hsame]
  permissions p hp := by
    rw [hsame]
    exact hp
  oldRoles r hr := by
    rw [hsame]
    exact h.oldRoles r hr
  newRoles r hr := by
    rw [hsame] at hr
    exact (h.newRoles r hr).imp_right (hnames r.name)
  oldGrants := hold
  newGrants name key := by
    rintro ⟨r, hr, rfl, hkey⟩
    obtain ⟨rp, hrp, hrole, rfl⟩ := mem_bundle.mp hkey
    have hr : r ∈ s.session.roles.rows := by rwa [hsame] at hr
    rcases h.newGrants rp (hwithin rp hrp) with hrp | ⟨q, hq, hid, d, hd, hname, hdkey⟩
    · -- a permission that was there is of a role that was there
      obtain ⟨r', hr'⟩ := Option.isSome_iff_exists.mp (hbase.grantRole rp hrp)
      have heq : r' = r := s.session.roles.eq_of_key_eq (h.oldRoles r' (Table.get?_mem hr')) hr
        ((Table.get?_key hr').trans hrole)
      exact Or.inl ⟨r, heq ▸ Table.get?_mem hr', rfl, mem_bundle.mpr ⟨rp, hrp, hrole, rfl⟩⟩
    · have heq : q = r := s.session.roles.eq_of_key_eq hq hr (hid.trans hrole)
      exact Or.inr (heq ▸ hname ▸ hdone d hd rp.permissionKey hdkey)

/-- The loop, over some of the roles. -/
theorem seededFrom_foldl (h : db.Sound) {l : List (String × List String)} {order : Iteration}
    (hl : l.Sublist order.val) :
    SeededFrom db.seedPermissions (l.map Prod.fst) l
      (l.foldl (Seeding.role db.seedPermissions.roles) ⟨db.seedPermissions, db.seedPermissions⟩) := by
  have hall := (SeededFrom.start h.seedPermissions).foldl
    ((hl.map Prod.fst).nodup order.property.nodup_names) fun d hd => by
      obtain ⟨-, hnodup, hkeys⟩ := order.property.spec (hl.subset hd)
      exact ⟨List.not_mem_nil, hnodup, fun key hkey =>
        knowsPermission_seedPermissions db (hkeys key hkey)⟩
  exact hall

/-- **A start only adds defaults**, and adds them all if it comes through. -/
theorem seedRbac_spec (h : db.Sound) (order : Iteration) (killedAfter : Option Nat) :
    Reseeds db (db.seedRbac order killedAfter) ∧
      (killedAfter = none → (db.seedRbac order killedAfter).Seeded) := by
  have hdefaults : ∀ l : List (String × List String), l.Sublist order.val →
      (∀ name ∈ l.map Prod.fst, name ∈ builtinRoles) ∧
        ∀ d ∈ l, ∀ key ∈ d.2, DefaultGrant d.1 key := by
    refine fun l hl => ⟨fun name hname => ?_, fun d hd key hkey => ?_⟩
    · obtain ⟨d, hd, rfl⟩ := List.mem_map.mp hname
      exact (order.property.spec (hl.subset hd)).1
    · obtain ⟨e, he, hname, hperm⟩ := order.property.exists_default (hl.subset hd)
      exact ⟨e, he, hname.symm, hperm.mem_iff.mp hkey⟩
  have hcatalog := reseeds_seedPermissions h
  cases killedAfter with
  | some n =>
      have hsub := List.take_sublist n order.val
      have hloop := seededFrom_foldl h hsub
      obtain ⟨hnames, hkeys⟩ := hdefaults _ hsub
      refine ⟨hcatalog.trans ?_, fun hc => by cases hc⟩
      exact reseeds_of_seededFrom h.seedPermissions hloop hnames hkeys hloop.committed
        hloop.sameCommitted hloop.oldGrants hloop.within
  | none =>
      have hloop := seededFrom_foldl h (List.Sublist.refl order.val)
      obtain ⟨hnames, hkeys⟩ := hdefaults _ (List.Sublist.refl order.val)
      refine ⟨hcatalog.trans (reseeds_of_seededFrom h.seedPermissions hloop hnames hkeys
        hloop.session hloop.sameSession (fun rp hrp => hloop.within rp (hloop.oldGrants rp hrp))
        fun _ => id), fun _ => ⟨fun key hkey => ?_, fun e he => ?_⟩⟩
      · refine (knowsPermission_congr ?_).trans (knowsPermission_seedPermissions db hkey)
        have hsame := congrArg AccessDb.permissions hloop.sameSession
        exact hsame
      · obtain ⟨d, hd, hname, hperm⟩ := order.property.exists_of_default he
        obtain ⟨r, hr, hrname, hgiven⟩ := hloop.given d hd
        exact ⟨r, hr, hrname.trans hname, fun key hkey => hgiven key (hperm.mem_iff.mpr hkey)⟩

/-- A start after one that came through changes nothing. -/
theorem seedRbac_eq_self (h : db.Sound) (hseeded : db.Seeded) (order : Iteration)
    (killedAfter : Option Nat) : db.seedRbac order killedAfter = db := by
  have hrole : ∀ d ∈ order.val, Seeding.role db.roles ⟨db, db⟩ d = ⟨db, db⟩ := by
    intro d hd
    obtain ⟨e, he, hname, hperm⟩ := order.property.exists_default hd
    obtain ⟨r, hr, hrname, hkeys⟩ := hseeded.roles e he
    unfold Seeding.role
    cases hfound : db.roles.first? fun r => r.name == d.1 with
    | none =>
        have hfalse := Table.first?_eq_none_iff.mp hfound r hr
        simp [hrname, hname] at hfalse
    | some role =>
        obtain ⟨hrole, hget⟩ := Table.first?_spec hfound
        have heq : role = r := h.roleNames role (Table.get?_mem hget) r hr
          ((beq_iff_eq.mp hrole).trans (hname.trans hrname.symm))
        dsimp only
        rw [addMissing_eq_self fun key hkey => heq ▸ hkeys key (hperm.mem_iff.mp hkey)]
  have hfold : ∀ l : List (String × List String), (∀ d ∈ l, d ∈ order.val) →
      l.foldl (Seeding.role db.roles) ⟨db, db⟩ = ⟨db, db⟩ := by
    intro l
    induction l with
    | nil => exact fun _ => rfl
    | cons d l ih =>
        intro hl
        rw [List.foldl_cons, hrole d (hl d List.mem_cons_self)]
        exact ih fun e he => hl e (List.mem_cons_of_mem d he)
  unfold seedRbac
  rw [seedPermissions_eq_self hseeded.permissions]
  cases killedAfter with
  | none => exact congrArg Seeding.session (hfold _ fun _ => id)
  | some n => exact congrArg Seeding.committed (hfold _ fun _ => List.mem_of_mem_take)

/-- Starts of a server, one after the other. -/
def seedAll (db : AccessDb) (starts : List (Iteration × Option Nat)) : AccessDb :=
  starts.foldl (fun db start => db.seedRbac start.1 start.2) db

theorem reseeds_seedAll (h : db.Sound) (starts : List (Iteration × Option Nat)) :
    Reseeds db (db.seedAll starts) := by
  unfold seedAll
  induction starts generalizing db with
  | nil => exact Reseeds.refl h
  | cons start starts ih =>
      have hfirst := (seedRbac_spec h start.1 start.2).1
      exact hfirst.trans (ih hfirst.sound)

theorem seedAll_eq_self (h : db.Sound) (hseeded : db.Seeded)
    (starts : List (Iteration × Option Nat)) : db.seedAll starts = db := by
  unfold seedAll
  induction starts with
  | nil => rfl
  | cons start starts ih =>
      rw [List.foldl_cons, seedRbac_eq_self h hseeded]
      exact ih

/-- What there was is there, in the rows it was in, and so are the defaults, and nothing else; and
no start changes that any more. -/
structure SeededOver (db seeded : AccessDb) : Prop where
  grants : ∀ name key, seeded.Grants name key ↔ db.Grants name key ∨ DefaultGrant name key
  oldRoles : ∀ r ∈ db.roles.rows, r ∈ seeded.roles.rows
  newRoles : ∀ r ∈ seeded.roles.rows, r ∈ db.roles.rows ∨ r.name ∈ builtinRoles
  oldGrants : ∀ rp ∈ db.rolePermissions.rows, rp ∈ seeded.rolePermissions.rows
  users : seeded.users = db.users
  userPermissions : seeded.userPermissions = db.userPermissions
  stable : ∀ starts, seeded.seedAll starts = seeded

/-- **Seeding can be killed and repeated.**  Whatever starts came before, in whatever order they
went through the sets and wherever they were killed, a start that comes through has seeded. -/
theorem seeding_restartable (db : AccessDb) (h : db.Sound) (starts : List (Iteration × Option Nat))
    (order : Iteration) : db.SeededOver ((db.seedAll starts).seedRbac order none) := by
  have hearlier := reseeds_seedAll h starts
  obtain ⟨hlast, hseeded⟩ := seedRbac_spec hearlier.sound order none
  have hall := hearlier.trans hlast
  exact
    { grants := fun name key => ⟨hall.newGrants name key, fun hg =>
        hg.elim hall.grants (hseeded rfl).grants⟩
      oldRoles := hall.oldRoles
      newRoles := hall.newRoles
      oldGrants := hall.oldGrants
      users := hall.users
      userPermissions := hall.userPermissions
      stable := seedAll_eq_self hall.sound (hseeded rfl) }

/-- `ROLE_DEFAULTS` as it is written down. -/
def writtenOrder : Iteration :=
  ⟨roleDefaults, rfl, by
    have hpair : ∀ d ∈ roleDefaults, ∀ e ∈ roleDefaults, d.1 = e.1 → d = e := by decide
    exact fun d hd e he hname => hpair d hd e he hname ▸ List.Perm.refl _⟩

/-- The first start of a new database is killed after two roles. -/
theorem seeding_restarted : SeededOver {}
    ((AccessDb.seedAll {} [(writtenOrder, some 2)]).seedRbac writtenOrder none) :=
  seeding_restartable {} sound_empty [(writtenOrder, some 2)] writtenOrder

end AccessDb

end GovCrawler
