import Mathlib.Data.List.TakeWhile
import MultiAgent.Lib.Dict

/-!
# Required permissions

`get_current_user` and `require_permissions` of `libs/security/auth.py`, with the roles and
permissions of `RBACManager`. What `jwt_manager` makes of a token is given.

The checker goes through the required permissions, and for each of them through the user's
roles up to the first one that grants it. A role that it comes to is made a `UserRole`, which
raises a `ValueError` if there is none of that name. So it decides as it should exactly if it
comes to no such role (`decides_iff`). The role of an API key is one
(`permissionChecker_apiKey`).
-/

namespace MultiAgent

namespace Permissions

/-- `UserRole`. -/
inductive UserRole
  | admin
  | agent
  | viewer
  deriving DecidableEq

/-- `UserRole(role)`, where `none` stands for a `ValueError`. -/
def UserRole.ofString (role : String) : Option UserRole :=
  if role = "admin" then some .admin
  else if role = "agent" then some .agent
  else if role = "viewer" then some .viewer
  else none

/-- `permissions` of `RBACManager`. -/
def rolePermissions : UserRole → List String
  | .admin =>
    ["users:read", "users:write", "users:delete", "tenants:read", "tenants:write",
      "tenants:delete", "agents:read", "agents:write", "agents:delete", "tools:read",
      "tools:write", "tools:delete", "analytics:read", "analytics:write", "billing:read",
      "billing:write", "settings:read", "settings:write"]
  | .agent =>
    ["agents:read", "agents:write", "tools:read", "tools:write", "conversations:read",
      "conversations:write", "analytics:read"]
  | .viewer => ["agents:read", "conversations:read", "analytics:read"]

/-- `has_permission`. -/
def hasPermission (role : UserRole) (permission : String) : Bool :=
  permission ∈ rolePermissions role

/-! ## Users -/

/-- What is read of the payload of a token. -/
structure Payload where
  sub : Option String
  tenantId : Option String
  roles : Option (List String)

/-- What is read of an API key's record. -/
structure ApiKeyInfo where
  userId : String
  tenantId : String
  permissions : List String
  isActive : Bool

/-- The user that `get_current_user` returns, by `auth_type`. -/
inductive CurrentUser
  | jwt (id tenantId : Option String) (roles : List String)
  | apiKey (id tenantId : String) (permissions : List String)
  deriving DecidableEq

/-- `current_user.get("roles", [])`. -/
def CurrentUser.roles : CurrentUser → List String
  | .jwt _ _ roles => roles
  | .apiKey _ _ _ => ["api_user"]

/-- `current_user.get("permissions", [])`. -/
def CurrentUser.permissions : CurrentUser → List String
  | .jwt _ _ _ => []
  | .apiKey _ _ permissions => permissions

/-- An exception. The permissions are shown in the detail. -/
inductive Raised
  | httpException (statusCode : ℕ) (detail : String) (shown : List String)
  | valueError (role : String)
  deriving DecidableEq

/-- `validate_api_key`, where `none` stands for status 401. -/
def validateApiKey (apiKeys : Dict String ApiKeyInfo) (apiKey : String) : Option ApiKeyInfo :=
  if "aiaas_".toList.isPrefixOf apiKey.toList then (apiKeys.get? apiKey).filter ApiKeyInfo.isActive
  else none

/-- `get_current_user`, where `verifyToken` is `jwt_manager.verify_token`, with `none` for status
401. -/
def getCurrentUser (verifyToken : String → Option Payload) (apiKeys : Dict String ApiKeyInfo)
    (token : String) : Except Raised CurrentUser :=
  match verifyToken token with
  | some payload => .ok (.jwt payload.sub payload.tenantId (payload.roles.getD []))
  | none =>
    match validateApiKey apiKeys token with
    | some info => .ok (.apiKey info.userId info.tenantId info.permissions)
    | none => .error (.httpException 401 "Invalid authentication credentials" [])

/-! ## The checker -/

/-- Whether a role grants the permission, up to the first one that does. -/
def checkRoles (permission : String) : List String → Except Raised Bool
  | [] => .ok false
  | role :: roles =>
    match UserRole.ofString role with
    | none => .error (.valueError role)
    | some r => if hasPermission r permission then .ok true else checkRoles permission roles

/-- The loop over the required permissions, with what `has_permission` is so far. -/
def checkPermissions (user : CurrentUser) : Bool → List String → Except Raised Bool
  | found, [] => .ok found
  | found, permission :: permissions =>
    match checkRoles permission user.roles with
    | .error e => .error e
    | .ok granted =>
      -- a role only sets `has_permission`, a direct permission ends the loop
      if permission ∈ user.permissions then .ok true
      else checkPermissions user (found || granted) permissions

/-- The exception of a user who may not. -/
def insufficientPermissions (permissions : List String) : Raised :=
  .httpException 403 "Insufficient permissions. Required: %s" permissions

/-- `permission_checker` of `require_permissions`. -/
def permissionChecker (permissions : List String) (user : CurrentUser) :
    Except Raised CurrentUser :=
  match checkPermissions user false permissions with
  | .error e => .error e
  | .ok found => if found then .ok user else .error (insufficientPermissions permissions)

/-! ## What is asked for -/

/-- The role is known and grants the permission. -/
def grants (permission role : String) : Bool :=
  (UserRole.ofString role).any fun r => hasPermission r permission

/-- Some required permission is granted by a known role, or listed directly. -/
def allowed (permissions : List String) (user : CurrentUser) : Bool :=
  permissions.any fun permission =>
    user.roles.any (grants permission) || permission ∈ user.permissions

/-- The checker returns the user or raises the 403, as it should. -/
def Decides (permissions : List String) (user : CurrentUser) : Prop :=
  permissionChecker permissions user =
    if allowed permissions user then .ok user else .error (insufficientPermissions permissions)

/-- The permissions up to the first one that is listed directly. -/
def examined (user : CurrentUser) : List String → List String
  | [] => []
  | permission :: permissions =>
    if permission ∈ user.permissions then [permission]
    else permission :: examined user permissions

/-- The roles before the first one that grants the permission are known. -/
def RolesKnown (roles : List String) (permission : String) : Prop :=
  ∀ role ∈ roles.takeWhile fun role => !grants permission role,
    (UserRole.ofString role).isSome = true

instance (roles : List String) (permission : String) : Decidable (RolesKnown roles permission) :=
  inferInstanceAs (Decidable (∀ role ∈ roles.takeWhile fun role => !grants permission role,
    (UserRole.ofString role).isSome = true))

/-! ## What the loops do -/

/-- The loop over the roles ends at the first one that grants the permission, or raises. -/
theorem checkRoles_cases (permission : String) : ∀ roles : List String,
    RolesKnown roles permission ∧
        checkRoles permission roles = .ok (roles.any (grants permission)) ∨
      ¬RolesKnown roles permission ∧ ∃ role, checkRoles permission roles = .error (.valueError role)
  | [] => Or.inl ⟨fun _ h => absurd h List.not_mem_nil, rfl⟩
  | role :: roles => by
    unfold RolesKnown checkRoles
    rw [List.takeWhile_cons, List.any_cons]
    cases hrole : UserRole.ofString role with
    | none =>
      have hgrants : grants permission role = false := by simp [grants, hrole]
      refine Or.inr ⟨fun h => ?_, role, rfl⟩
      rw [hgrants] at h
      have := h role List.mem_cons_self
      simp [hrole] at this
    | some r =>
      have hgrants : grants permission role = hasPermission r permission := by
        simp [grants, hrole]
      rw [hgrants]
      dsimp only
      cases hasPermission r permission with
      | true => exact Or.inl ⟨fun _ h => absurd h List.not_mem_nil, rfl⟩
      | false =>
        have hknown : (∀ s ∈ role :: roles.takeWhile fun s => !grants permission s,
            (UserRole.ofString s).isSome = true) ↔ RolesKnown roles permission := by
          rw [List.forall_mem_cons, hrole]
          exact and_iff_right rfl
        rw [if_pos Bool.not_false, if_neg Bool.false_ne_true, hknown, Bool.false_or]
        exact checkRoles_cases permission roles

/-- The loop over the permissions finds what is allowed, or raises. -/
theorem checkPermissions_cases (user : CurrentUser) : ∀ (found : Bool) (permissions : List String),
    (∀ p ∈ examined user permissions, RolesKnown user.roles p) ∧
        checkPermissions user found permissions = .ok (found || allowed permissions user) ∨
      (¬∀ p ∈ examined user permissions, RolesKnown user.roles p) ∧
        ∃ role, checkPermissions user found permissions = .error (.valueError role)
  | found, [] => Or.inl ⟨fun _ h => absurd h List.not_mem_nil, by simp [checkPermissions, allowed]⟩
  | found, p :: permissions => by
    unfold checkPermissions examined
    rcases checkRoles_cases p user.roles with ⟨hknown, hrun⟩ | ⟨hunknown, role, hrun⟩
    · rw [hrun]
      dsimp only
      by_cases hdirect : p ∈ user.permissions
      · rw [if_pos hdirect, if_pos hdirect, List.forall_mem_singleton]
        exact Or.inl ⟨hknown, by simp [allowed, hdirect]⟩
      · rw [if_neg hdirect, if_neg hdirect, List.forall_mem_cons, and_iff_right hknown]
        have hallowed : (found || allowed (p :: permissions) user) =
            (found || user.roles.any (grants p) || allowed permissions user) := by
          simp [allowed, hdirect, Bool.or_assoc]
        rw [hallowed]
        exact checkPermissions_cases user _ permissions
    · rw [hrun]
      refine Or.inr ⟨fun h => hunknown (h p ?_), role, rfl⟩
      split_ifs
      · exact List.mem_singleton_self p
      · exact List.mem_cons_self

/-- The checker decides as it should exactly if it comes to no unknown role. -/
theorem decides_iff (permissions : List String) (user : CurrentUser) :
    Decides permissions user ↔ ∀ p ∈ examined user permissions, RolesKnown user.roles p := by
  unfold Decides permissionChecker
  rcases checkPermissions_cases user false permissions with ⟨hknown, hrun⟩ | ⟨hunknown, role, hrun⟩
  · rw [hrun, Bool.false_or]
    exact iff_of_true rfl hknown
  · rw [hrun]
    refine iff_of_false (fun h => ?_) hunknown
    dsimp only at h
    split_ifs at h
    cases h

/-! ## API keys -/

/-- The role of an API key is none of the roles, so any required permission ends in the
`ValueError`. -/
theorem permissionChecker_apiKey (id tenantId permission : String)
    (direct permissions : List String) :
    permissionChecker (permission :: permissions) (.apiKey id tenantId direct) =
      .error (.valueError "api_user") :=
  rfl

/-- An API key with the permission that is required. -/
theorem not_decides : ¬Decides ["read"] (.apiKey "user" "tenant" ["read"]) := by
  unfold Decides
  decide

end Permissions

end MultiAgent
