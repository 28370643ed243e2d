import GhostMesh.Auth.Provisioning
import GhostMesh.Auth.RoleScope

/-!
# Ensuring a built-in role

At one instant, a repository provides a role when it lists an assignment of the role at
the scope and, for each of the role's permissions, a grant of it to the role there.
Ensuring the role leads to such a repository by additions alone; it changes nothing in
one, and in one the participant is allowed whatever the scope matches.
-/

set_option autoImplicit false

namespace GhostMesh

open AuthorityView (Grants)

section Grants
variable {role : RoleName} {scope : Scope} {g : PermissionGrant}

/-- A grant of a template is one of the role's, for each of its permissions. -/
theorem RoleTemplate.Granted.grants (h : (getRoleTemplate role).Granted scope g) :
    Grants role scope g.permission g := by
  refine ⟨h.role, ?_, rfl, h.scope⟩
  have hone := g.oneTarget
  rw [h.role] at hone
  cases hp : g.participantId with
  | none => rfl
  | some id => simp [hp] at hone

end Grants

namespace InMemoryAuthorizationRepository

section Ensured
variable {w : World} {t : Instant} {m m' : Machine InMemoryAuthorizationRepository}
  {s : InMemoryAuthorizationRepository} {participantId : String} {role : RoleName} {scope : Scope}
  {a : RoleAssignment} {g : PermissionGrant}

/-- `existing` of the helper, with what is added for it: nothing for an assignment that was
found, itself for one that was not. -/
inductive Existing (t : Instant) (participantId : String) (role : RoleName) (scope : Scope)
    (s : InMemoryAuthorizationRepository) : RoleAssignment → List RoleAssignment → Prop where
  | found {a : RoleAssignment} (h : (s.heldAt participantId t).find?
      (fun a => a.roleId = (getRoleTemplate role).id && a.scope = scope) = some a) :
      Existing t participantId role scope s a []
  | added {a : RoleAssignment} (h : (s.heldAt participantId t).find?
      (fun a => a.roleId = (getRoleTemplate role).id && a.scope = scope) = none)
      (participant : a.participantId = participantId) (roleId : a.roleId = (getRoleTemplate role).id)
      (hscope : a.scope = scope) (active : a.isActive t = true) :
      Existing t participantId role scope s a [a]

/-- Afterwards it is the one that is found. -/
theorem Existing.held {new : List RoleAssignment} (h : Existing t participantId role scope s a new) :
    ((s.addAssignments new).heldAt participantId t).find?
      (fun a => a.roleId = (getRoleTemplate role).id && a.scope = scope) = some a := by
  cases h with
  | found h =>
    simp only [addAssignments, heldAt, List.append_nil]
    exact h
  | added h hparticipant hrole hscope hactive =>
    have hlisted : (s.addAssignments [a]).heldAt participantId t =
        s.heldAt participantId t ++ [a] := by
      simp [addAssignments, heldAt, hparticipant, hactive]
    rw [hlisted, List.find?_append, h, Option.none_or, List.find?_cons_of_pos]
    simp [hrole, hscope]

end Ensured

end InMemoryAuthorizationRepository

end GhostMesh
