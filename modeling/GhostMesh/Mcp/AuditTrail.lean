import GhostMesh.Mcp.Served

/-!
# The audit trail of a process

The log only grows, in the order of time, and what it says was decided was decided, of the
records as they then were.
-/

set_option autoImplicit false

namespace GhostMesh

open InMemoryCardRuntime Op
open Relation (ReflTransGen)

/-! ## What one decision logs -/

def auditLog (a : Machine App) : List AuthorizationAuditEvent := a.store.authorization.auditEvents

/-- The event is of the decision that the service takes in `a`. -/
structure DecidedIn (w : World) (a : Machine App) (e : AuthorizationAuditEvent) (p : String)
    (permission : PermissionName) (scope : Scope) (allowed : Bool) : Prop where
  action : e.action = if allowed then .authorizationAllowed else .authorizationDenied
  participantId : e.participantId = some p
  asked : e.permission = some permission
  target : e.scope = some scope
  answered : e.allowed = some allowed
  decides : a.store.authorization.decides (w.clock a.ticks) p permission scope e.metadata = allowed

/-- The records of authority only grow; a participant may be entered anew. -/
structure RecordsGrow (s s' : InMemoryAuthorizationRepository) : Prop where
  participants : ∀ p, s.participants.contains p → s'.participants.contains p
  roleAssignments : s.roleAssignments <+: s'.roleAssignments
  permissionGrants : s.permissionGrants <+: s'.permissionGrants

theorem RecordsGrow.of_same {s s' : InMemoryAuthorizationRepository}
    (hparticipants : s'.participants = s.participants)
    (hassignments : s'.roleAssignments = s.roleAssignments)
    (hgrants : s'.permissionGrants = s.permissionGrants) : RecordsGrow s s' :=
  ⟨fun _ h => hparticipants ▸ h, hassignments ▸ List.prefix_refl _,
    hgrants ▸ List.prefix_refl _⟩

theorem RecordsGrow.trans {s s' s'' : InMemoryAuthorizationRepository} (h : RecordsGrow s s')
    (h' : RecordsGrow s' s'') : RecordsGrow s s'' :=
  ⟨fun p hp => h'.participants p (h.participants p hp),
    h.roleAssignments.trans h'.roleAssignments, h.permissionGrants.trans h'.permissionGrants⟩

section Decision
variable {w : World} {a : Machine App} {participantId : String} {permission : PermissionName}
  {scope : Scope} {context : JsonObj}

end Decision

/-! ## One step -/

/-- What a step leaves in the log: nothing, or one event, dated during the step, and if it
is of a decision, of one that was taken. -/
def LogsOnce (w : World) (a a' : Machine App) : Prop :=
  auditLog a' = auditLog a ∨ ∃ e, auditLog a' = auditLog a ++ [e] ∧
    (∃ i, a.ticks ≤ i ∧ i < a'.ticks ∧ e.createdAt = w.clock i) ∧
    (e.action = .authorizationAllowed ∨ e.action = .authorizationDenied →
      ∃ p permission scope allowed, DecidedIn w a e p permission scope allowed)

structure TrailStep (w : World) (a a' : Machine App) : Prop where
  ticks : a.ticks ≤ a'.ticks
  records : RecordsGrow a.store.authorization a'.store.authorization
  logs : LogsOnce w a a'

section Steps
variable {grants : Prop} {w : World} {a a' : Machine App}

theorem TrailStep.apart (hticks : a.ticks ≤ a'.ticks)
    (h : a'.store.authorization = a.store.authorization) : TrailStep w a a' where
  ticks := hticks
  records := h ▸ .of_same rfl rfl rfl
  logs := .inl (congrArg (·.auditEvents) h)

theorem GenesisCall.ticks_le (c : GenesisCall) : a.ticks ≤ (c.step w a).ticks := by
  have hsteps : ∀ {m m' : Machine InMemoryCardRuntime}, ReflTransGen (HostedStep w) m m' →
      m.ticks ≤ m'.ticks := by
    intro m m' h
    induction h with
    | refl => exact Nat.le_refl _
    | tail _ hlast ih => exact ih.trans hlast.effect.later.ticks
  exact hsteps c.hostedSteps

end Steps

/-! ## Runs -/

/-- The event is of a decision. -/
def AuthorizationAuditEvent.IsDecision (e : AuthorizationAuditEvent) : Prop :=
  e.action = .authorizationAllowed ∨ e.action = .authorizationDenied

/-- What is logged on the way from `a` to `a'`. -/
structure Trail (w : World) (a a' : Machine App) (new : List AuthorizationAuditEvent) : Prop where
  log : auditLog a' = auditLog a ++ new
  ticks : a.ticks ≤ a'.ticks
  records : RecordsGrow a.store.authorization a'.store.authorization
  /-- Every decision was taken, where the log is what stands before it, on records that the
  later ones extend. -/
  decided : ∀ before e after, new = before ++ e :: after → e.IsDecision → ∃ b,
    Hosted True w a b ∧ auditLog b = auditLog a ++ before ∧
    RecordsGrow b.store.authorization a'.store.authorization ∧
    ∃ p permission scope allowed, DecidedIn w b e p permission scope allowed
  dated : ∀ e ∈ new, ∃ i, i < a'.ticks ∧ e.createdAt = w.clock i
  inOrder : Monotone w.clock → new.Pairwise fun e e' => e.createdAt ≤ e'.createdAt

section Runs
variable {grants : Prop} {w : World} {a a' b c : Machine App}
  {new : List AuthorizationAuditEvent}

theorem Trail.refl (a : Machine App) : Trail w a a [] where
  log := (List.append_nil _).symm
  ticks := Nat.le_refl _
  records := .of_same rfl rfl rfl
  decided before e after h := by simp at h
  dated e he := by cases he
  inOrder _ := .nil

theorem Trail.same (h : Trail w a b new) (hstep : TrailStep w b c)
    (hlog : auditLog c = auditLog b) : Trail w a c new where
  log := hlog.trans h.log
  ticks := h.ticks.trans hstep.ticks
  records := h.records.trans hstep.records
  decided before e after hnew he := by
    obtain ⟨d, hreached, hbefore, hrecords, hdecided⟩ := h.decided before e after hnew he
    exact ⟨d, hreached, hbefore, hrecords.trans hstep.records, hdecided⟩
  dated e he := by
    obtain ⟨i, hi, hdate⟩ := h.dated e he
    exact ⟨i, Nat.lt_of_lt_of_le hi hstep.ticks, hdate⟩
  inOrder := h.inOrder

theorem Trail.append {e : AuthorizationAuditEvent} (hreached : Hosted True w a b)
    (h : Trail w a b new) (hstep : TrailStep w b c) (hlog : auditLog c = auditLog b ++ [e])
    (hdated : ∃ i, b.ticks ≤ i ∧ i < c.ticks ∧ e.createdAt = w.clock i)
    (hdecided : e.IsDecision →
      ∃ p permission scope allowed, DecidedIn w b e p permission scope allowed) :
    Trail w a c (new ++ [e]) where
  log := by rw [hlog, h.log, List.append_assoc]
  ticks := h.ticks.trans hstep.ticks
  records := h.records.trans hstep.records
  decided before e' after hnew he' := by
    -- the event is the new last one, or one of those before it
    rcases List.eq_nil_or_concat after with rfl | ⟨after', last, rfl⟩
    · obtain ⟨rfl, hlast⟩ := List.append_inj' hnew rfl
      obtain rfl : e = e' := by simpa using hlast
      exact ⟨b, hreached, h.log, hstep.records, hdecided he'⟩
    · have hsplit : new ++ [e] = (before ++ e' :: after') ++ [last] := by
        rw [hnew]
        simp
      obtain ⟨hold, -⟩ := List.append_inj' hsplit rfl
      obtain ⟨d, hd, hbefore, hrecords, hdecided'⟩ := h.decided before e' after' hold he'
      exact ⟨d, hd, hbefore, hrecords.trans hstep.records, hdecided'⟩
  dated e' he' := by
    rcases List.mem_append.mp he' with hold | hlast
    · obtain ⟨i, hi, hdate⟩ := h.dated e' hold
      exact ⟨i, Nat.lt_of_lt_of_le hi hstep.ticks, hdate⟩
    · obtain rfl := List.mem_singleton.mp hlast
      obtain ⟨i, -, hi, hdate⟩ := hdated
      exact ⟨i, hi, hdate⟩
  inOrder hclock := by
    refine List.pairwise_append.mpr ⟨h.inOrder hclock, List.pairwise_singleton _ _, ?_⟩
    intro e₁ he₁ e₂ he₂
    obtain rfl := List.mem_singleton.mp he₂
    obtain ⟨i, hi, hdate⟩ := h.dated e₁ he₁
    obtain ⟨j, hj, -, hdate'⟩ := hdated
    rw [hdate, hdate']
    exact hclock (Nat.le_trans (Nat.le_of_lt hi) hj)

end Runs

namespace Mcp

end Mcp

end GhostMesh
