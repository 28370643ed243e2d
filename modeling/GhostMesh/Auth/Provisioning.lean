import GhostMesh.Auth.SameDecisions
import GhostMesh.Domain.Schema

/-!
# Provisioning of roles

A repository that does not refuse the rows it is given provides every role that is asked of
it: afterwards the participant holds the role at the scope, and the role has its grants
there. The in-memory repository is such a one, and so are the tables while the participants
that are named have their rows.
-/

set_option autoImplicit false

namespace GhostMesh

/-- The instants at which a call reads the clock include one of these. -/
def ReadsDuring (w : World) (first last : Nat) (p : Instant → Bool) : Prop :=
  ∃ k, first ≤ k ∧ k < last ∧ p (w.clock k) = true

theorem ReadsDuring.widen {w : World} {first last first' last' : Nat} {p : Instant → Bool}
    (h : ReadsDuring w first last p) (hfirst : first' ≤ first) (hlast : last ≤ last') :
    ReadsDuring w first' last' p := by
  obtain ⟨k, hk, hk', hp⟩ := h
  exact ⟨k, hfirst.trans hk, Nat.lt_of_lt_of_le hk' hlast, hp⟩

/-- The records in a repository's state. -/
structure AuthorityView (σ : Type) where
  participants : σ → Dict String Participant
  assignments : σ → List RoleAssignment
  grants : σ → List PermissionGrant

namespace AuthorityView

variable {σ : Type} (V : AuthorityView σ)

/-- Assignments and grants are only added, and the participants stay. -/
structure Grows (m m' : Machine σ) : Prop where
  participants : V.participants m'.store = V.participants m.store
  assignments : ∀ a ∈ V.assignments m.store, a ∈ V.assignments m'.store
  grants : ∀ g ∈ V.grants m.store, g ∈ V.grants m'.store
  ticks : m.ticks ≤ m'.ticks
  draws : m.draws ≤ m'.draws

/-- A grant of the permission to the role at the scope. -/
structure Grants (role : RoleName) (scope : Scope) (permission : PermissionName)
    (g : PermissionGrant) : Prop where
  role : g.roleId = some (getRoleTemplate role).id
  participant : g.participantId = none
  permission : g.permission = permission
  scope : g.scope = scope

/-- The participant has the role at the scope, and the role has each of its permissions
there, by records that were active at an instant of the call. -/
structure Holds (w : World) (first last : Nat) (s : σ) (participantId : String) (role : RoleName)
    (scope : Scope) : Prop where
  assigned : ∃ a ∈ V.assignments s, a.participantId = participantId ∧
    a.roleId = (getRoleTemplate role).id ∧ a.scope = scope ∧ ReadsDuring w first last a.isActive
  granted : ∀ permission ∈ (getRoleTemplate role).permissions, ∃ g ∈ V.grants s,
    Grants role scope permission g ∧ ReadsDuring w first last g.isActive

/-- The records of a component, seen from the store that contains it. -/
def on {τ : Type} (c : Component τ σ) : AuthorityView τ :=
  ⟨fun s => V.participants (c.get s), fun s => V.assignments (c.get s), fun s => V.grants (c.get s)⟩

variable {V} {m m' m'' : Machine σ}

theorem Grows.of_store (hstore : m'.store = m.store) (hticks : m.ticks ≤ m'.ticks)
    (hdraws : m.draws ≤ m'.draws) : V.Grows m m' := by
  constructor
  · rw [hstore]
  · rw [hstore]
    exact fun _ ha => ha
  · rw [hstore]
    exact fun _ hg => hg
  · exact hticks
  · exact hdraws

theorem Grows.refl (m : Machine σ) : V.Grows m m := .of_store rfl (Nat.le_refl _) (Nat.le_refl _)

theorem Grows.trans (h : V.Grows m m') (h' : V.Grows m' m'') : V.Grows m m'' where
  participants := h'.participants.trans h.participants
  assignments a ha := h'.assignments a (h.assignments a ha)
  grants g hg := h'.grants g (h.grants g hg)
  ticks := h.ticks.trans h'.ticks
  draws := h.draws.trans h'.draws

theorem Grows.on {τ : Type} (c : Component τ σ) {a : Machine τ} {n : Machine σ}
    (h : V.Grows ⟨c.get a.store, a.ticks, a.draws⟩ n) :
    (V.on c).Grows a ⟨c.put n.store a.store, n.ticks, n.draws⟩ := by
  obtain ⟨hparticipants, hassignments, hgrants, hticks, hdraws⟩ := h
  constructor
  · simp only [AuthorityView.on, c.get_put]
    exact hparticipants
  · simp only [AuthorityView.on, c.get_put]
    exact hassignments
  · simp only [AuthorityView.on, c.get_put]
    exact hgrants
  · exact hticks
  · exact hdraws

theorem Holds.grows {w : World} {first last first' last' : Nat} {participantId : String}
    {role : RoleName} {scope : Scope}
    (h : V.Holds w first last m.store participantId role scope) (hgrows : V.Grows m m')
    (hfirst : first' ≤ first) (hlast : last ≤ last') :
    V.Holds w first' last' m'.store participantId role scope := by
  obtain ⟨⟨a, ha, hparticipant, hrole, hscope, hactive⟩, hgranted⟩ := h
  refine ⟨⟨a, hgrows.assignments a ha, hparticipant, hrole, hscope,
    hactive.widen hfirst hlast⟩, ?_⟩
  intro permission hpermission
  obtain ⟨g, hg, hgrants, hactive⟩ := hgranted permission hpermission
  exact ⟨g, hgrows.grants g hg, hgrants, hactive.widen hfirst hlast⟩

end AuthorityView

/-- The repository lists what is active, and takes the rows of known participants while it is
ready: while the identifiers from the `n`-th on are new to it. -/
structure Serves {σ : Type} (w : World) (R : AuthorizationRepository σ) (V : AuthorityView σ)
    (ready : Nat → Machine σ → Prop) (known : String → Prop) : Prop where
  later : ∀ {n n' m m'}, ready n m → m'.store = m.store → n ≤ n' → n' ≤ m'.draws → ready n' m'
  held : ∀ id m, ∃ held, (R.listRoleAssignments id).run w m =
      (.ok held, { m with ticks := m.ticks + 1 }) ∧ ∀ a ∈ held, a ∈ V.assignments m.store ∧
        a.participantId = id ∧ a.isActive (w.clock m.ticks) = true
  reaching : ∀ id m, ∃ grants, (R.listPermissionGrants id).run w m =
      (.ok grants, { m with ticks := m.ticks + 1 }) ∧ ∀ g ∈ grants, g ∈ V.grants m.store ∧
        g.isActive (w.clock m.ticks) = true
  assign : ∀ {a : RoleAssignment} {role : RoleName} {n m}, ready n m → n < m.draws →
    a.id = w.uuid4 n → a.roleId = (getRoleTemplate role).id → known a.participantId →
    (∀ x, a.assignedBy = some x → known x) → ∃ m', (R.addRoleAssignment a).run w m = (.ok (), m') ∧
      m'.draws = m.draws ∧ V.Grows m m' ∧ ready (n + 1) m' ∧ a ∈ V.assignments m'.store
  grant : ∀ {g : PermissionGrant} {n m}, ready n m → n < m.draws → g.id = w.uuid4 n →
    g.participantId = none → (∃ a ∈ V.assignments m.store, g.roleId = some a.roleId) →
    (∀ x, g.grantedBy = some x → known x) → ∃ m', (R.addPermissionGrant g).run w m = (.ok (), m') ∧
      m'.draws = m.draws ∧ V.Grows m m' ∧ ready (n + 1) m' ∧ g ∈ V.grants m'.store

namespace Serves

open AuthorityView (Grants)

section Rules
variable {σ : Type} {w : World} {R : AuthorizationRepository σ} {V : AuthorityView σ}
  {ready : Nat → Machine σ → Prop} {known : String → Prop} {m : Machine σ}
  {participantId : String} {assignedBy : Option String}

/-- The loop over a template's grants, by induction: each of them is there before or is
added. -/
theorem grantEach (h : Serves w R V ready known) (role : RoleName) (scope : Scope)
    (createdAt : Instant) {active : List PermissionGrant} {first : Nat} (ps : List PermissionName)
    {n : Nat} (hready : ready n m) (hdrawn : n + ps.length ≤ m.draws) (hfirst : first < m.ticks)
    (hassigned : ∃ a ∈ V.assignments m.store, a.roleId = (getRoleTemplate role).id)
    (hgranter : ∀ x, assignedBy = some x → known x)
    (hactive : ∀ g ∈ active, g ∈ V.grants m.store ∧ ReadsDuring w first m.ticks g.isActive) :
    ∃ m', (Exec.forEach (fun g => if hasMatchingGrant active g then pure () else
        R.addPermissionGrant g) ((getRoleTemplate role).grantsFrom w.uuid4 scope assignedBy createdAt
          n ps)).run w m = (.ok (), m') ∧ m'.draws = m.draws ∧ V.Grows m m' ∧
      ready (n + ps.length) m' ∧
      ∀ permission ∈ ps, ∃ g ∈ V.grants m'.store, Grants role scope permission g ∧
        ReadsDuring w first m'.ticks g.isActive := by
  induction ps generalizing n m with
  | nil => exact ⟨m, rfl, rfl, .refl m, hready, by simp⟩
  | cons permission ps ih =>
    rw [List.length_cons] at hdrawn
    have hlength : n + (permission :: ps).length = n + 1 + ps.length := by
      rw [List.length_cons]
      omega
    rw [hlength]
    let g : PermissionGrant := ⟨w.uuid4 n, permission, scope, none, some (getRoleTemplate role).id,
      assignedBy, none, createdAt, none, [("builtin_role", .str (getRoleTemplate role).name.value)],
      Bool.false_ne_true⟩
    -- the grant is found among the active ones, or added
    have hone : ∃ m₁, (if hasMatchingGrant active g then pure () else
        R.addPermissionGrant g).run w m = (.ok (), m₁) ∧ m₁.draws = m.draws ∧ V.Grows m m₁ ∧
          ready (n + 1) m₁ ∧ ∃ g' ∈ V.grants m₁.store, Grants role scope permission g' ∧
            ReadsDuring w first m.ticks g'.isActive := by
      cases hmatch : hasMatchingGrant active g with
      | true =>
        obtain ⟨g', hg', hsame⟩ := List.any_eq_true.mp hmatch
        simp only [Bool.and_eq_true, decide_eq_true_eq] at hsame
        obtain ⟨⟨⟨hrole, hparticipant⟩, hpermission⟩, hscope⟩ := hsame
        obtain ⟨hmem, hreads⟩ := hactive g' hg'
        exact ⟨m, rfl, rfl, .refl m, h.later hready rfl (Nat.le_succ n) (by omega), g', hmem,
          ⟨hrole, hparticipant, hpermission, hscope⟩, hreads⟩
      | false =>
        obtain ⟨a, ha, hrole⟩ := hassigned
        obtain ⟨m₁, hrun, hdraws, hgrows, hready₁, hmem⟩ := h.grant (g := g) hready (by omega) rfl rfl
          ⟨a, ha, congrArg some hrole.symm⟩ hgranter
        exact ⟨m₁, hrun, hdraws, hgrows, hready₁, g, hmem, ⟨rfl, rfl, rfl, rfl⟩, first,
          Nat.le_refl _, hfirst, rfl⟩
    obtain ⟨m₁, hrun, hdraws, hgrows, hready₁, g', hg', hgrants, hreads⟩ := hone
    obtain ⟨a, ha, hrole⟩ := hassigned
    obtain ⟨m', hrun', hdraws', hgrows', hready', hall⟩ := ih hready₁ (by omega)
      (Nat.lt_of_lt_of_le hfirst hgrows.ticks) ⟨a, hgrows.assignments a ha, hrole⟩
      fun g hg => ⟨hgrows.grants g (hactive g hg).1,
        (hactive g hg).2.widen (Nat.le_refl _) hgrows.ticks⟩
    refine ⟨m', (Exec.run_bind_ok hrun).trans hrun', hdraws'.trans hdraws, hgrows.trans hgrows',
      hready', ?_⟩
    intro q hq
    rcases List.mem_cons.mp hq with rfl | hq
    · exact ⟨g', hgrows'.grants g' hg', hgrants,
        hreads.widen (Nat.le_refl _) (hgrows.trans hgrows').ticks⟩
    · exact hall q hq

/-- The assignment of a role: one that is held, or a new one. -/
theorem existing (h : Serves w R V ready known) (role : RoleName) (scope : Scope) {first : Nat}
    {held : List RoleAssignment} (hready : ready m.draws m) (hfirst : first < m.ticks)
    (hparticipant : known participantId)
    (hassigner : ∀ x, assignedBy = some x → known x)
    (hheld : ∀ a ∈ held, a ∈ V.assignments m.store ∧ a.participantId = participantId ∧
      ReadsDuring w first m.ticks a.isActive) :
    ∃ a m', (existingAssignment R held participantId role scope assignedBy).run w m = (.ok a, m') ∧
      V.Grows m m' ∧ ready m'.draws m' ∧ a ∈ V.assignments m'.store ∧
      a.participantId = participantId ∧ a.roleId = (getRoleTemplate role).id ∧ a.scope = scope ∧
      ReadsDuring w first m'.ticks a.isActive := by
  unfold existingAssignment
  cases hfind : held.find? (fun a => a.roleId = (getRoleTemplate role).id && a.scope = scope) with
  | some a =>
    have hmatch := List.find?_some hfind
    simp only [Bool.and_eq_true, decide_eq_true_eq] at hmatch
    obtain ⟨hmem, hid, hreads⟩ := hheld a (List.mem_of_find?_eq_some hfind)
    exact ⟨a, m, rfl, .refl m, hready, hmem, hid, hmatch.1, hmatch.2, hreads⟩
  | none =>
    let a : RoleAssignment := ⟨w.uuid4 m.draws, participantId, (getRoleTemplate role).id, scope,
      assignedBy, none, w.clock m.ticks, none, [("builtin_role", .str role.value)]⟩
    let m₁ : Machine σ := ⟨m.store, m.ticks + 1, m.draws + 1⟩
    have hnew : (newRoleAssignment participantId role scope assignedBy).run w m = (.ok a, m₁) := rfl
    have hready₁ : ready m.draws m₁ := h.later hready rfl (Nat.le_refl _) (Nat.le_succ _)
    obtain ⟨m', hrun, hdraws, hgrows, hready', hmem⟩ := h.assign (a := a) hready₁
      (Nat.lt_succ_self _) rfl rfl hparticipant hassigner
    have hdrawn : V.Grows m m₁ := .of_store rfl (Nat.le_succ _) (Nat.le_succ _)
    have hgrown : V.Grows m m' := hdrawn.trans hgrows
    refine ⟨a, m', (Exec.run_bind_ok hnew).trans (Exec.run_bind_ok hrun), hgrown, ?_, hmem, rfl, rfl,
      rfl, first, Nat.le_refl _, Nat.lt_of_lt_of_le hfirst hgrown.ticks, rfl⟩
    rw [hdraws]
    exact hready'

/-- A role that is asked for is provided. -/
theorem ensureBuiltinRole (h : Serves w R V ready known) (role : RoleName) (scope : Scope)
    (hready : ready m.draws m) (hparticipant : known participantId)
    (hassigner : ∀ x, assignedBy = some x → known x) :
    ∃ a m', (ensureBuiltinRoleAssignment R participantId role scope assignedBy).run w m =
        (.ok a, m') ∧ V.Grows m m' ∧ ready m'.draws m' ∧
      V.Holds w m.ticks m'.ticks m'.store participantId role scope := by
  obtain ⟨held, hlist, hheld⟩ := h.held participantId m
  have hlisted : V.Grows m { m with ticks := m.ticks + 1 } :=
    .of_store rfl (Nat.le_succ _) (Nat.le_refl _)
  obtain ⟨a, m₁, hexisting, hgrows₁, hready₁, ha, hid, hrole, hscope, hreads⟩ :=
    h.existing (m := { m with ticks := m.ticks + 1 }) role scope
      (h.later hready rfl (Nat.le_refl _) (Nat.le_refl _)) (Nat.lt_succ_self m.ticks) hparticipant
      hassigner fun a ha => ⟨(hheld a ha).1, (hheld a ha).2.1, m.ticks, Nat.le_refl _,
        Nat.lt_succ_self _, (hheld a ha).2.2⟩
  obtain ⟨active, hreach, hactive⟩ := h.reaching participantId m₁
  let m₂ : Machine σ :=
    ⟨m₁.store, m₁.ticks + 2, m₁.draws + (getRoleTemplate role).permissions.length⟩
  have hdrawn : ((getRoleTemplate role).permissionGrants scope assignedBy).run w
      { m₁ with ticks := m₁.ticks + 1 } = (.ok ((getRoleTemplate role).grantsFrom w.uuid4 scope
        assignedBy (w.clock (m₁.ticks + 1)) m₁.draws (getRoleTemplate role).permissions), m₂) :=
    (Exec.run_bind_ok (Op.run_now _ _)).trans (run_grantEach _ _ _ _ _ _ _)
  have hgrows₂ : V.Grows m₁ m₂ := .of_store rfl (Nat.le_add_right _ 2) (Nat.le_add_right _ _)
  have hfirst : m.ticks < m₁.ticks := Nat.lt_of_lt_of_le (Nat.lt_succ_self m.ticks) hgrows₁.ticks
  obtain ⟨m', hgrants, hdraws, hgrows₃, hready₃, hall⟩ := h.grantEach (m := m₂) role scope
    (w.clock (m₁.ticks + 1)) (n := m₁.draws) (getRoleTemplate role).permissions
    (h.later hready₁ rfl (Nat.le_refl _) (Nat.le_add_right _ _)) (Nat.le_refl _)
    (Nat.lt_of_lt_of_le hfirst hgrows₂.ticks) ⟨a, ha, hrole⟩ hassigner
    fun g hg => ⟨(hactive g hg).1, m₁.ticks, Nat.le_of_lt hfirst,
      Nat.lt_add_of_pos_right Nat.two_pos, (hactive g hg).2⟩
  have hgrown : V.Grows m₁ m' := hgrows₂.trans hgrows₃
  refine ⟨a, m', ?_, (hlisted.trans hgrows₁).trans hgrown, ?_, ⟨a, hgrown.assignments a ha, hid,
    hrole, hscope, hreads.widen (Nat.le_refl _) hgrown.ticks⟩, hall⟩
  · unfold ensureBuiltinRoleAssignment
    rw [Exec.run_bind_ok hlist, Exec.run_bind_ok hexisting, Exec.run_bind_ok hreach,
      Exec.run_bind_ok hdrawn, Exec.run_bind_ok hgrants]
    rfl
  · rw [hdraws]
    exact hready₃

/-- So are all roles of an onboarding, by induction: what one has been given is kept by the
next. -/
theorem ensureBuiltinRoles (h : Serves w R V ready known) (participantId : String)
    (as : List OnboardingRoleAssignmentPayload) (hready : ready m.draws m)
    (hparticipant : known participantId)
    (hassigners : ∀ a ∈ as, ∀ x, a.assignedBy = some x → known x) :
    ∃ m', (Exec.forEach (fun (a : OnboardingRoleAssignmentPayload) => do
        let _ ← ensureBuiltinRoleAssignment R participantId a.roleName a.scope a.assignedBy
        return ()) as).run w m = (.ok (), m') ∧ V.Grows m m' ∧
      ∀ a ∈ as, V.Holds w m.ticks m'.ticks m'.store participantId a.roleName a.scope := by
  induction as generalizing m with
  | nil => exact ⟨m, rfl, .refl m, by simp⟩
  | cons a as ih =>
    obtain ⟨hfirst, hrest⟩ := List.forall_mem_cons.mp hassigners
    obtain ⟨x, m₁, hrun, hgrows, hready₁, hholds⟩ :=
      h.ensureBuiltinRole a.roleName a.scope hready hparticipant hfirst
    obtain ⟨m', hrun', hgrows', hall⟩ := ih hready₁ hrest
    refine ⟨m', ?_, hgrows.trans hgrows', List.forall_mem_cons.mpr ⟨?_, fun b hb => ?_⟩⟩
    · exact (Exec.run_bind_ok (Exec.run_bind_ok hrun)).trans hrun'
    · exact hholds.grows hgrows' (Nat.le_refl _) hgrows'.ticks
    · exact (hall b hb).grows (.refl m') hgrows.ticks (Nat.le_refl _)

end Rules

/-! ## The two repositories -/

def memoryView : AuthorityView InMemoryAuthorizationRepository :=
  ⟨(·.participants), (·.roleAssignments), (·.permissionGrants)⟩

def tablesView : AuthorityView AuthorityTables :=
  ⟨(·.participants), (·.participantRoles.values), (·.permissionGrants.values)⟩

/-- In memory every row is taken. -/
theorem memory (w : World) : Serves w InMemoryAuthorizationRepository.repository memoryView
    (fun _ _ => True) fun _ => True where
  later _ _ _ _ := trivial
  held id m := by
    refine ⟨_, rfl, fun a ha => ?_⟩
    obtain ⟨hmem, hheld⟩ := List.mem_filter.mp ha
    simp only [Bool.and_eq_true, decide_eq_true_eq] at hheld
    exact ⟨hmem, hheld⟩
  reaching id m := by
    refine ⟨_, rfl, fun g hg => ?_⟩
    obtain ⟨hmem, hreaches⟩ := List.mem_filter.mp hg
    rw [Bool.and_eq_true] at hreaches
    exact ⟨hmem, hreaches.1⟩
  assign _ _ _ _ _ _ :=
    ⟨_, rfl, rfl, ⟨rfl, fun _ ha => List.mem_append_left _ ha, fun _ hg => hg, Nat.le_refl _,
      Nat.le_refl _⟩, trivial, List.mem_append_right _ List.mem_cons_self⟩
  grant _ _ _ _ _ _ :=
    ⟨_, rfl, rfl, ⟨rfl, fun _ ha => ha, fun _ hg => List.mem_append_left _ hg, Nat.le_refl _,
      Nat.le_refl _⟩, trivial, List.mem_append_right _ List.mem_cons_self⟩

/-- The tables hold the same records as some repository in memory, which knows these
participants. -/
def TablesReady (w : World) (known : String → Prop) (n : Nat) (p : Machine AuthorityTables) : Prop :=
  ∃ m, SameAuthority w n m p ∧ ∀ x, known x → m.store.participants.contains x = true

/-- The identifiers from the `n`-th on are in no table, and roles are built-in ones and have
the rows that assignments refer to. -/
structure TablesSound (w : World) (n : Nat) (d : AuthorityTables) : Prop where
  assignments : ∀ i, n ≤ i → d.participantRoles.get? (w.uuid4 i) = none
  grants : ∀ i, n ≤ i → d.permissionGrants.get? (w.uuid4 i) = none
  events : ∀ i, n ≤ i → d.authorizationAuditEvents.get? (w.uuid4 i) = none
  builtin : BuiltinRoles d.roles
  roles : ∀ a ∈ d.participantRoles.values, d.roles.contains a.roleId = true

theorem TablesSound.ready {w : World} {known : String → Prop} {p : Machine AuthorityTables}
    (h : TablesSound w p.draws p.store) (hknown : ∀ x, known x → p.store.participants.contains x = true) :
    TablesReady w known p.draws p :=
  ⟨⟨⟨p.store.participants, p.store.participantRoles.values, p.store.permissionGrants.values, []⟩,
    p.ticks, p.draws⟩, ⟨rfl, Nat.le_refl _, rfl, rfl, rfl, h.assignments, h.grants, h.events,
      h.builtin, h.roles⟩, hknown⟩

/-- The tables take the rows that refer to participants with rows. -/
theorem tables (engine : AuthorityEngine) (w : World) (known : String → Prop) :
    Serves w (PostgresAuthorizationRepository.repository engine) tablesView (TablesReady w known)
      known where
  later := by
    rintro n n' p p' ⟨m, hsame, hknown⟩ hstore hn hdrawn
    have hmoved : SameAuthority w n { m with draws := p'.draws } p' :=
      hsame.later rfl hstore rfl (hn.trans hdrawn)
    exact ⟨{ m with draws := p'.draws }, hmoved.skip hn hdrawn, hknown⟩
  held id p := by
    refine ⟨_, rfl, fun a ha => ?_⟩
    obtain ⟨hrow, hunexpired⟩ := List.mem_filter.mp ha
    rw [AuthorityEngine.mem_rows, List.mem_filter] at hrow
    obtain ⟨hmem, hrow⟩ := hrow
    simp only [Bool.and_eq_true, decide_eq_true_eq] at hrow
    refine ⟨hmem, hrow.1, ?_⟩
    unfold RoleAssignment.isActive activeAt
    rw [hrow.2]
    exact hunexpired
  reaching id p := by
    refine ⟨_, rfl, fun g hg => ?_⟩
    obtain ⟨hrow, hreaches⟩ := List.mem_filter.mp hg
    rw [AuthorityEngine.mem_rows, List.mem_filter] at hrow
    rw [Bool.and_eq_true] at hreaches
    exact ⟨hrow.1, hreaches.1⟩
  assign := by
    rintro a role n p ⟨m, hsame, hknown⟩ hn hid hrole hparticipant hassigner
    obtain ⟨p', hrun, hdraws, hsame'⟩ := hsame.assign engine hid hn role hrole
      (hknown _ hparticipant) (fun x hx => hknown x (hassigner x hx)) w
    have hrows : p'.store.participantRoles.values = p.store.participantRoles.values ++ [a] := by
      rw [hsame'.assignments, hsame.assignments]
    refine ⟨p', hrun, hdraws, ⟨?_, ?_, ?_, ?_, hdraws.ge⟩, ⟨_, hsame', hknown⟩, ?_⟩
    · exact hsame'.participants.trans hsame.participants.symm
    · intro b hb
      change b ∈ p'.store.participantRoles.values
      rw [hrows]
      exact List.mem_append_left _ hb
    · intro g hg
      change g ∈ p'.store.permissionGrants.values
      rw [hsame'.grants, ← hsame.grants]
      exact hg
    · rw [← congrArg (fun r => r.2.ticks) hrun]
      exact (Op.committed_later _ w p).1
    · change a ∈ p'.store.participantRoles.values
      rw [hrows]
      exact List.mem_append_right _ List.mem_cons_self
  grant := by
    rintro g n p ⟨m, hsame, hknown⟩ hn hid hparticipant ⟨a, ha, hrole⟩ hgranter
    have hhas : p.store.hasRole g.roleId = true := by
      rw [hrole]
      exact hsame.roles a (hsame.assignments ▸ ha)
    have hnobody : ∀ x, g.participantId = some x → m.store.participants.contains x = true := by
      intro x hx
      rw [hparticipant] at hx
      cases hx
    obtain ⟨hrun, hsame'⟩ := hsame.grant engine hid hn hnobody hhas
      (fun x hx => hknown x (hgranter x hx)) w
    have hrows : (AuthorityWrite.apply p.store (.permissionGrant g)).permissionGrants.values =
        p.store.permissionGrants.values ++ [g] := by
      rw [hsame'.grants, hsame.grants]
    refine ⟨_, hrun, rfl, ⟨rfl, fun _ hb => hb, fun b hb => ?_, Nat.le_refl _, Nat.le_refl _⟩,
      ⟨_, hsame', hknown⟩, ?_⟩
    · change b ∈ (AuthorityWrite.apply p.store (.permissionGrant g)).permissionGrants.values
      rw [hrows]
      exact List.mem_append_left _ hb
    · change g ∈ (AuthorityWrite.apply p.store (.permissionGrant g)).permissionGrants.values
      rw [hrows]
      exact List.mem_append_right _ List.mem_cons_self

/-- A component serves the store that contains it. -/
theorem on {σ τ : Type} {w : World} {R : AuthorizationRepository σ} {V : AuthorityView σ}
    {ready : Nat → Machine σ → Prop} {known : String → Prop} (h : Serves w R V ready known)
    (c : Component τ σ) : Serves w (R.on c) (V.on c)
      (fun n a => ready n ⟨c.get a.store, a.ticks, a.draws⟩) known where
  later := by
    intro n n' a a' hready hstore hn hn'
    exact h.later hready (congrArg c.get hstore) hn hn'
  held id a := by
    obtain ⟨held, hrun, hheld⟩ := h.held id ⟨c.get a.store, a.ticks, a.draws⟩
    exact ⟨held, (Op.on_run (c := c) hrun).trans (by rw [c.put_get]), hheld⟩
  reaching id a := by
    obtain ⟨grants, hrun, hreaching⟩ := h.reaching id ⟨c.get a.store, a.ticks, a.draws⟩
    exact ⟨grants, (Op.on_run (c := c) hrun).trans (by rw [c.put_get]), hreaching⟩
  assign := by
    intro x role n a hready hn hid hrole hparticipant hassigner
    obtain ⟨m', hrun, hdraws, hgrows, hready', hmem⟩ :=
      h.assign hready hn hid hrole hparticipant hassigner
    refine ⟨_, Op.on_run (c := c) hrun, hdraws, ?_, ?_, ?_⟩
    · exact hgrows.on c
    · simp only [c.get_put]
      exact hready'
    · simp only [AuthorityView.on, c.get_put]
      exact hmem
  grant := by
    intro g n a hready hn hid hparticipant hrole hgranter
    obtain ⟨m', hrun, hdraws, hgrows, hready', hmem⟩ :=
      h.grant hready hn hid hparticipant hrole hgranter
    refine ⟨_, Op.on_run (c := c) hrun, hdraws, ?_, ?_, ?_⟩
    · exact hgrows.on c
    · simp only [c.get_put]
      exact hready'
    · simp only [AuthorityView.on, c.get_put]
      exact hmem

end Serves

end GhostMesh
