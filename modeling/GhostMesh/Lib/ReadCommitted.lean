import GhostMesh.Lib.Run
import Mathlib.Order.Monotone.Basic

/-!
# Transactions under READ COMMITTED

A transaction is a program whose steps are client-side readings, statements that see
the rows committed before them, row locks, and writes that become visible to others
at the commit. `UPDATE`, `INSERT` and `SELECT ... FOR UPDATE` are derived: they find
their rows in a snapshot, wait for each row, and check it again in its newest version
before they go on. A system runs any number of transactions one step at a time, in any
order.
-/

set_option autoImplicit false

namespace ReadCommitted

/-- What a database and its clients are made of. -/
structure Signature where
  Data : Type
  Write : Type
  Lock : Type
  /-- The texts of the statements that read. -/
  Query : Type
  Time : Type
  Ident : Type
  Err : Type
  apply : Write → Data → Data
  decidableLock : DecidableEq Lock

instance (S : Signature) : DecidableEq S.Lock := S.decidableLock

inductive Txn (S : Signature) (α : Type) : Type where
  | ret (a : α)
  | raise (e : S.Err)
  | clock (k : S.Time → Txn S α)
  | ident (k : S.Ident → Txn S α)
  | select (q : S.Query) (k : S.Data → Txn S α)
  | acquire (l : S.Lock) (k : S.Data → Txn S α)
  | write (x : S.Write) (k : Txn S α)

namespace Txn

variable {S : Signature} {α β : Type}

def bind : Txn S α → (α → Txn S β) → Txn S β
  | ret a, f => f a
  | raise e, _ => raise e
  | clock k, f => clock fun t => (k t).bind f
  | ident k, f => ident fun u => (k u).bind f
  | select q k, f => select q fun d => (k d).bind f
  | acquire l k, f => acquire l fun d => (k d).bind f
  | write x k, f => write x (k.bind f)

instance : Monad (Txn S) where
  pure := ret
  bind := bind

def now : Txn S S.Time := clock ret

def fresh : Txn S S.Ident := ident ret

/-- A statement that only reads. -/
def query (q : S.Query) : Txn S S.Data := select q ret

/-- Wait for the row, then go on with its newest version in sight. -/
def lockRow (l : S.Lock) : Txn S S.Data := acquire l ret

def put (x : S.Write) : Txn S Unit := write x (ret ())

def ofExcept : Except S.Err α → Txn S α
  | .ok a => ret a
  | .error e => raise e

def ensure (c : Bool) (e : S.Err) : Txn S Unit := if c then ret () else raise e

def forEach (f : β → Txn S Unit) : List β → Txn S Unit
  | [] => ret ()
  | b :: bs => do f b; forEach f bs

/-- One row of an `UPDATE`: it is written if its newest version still passes the
`WHERE` clause. -/
def updateRow (lock : β → S.Lock) (holds : S.Data → β → Bool) (set : β → S.Write) (b : β) :
    Txn S Unit := do
  let latest ← lockRow (lock b)
  if holds latest b then put (set b) else ret ()

/-- `UPDATE ... WHERE`. A row that did not change since the snapshot passes the second
check as it passed the first. -/
def update (q : S.Query) (lock : β → S.Lock) (rows : S.Data → List β)
    (holds : S.Data → β → Bool) (set : β → S.Write) : Txn S Unit := do
  let snapshot ← query q
  forEach (updateRow lock holds set) (rows snapshot)

def updateRows (lock : β → S.Lock) (holds : S.Data → β → Bool) (set : β → S.Write) :
    List β → Txn S Nat
  | [] => ret 0
  | b :: bs => do
    let latest ← lockRow (lock b)
    if holds latest b then do
      put (set b)
      let n ← updateRows lock holds set bs
      ret (n + 1)
    else updateRows lock holds set bs

/-- `UPDATE ... WHERE` with the number of rows that it wrote. -/
def updateCount (q : S.Query) (lock : β → S.Lock) (rows : S.Data → List β)
    (holds : S.Data → β → Bool) (set : β → S.Write) : Txn S Nat := do
  let snapshot ← query q
  updateRows lock holds set (rows snapshot)

def firstLocked (lock : β → S.Lock) (row : S.Data → β → Option α) : List β → Txn S (Option α)
  | [] => ret none
  | b :: bs => do
    let latest ← lockRow (lock b)
    match row latest b with
    | some a => ret (some a)
    | none => firstLocked lock row bs

/-- `SELECT ... LIMIT 1 FOR UPDATE`. `row` checks the newest version of the row, with
the other tables as the snapshot has them. -/
def lockFirst (q : S.Query) (lock : β → S.Lock) (rows : S.Data → List β)
    (row : S.Data → S.Data → β → Option α) : Txn S (Option α) := do
  let snapshot ← query q
  firstLocked lock (row snapshot) (rows snapshot)

/-- `INSERT` under a primary key: it waits for an open transaction that has inserted
the same key, and fails if the key is taken. -/
def insert (l : S.Lock) (taken : S.Data → Bool) (x : S.Write) (e : S.Err) : Txn S Unit := do
  let latest ← lockRow l
  if taken latest then raise e else put x

end Txn

/-- The transaction is at its commit. -/
def Txn.returns {S : Signature} {α : Type} : Txn S α → Bool
  | .ret _ => true
  | _ => false

/-! ## One transaction at a time -/

/-- The readings that the clients make. -/
structure Supply (S : Signature) where
  clock : Nat → S.Time
  ident : Nat → S.Ident

section Alone
variable {S : Signature} {α β : Type} (env : Supply S)

/-- A run without other transactions, on the rows as this one sees them. -/
def Txn.aloneOn : Txn S α → S.Data → Nat → Nat → Except S.Err α × S.Data × Nat × Nat
  | .ret a, d, n, m => (.ok a, d, n, m)
  | .raise e, d, n, m => (.error e, d, n, m)
  | .clock k, d, n, m => aloneOn (k (env.clock n)) d (n + 1) m
  | .ident k, d, n, m => aloneOn (k (env.ident m)) d n (m + 1)
  | .select _ k, d, n, m => aloneOn (k d) d n m
  | .acquire _ k, d, n, m => aloneOn (k d) d n m
  | .write x k, d, n, m => aloneOn k (S.apply x d) n m

theorem Txn.aloneOn_bind (x : Txn S α) (f : α → Txn S β) (d : S.Data) (n m : Nat) :
    (x.bind f).aloneOn env d n m = match x.aloneOn env d n m with
      | (.ok a, d', n', m') => (f a).aloneOn env d' n' m'
      | (.error e, d', n', m') => (.error e, d', n', m') := by
  induction x generalizing d n m with
  | ret a => rfl
  | raise e => rfl
  | clock k ih => exact ih _ d (n + 1) m
  | ident k ih => exact ih _ d n (m + 1)
  | select q k ih => exact ih d d n m
  | acquire l k ih => exact ih d d n m
  | write x k ih => exact ih (S.apply x d) n m

/-- The clock and the identifiers only move on. -/
theorem Txn.aloneOn_later (x : Txn S α) (d : S.Data) (n m : Nat) :
    n ≤ (x.aloneOn env d n m).2.2.1 ∧ m ≤ (x.aloneOn env d n m).2.2.2 := by
  induction x generalizing d n m with
  | ret a => exact ⟨Nat.le_refl _, Nat.le_refl _⟩
  | raise e => exact ⟨Nat.le_refl _, Nat.le_refl _⟩
  | clock k ih =>
    obtain ⟨hticks, hdraws⟩ := ih (env.clock n) d (n + 1) m
    exact ⟨Nat.le_of_succ_le hticks, hdraws⟩
  | ident k ih =>
    obtain ⟨hticks, hdraws⟩ := ih (env.ident m) d n (m + 1)
    exact ⟨hticks, Nat.le_of_succ_le hdraws⟩
  | select q k ih => exact ih d d n m
  | acquire l k ih => exact ih d d n m
  | write x k ih => exact ih (S.apply x d) n m

/-- Alone, an insertion fails only on a row that is there. -/
theorem Txn.aloneOn_insert (l : S.Lock) (taken : S.Data → Bool) (x : S.Write) (e : S.Err)
    (d : S.Data) (n m : Nat) : (Txn.insert l taken x e).aloneOn env d n m =
      if taken d then (.error e, d, n, m) else (.ok (), S.apply x d, n, m) := by
  change (if taken d then Txn.raise e else Txn.put x).aloneOn env d n m = _
  cases taken d <;> rfl

theorem Txn.aloneOn_ensure (c : Bool) (e : S.Err) (d : S.Data) (n m : Nat) :
    (Txn.ensure c e).aloneOn env d n m = (if c then .ok () else .error e, d, n, m) := by
  cases c <;> rfl

/-- Alone, an update of one row writes it if it still passes the check. -/
theorem Txn.aloneOn_update_one (q : S.Query) (lock : β → S.Lock) {rows : S.Data → List β}
    (holds : S.Data → β → Bool) (set : β → S.Write) {d : S.Data} {b : β} (hrows : rows d = [b])
    (n m : Nat) : (Txn.update q lock rows holds set).aloneOn env d n m =
      (.ok (), if holds d b then S.apply (set b) d else d, n, m) := by
  change (Txn.forEach (updateRow lock holds set) (rows d)).aloneOn env d n m = _
  rw [hrows]
  change ((if holds d b then Txn.put (set b) else Txn.ret ()).bind _).aloneOn env d n m = _
  cases holds d b <;> rfl

/-- The whole transaction: an exception rolls it back. -/
def Txn.alone (x : Txn S α) (d : S.Data) (n m : Nat) : Except S.Err α × S.Data × Nat × Nat :=
  match x.aloneOn env d n m with
  | (.ok a, d', n', m') => (.ok a, d', n', m')
  | (.error e, _, n', m') => (.error e, d, n', m')

end Alone

/-! ## What a transaction has done -/

inductive Obs (S : Signature) : Type where
  | clock (t : S.Time)
  | ident (u : S.Ident)
  | saw (q : S.Query) (d : S.Data)
  | locked (l : S.Lock) (d : S.Data)
  | wrote (x : S.Write)

/-- The newest observation comes first. -/
abbrev Log (S : Signature) := List (Obs S)

namespace Log

variable {S : Signature}

/-- The rows with the writes of the log. -/
def view : Log S → S.Data → S.Data
  | [], d => d
  | .wrote x :: log, d => S.apply x (view log d)
  | _ :: log, d => view log d

def times : Log S → List S.Time
  | [] => []
  | .clock t :: log => t :: times log
  | _ :: log => times log

def locks : Log S → List S.Lock
  | [] => []
  | .locked l _ :: log => l :: locks log
  | _ :: log => locks log

def writes : Log S → List S.Write
  | [] => []
  | .wrote x :: log => x :: writes log
  | _ :: log => writes log

/-- The writes of one kind, the newest first. -/
def writesOn (p : S.Write → Bool) (log : Log S) : List S.Write := log.writes.filter p

/-- At some point of the log something bad was observed. -/
def met (bad : Log S → Obs S → Bool) : Log S → Bool
  | [] => false
  | o :: log => bad log o || met bad log

theorem mem_times_cons {o : Obs S} {log : Log S} {t : S.Time} (h : t ∈ times (o :: log)) :
    o = .clock t ∨ t ∈ log.times := by
  cases o with
  | clock t' =>
    rcases List.mem_cons.mp h with rfl | h
    · exact .inl rfl
    · exact .inr h
  | ident u => exact .inr h
  | saw q d => exact .inr h
  | locked l d => exact .inr h
  | wrote x => exact .inr h

theorem mem_locks_cons {o : Obs S} {log : Log S} {l : S.Lock} (h : l ∈ locks (o :: log)) :
    (∃ d, o = .locked l d) ∨ l ∈ log.locks := by
  cases o with
  | locked l' d =>
    rcases List.mem_cons.mp h with rfl | h
    · exact .inl ⟨d, rfl⟩
    · exact .inr h
  | clock t => exact .inr h
  | ident u => exact .inr h
  | saw q d => exact .inr h
  | wrote x => exact .inr h

theorem mem_locks_iff {log : Log S} {l : S.Lock} : l ∈ log.locks ↔ ∃ d, .locked l d ∈ log := by
  induction log with
  | nil => simp [locks]
  | cons o log ih => cases o <;> simp [locks, ih, exists_or]

/-- Only its writes show in the view of a log. -/
theorem view_writes (log : Log S) (d : S.Data) : log.view d = log.writes.foldr S.apply d := by
  induction log with
  | nil => rfl
  | cons o log ih =>
    cases o with
    | wrote x => exact congrArg (S.apply x) ih
    | _ => exact ih

theorem mem_writes_iff {log : Log S} {x : S.Write} : x ∈ log.writes ↔ .wrote x ∈ log := by
  induction log with
  | nil => simp [writes]
  | cons o log ih => cases o <;> simp [writes, ih]

end Log

/-! ## The system -/

inductive Status where
  | opened | committed | aborted
deriving DecidableEq

section System
variable (S : Signature) (C α : Type)

structure Session where
  call : C
  log : Log S
  rest : Txn S α
  status : Status

/-- The session has committed a write. -/
def Session.TookEffect {S : Signature} {C α : Type} (s : Session S C α) : Prop :=
  s.status = .committed ∧ ∃ x, .wrote x ∈ s.log

structure System where
  data : S.Data
  ticks : Nat
  idents : Nat
  sessions : List (Session S C α)

end System

inductive Action (C : Type) where
  | begin (call : C)
  | advance (i : Nat)
  | abort (i : Nat)

/-- A test of the call that the action begins, if it begins one. -/
def Action.begins {C : Type} (p : C → Bool) : Action C → Bool
  | begin call => p call
  | advance _ => true
  | abort _ => true

theorem Action.forall_begin {C : Type} {p : C → Prop} [DecidablePred p]
    {actions : List (Action C)}
    (h : actions.all (Action.begins fun call => decide (p call)) = true) :
    ∀ call, .begin call ∈ actions → p call := by
  intro call hcall
  have htest : decide (p call) = true := List.all_eq_true.mp h (.begin call) hcall
  exact of_decide_eq_true htest

section Step
variable {S : Signature} {C α : Type} (env : Supply S) (program : C → Txn S α)

namespace System

variable (σ : System S C α)

/-- Another open transaction has locked the row. -/
def held (i : Nat) (l : S.Lock) : Bool :=
  σ.sessions.zipIdx.any fun (s, j) =>
    j ≠ i && s.status = .opened && decide (l ∈ s.log.locks)

/-- The session made an observation and goes on with `rest`. -/
def observe (i : Nat) (s : Session S C α) (o : Obs S) (rest : Txn S α) : System S C α :=
  { σ with sessions := σ.sessions.set i { s with log := o :: s.log, rest } }

/-- The next step of an open session; one that waits for a row does not move. -/
def advance (i : Nat) (s : Session S C α) : System S C α :=
  match s.rest with
  | .ret _ => { σ with data := s.log.view σ.data
                       sessions := σ.sessions.set i { s with status := .committed } }
  | .raise _ => { σ with sessions := σ.sessions.set i { s with status := .aborted } }
  | .clock k =>
    { σ.observe i s (.clock (env.clock σ.ticks)) (k (env.clock σ.ticks)) with
      ticks := σ.ticks + 1 }
  | .ident k =>
    { σ.observe i s (.ident (env.ident σ.idents)) (k (env.ident σ.idents)) with
      idents := σ.idents + 1 }
  | .select q k => σ.observe i s (.saw q (s.log.view σ.data)) (k (s.log.view σ.data))
  | .acquire l k =>
    if σ.held i l then σ
    else σ.observe i s (.locked l (s.log.view σ.data)) (k (s.log.view σ.data))
  | .write x k => σ.observe i s (.wrote x) k

def step : Action C → System S C α
  | .begin call =>
    { σ with sessions := σ.sessions ++ [⟨call, [], program call, .opened⟩] }
  | .advance i => match σ.sessions[i]? with
    | some s => if s.status = .opened then σ.advance env i s else σ
    | none => σ
  | .abort i => match σ.sessions[i]? with
    | some s =>
      if s.status = .opened then
        { σ with sessions := σ.sessions.set i { s with status := .aborted } }
      else σ
    | none => σ

end System

/-- What an open session can observe next, and how it goes on. -/
inductive Observes (σ : System S C α) (i : Nat) (s : Session S C α) :
    Obs S → Txn S α → Nat → Prop where
  | clock {k : S.Time → Txn S α} : s.rest = .clock k →
      Observes σ i s (.clock (env.clock σ.ticks)) (k (env.clock σ.ticks)) (σ.ticks + 1)
  | ident {k : S.Ident → Txn S α} (u : S.Ident) : s.rest = .ident k →
      Observes σ i s (.ident u) (k u) σ.ticks
  | saw {q : S.Query} {k : S.Data → Txn S α} : s.rest = .select q k →
      Observes σ i s (.saw q (s.log.view σ.data)) (k (s.log.view σ.data)) σ.ticks
  | locked {l : S.Lock} {k : S.Data → Txn S α} : s.rest = .acquire l k → σ.held i l = false →
      Observes σ i s (.locked l (s.log.view σ.data)) (k (s.log.view σ.data)) σ.ticks
  | wrote {x : S.Write} {k : Txn S α} : s.rest = .write x k →
      Observes σ i s (.wrote x) k σ.ticks

/-- Everything that a step can do to the rows, the clock and the sessions. -/
inductive Move (σ σ' : System S C α) : Prop where
  | same (h : σ' = σ)
  | begins (call : C) (hdata : σ'.data = σ.data) (hticks : σ'.ticks = σ.ticks)
      (h : σ'.sessions = σ.sessions ++ [⟨call, [], program call, .opened⟩])
  | observes {i : Nat} {s : Session S C α} {o : Obs S} {rest : Txn S α}
      (hs : σ.sessions[i]? = some s) (hopen : s.status = .opened)
      (ho : Observes env σ i s o rest σ'.ticks) (hdata : σ'.data = σ.data)
      (h : σ'.sessions = σ.sessions.set i { s with log := o :: s.log, rest })
  | commits {i : Nat} {s : Session S C α} {a : α} (hs : σ.sessions[i]? = some s)
      (hopen : s.status = .opened) (hrest : s.rest = .ret a)
      (hdata : σ'.data = s.log.view σ.data) (hticks : σ'.ticks = σ.ticks)
      (h : σ'.sessions = σ.sessions.set i { s with status := .committed })
  | aborts {i : Nat} {s : Session S C α} (hs : σ.sessions[i]? = some s)
      (hopen : s.status = .opened) (hdata : σ'.data = σ.data) (hticks : σ'.ticks = σ.ticks)
      (h : σ'.sessions = σ.sessions.set i { s with status := .aborted })

theorem System.advance_move {σ : System S C α} {i : Nat} {s : Session S C α}
    (hs : σ.sessions[i]? = some s) (hopen : s.status = .opened) :
    Move env program σ (σ.advance env i s) := by
  unfold advance
  split
  · rename_i a hrest
    exact .commits hs hopen hrest rfl rfl rfl
  · exact .aborts hs hopen rfl rfl rfl
  · rename_i k hrest
    exact .observes hs hopen (.clock hrest) rfl rfl
  · rename_i k hrest
    exact .observes hs hopen (.ident _ hrest) rfl rfl
  · rename_i q k hrest
    exact .observes hs hopen (.saw hrest) rfl rfl
  · rename_i l k hrest
    split
    · exact .same rfl
    · rename_i hfree
      exact .observes hs hopen (.locked hrest (by simpa using hfree)) rfl rfl
  · rename_i x k hrest
    exact .observes hs hopen (.wrote hrest) rfl rfl

theorem System.step_move (σ : System S C α) (a : Action C) :
    Move env program σ (σ.step env program a) := by
  cases a with
  | begin call => exact .begins call rfl rfl rfl
  | advance i =>
    simp only [step]
    split
    · rename_i s hs
      split
      · exact System.advance_move env program hs ‹_›
      · exact .same rfl
    · exact .same rfl
  | abort i =>
    simp only [step]
    split
    · rename_i s hs
      split
      · exact .aborts hs ‹_› rfl rfl rfl
      · exact .same rfl
    · exact .same rfl

end Step

/-! ## What a program can do -/

section Programs
variable {S : Signature} {α β : Type}

/-- The program makes no observation outside `A`. -/
def Txn.Only (A : Obs S → Prop) : Txn S α → Prop
  | .ret _ => True
  | .raise _ => True
  | .clock k => ∀ t, A (.clock t) ∧ Only A (k t)
  | .ident k => ∀ u, A (.ident u) ∧ Only A (k u)
  | .select q k => ∀ d, A (.saw q d) ∧ Only A (k d)
  | .acquire l k => ∀ d, A (.locked l d) ∧ Only A (k d)
  | .write x k => A (.wrote x) ∧ Only A k

theorem Txn.Only.bind {A : Obs S → Prop} {x : Txn S α} {f : α → Txn S β} (hx : x.Only A)
    (hf : ∀ a, (f a).Only A) : (x >>= f).Only A := by
  change (x.bind f).Only A
  induction x with
  | ret a => exact hf a
  | raise e => trivial
  | clock k ih => exact fun t => ⟨(hx t).1, ih t (hx t).2⟩
  | ident k ih => exact fun u => ⟨(hx u).1, ih u (hx u).2⟩
  | select q k ih => exact fun d => ⟨(hx d).1, ih d (hx d).2⟩
  | acquire l k ih => exact fun d => ⟨(hx d).1, ih d (hx d).2⟩
  | write x k ih => exact ⟨hx.1, ih hx.2⟩

theorem Txn.Only.forEach {A : Obs S → Prop} {f : β → Txn S Unit} (hf : ∀ b, (f b).Only A)
    (bs : List β) : (Txn.forEach f bs).Only A := by
  induction bs with
  | nil => trivial
  | cons b bs ih => exact (hf b).bind fun _ => ih

theorem Txn.Only.of_forall {A : Obs S → Prop} (h : ∀ o, A o) (x : Txn S α) : x.Only A := by
  induction x with
  | ret a => trivial
  | raise e => trivial
  | clock k ih => exact fun t => ⟨h _, ih t⟩
  | ident k ih => exact fun u => ⟨h _, ih u⟩
  | select q k ih => exact fun d => ⟨h _, ih d⟩
  | acquire l k ih => exact fun d => ⟨h _, ih d⟩
  | write x k ih => exact ⟨h _, ih⟩

/-- What is observed of a transaction that writes only `W`. -/
def Obs.Within (W : S.Write → Prop) : Obs S → Prop
  | .wrote x => W x
  | _ => True

/-- What a program that writes only `W` keeps of its log. -/
def Log.Kept (W : S.Write → Prop) (I : Log S → Prop) : Prop :=
  ∀ o log, o.Within W → I log → I (o :: log)

abbrev Always : Log S → Prop := fun _ => True

/-- The program writes nothing outside `W`. -/
def Txn.Writes (W : S.Write → Prop) (x : Txn S α) : Prop := x.Only (Obs.Within W)

namespace Log

variable {p : S.Write → Bool} {log : Log S}

theorem writesOn_wrote (p : S.Write → Bool) (x : S.Write) (log : Log S) :
    writesOn p (.wrote x :: log) = if p x then x :: log.writesOn p else log.writesOn p :=
  List.filter_cons

theorem writesOn_keep {o : Obs S} (ho : o.Within fun x => p x = false) :
    writesOn p (o :: log) = log.writesOn p := by
  cases o with
  | wrote x =>
    have hx : p x = false := ho
    rw [writesOn_wrote, hx]
    rfl
  | _ => rfl

/-- What the writes of one kind decide shows in the view of a log as they leave it. -/
theorem view_writesOn {R : Type} (proj : S.Data → R)
    (hoff : ∀ x d, p x = false → proj (S.apply x d) = proj d)
    (hon : ∀ x {d d'}, proj d = proj d' → proj (S.apply x d) = proj (S.apply x d'))
    (log : Log S) (d : S.Data) : proj (log.view d) = proj ((log.writesOn p).foldr S.apply d) := by
  induction log with
  | nil => rfl
  | cons o log ih =>
    cases o with
    | wrote x =>
      rw [writesOn_wrote]
      cases hx : p x with
      | true => exact hon x ih
      | false => exact (hoff x _ hx).trans ih
    | _ => exact ih

end Log

namespace Txn.Writes

variable {W : S.Write → Prop}

theorem ret (a : α) : (Txn.ret a : Txn S α).Writes W := trivial

theorem raise (e : S.Err) : (Txn.raise e : Txn S α).Writes W := trivial

theorem now : (Txn.now : Txn S S.Time).Writes W := fun _ => ⟨trivial, trivial⟩

theorem fresh : (Txn.fresh : Txn S S.Ident).Writes W := fun _ => ⟨trivial, trivial⟩

theorem query (q : S.Query) : (Txn.query q : Txn S S.Data).Writes W := fun _ => ⟨trivial, trivial⟩

theorem lockRow (l : S.Lock) : (Txn.lockRow l : Txn S S.Data).Writes W :=
  fun _ => ⟨trivial, trivial⟩

theorem put {x : S.Write} (hx : W x) : (Txn.put x : Txn S Unit).Writes W := ⟨hx, trivial⟩

theorem ofExcept (x : Except S.Err α) : (Txn.ofExcept x : Txn S α).Writes W := by
  cases x <;> trivial

theorem ensure (c : Bool) (e : S.Err) : (Txn.ensure c e : Txn S Unit).Writes W := by
  cases c <;> trivial

theorem bind {x : Txn S α} {f : α → Txn S β} (hx : x.Writes W) (hf : ∀ a, (f a).Writes W) :
    (x >>= f).Writes W := Txn.Only.bind hx hf

theorem forEach {f : β → Txn S Unit} (hf : ∀ b, (f b).Writes W) (bs : List β) :
    (Txn.forEach f bs).Writes W := Txn.Only.forEach hf bs

theorem insert (l : S.Lock) (taken : S.Data → Bool) {x : S.Write} (e : S.Err) (hx : W x) :
    (Txn.insert l taken x e : Txn S Unit).Writes W := by
  refine bind (lockRow l) fun latest => ?_
  split
  · exact raise e
  · exact put hx

theorem updateRow (lock : β → S.Lock) (holds : S.Data → β → Bool) {set : β → S.Write} {b : β}
    (hb : W (set b)) : (Txn.updateRow lock holds set b : Txn S Unit).Writes W := by
  refine bind (lockRow (lock b)) fun latest => ?_
  split
  · exact put hb
  · exact ret ()

theorem update (q : S.Query) (lock : β → S.Lock) (rows : S.Data → List β)
    (holds : S.Data → β → Bool) {set : β → S.Write} (hset : ∀ b, W (set b)) :
    (Txn.update q lock rows holds set : Txn S Unit).Writes W :=
  bind (query q) fun snapshot => forEach (fun b => updateRow lock holds (hset b)) (rows snapshot)

theorem firstLocked (lock : β → S.Lock) (row : S.Data → β → Option α) (bs : List β) :
    (Txn.firstLocked lock row bs : Txn S (Option α)).Writes W := by
  induction bs with
  | nil => exact ret none
  | cons b bs ih =>
    refine bind (lockRow (lock b)) fun latest => ?_
    split
    · exact ret _
    · exact ih

theorem lockFirst (q : S.Query) (lock : β → S.Lock) (rows : S.Data → List β)
    (row : S.Data → S.Data → β → Option α) :
    (Txn.lockFirst q lock rows row : Txn S (Option α)).Writes W :=
  bind (query q) fun snapshot => firstLocked lock (row snapshot) (rows snapshot)

/-- Alone, such a program keeps what its writes keep. -/
theorem aloneOn_keeps {I : S.Data → Prop} {x : Txn S α} (hx : x.Writes W)
    (hkeep : ∀ y d, W y → I d → I (S.apply y d)) (env : Supply S) {d : S.Data} (hd : I d)
    (n m : Nat) : I (x.aloneOn env d n m).2.1 := by
  induction x generalizing d n m with
  | ret a => exact hd
  | raise e => exact hd
  | clock k ih => exact ih _ (hx _).2 hd _ _
  | ident k ih => exact ih _ (hx _).2 hd _ _
  | select q k ih => exact ih _ (hx _).2 hd _ _
  | acquire l k ih => exact ih _ (hx _).2 hd _ _
  | write y k ih => exact ih hx.2 (hkeep y d hx.1 hd) _ _

end Txn.Writes

/-- However the others interfere, as long as each observation fits the log before it, a
session that goes on with the program keeps `P` of its log, and `Q` holds of its result. -/
def Txn.Spec (fits : Log S → Obs S → Prop) (P : Log S → Prop) (Q : α → Log S → Prop) :
    Txn S α → Log S → Prop
  | .ret a, log => P log ∧ Q a log
  | .raise _, log => P log
  | .clock k, log => P log ∧ ∀ t, fits log (.clock t) → Spec fits P Q (k t) (.clock t :: log)
  | .ident k, log => P log ∧ ∀ u, fits log (.ident u) → Spec fits P Q (k u) (.ident u :: log)
  | .select q k, log => P log ∧ ∀ d, fits log (.saw q d) → Spec fits P Q (k d) (.saw q d :: log)
  | .acquire l k, log =>
    P log ∧ ∀ d, fits log (.locked l d) → Spec fits P Q (k d) (.locked l d :: log)
  | .write x k, log => P log ∧ Spec fits P Q k (.wrote x :: log)

namespace Txn.Spec

variable {fits : Log S → Obs S → Prop} {P : Log S → Prop} {Q : α → Log S → Prop} {log : Log S}

theorem head {x : Txn S α} (h : x.Spec fits P Q log) : P log := by
  cases x with
  | raise e => exact h
  | ret a => exact h.1
  | clock k => exact h.1
  | ident k => exact h.1
  | select q k => exact h.1
  | acquire l k => exact h.1
  | write x k => exact h.1

theorem bind {R : β → Log S → Prop} {x : Txn S α} {f : α → Txn S β} (hx : x.Spec fits P Q log)
    (hf : ∀ a log', P log' → Q a log' → (f a).Spec fits P R log') :
    (x >>= f).Spec fits P R log := by
  change (x.bind f).Spec fits P R log
  induction x generalizing log with
  | ret a => exact hf a log hx.1 hx.2
  | raise e => exact hx
  | clock k ih => exact ⟨hx.1, fun t ht => ih t (hx.2 t ht)⟩
  | ident k ih => exact ⟨hx.1, fun u hu => ih u (hx.2 u hu)⟩
  | select q k ih => exact ⟨hx.1, fun d hd => ih d (hx.2 d hd)⟩
  | acquire l k ih => exact ⟨hx.1, fun d hd => ih d (hx.2 d hd)⟩
  | write x k ih => exact ⟨hx.1, ih hx.2⟩

theorem mono {Q' : α → Log S → Prop} {x : Txn S α} (h : x.Spec fits P Q log)
    (himp : ∀ a log', P log' → Q a log' → Q' a log') : x.Spec fits P Q' log := by
  induction x generalizing log with
  | ret a => exact ⟨h.1, himp a log h.1 h.2⟩
  | raise e => exact h
  | clock k ih => exact ⟨h.1, fun t ht => ih t (h.2 t ht)⟩
  | ident k ih => exact ⟨h.1, fun u hu => ih u (h.2 u hu)⟩
  | select q k ih => exact ⟨h.1, fun d hd => ih d (h.2 d hd)⟩
  | acquire l k ih => exact ⟨h.1, fun d hd => ih d (h.2 d hd)⟩
  | write x k ih => exact ⟨h.1, ih h.2⟩

/-- A program that only makes observations which keep `P`, keeps `P`. -/
theorem of_only {A : Obs S → Prop} {x : Txn S α} (hkeep : ∀ o log, A o → P log → P (o :: log))
    (hx : x.Only A) (hlog : P log) : x.Spec fits P (fun _ => P) log := by
  induction x generalizing log with
  | ret a => exact ⟨hlog, hlog⟩
  | raise e => exact hlog
  | clock k ih => exact ⟨hlog, fun t _ => ih t (hx t).2 (hkeep _ _ (hx t).1 hlog)⟩
  | ident k ih => exact ⟨hlog, fun u _ => ih u (hx u).2 (hkeep _ _ (hx u).1 hlog)⟩
  | select q k ih => exact ⟨hlog, fun d _ => ih d (hx d).2 (hkeep _ _ (hx d).1 hlog)⟩
  | acquire l k ih => exact ⟨hlog, fun d _ => ih d (hx d).2 (hkeep _ _ (hx d).1 hlog)⟩
  | write x k ih => exact ⟨hlog, ih hx.2 (hkeep _ _ hx.1 hlog)⟩

/-- Every program keeps what no observation ends. -/
theorem of_keeps (hkeep : ∀ o log, P log → P (o :: log)) (x : Txn S α) (hlog : P log) :
    x.Spec fits P (fun _ => P) log :=
  of_only (fun o log _ h => hkeep o log h) (.of_forall (fun _ => True.intro) x) hlog

/-- A program that writes only `W`, where `P` looks at no other writes. -/
theorem of_writes {W : S.Write → Prop} {x : Txn S α} (hkeep : Log.Kept W P) (hx : x.Writes W)
    (hlog : P log) : x.Spec fits P (fun _ => P) log :=
  of_only hkeep hx hlog

/-- A weaker invariant of the log. -/
theorem weaken {P' : Log S → Prop} {x : Txn S α} (h : x.Spec fits P Q log)
    (himp : ∀ log, P log → P' log) : x.Spec fits P' Q log := by
  induction x generalizing log with
  | ret a => exact ⟨himp _ h.1, h.2⟩
  | raise e => exact himp _ h
  | clock k ih => exact ⟨himp _ h.1, fun t ht => ih t (h.2 t ht)⟩
  | ident k ih => exact ⟨himp _ h.1, fun u hu => ih u (h.2 u hu)⟩
  | select q k ih => exact ⟨himp _ h.1, fun d hd => ih d (h.2 d hd)⟩
  | acquire l k ih => exact ⟨himp _ h.1, fun d hd => ih d (h.2 d hd)⟩
  | write x k ih => exact ⟨himp _ h.1, ih h.2⟩

/-- A program in front of the rest of a transaction, which starts from all that the
program has kept. -/
theorem after_keeping {I : Log S → Prop} {R : β → Log S → Prop} {W : S.Write → Prop} {x : Txn S α}
    {f : α → Txn S β} (hkeep : Log.Kept W I)
    (himp : ∀ log, I log → P log) (hx : x.Writes W) (hlog : I log)
    (hf : ∀ a log', I log' → (f a).Spec fits P R log') : (x >>= f).Spec fits P R log := by
  have hspec : x.Spec fits I (fun _ => I) log := of_writes hkeep hx hlog
  exact (hspec.weaken himp).bind fun a log' _ hlog' => hf a log' hlog'

/-- The same where only the end of the log matters. -/
theorem after_kept {I : Log S → Prop} {R : β → Log S → Prop} {W : S.Write → Prop} {x : Txn S α}
    {f : α → Txn S β} (hkeep : Log.Kept W I) (hx : x.Writes W) (hlog : I log)
    (hf : ∀ a log', I log' → (f a).Spec fits Always R log') : (x >>= f).Spec fits Always R log :=
  after_keeping hkeep (fun _ _ => trivial) hx hlog hf

theorem after {R : β → Log S → Prop} {W : S.Write → Prop} {x : Txn S α} {f : α → Txn S β}
    (hkeep : Log.Kept W P) (hx : x.Writes W) (hlog : P log)
    (hf : ∀ a log', P log' → (f a).Spec fits P R log') : (x >>= f).Spec fits P R log :=
  after_keeping hkeep (fun _ h => h) hx hlog hf

/-- A program that was examined without bad observations: either it has met one, or it
is as it was found to be. -/
theorem met_or {bad : Log S → Obs S → Bool} {x : Txn S α}
    (h : x.Spec (fun log o => fits log o ∧ bad log o = false) P Q log) :
    x.Spec fits (fun log => log.met bad = true ∨ P log)
      (fun a log => log.met bad = true ∨ Q a log) log := by
  have hmet : ∀ {x : Txn S α} {o : Obs S} {log : Log S}, bad log o = true →
      x.Spec fits (fun log => log.met bad = true ∨ P log)
        (fun a log => log.met bad = true ∨ Q a log) (o :: log) := by
    intro x o log hbad
    have hspec : x.Spec fits (fun log => log.met bad = true) (fun _ log => log.met bad = true)
        (o :: log) :=
      of_keeps (fun o log h => by rw [Log.met, h, Bool.or_true]) x (by rw [Log.met, hbad]; rfl)
    exact (hspec.mono fun _ _ _ => .inl).weaken fun _ => .inl
  have hnext : ∀ {x : Txn S α} {o : Obs S} {log : Log S}, fits log o →
      (fits log o ∧ bad log o = false → x.Spec fits (fun log => log.met bad = true ∨ P log)
        (fun a log => log.met bad = true ∨ Q a log) (o :: log)) →
      x.Spec fits (fun log => log.met bad = true ∨ P log)
        (fun a log => log.met bad = true ∨ Q a log) (o :: log) := by
    intro x o log ho hx
    cases hbad : bad log o with
    | false => exact hx ⟨ho, hbad⟩
    | true => exact hmet hbad
  induction x generalizing log with
  | ret a => exact ⟨.inr h.1, .inr h.2⟩
  | raise e => exact .inr h
  | clock k ih => exact ⟨.inr h.1, fun t ht => hnext ht fun hgood => ih t (h.2 t hgood)⟩
  | ident k ih => exact ⟨.inr h.1, fun u hu => hnext hu fun hgood => ih u (h.2 u hgood)⟩
  | select q k ih => exact ⟨.inr h.1, fun d hd => hnext hd fun hgood => ih d (h.2 d hgood)⟩
  | acquire l k ih => exact ⟨.inr h.1, fun d hd => hnext hd fun hgood => ih d (h.2 d hgood)⟩
  | write x k ih => exact ⟨.inr h.1, ih h.2⟩

theorem of_cons {o : Obs S} {x : Txn S α}
    (h : x.Spec fits P (fun a log' => Q a log' ∧ (o :: log) <:+ log') (o :: log)) :
    x.Spec fits P (fun a log' => Q a log' ∧ log <:+ log') (o :: log) :=
  h.mono fun _ _ _ hq => ⟨hq.1, (List.suffix_cons _ _).trans hq.2⟩

/-- A log only grows. -/
theorem extends_log {x : Txn S α} (h : x.Spec fits P Q log) :
    x.Spec fits P (fun a log' => Q a log' ∧ log <:+ log') log := by
  induction x generalizing log with
  | ret a => exact ⟨h.1, h.2, List.suffix_refl log⟩
  | raise e => exact h
  | clock k ih => exact ⟨h.1, fun t ht => (ih t (h.2 t ht)).of_cons⟩
  | ident k ih => exact ⟨h.1, fun u hu => (ih u (h.2 u hu)).of_cons⟩
  | select q k ih => exact ⟨h.1, fun d hd => (ih d (h.2 d hd)).of_cons⟩
  | acquire l k ih => exact ⟨h.1, fun d hd => (ih d (h.2 d hd)).of_cons⟩
  | write x k ih => exact ⟨h.1, (ih h.2).of_cons⟩

theorem now {Q : S.Time → Log S → Prop} (hlog : P log) (h : ∀ t, fits log (.clock t) →
    P (.clock t :: log) ∧ Q t (.clock t :: log)) :
    (Txn.now : Txn S S.Time).Spec fits P Q log := ⟨hlog, h⟩

theorem ofExcept {x : Except S.Err α} (hlog : P log) (h : ∀ a, x = .ok a → Q a log) :
    (Txn.ofExcept x : Txn S α).Spec fits P Q log := by
  cases x with
  | ok a => exact ⟨hlog, h a rfl⟩
  | error e => exact hlog

theorem query {Q : S.Data → Log S → Prop} {q : S.Query} (hlog : P log)
    (h : ∀ d, fits log (.saw q d) → P (.saw q d :: log) ∧ Q d (.saw q d :: log)) :
    (Txn.query q : Txn S S.Data).Spec fits P Q log := ⟨hlog, h⟩

theorem lockRow {Q : S.Data → Log S → Prop} {l : S.Lock} (hlog : P log)
    (h : ∀ d, fits log (.locked l d) → P (.locked l d :: log) ∧ Q d (.locked l d :: log)) :
    (Txn.lockRow l : Txn S S.Data).Spec fits P Q log := ⟨hlog, h⟩

theorem put {Q : Unit → Log S → Prop} {x : S.Write} (hlog : P log) (hwrote : P (.wrote x :: log))
    (h : Q () (.wrote x :: log)) : (Txn.put x : Txn S Unit).Spec fits P Q log :=
  ⟨hlog, hwrote, h⟩

/-- An insertion goes on where its key was free under the lock. -/
theorem insert {Q : Unit → Log S → Prop} {l : S.Lock} {taken : S.Data → Bool} {x : S.Write}
    {e : S.Err} (hlog : P log) (hlocked : ∀ d, P (.locked l d :: log))
    (h : ∀ d, fits log (.locked l d) → taken d = false →
      P (.wrote x :: .locked l d :: log) ∧ Q () (.wrote x :: .locked l d :: log)) :
    (Txn.insert l taken x e).Spec fits P Q log := by
  refine (lockRow (Q := fun d log' => fits log (.locked l d) ∧ log' = .locked l d :: log) hlog
    fun d hd => ⟨hlocked d, hd, rfl⟩).bind ?_
  rintro d log' hlog' ⟨hd, rfl⟩
  cases htaken : taken d with
  | true =>
    rw [if_pos rfl]
    exact hlog'
  | false =>
    rw [if_neg Bool.false_ne_true]
    exact put hlog' (h d hd htaken).1 (h d hd htaken).2

/-- What `SELECT ... FOR UPDATE` returns passed the check in some version of its row. -/
theorem firstLocked {row : S.Data → β → Option α} {lock : β → S.Lock} {I : Log S → Prop}
    (hkeep : ∀ l d log, I log → I (.locked l d :: log)) (bs : List β) (hlog : I log) :
    (Txn.firstLocked lock row bs).Spec fits Always
      (fun found log' => I log' ∧ ∀ a, found = some a → ∃ d b, row d b = some a) log := by
  induction bs generalizing log with
  | nil => exact ⟨trivial, hlog, nofun⟩
  | cons b bs ih =>
    refine (lockRow (Q := fun _ => I) trivial fun d _ => ⟨trivial, hkeep _ d _ hlog⟩).bind ?_
    intro latest log' _ hlog'
    cases hrow : row latest b with
    | some a =>
      refine ⟨trivial, hlog', fun a' ha' => ⟨latest, b, ?_⟩⟩
      rw [hrow]
      exact ha'
    | none => exact ih hlog'

end Txn.Spec

end Programs

/-! ## Runs of a system -/

section Runs
variable {S : Signature} {C α : Type} {env : Supply S} {program : C → Txn S α}

/-- The session at an index after another one, or the same one, was replaced. -/
theorem set_cases {s s' : Session S C α} {ss : List (Session S C α)} {i j : Nat}
    (h : (ss.set i s)[j]? = some s') : (j = i ∧ s' = s) ∨ (j ≠ i ∧ ss[j]? = some s') := by
  rw [List.getElem?_set] at h
  split at h
  · rename_i hij
    split at h
    · exact .inl ⟨hij.symm, (Option.some.inj h).symm⟩
    · cases h
  · rename_i hij
    exact .inr ⟨fun hji => hij hji.symm, h⟩

theorem append_cases {s s' : Session S C α} {ss : List (Session S C α)} {j : Nat}
    (h : (ss ++ [s])[j]? = some s') : (j = ss.length ∧ s' = s) ∨ ss[j]? = some s' := by
  rw [List.getElem?_append] at h
  split at h
  · exact .inr h
  · rename_i hlt
    obtain ⟨hidx, hs⟩ := List.getElem?_eq_some_iff.mp h
    simp only [List.length_singleton, Nat.lt_one_iff] at hidx
    simp only [hidx, List.getElem_cons_zero] at hs
    exact .inl ⟨by omega, hs.symm⟩

/-! What a step does to the rows, to a committed session and to an open one. -/

section Views
variable {σ σ' : System S C α} {j : Nat} {s' : Session S C α}

/-- Session `i` commits. -/
structure Commits (σ σ' : System S C α) (i : Nat) (s : Session S C α) : Prop where
  session : σ.sessions[i]? = some s
  opened : s.status = .opened
  rest : ∃ a, s.rest = .ret a
  data : σ'.data = s.log.view σ.data
  sessions : σ'.sessions = σ.sessions.set i { s with status := .committed }

theorem Move.data (h : Move env program σ σ') :
    σ'.data = σ.data ∨ ∃ i s, Commits σ σ' i s := by
  cases h with
  | same heq => exact .inl (by rw [heq])
  | begins _ hdata _ _ => exact .inl hdata
  | observes _ _ _ hdata _ => exact .inl hdata
  | commits hs hopen hrest hdata _ hsessions =>
    exact .inr ⟨_, _, hs, hopen, ⟨_, hrest⟩, hdata, hsessions⟩
  | aborts _ _ hdata _ _ => exact .inl hdata

theorem Move.committed (h : Move env program σ σ') (hs' : σ'.sessions[j]? = some s')
    (hstatus : s'.status = .committed) :
    σ.sessions[j]? = some s' ∨ ∃ s, Commits σ σ' j s ∧ s' = { s with status := .committed } := by
  cases h with
  | same heq =>
    rw [heq] at hs'
    exact .inl hs'
  | begins call _ _ hsessions =>
    rw [hsessions] at hs'
    rcases append_cases hs' with ⟨-, rfl⟩ | hs'
    · cases hstatus
    · exact .inl hs'
  | observes hs hopen _ _ hsessions =>
    rw [hsessions] at hs'
    rcases set_cases hs' with ⟨-, rfl⟩ | ⟨-, hs'⟩
    · rw [hopen] at hstatus
      cases hstatus
    · exact .inl hs'
  | @commits i s a hs hopen hrest hdata _ hsessions =>
    have hset := hsessions
    rw [hsessions] at hs'
    rcases set_cases hs' with ⟨rfl, rfl⟩ | ⟨-, hs'⟩
    · exact .inr ⟨s, ⟨hs, hopen, ⟨a, hrest⟩, hdata, hset⟩, rfl⟩
    · exact .inl hs'
  | aborts _ _ _ _ hsessions =>
    rw [hsessions] at hs'
    rcases set_cases hs' with ⟨-, rfl⟩ | ⟨-, hs'⟩
    · cases hstatus
    · exact .inl hs'

/-- An open session is as it was, has just begun, or has made an observation. -/
theorem Move.opened (h : Move env program σ σ') (hs' : σ'.sessions[j]? = some s')
    (hstatus : s'.status = .opened) :
    σ.sessions[j]? = some s' ∨
    (σ'.data = σ.data ∧ ∃ call, s' = ⟨call, [], program call, .opened⟩) ∨
    (σ'.data = σ.data ∧ ∃ s o rest, σ.sessions[j]? = some s ∧ s.status = .opened ∧
      Observes env σ j s o rest σ'.ticks ∧ s' = { s with log := o :: s.log, rest }) := by
  cases h with
  | same heq =>
    rw [heq] at hs'
    exact .inl hs'
  | begins call hdata _ hsessions =>
    rw [hsessions] at hs'
    rcases append_cases hs' with ⟨-, rfl⟩ | hs'
    · exact .inr (.inl ⟨hdata, call, rfl⟩)
    · exact .inl hs'
  | @observes i s o rest hs hopen ho hdata hsessions =>
    rw [hsessions] at hs'
    rcases set_cases hs' with ⟨rfl, rfl⟩ | ⟨-, hs'⟩
    · exact .inr (.inr ⟨hdata, s, o, rest, hs, hopen, ho, rfl⟩)
    · exact .inl hs'
  | commits _ _ _ _ _ hsessions =>
    rw [hsessions] at hs'
    rcases set_cases hs' with ⟨-, rfl⟩ | ⟨-, hs'⟩
    · cases hstatus
    · exact .inl hs'
  | aborts _ _ _ _ hsessions =>
    rw [hsessions] at hs'
    rcases set_cases hs' with ⟨-, rfl⟩ | ⟨-, hs'⟩
    · cases hstatus
    · exact .inl hs'

theorem Commits.returns {i : Nat} {s : Session S C α} (h : Commits σ σ' i s) :
    s.rest.returns = true := by
  obtain ⟨a, hrest⟩ := h.rest
  rw [hrest]
  rfl

/-- A session that is open after another's commit was open before it. -/
theorem Commits.other {i : Nat} {s : Session S C α} (h : Commits σ σ' i s)
    (hs' : σ'.sessions[j]? = some s') (hstatus : s'.status = .opened) :
    j ≠ i ∧ σ.sessions[j]? = some s' := by
  rw [h.sessions] at hs'
  rcases set_cases hs' with ⟨-, rfl⟩ | hother
  · cases hstatus
  · exact hother

/-- A step of one session leaves the others as they are. -/
theorem System.advance_other {i : Nat} {s : Session S C α} (hij : i ≠ j) :
    (σ.advance env i s).sessions[j]? = σ.sessions[j]? := by
  have hset : ∀ s₁ : Session S C α, (σ.sessions.set i s₁)[j]? = σ.sessions[j]? :=
    fun s₁ => List.getElem?_set_ne hij
  unfold System.advance
  split
  · exact hset _
  · exact hset _
  · exact hset _
  · exact hset _
  · exact hset _
  · split
    · rfl
    · exact hset _
  · exact hset _

/-- A session commits by a step of its own. -/
theorem Commits.action {a : Action C} {s : Session S C α}
    (h : Commits σ (σ.step env program a) j s) : a = .advance j := by
  have hcommitted : (σ.step env program a).sessions[j]? = some { s with status := .committed } := by
    rw [h.sessions, List.getElem?_set_self (List.getElem?_eq_some_iff.mp h.session).1]
  have hold : (σ.step env program a).sessions[j]? ≠ σ.sessions[j]? := by
    intro heq
    rw [hcommitted, h.session] at heq
    have hstatus := congrArg Session.status (Option.some.inj heq)
    rw [h.opened] at hstatus
    cases hstatus
  cases a with
  | begin call =>
    have hlength : (σ.step env program (.begin call)).sessions.length = σ.sessions.length + 1 :=
      List.length_append
    rw [h.sessions, List.length_set] at hlength
    omega
  | advance i =>
    by_cases hij : i = j
    · rw [hij]
    · refine (hold ?_).elim
      simp only [System.step]
      split
      · split
        · exact System.advance_other hij
        · rfl
      · rfl
  | abort i =>
    by_cases hij : i = j
    · rw [hij] at hcommitted
      simp only [System.step, h.session, h.opened, if_true] at hcommitted
      rw [List.getElem?_set_self (List.getElem?_eq_some_iff.mp h.session).1] at hcommitted
      cases hcommitted
    · refine (hold ?_).elim
      simp only [System.step]
      split
      · split
        · exact List.getElem?_set_ne hij
        · rfl
      · rfl

/-- The calls of the sessions are those that were begun. -/
theorem System.step_calls {K : C → Prop} {a : Action C} (h : ∀ s ∈ σ.sessions, K s.call)
    (ha : ∀ call, a = .begin call → K call) : ∀ s ∈ (σ.step env program a).sessions, K s.call := by
  have hset : ∀ (i : Nat) (s s₁ : Session S C α), σ.sessions[i]? = some s → s₁.call = s.call →
      ∀ s' ∈ σ.sessions.set i s₁, K s'.call := by
    intro i s s₁ hs hcall s' hs'
    rcases List.mem_or_eq_of_mem_set hs' with hs' | rfl
    · exact h s' hs'
    · rw [hcall]
      exact h s (List.mem_of_getElem? hs)
  cases a with
  | begin call =>
    intro s hs
    rcases List.mem_append.mp hs with hs | hs
    · exact h s hs
    · rw [List.mem_singleton.mp hs]
      exact ha call rfl
  | advance i =>
    simp only [System.step]
    split
    · rename_i s hs
      split
      · unfold System.advance
        split
        · exact hset i s _ hs rfl
        · exact hset i s _ hs rfl
        · exact hset i s _ hs rfl
        · exact hset i s _ hs rfl
        · exact hset i s _ hs rfl
        · split
          · exact h
          · exact hset i s _ hs rfl
        · exact hset i s _ hs rfl
      · exact h
    · exact h
  | abort i =>
    simp only [System.step]
    split
    · rename_i s hs
      split
      · exact hset i s _ hs rfl
      · exact h
    · exact h

/-- One session commits at a time. -/
theorem Commits.unique {i : Nat} {s s₁ : Session S C α} (h : Commits σ σ' i s)
    (h' : Commits σ σ' j s₁) : i = j := by
  by_contra hij
  have hcommitted : σ'.sessions[j]? = some { s₁ with status := .committed } := by
    rw [h'.sessions, List.getElem?_set_self (List.getElem?_eq_some_iff.mp h'.session).1]
  rw [h.sessions, List.getElem?_set_ne hij, h'.session] at hcommitted
  have hstatus : s₁.status = .committed := congrArg Session.status (Option.some.inj hcommitted)
  rw [h'.opened] at hstatus
  cases hstatus

end Views

/-- No other open session holds a lock that is free for session `i`. -/
theorem System.held_false {σ : System S C α} {i j : Nat} {l : S.Lock} {s : Session S C α}
    (h : σ.held i l = false) (hs : σ.sessions[j]? = some s) (hopen : s.status = .opened)
    (hj : j ≠ i) : l ∉ s.log.locks := by
  intro hl
  have hmem : (s, j) ∈ σ.sessions.zipIdx := by
    rw [List.mem_zipIdx_iff_getElem?]
    exact hs
  have htrue : σ.held i l = true :=
    List.any_eq_true.mpr ⟨(s, j), hmem, by simp [hj, hopen, hl]⟩
  rw [h] at htrue
  cases htrue

/-- Two open sessions never hold the same row. -/
def System.LocksApart (σ : System S C α) : Prop :=
  ∀ (i j : Nat) (s s' : Session S C α), i ≠ j → σ.sessions[i]? = some s →
    σ.sessions[j]? = some s' → s.status = .opened → s'.status = .opened →
    ∀ l ∈ s.log.locks, l ∉ s'.log.locks

theorem Observes.free {σ : System S C α} {i n : Nat} {s : Session S C α} {l : S.Lock}
    {d : S.Data} {rest : Txn S α} (h : Observes env σ i s (.locked l d) rest n) :
    σ.held i l = false := by
  cases h with
  | locked _ hfree => exact hfree

theorem Observes.clock_eq {σ : System S C α} {i n : Nat} {s : Session S C α} {t : S.Time}
    {rest : Txn S α} (h : Observes env σ i s (.clock t) rest n) : t = env.clock σ.ticks := by
  cases h with
  | clock _ => rfl

theorem System.LocksApart.moves {σ σ' : System S C α} (h : σ.LocksApart)
    (hmove : Move env program σ σ') : σ'.LocksApart := by
  -- A session that was replaced holds at most the locks that it held before.
  have hset : ∀ (i : Nat) (s₀ s₁ : Session S C α), σ.sessions[i]? = some s₀ →
      (s₁.status = .opened → s₀.status = .opened ∧ ∀ l ∈ s₁.log.locks, l ∈ s₀.log.locks ∨
        σ.held i l = false) → σ'.sessions = σ.sessions.set i s₁ → σ'.LocksApart := by
    intro i s₀ s₁ hs₀ hlocks hsessions a b s s' hab hs hs' hopen hopen' l hl hl'
    rw [hsessions] at hs hs'
    rcases set_cases hs with ⟨ha, hsa⟩ | ⟨ha, hsa⟩ <;>
      rcases set_cases hs' with ⟨hb, hsb⟩ | ⟨hb, hsb⟩
    · exact hab (ha.trans hb.symm)
    · rw [hsa] at hopen hl
      obtain ⟨hopen₀, hmem⟩ := hlocks hopen
      rcases hmem l hl with hold | hfree
      · exact h i b s₀ s' (fun hib => hb hib.symm) hs₀ hsb hopen₀ hopen' l hold hl'
      · exact System.held_false hfree hsb hopen' hb hl'
    · rw [hsb] at hopen' hl'
      obtain ⟨hopen₀, hmem⟩ := hlocks hopen'
      rcases hmem l hl' with hold | hfree
      · exact h i a s₀ s (fun hia => ha hia.symm) hs₀ hsa hopen₀ hopen l hold hl
      · exact System.held_false hfree hsa hopen ha hl
    · exact h a b s s' hab hsa hsb hopen hopen' l hl hl'
  cases hmove with
  | same heq => rwa [heq]
  | begins call _ _ hsessions =>
    intro a b s s' hab hs hs' hopen hopen' l hl hl'
    rw [hsessions] at hs hs'
    rcases append_cases hs with ⟨-, rfl⟩ | hs
    · cases hl
    · rcases append_cases hs' with ⟨-, rfl⟩ | hs'
      · cases hl'
      · exact h a b s s' hab hs hs' hopen hopen' l hl hl'
  | @observes i s o rest hs hopen ho _ hsessions =>
    refine hset i s _ hs (fun _ => ⟨hopen, fun l hl => ?_⟩) hsessions
    rcases Log.mem_locks_cons hl with ⟨d, rfl⟩ | hl
    · exact .inr ho.free
    · exact .inl hl
  | @commits i s _ hs _ _ _ _ hsessions => exact hset i s _ hs (fun hc => by cases hc) hsessions
  | @aborts i s hs _ _ _ hsessions => exact hset i s _ hs (fun hc => by cases hc) hsessions

theorem Observes.ticks_le {σ : System S C α} {i n : Nat} {s : Session S C α} {o : Obs S}
    {rest : Txn S α} (h : Observes env σ i s o rest n) : σ.ticks ≤ n := by
  cases h with
  | clock _ => exact Nat.le_succ _
  | ident _ _ => exact Nat.le_refl _
  | saw _ => exact Nat.le_refl _
  | locked _ _ => exact Nat.le_refl _
  | wrote _ => exact Nat.le_refl _

theorem Move.ticks_le {σ σ' : System S C α} (h : Move env program σ σ') : σ.ticks ≤ σ'.ticks := by
  cases h with
  | same heq => rw [heq]
  | begins _ _ hticks _ => rw [hticks]
  | observes _ _ ho _ _ => exact ho.ticks_le
  | commits _ _ _ _ hticks _ => rw [hticks]
  | aborts _ _ _ hticks _ => rw [hticks]

/-- Sessions keep off each other's locks, each is on a path of its program, and those that
have committed are at the end of it. -/
structure System.Orderly (fits : Log S → Obs S → Prop) (P Q : C → Log S → Prop)
    (σ : System S C α) : Prop where
  apart : σ.LocksApart
  onPath : ∀ (i : Nat) (s : Session S C α), σ.sessions[i]? = some s →
    s.rest.Spec fits (P s.call) (fun _ => Q s.call) s.log
  finished : ∀ (i : Nat) (s : Session S C α), σ.sessions[i]? = some s → s.status = .committed →
    ∃ a, s.rest = .ret a

section Orderly
variable {fits : Log S → Obs S → Prop} {P Q : C → Log S → Prop} {σ σ' : System S C α}

theorem System.Orderly.start (h : σ.sessions = []) : σ.Orderly fits P Q := by
  have hnone : ∀ (i : Nat) (s : Session S C α), σ.sessions[i]? ≠ some s := by
    intro i s
    rw [h]
    nofun
  exact ⟨fun i j s s' _ hs => (hnone i s hs).elim, fun i s hs => (hnone i s hs).elim,
    fun i s hs => (hnone i s hs).elim⟩

theorem System.Orderly.log (h : σ.Orderly fits P Q) {i : Nat} {s : Session S C α}
    (hs : σ.sessions[i]? = some s) : P s.call s.log :=
  (h.onPath i s hs).head

/-- At its commit a session has reached the end of its program. -/
theorem System.Orderly.result (h : σ.Orderly fits P Q) {i : Nat} {s : Session S C α} {a : α}
    (hs : σ.sessions[i]? = some s) (hrest : s.rest = .ret a) : Q s.call s.log := by
  have hspec := h.onPath i s hs
  rw [hrest] at hspec
  exact hspec.2

theorem System.Orderly.committed (h : σ.Orderly fits P Q) {i : Nat} {s : Session S C α}
    (hs : σ.sessions[i]? = some s) (hstatus : s.status = .committed) : Q s.call s.log := by
  obtain ⟨a, hrest⟩ := h.finished i s hs hstatus
  exact h.result hs hrest

theorem Observes.spec {P' : Log S → Prop} {Q' : α → Log S → Prop} {i n : Nat}
    {s : Session S C α} {o : Obs S} {rest : Txn S α} (ho : Observes env σ i s o rest n)
    (hfits : fits s.log o) (h : s.rest.Spec fits P' Q' s.log) :
    rest.Spec fits P' Q' (o :: s.log) := by
  cases ho with
  | clock hrest =>
    rw [hrest] at h
    exact h.2 _ hfits
  | ident u hrest =>
    rw [hrest] at h
    exact h.2 u hfits
  | saw hrest =>
    rw [hrest] at h
    exact h.2 _ hfits
  | locked hrest _ =>
    rw [hrest] at h
    exact h.2 _ hfits
  | wrote hrest =>
    rw [hrest] at h
    exact h.2

/-- The step lemma: programs that keep `P` of their logs keep a system orderly. -/
theorem System.Orderly.moves
    (hfits : ∀ (i n : Nat) (s : Session S C α) (o : Obs S) (rest : Txn S α),
      σ.sessions[i]? = some s → s.status = .opened → Observes env σ i s o rest n → fits s.log o)
    (hprogram : ∀ s ∈ σ'.sessions, (program s.call).Spec fits (P s.call) (fun _ => Q s.call) [])
    (h : σ.Orderly fits P Q) (hmove : Move env program σ σ') : σ'.Orderly fits P Q := by
  refine ⟨h.apart.moves hmove, ?_, fun i s' hs' hstatus => ?_⟩
  rotate_left
  · rcases hmove.committed hs' hstatus with hold | ⟨s, hcommits, rfl⟩
    · exact h.finished i s' hold hstatus
    · exact hcommits.rest
  cases hmove with
  | same heq =>
    rw [heq]
    exact h.onPath
  | begins call _ _ hsessions =>
    intro j s hs
    have hmem : s ∈ σ'.sessions := List.mem_of_getElem? hs
    rw [hsessions] at hs
    rcases append_cases hs with ⟨-, rfl⟩ | hs
    · exact hprogram _ hmem
    · exact h.onPath j s hs
  | @observes i s o rest hs hopen ho _ hsessions =>
    intro j s' hs'
    rw [hsessions] at hs'
    rcases set_cases hs' with ⟨-, rfl⟩ | ⟨-, hs'⟩
    · exact ho.spec (hfits i _ s o rest hs hopen ho) (h.onPath i s hs)
    · exact h.onPath j s' hs'
  | @commits i s _ hs _ _ _ _ hsessions =>
    intro j s' hs'
    rw [hsessions] at hs'
    rcases set_cases hs' with ⟨-, rfl⟩ | ⟨-, hs'⟩
    · exact h.onPath i s hs
    · exact h.onPath j s' hs'
  | @aborts i s hs _ _ _ hsessions =>
    intro j s' hs'
    rw [hsessions] at hs'
    rcases set_cases hs' with ⟨-, rfl⟩ | ⟨-, hs'⟩
    · exact h.onPath i s hs
    · exact h.onPath j s' hs'

end Orderly

section Growth
variable {I : S.Data → Prop} {R : S.Data → S.Data → Prop} {σ σ' : System S C α}

/-- `I` holds of the rows whatever is written, and rows develop along `R`. -/
structure Growth (S : Signature) (I : S.Data → Prop) (R : S.Data → S.Data → Prop) : Prop where
  refl : ∀ d, R d d
  trans : ∀ {d d' d''}, R d d' → R d' d'' → R d d''
  apply : ∀ x d, I d → R d (S.apply x d)
  mono : ∀ x {d d'}, R d d' → R (S.apply x d) (S.apply x d')
  keeps : ∀ x d, I d → I (S.apply x d)

theorem Growth.view_keeps (hg : Growth S I R) (log : Log S) {d : S.Data} (hd : I d) :
    I (log.view d) := by
  induction log with
  | nil => exact hd
  | cons o log ih => cases o <;> first | exact ih | exact hg.keeps _ _ ih

theorem Growth.view (hg : Growth S I R) (log : Log S) {d : S.Data} (hd : I d) :
    R d (log.view d) := by
  induction log with
  | nil => exact hg.refl d
  | cons o log ih =>
    cases o <;> first | exact ih | exact hg.trans ih (hg.apply _ _ (hg.view_keeps log hd))

theorem Growth.view_mono (hg : Growth S I R) (log : Log S) {d d' : S.Data} (hd : R d d') :
    R (log.view d) (log.view d') := by
  induction log with
  | nil => exact hd
  | cons o log ih => cases o <;> first | exact ih | exact hg.mono _ ih

/-- The rows that a statement sees. -/
def Obs.data : Obs S → Option S.Data
  | .saw _ d => some d
  | .locked _ d => some d
  | _ => none

/-- What is seen satisfies `I` and has developed from everything seen before. -/
def Obs.Follows (I : S.Data → Prop) (R : S.Data → S.Data → Prop) (log : Log S) (o : Obs S) : Prop :=
  ∀ d, o.data = some d → I d ∧ ∀ o' ∈ log, ∀ d', o'.data = some d' → R d' d

/-- The rows as each open session would see them now have developed from what it has seen. -/
structure System.Grown (I : S.Data → Prop) (R : S.Data → S.Data → Prop) (σ : System S C α) :
    Prop where
  data : I σ.data
  sessions : ∀ (i : Nat) (s : Session S C α), σ.sessions[i]? = some s → s.status = .opened →
    ∀ o ∈ s.log, ∀ d, o.data = some d → R d (s.log.view σ.data)

theorem System.Grown.start (hI : I σ.data) (h : σ.sessions = []) : σ.Grown I R := by
  refine ⟨hI, fun i s hs => ?_⟩
  rw [h] at hs
  cases hs

theorem Observes.data_eq {i n : Nat} {s : Session S C α} {o : Obs S} {rest : Txn S α}
    (ho : Observes env σ i s o rest n) {d : S.Data} (hd : o.data = some d) :
    d = s.log.view σ.data := by
  cases ho with
  | clock _ => cases hd
  | ident _ _ => cases hd
  | saw _ => exact (Option.some.inj hd).symm
  | locked _ _ => exact (Option.some.inj hd).symm
  | wrote _ => cases hd

theorem System.Grown.follows (hg : Growth S I R) (h : σ.Grown I R) {i n : Nat}
    {s : Session S C α} {o : Obs S} {rest : Txn S α} (hs : σ.sessions[i]? = some s)
    (hopen : s.status = .opened) (ho : Observes env σ i s o rest n) :
    o.Follows I R s.log := by
  intro d hd
  rw [ho.data_eq hd]
  exact ⟨hg.view_keeps s.log h.data, h.sessions i s hs hopen⟩

theorem System.Grown.moves (hg : Growth S I R) (h : σ.Grown I R)
    (hmove : Move env program σ σ') : σ'.Grown I R := by
  have hdata : I σ'.data ∧ R σ.data σ'.data := by
    rcases hmove.data with heq | ⟨i, s, hcommits⟩
    · rw [heq]
      exact ⟨h.data, hg.refl _⟩
    · rw [hcommits.data]
      exact ⟨hg.view_keeps _ h.data, hg.view _ h.data⟩
  refine ⟨hdata.1, fun j s' hs' hopen o ho d hd => ?_⟩
  rcases hmove.opened hs' hopen with hold | ⟨-, call, rfl⟩ | ⟨heq, s, o₁, rest, hs, hopen, ho₁, rfl⟩
  · exact hg.trans (h.sessions j s' hold hopen o ho d hd) (hg.view_mono s'.log hdata.2)
  · exact (List.not_mem_nil ho).elim
  · have hstep : R (s.log.view σ.data) (Log.view (o₁ :: s.log) σ'.data) := by
      rw [heq]
      cases o₁ <;> first | exact hg.refl _ | exact hg.apply _ _ (hg.view_keeps _ h.data)
    rcases List.mem_cons.mp ho with rfl | ho
    · rw [ho₁.data_eq hd]
      exact hstep
    · exact hg.trans (h.sessions j s hs hopen o ho d hd) hstep

end Growth

section Past
variable [Preorder S.Time] {σ σ' : System S C α}

/-- No session has read a time that is still to come. -/
def System.Past (env : Supply S) (σ : System S C α) : Prop :=
  ∀ (i : Nat) (s : Session S C α), σ.sessions[i]? = some s →
    ∀ t ∈ s.log.times, t ≤ env.clock σ.ticks

theorem System.Past.moves (hclock : Monotone env.clock) (h : σ.Past env)
    (hmove : Move env program σ σ') : σ'.Past env := by
  cases hmove with
  | same heq => rwa [heq]
  | begins call _ hticks hsessions =>
    intro j s hs t ht
    rw [hsessions] at hs
    rw [hticks]
    rcases append_cases hs with ⟨-, rfl⟩ | hs
    · exact (List.not_mem_nil ht).elim
    · exact h j s hs t ht
  | @observes i s o rest hs _ ho _ hsessions =>
    have hlater : env.clock σ.ticks ≤ env.clock σ'.ticks := hclock ho.ticks_le
    intro j s' hs' t ht
    rw [hsessions] at hs'
    rcases set_cases hs' with ⟨-, rfl⟩ | ⟨-, hs'⟩
    · rcases Log.mem_times_cons ht with heq | hold
      · rw [heq] at ho
        exact le_trans (le_of_eq ho.clock_eq) hlater
      · exact le_trans (h i s hs t hold) hlater
    · exact le_trans (h j s' hs' t ht) hlater
  | @commits i s _ hs _ _ _ hticks hsessions =>
    intro j s' hs'
    rw [hsessions] at hs'
    rw [hticks]
    rcases set_cases hs' with ⟨-, rfl⟩ | ⟨-, hs'⟩
    · exact h i s hs
    · exact h j s' hs'
  | @aborts i s hs _ _ hticks hsessions =>
    intro j s' hs'
    rw [hsessions] at hs'
    rw [hticks]
    rcases set_cases hs' with ⟨-, rfl⟩ | ⟨-, hs'⟩
    · exact h i s hs
    · exact h j s' hs'

end Past

/-! ## Versions of the rows -/

section Versions
variable {clean : Log S → Prop} {σ σ' : System S C α}

/-- A statement has seen these rows after no more than a clean log. -/
def Log.SawFrom (clean : Log S → Prop) (log : Log S) (d : S.Data) : Prop :=
  ∃ later o earlier, log = later ++ o :: earlier ∧ o.data = some d ∧ clean earlier

theorem Log.SawFrom.now {log : Log S} {o : Obs S} {d : S.Data} (hd : o.data = some d)
    (hclean : clean log) : Log.SawFrom clean (o :: log) d := ⟨[], o, log, rfl, hd, hclean⟩

theorem Log.SawFrom.keep {log : Log S} {d : S.Data} (h : log.SawFrom clean d) (o : Obs S) :
    Log.SawFrom clean (o :: log) d := by
  obtain ⟨later, o', earlier, heq, hd⟩ := h
  exact ⟨o :: later, o', earlier, by rw [heq]; rfl, hd⟩

theorem Log.SawFrom.cases {log : Log S} {o : Obs S} {d : S.Data}
    (h : Log.SawFrom clean (o :: log) d) : (o.data = some d ∧ clean log) ∨ log.SawFrom clean d := by
  obtain ⟨later, o', earlier, heq, hd, hclean⟩ := h
  cases later with
  | nil =>
    obtain ⟨rfl, rfl⟩ := List.cons.inj heq
    exact .inl ⟨hd, hclean⟩
  | cons o'' later =>
    obtain ⟨-, rfl⟩ := List.cons.inj heq
    exact .inr ⟨later, o', earlier, rfl, hd, hclean⟩

/-- The committed rows, and those that an open session has seen as committed. -/
def System.Version (clean : Log S → Prop) (σ : System S C α) (d : S.Data) : Prop :=
  d = σ.data ∨ ∃ (i : Nat) (s : Session S C α), σ.sessions[i]? = some s ∧ s.status = .opened ∧
    s.log.SawFrom clean d

theorem System.Version.start (h : σ.sessions = []) {d : S.Data} (hd : σ.Version clean d) :
    d = σ.data := by
  rcases hd with rfl | ⟨i, s, hs, -⟩
  · rfl
  · rw [h] at hs
    cases hs

/-- A version was there before the step, or is what a commit left or a statement saw. -/
theorem System.Version.before {d : S.Data} (h : σ'.Version clean d)
    (hmove : Move env program σ σ') : σ.Version clean d ∨ (d = σ'.data ∧ ∃ i s, Commits σ σ' i s) ∨
      (σ'.data = σ.data ∧ ∃ s : Session S C α, clean s.log ∧ d = s.log.view σ.data) := by
  rcases h with rfl | ⟨j, s', hs', hopen, hsaw⟩
  · rcases hmove.data with hdata | hcommits
    · exact .inl (.inl hdata)
    · exact .inr (.inl ⟨rfl, hcommits⟩)
  · rcases hmove.opened hs' hopen with hold | ⟨-, call, rfl⟩ | ⟨hdata, s, o, rest, hs, ho, hobs, rfl⟩
    · exact .inl (.inr ⟨j, s', hold, hopen, hsaw⟩)
    · obtain ⟨later, o, earlier, heq, -⟩ := hsaw
      cases later <;> cases heq
    · rcases hsaw.cases with ⟨hd, hclean⟩ | hold
      · exact .inr (.inr ⟨hdata, s, hclean, hobs.data_eq hd⟩)
      · exact .inl (.inr ⟨j, s, hs, ho, hold⟩)

end Versions

/-! ## Facts under a lock

What a session has seen under the lock of a row stays as it is while the session is open:
the writes of others need the lock. -/

section Facts
variable {ρ : Type}

structure LockFacts (S : Signature) (ρ : Type) where
  lock : ρ → S.Lock
  fact : S.Data → ρ → Prop
  /-- The log has no writes that could have made the fact. -/
  clean : Log S → ρ → Prop

namespace LockFacts

/-- The fact was seen under its lock, from a log that did not make it. -/
def Holds (F : LockFacts S ρ) (log : Log S) (r : ρ) : Prop :=
  ∃ later d earlier, log = later ++ .locked (F.lock r) d :: earlier ∧ F.clean earlier r ∧ F.fact d r

def State (F : LockFacts S ρ) (σ : System S C α) : Prop :=
  ∀ (i : Nat) (s : Session S C α) (r : ρ), σ.sessions[i]? = some s → s.status = .opened →
    F.Holds s.log r → F.fact σ.data r

variable {F : LockFacts S ρ} {log : Log S} {o : Obs S} {r : ρ} {σ σ' : System S C α}

theorem Holds.keep (h : F.Holds log r) (o : Obs S) : F.Holds (o :: log) r := by
  obtain ⟨later, d, earlier, heq, hclean, hfact⟩ := h
  exact ⟨o :: later, d, earlier, by rw [heq]; rfl, hclean, hfact⟩

theorem Holds.now {d : S.Data} (hclean : F.clean log r) (hfact : F.fact d r) :
    F.Holds (.locked (F.lock r) d :: log) r := ⟨[], d, log, rfl, hclean, hfact⟩

theorem Holds.cases (h : F.Holds (o :: log) r) :
    (∃ d, o = .locked (F.lock r) d ∧ F.clean log r ∧ F.fact d r) ∨ F.Holds log r := by
  obtain ⟨later, d, earlier, heq, hclean, hfact⟩ := h
  cases later with
  | nil =>
    obtain ⟨rfl, rfl⟩ := List.cons.inj heq
    exact .inl ⟨d, rfl, hclean, hfact⟩
  | cons o' later =>
    obtain ⟨-, rfl⟩ := List.cons.inj heq
    exact .inr ⟨later, d, earlier, rfl, hclean, hfact⟩

theorem Holds.mem_locks (h : F.Holds log r) : F.lock r ∈ log.locks := by
  obtain ⟨later, d, earlier, heq, -⟩ := h
  exact Log.mem_locks_iff.mpr ⟨d, by simp [heq]⟩

theorem not_holds_nil : ¬ F.Holds [] r := by
  rintro ⟨later, d, earlier, heq, -⟩
  cases later <;> cases heq

theorem State.start (h : σ.sessions = []) : F.State σ := by
  intro i s r hs
  rw [h] at hs
  cases hs

/-- The step lemma for facts that are known of a log from what was seen under its locks: no
commit without the lock undoes the fact. -/
theorem moves_of {Known : Log S → ρ → Prop} (hnil : ∀ r, ¬ Known [] r)
    (hcons : ∀ o log r, Known (o :: log) r →
      (∃ d, o.data = some d ∧ F.clean log r ∧ F.fact d r) ∨ Known log r)
    (hlocks : ∀ log r, Known log r → F.lock r ∈ log.locks) (hapart : σ.LocksApart)
    (hseen : ∀ (i : Nat) (s : Session S C α) (r : ρ), σ.sessions[i]? = some s →
      s.status = .opened → F.clean s.log r → F.fact (s.log.view σ.data) r → F.fact σ.data r)
    (hkeep : ∀ (i : Nat) (s : Session S C α) (r : ρ), Commits σ σ' i s →
      F.lock r ∉ s.log.locks → F.fact σ.data r → F.fact σ'.data r)
    (h : ∀ (i : Nat) (s : Session S C α) (r : ρ), σ.sessions[i]? = some s → s.status = .opened →
      Known s.log r → F.fact σ.data r) (hmove : Move env program σ σ') :
    ∀ (i : Nat) (s : Session S C α) (r : ρ), σ'.sessions[i]? = some s → s.status = .opened →
      Known s.log r → F.fact σ'.data r := by
  intro j s' r hs' hopen hknown
  rcases hmove.data with hdata | ⟨i, s, hcommits⟩
  · rw [hdata]
    rcases hmove.opened hs' hopen with hold | ⟨-, call, rfl⟩ | ⟨-, s, o, rest, hs, ho, hobs, rfl⟩
    · exact h j s' r hold hopen hknown
    · exact (hnil r hknown).elim
    · rcases hcons o s.log r hknown with ⟨d, hd, hclean, hfact⟩ | hold
      · rw [hobs.data_eq hd] at hfact
        exact hseen j s r hs ho hclean hfact
      · exact h j s r hs ho hold
  · obtain ⟨hji, hold⟩ := hcommits.other hs' hopen
    refine hkeep i s r hcommits (fun hlock => ?_) (h j s' r hold hopen hknown)
    exact hapart i j s s' (fun hij => hji hij.symm) hcommits.session hold hcommits.opened hopen _
      hlock (hlocks _ r hknown)

theorem State.moves (hapart : σ.LocksApart)
    (hseen : ∀ (i : Nat) (s : Session S C α) (r : ρ), σ.sessions[i]? = some s →
      s.status = .opened → F.clean s.log r → F.fact (s.log.view σ.data) r → F.fact σ.data r)
    (hkeep : ∀ (i : Nat) (s : Session S C α) (r : ρ), Commits σ σ' i s →
      F.lock r ∉ s.log.locks → F.fact σ.data r → F.fact σ'.data r)
    (h : F.State σ) (hmove : Move env program σ σ') : F.State σ' := by
  refine moves_of (fun _ => not_holds_nil) (fun o log r hholds => ?_) (fun _ _ => Holds.mem_locks)
    hapart hseen hkeep h hmove
  refine hholds.cases.imp_left fun hlocked => ?_
  obtain ⟨d, rfl, hfact⟩ := hlocked
  exact ⟨d, rfl, hfact⟩

/-! A statement may see a fact with the lock already in hand. -/

/-- The fact was seen while its lock was held, from a log that did not make it. -/
def SeenUnder (F : LockFacts S ρ) (log : Log S) (r : ρ) : Prop :=
  ∃ later o earlier d, log = later ++ o :: earlier ∧ o.data = some d ∧
    F.lock r ∈ Log.locks (o :: earlier) ∧ F.clean earlier r ∧ F.fact d r

def UnderState (F : LockFacts S ρ) (σ : System S C α) : Prop :=
  ∀ (i : Nat) (s : Session S C α) (r : ρ), σ.sessions[i]? = some s → s.status = .opened →
    F.SeenUnder s.log r → F.fact σ.data r

theorem SeenUnder.keep (h : F.SeenUnder log r) (o : Obs S) : F.SeenUnder (o :: log) r := by
  obtain ⟨later, o', earlier, d, heq, hseen⟩ := h
  exact ⟨o :: later, o', earlier, d, by rw [heq]; rfl, hseen⟩

theorem SeenUnder.now {d : S.Data} (hd : o.data = some d) (hlock : F.lock r ∈ log.locks)
    (hclean : F.clean log r) (hfact : F.fact d r) : F.SeenUnder (o :: log) r := by
  refine ⟨[], o, log, d, rfl, hd, ?_, hclean, hfact⟩
  obtain ⟨d', hlocked⟩ := Log.mem_locks_iff.mp hlock
  exact Log.mem_locks_iff.mpr ⟨d', List.mem_cons_of_mem _ hlocked⟩

theorem SeenUnder.cases (h : F.SeenUnder (o :: log) r) :
    (∃ d, o.data = some d ∧ F.clean log r ∧ F.fact d r) ∨ F.SeenUnder log r := by
  obtain ⟨later, o', earlier, d, heq, hd, hlock, hclean, hfact⟩ := h
  cases later with
  | nil =>
    obtain ⟨rfl, rfl⟩ := List.cons.inj heq
    exact .inl ⟨d, hd, hclean, hfact⟩
  | cons o'' later =>
    obtain ⟨-, rfl⟩ := List.cons.inj heq
    exact .inr ⟨later, o', earlier, d, rfl, hd, hlock, hclean, hfact⟩

theorem SeenUnder.mem_locks (h : F.SeenUnder log r) : F.lock r ∈ log.locks := by
  obtain ⟨later, o, earlier, d, rfl, -, hlock, -⟩ := h
  obtain ⟨d', hlocked⟩ := Log.mem_locks_iff.mp hlock
  exact Log.mem_locks_iff.mpr ⟨d', List.mem_append_right _ hlocked⟩

theorem not_seenUnder_nil : ¬ F.SeenUnder [] r := by
  rintro ⟨later, o, earlier, d, heq, -⟩
  cases later <;> cases heq

theorem UnderState.start (h : σ.sessions = []) : F.UnderState σ := by
  intro i s r hs
  rw [h] at hs
  cases hs

theorem UnderState.moves (hapart : σ.LocksApart)
    (hseen : ∀ (i : Nat) (s : Session S C α) (r : ρ), σ.sessions[i]? = some s →
      s.status = .opened → F.clean s.log r → F.fact (s.log.view σ.data) r → F.fact σ.data r)
    (hkeep : ∀ (i : Nat) (s : Session S C α) (r : ρ), Commits σ σ' i s →
      F.lock r ∉ s.log.locks → F.fact σ.data r → F.fact σ'.data r)
    (h : F.UnderState σ) (hmove : Move env program σ σ') : F.UnderState σ' :=
  moves_of (fun _ => not_seenUnder_nil) (fun _ _ _ => SeenUnder.cases)
    (fun _ _ => SeenUnder.mem_locks) hapart hseen hkeep h hmove

end LockFacts

end Facts

/-! ## Tokens

A token is free or not according to the rows, and free until somebody commits over it
under its lock. Whoever takes a token only where it was free under its lock is the only
one to take it. -/

section Tokens
variable {ρ : Type}

structure Tokens (S : Signature) (C ρ : Type) where
  lock : ρ → S.Lock
  free : S.Data → ρ → Prop
  takes : C → Log S → ρ → Prop

namespace Tokens

def facts (T : Tokens S C ρ) : LockFacts S ρ := ⟨T.lock, T.free, fun _ _ => True⟩

/-- What the writes of a session do to the tokens. -/
structure Sound (T : Tokens S C ρ) (P Q : C → Log S → Prop) : Prop where
  stays : ∀ c log d r, P c log → T.free (log.view d) r → T.free d r
  keeps : ∀ c log d r, P c log → T.lock r ∉ log.locks → T.free d r → T.free (log.view d) r
  taken : ∀ c log d r, P c log → Q c log → T.takes c log r → ¬ T.free (log.view d) r

structure State (T : Tokens S C ρ) (σ : System S C α) : Prop where
  waiting : T.facts.State σ
  taken : ∀ (i : Nat) (s : Session S C α) (r : ρ), σ.sessions[i]? = some s →
    s.status = .committed → T.takes s.call s.log r → ¬ T.free σ.data r
  once : ∀ (i j : Nat) (s s' : Session S C α) (r : ρ), σ.sessions[i]? = some s →
    σ.sessions[j]? = some s' → s.status = .committed → s'.status = .committed →
    T.takes s.call s.log r → T.takes s'.call s'.log r → i = j

variable {T : Tokens S C ρ} {fits : Log S → Obs S → Prop} {P Q : C → Log S → Prop}
  {σ σ' : System S C α}

/-- A token that was free under its lock. -/
theorem holds_of_mem {log : Log S} {r : ρ} {d : S.Data} (h : .locked (T.lock r) d ∈ log)
    (hfree : T.free d r) : T.facts.Holds log r := by
  obtain ⟨later, earlier, heq⟩ := List.append_of_mem h
  exact ⟨later, d, earlier, heq, trivial, hfree⟩

theorem State.start (h : σ.sessions = []) : T.State σ := by
  have hnone : ∀ (i : Nat) (s : Session S C α), σ.sessions[i]? ≠ some s := by
    intro i s
    rw [h]
    nofun
  exact ⟨.start h, fun i s r hs => (hnone i s hs).elim, fun i j s s' r hs => (hnone i s hs).elim⟩

/-- A token that is free after a step was free before it. -/
theorem Sound.free_before (hT : T.Sound P Q) (hord : σ.Orderly fits P Q)
    (hmove : Move env program σ σ') {r : ρ} (hfree : T.free σ'.data r) : T.free σ.data r := by
  rcases hmove.data with hdata | ⟨i, s, hcommits⟩
  · rwa [hdata] at hfree
  · rw [hcommits.data] at hfree
    exact hT.stays s.call s.log σ.data r (hord.log hcommits.session) hfree

/-- The step lemma: commits that hold what they take keep every token with one taker. -/
theorem State.moves (hT : T.Sound P Q) (hord : σ.Orderly fits P Q)
    (hcommits : ∀ (i : Nat) (s : Session S C α) (r : ρ), Commits σ σ' i s →
      T.takes s.call s.log r → T.facts.Holds s.log r) (h : T.State σ)
    (hmove : Move env program σ σ') : T.State σ' := by
  -- Whoever commits now takes what was free until now.
  have hnow : ∀ (i : Nat) (s : Session S C α) (r : ρ), Commits σ σ' i s →
      T.takes s.call s.log r → T.free σ.data r ∧ ¬ T.free σ'.data r := by
    intro i s r hc htakes
    refine ⟨h.waiting i s r hc.session hc.opened (hcommits i s r hc htakes), ?_⟩
    obtain ⟨a, hrest⟩ := hc.rest
    rw [hc.data]
    exact hT.taken s.call s.log σ.data r (hord.log hc.session) (hord.result hc.session hrest) htakes
  have htaken : ∀ (j : Nat) (s' : Session S C α) (r : ρ), σ'.sessions[j]? = some s' →
      s'.status = .committed → T.takes s'.call s'.log r →
      (σ.sessions[j]? = some s' ∧ ¬ T.free σ.data r) ∨
        ∃ s, Commits σ σ' j s ∧ T.takes s.call s.log r := by
    intro j s' r hs' hstatus htakes
    rcases hmove.committed hs' hstatus with hold | ⟨s, hc, rfl⟩
    · exact .inl ⟨hold, h.taken j s' r hold hstatus htakes⟩
    · exact .inr ⟨s, hc, htakes⟩
  refine ⟨h.waiting.moves hord.apart ?_ ?_ hmove, ?_, ?_⟩
  · intro i s r hs _ _ hfree
    exact hT.stays s.call s.log σ.data r (hord.log hs) hfree
  · intro i s r hc hlock hfree
    have hkept := hT.keeps s.call s.log σ.data r (hord.log hc.session) hlock hfree
    rwa [← hc.data] at hkept
  · intro j s' r hs' hstatus htakes
    rcases htaken j s' r hs' hstatus htakes with ⟨-, hgone⟩ | ⟨s, hc, htakes⟩
    · exact fun hfree => hgone (hT.free_before hord hmove hfree)
    · exact (hnow j s r hc htakes).2
  · intro i j s s' r hs hs' hstatus hstatus' htakes htakes'
    rcases htaken i s r hs hstatus htakes with ⟨hold, hgone⟩ | ⟨s₀, hc, htakes₀⟩ <;>
      rcases htaken j s' r hs' hstatus' htakes' with ⟨hold', hgone'⟩ | ⟨s₁, hc', htakes₁⟩
    · exact h.once i j s s' r hold hold' hstatus hstatus' htakes htakes'
    · exact (hgone (hnow j s₁ r hc' htakes₁).1).elim
    · exact (hgone' (hnow i s₀ r hc htakes₀).1).elim
    · exact hc.unique hc'

end Tokens

end Tokens

end Runs

end ReadCommitted
