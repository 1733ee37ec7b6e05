import NoisyShuttle.Lib.Run
import NoisyShuttle.Shuttle.SessionLoop

/-!
# The session pool

`SessionPool` with the calls in progress on it. A step of a call is one of its lock sections, or what
it does between two of them.
-/

namespace NoisyShuttle.Shuttle
open Tunnel (IoError)

structure PoolConfig extends LoopConfig where
  maxIdle : Nat

structure ReuseConfig extends PoolConfig where
  keepaliveInterval : Nat
  keepaliveTimeout : Nat
  jitterPercent : UInt8

/-- `second` is the number of units of time in a second. -/
def ReuseConfig.new (second maxIdle maxRequests maxAgeSecs idleTimeoutSecs keepaliveIntervalSecs
    keepaliveTimeoutSecs : Nat) (jitterPercent : UInt8) (_keepaliveFlagWasSet : Bool) : Except String ReuseConfig :=
  if maxIdle = 0 then .error "reuse-max-idle must be greater than 0"
  else if maxRequests = 0 then .error "reuse-max-requests must be greater than 0"
  else if maxAgeSecs = 0 then .error "reuse-max-age must be greater than 0"
  else if idleTimeoutSecs = 0 then .error "reuse-idle-timeout must be greater than 0"
  else if keepaliveIntervalSecs = 0 then .error "keepalive-interval must be greater than 0"
  else if keepaliveTimeoutSecs = 0 then .error "keepalive-timeout must be greater than 0"
  else if keepaliveTimeoutSecs ≥ keepaliveIntervalSecs then
    .error "keepalive-timeout must be less than keepalive-interval"
  else if idleTimeoutSecs ≥ maxAgeSecs then .error "reuse-idle-timeout must be less than reuse-max-age"
  else if jitterPercent > 100 then .error "reuse-jitter-percent must be between 0 and 100"
  else
    .ok ⟨⟨⟨maxRequests, maxAgeSecs * second, idleTimeoutSecs * second⟩, maxIdle⟩, keepaliveIntervalSecs * second,
      keepaliveTimeoutSecs * second, jitterPercent⟩

structure PooledSession (S : Type) where
  stream : S
  useCount : Nat
  createdAt : Nat
  lastUsed : Nat
  reuseCount : Nat
  deriving DecidableEq

/-- `idle` from front to back. -/
structure PoolInner (S : Type) where
  idle : List (PooledSession S)
  checkedOut : Nat
  closed : Bool
  checkoutCount : Nat
  reuseCount : Nat
  deriving DecidableEq

inductive PoolError where
  | message (text : String)
  | connect (context : String) (err : IoError)
  deriving DecidableEq

structure SessionHandle (S : Type) where
  session : Option (PooledSession S)
  bytesRelayed : Bool
  retryUsed : Bool
  deriving DecidableEq

variable {S : Type}

def isReusable (config : PoolConfig) (session : PooledSession S) (now : Nat) : Bool :=
  -- `duration_since` is zero for a later instant, as is subtraction
  session.useCount < config.maxRequests ∧ now - session.createdAt < config.maxAge ∧
    now - session.lastUsed < config.idleTimeout

def popReusable (config : PoolConfig) (now : Nat) :
    List (PooledSession S) → Option (PooledSession S × List (PooledSession S))
  -- from the back: the first that is reusable, and those in front of it
  | [] => none
  | session :: rest => if isReusable config session now then some (session, rest) else popReusable config now rest

namespace PoolInner

/-- The first lock section of `checkout` in an open pool. -/
def checkout (config : PoolConfig) (now : Nat) (inner : PoolInner S) : Option (PooledSession S) × PoolInner S :=
  match popReusable config now inner.idle.reverse with
  | some (session, rest) =>
    (some { session with
        useCount := session.useCount + 1, reuseCount := session.reuseCount + 1, lastUsed := now },
      { inner with
        idle := rest.reverse, checkedOut := inner.checkedOut + 1, checkoutCount := inner.checkoutCount + 1,
        reuseCount := inner.reuseCount + 1 })
  | none => (none, { inner with idle := [] })

def register (inner : PoolInner S) : PoolInner S :=
  { inner with checkedOut := inner.checkedOut + 1, checkoutCount := inner.checkoutCount + 1 }

def release (inner : PoolInner S) : Bool × PoolInner S :=
  if inner.checkedOut = 0 then (false, inner) else (true, { inner with checkedOut := inner.checkedOut - 1 })

def keep (config : PoolConfig) (shutdown : Bool) (session : PooledSession S) (healthy : Bool) (now : Nat)
    (inner : PoolInner S) : PoolInner S :=
  if ¬ healthy ∨ ¬ isReusable config session now then inner
  else if inner.closed ∨ shutdown then inner
  else if inner.idle.length ≥ config.maxIdle then
    if inner.checkedOut > 0 then inner else { inner with idle := inner.idle.tail ++ [session] }
  else { inner with idle := inner.idle ++ [session] }

def close (inner : PoolInner S) : PoolInner S := { inner with closed := true, idle := [] }

theorem release_closed (inner : PoolInner S) : inner.release.2.closed = inner.closed := by
  unfold release
  split <;> rfl

theorem keep_closed (config : PoolConfig) (shutdown : Bool) (session : PooledSession S) (healthy : Bool) (now : Nat)
    (inner : PoolInner S) : (inner.keep config shutdown session healthy now).closed = inner.closed := by
  simp only [keep]
  split_ifs <;> rfl

end PoolInner

/-- Whom a `checkout` is for: its direct caller, `checkout_with_retry` or `retry_after_protocol_error`. -/
inductive Caller (S : Type) where
  | direct
  | withRetry
  | retry (handle : SessionHandle S)
  deriving DecidableEq

/-- A caller with a call in progress, or with a session. `missed` is a `checkout` before the connection;
`unregistered` is `close_all` between the lock and the waiter it creates. -/
inductive Task (S : Type) where
  | entering (caller : Caller S)
  | locking (caller : Caller S) (now : Nat)
  | missed (caller : Caller S)
  | connecting (caller : Caller S) (now : Nat)
  | registering (caller : Caller S) (session : PooledSession S)
  | holding (session : PooledSession S)
  | handling (handle : SessionHandle S)
  | returning (session : PooledSession S) (healthy : Bool) (now : Nat)
  | discarding (handle : SessionHandle S)
  | closing
  | checking
  | unregistered
  | parked (woken : Bool)
  | finished (result : Except PoolError Unit)
  deriving DecidableEq

inductive TaskEvent (S : Type) where
  | enter (now : Nat)
  | lock
  | connect (now : Nat)
  | connected (result : Except IoError S)
  | returnSession (healthy : Bool) (now : Nat)
  | markBytesRelayed
  | intoSession
  | retryAfterProtocolError (error : PoolError)
  | notified
  | wake
  | drainTimeout
  deriving DecidableEq

structure Outcome (S : Type) where
  inner : PoolInner S
  task : Task S
  notify : Bool

def Caller.hand (session : PooledSession S) : Caller S → Task S
  | .direct => .holding session
  | .withRetry => .handling ⟨some session, false, false⟩
  | .retry handle => .handling { handle with session := some session, retryUsed := true }

namespace Task

def fail (text : String) : Task S := .finished (.error (.message text))

def lockSection (config : PoolConfig) (shutdown : Bool) (inner : PoolInner S) : Task S → Option (Outcome S)
  | .locking caller now =>
    if inner.closed then some ⟨inner, fail "session pool is closed", false⟩
    else
      match inner.checkout config now with
      | (some session, inner) => some ⟨inner, caller.hand session, false⟩
      | (none, inner) => some ⟨inner, .missed caller, false⟩
  | .registering caller session =>
    if inner.closed ∨ shutdown then
      some ⟨inner, fail "session pool closed while checkout was connecting", false⟩
    else some ⟨inner.register, caller.hand session, false⟩
  | .returning session healthy now =>
    some ⟨inner.release.2.keep config shutdown session healthy now, .finished (.ok ()), inner.release.1⟩
  | .discarding handle => some ⟨inner.release.2, .entering (.retry handle), inner.release.1⟩
  | .closing => some ⟨inner.close, if inner.checkedOut = 0 then .finished (.ok ()) else .checking, false⟩
  | .checking => some ⟨inner, if inner.checkedOut = 0 then .finished (.ok ()) else .unregistered, false⟩
  | _ => none

def unlocked (shutdown : Bool) : Task S → TaskEvent S → Option (Task S)
  | .entering caller, .enter now =>
    if shutdown then some (fail "session pool is shutting down") else some (.locking caller now)
  | .missed caller, .connect now => some (.connecting caller now)
  | .connecting caller now, .connected (.ok stream) => some (.registering caller ⟨stream, 1, now, now, 0⟩)
  | .connecting _ _, .connected (.error err) =>
    some (.finished (.error (.connect "failed to create reusable session" err)))
  | .holding session, .returnSession healthy now => some (.returning { session with lastUsed := now } healthy now)
  | .handling handle, .markBytesRelayed => some (.handling { handle with bytesRelayed := true })
  | .handling handle, .intoSession =>
    match handle.session with
    | some session => some (.holding session)
    | none => some (fail "session handle has no active session")
  | .handling handle, .retryAfterProtocolError error =>
    if handle.bytesRelayed ∨ handle.retryUsed then some (.finished (.error error))
    else some (.discarding { handle with session := none })
  | .unregistered, .notified => some (.parked false)
  | .parked true, .wake => some .checking
  | .checking, .drainTimeout | .unregistered, .drainTimeout | .parked _, .drainTimeout => some (.finished (.ok ()))
  | _, _ => none

def step (config : PoolConfig) (shutdown : Bool) (inner : PoolInner S) (task : Task S) :
    TaskEvent S → Option (Outcome S)
  | .lock => task.lockSection config shutdown inner
  | event => (task.unlocked shutdown event).map fun next => ⟨inner, next, false⟩

/-- The lock sections one by one. -/
inductive LockStep (config : PoolConfig) (shutdown : Bool) (inner : PoolInner S) : Task S → Outcome S → Prop
  | refused {caller now} (closed : inner.closed = true) :
    LockStep config shutdown inner (.locking caller now) ⟨inner, fail "session pool is closed", false⟩
  | hit {caller now session after} (stays : inner.closed = false)
    (taken : inner.checkout config now = (some session, after)) :
    LockStep config shutdown inner (.locking caller now) ⟨after, caller.hand session, false⟩
  | miss {caller now after} (stays : inner.closed = false) (taken : inner.checkout config now = (none, after)) :
    LockStep config shutdown inner (.locking caller now) ⟨after, .missed caller, false⟩
  | overtaken {caller session} (closed : inner.closed = true ∨ shutdown = true) :
    LockStep config shutdown inner (.registering caller session)
      ⟨inner, fail "session pool closed while checkout was connecting", false⟩
  | registered {caller session} (stays : inner.closed = false) :
    LockStep config shutdown inner (.registering caller session) ⟨inner.register, caller.hand session, false⟩
  | returned {session healthy now} :
    LockStep config shutdown inner (.returning session healthy now)
      ⟨inner.release.2.keep config shutdown session healthy now, .finished (.ok ()), inner.release.1⟩
  | discarded {handle} :
    LockStep config shutdown inner (.discarding handle)
      ⟨inner.release.2, .entering (.retry handle), inner.release.1⟩
  | closed {next} (drains : next = if inner.checkedOut = 0 then .finished (.ok ()) else .checking) :
    LockStep config shutdown inner .closing ⟨inner.close, next, false⟩
  | drained (none : inner.checkedOut = 0) :
    LockStep config shutdown inner .checking ⟨inner, .finished (.ok ()), false⟩
  | awaited (some : 0 < inner.checkedOut) :
    LockStep config shutdown inner .checking ⟨inner, .unregistered, false⟩

theorem lockSection_lockStep {config : PoolConfig} {shutdown : Bool} {inner : PoolInner S} {task : Task S}
    {outcome : Outcome S} (h : task.lockSection config shutdown inner = some outcome) :
    LockStep config shutdown inner task outcome := by
  cases task with
  | locking caller now =>
    simp only [lockSection] at h
    split at h
    · next closed =>
      cases h
      exact .refused closed
    · next stays =>
      split at h
      · next session after taken =>
        cases h
        exact .hit (Bool.eq_false_iff.mpr stays) taken
      · next after taken =>
        cases h
        exact .miss (Bool.eq_false_iff.mpr stays) taken
  | registering caller session =>
    simp only [lockSection] at h
    split at h
    · next closed =>
      cases h
      exact .overtaken closed
    · next stays =>
      cases h
      exact .registered (Bool.eq_false_iff.mpr fun closed => stays (Or.inl closed))
  | returning session healthy now =>
    cases h
    exact .returned
  | discarding handle =>
    cases h
    exact .discarded
  | closing =>
    cases h
    exact .closed rfl
  | checking =>
    simp only [lockSection] at h
    split at h
    · next none =>
      cases h
      exact .drained none
    · next some =>
      cases h
      exact .awaited (Nat.pos_of_ne_zero some)
  | _ => cases h

/-- `close_all` after its first lock section. -/
def draining : Task S → Bool
  | .checking | .unregistered | .parked _ => true
  | _ => false

/-- The steps outside the lock one by one. -/
inductive UnlockedStep (shutdown : Bool) : Task S → TaskEvent S → Task S → Prop
  | turnedAway {caller now} (down : shutdown = true) :
    UnlockedStep shutdown (.entering caller) (.enter now) (fail "session pool is shutting down")
  | entered {caller now} : UnlockedStep shutdown (.entering caller) (.enter now) (.locking caller now)
  | connects {caller now} : UnlockedStep shutdown (.missed caller) (.connect now) (.connecting caller now)
  | connected {caller now stream} :
    UnlockedStep shutdown (.connecting caller now) (.connected (.ok stream))
      (.registering caller ⟨stream, 1, now, now, 0⟩)
  | unconnected {caller now err} :
    UnlockedStep shutdown (.connecting caller now) (.connected (.error err))
      (.finished (.error (.connect "failed to create reusable session" err)))
  | returns {session healthy now} :
    UnlockedStep shutdown (.holding session) (.returnSession healthy now)
      (.returning { session with lastUsed := now } healthy now)
  | marked {handle} :
    UnlockedStep shutdown (.handling handle) .markBytesRelayed (.handling { handle with bytesRelayed := true })
  | taken {handle session} (has : handle.session = some session) :
    UnlockedStep shutdown (.handling handle) .intoSession (.holding session)
  | void {handle} (has : handle.session = none) :
    UnlockedStep shutdown (.handling handle) .intoSession (fail "session handle has no active session")
  | gaveUp {handle error} (flags : (handle.bytesRelayed || handle.retryUsed) = true) :
    UnlockedStep shutdown (.handling handle) (.retryAfterProtocolError error) (.finished (.error error))
  | retries {handle error} (flags : (handle.bytesRelayed || handle.retryUsed) = false) :
    UnlockedStep shutdown (.handling handle) (.retryAfterProtocolError error)
      (.discarding { handle with session := none })
  | watches : UnlockedStep shutdown .unregistered .notified (.parked false)
  | wakes : UnlockedStep shutdown (.parked true) .wake .checking
  | timedOut {task} (drains : draining task = true) : UnlockedStep shutdown task .drainTimeout (.finished (.ok ()))

theorem unlocked_unlockedStep {shutdown : Bool} {task next : Task S} {event : TaskEvent S}
    (h : task.unlocked shutdown event = some next) : UnlockedStep shutdown task event next := by
  cases task with
  | entering caller =>
    cases event with
    | enter now =>
      simp only [unlocked] at h
      split at h
      · next down =>
        cases h
        exact .turnedAway down
      · cases h
        exact .entered
    | _ => cases h
  | missed caller =>
    cases event with
    | connect now =>
      cases h
      exact .connects
    | _ => cases h
  | connecting caller now =>
    cases event with
    | connected result =>
      cases result with
      | ok stream =>
        cases h
        exact .connected
      | error err =>
        cases h
        exact .unconnected
    | _ => cases h
  | holding session =>
    cases event with
    | returnSession healthy now =>
      cases h
      exact .returns
    | _ => cases h
  | handling handle =>
    cases event with
    | markBytesRelayed =>
      cases h
      exact .marked
    | intoSession =>
      simp only [unlocked] at h
      split at h
      · next session has =>
        cases h
        exact .taken has
      · next has =>
        cases h
        exact .void has
    | retryAfterProtocolError error =>
      simp only [unlocked] at h
      split at h
      · next flags =>
        cases h
        exact .gaveUp (Bool.or_eq_true_iff.mpr flags)
      · next flags =>
        cases h
        exact .retries (Bool.eq_false_iff.mpr (mt Bool.or_eq_true_iff.mp flags))
    | _ => cases h
  | checking =>
    cases event with
    | drainTimeout =>
      cases h
      exact .timedOut rfl
    | _ => cases h
  | unregistered =>
    cases event with
    | notified =>
      cases h
      exact .watches
    | drainTimeout =>
      cases h
      exact .timedOut rfl
    | _ => cases h
  | parked woken =>
    cases event with
    | wake =>
      cases woken with
      | true =>
        cases h
        exact .wakes
      | false => cases h
    | drainTimeout =>
      have given : some (.finished (.ok ())) = some next := by
        cases woken <;> exact h
      cases given
      exact .timedOut rfl
    | _ => cases woken <;> cases h
  | _ => cases h

theorem step_cases {config : PoolConfig} {shutdown : Bool} {inner : PoolInner S} {task : Task S}
    {event : TaskEvent S} {outcome : Outcome S} (h : task.step config shutdown inner event = some outcome) :
    (event = .lock ∧ LockStep config shutdown inner task outcome) ∨
      ∃ next, UnlockedStep shutdown task event next ∧ outcome = ⟨inner, next, false⟩ := by
  cases event with
  | lock => exact Or.inl ⟨rfl, lockSection_lockStep h⟩
  | _ =>
    obtain ⟨next, stepped, rfl⟩ := Option.map_eq_some_iff.mp h
    exact Or.inr ⟨next, unlocked_unlockedStep stepped, rfl⟩

def notify : Task S → Task S
  | .parked _ => .parked true
  | task => task

/-- A caller that has a session, directly or in a handle, and no call in progress. -/
def held : Task S → Bool
  | .holding _ => true
  | .handling handle => handle.session.isSome
  | _ => false

def inProgress : Task S → Bool
  | .holding _ | .handling _ | .finished _ => false
  | _ => true

end Task

structure Pool (S : Type) where
  inner : PoolInner S
  shutdown : Bool
  tasks : List (Task S)
  deriving DecidableEq

inductive PoolEvent (S : Type) where
  | sendShutdown (value : Bool)
  | checkout
  | checkoutWithRetry
  | closeAll
  | task (index : Nat) (event : TaskEvent S)
  deriving DecidableEq

namespace Pool

def call (task : Task S) (s : Pool S) : Pool S := { s with tasks := s.tasks ++ [task] }

def conclude (index : Nat) (outcome : Outcome S) (s : Pool S) : Pool S :=
  { s with
    inner := outcome.inner
    tasks := (if outcome.notify then s.tasks.map Task.notify else s.tasks).set index outcome.task }

def step (config : PoolConfig) (s : Pool S) : PoolEvent S → Option (Pool S)
  | .sendShutdown value => some { s with shutdown := value }
  | .checkout => some (s.call (.entering .direct))
  | .checkoutWithRetry => some (s.call (.entering .withRetry))
  | .closeAll => some (s.call .closing)
  | .task index event =>
    match s.tasks[index]? with
    | some task => (task.step config s.shutdown s.inner event).map fun outcome => s.conclude index outcome
    | none => none

def new (shutdown : Bool) : Pool S := ⟨⟨[], 0, false, 0, 0⟩, shutdown, []⟩

def held (s : Pool S) : Nat := s.tasks.countP Task.held

def quiescent (s : Pool S) : Bool := s.tasks.all fun task => !task.inProgress

theorem step_task {config : PoolConfig} {s next : Pool S} {i : Nat} {event : TaskEvent S}
    (h : s.step config (.task i event) = some next) :
    ∃ task outcome, s.tasks[i]? = some task ∧ task.step config s.shutdown s.inner event = some outcome ∧
      next = s.conclude i outcome := by
  simp only [step] at h
  split at h
  · next task present =>
    obtain ⟨outcome, stepped, rfl⟩ := Option.map_eq_some_iff.mp h
    exact ⟨task, outcome, present, stepped, rfl⟩
  · cases h

/-- Only a lock section changes what the lock protects. -/
theorem step_inner {config : PoolConfig} {s next : Pool S} {event : PoolEvent S}
    (h : s.step config event = some next) :
    next.inner = s.inner ∨ ∃ task outcome, Task.LockStep config s.shutdown s.inner task outcome ∧
      next.inner = outcome.inner := by
  cases event with
  | task i event =>
    obtain ⟨task, outcome, -, stepped, rfl⟩ := step_task h
    rcases Task.step_cases stepped with ⟨-, locked⟩ | ⟨later, -, rfl⟩
    · exact Or.inr ⟨task, outcome, locked, rfl⟩
    · exact Or.inl rfl
  | _ =>
    cases h
    exact Or.inl rfl

theorem getElem?_call {s : Pool S} {fresh task : Task S} {i : Nat} (h : (s.call fresh).tasks[i]? = some task) :
    s.tasks[i]? = some task ∨ task = fresh := by
  rw [call, List.getElem?_append] at h
  split at h
  · exact Or.inl h
  · right
    exact List.mem_singleton.mp (List.mem_of_getElem? h)

theorem getElem?_conclude {s : Pool S} {outcome : Outcome S} {task : Task S} {index i : Nat}
    (h : (s.conclude index outcome).tasks[i]? = some task) :
    (i = index ∧ task = outcome.task) ∨ i ≠ index ∧ ∃ before, s.tasks[i]? = some before ∧
      task = if outcome.notify then before.notify else before := by
  by_cases same : i = index
  · subst same
    left
    refine ⟨rfl, ?_⟩
    rw [conclude, List.getElem?_set_self'] at h
    obtain ⟨_, _, given⟩ := Option.map_eq_some_iff.mp h
    exact given.symm
  · right
    refine ⟨same, ?_⟩
    rw [conclude, List.getElem?_set_ne (Ne.symm same)] at h
    split at h
    · next notified =>
      rw [List.getElem?_map] at h
      obtain ⟨before, present, given⟩ := Option.map_eq_some_iff.mp h
      exact ⟨before, present, by rw [if_pos notified, given]⟩
    · next quiet => exact ⟨task, h, by rw [if_neg quiet]⟩

end Pool
end NoisyShuttle.Shuttle
