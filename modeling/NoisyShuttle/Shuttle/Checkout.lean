import NoisyShuttle.Lib.Output
import NoisyShuttle.Shuttle.Ownership

/-!
# What a checkout hands out

A checkout takes the idle session nearest the back that is still within the limits. Over a run each
connection is good for `max_requests` checkouts: what is left of them is its credit.
-/

namespace NoisyShuttle.Shuttle

variable {S : Type}

/-! ### Selection -/

section Selection
variable {config : PoolConfig} {now : Nat}

theorem popReusable_reusable {evicted rest : List (PooledSession S)} {session : PooledSession S}
    (expired : ∀ pooled ∈ evicted, isReusable config pooled now = false)
    (reusable : isReusable config session now = true) :
    popReusable config now (evicted ++ session :: rest) = some (session, rest) := by
  induction evicted with
  | nil => rw [List.nil_append, popReusable, if_pos reusable]
  | cons first later ih =>
    obtain ⟨gone, expired⟩ := List.forall_mem_cons.mp expired
    rw [List.cons_append, popReusable, if_neg (Bool.eq_false_iff.mp gone), ih expired]

theorem popReusable_eq_none_iff {sessions : List (PooledSession S)} :
    popReusable config now sessions = none ↔ ∀ pooled ∈ sessions, isReusable config pooled now = false := by
  induction sessions with
  | nil => exact ⟨fun _ => nofun, fun _ => rfl⟩
  | cons first later ih =>
    rw [popReusable, List.forall_mem_cons, ← ih]
    cases isReusable config first now with
    | true => exact ⟨nofun, nofun⟩
    | false => exact ⟨fun h => ⟨rfl, h⟩, fun h => h.2⟩

theorem PoolInner.checkout_reusable {inner : PoolInner S} {front back : List (PooledSession S)}
    {session : PooledSession S} (idle : inner.idle = front ++ session :: back)
    (reusable : isReusable config session now = true)
    (expired : ∀ pooled ∈ back, isReusable config pooled now = false) :
    inner.checkout config now =
      (some { session with
          useCount := session.useCount + 1, reuseCount := session.reuseCount + 1, lastUsed := now },
        { inner with
          idle := front, checkedOut := inner.checkedOut + 1, checkoutCount := inner.checkoutCount + 1,
          reuseCount := inner.reuseCount + 1 }) := by
  have reversed : inner.idle.reverse = back.reverse ++ session :: front.reverse := by
    rw [idle, List.reverse_append, List.reverse_cons, List.append_assoc]
    rfl
  have gone : ∀ pooled ∈ back.reverse, isReusable config pooled now = false :=
    fun pooled member => expired pooled (List.mem_reverse.mp member)
  rw [checkout, reversed, popReusable_reusable gone reusable]
  dsimp only
  rw [List.reverse_reverse]

theorem PoolInner.checkout_expired {inner : PoolInner S}
    (expired : ∀ pooled ∈ inner.idle, isReusable config pooled now = false) :
    inner.checkout config now = (none, { inner with idle := [] }) := by
  have gone : ∀ pooled ∈ inner.idle.reverse, isReusable config pooled now = false :=
    fun pooled member => expired pooled (List.mem_reverse.mp member)
  rw [checkout, popReusable_eq_none_iff.mpr gone]

theorem PoolInner.expired_of_miss {inner after : PoolInner S} (h : inner.checkout config now = (none, after)) :
    ∀ pooled ∈ inner.idle, isReusable config pooled now = false := by
  unfold checkout at h
  split at h
  · cases h
  · next missed =>
    intro pooled member
    exact popReusable_eq_none_iff.mp missed pooled (List.mem_reverse.mpr member)

end Selection

namespace Task
variable {config : PoolConfig} {shutdown : Bool} {inner after : PoolInner S} {now : Nat} {caller : Caller S}

theorem lockSection_hit {session : PooledSession S} (stays : inner.closed = false)
    (taken : inner.checkout config now = (some session, after)) :
    (Task.locking caller now).lockSection config shutdown inner = some ⟨after, caller.hand session, false⟩ := by
  rw [lockSection, if_neg (Bool.eq_false_iff.mp stays), taken]

theorem lockSection_miss (stays : inner.closed = false) (taken : inner.checkout config now = (none, after)) :
    (Task.locking caller now).lockSection config shutdown inner = some ⟨after, .missed caller, false⟩ := by
  rw [lockSection, if_neg (Bool.eq_false_iff.mp stays), taken]

end Task

namespace Pool
variable {config : PoolConfig} {s next : Pool S} {i now : Nat} {caller : Caller S}

theorem step_lock {task : Task S} (present : s.tasks[i]? = some task) {outcome : Outcome S}
    (locked : task.lockSection config s.shutdown s.inner = some outcome) :
    s.step config (.task i .lock) = some (s.conclude i outcome) ∧
      (s.conclude i outcome).tasks[i]? = some outcome.task := by
  refine ⟨?_, getElem?_conclude_self present⟩
  simp only [step, present, Task.step, locked, Option.map_some]

/-- The first lock section of a checkout that finds a reusable session. -/
theorem step_hit {front back : List (PooledSession S)} {session : PooledSession S} (stays : s.inner.closed = false)
    (present : s.tasks[i]? = some (.locking caller now)) (idle : s.inner.idle = front ++ session :: back)
    (reusable : isReusable config session now = true)
    (expired : ∀ pooled ∈ back, isReusable config pooled now = false) :
    ∃ next, s.step config (.task i .lock) = some next ∧ next.inner.idle = front ∧
      next.tasks[i]? = some (caller.hand { session with
        useCount := session.useCount + 1, reuseCount := session.reuseCount + 1, lastUsed := now }) := by
  have taken := PoolInner.checkout_reusable idle reusable expired
  obtain ⟨stepped, task⟩ := step_lock present (Task.lockSection_hit stays taken)
  exact ⟨_, stepped, rfl, task⟩

theorem step_miss (stays : s.inner.closed = false) (present : s.tasks[i]? = some (.locking caller now))
    (expired : ∀ pooled ∈ s.inner.idle, isReusable config pooled now = false) :
    ∃ next, s.step config (.task i .lock) = some next ∧ next.inner.idle = [] ∧
      next.tasks[i]? = some (.missed caller) := by
  have taken := PoolInner.checkout_expired expired
  obtain ⟨stepped, task⟩ := step_lock present (Task.lockSection_miss stays taken)
  exact ⟨_, stepped, rfl, task⟩

/-- The connector is called for a checkout that found nothing. -/
theorem missed_of_connect (h : s.step config (.task i (.connect now)) = some next) :
    ∃ caller, s.tasks[i]? = some (.missed caller) := by
  obtain ⟨task, outcome, present, stepped, -⟩ := step_task h
  rcases Task.step_cases stepped with ⟨event, -⟩ | ⟨later, unlocked, -⟩
  · cases event
  · cases unlocked with
    | connects => exact ⟨_, present⟩

theorem expired_of_missed {event : TaskEvent S} (h : s.step config (.task i event) = some next)
    (missed : next.tasks[i]? = some (.missed caller)) :
    ∃ now, s.tasks[i]? = some (.locking caller now) ∧
      ∀ pooled ∈ s.inner.idle, isReusable config pooled now = false := by
  obtain ⟨task, outcome, present, stepped, rfl⟩ := step_task h
  rw [getElem?_conclude_self present, Option.some.injEq] at missed
  rcases Task.step_cases stepped with ⟨-, locked⟩ | ⟨later, unlocked, rfl⟩
  · cases locked with
    | @miss caller now after stays taken =>
      cases missed
      exact ⟨now, present, PoolInner.expired_of_miss taken⟩
    | @hit caller now session after stays taken => cases caller <;> cases missed
    | @registered caller session stays => cases caller <;> cases missed
    | closed drains =>
      rw [drains] at missed
      split at missed <;> cases missed
    | _ => cases missed
  · cases unlocked <;> cases missed

end Pool

/-! ### Hand-outs -/

def Task.session : Task S → Option (PooledSession S)
  | .holding session => some session
  | .handling handle => handle.session
  | _ => none

/-- The session a checkout returns in this step. -/
def Pool.handsOut (config : PoolConfig) (s : Pool S) : PoolEvent S → Option (PooledSession S)
  | .task i event =>
    (s.tasks[i]?.filter Task.checkingOut).bind fun task =>
      (task.step config s.shutdown s.inner event).bind fun outcome => outcome.task.session
  | _ => none

def handOuts (config : PoolConfig) (shutdown : Bool) (events : List (PoolEvent S)) : List (PooledSession S) :=
  reports (Pool.step config) (Pool.handsOut config) (.new shutdown) events

section Credit
variable (config : PoolConfig)

def PooledSession.credit (session : PooledSession S) : Multiset S :=
  .replicate (config.maxRequests - session.useCount) session.stream

def SessionHandle.credit (handle : SessionHandle S) : Multiset S :=
  (handle.session.map (PooledSession.credit config)).getD 0

def Caller.credit : Caller S → Multiset S
  | .retry handle => handle.credit config
  | _ => 0

def PoolInner.credit (inner : PoolInner S) : Multiset S := (inner.idle.map (PooledSession.credit config)).sum

/-- A new session has yet to be handed out for the use it was created with. -/
def Task.credit : Task S → Multiset S
  | .entering caller | .locking caller _ | .missed caller | .connecting caller _ => caller.credit config
  | .registering caller session => caller.credit config + ({session.stream} + session.credit config)
  | .holding session | .returning session _ _ => session.credit config
  | .handling handle | .discarding handle => handle.credit config
  | _ => 0

def Pool.credit (s : Pool S) : Multiset S := s.inner.credit config + (s.tasks.map (Task.credit config)).sum

end Credit

def PooledSession.handedOut (session : Option (PooledSession S)) : Multiset S := (session.map (·.stream)).toList

section
variable {config : PoolConfig}

theorem PooledSession.credit_succ {session : PooledSession S} (fresh : session.useCount < config.maxRequests)
    (now : Nat) :
    session.credit config = {session.stream} +
      { session with
        useCount := session.useCount + 1, reuseCount := session.reuseCount + 1, lastUsed := now }.credit config := by
  have left : config.maxRequests - session.useCount = config.maxRequests - (session.useCount + 1) + 1 := by omega
  unfold credit
  dsimp only
  rw [left, Multiset.replicate_succ, Multiset.singleton_add]

theorem Caller.credit_hand (config : PoolConfig) (caller : Caller S) (session : PooledSession S) :
    (caller.hand session).credit config = session.credit config ∧ (caller.hand session).session = some session := by
  cases caller <;> exact ⟨rfl, rfl⟩

theorem Task.credit_notify (task : Task S) : task.notify.credit config = task.credit config := by
  cases task <;> rfl

namespace PoolInner
variable {inner after : PoolInner S} {session : PooledSession S} {now : Nat}

theorem credit_hit (h : inner.checkout config now = (some session, after)) :
    after.credit config + ({session.stream} + session.credit config) ≤ inner.credit config := by
  obtain ⟨pooled, evicted, idle, reusable, rfl, -⟩ := checkout_hit h
  have fresh : pooled.useCount < config.maxRequests := (of_decide_eq_true reusable).1
  unfold credit
  rw [idle, List.map_append, List.sum_append, List.map_cons, List.sum_cons,
    PooledSession.credit_succ fresh now]
  exact add_le_add (le_refl _) (Multiset.le_add_right _ _)

theorem credit_keep (config : PoolConfig) (shutdown : Bool) (session : PooledSession S) (healthy : Bool) (now : Nat)
    (inner : PoolInner S) :
    (inner.keep config shutdown session healthy now).credit config ≤
      inner.credit config + session.credit config := by
  unfold credit
  rcases keep_idle config shutdown session healthy now inner with same | ⟨-, ⟨-, pushed⟩ | ⟨-, replaced⟩⟩
  · rw [same]
    exact Multiset.le_add_right _ _
  · rw [pushed, List.map_append, List.sum_append, List.map_singleton, List.sum_singleton]
  · rw [replaced, List.map_append, List.sum_append, List.map_singleton, List.sum_singleton]
    apply add_le_add _ (le_refl _)
    cases inner.idle with
    | nil => exact le_refl _
    | cons first rest =>
      rw [List.map_cons, List.sum_cons]
      exact Multiset.le_add_left _ _

end PoolInner

namespace Task
variable {shutdown : Bool} {inner : PoolInner S} {task : Task S} {outcome : Outcome S}

/-- What a lock section hands out is paid for. -/
theorem lockStep_credit (h : LockStep config shutdown inner task outcome) :
    outcome.inner.credit config +
        (PooledSession.handedOut (if task.checkingOut then outcome.task.session else none) +
          outcome.task.credit config) ≤
      inner.credit config + task.credit config := by
  cases h with
  | @hit caller now session after stays taken =>
    obtain ⟨left, handed⟩ := caller.credit_hand config session
    rw [left, handed]
    exact le_trans (PoolInner.credit_hit taken) (Multiset.le_add_right _ _)
  | @registered caller session stays =>
    obtain ⟨left, handed⟩ := caller.credit_hand config session
    rw [left, handed]
    exact add_le_add (le_refl _) (Multiset.le_add_left _ _)
  | @miss caller now after stays taken =>
    obtain ⟨idle, -⟩ := PoolInner.checkout_miss taken
    have none : after.credit config = 0 := by
      rw [PoolInner.credit, idle]
      rfl
    rw [none]
    exact add_le_add (Multiset.zero_le _) (le_of_eq (zero_add _))
  | @returned session healthy now =>
    have kept := inner.release.2.credit_keep config shutdown session healthy now
    have same : inner.release.2.credit config = inner.credit config := by
      rw [PoolInner.credit, PoolInner.release_idle, PoolInner.credit]
    rw [same] at kept
    exact le_trans (le_of_eq (add_zero _)) kept
  | discarded =>
    apply add_le_add _ (le_of_eq (zero_add _))
    apply le_of_eq
    rw [PoolInner.credit, PoolInner.release_idle, PoolInner.credit]
  | @closed next drains =>
    have none : next.credit config = 0 := by
      rw [drains]
      split <;> rfl
    rw [none]
    exact add_le_add (Multiset.zero_le _) (Multiset.zero_le _)
  | _ => exact add_le_add (le_refl _) (Multiset.zero_le _)

theorem unlockedStep_credit {event : TaskEvent S} {next : Task S} (positive : 0 < config.maxRequests)
    (h : UnlockedStep shutdown task event next) :
    next.credit config ≤ task.credit config + config.maxRequests • event.connection.toList := by
  cases h with
  | @connected caller now stream =>
    have all : ({stream} : Multiset S) + .replicate (config.maxRequests - 1) stream =
        config.maxRequests • {stream} := by
      rw [Multiset.nsmul_singleton, Multiset.singleton_add, ← Multiset.replicate_succ, Nat.sub_add_cancel positive]
    exact add_le_add (le_refl _) (le_of_eq all)
  | @taken handle session has =>
    have one : handle.credit config = session.credit config := by
      rw [SessionHandle.credit, has]
      rfl
    exact le_trans (le_of_eq one.symm) (Multiset.le_add_right _ _)
  | entered => exact Multiset.le_add_right _ _
  | connects => exact Multiset.le_add_right _ _
  | returns => exact Multiset.le_add_right _ _
  | marked => exact Multiset.le_add_right _ _
  | _ => exact Multiset.zero_le _

/-- A checkout hands out within the lock only. -/
theorem unlockedStep_checkingOut {event : TaskEvent S} {next : Task S} (h : UnlockedStep shutdown task event next) :
    task.checkingOut = false := by
  cases h with
  | timedOut drains =>
    cases task with
    | locking caller now => cases drains
    | registering caller session => cases drains
    | _ => rfl
  | _ => rfl

end Task

namespace Pool

theorem credit_call {s : Pool S} {task : Task S} (fresh : task.credit config = 0) :
    (s.call task).credit config = s.credit config := by
  simp [credit, call, fresh]

theorem handsOut_task {s : Pool S} {i : Nat} {event : TaskEvent S} {task : Task S} {outcome : Outcome S}
    (present : s.tasks[i]? = some task) (stepped : task.step config s.shutdown s.inner event = some outcome) :
    s.handsOut config (.task i event) = if task.checkingOut then outcome.task.session else none := by
  unfold handsOut
  dsimp only
  rw [present, Option.filter_some]
  split
  · rw [Option.bind_some, stepped, Option.bind_some]
  · rfl

theorem step_credit (positive : 0 < config.maxRequests) {s next : Pool S} {event : PoolEvent S}
    (h : s.step config event = some next) :
    PooledSession.handedOut (s.handsOut config event) + next.credit config ≤
      s.credit config + config.maxRequests • event.connection.toList := by
  cases event with
  | sendShutdown value =>
    cases h
    exact le_trans (le_of_eq (zero_add _)) (Multiset.le_add_right _ _)
  | checkout =>
    cases h
    rw [credit_call rfl]
    exact le_trans (le_of_eq (zero_add _)) (Multiset.le_add_right _ _)
  | checkoutWithRetry =>
    cases h
    rw [credit_call rfl]
    exact le_trans (le_of_eq (zero_add _)) (Multiset.le_add_right _ _)
  | closeAll =>
    cases h
    rw [credit_call rfl]
    exact le_trans (le_of_eq (zero_add _)) (Multiset.le_add_right _ _)
  | task i event =>
    obtain ⟨task, outcome, present, stepped, rfl⟩ := step_task h
    obtain ⟨others, before, after⟩ := sum_conclude Task.credit_notify outcome present
    rw [handsOut_task present stepped, credit, credit, before, after]
    rcases Task.step_cases stepped with ⟨rfl, locked⟩ | ⟨later, unlocked, rfl⟩
    · have paid := Task.lockStep_credit locked
      generalize PooledSession.handedOut _ = handed at paid ⊢
      calc handed + (outcome.inner.credit config + (others + outcome.task.credit config))
          = others + (outcome.inner.credit config + (handed + outcome.task.credit config)) := by
            rw [add_left_comm, add_left_comm handed, add_left_comm]
        _ ≤ others + (s.inner.credit config + task.credit config) := add_le_add (le_refl _) paid
        _ = s.inner.credit config + (others + task.credit config) := add_left_comm _ _ _
        _ ≤ s.inner.credit config + (others + task.credit config) + _ := Multiset.le_add_right _ _
    · have paid := Task.unlockedStep_credit positive unlocked
      rw [Task.unlockedStep_checkingOut unlocked, if_neg Bool.false_ne_true]
      calc PooledSession.handedOut none + (s.inner.credit config + (others + later.credit config))
          = s.inner.credit config + (others + later.credit config) := zero_add _
        _ ≤ s.inner.credit config +
              (others + (task.credit config + config.maxRequests • event.connection.toList)) :=
            add_le_add (le_refl _) (add_le_add (le_refl _) paid)
        _ = s.inner.credit config + (others + task.credit config) +
              config.maxRequests • event.connection.toList := by
            rw [← add_assoc others, ← add_assoc]

end Pool

theorem handedOut_concat (reported : List (PooledSession S)) (session : Option (PooledSession S)) :
    (((reported ++ session.toList).map (·.stream) : List S) : Multiset S) =
      (reported.map (·.stream) : List S) + PooledSession.handedOut session := by
  rw [List.map_append, ← Multiset.coe_add]
  cases session <;> rfl

/-- What was handed out and what may still be, against what was connected. -/
theorem handOuts_credit (positive : 0 < config.maxRequests) {shutdown : Bool} {events : List (PoolEvent S)}
    {s : Pool S} (h : run (Pool.step config) (.new shutdown) events = some s) :
    ((handOuts config shutdown events).map (·.stream) : Multiset S) + s.credit config ≤
      config.maxRequests • (connections events : Multiset S) := by
  have preserve : ∀ (past : List (PoolEvent S)) (reported : List (PooledSession S)) (s : Pool S)
      (event : PoolEvent S) (next : Pool S),
      (reported.map (·.stream) : Multiset S) + s.credit config ≤
          config.maxRequests • (connections past : Multiset S) →
        s.step config event = some next →
          ((reported ++ (s.handsOut config event).toList).map (·.stream) : Multiset S) + next.credit config ≤
            config.maxRequests • (connections (past ++ [event]) : Multiset S) := by
    intro past reported s event next paid stepped
    have more := Pool.step_credit positive stepped
    rw [handedOut_concat, connections_concat, nsmul_add, add_assoc]
    apply le_trans (add_le_add (le_refl _) more)
    rw [← add_assoc]
    exact add_le_add paid (le_refl _)
  have start : (([] : List (PooledSession S)).map (·.stream) : Multiset S) +
      (Pool.new shutdown : Pool S).credit config ≤
        config.maxRequests • (connections ([] : List (PoolEvent S)) : Multiset S) := Multiset.zero_le _
  exact reports_invariant preserve start h

/-- A session handed out of the idle list was within its limits. -/
theorem Pool.handsOut_locking {s : Pool S} {i now : Nat} {caller : Caller S} {session : PooledSession S}
    (present : s.tasks[i]? = some (.locking caller now))
    (h : s.handsOut config (.task i .lock) = some session) :
    session.lastUsed = now ∧ now - session.createdAt < config.maxAge := by
  have out : (Task.locking caller now).checkingOut = true := rfl
  unfold handsOut at h
  dsimp only at h
  rw [present, Option.filter_some, if_pos out, Option.bind_some] at h
  obtain ⟨outcome, stepped, handed⟩ := Option.bind_eq_some_iff.mp h
  have locked : Task.LockStep config s.shutdown s.inner (.locking caller now) outcome :=
    Task.lockSection_lockStep stepped
  cases locked with
  | refused closed => cases handed
  | miss stays taken => cases handed
  | @hit _ _ session after stays taken =>
    obtain ⟨-, given⟩ := caller.credit_hand config session
    rw [given] at handed
    cases handed
    obtain ⟨pooled, evicted, -, reusable, rfl, -⟩ := PoolInner.checkout_hit taken
    exact ⟨rfl, (of_decide_eq_true reusable).2.1⟩

end

/-- The session of a connection is handed out `max_requests` times at most. -/
theorem checkout_selection_limits [DecidableEq S]
    {second maxIdle maxRequests maxAge idleTimeout interval timeout : Nat} {jitter : UInt8} {flag : Bool}
    {config : ReuseConfig}
    (accepted : ReuseConfig.new second maxIdle maxRequests maxAge idleTimeout interval timeout jitter flag =
      .ok config) :
    (∀ (s : Pool S) (i : Nat) (caller : Caller S) (now : Nat), s.inner.closed = false →
      s.tasks[i]? = some (.locking caller now) →
        (∀ front session back, s.inner.idle = front ++ session :: back →
          isReusable config.toPoolConfig session now = true →
          (∀ pooled ∈ back, isReusable config.toPoolConfig pooled now = false) →
            ∃ next, s.step config.toPoolConfig (.task i .lock) = some next ∧ next.inner.idle = front ∧
              next.tasks[i]? = some (caller.hand { session with
                useCount := session.useCount + 1, reuseCount := session.reuseCount + 1, lastUsed := now })) ∧
        ((∀ pooled ∈ s.inner.idle, isReusable config.toPoolConfig pooled now = false) →
          ∃ next, s.step config.toPoolConfig (.task i .lock) = some next ∧ next.inner.idle = [] ∧
            next.tasks[i]? = some (.missed caller))) ∧
      (∀ (s next : Pool S) (i now : Nat), s.step config.toPoolConfig (.task i (.connect now)) = some next →
        ∃ caller, s.tasks[i]? = some (.missed caller)) ∧
      (∀ (s next : Pool S) (i : Nat) (event : TaskEvent S) (caller : Caller S),
        s.step config.toPoolConfig (.task i event) = some next → next.tasks[i]? = some (.missed caller) →
          ∃ now, s.tasks[i]? = some (.locking caller now) ∧
            ∀ pooled ∈ s.inner.idle, isReusable config.toPoolConfig pooled now = false) ∧
      (∀ (shutdown : Bool) (events : List (PoolEvent S)) (s : Pool S),
        run (Pool.step config.toPoolConfig) (.new shutdown) events = some s → ∀ stream,
          ((handOuts config.toPoolConfig shutdown events).map (·.stream)).count stream ≤
            config.maxRequests * (connections events).count stream) ∧
      ∀ (s : Pool S) (i : Nat) (caller : Caller S) (now : Nat) (session : PooledSession S),
        s.tasks[i]? = some (.locking caller now) →
          s.handsOut config.toPoolConfig (.task i .lock) = some session →
            session.lastUsed = now ∧ now - session.createdAt < config.maxAge := by
  obtain ⟨-, positive⟩ := ReuseConfig.new_positive accepted
  refine ⟨?_, ?_, ?_, ?_, ?_⟩
  · intro s i caller now stays present
    exact ⟨fun front session back => Pool.step_hit stays present, Pool.step_miss stays present⟩
  · intro s next i now
    exact Pool.missed_of_connect
  · intro s next i event caller
    exact Pool.expired_of_missed
  · intro shutdown events s h stream
    have paid := Multiset.count_le_of_le stream (le_trans (Multiset.le_add_right _ _) (handOuts_credit positive h))
    rwa [Multiset.count_nsmul, Multiset.coe_count, Multiset.coe_count] at paid
  · intro s i caller now session present handed
    exact Pool.handsOut_locking present handed

/-- One connection is checked out three times, and a fourth checkout is before its lock section. -/
def usedUp : List (PoolEvent Nat) :=
  [.checkout, .task 0 (.enter 0), .task 0 .lock, .task 0 (.connect 0), .task 0 (.connected (.ok 7)), .task 0 .lock,
   .task 0 (.returnSession true 1), .task 0 .lock,
   .checkout, .task 1 (.enter 2), .task 1 .lock, .task 1 (.returnSession true 3), .task 1 .lock,
   .checkout, .task 2 (.enter 4), .task 2 .lock, .task 2 (.returnSession true 5), .task 2 .lock,
   .checkout, .task 3 (.enter 6)]

theorem checkout_selection_limits_usedUp :
    ReuseConfig.new 1 1 3 60 30 20 10 5 true = .ok smallReuse ∧
      ∃ s : Pool Nat, run (Pool.step smallReuse.toPoolConfig) (.new false) usedUp = some s ∧
        (handOuts smallReuse.toPoolConfig false usedUp).map (·.stream) = [7, 7, 7] ∧
        ((handOuts smallReuse.toPoolConfig false usedUp).map (·.stream)).count 7 ≤ 3 * (connections usedUp).count 7 ∧
        ∃ next, s.step smallReuse.toPoolConfig (.task 3 .lock) = some next ∧ next.inner.idle = [] ∧
          next.tasks[3]? = some (.missed .direct) := by
  have accepted : ReuseConfig.new 1 1 3 60 30 20 10 5 true = .ok smallReuse := rfl
  have ran : (run (Pool.step smallReuse.toPoolConfig) (.new false) usedUp).map
      (fun s => (s.inner.closed, s.tasks[3]?, s.inner.idle)) = some (false, some (.locking .direct 6), []) := by
    decide +kernel
  obtain ⟨s, ran, shape⟩ := Option.map_eq_some_iff.mp ran
  obtain ⟨stays, shape⟩ := Prod.mk.inj shape
  obtain ⟨present, idle⟩ := Prod.mk.inj shape
  obtain ⟨selects, -, -, limits, -⟩ := checkout_selection_limits (S := Nat) accepted
  have expired : ∀ pooled ∈ s.inner.idle, isReusable smallReuse.toPoolConfig pooled 6 = false := by
    rw [idle]
    nofun
  exact ⟨accepted, s, ran, by decide +kernel, limits false _ s ran 7, (selects s 3 .direct 6 stays present).2 expired⟩

end NoisyShuttle.Shuttle
