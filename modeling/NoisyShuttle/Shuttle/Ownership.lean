import Mathlib.Algebra.BigOperators.Group.List.Basic
import Mathlib.Algebra.Order.Group.Multiset
import NoisyShuttle.Shuttle.Drain

/-!
# Who has a session

Every session is in the pool or with one caller, never in two places, and a closed pool gives out none.
-/

namespace NoisyShuttle.Shuttle

variable {S : Type}

/-! ### The idle list -/

theorem of_check {α : Type} {failed : Prop} [Decidable failed] {text : String} {rest : Except String α} {value : α}
    (h : (if failed then .error text else rest) = .ok value) : ¬failed ∧ rest = .ok value := by
  split at h
  · cases h
  · next passed => exact ⟨passed, h⟩

theorem ReuseConfig.new_positive {second maxIdle maxRequests maxAge idleTimeout interval timeout : Nat}
    {jitter : UInt8} {flag : Bool} {config : ReuseConfig}
    (h : ReuseConfig.new second maxIdle maxRequests maxAge idleTimeout interval timeout jitter flag = .ok config) :
    0 < config.maxIdle ∧ 0 < config.maxRequests := by
  unfold ReuseConfig.new at h
  obtain ⟨idle, h⟩ := of_check h
  obtain ⟨requests, h⟩ := of_check h
  obtain ⟨-, h⟩ := of_check h
  obtain ⟨-, h⟩ := of_check h
  obtain ⟨-, h⟩ := of_check h
  obtain ⟨-, h⟩ := of_check h
  obtain ⟨-, h⟩ := of_check h
  obtain ⟨-, h⟩ := of_check h
  obtain ⟨-, h⟩ := of_check h
  cases h
  exact ⟨Nat.pos_of_ne_zero idle, Nat.pos_of_ne_zero requests⟩

theorem popReusable_split {config : PoolConfig} {now : Nat} {sessions rest : List (PooledSession S)}
    {session : PooledSession S} (h : popReusable config now sessions = some (session, rest)) :
    isReusable config session now = true ∧ ∃ evicted, sessions = evicted ++ session :: rest := by
  induction sessions with
  | nil => cases h
  | cons first later ih =>
    unfold popReusable at h
    split at h
    · next reusable =>
      cases h
      exact ⟨reusable, [], rfl⟩
    · obtain ⟨reusable, evicted, rfl⟩ := ih h
      exact ⟨reusable, first :: evicted, rfl⟩

namespace PoolInner

structure Tidy (config : PoolConfig) (inner : PoolInner S) : Prop where
  bounded : inner.idle.length ≤ config.maxIdle
  closed : inner.closed = true → inner.idle = []

variable {config : PoolConfig} {inner after : PoolInner S} {session : PooledSession S} {now : Nat}

theorem checkout_hit (h : inner.checkout config now = (some session, after)) :
    ∃ pooled evicted, inner.idle = after.idle ++ pooled :: evicted ∧ isReusable config pooled now = true ∧
      session = { pooled with
        useCount := pooled.useCount + 1, reuseCount := pooled.reuseCount + 1, lastUsed := now } ∧
      after.closed = inner.closed := by
  unfold checkout at h
  split at h
  · next pooled rest popped =>
    cases h
    obtain ⟨reusable, evicted, reversed⟩ := popReusable_split popped
    have idle := congrArg List.reverse reversed
    rw [List.reverse_reverse, List.reverse_append, List.reverse_cons, List.append_assoc] at idle
    exact ⟨pooled, evicted.reverse, idle, reusable, rfl, rfl⟩
  · cases h

theorem checkout_miss (h : inner.checkout config now = (none, after)) :
    after.idle = [] ∧ after.closed = inner.closed := by
  unfold checkout at h
  split at h
  · cases h
  · cases h
    exact ⟨rfl, rfl⟩

theorem release_idle (inner : PoolInner S) : inner.release.2.idle = inner.idle := by
  unfold release
  split <;> rfl

theorem keep_idle (config : PoolConfig) (shutdown : Bool) (session : PooledSession S) (healthy : Bool) (now : Nat)
    (inner : PoolInner S) :
    (inner.keep config shutdown session healthy now).idle = inner.idle ∨
      inner.closed = false ∧
        (inner.idle.length < config.maxIdle ∧
            (inner.keep config shutdown session healthy now).idle = inner.idle ++ [session] ∨
          config.maxIdle ≤ inner.idle.length ∧
            (inner.keep config shutdown session healthy now).idle = inner.idle.tail ++ [session]) := by
  unfold keep
  split
  · exact Or.inl rfl
  split
  · exact Or.inl rfl
  next opened =>
  have stays : inner.closed = false := Bool.eq_false_iff.mpr fun closed => opened (Or.inl closed)
  split
  · next full =>
    split
    · exact Or.inl rfl
    · exact Or.inr ⟨stays, Or.inr ⟨full, rfl⟩⟩
  · next room => exact Or.inr ⟨stays, Or.inl ⟨Nat.lt_of_not_le room, rfl⟩⟩

theorem Tidy.keep (shutdown healthy : Bool) (positive : 0 < config.maxIdle) (tidy : inner.Tidy config) :
    (inner.keep config shutdown session healthy now).Tidy config := by
  have bounded := tidy.bounded
  have closed := tidy.closed
  rcases keep_idle config shutdown session healthy now inner with
    same | ⟨stays, ⟨room, pushed⟩ | ⟨full, replaced⟩⟩
  · refine ⟨?_, ?_⟩
    · rw [same]
      exact bounded
    · rw [same, keep_closed]
      exact closed
  · refine ⟨?_, ?_⟩
    · rw [pushed, List.length_append, List.length_singleton]
      exact room
    · rw [keep_closed, stays]
      nofun
  · refine ⟨?_, ?_⟩
    · rw [replaced, List.length_append, List.length_tail, List.length_singleton]
      omega
    · rw [keep_closed, stays]
      nofun

end PoolInner

namespace Task
variable {config : PoolConfig} {shutdown : Bool} {inner : PoolInner S} {task : Task S} {outcome : Outcome S}

theorem lockStep_tidy (positive : 0 < config.maxIdle) (tidy : inner.Tidy config)
    (h : LockStep config shutdown inner task outcome) : outcome.inner.Tidy config := by
  have bounded := tidy.bounded
  cases h with
  | @hit caller now session after stays taken =>
    obtain ⟨pooled, evicted, idle, -, -, closed⟩ := PoolInner.checkout_hit taken
    refine ⟨?_, ?_⟩
    · rw [idle, List.length_append] at bounded
      exact Nat.le_trans (Nat.le_add_right _ _) bounded
    · rw [closed, stays]
      nofun
  | @miss caller now after stays taken =>
    obtain ⟨idle, -⟩ := PoolInner.checkout_miss taken
    refine ⟨?_, fun _ => idle⟩
    rw [idle]
    exact Nat.zero_le _
  | returned =>
    apply PoolInner.Tidy.keep shutdown _ positive
    refine ⟨?_, ?_⟩
    · rw [PoolInner.release_idle]
      exact bounded
    · rw [PoolInner.release_idle, PoolInner.release_closed]
      exact tidy.closed
  | discarded =>
    refine ⟨?_, ?_⟩
    · rw [PoolInner.release_idle]
      exact bounded
    · rw [PoolInner.release_idle, PoolInner.release_closed]
      exact tidy.closed
  | closed drains => exact ⟨Nat.zero_le _, fun _ => rfl⟩
  | registered stays => exact ⟨bounded, tidy.closed⟩
  | _ => exact tidy

/-- A `checkout` before one of its lock sections. -/
def checkingOut : Task S → Bool
  | .locking _ _ | .registering _ _ => true
  | _ => false

theorem lockStep_refused (shut : inner.closed = true) (out : task.checkingOut = true)
    (h : LockStep config shutdown inner task outcome) : ∃ err, outcome.task = .finished (.error err) := by
  cases h with
  | refused closed => exact ⟨_, rfl⟩
  | overtaken closed => exact ⟨_, rfl⟩
  | hit stays taken => exact absurd (stays.symm.trans shut) Bool.false_ne_true
  | miss stays taken => exact absurd (stays.symm.trans shut) Bool.false_ne_true
  | registered stays => exact absurd (stays.symm.trans shut) Bool.false_ne_true
  | _ => cases out

end Task

/-! ### Sessions and their connections -/

def SessionHandle.owned (handle : SessionHandle S) : Multiset S := (handle.session.map (·.stream)).toList

def Caller.owned : Caller S → Multiset S
  | .retry handle => handle.owned
  | _ => 0

def PoolInner.owned (inner : PoolInner S) : Multiset S := inner.idle.map (·.stream)

namespace Task

/-- The connections of the sessions a caller, or a call on its behalf, has. -/
def owned : Task S → Multiset S
  | .entering caller | .locking caller _ | .missed caller | .connecting caller _ => caller.owned
  | .registering caller session => caller.owned + {session.stream}
  | .holding session | .returning session _ _ => {session.stream}
  | .handling handle | .discarding handle => handle.owned
  | _ => 0

end Task

def TaskEvent.connection : TaskEvent S → Option S
  | .connected (.ok stream) => some stream
  | _ => none

def PoolEvent.connection : PoolEvent S → Option S
  | .task _ event => event.connection
  | _ => none

theorem Caller.owned_hand (caller : Caller S) (session : PooledSession S) :
    (caller.hand session).owned = {session.stream} := by
  cases caller <;> rfl

theorem Task.owned_notify (task : Task S) : task.notify.owned = task.owned := by
  cases task <;> rfl

theorem PoolInner.owned_hit {config : PoolConfig} {inner after : PoolInner S} {session : PooledSession S} {now : Nat}
    (h : inner.checkout config now = (some session, after)) : after.owned + {session.stream} ≤ inner.owned := by
  obtain ⟨pooled, evicted, idle, -, rfl, -⟩ := checkout_hit h
  unfold owned
  rw [idle, List.map_append, List.map_cons, ← Multiset.coe_add, ← Multiset.cons_coe, ← Multiset.singleton_add,
    ← Multiset.add_assoc]
  exact Multiset.le_add_right _ _

theorem PoolInner.owned_release (inner : PoolInner S) : inner.release.2.owned = inner.owned := by
  rw [owned, release_idle, owned]

theorem PoolInner.owned_keep (config : PoolConfig) (shutdown : Bool) (session : PooledSession S) (healthy : Bool)
    (now : Nat) (inner : PoolInner S) :
    (inner.keep config shutdown session healthy now).owned ≤ inner.owned + {session.stream} := by
  unfold owned
  rcases keep_idle config shutdown session healthy now inner with same | ⟨-, ⟨-, pushed⟩ | ⟨-, replaced⟩⟩
  · rw [same]
    exact Multiset.le_add_right _ _
  · rw [pushed, List.map_append, ← Multiset.coe_add]
    exact le_refl _
  · rw [replaced, List.map_append, ← Multiset.coe_add]
    apply Multiset.add_le_add_right
    exact Multiset.coe_le.mpr ((List.tail_sublist _).map _).subperm

namespace Task
variable {config : PoolConfig} {shutdown : Bool} {inner : PoolInner S} {task : Task S} {outcome : Outcome S}

theorem lockStep_owned (h : LockStep config shutdown inner task outcome) :
    outcome.inner.owned + outcome.task.owned ≤ inner.owned + task.owned := by
  cases h with
  | refused closed => exact add_le_add (le_refl _) (Multiset.zero_le _)
  | @hit caller now session after stays taken =>
    rw [Caller.owned_hand]
    exact le_trans (PoolInner.owned_hit taken) (Multiset.le_add_right _ _)
  | @miss caller now after stays taken =>
    obtain ⟨idle, -⟩ := PoolInner.checkout_miss taken
    have none : after.owned = 0 := by
      rw [PoolInner.owned, idle]
      rfl
    rw [none]
    exact add_le_add (Multiset.zero_le _) (le_refl _)
  | overtaken closed => exact add_le_add (le_refl _) (Multiset.zero_le _)
  | @registered caller session stays =>
    rw [Caller.owned_hand]
    exact add_le_add (le_refl _) (Multiset.le_add_left _ _)
  | @returned session healthy now =>
    have kept := inner.release.2.owned_keep config shutdown session healthy now
    rw [PoolInner.owned_release] at kept
    exact le_trans (le_of_eq (add_zero _)) kept
  | discarded =>
    rw [PoolInner.owned_release]
    exact le_refl _
  | @closed next drains =>
    have none : next.owned = 0 := by
      rw [drains]
      split <;> rfl
    rw [none]
    exact add_le_add (Multiset.zero_le _) (Multiset.zero_le _)
  | drained none => exact le_refl _
  | awaited some => exact le_refl _

theorem unlockedStep_owned {event : TaskEvent S} {next : Task S} (h : UnlockedStep shutdown task event next) :
    next.owned ≤ task.owned + event.connection.toList := by
  cases h with
  | @taken handle session has =>
    have one : handle.owned = {session.stream} := by
      rw [SessionHandle.owned, has]
      rfl
    exact le_trans (le_of_eq one.symm) (Multiset.le_add_right _ _)
  | connected => exact le_refl _
  | entered => exact Multiset.le_add_right _ _
  | connects => exact Multiset.le_add_right _ _
  | returns => exact Multiset.le_add_right _ _
  | marked => exact Multiset.le_add_right _ _
  | _ => exact Multiset.zero_le _

end Task

namespace Pool

/-- The connections of all sessions, idle or with a caller. -/
def owned (s : Pool S) : Multiset S := s.inner.owned + (s.tasks.map Task.owned).sum

theorem owned_call {s : Pool S} {task : Task S} (fresh : task.owned = 0) : (s.call task).owned = s.owned := by
  simp [owned, call, fresh]

theorem sum_replace {α : Type} (f : α → Multiset S) {l : List α} {index : Nat} {a : α} (b : α)
    (present : l[index]? = some a) :
    ∃ others, (l.map f).sum = others + f a ∧ ((l.set index b).map f).sum = others + f b := by
  obtain ⟨inside, same⟩ := List.getElem?_eq_some_iff.mp present
  have replaced (c : α) : ((l.set index c).map f).sum =
      ((l.map f).take index).sum + ((l.map f).drop (index + 1)).sum + f c := by
    rw [List.map_set, List.sum_set, List.length_map, if_pos inside, add_right_comm]
  refine ⟨_, ?_, replaced b⟩
  rw [← replaced a, ← same, List.set_getElem_self]

/-- What the tasks have of something, before and after a step of one of them. -/
theorem sum_conclude {f : Task S → Multiset S} (still : ∀ task, f task.notify = f task) {s : Pool S} {index : Nat}
    {task : Task S} (outcome : Outcome S) (present : s.tasks[index]? = some task) :
    ∃ others, (s.tasks.map f).sum = others + f task ∧
      ((s.conclude index outcome).tasks.map f).sum = others + f outcome.task := by
  have woken : ((if outcome.notify then s.tasks.map Task.notify else s.tasks).map f) = s.tasks.map f := by
    split
    · rw [List.map_map]
      exact List.map_congr_left fun task _ => still task
    · rfl
  obtain ⟨others, before, after⟩ := sum_replace f outcome.task present
  refine ⟨others, before, ?_⟩
  rw [conclude, List.map_set, woken, ← List.map_set, after]

theorem owned_conclude {s : Pool S} {index : Nat} {task : Task S} (outcome : Outcome S)
    (present : s.tasks[index]? = some task) :
    ∃ others, s.owned = s.inner.owned + (others + task.owned) ∧
      (s.conclude index outcome).owned = outcome.inner.owned + (others + outcome.task.owned) := by
  obtain ⟨others, before, after⟩ := sum_conclude Task.owned_notify outcome present
  refine ⟨others, ?_, ?_⟩
  · rw [owned, before]
  · rw [owned, after]
    rfl

theorem step_owned {config : PoolConfig} {s next : Pool S} {event : PoolEvent S}
    (h : s.step config event = some next) : next.owned ≤ s.owned + event.connection.toList := by
  cases event with
  | sendShutdown value =>
    cases h
    exact Multiset.le_add_right _ _
  | checkout =>
    cases h
    rw [owned_call rfl]
    exact Multiset.le_add_right _ _
  | checkoutWithRetry =>
    cases h
    rw [owned_call rfl]
    exact Multiset.le_add_right _ _
  | closeAll =>
    cases h
    rw [owned_call rfl]
    exact Multiset.le_add_right _ _
  | task i event =>
    obtain ⟨task, outcome, present, stepped, rfl⟩ := step_task h
    obtain ⟨others, before, after⟩ := owned_conclude outcome present
    rw [before, after]
    rcases Task.step_cases stepped with ⟨rfl, locked⟩ | ⟨later, unlocked, rfl⟩
    · have fewer := Task.lockStep_owned locked
      calc outcome.inner.owned + (others + outcome.task.owned)
          = others + (outcome.inner.owned + outcome.task.owned) := add_left_comm _ _ _
        _ ≤ others + (s.inner.owned + task.owned) := add_le_add (le_refl _) fewer
        _ = s.inner.owned + (others + task.owned) := add_left_comm _ _ _
        _ ≤ s.inner.owned + (others + task.owned) + _ := Multiset.le_add_right _ _
    · have fewer := Task.unlockedStep_owned unlocked
      calc s.inner.owned + (others + later.owned)
          ≤ s.inner.owned + (others + (task.owned + event.connection.toList)) :=
            add_le_add (le_refl _) (add_le_add (le_refl _) fewer)
        _ = s.inner.owned + (others + task.owned) + event.connection.toList := by
            rw [← add_assoc others, ← add_assoc]

theorem step_tidy {config : PoolConfig} (positive : 0 < config.maxIdle) (s : Pool S) (event : PoolEvent S)
    (next : Pool S) (tidy : s.inner.Tidy config) (h : s.step config event = some next) :
    next.inner.Tidy config := by
  rcases step_inner h with same | ⟨task, outcome, locked, given⟩
  · rw [same]
    exact tidy
  · rw [given]
    exact Task.lockStep_tidy positive tidy locked

theorem step_closed {config : PoolConfig} (s : Pool S) (event : PoolEvent S) (next : Pool S)
    (shut : s.inner.closed = true) (h : s.step config event = some next) : next.inner.closed = true := by
  rcases step_inner h with same | ⟨task, outcome, locked, given⟩
  · rw [same]
    exact shut
  · rw [given]
    exact ((Task.lockStep_drains locked).closed shut).1

theorem getElem?_conclude_self {s : Pool S} {outcome : Outcome S} {task : Task S} {i : Nat}
    (present : s.tasks[i]? = some task) : (s.conclude i outcome).tasks[i]? = some outcome.task := by
  obtain ⟨inside, -⟩ := List.getElem?_eq_some_iff.mp present
  rw [conclude, List.getElem?_set_self]
  split
  · rwa [List.length_map]
  · exact inside

theorem step_refused {config : PoolConfig} {s next : Pool S} {i : Nat} {task : Task S} (shut : s.inner.closed = true)
    (present : s.tasks[i]? = some task) (out : task.checkingOut = true)
    (h : s.step config (.task i .lock) = some next) : ∃ err, next.tasks[i]? = some (.finished (.error err)) := by
  obtain ⟨found, outcome, there, stepped, rfl⟩ := step_task h
  rw [present] at there
  cases there
  obtain ⟨err, given⟩ := Task.lockStep_refused shut out (Task.lockSection_lockStep stepped)
  exact ⟨err, by rw [getElem?_conclude_self present, given]⟩

end Pool

def connections (events : List (PoolEvent S)) : List S := events.filterMap PoolEvent.connection

theorem connections_concat (past : List (PoolEvent S)) (event : PoolEvent S) :
    (connections (past ++ [event]) : Multiset S) = connections past + event.connection.toList := by
  have latest : connections [event] = event.connection.toList := by
    cases connected : event.connection <;> simp [connections, connected]
  rw [connections, List.filterMap_append, ← Multiset.coe_add]
  exact congrArg (fun l : List S => (connections past : Multiset S) + l) latest

/-- Every session in the pool or with a caller is from a connection of its own. -/
theorem owned_le_connections {config : PoolConfig} {shutdown : Bool} {events : List (PoolEvent S)} {s : Pool S}
    (h : run (Pool.step config) (.new shutdown) events = some s) : s.owned ≤ connections events := by
  have preserve : ∀ (past : List (PoolEvent S)) (s : Pool S) (event : PoolEvent S) (next : Pool S),
      s.owned ≤ connections past → s.step config event = some next → next.owned ≤ connections (past ++ [event]) := by
    intro past s event next owned stepped
    rw [connections_concat]
    exact le_trans (Pool.step_owned stepped) (add_le_add owned (le_refl _))
  have start : (Pool.new shutdown : Pool S).owned ≤ connections ([] : List (PoolEvent S)) := Multiset.zero_le _
  exact history_invariant preserve start h

/-- Sessions are told apart by their connections: the last part is about runs in which no two `connect`
calls return the same one. -/
theorem pool_invariant {second maxIdle maxRequests maxAge idleTimeout interval timeout : Nat} {jitter : UInt8}
    {flag : Bool} {config : ReuseConfig}
    (accepted : ReuseConfig.new second maxIdle maxRequests maxAge idleTimeout interval timeout jitter flag = .ok config)
    (shutdown : Bool) (events later : List (PoolEvent S)) (s t : Pool S)
    (h : run (Pool.step config.toPoolConfig) (.new shutdown) events = some s)
    (h' : run (Pool.step config.toPoolConfig) s later = some t) :
    s.inner.idle.length ≤ config.maxIdle ∧
      (s.inner.closed = true → t.inner.closed = true ∧ t.inner.idle = [] ∧
        ∀ i task next, t.tasks[i]? = some task → task.checkingOut = true →
          t.step config.toPoolConfig (.task i .lock) = some next →
            ∃ err, next.tasks[i]? = some (.finished (.error err))) ∧
      ((connections events).Nodup → (s.inner.idle.map (·.stream)).Nodup ∧
        ∀ task ∈ s.tasks, ∀ stream ∈ task.owned, stream ∉ s.inner.idle.map (·.stream)) := by
  obtain ⟨positive, -⟩ := ReuseConfig.new_positive accepted
  have fresh : (Pool.new shutdown : Pool S).inner.Tidy config.toPoolConfig := ⟨Nat.zero_le _, fun _ => rfl⟩
  have tidy := reachable_invariant (Pool.step_tidy positive) fresh ⟨events, h⟩
  refine ⟨tidy.bounded, ?_, ?_⟩
  · intro shut
    have still := reachable_invariant Pool.step_closed shut ⟨later, h'⟩
    have empty := (reachable_invariant (Pool.step_tidy positive) tidy ⟨later, h'⟩).closed still
    exact ⟨still, empty, fun i task next => Pool.step_refused still⟩
  · intro distinct
    have once : s.owned.Nodup := Multiset.nodup_of_le (owned_le_connections h) distinct
    obtain ⟨idle, -, apart⟩ := Multiset.nodup_add.mp once
    refine ⟨idle, ?_⟩
    intro task member stream has idles
    obtain ⟨i, present⟩ := List.mem_iff_getElem?.mp member
    obtain ⟨others, whole, -⟩ := Pool.sum_replace Task.owned task present
    have held : stream ∈ (s.tasks.map Task.owned).sum := by
      rw [whole]
      exact Multiset.mem_add.mpr (Or.inr has)
    exact Multiset.disjoint_left.mp apart idles held

def smallReuse : ReuseConfig := ⟨⟨⟨3, 60, 30⟩, 1⟩, 20, 10, 5⟩

/-- Two sessions are checked out and returned; there is room for one. -/
def returnedTwo : List (PoolEvent Nat) :=
  [.checkout, .task 0 (.enter 0), .task 0 .lock, .task 0 (.connect 0), .task 0 (.connected (.ok 7)), .task 0 .lock,
   .checkout, .task 1 (.enter 0), .task 1 .lock, .task 1 (.connect 0), .task 1 (.connected (.ok 8)), .task 1 .lock,
   .task 0 (.returnSession true 1), .task 0 .lock, .task 1 (.returnSession true 2), .task 1 .lock]

/-- A third checkout connects while the pool is closed. -/
def closedWhileThird : List (PoolEvent Nat) :=
  [.checkout, .task 2 (.enter 50), .task 2 .lock, .task 2 (.connect 50), .closeAll, .task 3 .lock,
   .task 2 (.connected (.ok 9))]

theorem pool_invariant_returnedTwo :
    ReuseConfig.new 1 1 3 60 30 20 10 5 true = .ok smallReuse ∧
      ∃ s t, run (Pool.step smallReuse.toPoolConfig) (.new false) (returnedTwo ++ closedWhileThird) = some s ∧
        run (Pool.step smallReuse.toPoolConfig) s [.task 2 .lock] = some t ∧ s.inner.closed = true ∧
        s.inner.idle.length ≤ 1 ∧ t.inner.closed = true ∧ t.inner.idle = [] ∧
        (s.inner.idle.map (·.stream)).Nodup := by
  have accepted : ReuseConfig.new 1 1 3 60 30 20 10 5 true = .ok smallReuse := rfl
  have ran : (run (Pool.step smallReuse.toPoolConfig) (.new false) (returnedTwo ++ closedWhileThird)).map
      (fun s => (s.inner.closed, (run (Pool.step smallReuse.toPoolConfig) s [.task 2 .lock]).isSome)) =
        some (true, true) := by decide +kernel
  obtain ⟨s, ran, shape⟩ := Option.map_eq_some_iff.mp ran
  obtain ⟨shut, goes⟩ := Prod.mk.inj shape
  obtain ⟨t, later⟩ := Option.isSome_iff_exists.mp goes
  obtain ⟨bounded, closed, owned⟩ := pool_invariant accepted false _ _ s t ran later
  obtain ⟨still, empty, -⟩ := closed shut
  exact ⟨accepted, s, t, ran, later, shut, bounded, still, empty, (owned (by decide)).1⟩

end NoisyShuttle.Shuttle
