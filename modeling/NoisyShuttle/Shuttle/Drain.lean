import NoisyShuttle.Shuttle.Accounting

/-!
# Waiting for the pool to drain

`close_all` looks at the counter under the lock and creates its waiter after it has let the lock go.
-/

namespace NoisyShuttle.Shuttle

variable {S : Type}

namespace PoolInner

theorem release_checkedOut (inner : PoolInner S) : inner.release.2.checkedOut = inner.checkedOut - 1 := by
  unfold release
  split
  · next none => rw [none]
  · rfl

theorem release_notifies {inner : PoolInner S} (some : 0 < inner.checkedOut) : inner.release.1 = true := by
  rw [release, if_neg (Nat.ne_of_gt some)]

end PoolInner

namespace Task

/-- `close_all` with a look at the counter behind it and no notification since its waiter exists. -/
def asleep : Task S → Bool
  | .unregistered | .parked false => true
  | _ => false

/-- A call whose next lock section lowers the counter. -/
def releases : Task S → Bool
  | .returning _ _ _ | .discarding _ => true
  | _ => false

def unwatched : Task S → Bool
  | .unregistered => true
  | _ => false

theorem hand_not_draining (caller : Caller S) (session : PooledSession S) :
    (caller.hand session).draining = false ∧ (caller.hand session).asleep = false := by
  cases caller <;> exact ⟨rfl, rfl⟩

theorem asleep_notify {task : Task S} (h : task.notify.asleep = true) : task = .unregistered := by
  cases task with
  | unregistered => rfl
  | _ => cases h

theorem unwatched_eq {task : Task S} (h : task.unwatched = true) : task = .unregistered := by
  cases task with
  | unregistered => rfl
  | _ => cases h

theorem draining_notify (task : Task S) : task.notify.draining = task.draining := by
  cases task <;> rfl

/-- What a step of a task has to do with the drain. -/
structure Drains (inner : PoolInner S) (task : Task S) (outcome : Outcome S) : Prop where
  closed : inner.closed = true → outcome.inner.closed = true ∧ outcome.inner.checkedOut ≤ inner.checkedOut
  keeps : task.releases = false → inner.checkedOut ≤ outcome.inner.checkedOut
  lowers : task.releases = true →
    outcome.inner.checkedOut = inner.checkedOut - 1 ∧ (0 < inner.checkedOut → outcome.notify = true)
  draining : outcome.task.draining = true → task.draining = true ∨ outcome.inner.closed = true
  asleep : outcome.task.asleep = true → 0 < outcome.inner.checkedOut

variable {config : PoolConfig} {shutdown : Bool} {inner : PoolInner S} {task : Task S} {outcome : Outcome S}

theorem Drains.opened {after : PoolInner S} {next : Task S} (stays : inner.closed = false)
    (kept : task.releases = false) (count : inner.checkedOut ≤ after.checkedOut) (awake : next.draining = false)
    (looking : next.asleep = false) : Drains inner task ⟨after, next, false⟩ where
  closed shut := by
    rw [stays] at shut
    cases shut
  keeps _ := count
  lowers lower := by
    rw [kept] at lower
    cases lower
  draining drain := by
    rw [awake] at drain
    cases drain
  asleep sleep := by
    rw [looking] at sleep
    cases sleep

theorem Drains.released {after : PoolInner S} {next : Task S} {notified : Bool} (lower : task.releases = true)
    (closed : after.closed = inner.closed) (count : after.checkedOut = inner.checkedOut - 1)
    (notifies : 0 < inner.checkedOut → notified = true) (awake : next.draining = false)
    (looking : next.asleep = false) : Drains inner task ⟨after, next, notified⟩ where
  closed shut := ⟨closed.trans shut, by
    rw [count]
    omega⟩
  keeps kept := by
    rw [lower] at kept
    cases kept
  lowers _ := ⟨count, notifies⟩
  draining drain := by
    rw [awake] at drain
    cases drain
  asleep sleep := by
    rw [looking] at sleep
    cases sleep

/-- A step that leaves the counter and does not open the pool. -/
theorem Drains.same {after : PoolInner S} {next : Task S} (kept : task.releases = false)
    (count : after.checkedOut = inner.checkedOut) (closed : inner.closed = true → after.closed = true)
    (draining : next.draining = true → task.draining = true ∨ after.closed = true)
    (asleep : next.asleep = true → 0 < inner.checkedOut) : Drains inner task ⟨after, next, false⟩ where
  closed shut := ⟨closed shut, Nat.le_of_eq count⟩
  keeps _ := Nat.le_of_eq count.symm
  lowers lower := by
    rw [kept] at lower
    cases lower
  draining := draining
  asleep sleep := by
    rw [count]
    exact asleep sleep

theorem lockStep_drains (h : LockStep config shutdown inner task outcome) : Drains inner task outcome := by
  cases h with
  | refused closed => exact .same rfl rfl id nofun nofun
  | @hit caller now session after stays taken =>
    have count := inner.checkedOut_checkout config now
    rw [taken] at count
    obtain ⟨awake, looking⟩ := hand_not_draining caller session
    have more : after.checkedOut = inner.checkedOut + 1 := count
    exact .opened stays rfl (by omega) awake looking
  | @miss caller now after stays taken =>
    have count := inner.checkedOut_checkout config now
    rw [taken] at count
    exact .opened stays rfl (Nat.le_of_eq count.symm) rfl rfl
  | overtaken closed => exact .same rfl rfl id nofun nofun
  | @registered caller session stays =>
    obtain ⟨awake, looking⟩ := hand_not_draining caller session
    exact .opened stays rfl (Nat.le_succ _) awake looking
  | returned =>
    apply Drains.released rfl _ _ PoolInner.release_notifies rfl rfl
    · rw [PoolInner.keep_closed, PoolInner.release_closed]
    · rw [PoolInner.checkedOut_keep, PoolInner.release_checkedOut]
  | discarded =>
    exact .released rfl (PoolInner.release_closed inner) (PoolInner.release_checkedOut inner)
      PoolInner.release_notifies rfl rfl
  | closed drains =>
    refine .same rfl rfl (fun _ => rfl) (fun _ => Or.inr rfl) ?_
    intro sleep
    rw [drains] at sleep
    split at sleep <;> cases sleep
  | drained none => exact .same rfl rfl id nofun nofun
  | awaited some => exact .same rfl rfl id (fun _ => Or.inl rfl) (fun _ => some)

theorem unlockedStep_drain {event : TaskEvent S} {next : Task S} (h : UnlockedStep shutdown task event next) :
    (next.draining = true → task.draining = true) ∧ (next.asleep = true → task.asleep = true) := by
  cases h with
  | watches => exact ⟨fun _ => rfl, fun _ => rfl⟩
  | wakes => exact ⟨fun _ => rfl, nofun⟩
  | _ => exact ⟨nofun, nofun⟩

end Task

namespace Pool

variable {config : PoolConfig} {s : Pool S} {index missed : Nat}

/-- The step takes the counter to zero while `close_all`, the task at `index`, has looked at it and has
no waiter yet. -/
def strands (index : Nat) (s : Pool S) : PoolEvent S → Bool
  | .task i .lock =>
    s.tasks[index]?.any Task.unwatched && s.tasks[i]?.any Task.releases && decide (s.inner.checkedOut = 1)
  | _ => false

theorem strands_lock {task : Task S} {i : Nat} (present : s.tasks[i]? = some task) :
    s.strands index (.task i .lock) = true ↔
      s.tasks[index]? = some .unregistered ∧ task.releases = true ∧ s.inner.checkedOut = 1 := by
  simp only [strands, present, Option.any_some, Bool.and_eq_true, decide_eq_true_eq, and_assoc]
  constructor
  · rintro ⟨window, rest⟩
    cases found : s.tasks[index]? with
    | none =>
      rw [found] at window
      cases window
    | some current =>
      rw [found] at window
      rw [Task.unwatched_eq window]
      exact ⟨rfl, rest⟩
  · rintro ⟨found, rest⟩
    rw [found]
    exact ⟨rfl, rest⟩

theorem strands_unlocked {task next : Task S} {event : TaskEvent S} {i : Nat}
    (h : Task.UnlockedStep s.shutdown task event next) : s.strands index (.task i event) = false := by
  cases h <;> rfl

structure Watched (index missed : Nat) (s : Pool S) : Prop where
  closed : ∀ task, s.tasks[index]? = some task → task.draining = true → s.inner.closed = true
  waits : missed = 0 → ∀ task, s.tasks[index]? = some task → task.asleep = true → 0 < s.inner.checkedOut
  drained : 0 < missed → s.inner.closed = true ∧ s.inner.checkedOut = 0

theorem call_watched {task : Task S} (watched : s.Watched index missed) (fresh : task.draining = false)
    (awake : task.asleep = false) : (s.call task).Watched index missed := by
  refine ⟨?_, ?_, watched.drained⟩
  · intro current present drains
    rcases getElem?_call present with old | rfl
    · exact watched.closed current old drains
    · rw [fresh] at drains
      cases drains
  · intro none current present sleeps
    rcases getElem?_call present with old | rfl
    · exact watched.waits none current old sleeps
    · rw [awake] at sleeps
      cases sleeps

theorem unlocked_watched {task next : Task S} {event : TaskEvent S} {i : Nat} (watched : s.Watched index missed)
    (present : s.tasks[i]? = some task) (h : Task.UnlockedStep s.shutdown task event next) :
    (s.conclude i ⟨s.inner, next, false⟩).Watched index missed := by
  obtain ⟨drain, sleep⟩ := Task.unlockedStep_drain h
  refine ⟨?_, ?_, watched.drained⟩
  · intro current found drains
    rcases getElem?_conclude found with ⟨rfl, rfl⟩ | ⟨-, _, old, rfl⟩
    · exact watched.closed task present (drain drains)
    · exact watched.closed _ old drains
  · intro none current found sleeps
    rcases getElem?_conclude found with ⟨rfl, rfl⟩ | ⟨-, _, old, rfl⟩
    · exact watched.waits none task present (sleep sleeps)
    · exact watched.waits none _ old sleeps

theorem lock_watched {task : Task S} {outcome : Outcome S} {i : Nat} (watched : s.Watched index missed)
    (present : s.tasks[i]? = some task) (h : Task.Drains s.inner task outcome) :
    (s.conclude i outcome).Watched index (missed + (s.strands index (.task i .lock)).toNat) := by
  have closes : ∀ current, s.tasks[index]? = some current → current.draining = true →
      outcome.inner.closed = true := by
    intro current found drains
    exact (h.closed (watched.closed current found drains)).1
  refine ⟨?_, ?_, ?_⟩
  · intro current found drains
    rcases getElem?_conclude found with ⟨rfl, rfl⟩ | ⟨-, before, old, rfl⟩
    · rcases h.draining drains with same | shut
      · exact closes task present same
      · exact shut
    · apply closes before old
      split at drains
      · rwa [Task.draining_notify] at drains
      · exact drains
  · intro none current found sleeps
    rcases getElem?_conclude found with ⟨rfl, rfl⟩ | ⟨-, before, old, rfl⟩
    · exact h.asleep sleeps
    · obtain ⟨none, early⟩ := Nat.add_eq_zero_iff.mp none
      rw [Bool.toNat_eq_zero] at early
      have slept : before.asleep = true := by
        split at sleeps
        · rw [Task.asleep_notify sleeps]
          rfl
        · exact sleeps
      have some := watched.waits none before old slept
      cases releases : task.releases with
      | false => exact Nat.lt_of_lt_of_le some (h.keeps releases)
      | true =>
        -- the release notifies, so only a call without a waiter sleeps on: the counter was not 1
        obtain ⟨lowered, notifies⟩ := h.lowers releases
        rw [if_pos (notifies some)] at sleeps
        rw [Task.asleep_notify sleeps] at old
        have others : s.inner.checkedOut ≠ 1 := by
          intro last
          rw [(strands_lock present).mpr ⟨old, releases, last⟩] at early
          cases early
        change 0 < outcome.inner.checkedOut
        omega
  · intro lost
    change outcome.inner.closed = true ∧ outcome.inner.checkedOut = 0
    by_cases before : 0 < missed
    · obtain ⟨shut, zero⟩ := watched.drained before
      obtain ⟨stays, fewer⟩ := h.closed shut
      exact ⟨stays, by omega⟩
    · have now : s.strands index (.task i .lock) = true := by
        rw [← Bool.toNat_eq_one]
        have := Bool.toNat_le (s.strands index (.task i .lock))
        omega
      obtain ⟨window, releases, last⟩ := (strands_lock present).mp now
      refine ⟨closes .unregistered window rfl, ?_⟩
      rw [(h.lowers releases).1, last]

theorem step_watched (config : PoolConfig) (index missed : Nat) (s : Pool S) (event : PoolEvent S) (next : Pool S)
    (watched : s.Watched index missed) (h : s.step config event = some next) :
    next.Watched index (missed + (s.strands index event).toNat) := by
  cases event with
  | sendShutdown value =>
    cases h
    exact ⟨watched.closed, watched.waits, watched.drained⟩
  | checkout =>
    cases h
    exact call_watched watched rfl rfl
  | checkoutWithRetry =>
    cases h
    exact call_watched watched rfl rfl
  | closeAll =>
    cases h
    exact call_watched watched rfl rfl
  | task i event =>
    obtain ⟨task, outcome, present, stepped, rfl⟩ := step_task h
    rcases Task.step_cases stepped with ⟨rfl, locked⟩ | ⟨after, unlocked, rfl⟩
    · exact lock_watched watched present (Task.lockStep_drains locked)
    · rw [strands_unlocked unlocked]
      exact unlocked_watched watched present unlocked

theorem new_watched (shutdown : Bool) (index : Nat) : (new shutdown : Pool S).Watched index 0 := by
  refine ⟨?_, ?_, ?_⟩
  · intro task present
    cases present
  · intro _ task present
    cases present
  · intro none
    omega

end Pool

/-- A `close_all` that sleeps on `drain_notify` with no notification pending still has sessions to wait for
exactly if no call has taken the counter to zero in the window before its waiter existed. -/
theorem drain_waits_iff (config : PoolConfig) (shutdown : Bool) (events : List (PoolEvent S)) (final : Pool S)
    (index : Nat) (h : run (Pool.step config) (.new shutdown) events = some final)
    (parked : final.tasks[index]? = some (.parked false)) :
    final.inner.checkedOut ≠ 0 ↔
      Guarded (Pool.step config) (fun s event => s.strands index event = false) (.new shutdown) events := by
  have watched := total_invariant (Pool.step_watched config index) (Pool.new_watched shutdown index) h
  rw [Nat.zero_add] at watched
  rw [guarded_iff_total]
  constructor
  · intro out
    by_contra lost
    exact out (watched.drained (Nat.pos_of_ne_zero lost)).2
  · intro none
    exact Nat.ne_of_gt (watched.waits none _ parked rfl)

/-- Two sessions are out, one comes back in the window and the other does not. -/
def returnedInWindow : List (PoolEvent Nat) :=
  [.checkout, .task 0 (.enter 0), .task 0 .lock, .task 0 (.connect 0), .task 0 (.connected (.ok 7)), .task 0 .lock,
   .checkout, .task 1 (.enter 0), .task 1 .lock, .task 1 (.connect 0), .task 1 (.connected (.ok 8)), .task 1 .lock,
   .closeAll, .task 2 .lock, .task 2 .lock, .task 0 (.returnSession true 1), .task 0 .lock, .task 2 .notified]

theorem drain_waits_returnedInWindow :
    ∃ final, run (Pool.step ⟨⟨3, 60, 30⟩, 1⟩) (.new false) returnedInWindow = some final ∧
      final.tasks[2]? = some (.parked false) ∧ final.inner.checkedOut ≠ 0 := by
  have ran : (run (Pool.step ⟨⟨3, 60, 30⟩, 1⟩) (.new false) returnedInWindow).map
      (fun s => s.tasks[2]?) = some (some (.parked false)) := by decide +kernel
  obtain ⟨final, ran, parked⟩ := Option.map_eq_some_iff.mp ran
  exact ⟨final, ran, parked, (drain_waits_iff _ _ _ _ _ ran parked).mpr (by decide +kernel)⟩

/-- The last session comes back in the window, and `close_all` sleeps. -/
theorem drain_misses_return :
    ∃ final, run (Pool.step ⟨⟨3, 60, 30⟩, 1⟩) (.new false)
        [.checkout, .task 0 (.enter 0), .task 0 .lock, .task 0 (.connect 0), .task 0 (.connected (.ok 7)),
         .task 0 .lock,
         .closeAll, .task 1 .lock, .task 1 .lock, .task 0 (.returnSession true 1), .task 0 .lock, .task 1 .notified] =
          some final ∧
      final.inner.checkedOut = 0 ∧ final.tasks = [.finished (.ok ()), .parked false] :=
  ⟨⟨⟨[], 0, true, 1, 0⟩, false, [.finished (.ok ()), .parked false]⟩, by decide +kernel⟩

end NoisyShuttle.Shuttle
