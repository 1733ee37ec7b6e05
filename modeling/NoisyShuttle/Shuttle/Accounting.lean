import NoisyShuttle.Shuttle.Pool

/-!
# What `checked_out` counts
-/

namespace NoisyShuttle.Shuttle

variable {S : Type}

namespace Task

/-- A task whose session `checked_out` should count: one that has it, or has given it up and not yet come
to the lock section that says so. -/
def counted : Task S → Bool
  | .holding _ | .handling _ | .returning _ _ _ | .discarding _ => true
  | _ => false

def Sound : Task S → Prop
  | .handling handle => handle.session.isSome = true
  | _ => True

def refuses : Task S → TaskEvent S → Bool
  -- `retry_after_protocol_error` returns the error it was given, and drops the handle
  | .handling handle, .retryAfterProtocolError _ => handle.bytesRelayed || handle.retryUsed
  | _, _ => false

theorem counted_hand (caller : Caller S) (session : PooledSession S) :
    (caller.hand session).counted = true ∧ (caller.hand session).Sound := by
  cases caller <;> exact ⟨rfl, by trivial⟩

theorem counted_eq_held {task : Task S} (sound : task.Sound) (still : task.inProgress = false) :
    task.counted = task.held := by
  cases task with
  | handling handle => exact sound.symm
  | holding session => rfl
  | finished result => rfl
  | _ => cases still

theorem counted_notify (task : Task S) : task.notify.counted = task.counted := by
  cases task <;> rfl

theorem Sound.notify {task : Task S} (sound : task.Sound) : task.notify.Sound := by
  cases task <;> exact sound

end Task

theorem PoolInner.checkedOut_keep (config : PoolConfig) (shutdown : Bool) (session : PooledSession S)
    (healthy : Bool) (now : Nat) (inner : PoolInner S) :
    (inner.keep config shutdown session healthy now).checkedOut = inner.checkedOut := by
  simp only [keep]
  split_ifs <;> rfl

theorem PoolInner.checkedOut_release {inner : PoolInner S} {n : Nat} (some : inner.checkedOut = n + 1) :
    inner.release.2.checkedOut = n := by
  simp [release, some]

theorem PoolInner.checkedOut_checkout (config : PoolConfig) (now : Nat) (inner : PoolInner S) :
    (inner.checkout config now).2.checkedOut =
      inner.checkedOut + (inner.checkout config now).1.isSome.toNat := by
  unfold checkout
  split <;> rfl

namespace Task
variable {config : PoolConfig} {shutdown : Bool} {inner : PoolInner S} {task : Task S} {outcome : Outcome S} {n : Nat}

/-- The counter before and after a step, `n` being what it has to say about others. -/
def Balanced (n : Nat) (event : TaskEvent S) (inner : PoolInner S) (task : Task S) (outcome : Outcome S) : Prop :=
  inner.checkedOut = n + task.counted.toNat →
    outcome.inner.checkedOut = n + (task.refuses event).toNat + outcome.task.counted.toNat

theorem lockStep_balanced (h : LockStep config shutdown inner task outcome) :
    outcome.task.Sound ∧ Balanced n .lock inner task outcome := by
  cases h with
  | @hit caller now session after stays taken =>
    obtain ⟨counted, sound⟩ := counted_hand caller session
    have count := inner.checkedOut_checkout config now
    rw [taken] at count
    refine ⟨sound, fun before => ?_⟩
    rw [counted, count, before]
    rfl
  | @miss caller now after stays taken =>
    have count := inner.checkedOut_checkout config now
    rw [taken] at count
    exact ⟨trivial, fun before => count.trans before⟩
  | @registered caller session stays =>
    obtain ⟨counted, sound⟩ := counted_hand caller session
    refine ⟨sound, fun before => ?_⟩
    rw [counted, PoolInner.register, before]
    rfl
  | returned =>
    refine ⟨trivial, fun before => ?_⟩
    rw [PoolInner.checkedOut_keep]
    exact PoolInner.checkedOut_release before
  | discarded => exact ⟨trivial, fun before => PoolInner.checkedOut_release before⟩
  | closed drains =>
    subst drains
    dsimp only
    split <;> exact ⟨trivial, id⟩
  | _ => exact ⟨trivial, id⟩

theorem unlockedStep_balanced {event : TaskEvent S} {next : Task S} (sound : task.Sound)
    (h : UnlockedStep shutdown task event next) :
    next.Sound ∧ Balanced n event inner task ⟨inner, next, false⟩ := by
  cases h with
  | marked => exact ⟨sound, id⟩
  | void has =>
    have holds : Option.isSome _ = true := sound
    rw [has] at holds
    cases holds
  | @gaveUp handle error flags =>
    have refused : (Task.handling handle).refuses (.retryAfterProtocolError error) = true := flags
    refine ⟨trivial, fun before => ?_⟩
    rw [refused]
    exact before
  | @retries handle error flags =>
    have allowed : (Task.handling handle).refuses (.retryAfterProtocolError error) = false := flags
    refine ⟨trivial, fun before => ?_⟩
    rw [allowed]
    exact before
  | @timedOut task drains =>
    refine ⟨trivial, fun before => ?_⟩
    have uncounted : task.counted = false ∧ task.refuses .drainTimeout = false := by
      cases task with
      | checking => exact ⟨rfl, rfl⟩
      | unregistered => exact ⟨rfl, rfl⟩
      | parked woken => exact ⟨rfl, rfl⟩
      | _ => cases drains
    rw [uncounted.1] at before
    rw [uncounted.2]
    exact before
  | _ => exact ⟨trivial, id⟩

theorem step_balanced (n : Nat) {event : TaskEvent S} (sound : task.Sound)
    (h : task.step config shutdown inner event = some outcome) :
    outcome.task.Sound ∧ Balanced n event inner task outcome := by
  rcases step_cases h with ⟨rfl, locked⟩ | ⟨next, unlocked, rfl⟩
  · exact lockStep_balanced locked
  · exact unlockedStep_balanced sound unlocked

end Task

namespace Pool

def refuses (s : Pool S) : PoolEvent S → Bool
  | .task index event => (s.tasks[index]?.map fun task => task.refuses event).getD false
  | _ => false

/-- `leaked` sessions are counted that nobody has. -/
def Accounted (leaked : Nat) (s : Pool S) : Prop :=
  (∀ task ∈ s.tasks, task.Sound) ∧ s.inner.checkedOut = s.tasks.countP Task.counted + leaked

variable {leaked : Nat}

theorem call_accounted {s : Pool S} {task : Task S} (accounted : s.Accounted leaked) (sound : task.Sound)
    (fresh : task.counted = false) : (s.call task).Accounted leaked := by
  refine ⟨List.forall_mem_append.mpr ⟨accounted.1, List.forall_mem_singleton.mpr sound⟩, ?_⟩
  simpa [call, fresh] using accounted.2

theorem countP_replace {α : Type} (p : α → Bool) {l : List α} {index : Nat} {a : α} (b : α)
    (present : l[index]? = some a) :
    ∃ others, l.countP p = others + (p a).toNat ∧ (l.set index b).countP p = others + (p b).toNat := by
  obtain ⟨inside, same⟩ := List.getElem?_eq_some_iff.mp present
  have whole : l = l.take index ++ a :: l.drop (index + 1) := by
    rw [← same, List.getElem_cons_drop, List.take_append_drop]
  have bit (c : α) : (if p c = true then 1 else 0) = (p c).toNat := by cases p c <;> rfl
  refine ⟨(l.take index).countP p + (l.drop (index + 1)).countP p, ?_, ?_⟩
  · conv_lhs => rw [whole]
    rw [List.countP_append, List.countP_cons, bit, Nat.add_assoc]
  · rw [List.set_eq_take_append_cons_drop, if_pos inside, List.countP_append, List.countP_cons, bit,
      Nat.add_assoc]

theorem countP_conclude {s : Pool S} {index : Nat} {task : Task S} (outcome : Outcome S)
    (present : s.tasks[index]? = some task) :
    ∃ others, s.tasks.countP Task.counted = others + task.counted.toNat ∧
      (s.conclude index outcome).tasks.countP Task.counted = others + outcome.task.counted.toNat := by
  cases notified : outcome.notify with
  | false =>
    simp only [conclude, notified]
    exact countP_replace Task.counted outcome.task present
  | true =>
    have woken : (s.tasks.map Task.notify)[index]? = some task.notify := by simp [present]
    have same : (Task.counted ∘ Task.notify : Task S → Bool) = Task.counted := funext Task.counted_notify
    obtain ⟨others, before, after⟩ := countP_replace Task.counted outcome.task woken
    rw [List.countP_map, same, Task.counted_notify] at before
    refine ⟨others, before, ?_⟩
    simpa only [conclude, notified, if_true] using after

theorem sound_conclude {s : Pool S} {index : Nat} {outcome : Outcome S} (sound : ∀ task ∈ s.tasks, task.Sound)
    (stays : outcome.task.Sound) : ∀ task ∈ (s.conclude index outcome).tasks, task.Sound := by
  intro task member
  rcases List.mem_or_eq_of_mem_set member with member | rfl
  · split at member
    · obtain ⟨before, present, rfl⟩ := List.mem_map.mp member
      exact (sound before present).notify
    · exact sound task member
  · exact stays

theorem step_accounted (config : PoolConfig) (leaked : Nat) (s : Pool S) (event : PoolEvent S) (next : Pool S)
    (accounted : s.Accounted leaked) (h : s.step config event = some next) :
    next.Accounted (leaked + (s.refuses event).toNat) := by
  cases event with
  | sendShutdown value =>
    cases h
    exact accounted
  | checkout =>
    cases h
    exact call_accounted accounted trivial rfl
  | checkoutWithRetry =>
    cases h
    exact call_accounted accounted trivial rfl
  | closeAll =>
    cases h
    exact call_accounted accounted trivial rfl
  | task index event =>
    obtain ⟨task, outcome, present, stepped, rfl⟩ := step_task h
    obtain ⟨others, before, after⟩ := countP_conclude outcome present
    obtain ⟨sound, count⟩ := accounted
    have member : task ∈ s.tasks := List.mem_of_getElem? present
    obtain ⟨stays, balanced⟩ := Task.step_balanced (others + leaked) (sound task member) stepped
    refine ⟨sound_conclude sound stays, ?_⟩
    have charged : s.refuses (.task index event) = task.refuses event := by simp [refuses, present]
    have count := balanced (by omega)
    rw [charged, after]
    change outcome.inner.checkedOut = _
    omega

theorem new_accounted (shutdown : Bool) : (new shutdown : Pool S).Accounted 0 := ⟨nofun, rfl⟩

theorem countP_quiescent {s : Pool S} (sound : ∀ task ∈ s.tasks, task.Sound) (quiet : s.quiescent = true) :
    s.tasks.countP Task.counted = s.held := by
  refine List.countP_congr fun task member => ?_
  have still : task.inProgress = false := by simpa using List.all_eq_true.mp quiet task member
  rw [Task.counted_eq_held (sound task member) still]

end Pool

theorem checkedOut_eq_held_iff (config : PoolConfig) (shutdown : Bool) (events : List (PoolEvent S)) (final : Pool S)
    (h : run (Pool.step config) (.new shutdown) events = some final) (quiet : final.quiescent = true) :
    final.inner.checkedOut = final.held ↔
      Guarded (Pool.step config) (fun s event => s.refuses event = false) (.new shutdown) events := by
  obtain ⟨sound, count⟩ := total_invariant (Pool.step_accounted config) (Pool.new_accounted shutdown) h
  rw [Pool.countP_quiescent sound quiet, Nat.zero_add] at count
  rw [count, guarded_iff_total]
  omega

/-- A retry that gets a new session, a checkout that the pool's closing overtakes, and the closing that
times out. -/
def closedWhileConnecting : List (PoolEvent Nat) :=
  [.checkoutWithRetry, .task 0 (.enter 0), .task 0 .lock, .task 0 (.connect 0), .task 0 (.connected (.ok 7)),
   .task 0 .lock, .task 0 (.retryAfterProtocolError (.message "reset")), .task 0 .lock, .task 0 (.enter 1),
   .task 0 .lock, .task 0 (.connect 1), .task 0 (.connected (.ok 8)), .task 0 .lock, .checkout, .task 1 (.enter 2),
   .task 1 .lock, .task 1 (.connect 2), .closeAll, .task 2 .lock, .task 1 (.connected (.ok 9)), .task 1 .lock,
   .task 2 .lock, .task 2 .notified, .task 2 .drainTimeout]

theorem checkedOut_eq_held_closedWhileConnecting :
    ∃ final, run (Pool.step ⟨⟨3, 60, 30⟩, 1⟩) (.new false) closedWhileConnecting = some final ∧
      final.quiescent = true ∧ final.held = 1 ∧ final.inner.checkedOut = final.held := by
  have ran : (run (Pool.step ⟨⟨3, 60, 30⟩, 1⟩) (.new false) closedWhileConnecting).map
      (fun s => (s.quiescent, s.held)) = some (true, 1) := by decide +kernel
  obtain ⟨final, ran, shape⟩ := Option.map_eq_some_iff.mp ran
  obtain ⟨quiet, held⟩ := Prod.mk.inj shape
  exact ⟨final, ran, quiet, held, (checkedOut_eq_held_iff _ _ _ _ ran quiet).mpr (by decide +kernel)⟩

/-- A handle that has relayed bytes is dropped with its session by `retry_after_protocol_error`. -/
theorem checkedOut_leaks :
    ∃ final, run (Pool.step ⟨⟨3, 60, 30⟩, 1⟩) (.new false)
        [.checkoutWithRetry, .task 0 (.enter 0), .task 0 .lock, .task 0 (.connect 0), .task 0 (.connected (.ok 7)),
         .task 0 .lock, .task 0 .markBytesRelayed, .task 0 (.retryAfterProtocolError (.message "reset"))] =
          some final ∧
      final.tasks = [.finished (.error (.message "reset"))] ∧ final.held = 0 ∧ final.inner.checkedOut = 1 :=
  ⟨⟨⟨[], 1, false, 1, 0⟩, false, [.finished (.error (.message "reset"))]⟩, by decide +kernel⟩

end NoisyShuttle.Shuttle
