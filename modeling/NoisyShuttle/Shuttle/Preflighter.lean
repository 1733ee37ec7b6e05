import NoisyShuttle.Lib.Run
import NoisyShuttle.Shuttle.Preflight

/-!
# Preflighted connections

`Preflighter::get`, any number of calls at a time, on one queue whose capacity they change. The queue is
`deadqueue::resizable::Queue`: a resize holds a lock, it adds to the capacity at once, and it takes from
the capacity one by one, each time with a free permit or with a connection that it takes out of the queue.
Ages and outcomes of the connections are those of the events.
-/

namespace NoisyShuttle.Shuttle

structure Resizable where
  capacity : Nat
  /-- What `push` and a shrinking resize wait for. -/
  permits : Nat
  queued : Nat
  /-- The call that resizes the queue. -/
  lock : Option Nat
  deriving DecidableEq

inductive Resume where
  | handshake
  | connected
  deriving DecidableEq

/-- Where a call of `get` is. -/
inductive Point where
  | head
  | aged
  | handshake
  /-- Connected, with more delay than an average handshake. -/
  | late
  | resize (target : Nat) (resume : Resume)
  | shrink (target : Nat) (resume : Resume)
  | connected
  | failed
  deriving DecidableEq

def Resume.point : Resume → Point
  | .handshake => .handshake
  | .connected => .connected

structure Getter where
  errcnt : Nat
  point : Point
  deriving DecidableEq

structure Preflighter where
  queue : Resizable
  calls : List Getter
  deriving DecidableEq

/-- A target lies within the bounds, and a call that takes permits holds the lock. -/
def Point.Sound (min top call : Nat) (queue : Resizable) : Point → Prop
  | .resize target _ => min ≤ target ∧ target ≤ top
  | .shrink target _ => min ≤ target ∧ target < queue.capacity ∧ queue.lock = some call
  | _ => True

theorem Resume.sound {min top call : Nat} {queue : Resizable} (resume : Resume) :
    resume.point.Sound min top call queue := by
  cases resume <;> trivial

theorem Resume.ne_head (resume : Resume) : resume.point ≠ .head := by
  cases resume <;> decide

namespace Preflighter

inductive Act where
  | pop (aged : Bool)
  /-- The target of a resize is computed from the capacity of this moment. -/
  | target
  | lock
  | permit
  | discard
  | succeed (late : Bool)
  | fail
  deriving DecidableEq

inductive Event where
  /-- `run` adds a connection. -/
  | push
  | get
  | act (call : Nat) (act : Act)
  deriving DecidableEq

def start (min : Nat) : Preflighter := ⟨⟨min, min, 0, none⟩, []⟩

section

variable (usize min : Nat) (max : Option Nat)

/-- One less; the last one ends the resize. -/
def shrunk (queue : Resizable) (getter : Getter) (target : Nat) (resume : Resume) : Resizable × Getter :=
  if queue.capacity = target + 1 then
    ({ queue with capacity := queue.capacity - 1, lock := none }, { getter with point := resume.point })
  else ({ queue with capacity := queue.capacity - 1 }, getter)

/-- What one call does next, on the queue and in its own body. -/
def act (call : Nat) (queue : Resizable) (getter : Getter) : Act → Option (Resizable × Getter)
  | .pop aged =>
    if getter.point = .head ∧ 0 < queue.queued then
      some ({ queue with queued := queue.queued - 1, permits := queue.permits + 1 },
        { getter with point := if aged then .aged else .handshake })
    else none
  | .target =>
    match getter.point with
    | .aged => some (queue, { getter with point := .resize (Nat.max (queue.capacity - 1) min) .handshake })
    | .late =>
      some (queue, { getter with point := .resize (Nat.min (queue.capacity + 1) (max.getD (usize - 1))) .connected })
    | _ => none
  | .lock =>
    match getter.point, queue.lock with
    | .resize target resume, none =>
      if queue.capacity < target then
        some ({ queue with capacity := target, permits := queue.permits + (target - queue.capacity) },
          { getter with point := resume.point })
      else if target < queue.capacity then
        some ({ queue with lock := some call }, { getter with point := .shrink target resume })
      else some (queue, { getter with point := resume.point })
    | _, _ => none
  -- a free permit comes first, unless it is promised to a `push` that waits for it
  | .permit =>
    match getter.point with
    | .shrink target resume =>
      if 0 < queue.permits then some (shrunk { queue with permits := queue.permits - 1 } getter target resume) else none
    | _ => none
  | .discard =>
    match getter.point with
    | .shrink target resume =>
      if 0 < queue.queued then some (shrunk { queue with queued := queue.queued - 1 } getter target resume) else none
    | _ => none
  | .succeed late =>
    if getter.point = .handshake then some (queue, { getter with point := if late then .late else .connected })
    else none
  | .fail =>
    if getter.point = .handshake then
      some (queue, ⟨getter.errcnt + 1, if getter.errcnt + 1 = queue.capacity then .failed else .head⟩)
    else none

def step (p : Preflighter) : Event → Option Preflighter
  | .push =>
    if 0 < p.queue.permits then
      some { p with queue := { p.queue with permits := p.queue.permits - 1, queued := p.queue.queued + 1 } }
    else none
  | .get => some { p with calls := p.calls ++ [⟨0, .head⟩] }
  | .act call event => do
    let getter ← p.calls[call]?
    let (queue, getter) ← act usize min max call p.queue getter event
    some ⟨queue, p.calls.set call getter⟩

def Event.call (p : Preflighter) : Event → Option Nat
  | .push => none
  | .get => some p.calls.length
  | .act call _ => some call

/-- A call that the event brings to the head of its loop is there with fewer errors than the capacity. -/
def HeadOk (p : Preflighter) (event : Event) : Prop :=
  match event.call p, step usize min max p event with
  | some call, some next => ∀ getter ∈ next.calls[call]?, getter.point = .head → getter.errcnt < next.queue.capacity
  | _, _ => True

/-- A connection that fails does so before the capacity is down to the errors its call has had. -/
def Timely (p : Preflighter) : Event → Prop
  | .act call .fail => ∀ getter ∈ p.calls[call]?, getter.errcnt < p.queue.capacity
  | _ => True

instance (p : Preflighter) (event : Event) : Decidable (HeadOk usize min max p event) := by
  unfold HeadOk
  split <;> infer_instance

instance (p : Preflighter) (event : Event) : Decidable (Timely p event) := by
  unfold Timely
  split <;> infer_instance

end

section

variable {usize min : Nat} {max : Option Nat}

theorem step_act {p next : Preflighter} {call : Nat} {event : Act}
    (stepped : step usize min max p (.act call event) = some next) :
    ∃ getter queue after, p.calls[call]? = some getter ∧
      act usize min max call p.queue getter event = some (queue, after) ∧ next = ⟨queue, p.calls.set call after⟩ := by
  simp only [step, Option.bind_eq_bind, Option.bind_eq_some_iff] at stepped
  obtain ⟨getter, found, ⟨queue, after⟩, acted, same⟩ := stepped
  cases same
  exact ⟨getter, queue, after, found, acted, rfl⟩

/-- A capacity within the bounds, each unit of it a free permit or a connection. -/
structure Within (min top : Nat) (queue : Resizable) : Prop where
  lower : min ≤ queue.capacity
  upper : queue.capacity ≤ top
  permits : queue.permits + queue.queued = queue.capacity

structure Sound (min top : Nat) (p : Preflighter) : Prop where
  queue : Within min top p.queue
  calls : ∀ (call : Nat) (getter : Getter), p.calls[call]? = some getter → getter.point.Sound min top call p.queue

theorem start_sound {top : Nat} (ordered : min ≤ top) : Sound min top (start min) :=
  ⟨⟨Nat.le_refl _, ordered, rfl⟩, by simp [start]⟩

theorem act_keeps {call : Nat} {queue next : Resizable} {getter after : Getter} {event : Act} (other : event ≠ .fail)
    (acted : act usize min max call queue getter event = some (next, after)) :
    getter.point ≠ .failed ∧ after.errcnt = getter.errcnt ∧ after.point ≠ .head := by
  cases event <;> grind [act, shrunk, Resume.ne_head]

theorem act_fail {call : Nat} {queue next : Resizable} {getter after : Getter}
    (acted : act usize min max call queue getter .fail = some (next, after)) :
    next = queue ∧ after = ⟨getter.errcnt + 1, if getter.errcnt + 1 = queue.capacity then .failed else .head⟩ := by
  simp only [act] at acted
  split at acted
  case isFalse => cases acted
  case isTrue =>
    cases acted
    exact ⟨rfl, rfl⟩

theorem lock_sound {call top : Nat} {queue next : Resizable} {getter after : Getter} (within : Within min top queue)
    (sound : getter.point.Sound min top call queue)
    (acted : act usize min max call queue getter .lock = some (next, after)) :
    Within min top next ∧ after.point.Sound min top call next := by
  simp only [act] at acted
  split at acted
  case h_2 => cases acted
  case h_1 target resume here free =>
    rw [here] at sound
    obtain ⟨least, most⟩ := sound
    split at acted
    case isTrue grows =>
      cases acted
      have accounts := within.permits
      refine ⟨⟨least, most, ?_⟩, resume.sound⟩
      show queue.permits + (target - queue.capacity) + queue.queued = target
      omega
    case isFalse =>
      split at acted
      case isTrue shrinks =>
        cases acted
        exact ⟨⟨within.lower, within.upper, within.permits⟩, least, shrinks, rfl⟩
      case isFalse =>
        cases acted
        exact ⟨within, resume.sound⟩

/-- What is left of a queue that has given up a permit or a connection. -/
theorem shrunk_sound {call top target : Nat} {resume : Resume} {queue next : Resizable} {getter after : Getter}
    (same : shrunk queue getter target resume = (next, after)) (here : getter.point = .shrink target resume)
    (least : min ≤ target) (above : target < queue.capacity) (upper : queue.capacity ≤ top)
    (holder : queue.lock = some call) (less : queue.permits + queue.queued + 1 = queue.capacity) :
    Within min top next ∧ after.point.Sound min top call next := by
  unfold shrunk at same
  split at same
  case isTrue last =>
    cases same
    refine ⟨?_, resume.sound⟩
    constructor <;> dsimp only <;> omega
  case isFalse more =>
    cases same
    rw [here]
    refine ⟨?_, least, ?_, holder⟩
    · constructor <;> dsimp only <;> omega
    · dsimp only
      omega

theorem shrink_sound {call top : Nat} {queue next : Resizable} {getter after : Getter} {event : Act}
    (within : Within min top queue) (sound : getter.point.Sound min top call queue)
    (shrinks : event = .permit ∨ event = .discard)
    (acted : act usize min max call queue getter event = some (next, after)) :
    Within min top next ∧ after.point.Sound min top call next := by
  obtain ⟨lower, upper, permits⟩ := within
  rcases shrinks with rfl | rfl
  all_goals
    simp only [act] at acted
    split at acted
    case h_2 => cases acted
    case h_1 target resume here =>
      rw [here] at sound
      obtain ⟨least, above, holder⟩ := sound
      split at acted
      case isFalse => cases acted
      case isTrue some_ =>
        refine shrunk_sound (Option.some.inj acted) here least ?_ ?_ holder ?_ <;> dsimp only <;> omega

theorem act_sound (ordered : min ≤ max.getD (usize - 1)) {call : Nat} {queue next : Resizable}
    {getter after : Getter} {event : Act} (within : Within min (max.getD (usize - 1)) queue)
    (sound : getter.point.Sound min (max.getD (usize - 1)) call queue)
    (acted : act usize min max call queue getter event = some (next, after)) :
    Within min (max.getD (usize - 1)) next ∧ after.point.Sound min (max.getD (usize - 1)) call next := by
  cases event with
  | lock => exact lock_sound within sound acted
  | permit => exact shrink_sound within sound (Or.inl rfl) acted
  | discard => exact shrink_sound within sound (Or.inr rfl) acted
  | pop aged =>
    simp only [act] at acted
    split at acted
    case isFalse => cases acted
    case isTrue ready =>
      cases acted
      have accounts := within.permits
      refine ⟨⟨within.lower, within.upper, ?_⟩, by cases aged <;> trivial⟩
      show queue.permits + 1 + (queue.queued - 1) = queue.capacity
      omega
  | target =>
    have lower := within.lower
    have upper := within.upper
    simp only [act] at acted
    split at acted
    case h_1 =>
      cases acted
      exact ⟨within, Nat.le_max_right _ _, Nat.max_le.mpr ⟨by omega, ordered⟩⟩
    case h_2 =>
      cases acted
      exact ⟨within, Nat.le_min.mpr ⟨by omega, ordered⟩, Nat.min_le_right _ _⟩
    case h_3 => cases acted
  | succeed late =>
    simp only [act] at acted
    split at acted
    case isFalse => cases acted
    case isTrue =>
      cases acted
      exact ⟨within, by cases late <;> trivial⟩
  | fail =>
    obtain ⟨rfl, rfl⟩ := act_fail acted
    refine ⟨within, ?_⟩
    dsimp only
    split <;> trivial

theorem act_frame {call other top : Nat} {queue next : Resizable} {getter after : Getter} {event : Act} {point : Point}
    (sound : getter.point.Sound min top call queue) (apart : other ≠ call) (held : point.Sound min top other queue)
    (acted : act usize min max call queue getter event = some (next, after)) : point.Sound min top other next := by
  have kept : (next.capacity = queue.capacity ∧ next.lock = queue.lock) ∨ queue.lock ≠ some other := by
    cases event <;> grind [act, shrunk, Point.Sound]
  cases point with
  | shrink target resume =>
    obtain ⟨least, above, holder⟩ := held
    rcases kept with ⟨capacity, lock⟩ | free
    · exact ⟨least, capacity ▸ above, lock ▸ holder⟩
    · exact absurd holder free
  | resize target resume => exact held
  | head | aged | handshake | late | connected | failed => trivial

theorem step_sound (ordered : min ≤ max.getD (usize - 1)) (p : Preflighter) (event : Event) (next : Preflighter)
    (sound : Sound min (max.getD (usize - 1)) p) (stepped : step usize min max p event = some next) :
    Sound min (max.getD (usize - 1)) next := by
  obtain ⟨within, calls⟩ := sound
  cases event with
  | push =>
    simp only [step] at stepped
    split at stepped
    case isFalse => cases stepped
    case isTrue free =>
      cases stepped
      have accounts := within.permits
      refine ⟨⟨within.lower, within.upper, ?_⟩, calls⟩
      show p.queue.permits - 1 + (p.queue.queued + 1) = p.queue.capacity
      omega
  | get =>
    cases stepped
    refine ⟨within, ?_⟩
    intro call getter found
    rw [List.getElem?_append] at found
    split at found
    case isTrue => exact calls call getter found
    case isFalse =>
      cases List.mem_singleton.mp (List.mem_of_getElem? found)
      trivial
  | act call event =>
    obtain ⟨getter, queue, after, found, acted, rfl⟩ := step_act stepped
    obtain ⟨within, own⟩ := act_sound ordered within (calls call getter found) acted
    refine ⟨within, ?_⟩
    intro other point at_other
    rcases eq_or_ne call other with rfl | apart
    · rw [List.getElem?_set_self (List.getElem?_eq_some_iff.mp found).1] at at_other
      cases at_other
      exact own
    · rw [List.getElem?_set_ne apart] at at_other
      exact act_frame (calls call getter found) apart.symm (calls other point at_other) acted

/-- A failure brings its call back to the head exactly if it is not the one the capacity counts. -/
theorem headOk_iff_timely (positive : 0 < min) {top : Nat} {p next : Preflighter} {event : Event}
    (sound : Sound min top p) (stepped : step usize min max p event = some next) :
    HeadOk usize min max p event ↔ Timely p event := by
  cases event with
  | push => simp [HeadOk, Timely, Event.call]
  | get =>
    have room := Nat.lt_of_lt_of_le positive sound.queue.lower
    simp [HeadOk, Timely, Event.call, step, room]
  | act call event =>
    obtain ⟨getter, queue, after, found, acted, rfl⟩ := step_act stepped
    have at_call : (p.calls.set call after)[call]? = some after :=
      List.getElem?_set_self (List.getElem?_eq_some_iff.mp found).1
    by_cases failure : event = .fail
    case pos =>
      subst failure
      obtain ⟨rfl, rfl⟩ := act_fail acted
      simp only [HeadOk, Timely, Event.call, stepped, at_call, found, Option.mem_some_iff, forall_eq']
      split
      case isTrue reached => simp [← reached]
      case isFalse apart => simp; omega
    case neg =>
      have elsewhere := (act_keeps failure acted).2.2
      have timely : Timely p (.act call event) := by cases event <;> trivial
      simp [HeadOk, Event.call, stepped, at_call, elsewhere, timely]

/-- Fewer errors than `bound`, or as many and the error returned. -/
def GivesUp (bound : Nat) (getter : Getter) : Prop :=
  getter.errcnt < bound ∨ getter.errcnt = bound ∧ getter.point = .failed

theorem act_gives_up {bound call : Nat} {queue next : Resizable} {getter after : Getter} {event : Act}
    (few : queue.capacity ≤ bound) (timely : event = .fail → getter.errcnt < queue.capacity)
    (before : GivesUp bound getter) (acted : act usize min max call queue getter event = some (next, after)) :
    GivesUp bound after := by
  by_cases failure : event = .fail
  case pos =>
    have early := timely failure
    subst failure
    obtain ⟨-, rfl⟩ := act_fail acted
    unfold GivesUp
    dsimp only
    split
    case isTrue reached =>
      rcases Nat.lt_or_eq_of_le few with less | rfl
      · exact .inl (reached ▸ less)
      · exact .inr ⟨reached, rfl⟩
    case isFalse apart => exact .inl (by omega)
  case neg =>
    obtain ⟨going, same, -⟩ := act_keeps failure acted
    rcases before with less | ⟨-, failed⟩
    · exact .inl (same ▸ less)
    · exact absurd failed going

theorem step_gives_up {bound : Nat} {p next : Preflighter} {event : Event} (positive : 0 < p.queue.capacity)
    (few : p.queue.capacity ≤ bound) (timely : Timely p event) (before : ∀ getter ∈ p.calls, GivesUp bound getter)
    (stepped : step usize min max p event = some next) : ∀ getter ∈ next.calls, GivesUp bound getter := by
  cases event with
  | push =>
    simp only [step] at stepped
    split at stepped
    case isFalse => cases stepped
    case isTrue =>
      cases stepped
      exact before
  | get =>
    cases stepped
    have fresh : GivesUp bound ⟨0, .head⟩ := .inl (Nat.lt_of_lt_of_le positive few)
    exact List.forall_mem_append.mpr ⟨before, List.forall_mem_singleton.mpr fresh⟩
  | act call event =>
    obtain ⟨getter, queue, after, found, acted, rfl⟩ := step_act stepped
    have early : event = .fail → getter.errcnt < p.queue.capacity := by
      rintro rfl
      exact timely getter found
    have own := act_gives_up few early (before getter (List.mem_of_getElem? found)) acted
    intro other member
    rcases List.mem_or_eq_of_mem_set member with old | rfl
    · exact before other old
    · exact own

theorem newFlighting_bounds (flighting : newFlighting usize min max = .flighting min max) :
    0 < min ∧ min ≤ max.getD (usize - 1) := by
  unfold newFlighting at flighting
  split at flighting
  case isTrue bounds => exact bounds
  case isFalse => cases flighting

theorem run_gives_up (positive : 0 < min) (ordered : min ≤ max.getD (usize - 1)) {events : List Event}
    {p : Preflighter} (ran : run (step usize min max) (start min) events = some p)
    (timely : Guarded (step usize min max) Timely (start min) events) {bound : Nat}
    (few : Guarded (step usize min max) (fun p _ => p.queue.capacity ≤ bound) (start min) events) :
    ∀ getter ∈ p.calls, GivesUp bound getter := by
  have preserve : ∀ s event next,
      (Sound min (max.getD (usize - 1)) s ∧ ∀ getter ∈ s.calls, GivesUp bound getter) →
      (Timely s event ∧ s.queue.capacity ≤ bound) → step usize min max s event = some next →
      Sound min (max.getD (usize - 1)) next ∧ ∀ getter ∈ next.calls, GivesUp bound getter := by
    rintro s event next ⟨sound, before⟩ ⟨timely, few⟩ stepped
    have room := Nat.lt_of_lt_of_le positive sound.queue.lower
    exact ⟨step_sound ordered s event next sound stepped, step_gives_up room few timely before stepped⟩
  have begun : ∀ getter ∈ (start min).calls, GivesUp bound getter := by simp [start]
  exact (guarded_invariant preserve ⟨start_sound ordered, begun⟩ (guarded_and timely few) ran).2

/-- The capacity stays within its bounds. Every call is at the head of its loop with fewer errors than the
capacity, and has given up by the time it has had as many errors as the largest capacity, exactly if no
connection fails once the capacity is down to the errors its call has had before. -/
theorem gives_up_iff (flighting : newFlighting usize min max = .flighting min max) {events : List Event}
    {p : Preflighter} (ran : run (step usize min max) (start min) events = some p) :
    Within min (max.getD (usize - 1)) p.queue ∧
      ((Guarded (step usize min max) (HeadOk usize min max) (start min) events ∧
          ∀ bound, Guarded (step usize min max) (fun p _ => p.queue.capacity ≤ bound) (start min) events →
            ∀ getter ∈ p.calls, GivesUp bound getter) ↔
        Guarded (step usize min max) Timely (start min) events) := by
  obtain ⟨positive, ordered⟩ := newFlighting_bounds flighting
  have begun := start_sound ordered
  have heads := guarded_congr (step_sound ordered)
    (fun _ _ _ sound stepped => headOk_iff_timely positive sound stepped) begun ran
  refine ⟨(reachable_invariant (step_sound ordered) begun ⟨events, ran⟩).queue, ?_, ?_⟩
  · rintro ⟨ok, -⟩
    exact heads.mp ok
  · intro timely
    exact ⟨heads.mpr timely, fun bound few => run_gives_up positive ordered ran timely few⟩

end

theorem gives_up_iff_single :
    newFlighting (2 ^ 64) 1 (some 3) = .flighting 1 (some 3) ∧
      Guarded (step (2 ^ 64) 1 (some 3)) (HeadOk (2 ^ 64) 1 (some 3)) (start 1)
        [.get, .push, .act 0 (.pop false), .act 0 .fail] :=
  ⟨rfl, ((gives_up_iff (p := ⟨⟨1, 1, 0, none⟩, [⟨1, .failed⟩]⟩) rfl (by decide +kernel)).2.mpr (by decide +kernel)).1⟩

/-- Two late connections, then a call whose third connection in a row to fail is an aged one. -/
def outage : List Event :=
  [.get, .push, .act 0 (.pop false), .act 0 (.succeed true), .act 0 .target, .act 0 .lock,
    .get, .push, .act 1 (.pop false), .act 1 (.succeed true), .act 1 .target, .act 1 .lock,
    .get, .push, .act 2 (.pop false), .act 2 .fail, .push, .act 2 (.pop false), .act 2 .fail,
    .push, .act 2 (.pop true), .act 2 .target, .act 2 .lock, .act 2 .permit, .act 2 .fail]

def stalled (n : Nat) : Preflighter :=
  ⟨⟨2, 2, 0, none⟩, [⟨0, .connected⟩, ⟨0, .connected⟩, ⟨n + 3, .head⟩]⟩

theorem run_stalled (n : Nat) :
    run (step (2 ^ 64) 1 (some 3)) (stalled n) [.push, .act 2 (.pop false), .act 2 .fail] = some (stalled (n + 1)) := by
  simp [run, step, act, stalled]

theorem outage_stalls (n : Nat) : Reachable (step (2 ^ 64) 1 (some 3)) (start 1) (stalled n) := by
  induction n with
  | zero => exact ⟨outage, by decide +kernel⟩
  | succ n ih =>
    obtain ⟨events, ran⟩ := ih
    exact ⟨events ++ [.push, .act 2 (.pop false), .act 2 .fail], run_append.mpr ⟨stalled n, ran, run_stalled n⟩⟩

/-- A call passes the capacity in an outage and never gives up: whatever the number of its errors, it is at
the head of its loop again, on a queue that never had room for more than three connections. -/
theorem gives_up_never :
    newFlighting (2 ^ 64) 1 (some 3) = .flighting 1 (some 3) ∧
      ¬ Guarded (step (2 ^ 64) 1 (some 3)) (HeadOk (2 ^ 64) 1 (some 3)) (start 1) outage ∧
      ∀ n, ∃ p, Reachable (step (2 ^ 64) 1 (some 3)) (start 1) p ∧ p.queue.capacity = 2 ∧
        p.calls[2]? = some ⟨n + 3, .head⟩ :=
  ⟨rfl, by decide +kernel, fun n => ⟨stalled n, outage_stalls n, rfl, rfl⟩⟩

end Preflighter
end NoisyShuttle.Shuttle
