import Mathlib.Data.List.Forall2
import NoisyShuttle.Shuttle.Boundaries
import NoisyShuttle.Shuttle.Copy
import NoisyShuttle.Shuttle.Turn

/-!
# Requests on a reused session, frame by frame

The client and the session loop of `Boundaries`, with a log on either side of what was carried for each
request. Nothing is assumed about the order in which the two ends close a request: where they disagree on
its end, the session is lost, but no byte of one request turns up in another.
-/

namespace NoisyShuttle.Shuttle
open Session
open Tunnel (IoError)

/-- The pair of ends with what each has taken from its side and given to it. -/
structure Traced where
  pair : Pair
  client : Log
  server : Log

/-- What the application asks for and sends. -/
def requested (log : Log) : PairEvent → Log
  | .openRequest cmd atyp addr port => ⟨⟨cmd, atyp, addr, port⟩, [], []⟩ :: log
  | .firstPacket (some data) => addUp data log
  | .inbound (.ok bytes) => addUp bytes log
  | _ => log

theorem addDown_nil (log : Log) : addDown [] log = log := by
  cases log with
  | nil => rfl
  | cons d earlier => simp [addDown]

/-! ## Towards the target -/

def asks (log : Log) : List (Request × Bytes) := log.map fun d => (d.request, d.up)

def downs (log : Log) : List Bytes := log.map Dialogue.down

/-- What a frame adds to the requests of an end that takes it. -/
def absorb (log : List (Request × Bytes)) : Frame → List (Request × Bytes)
  | .openRequest cmd atyp addr port => (⟨cmd, atyp, addr, port⟩, []) :: log
  | .data bytes =>
    match log with
    | [] => []
    | (request, up) :: earlier => (request, up ++ bytes) :: earlier
  | _ => log

theorem asks_addUp (bytes : Bytes) (log : Log) : asks (addUp bytes log) = absorb (asks log) (.data bytes) := by
  cases log <;> rfl

theorem asks_addDown (bytes : Bytes) (log : Log) : asks (addDown bytes log) = asks log := by
  cases log <;> rfl

theorem downs_addUp (bytes : Bytes) (log : Log) : downs (addUp bytes log) = downs log := by
  cases log <;> rfl

theorem length_asks (log : Log) : (asks log).length = (downs log).length := by
  rw [asks, downs, List.length_map, List.length_map]

theorem length_absorb (log : List (Request × Bytes)) (frame : Frame) : log.length ≤ (absorb log frame).length := by
  cases frame with
  | openRequest cmd atyp addr port => exact Nat.le_succ _
  | data bytes => cases log <;> exact Nat.le_refl _
  | _ => exact Nat.le_refl _

theorem length_absorbed (frames : List Frame) (log : List (Request × Bytes)) :
    log.length ≤ (frames.foldl absorb log).length := by
  induction frames generalizing log with
  | nil => exact Nat.le_refl _
  | cons frame later ih => exact Nat.le_trans (length_absorb log frame) (ih _)

/-- The requests of the server are the older ones of the client, all but the newest of them complete. -/
def Asked (client server : List (Request × Bytes)) : Prop :=
  ∃ unserved shared, client = unserved ++ shared ∧ shared.map Prod.fst = server.map Prod.fst ∧
    shared.tail = server.tail ∧ List.Forall₂ (fun c s => s.2 <+: c.2) shared server

theorem Asked.refl (log : List (Request × Bytes)) : Asked log log := by
  refine ⟨[], log, rfl, rfl, rfl, ?_⟩
  exact List.forall₂_same.mpr fun _ _ => List.prefix_refl _

theorem Asked.absorb {client server : List (Request × Bytes)} (asked : Asked client server) (frame : Frame) :
    Asked (absorb client frame) server := by
  obtain ⟨unserved, shared, rfl, requests, older, within⟩ := asked
  cases frame with
  | openRequest cmd atyp addr port =>
    exact ⟨(⟨cmd, atyp, addr, port⟩, []) :: unserved, shared, rfl, requests, older, within⟩
  | data bytes =>
    cases unserved with
    | cons first unserved =>
      exact ⟨(first.1, first.2 ++ bytes) :: unserved, shared, rfl, requests, older, within⟩
    | nil =>
      cases within with
      | nil => exact ⟨[], [], rfl, rfl, rfl, .nil⟩
      | @cons c s shared server first later =>
        refine ⟨[], (c.1, c.2 ++ bytes) :: shared, rfl, requests, older, .cons ?_ later⟩
        exact first.trans (List.prefix_append ..)
  | _ => exact ⟨unserved, shared, rfl, requests, older, within⟩

theorem asked_absorbed (frames : List Frame) {client server : List (Request × Bytes)} (asked : Asked client server) :
    Asked (frames.foldl absorb client) server := by
  induction frames generalizing client with
  | nil => exact asked
  | cons frame later ih => exact ih (asked.absorb frame)

/-! ## Towards the application -/

def ClientPhase.busy : ClientPhase → Bool
  | .opened | .relaying _ => true
  | .pooled | .discarded _ => false

/-- What follows the data of a request on its way to the client. -/
def Ending (phase : Phase) (frames : List Frame) : Prop :=
  Quiet phase frames ∨ ∃ reason rest, frames = .endRequest reason :: rest ∧ Quiet phase rest

/-- What both ends have for each request, and the frames between them. The server is at the client's
request or has yet to open it; earlier requests have been answered in full. -/
inductive Answers : ClientPhase → List Bytes → List Bytes → Phase → List Frame → Prop where
  | settled {log phase down} : phase.mid = false → Quiet phase down → Answers .pooled log log phase down
  | awaiting {client log phase down} : client.busy = true → phase.mid = false → Quiet phase down →
      Answers client ([] :: log) log phase down
  | shared {client got log phase datas tail} : client.busy = true → Datas datas →
      tail = [] ∨ phase.mid = false ∧ Ending phase tail →
      Answers client (got :: log) ((got ++ (datas.map carried).flatten) :: log) phase (datas ++ tail)
  | leftAwaiting {closed log phase down} : phase.mid = false → Answers (.discarded closed) ([] :: log) log phase down
  | leftShared {closed got given log phase down} : got <+: given →
      Answers (.discarded closed) (got :: log) (given :: log) phase down

section
variable {client : ClientPhase} {mine theirs : List Bytes} {phase next : Phase} {down frames : List Frame}

theorem Answers.leave (h : Answers client mine theirs phase down) (busy : client.busy = true) (closed : Bool)
    (after : List Frame) : Answers (.discarded closed) mine theirs phase after := by
  cases h with
  | settled => cases busy
  | awaiting _ calm _ => exact .leftAwaiting calm
  | shared _ _ _ => exact .leftShared (List.prefix_append ..)
  | leftAwaiting => cases busy
  | leftShared => cases busy

theorem Answers.stay {after : ClientPhase} (h : Answers client mine theirs phase down) (busy : client.busy = true)
    (still : after.busy = true) : Answers after mine theirs phase down := by
  cases h with
  | settled => cases busy
  | awaiting _ calm quiet => exact .awaiting still calm quiet
  | shared _ datas tail => exact .shared still datas tail
  | leftAwaiting => cases busy
  | leftShared => cases busy

theorem Answers.carry {after : ClientPhase} {log : Log} (h : Answers client (downs log) theirs phase down)
    (bytes : Bytes) (busy : client.busy = true) (still : after.busy = true) :
    Answers after (downs (addUp bytes log)) theirs phase down := by
  rw [downs_addUp]
  exact h.stay busy still

theorem Answers.ask {mine theirs : List Bytes} (h : Answers .pooled mine theirs phase down) :
    Answers .opened ([] :: mine) theirs phase down := by
  cases h with
  | settled calm quiet => exact .awaiting rfl calm quiet
  | awaiting busy => cases busy
  | shared busy => cases busy

/-- What a busy client finds before it. -/
theorem Answers.take {frame : Frame} (h : Answers client mine theirs phase (frame :: down))
    (busy : client.busy = true) :
    (∃ bytes got log, frame = .data bytes ∧ mine = got :: log ∧
      Answers client ((got ++ bytes) :: log) theirs phase down) ∨
    (∃ reason, frame = .endRequest reason ∧ Answers .pooled mine theirs phase down) ∨ Parting frame := by
  generalize front : frame :: down = all at h
  have parts {rest : List Frame} (quiet : Quiet phase (frame :: rest)) : Parting frame := by
    rcases quiet with empty | ⟨-, parting⟩
    · cases empty
    · exact parting frame List.mem_cons_self
  cases h with
  | settled => cases busy
  | awaiting _ _ quiet =>
    subst front
    exact Or.inr (Or.inr (parts quiet))
  | @shared _ got log _ datas tail _ plain tails =>
    cases datas with
    | cons first datas =>
      obtain ⟨rfl, rfl⟩ := List.cons.inj front
      obtain ⟨⟨bytes, rfl⟩, later⟩ := Datas.cons plain
      refine Or.inl ⟨bytes, got, log, rfl, rfl, ?_⟩
      have regroup : got ++ ((Frame.data bytes :: datas).map carried).flatten =
          got ++ bytes ++ (datas.map carried).flatten := by simp [carried]
      rw [regroup]
      exact .shared busy later tails
    | nil =>
      rcases tails with rfl | ⟨calm, quiet | ⟨reason, rest, rfl, quiet⟩⟩
      · cases front
      · subst front
        exact Or.inr (Or.inr (parts quiet))
      · obtain ⟨rfl, rfl⟩ := List.cons.inj front
        refine Or.inr (Or.inl ⟨reason, rfl, ?_⟩)
        have same : got ++ (([] : List Frame).map carried).flatten = got := List.append_nil _
        rw [same]
        exact .settled calm quiet
  | leftAwaiting => cases busy
  | leftShared => cases busy

/-- The server opens a request: the one that the client waits for. -/
theorem Answers.open_ (h : Answers client mine theirs phase down) (runs : phase.isOver = false)
    (fewer : theirs.length < mine.length) : Answers client mine ([] :: theirs) .connecting (down ++ []) := by
  cases h with
  | settled => exact absurd fewer (Nat.lt_irrefl _)
  | awaiting busy _ quiet =>
    rw [quiet.eq_nil runs]
    have none : Datas [] := fun f member => by cases member
    have first : Answers client ([] :: theirs) (([] ++ (([] : List Frame).map carried).flatten) :: theirs) .connecting
        ([] ++ []) := .shared busy none (Or.inl rfl)
    exact first
  | shared => exact absurd fewer (Nat.lt_irrefl _)
  | leftAwaiting => exact .leftShared (List.prefix_refl _)
  | leftShared => exact absurd fewer (Nat.lt_irrefl _)

theorem Answers.speak {bytes : Bytes} {log : Log} (h : Answers client mine (downs log) phase down)
    (mid : phase.mid = true) : Answers client mine (downs (addDown bytes log)) next (down ++ [.data bytes]) := by
  generalize same : downs log = theirs at h
  have calmly {p : Prop} (calm : phase.mid = false) : p := by
    rw [mid] at calm
    cases calm
  cases h with
  | settled calm => exact calmly calm
  | awaiting _ calm => exact calmly calm
  | @shared _ got earlier _ datas tail busy plain tails =>
    cases log with
    | nil => cases same
    | cons d log =>
      obtain ⟨given, rfl⟩ := List.cons.inj same
      rcases tails with rfl | ⟨calm, -⟩
      · have regroup : downs (addDown bytes (d :: log)) =
            (got ++ ((datas ++ [Frame.data bytes]).map carried).flatten) :: downs log := by
          have given : d.down = got ++ (datas.map carried).flatten := given
          simp [downs, addDown, given, carried]
        have more : Datas (datas ++ [.data bytes]) := by
          intro f member
          rcases List.mem_append.mp member with old | new
          · exact plain f old
          · exact ⟨bytes, List.mem_singleton.mp new⟩
        have said : Answers client (got :: downs log)
            ((got ++ ((datas ++ [Frame.data bytes]).map carried).flatten) :: downs log) next
            ((datas ++ [Frame.data bytes]) ++ []) := .shared busy more (Or.inl rfl)
        rw [List.append_nil] at said ⊢
        rw [regroup]
        exact said
      · exact calmly calm
  | leftAwaiting calm => exact calmly calm
  | leftShared within =>
    cases log with
    | nil => cases same
    | cons d log =>
      obtain ⟨rfl, rfl⟩ := List.cons.inj same
      exact .leftShared (within.trans (List.prefix_append ..))

/-- The server sends nothing of a request, or its end and no more of it. -/
theorem Answers.quieten (h : Answers client mine theirs phase down) (runs : phase.isOver = false)
    (calm : next.mid = true → phase.mid = true)
    (said : Quiet next frames ∨
      phase.mid = true ∧ next.mid = false ∧ ∃ reason rest, frames = .endRequest reason :: rest ∧ Quiet next rest) :
    Answers client mine theirs next (down ++ frames) := by
  have settles (was : phase.mid = false) : next.mid = false ∧ Quiet next frames := by
    constructor
    · rw [Bool.eq_false_iff]
      intro speaking
      rw [calm speaking] at was
      cases was
    · rcases said with quiet | ⟨mid, -⟩
      · exact quiet
      · rw [mid] at was
        cases was
  cases h with
  | settled was quiet =>
    rw [quiet.eq_nil runs]
    exact .settled (settles was).1 (settles was).2
  | awaiting busy was quiet =>
    rw [quiet.eq_nil runs]
    exact .awaiting busy (settles was).1 (settles was).2
  | @shared _ got log _ datas tail busy plain tails =>
    rw [List.append_assoc]
    refine .shared busy plain ?_
    rcases tails with rfl | ⟨was, quiet | ⟨reason, rest, rfl, quiet⟩⟩
    · rw [List.nil_append]
      rcases said with (rfl | ⟨gone, parting⟩) | ⟨-, silent, ended⟩
      · exact Or.inl rfl
      · exact Or.inr ⟨Phase.not_mid_of_isOver gone, Or.inl (Or.inr ⟨gone, parting⟩)⟩
      · exact Or.inr ⟨silent, Or.inr ended⟩
    · rw [quiet.eq_nil runs, List.nil_append]
      exact Or.inr ⟨(settles was).1, Or.inl (settles was).2⟩
    · rw [quiet.eq_nil runs]
      exact Or.inr ⟨(settles was).1, Or.inr ⟨reason, frames, rfl, (settles was).2⟩⟩
  | leftAwaiting was => exact .leftAwaiting (settles was).1
  | leftShared within => exact .leftShared within

end

/-! ## Whole runs -/

namespace Traced

/-- `lost` are the frames that a loop took and turned down when it came to its end. -/
structure Inv (t : Traced) : Prop where
  asking : ∀ f ∈ t.pair.uplink, Asking f
  asked : ∃ lost, (lost ++ t.pair.uplink).foldl absorb (asks t.server) = asks t.client ∧
    (t.pair.server.phase.isOver = false → lost = [])
  answered : Answers t.pair.client (downs t.client) (downs t.server) t.pair.server.phase t.pair.downlink

theorem start_inv (idleAt : Nat) : Inv ⟨.start idleAt, [], []⟩ := by
  refine ⟨?_, ⟨[], rfl, fun _ => rfl⟩, .settled rfl (Or.inl rfl)⟩
  intro f member
  cases member

variable {t : Traced} {config : LoopConfig}

/-- The client sends `frame` and its log grows by what the frame carries. -/
theorem Inv.send {client : ClientPhase} {log : Log} {frame : Frame} (inv : t.Inv) (asking : Asking frame)
    (grown : asks log = absorb (asks t.client) frame)
    (answered : Answers client (downs log) (downs t.server) t.pair.server.phase t.pair.downlink) :
    Inv ⟨{ t.pair with client := client, uplink := t.pair.uplink ++ [frame] }, log, t.server⟩ := by
  obtain ⟨lost, whole, none⟩ := inv.asked
  refine ⟨?_, ⟨lost, ?_, none⟩, answered⟩
  · intro f member
    rcases List.mem_append.mp member with old | new
    · exact inv.asking f old
    · rw [List.mem_singleton.mp new]
      exact asking
  · show (lost ++ (t.pair.uplink ++ [frame])).foldl absorb (asks t.server) = asks log
    rw [← List.append_assoc, List.foldl_append, whole, grown]
    rfl

/-- The client sends nothing. -/
theorem Inv.hold {client : ClientPhase} {log : Log} {downlink : List Frame} (inv : t.Inv)
    (same : asks log = asks t.client)
    (answered : Answers client (downs log) (downs t.server) t.pair.server.phase downlink) :
    Inv ⟨{ t.pair with client := client, downlink := downlink }, log, t.server⟩ := by
  obtain ⟨lost, whole, none⟩ := inv.asked
  exact ⟨inv.asking, ⟨lost, whole.trans same.symm, none⟩, answered⟩

theorem openRequest_inv {cmd atyp : UInt8} {addr : Bytes} {port : UInt16} {next : Pair} (inv : t.Inv)
    (h : t.pair.step config (.openRequest cmd atyp addr port) = some next) :
    Inv ⟨next, requested t.client (.openRequest cmd atyp addr port), t.server⟩ := by
  have answered := inv.answered
  simp only [Pair.step] at h
  split at h
  · next pooled =>
    cases h
    rw [pooled] at answered
    exact inv.send (Or.inl ⟨cmd, atyp, addr, port, rfl⟩) rfl answered.ask
  · cases h

theorem firstPacket_inv {data : Option Bytes} {next : Pair} (inv : t.Inv)
    (h : t.pair.step config (.firstPacket data) = some next) :
    Inv ⟨next, requested t.client (.firstPacket data), t.server⟩ := by
  have answered := inv.answered
  simp only [Pair.step] at h
  split at h
  · next opened =>
    cases h
    rw [opened] at answered
    exact inv.hold rfl (answered.leave rfl false _)
  · next opened =>
    cases h
    rw [opened] at answered
    exact inv.hold (congrArg asks (addUp_nil _)) (answered.carry [] rfl rfl)
  · next data _ opened =>
    cases h
    rw [opened] at answered
    exact inv.send (Or.inr (Or.inl ⟨data, rfl⟩)) (asks_addUp ..) (answered.carry data rfl rfl)
  · cases h

theorem inbound_inv {read : Except IoError Bytes} {next : Pair} (inv : t.Inv)
    (h : t.pair.step config (.inbound read) = some next) :
    Inv ⟨next, requested t.client (.inbound read), t.server⟩ := by
  have answered := inv.answered
  simp only [Pair.step] at h
  split at h
  · next relay relaying =>
    rw [relaying] at answered
    split at h
    · cases h
    · rw [Option.some.injEq] at h
      subst h
      rcases read with err | (_ | ⟨byte, more⟩)
      · exact inv.hold rfl (answered.leave rfl _ _)
      · exact inv.send (Or.inr (Or.inr ⟨_, rfl⟩)) (congrArg asks (addUp_nil _)) (answered.carry [] rfl rfl)
      · exact inv.send (Or.inr (Or.inl ⟨byte :: more, rfl⟩)) (asks_addUp ..) (answered.carry _ rfl rfl)
  · cases h

theorem clientFrame_inv {relay : ClientRelay} {frame : Frame} {rest : List Frame} (inv : t.Inv)
    (relaying : t.pair.client = .relaying relay) (front : t.pair.downlink = frame :: rest) :
    Inv ⟨{ t.pair with downlink := rest }.clientBranch relay.clientClosed (relay.frameRead (.ok frame)),
      addDown (relay.frameRead (.ok frame)).delivered t.client, t.server⟩ := by
  have answered := inv.answered
  rw [relaying, front] at answered
  rcases answered.take rfl with ⟨bytes, got, log, rfl, mine, later⟩ | ⟨reason, rfl, later⟩ | ⟨reason, rfl | rfl⟩
  · have grown : downs (addDown bytes t.client) = (got ++ bytes) :: log := by
      cases same : t.client with
      | nil =>
        rw [same] at mine
        cases mine
      | cons d earlier =>
        rw [same] at mine
        obtain ⟨rfl, rfl⟩ := List.cons.inj mine
        rfl
    refine inv.hold (asks_addDown ..) ?_
    rw [ClientRelay.frameRead, Branch.delivered, grown]
    exact later.stay rfl rfl
  · have silent : addDown (relay.frameRead (.ok (.endRequest reason))).delivered t.client = t.client := addDown_nil _
    rw [silent]
    exact inv.hold rfl later
  · have silent : addDown (relay.frameRead (.ok (.close reason))).delivered t.client = t.client := addDown_nil _
    rw [silent]
    exact inv.hold rfl (answered.leave rfl _ _)
  · have silent : addDown (relay.frameRead (.ok (.reset reason))).delivered t.client = t.client := addDown_nil _
    rw [silent]
    exact inv.hold rfl (answered.leave rfl _ _)

theorem clientLost_inv {relay : ClientRelay} (inv : t.Inv) (relaying : t.pair.client = .relaying relay)
    (err : FrameError) (downlink : List Frame) :
    Inv ⟨{ t.pair with downlink := downlink }.clientBranch relay.clientClosed (relay.frameRead (.error err)),
      addDown (relay.frameRead (.error err)).delivered t.client, t.server⟩ := by
  have answered := inv.answered
  rw [relaying] at answered
  have silent : addDown (relay.frameRead (.error err)).delivered t.client = t.client := addDown_nil _
  rw [silent]
  exact inv.hold rfl (answered.leave rfl _ _)

/-- The frames that the event takes from the uplink. -/
def taken : LoopEvent → List Frame
  | .frame (.ok frame) => [frame]
  | _ => []

theorem turn_inv {client : ClientPhase} {mine theirs : Log} {phase next : Phase} {event : LoopEvent}
    {frames uplink downlink : List Frame} (turn : Turn phase event next frames) (runs : phase.isOver = false)
    (asked : (taken event ++ uplink).foldl absorb (asks theirs) = asks mine)
    (answered : Answers client (downs mine) (downs theirs) phase downlink) :
    (∃ lost, (lost ++ uplink).foldl absorb (asks (noted phase event next theirs)) = asks mine ∧
      (next.isOver = false → lost = [])) ∧
    Answers client (downs mine) (downs (noted phase event next theirs)) next (downlink ++ frames) := by
  cases turn with
  | @opened cmd atyp addr port opens =>
    rw [opens]
    refine ⟨⟨[], asked, fun _ => rfl⟩, answered.open_ runs ?_⟩
    have grown := length_absorbed uplink (absorb (asks theirs) (.openRequest cmd atyp addr port))
    rw [← length_asks, ← length_asks, ← asked]
    exact grown
  | took takes same =>
    rw [takes]
    refine ⟨⟨[], ?_, fun _ => rfl⟩, ?_⟩
    · rw [asks_addUp]
      exact asked
    · rw [downs_addUp]
      exact answered.quieten runs (fun mid => same ▸ mid) (Or.inl (Or.inl rfl))
  | answered speaks mid =>
    rw [speaks]
    refine ⟨⟨[], ?_, fun _ => rfl⟩, answered.speak mid⟩
    rw [asks_addDown]
    exact asked
  | @ended reason _ tail ends mid silent quiet =>
    rw [ends, addDown_nil]
    refine ⟨⟨[], asked, fun _ => rfl⟩, ?_⟩
    refine answered.quieten runs ?_ (Or.inr ⟨mid, silent, reason, tail, rfl, quiet⟩)
    intro speaking
    rw [silent] at speaking
    cases speaking
  | other ignored refused calm quiet =>
    rw [ignored]
    refine ⟨?_, answered.quieten runs calm (Or.inl quiet)⟩
    have nothing (none : taken event = []) : ∃ lost, (lost ++ uplink).foldl absorb (asks theirs) = asks mine ∧
        (next.isOver = false → lost = []) := by
      rw [none] at asked
      exact ⟨[], asked, fun _ => rfl⟩
    cases event with
    | frame result =>
      cases result with
      | error err => exact nothing rfl
      | ok frame =>
        rcases refused frame rfl with gone | ⟨reason, rfl⟩
        · refine ⟨[frame], asked, ?_⟩
          intro running
          rw [gone] at running
          cases running
        · exact ⟨[], asked, fun _ => rfl⟩
    | _ => exact nothing rfl

theorem server_inv {event : LoopEvent} {now : Nat} {uplink : List Frame} {after : ServerSession} (inv : t.Inv)
    (front : t.pair.uplink = taken event ++ uplink)
    (h : t.pair.server.step config ⟨event, now, [], .ok ()⟩ = some after) :
    Inv ⟨{ t.pair with server := after, uplink := uplink, downlink := t.pair.downlink ++ after.sent }, t.client,
      noted t.pair.server.phase event after.phase t.server⟩ := by
  have asking := inv.asking
  rw [front] at asking
  have given : ∀ frame, event = .frame (.ok frame) → Asking frame := by
    intro frame same
    subst same
    exact asking frame List.mem_cons_self
  have rest : ∀ f ∈ uplink, Asking f := fun f member => asking f (List.mem_append_right _ member)
  obtain ⟨lost, whole, none⟩ := inv.asked
  rcases ServerSession.step_turn given h with ⟨runs, turn⟩ | ⟨value, rfl, phase, sent⟩
  · rw [none runs, List.nil_append, front] at whole
    obtain ⟨asked, answered⟩ := turn_inv turn runs whole inv.answered
    exact ⟨rest, asked, answered⟩
  · have silent : noted t.pair.server.phase (.sendShutdown value) after.phase t.server = t.server := by
      cases t.pair.server.phase <;> rfl
    rw [silent, sent, List.append_nil]
    refine ⟨rest, ⟨lost, ?_, ?_⟩, ?_⟩
    · rw [front] at whole
      exact whole
    · rw [phase]
      exact none
    · rw [phase]
      exact inv.answered

end Traced

/-! ## What the logs have in common -/

theorem forall₂_of_downs {a b : Log} (same : downs a = downs b) :
    List.Forall₂ (fun c s : Dialogue => c.down <+: s.down) a b := by
  unfold downs at same
  rw [← List.forall₂_eq_eq_eq, List.forall₂_map_left_iff, List.forall₂_map_right_iff] at same
  exact same.imp fun c s equal => equal ▸ List.prefix_refl c.down

/-- Of the client's requests the older ones are the server's, and all but the newest are answered. -/
def Answered (mine theirs : Log) : Prop :=
  ∃ unserved shared, mine = unserved ++ shared ∧ (∀ d ∈ unserved, d.down = []) ∧
    List.Forall₂ (fun c s => c.down <+: s.down) shared theirs ∧ downs shared.tail = downs theirs.tail ∧
    (unserved ≠ [] → downs shared = downs theirs)

theorem answered_waiting {mine theirs : Log} {log : List Bytes} (got : downs mine = [] :: log)
    (given : downs theirs = log) : Answered mine theirs := by
  obtain ⟨d, rest, rfl, none, same⟩ := List.map_eq_cons_iff.mp got
  have same : downs rest = downs theirs := same.trans given.symm
  refine ⟨[d], rest, rfl, ?_, forall₂_of_downs same, ?_, fun _ => same⟩
  · intro other member
    rw [List.mem_singleton.mp member]
    exact none
  · rw [downs, List.map_tail, downs, List.map_tail]
    exact congrArg List.tail same

theorem answered_shared {mine theirs : Log} {part whole : Bytes} {log : List Bytes} (got : downs mine = part :: log)
    (given : downs theirs = whole :: log) (within : part <+: whole) : Answered mine theirs := by
  obtain ⟨c, mine, rfl, rfl, rfl⟩ := List.map_eq_cons_iff.mp got
  obtain ⟨s, theirs, rfl, rfl, same⟩ := List.map_eq_cons_iff.mp given
  refine ⟨[], c :: mine, rfl, ?_, .cons within (forall₂_of_downs same.symm), same.symm, fun more => absurd rfl more⟩
  intro d member
  cases member

theorem Answers.logs {client : ClientPhase} {mine theirs : Log} {phase : Phase} {down : List Frame}
    (h : Answers client (downs mine) (downs theirs) phase down) : Answered mine theirs := by
  generalize got : downs mine = a, given : downs theirs = b at h
  cases h with
  | settled =>
    have same : downs mine = downs theirs := got.trans given.symm
    refine ⟨[], mine, rfl, ?_, forall₂_of_downs same, ?_, fun _ => same⟩
    · intro d member
      cases member
    · rw [downs, List.map_tail, downs, List.map_tail]
      exact congrArg List.tail same
  | awaiting => exact answered_waiting got given
  | shared => exact answered_shared got given (List.prefix_append ..)
  | leftAwaiting => exact answered_waiting got given
  | leftShared within => exact answered_shared got given within

/-- With nothing on its way, a client that holds the session has all that the targets sent. -/
theorem Answers.complete {client : ClientPhase} {mine theirs : Log} {phase : Phase} {down : List Frame}
    (h : Answers client (downs mine) (downs theirs) phase down) (alive : client.alive = true) (empty : down = []) :
    ∃ unserved shared, mine = unserved ++ shared ∧ (∀ d ∈ unserved, d.down = []) ∧ downs shared = downs theirs := by
  generalize got : downs mine = a, given : downs theirs = b at h
  cases h with
  | settled =>
    refine ⟨[], mine, rfl, ?_, got⟩
    intro d member
    cases member
  | awaiting =>
    obtain ⟨d, rest, rfl, none, same⟩ := List.map_eq_cons_iff.mp got
    refine ⟨[d], rest, rfl, ?_, same⟩
    intro other member
    rw [List.mem_singleton.mp member]
    exact none
  | shared =>
    obtain ⟨rfl, rfl⟩ := List.append_eq_nil_iff.mp empty
    refine ⟨[], mine, rfl, ?_, ?_⟩
    · intro d member
      cases member
    · rw [got]
      simp
  | leftAwaiting => cases alive
  | leftShared => cases alive

/-- The requests of the server are the client's, but for newer ones that got no answer. Of the newest that
both have, the target got a part and the application got a part; of all older ones they got everything. -/
def Isolated (client server : Log) : Prop :=
  ∃ unserved shared, client = unserved ++ shared ∧ (∀ d ∈ unserved, d.down = []) ∧
    shared.map Dialogue.request = server.map Dialogue.request ∧
    List.Forall₂ (fun c s => s.up <+: c.up ∧ c.down <+: s.down) shared server ∧
    shared.tail.map Dialogue.up = server.tail.map Dialogue.up ∧
    shared.tail.map Dialogue.down = server.tail.map Dialogue.down ∧
    (unserved ≠ [] → shared.map Dialogue.down = server.map Dialogue.down)

theorem Asked.isolated {client server : Log} (asked : Asked (asks client) (asks server)) {unserved shared : Log}
    (split : client = unserved ++ shared) (lengths : shared.length = server.length) :
    shared.map Dialogue.request = server.map Dialogue.request ∧
      List.Forall₂ (fun c s : Dialogue => s.up <+: c.up) shared server ∧
      shared.tail.map Dialogue.up = server.tail.map Dialogue.up := by
  obtain ⟨newer, older, whole, requests, tails, within⟩ := asked
  have same : older = asks shared := by
    have both : asks unserved ++ asks shared = newer ++ older := by
      rw [← whole, split, asks, asks, asks, List.map_append]
    refine (List.append_inj_right' both ?_).symm
    rw [within.length_eq, asks, asks, List.length_map, List.length_map, lengths]
  subst same
  unfold asks at requests tails within
  rw [List.forall₂_map_left_iff, List.forall₂_map_right_iff] at within
  refine ⟨?_, within, ?_⟩
  · rw [List.map_map, List.map_map] at requests
    exact requests
  · rw [← List.map_tail, ← List.map_tail] at tails
    have ups := congrArg (List.map Prod.snd) tails
    rw [List.map_map, List.map_map] at ups
    exact ups

/-- What is missing is on its way, unless the end that would take it is gone. -/
theorem Traced.Inv.isolated {t : Traced} (inv : t.Inv) :
    Isolated t.client t.server ∧
    (t.pair.server.phase.isOver = false → t.pair.uplink = [] → asks t.client = asks t.server) ∧
    (t.pair.client.alive = true → t.pair.downlink = [] →
      ∃ unserved shared, t.client = unserved ++ shared ∧ (∀ d ∈ unserved, d.down = []) ∧
        downs shared = downs t.server) := by
  refine ⟨?_, ?_, ?_⟩
  · obtain ⟨unserved, shared, split, silent, answers, older, full⟩ := inv.answered.logs
    obtain ⟨lost, whole, -⟩ := inv.asked
    have asked : Asked (asks t.client) (asks t.server) := whole ▸ asked_absorbed _ (Asked.refl _)
    obtain ⟨requests, ups, tails⟩ := asked.isolated split answers.length_eq
    exact ⟨unserved, shared, split, silent, requests, ups.mp (fun _ _ up down => ⟨up, down⟩) answers, tails, older,
      full⟩
  · intro runs empty
    obtain ⟨lost, whole, none⟩ := inv.asked
    rw [none runs, empty] at whole
    exact whole.symm
  · intro alive empty
    exact inv.answered.complete alive empty

end NoisyShuttle.Shuttle
