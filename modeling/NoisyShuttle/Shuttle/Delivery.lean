import NoisyShuttle.Shuttle.OneShot

/-!
# What the one-shot tunnel delivers

Both peers get what the other wrote, in order, whatever the two ends and the sockets do, and all of it unless
an end fails.
-/

namespace NoisyShuttle.Shuttle
open Relation (ReflTransGen TransGen)

/-! ## The request header -/

theorem Cmd.eq_of_fromU8 {t : UInt8} {cmd : Cmd} (h : Cmd.fromU8 t = some cmd) : t = cmd.toU8 := by
  unfold Cmd.fromU8 at h
  split at h
  · next connect =>
    cases h
    exact connect
  · split at h
    · next associate =>
      cases h
      exact associate
    · cases h

section

variable {socks : Socks5Sync Addr}

theorem eq_of_readTrojanLikeRequest {bytes rest : Bytes} {req : TrojanLikeRequest Addr}
    (h : readTrojanLikeRequest socks.toSocks5 bytes = (.ok req, rest)) :
    bytes = req.encoded socks.toSocks5 ++ rest := by
  cases bytes with
  | nil => cases h
  | cons t stream =>
    unfold readTrojanLikeRequest at h
    dsimp only at h
    split at h
    · cases h
    · next cmd command =>
      split at h
      · cases h
      · next addr hi lo tail address =>
        split at h
        · next ends =>
          cases h
          have high : hi = 0x0d := by
            unfold ofBe16 crlf at ends
            have small := lo.toNat_lt
            apply UInt8.toNat_inj.mp
            change hi.toNat = 13
            omega
          have low : lo = 0x0a := by
            subst high
            unfold ofBe16 crlf at ends
            apply UInt8.toNat_inj.mp
            change lo.toNat = 10
            change 13 * 256 + lo.toNat = 3338 at ends
            omega
          have stream : stream = socks.write addr ++ hi :: lo :: rest := socks.read_ok _ _ _ address
          subst high low
          rw [Cmd.eq_of_fromU8 command, stream]
          unfold TrojanLikeRequest.encoded
          simp only [List.cons_append, List.append_assoc, List.nil_append]
        · cases h
      · cases h

/-- Two requests cannot both begin a stream. -/
theorem request_unique {req other : TrojanLikeRequest Addr} {stream : Bytes}
    (h : req.encoded socks.toSocks5 <+: other.encoded socks.toSocks5 ++ stream) : req = other := by
  obtain ⟨rest, same⟩ := h
  have one := readTrojanLikeRequest_encoded socks.toSocks5 req rest
  rw [same, readTrojanLikeRequest_encoded socks.toSocks5 other stream] at one
  cases one
  rfl

/-- What was read is too short for a request. -/
def AwaitsMore (socks : Socks5Sync Addr) (bytes : Bytes) : Prop :=
  ∃ err, err.kind = .unexpectedEof ∧ (readTrojanLikeRequest socks.toSocks5 bytes).1 = .error err

/-- The byte that completes a request is its last. -/
theorem request_complete {before : Bytes} {byte : UInt8} {req : TrojanLikeRequest Addr}
    (short : AwaitsMore socks before)
    (h : (readTrojanLikeRequest socks.toSocks5 (before ++ [byte])).1 = .ok req) :
    before ++ [byte] = req.encoded socks.toSocks5 := by
  cases parsed : readTrojanLikeRequest socks.toSocks5 (before ++ [byte]) with
  | mk result rest =>
    rw [parsed] at h
    dsimp only at h
    subst h
    have whole := eq_of_readTrojanLikeRequest parsed
    rcases List.eq_nil_or_concat rest with rfl | ⟨more, last, rfl⟩
    · rw [whole, List.append_nil]
    · rw [List.concat_eq_append, ← List.append_assoc] at whole
      obtain ⟨early, -⟩ := List.append_inj' whole rfl
      obtain ⟨err, -, failed⟩ := short
      rw [early, readTrojanLikeRequest_encoded] at failed
      cases failed

end

namespace OneShot

variable {socks : Socks5Sync Addr} {upSizes downSizes : Sizes} {s next : OneShot} {event : OneShotEvent}

def eaten (socks : Socks5Sync Addr) (s : OneShot) : Bytes :=
  match s.server.request with
  | some req => req.encoded socks.toSocks5
  | none => []

def Alive (s : OneShot) : Prop := s.client.isFailed = false ∧ s.server.isFailed = false

theorem headerByte_cases (short : AwaitsMore socks s.up.farHeld.queue)
    (h : s.headerByte socks = some next) :
    ∃ wire farHeld, s.up.wire.pull 1 s.up.farHeld = some (wire, farHeld) ∧
      ((∃ req, farHeld.queue = req.encoded socks.toSocks5 ∧
          next = { s with up := { s.up with wire := wire, farHeld := .empty }, server := .connecting req }) ∨
        next = { s with up := { s.up with wire := wire, farHeld := farHeld }, server := .reading } ∧
          AwaitsMore socks farHeld.queue ∨
        next = { s with up := { s.up with wire := wire, farHeld := farHeld }, server := .failed none }) := by
  obtain ⟨⟨wire, farHeld⟩, out, rfl⟩ := Option.map_eq_some_iff.mp h
  refine ⟨wire, farHeld, out, ?_⟩
  dsimp only
  split
  · next req parsed =>
    refine Or.inl ⟨req, ?_, rfl⟩
    obtain ⟨⟨-, some_, -⟩, -, rfl⟩ := Cell.pull_eq_some.mp out
    obtain ⟨byte, rest, queue⟩ := List.exists_cons_of_length_pos some_
    rw [queue] at parsed ⊢
    exact request_complete short parsed
  · next err parsed =>
    by_cases early : err.kind = .unexpectedEof
    · rw [if_pos early]
      exact Or.inr (Or.inl ⟨rfl, err, early, parsed⟩)
    · rw [if_neg early]
      exact Or.inr (Or.inr rfl)

/-! ## What the ends do -/

/-- What is left to do, apart from what the peers will still write. -/
def measure (socks : Socks5Sync Addr) (s : OneShot) : Nat :=
  Line.weight (s.up.line (s.eaten socks)) + Line.weight (s.down.line []) + s.client.left + s.server.left

/-- A step that moves what is on its way, and gets on. -/
structure Advanced (socks : Socks5Sync Addr) (s next : OneShot) : Prop where
  up : ReflTransGen Line.Step (s.up.line (s.eaten socks)) (next.up.line (next.eaten socks))
  down : ReflTransGen Line.Step (s.down.line []) (next.down.line [])
  finished : next.up.source.ended = s.up.source.ended ∧ next.down.source.ended = s.down.source.ended
  upForwarded : next.up.farAmt + (s.up.sink.queue.length + s.up.got.queue.length) =
    s.up.farAmt + (next.up.sink.queue.length + next.up.got.queue.length)
  downForwarded : next.down.farAmt + (s.down.sink.queue.length + s.down.got.queue.length) =
    s.down.farAmt + (next.down.sink.queue.length + next.down.got.queue.length)
  measure : next.measure socks < s.measure socks

theorem upMoved {up : Way} (line : ∀ eaten, TransGen Line.Step (s.up.line eaten) (up.line eaten))
    (ended : up.source.ended = s.up.source.ended)
    (forwarded : up.farAmt + (s.up.sink.queue.length + s.up.got.queue.length) =
      s.up.farAmt + (up.sink.queue.length + up.got.queue.length))
    {client : ClientStage} (left : client.left ≤ s.client.left) :
    Advanced socks s { s with up := up, client := client } := by
  refine ⟨(line _).to_reflTransGen, .refl, ⟨ended, rfl⟩, forwarded, rfl, ?_⟩
  have less := Line.weight_steps (line (s.eaten socks))
  have same : ({ s with up := up, client := client } : OneShot).eaten socks = (s.eaten socks) := rfl
  unfold measure
  rw [same]
  dsimp only
  omega

/-- A step that only changes the stage of an end. -/
theorem staged {client : ClientStage} {server : ServerStage} (request : server.request = s.server.request)
    (left : client.left + server.left < s.client.left + s.server.left) :
    Advanced socks s { s with client := client, server := server } := by
  have same : ({ s with client := client, server := server } : OneShot).eaten socks = (s.eaten socks) := by
    unfold eaten
    rw [request]
  refine ⟨?_, .refl, ⟨rfl, rfl⟩, rfl, rfl, ?_⟩
  · rw [same]
  · unfold measure
    rw [same]
    dsimp only
    omega

/-- What was read as the header is no longer on its way. -/
theorem headerByte_advanced (reading : s.server = .reading)
    (short : AwaitsMore socks s.up.farHeld.queue)
    (unused : s.up.sink = .empty ∧ s.up.got = .empty) (h : s.headerByte socks = some next) : Advanced socks s next := by
  obtain ⟨wire, farHeld, out, shape⟩ := headerByte_cases short h
  have noneEaten : (s.eaten socks) = [] := by
    unfold eaten
    rw [reading]
    rfl
  have first : Line.Step (s.up.line (s.eaten socks)) ({ s.up with wire := wire, farHeld := farHeld }.line []) := by
    rw [noneEaten]
    exact .later (.later (.later (.pull out)))
  have less := Line.weight_step first
  obtain ⟨⟨-, -, runs⟩, -, farHeldIs⟩ := Cell.pull_eq_some.mp out
  obtain ⟨noSink, noGot⟩ := unused
  rcases shape with ⟨req, header, rfl⟩ | ⟨rfl, -⟩ | rfl
  · -- the header goes on to the end of the row, to what was eaten
    have positive : 0 < (req.encoded socks.toSocks5).length := Nat.succ_pos _
    have second : Cell.pull (req.encoded socks.toSocks5).length farHeld s.up.sink =
        some (.empty, .holding (req.encoded socks.toSocks5)) := by
      refine Cell.pull_eq_some.mpr ⟨⟨positive, by rw [header], by rw [noSink]; rfl⟩, ?_, ?_⟩
      · rw [← header, List.drop_length, farHeldIs]
        rw [runs]
        rfl
      · rw [← header, List.take_length, noSink]
        rfl
    have third : Cell.pull (req.encoded socks.toSocks5).length (.holding (req.encoded socks.toSocks5)) s.up.got =
        some (s.up.sink, s.up.got.after (req.encoded socks.toSocks5)) := by
      refine Cell.pull_eq_some.mpr ⟨⟨positive, Nat.le_refl _, by rw [noGot]; rfl⟩, ?_, ?_⟩
      · rw [noSink]
        simp only [Cell.holding, List.drop_length]
        rfl
      · rw [noGot]
        simp only [Cell.holding, List.take_length, Cell.after, Cell.empty, List.nil_append, List.append_nil]
    have line : TransGen Line.Step (s.up.line (s.eaten socks))
        ({ s.up with wire := wire, farHeld := .empty }.line (req.encoded socks.toSocks5)) :=
      .tail (.tail (.single first) (.later (.later (.later (.later (.pull second))))))
        (.later (.later (.later (.later (.later (.pull third))))))
    have weight := Line.weight_steps line
    refine ⟨line.to_reflTransGen, .refl, ⟨rfl, rfl⟩, rfl, rfl, ?_⟩
    have left : s.server.left = 3 := by rw [reading]; rfl
    change Line.weight _ + _ + _ + 2 < _
    unfold measure
    rw [left]
    exact Nat.add_lt_add_of_lt_of_le (Nat.add_lt_add_right (Nat.add_lt_add_right weight _) _) (Nat.le_succ 2)
  · refine ⟨.single first, .refl, ⟨rfl, rfl⟩, rfl, rfl, ?_⟩
    have left : s.server.left = 3 := by rw [reading]; rfl
    change Line.weight _ + _ + _ + 3 < _
    unfold measure
    rw [left]
    exact Nat.add_lt_add_right (Nat.add_lt_add_right (Nat.add_lt_add_right less _) _) _
  · refine ⟨.single first, .refl, ⟨rfl, rfl⟩, rfl, rfl, ?_⟩
    change Line.weight _ + _ + _ + 0 < _
    unfold measure
    exact Nat.add_lt_add_of_lt_of_le (Nat.add_lt_add_right (Nat.add_lt_add_right less _) _) (Nat.zero_le _)

/-- What each event does. -/
inductive Happens (socks : Socks5Sync Addr) (upSizes downSizes : Sizes) (s : OneShot) : OneShotEvent → OneShot → Prop
  | up {event up} (may : s.mayUp event.actor = true) (stepped : s.up.Stepped upSizes event up) :
    Happens socks upSizes downSizes s (.up event) { s with up := up }
  | down {event down} (may : s.mayDown event.actor = true) (stepped : s.down.Stepped downSizes event down) :
    Happens socks upSizes downSizes s (.down event) { s with down := down }
  | firstRead {n source held} (opening : s.client = .opening)
    (fits : s.up.held.queue.length + n ≤ maxFirstPacketSize)
    (out : s.up.source.pull n s.up.held = some (source, held)) :
    Happens socks upSizes downSizes s (.firstRead n)
      { s with up := { s.up with source := source, held := held }, client := .sending n }
  | firstTimeout (opening : s.client = .opening) :
    Happens socks upSizes downSizes s .firstTimeout { s with client := .sending 0 }
  | initialSend {eager initlen up} (sending : s.client = .sending initlen)
    (out : s.up.send upSizes eager = some up) :
    Happens socks upSizes downSizes s (.initialSend eager) { s with up := up }
  | initialEmit {n initlen up} (sending : s.client = .sending initlen) (out : s.up.emit upSizes n = some up) :
    Happens socks upSizes downSizes s (.initialEmit n) { s with up := up }
  | sent {initlen} (sending : s.client = .sending initlen) (void : s.up.held.queue = []) :
    Happens socks upSizes downSizes s .sent { s with client := .copying initlen }
  | headerByte {after} (reading : s.server = .reading) (read : s.headerByte socks = some after) :
    Happens socks upSizes downSizes s .headerByte after
  | connected {req} (connecting : s.server = .connecting req) :
    Happens socks upSizes downSizes s .connected { s with server := .copying req }
  | clientReturns {initlen} (copying : s.client = .copying initlen) (wire : s.up.wire.ended = true)
    (sink : s.down.sink.ended = true) :
    Happens socks upSizes downSizes s .clientReturns
      { s with client := .returned (initlen + s.up.amt) s.down.farAmt }
  | serverReturns {req} (copying : s.server = .copying req) (sink : s.up.sink.ended = true)
    (wire : s.down.wire.ended = true) :
    Happens socks upSizes downSizes s .serverReturns
      { s with server := .returned req s.up.farAmt s.down.amt }
  | clientFails {wire sink} (runs : s.client.isOver = false) :
    Happens socks upSizes downSizes s (.clientFails wire sink)
      { s with
        up := { s.up with wire := s.up.wire.cut wire }
        down := { s.down with sink := s.down.sink.cut sink }
        client := .failed }
  | serverFails {wire sink} (runs : s.server.isOver = false) :
    Happens socks upSizes downSizes s (.serverFails wire sink)
      { s with
        up := { s.up with sink := s.up.sink.cut sink }
        down := { s.down with wire := s.down.wire.cut wire }
        server := .failed s.server.request }

theorem step_happens (h : s.step socks upSizes downSizes event = some next) :
    Happens socks upSizes downSizes s event next := by
  cases event with
  | up event =>
    simp only [step] at h
    split at h
    · next may =>
      obtain ⟨up, stepped, rfl⟩ := Option.map_eq_some_iff.mp h
      exact .up may (Way.step_stepped stepped)
    · cases h
  | down event =>
    simp only [step] at h
    split at h
    · next may =>
      obtain ⟨down, stepped, rfl⟩ := Option.map_eq_some_iff.mp h
      exact .down may (Way.step_stepped stepped)
    · cases h
  | firstRead n =>
    simp only [step] at h
    split at h
    · next opening =>
      split at h
      · next fits =>
        obtain ⟨⟨source, held⟩, out, rfl⟩ := Option.map_eq_some_iff.mp h
        exact .firstRead opening fits out
      · cases h
    · cases h
  | firstTimeout =>
    simp only [step] at h
    split at h
    · next opening =>
      split at h
      · cases h
        exact .firstTimeout opening
      · cases h
    · cases h
  | initialSend eager =>
    simp only [step] at h
    split at h
    · next initlen sending =>
      obtain ⟨up, out, rfl⟩ := Option.map_eq_some_iff.mp h
      exact .initialSend sending out
    · cases h
  | initialEmit n =>
    simp only [step] at h
    split at h
    · next initlen sending =>
      split at h
      · cases h
      · obtain ⟨up, out, rfl⟩ := Option.map_eq_some_iff.mp h
        exact .initialEmit sending out
    · cases h
  | sent =>
    simp only [step] at h
    split at h
    · next initlen sending =>
      split at h
      · next void =>
        cases h
        exact .sent sending void
      · cases h
    · cases h
  | headerByte =>
    simp only [step] at h
    split at h
    · next reading => exact .headerByte reading h
    · cases h
  | connected =>
    simp only [step] at h
    split at h
    · next req connecting =>
      split at h
      · cases h
        exact .connected connecting
      · cases h
    · cases h
  | clientReturns =>
    simp only [step] at h
    split at h
    · next initlen copying =>
      split at h
      · next both =>
        cases h
        exact .clientReturns copying both.1 both.2
      · cases h
    · cases h
  | serverReturns =>
    simp only [step] at h
    split at h
    · next req copying =>
      split at h
      · next both =>
        cases h
        exact .serverReturns copying both.1 both.2
      · cases h
    · cases h
  | clientFails wire sink =>
    simp only [step] at h
    split at h
    · cases h
    · next runs =>
      cases h
      exact .clientFails (Bool.not_eq_true _ ▸ runs)
  | serverFails wire sink =>
    simp only [step] at h
    split at h
    · cases h
    · next runs =>
      cases h
      exact .serverFails (Bool.not_eq_true _ ▸ runs)

/-- The server waits for the rest of the header, or for the target; the target has got nothing. -/
structure Reads (socks : Socks5Sync Addr) (addr : Addr) (s : OneShot) : Prop where
  request : ∀ req, s.server.request = some req → req = ⟨.connect, addr⟩
  unused : s.server.waits = true → s.up.farHeld.ended = false ∧ s.up.sink = .empty ∧ s.up.got = .empty
  short : s.server = .reading → AwaitsMore socks s.up.farHeld.queue
  nothing : s.server.request = none → s.up.sink.queue = [] ∧ s.up.got.queue = []

variable {addr : Addr}

theorem Happens.advanced (h : Happens socks upSizes downSizes s event next) (reads : s.Reads socks addr)
    (internal : event.internal = true) : Advanced socks s next := by
  cases h with
  | up _ stepped =>
    have moved := stepped.moved internal
    exact upMoved moved.line moved.finished moved.forwarded (Nat.le_refl _)
  | @down _ down _ stepped =>
    have moved := stepped.moved internal
    refine ⟨.refl, (moved.line []).to_reflTransGen, ⟨rfl, moved.finished⟩, rfl, moved.forwarded, ?_⟩
    have less := Line.weight_steps (moved.line [])
    have same : ({ s with down := down } : OneShot).eaten socks = (s.eaten socks) := rfl
    unfold measure
    rw [same]
    dsimp only
    omega
  | @firstRead _ source held opening _ out =>
    have line : ∀ eaten, TransGen Line.Step (s.up.line eaten)
        ({ s.up with source := source, held := held }.line eaten) := fun _ => .single (.pull out)
    refine upMoved line (Cell.pull_length out).1 rfl ?_
    rw [opening]
    exact Nat.le_succ 2
  | firstTimeout opening =>
    refine staged rfl ?_
    rw [opening]
    exact Nat.add_lt_add_right (Nat.lt_succ_self 2) _
  | initialSend _ out =>
    obtain ⟨held, staged, wire, rfl, -, -, -, -, -, line⟩ := Way.send_cases out
    exact upMoved line rfl rfl (Nat.le_refl _)
  | initialEmit _ out =>
    obtain ⟨staged, wire, rfl, -, -, -, line⟩ := Way.emit_cases out
    exact upMoved (fun eaten => .single (line eaten)) rfl rfl (Nat.le_refl _)
  | sent sending =>
    refine staged rfl ?_
    rw [sending]
    exact Nat.add_lt_add_right (Nat.lt_succ_self 1) _
  | headerByte reading read =>
    exact headerByte_advanced reading (reads.short reading) (reads.unused (by rw [reading]; rfl)).2 read
  | connected connecting =>
    refine staged ?_ ?_
    · rw [connecting]
      rfl
    · rw [connecting]
      exact Nat.add_lt_add_left (Nat.lt_succ_self 1) _
  | clientReturns copying =>
    refine staged rfl ?_
    rw [copying]
    exact Nat.add_lt_add_right (Nat.lt_succ_self 0) _
  | serverReturns copying =>
    refine staged ?_ ?_
    · rw [copying]
      rfl
    · rw [copying]
      exact Nat.add_lt_add_left (Nat.lt_succ_self 0) _
  | clientFails => cases internal
  | serverFails => cases internal

theorem not_far {actor : Actor} (idle : s.server.isCopying = false) (may : s.mayUp actor = true) : actor ≠ .far := by
  rintro rfl
  exact absurd (idle.symm.trans may) Bool.false_ne_true

theorem not_copying (waits : s.server.waits = true ∨ s.server.request = none) : s.server.isCopying = false := by
  cases server : s.server with
  | copying req =>
    rw [server] at waits
    rcases waits with waits | none
    · cases waits
    · cases none
  | _ => rfl

/-! ## Whole runs -/

def inbound (events : List OneShotEvent) : Bytes := events.flatMap OneShotEvent.inbound

def replies (events : List OneShotEvent) : Bytes := events.flatMap OneShotEvent.reply

theorem inbound_concat (past : List OneShotEvent) (event : OneShotEvent) :
    inbound (past ++ [event]) = inbound past ++ event.inbound := by
  simp [inbound]

theorem replies_concat (past : List OneShotEvent) (event : OneShotEvent) :
    replies (past ++ [event]) = replies past ++ event.reply := by
  simp [replies]

/-- What the client will count as sent. -/
structure Counted (n : Nat) (s : OneShot) : Prop where
  opening : s.client = .opening → s.up.amt = 0 ∧ s.up.source.queue.length = n
  sending : ∀ initlen, s.client = .sending initlen → s.up.amt = 0 ∧ initlen + s.up.source.queue.length = n
  copying : ∀ initlen, s.client = .copying initlen →
    initlen + (s.up.amt + s.up.held.queue.length + s.up.source.queue.length) = n
  returned : ∀ tx rx, s.client = .returned tx rx →
    tx + (s.up.held.queue.length + s.up.source.queue.length) = n ∧ rx = s.down.farAmt ∧
      s.up.wire.ended = true ∧ s.down.sink.ended = true

/-- What the server will count as sent. -/
structure Answered (n : Nat) (s : OneShot) : Prop where
  sent : s.down.amt + s.down.held.queue.length + s.down.source.queue.length = n
  returned : ∀ req tx rx, s.server = .returned req tx rx →
    tx = s.up.farAmt ∧ rx = s.down.amt ∧ s.up.sink.ended = true ∧ s.down.wire.ended = true

structure Sound (socks : Socks5Sync Addr) (addr : Addr) (payload : Bytes) (past : List OneShotEvent) (s : OneShot) :
    Prop where
  reads : s.Reads socks addr
  up : s.up.Flow (s.eaten socks) (trojanHeader socks.toSocks5 addr ++ payload ++ inbound past) s.Alive
    (.up .finish ∈ past)
  down : s.down.Flow [] (replies past) s.Alive (.down .finish ∈ past)
  counted : s.Counted (inbound past).length
  answered : s.Answered (replies past).length

variable {payload : Bytes} {past : List OneShotEvent}

theorem Reads.over (request : ∀ req, s.server.request = some req → req = ⟨.connect, addr⟩)
    (nothing : s.server.request = none → s.up.sink.queue = [] ∧ s.up.got.queue = [])
    (gone : s.server.waits = false) : s.Reads socks addr := by
  refine ⟨request, ?_, ?_, nothing⟩
  · intro waits
    rw [gone] at waits
    cases waits
  · intro reading
    rw [reading] at gone
    cases gone

theorem eaten_reading (reading : s.server = .reading) : (s.eaten socks) = [] := by
  unfold eaten
  rw [reading]
  rfl

theorem Happens.reads {rest : Bytes} {alive finished : Prop} (h : Happens socks upSizes downSizes s event next)
    (reads : s.Reads socks addr)
    (flow : s.up.Flow (s.eaten socks) (trojanHeader socks.toSocks5 addr ++ rest) alive finished) :
    next.Reads socks addr := by
  have same : ∀ {down client} {up : Way}, up.farHeld = s.up.farHeld → up.sink = s.up.sink → up.got = s.up.got →
      Reads socks addr ⟨up, down, client, s.server⟩ := by
    rintro down client up farHeld sink got
    refine ⟨reads.request, ?_, ?_, ?_⟩
    · rw [farHeld, sink, got]
      exact reads.unused
    · rw [farHeld]
      exact reads.short
    · rw [sink, got]
      exact reads.nothing
  cases h with
  | @up event up may stepped =>
    refine ⟨reads.request, ?_, ?_, ?_⟩
    · intro waits
      have other := not_far (not_copying (Or.inl waits)) may
      obtain ⟨runs, noSink, noGot⟩ := reads.unused waits
      obtain ⟨sink, got⟩ := stepped.unused other noSink
      exact ⟨(stepped.far other).1 ▸ runs, sink, got.trans noGot⟩
    · intro reading
      have waits : s.server.waits = true := by
        change s.server = _ at reading
        rw [reading]
        rfl
      rw [(stepped.far (not_far (not_copying (Or.inl waits)) may)).1]
      exact reads.short reading
    · intro none
      obtain ⟨noSink, noGot⟩ := reads.nothing none
      obtain ⟨sink, got⟩ := stepped.nothing (not_far (not_copying (Or.inr none)) may) noSink
      exact ⟨sink, got.trans noGot⟩
  | initialSend _ out =>
    obtain ⟨held, staged, wire, rfl, -⟩ := Way.send_cases out
    exact same rfl rfl rfl
  | initialEmit _ out =>
    obtain ⟨staged, wire, rfl, -⟩ := Way.emit_cases out
    exact same rfl rfl rfl
  | headerByte reading read =>
    obtain ⟨runs, noSink, noGot⟩ := reads.unused (by rw [reading]; rfl)
    obtain ⟨wire, farHeld, out, shape⟩ := headerByte_cases (reads.short reading) read
    have still : farHeld.ended = false := (Cell.pull_length out).2.1.trans runs
    have nothing : s.up.sink.queue = [] ∧ s.up.got.queue = [] := by
      rw [noSink, noGot]
      exact ⟨rfl, rfl⟩
    rcases shape with ⟨req, header, rfl⟩ | ⟨rfl, short⟩ | rfl
    · refine ⟨?_, fun _ => ⟨rfl, noSink, noGot⟩, ?_, fun _ => nothing⟩
      · intro other same
        cases same
        rw [eaten_reading reading] at flow
        have first : req.encoded socks.toSocks5 <+: trojanHeader socks.toSocks5 addr ++ rest := by
          rw [← header]
          exact flow.header out still noSink noGot
        exact request_unique first
      · intro later
        cases later
    · refine ⟨?_, fun _ => ⟨still, noSink, noGot⟩, fun _ => short, fun _ => nothing⟩
      intro other same
      cases same
    · refine .over ?_ (fun _ => nothing) rfl
      intro other same
      cases same
  | connected connecting =>
    refine .over ?_ ?_ rfl
    · intro req same
      exact reads.request req (by rw [connecting]; exact same)
    · intro none
      cases none
  | serverReturns copying =>
    refine .over ?_ ?_ rfl
    · intro req same
      exact reads.request req (by rw [copying]; exact same)
    · intro none
      cases none
  | serverFails =>
    refine .over reads.request ?_ rfl
    intro none
    obtain ⟨noSink, noGot⟩ := reads.nothing none
    refine ⟨?_, noGot⟩
    simp only [Cell.cut, noSink, List.take_nil]
  | _ => exact same rfl rfl rfl

theorem Happens.counted {n : Nat} (h : Happens socks upSizes downSizes s event next) (counted : s.Counted n) :
    next.Counted (n + event.inbound.length) := by
  cases h with
  | @up event up may stepped =>
    have waits : s.client.isCopying = false → event.actor ≠ .near := by
      rintro still same
      rw [same] at may
      exact absurd (still.symm.trans may) Bool.false_ne_true
    refine ⟨?_, ?_, ?_, ?_⟩
    · intro opening
      obtain ⟨-, -, amt, -, source⟩ := stepped.near (waits (by rw [opening]; rfl))
      obtain ⟨zero, length⟩ := counted.opening opening
      refine ⟨amt.trans zero, ?_⟩
      change up.source.queue.length = _
      rw [source, List.length_append, length]
      rfl
    · intro initlen sending
      obtain ⟨-, -, amt, -, source⟩ := stepped.near (waits (by rw [sending]; rfl))
      obtain ⟨zero, length⟩ := counted.sending initlen sending
      refine ⟨amt.trans zero, ?_⟩
      change initlen + up.source.queue.length = n + event.written.length
      rw [source, List.length_append]
      omega
    · intro initlen copying
      have before := counted.copying initlen copying
      have sent := stepped.sent
      change initlen + (up.amt + up.held.queue.length + up.source.queue.length) = n + event.written.length
      omega
    · intro tx rx returned
      obtain ⟨held, -, -, -, source⟩ := stepped.near (waits (by rw [returned]; rfl))
      obtain ⟨length, answered, wire, sink⟩ := counted.returned tx rx returned
      refine ⟨?_, answered, stepped.wire wire, sink⟩
      change tx + (up.held.queue.length + up.source.queue.length) = n + event.written.length
      rw [held, source, List.length_append]
      omega
  | @down event down may stepped =>
    refine ⟨counted.opening, counted.sending, counted.copying, ?_⟩
    intro tx rx returned
    have other : event.actor ≠ .far := by
      rintro same
      rw [same] at may
      change s.client.isCopying = true at may
      rw [returned] at may
      cases may
    obtain ⟨length, answered, wire, sink⟩ := counted.returned tx rx returned
    exact ⟨length, answered.trans (stepped.far other).2.symm, wire, stepped.sink sink⟩
  | @firstRead m source held opening _ out =>
    obtain ⟨zero, length⟩ := counted.opening opening
    obtain ⟨-, -, less, -⟩ := Cell.pull_length out
    refine ⟨fun later => (by cases later), ?_, fun _ later => (by cases later), fun _ _ later => (by cases later)⟩
    intro initlen sending
    cases sending
    refine ⟨zero, ?_⟩
    change m + source.queue.length = n
    omega
  | firstTimeout opening =>
    obtain ⟨zero, length⟩ := counted.opening opening
    refine ⟨fun later => (by cases later), ?_, fun _ later => (by cases later), fun _ _ later => (by cases later)⟩
    intro initlen sending
    cases sending
    exact ⟨zero, (Nat.zero_add _).trans length⟩
  | initialSend sending out =>
    obtain ⟨held, staged, wire, rfl, -⟩ := Way.send_cases out
    refine ⟨counted.opening, counted.sending, ?_, ?_⟩
    · intro initlen copying
      cases sending.symm.trans copying
    · intro tx rx returned
      cases sending.symm.trans returned
  | initialEmit sending out =>
    obtain ⟨staged, wire, rfl, -⟩ := Way.emit_cases out
    refine ⟨counted.opening, counted.sending, counted.copying, ?_⟩
    intro tx rx returned
    cases sending.symm.trans returned
  | sent sending void =>
    obtain ⟨zero, length⟩ := counted.sending _ sending
    refine ⟨fun later => (by cases later), fun _ later => (by cases later), ?_, fun _ _ later => (by cases later)⟩
    intro initlen copying
    cases copying
    have none : s.up.held.queue.length = 0 := by rw [void, List.length_nil]
    change _ + (s.up.amt + s.up.held.queue.length + s.up.source.queue.length) = n
    omega
  | headerByte reading read =>
    obtain ⟨⟨wire, farHeld⟩, out, rfl⟩ := Option.map_eq_some_iff.mp read
    have ended := (Cell.pull_length out).1
    dsimp only
    split
    · exact ⟨counted.opening, counted.sending, counted.copying, fun tx rx returned =>
        ⟨(counted.returned tx rx returned).1, (counted.returned tx rx returned).2.1,
          ended.trans (counted.returned tx rx returned).2.2.1, (counted.returned tx rx returned).2.2.2⟩⟩
    · exact ⟨counted.opening, counted.sending, counted.copying, fun tx rx returned =>
        ⟨(counted.returned tx rx returned).1, (counted.returned tx rx returned).2.1,
          ended.trans (counted.returned tx rx returned).2.2.1, (counted.returned tx rx returned).2.2.2⟩⟩
  | connected => exact ⟨counted.opening, counted.sending, counted.copying, counted.returned⟩
  | clientReturns copying wire sink =>
    have before := counted.copying _ copying
    refine ⟨fun later => (by cases later), fun _ later => (by cases later), fun _ later => (by cases later), ?_⟩
    intro tx rx returned
    cases returned
    refine ⟨?_, rfl, wire, sink⟩
    dsimp only [OneShotEvent.inbound, List.length_nil]
    omega
  | serverReturns => exact ⟨counted.opening, counted.sending, counted.copying, counted.returned⟩
  | clientFails =>
    exact ⟨fun later => (by cases later), fun _ later => (by cases later), fun _ later => (by cases later),
      fun _ _ later => (by cases later)⟩
  | serverFails => exact ⟨counted.opening, counted.sending, counted.copying, counted.returned⟩

theorem Happens.answered {n : Nat} (h : Happens socks upSizes downSizes s event next) (answered : s.Answered n) :
    next.Answered (n + event.reply.length) := by
  cases h with
  | @up event up may stepped =>
    refine ⟨answered.sent, ?_⟩
    intro req tx rx returned
    have other : event.actor ≠ .far := by
      rintro same
      rw [same] at may
      change s.server.isCopying = true at may
      rw [returned] at may
      cases may
    obtain ⟨forwarded, length, sink, wire⟩ := answered.returned req tx rx returned
    exact ⟨forwarded.trans (stepped.far other).2.symm, length, stepped.sink sink, wire⟩
  | @down event down may stepped =>
    refine ⟨?_, ?_⟩
    · have before := answered.sent
      have sent := stepped.sent
      change down.amt + down.held.queue.length + down.source.queue.length = n + event.written.length
      omega
    · intro req tx rx returned
      have other : event.actor ≠ .near := by
        rintro same
        rw [same] at may
        change s.server.isCopying = true at may
        rw [returned] at may
        cases may
      obtain ⟨forwarded, length, sink, wire⟩ := answered.returned req tx rx returned
      exact ⟨forwarded, length.trans (stepped.near other).2.2.1.symm, sink, stepped.wire wire⟩
  | initialSend _ out =>
    obtain ⟨held, staged, wire, rfl, -⟩ := Way.send_cases out
    exact ⟨answered.sent, answered.returned⟩
  | initialEmit _ out =>
    obtain ⟨staged, wire, rfl, -⟩ := Way.emit_cases out
    exact ⟨answered.sent, answered.returned⟩
  | headerByte reading read =>
    obtain ⟨⟨wire, farHeld⟩, out, rfl⟩ := Option.map_eq_some_iff.mp read
    dsimp only
    split
    · exact ⟨answered.sent, fun _ _ _ later => (by cases later)⟩
    · refine ⟨answered.sent, ?_⟩
      intro req tx rx returned
      dsimp only at returned
      split at returned <;> cases returned
  | connected => exact ⟨answered.sent, fun _ _ _ later => (by cases later)⟩
  | serverReturns copying sink wire =>
    refine ⟨answered.sent, ?_⟩
    intro req tx rx returned
    cases returned
    exact ⟨rfl, rfl, sink, wire⟩
  | serverFails => exact ⟨answered.sent, fun _ _ _ later => (by cases later)⟩
  | _ => exact ⟨answered.sent, answered.returned⟩

theorem Happens.alive (h : Happens socks upSizes downSizes s event next) (alive : next.Alive) : s.Alive := by
  obtain ⟨client, server⟩ := alive
  cases h with
  | firstRead opening => exact ⟨by rw [opening]; rfl, server⟩
  | firstTimeout opening => exact ⟨by rw [opening]; rfl, server⟩
  | sent sending => exact ⟨by rw [sending]; rfl, server⟩
  | headerByte reading read =>
    obtain ⟨out, -, rfl⟩ := Option.map_eq_some_iff.mp read
    refine ⟨?_, by rw [reading]; rfl⟩
    dsimp only at client
    split at client <;> exact client
  | connected connecting => exact ⟨client, by rw [connecting]; rfl⟩
  | clientReturns copying => exact ⟨by rw [copying]; rfl, server⟩
  | serverReturns copying => exact ⟨client, by rw [copying]; rfl⟩
  | clientFails => cases client
  | serverFails => cases server
  | _ => exact ⟨client, server⟩

theorem Advanced.flows {up down : Bytes} {alive alive' finished finished' ended ended' : Prop}
    (advanced : Advanced socks s next) (flowUp : s.up.Flow (s.eaten socks) up alive finished)
    (flowDown : s.down.Flow [] down alive ended) (less : alive' → alive) (more : finished → finished')
    (more' : ended → ended') :
    next.up.Flow (next.eaten socks) up alive' finished' ∧ next.down.Flow [] down alive' ended' :=
  ⟨(flowUp.along advanced.up advanced.finished.1 advanced.upForwarded).weaken less more,
    (flowDown.along advanced.down advanced.finished.2 advanced.downForwarded).weaken less more'⟩

theorem step_sound (past : List OneShotEvent) (s : OneShot) (event : OneShotEvent) (next : OneShot)
    (sound : s.Sound socks addr payload past) (h : s.step socks upSizes downSizes event = some next) :
    next.Sound socks addr payload (past ++ [event]) := by
  have happens := step_happens h
  have reads : next.Reads socks addr := by
    have flow := sound.up
    rw [List.append_assoc] at flow
    exact happens.reads sound.reads flow
  have counted : next.Counted (inbound (past ++ [event])).length := by
    rw [inbound_concat, List.length_append]
    exact happens.counted sound.counted
  have answered : next.Answered (replies (past ++ [event])).length := by
    rw [replies_concat, List.length_append]
    exact happens.answered sound.answered
  have flows : next.up.Flow (next.eaten socks)
      (trojanHeader socks.toSocks5 addr ++ payload ++ inbound (past ++ [event])) next.Alive
        (.up .finish ∈ past ++ [event]) ∧
      next.down.Flow [] (replies (past ++ [event])) next.Alive (.down .finish ∈ past ++ [event]) := by
    have kept : ∀ {e : OneShotEvent}, e ∈ past → e ∈ past ++ [event] := List.mem_append_left _
    have less : next.Alive → s.Alive := happens.alive
    rw [inbound_concat, replies_concat, ← List.append_assoc (trojanHeader socks.toSocks5 addr ++ payload)]
    cases internal : event.internal with
    | true =>
      obtain ⟨silent, mute⟩ := OneShotEvent.silent internal
      rw [silent, mute, List.append_nil, List.append_nil]
      exact (happens.advanced sound.reads internal).flows sound.up sound.down less kept kept
    | false =>
      cases happens with
      | @up event _ _ stepped =>
        refine ⟨(sound.up.step stepped).weaken less ?_, ?_⟩
        · rintro (before | rfl)
          · exact kept before
          · exact List.mem_append_right _ List.mem_cons_self
        · have same : replies past ++ (OneShotEvent.up event).reply = replies past := List.append_nil _
          rw [same]
          exact sound.down.weaken less kept
      | @down event _ _ stepped =>
        refine ⟨?_, (sound.down.step stepped).weaken less ?_⟩
        · have same : ∀ stream : Bytes, stream ++ (OneShotEvent.down event).inbound = stream := List.append_nil
          rw [same]
          exact sound.up.weaken less kept
        · rintro (before | rfl)
          · exact kept before
          · exact List.mem_append_right _ List.mem_cons_self
      | @clientFails wire sink _ =>
        have dead : ∀ up down, ¬ Alive ⟨up, down, .failed, s.server⟩ := by
          rintro up down ⟨client, -⟩
          cases client
        have up : ∀ stream : Bytes, stream ++ (OneShotEvent.clientFails wire sink).inbound = stream := List.append_nil
        have down : ∀ stream : Bytes, stream ++ (OneShotEvent.clientFails wire sink).reply = stream := List.append_nil
        rw [up, down]
        exact ⟨sound.up.cutWire wire (dead _ _), sound.down.cutSink sink (dead _ _)⟩
      | @serverFails wire sink _ =>
        have dead : ∀ up down, ¬ Alive ⟨up, down, s.client, .failed s.server.request⟩ := by
          rintro up down ⟨-, server⟩
          cases server
        have up : ∀ stream : Bytes, stream ++ (OneShotEvent.serverFails wire sink).inbound = stream := List.append_nil
        have down : ∀ stream : Bytes, stream ++ (OneShotEvent.serverFails wire sink).reply = stream := List.append_nil
        rw [up, down]
        exact ⟨sound.up.cutSink sink (dead _ _), sound.down.cutWire wire (dead _ _)⟩
      | _ => cases internal
  exact ⟨reads, flows.1, flows.2, counted, answered⟩

theorem start_sound (addr : Addr) (payload : Bytes) (direct : Bool) :
    (start (trojanHeader socks.toSocks5 addr ++ payload) direct).Sound socks addr payload [] := by
  have up : trojanHeader socks.toSocks5 addr ++ payload ++ inbound [] = trojanHeader socks.toSocks5 addr ++ payload :=
    List.append_nil _
  have whole : ∀ items : Bytes, Line.contents ((Way.holding items).line []) = items := by
    intro items
    simp [Line.contents, Way.line, Way.holding, Cell.empty, Cell.holding, Cell.after]
  have ordered : ∀ items : Bytes, Line.Ordered ((Way.holding items).line []) := by
    intro items
    simp [Line.Ordered, Way.line, Way.holding, Cell.empty, Cell.holding, Cell.after]
  refine ⟨⟨?_, fun _ => ⟨rfl, rfl, rfl⟩, fun _ => ⟨unexpectedEnd, rfl, rfl⟩, fun _ => ⟨rfl, rfl⟩⟩, ?_, ?_,
    ⟨?_, ?_, ?_, ?_⟩, ⟨rfl, ?_⟩⟩
  · intro req same
    cases same
  · rw [up]
    exact ⟨Or.inl (whole _), fun _ => whole _, fun _ => ordered _, fun _ => rfl, fun _ later => by cases later⟩
  · exact ⟨Or.inl (whole _), fun _ => whole _, fun _ => ordered _, fun _ => rfl, fun _ later => by cases later⟩
  · intro _
    exact ⟨rfl, rfl⟩
  · intro initlen sending
    cases direct with
    | true =>
      cases sending
      exact ⟨rfl, rfl⟩
    | false => cases sending
  · intro initlen copying
    cases direct <;> cases copying
  · intro tx rx returned
    cases direct <;> cases returned
  · intro req tx rx returned
    cases returned

theorem run_sound {direct : Bool} {events : List OneShotEvent}
    (h : run (step socks upSizes downSizes) (start (trojanHeader socks.toSocks5 addr ++ payload) direct) events =
      some s) :
    s.Sound socks addr payload events :=
  history_invariant step_sound (start_sound addr payload direct) h

theorem Sound.eaten_cases (sound : s.Sound socks addr payload past) :
    (s.eaten socks) = [] ∧ s.up.got.queue = [] ∨ (s.eaten socks) = trojanHeader socks.toSocks5 addr := by
  unfold eaten
  cases request : s.server.request with
  | none => exact Or.inl ⟨rfl, (sound.reads.nothing request).2⟩
  | some req =>
    cases sound.reads.request req request
    exact Or.inr rfl

/-- What the target has got follows the header. -/
theorem Sound.target (sound : s.Sound socks addr payload past) : s.up.got.queue <+: payload ++ inbound past := by
  have got := sound.up.got
  rcases sound.eaten_cases with ⟨-, nothing⟩ | header
  · rw [nothing]
    exact List.nil_prefix
  · rw [header, List.append_assoc] at got
    exact (List.prefix_append_right_inj _).mp got

theorem Sound.targetAll (sound : s.Sound socks addr payload past)
    (whole : (s.eaten socks) ++ s.up.got.queue = trojanHeader socks.toSocks5 addr ++ payload ++ inbound past) :
    s.up.got.queue = payload ++ inbound past := by
  rcases sound.eaten_cases with ⟨none, nothing⟩ | header
  · rw [none, nothing] at whole
    cases whole
  · rw [header, List.append_assoc] at whole
    exact List.append_cancel_left whole

theorem Sound.clientDone (sound : s.Sound socks addr payload past) (alive : s.Alive) {tx rx : Nat}
    (returned : s.client = .returned tx rx) : tx = (inbound past).length ∧ rx = (replies past).length := by
  obtain ⟨count, answered, wire, sink⟩ := sound.counted.returned tx rx returned
  have gone := sound.up.shut alive wire
  have source := (gone s.up.source (by simp)).2
  have held := (gone s.up.held (by simp)).2
  have whole := sound.down.closed alive sink
  have forwarded := sound.down.forwarded alive
  rw [source, held] at count
  rw [← whole, List.nil_append, List.length_append, answered, forwarded]
  exact ⟨count, Nat.add_comm _ _⟩

theorem Sound.serverDone (sound : s.Sound socks addr payload past) (alive : s.Alive)
    {req : TrojanLikeRequest Addr} {tx rx : Nat} (returned : s.server = .returned req tx rx) :
    tx = (payload ++ inbound past).length ∧ rx = (replies past).length := by
  obtain ⟨forwarded, answered, sink, wire⟩ := sound.answered.returned req tx rx returned
  have gone := sound.down.shut alive wire
  have source := (gone s.down.source (by simp)).2
  have held := (gone s.down.held (by simp)).2
  have whole := sound.up.closed alive sink
  have count := sound.answered.sent
  have header : (s.eaten socks) = trojanHeader socks.toSocks5 addr := by
    unfold eaten
    rw [returned, sound.reads.request req (by rw [returned]; rfl)]
    rfl
  rw [header, List.append_assoc, List.append_cancel_left_eq] at whole
  rw [source, held] at count
  refine ⟨?_, answered.trans count⟩
  rw [forwarded, sound.up.forwarded alive, ← whole, List.length_append, Nat.add_comm]

end OneShot

/-- One request over a tunnel of its own, whatever the two ends, the peers and the sockets do and in whatever
order: the server reads the request of the client; the target gets a first part of the payload and of what the
application writes, the application a first part of what the target writes. Unless an end fails, a peer that
gets the end has got everything; and what the ends count is what the peers wrote. -/
theorem one_shot_integrity (socks : Socks5Sync Addr) (upSizes downSizes : Sizes) (addr : Addr) (payload : Bytes)
    (direct : Bool) (events : List OneShotEvent) (s : OneShot)
    (h : run (OneShot.step socks upSizes downSizes) (.start (trojanHeader socks.toSocks5 addr ++ payload) direct)
      events = some s) :
    (∀ req, s.server.request = some req → req = ⟨.connect, addr⟩) ∧
    s.up.got.queue <+: payload ++ OneShot.inbound events ∧ s.down.got.queue <+: OneShot.replies events ∧
    (s.Alive →
      (s.up.got.ended = true → s.up.got.queue = payload ++ OneShot.inbound events ∧ .up .finish ∈ events) ∧
      (s.down.got.ended = true → s.down.got.queue = OneShot.replies events ∧ .down .finish ∈ events) ∧
      (∀ tx rx, s.client = .returned tx rx →
        tx = (OneShot.inbound events).length ∧ rx = (OneShot.replies events).length) ∧
      ∀ req tx rx, s.server = .returned req tx rx →
        tx = (payload ++ OneShot.inbound events).length ∧ rx = (OneShot.replies events).length) := by
  have sound := OneShot.run_sound h
  refine ⟨sound.reads.request, sound.target, sound.down.got, ?_⟩
  intro alive
  refine ⟨?_, sound.down.arrived alive, fun _ _ => sound.clientDone alive, fun _ _ _ => sound.serverDone alive⟩
  intro ended
  obtain ⟨whole, finished⟩ := sound.up.arrived alive ended
  exact ⟨sound.targetAll whole, finished⟩

def webServer : Addr := .v4 0x7f000001 80

/-- The application writes two bytes, the target answers with one; then both finish. -/
def answeredRequest : List OneShotEvent :=
  [.up (.write [1, 2]), .firstRead 2, .initialSend 13, .sent] ++ List.replicate 10 .headerByte ++
    [.connected, .up (.fetch 3), .up (.forward 3), .up (.take 3), .down (.write [9]), .down (.read 1), .down (.send 1),
     .down (.fetch 1), .down (.forward 1), .down (.take 1), .up .finish, .up .readEnd, .up .shut, .up .fetchEnd,
     .up .close, .up .takeEnd, .down .finish, .down .readEnd, .down .shut, .down .fetchEnd, .down .close,
     .down .takeEnd, .clientReturns, .serverReturns]

theorem one_shot_integrity_answered :
    ∃ s, run (OneShot.step Addr.socks5Sync ⟨8192, 8192⟩ ⟨8192, 8192⟩)
        (.start (trojanHeader Addr.socks5 webServer ++ [7]) false) answeredRequest = some s ∧
      s.up.got.queue = [7, 1, 2] ∧ s.down.got.queue = [9] ∧ s.client = .returned 2 1 := by
  have ran : (run (OneShot.step Addr.socks5Sync ⟨8192, 8192⟩ ⟨8192, 8192⟩)
      (.start (trojanHeader Addr.socks5 webServer ++ [7]) false)
      answeredRequest).map (fun s => (s.up.got.ended, s.down.got.ended, s.client, s.server)) =
        some (true, true, .returned 2 1, .returned ⟨.connect, webServer⟩ 3 1) := by decide +kernel
  obtain ⟨s, ran, ended⟩ := Option.map_eq_some_iff.mp ran
  simp only [Prod.mk.injEq] at ended
  obtain ⟨up, down, client, server⟩ := ended
  have alive : s.Alive := by
    unfold OneShot.Alive
    rw [client, server]
    exact ⟨rfl, rfl⟩
  obtain ⟨-, -, -, all⟩ := one_shot_integrity Addr.socks5Sync _ _ webServer [7] false answeredRequest s ran
  obtain ⟨target, application, -, -⟩ := all alive
  exact ⟨s, ran, (target up).1, (application down).1, client⟩

end NoisyShuttle.Shuttle
