import NoisyShuttle.Lib.Run
import NoisyShuttle.Tunnel.Server

/-!
# The replay filter under concurrent `accept` calls

Any number of calls run at once. A call reads its ClientHello and checks it against the clock in
one step, and runs the critical section on the filter in a later one.
-/

namespace NoisyShuttle.Tunnel

variable {Addr : Type} (deps : Deps)

/-- A call between its authentication, at clock `seen`, and the lock of the filter. -/
structure Call (Addr : Type) where
  chp : ClientHelloPayload
  peer : Addr
  seen : UInt64

/-- `authenticated` and `passed` record the clock and nonce of every authentication, and the calls
that the filter let through, last first. -/
structure Filtering (Addr : Type) where
  now : UInt64
  filter : LruCache Bytes Addr
  waiting : List (Call Addr)
  authenticated : List (UInt64 × Bytes)
  passed : List (Call Addr)

inductive FilterEvent (Addr : Type) where
  | tick (now : UInt64)
  | ping (peer : Addr) (inbound : Bytes)
  | filter (index : Nat)

def filterStep (srv : Server Addr) (s : Filtering Addr) : FilterEvent Addr → Option (Filtering Addr)
  | .tick now => if s.now ≤ now then some { s with now } else none
  | .ping peer inbound =>
    match authenticate deps srv s.now inbound with
    | .ok ping =>
      some { s with
        waiting := s.waiting ++ [⟨ping.chp, peer, s.now⟩]
        authenticated := (s.now, ping.chp.nonce) :: s.authenticated }
    | .error _ => some s
  | .filter index =>
    match s.waiting[index]? with
    | none => none
    | some call =>
      match checkReplay call.chp.nonce call.peer s.filter with
      | (some _, rf) => some { s with filter := rf, waiting := s.waiting.eraseIdx index }
      | (none, rf) =>
        some { s with filter := rf, waiting := s.waiting.eraseIdx index, passed := call :: s.passed }

def filterInit (srv : Server Addr) (now : UInt64) : Filtering Addr := ⟨now, srv.replayFilter, [], [], []⟩

def passes (hello : ClientHelloPayload) (s : Filtering Addr) : Nat := (s.passed.map Call.chp).count hello

def otherNonces (nonce : Bytes) (start width : Nat) (log : List (UInt64 × Bytes)) : Finset Bytes :=
  ((log.filter fun entry =>
    start ≤ entry.1.toNat ∧ entry.1.toNat < start + width ∧ entry.2 ≠ nonce).map Prod.snd).toFinset

def Sparse (size width : Nat) (nonce : Bytes) (log : List (UInt64 × Bytes)) : Prop :=
  ∀ start, (otherNonces nonce start width log).card < size

def Server.window (srv : Server Addr) : Nat := (2 * srv.totp.skew.toNat + 1) * srv.totp.step.toNat

/-- At most `delay` seconds from a call's authentication to its critical section. -/
def within (delay : Nat) (s : Filtering Addr) : FilterEvent Addr → Bool
  | .filter index => s.waiting[index]?.all fun call => decide (s.now.toNat ≤ call.seen.toNat + delay)
  | _ => true

/-- The clock is read where the TOTP window does not wrap. -/
def clockInRange (srv : Server Addr) (s : Filtering Addr) : FilterEvent Addr → Bool
  | .ping _ _ => decide (srv.totp.InRange s.now)
  | _ => true

def Prompt (srv : Server Addr) (delay : Nat) (s : Filtering Addr) (event : FilterEvent Addr) : Prop :=
  within delay s event = true ∧ clockInRange srv s event = true

instance (srv : Server Addr) (delay : Nat) (s : Filtering Addr) (event : FilterEvent Addr) :
    Decidable (Prompt srv delay s event) := inferInstanceAs (Decidable (_ ∧ _))

theorem mem_otherNonces {nonce x : Bytes} {start width : Nat} {log : List (UInt64 × Bytes)} :
    x ∈ otherNonces nonce start width log ↔
      ∃ time, (time, x) ∈ log ∧ start ≤ time.toNat ∧ time.toNat < start + width ∧ x ≠ nonce := by
  simp only [otherNonces, List.mem_toFinset, List.mem_map, List.mem_filter, decide_eq_true_eq]
  constructor
  · rintro ⟨⟨time, y⟩, ⟨member, bounds⟩, rfl⟩
    exact ⟨time, member, bounds⟩
  · rintro ⟨time, member, bounds⟩
    exact ⟨(time, x), ⟨member, bounds⟩, rfl⟩

theorem otherNonces_mono {nonce : Bytes} {start width : Nat} {log later : List (UInt64 × Bytes)}
    (sub : log ⊆ later) : otherNonces nonce start width log ⊆ otherNonces nonce start width later := by
  intro x member
  obtain ⟨time, logged, bounds⟩ := mem_otherNonces.mp member
  exact mem_otherNonces.mpr ⟨time, sub logged, bounds⟩

theorem Sparse.of_subset {size width : Nat} {nonce : Bytes} {log later : List (UInt64 × Bytes)}
    (sparse : Sparse size width nonce later) (sub : log ⊆ later) : Sparse size width nonce log :=
  fun start => Nat.lt_of_le_of_lt (Finset.card_le_card (otherNonces_mono sub)) (sparse start)

theorem checkReplay_hit {nonce : Bytes} {peer : Addr} {rf after : LruCache Bytes Addr} {first : Addr}
    (h : checkReplay nonce peer rf = (some first, after)) : ∃ v, after = rf.put nonce v := by
  unfold checkReplay at h
  by_cases member : nonce ∈ rf.keys
  · obtain ⟨v, found⟩ := LruCache.get_of_mem member
    rw [found] at h
    cases h
    exact ⟨first, rfl⟩
  · rw [LruCache.get_of_not_mem member] at h
    cases h

theorem checkReplay_miss {nonce : Bytes} {peer : Addr} {rf after : LruCache Bytes Addr}
    (h : checkReplay nonce peer rf = (none, after)) : nonce ∉ rf.keys ∧ after = rf.put nonce peer := by
  unfold checkReplay at h
  by_cases member : nonce ∈ rf.keys
  · obtain ⟨v, found⟩ := LruCache.get_of_mem member
    rw [found] at h
    cases h
  · rw [LruCache.get_of_not_mem member] at h
    cases h
    exact ⟨member, rfl⟩

def Genuine (srv : Server Addr) (call : Call Addr) : Prop :=
  srv.totp.InRange call.seen ∧
    srv.totp.verify deps.blake2s 16 call.chp.nonce call.chp.timesig call.seen = true

/-- The window in which the nonce of a call matters, with the slack that waiting calls bring. -/
def Relevant (srv : Server Addr) (delay : Nat) (call : Call Addr) (log : List (UInt64 × Bytes)) : Finset Bytes :=
  otherNonces call.chp.nonce (call.seen.toNat - delay) (srv.window + 2 * delay) log

/-- While a call that passed may still be repeated, the filter remembers its nonce. -/
structure FilterInv (srv : Server Addr) (delay : Nat) (hello : ClientHelloPayload) (s : Filtering Addr) : Prop where
  capacity : s.filter.capacity = srv.replayFilter.capacity
  waiting : ∀ call ∈ s.waiting, call.seen ≤ s.now ∧ (call.seen, call.chp.nonce) ∈ s.authenticated ∧
    Genuine deps srv call
  passed : ∀ call ∈ s.passed, call.seen ≤ s.now ∧ Genuine deps srv call
  remembered : Sparse srv.replayFilter.capacity (srv.window + 2 * delay) hello.nonce s.authenticated →
    ∀ call ∈ s.passed, call.chp = hello → s.now.toNat < call.seen.toNat + srv.window + delay →
      s.filter.UsedSince hello.nonce (Relevant srv delay call s.authenticated)
  once : Sparse srv.replayFilter.capacity (srv.window + 2 * delay) hello.nonce s.authenticated →
    passes hello s ≤ 1

theorem filterInv_init (srv : Server Addr) (delay : Nat) (hello : ClientHelloPayload) (now : UInt64) :
    FilterInv deps srv delay hello (filterInit srv now) :=
  ⟨rfl, by simp [filterInit], by simp [filterInit], by simp [filterInit], by simp [filterInit, passes]⟩

section
variable {deps} {srv : Server Addr} {delay : Nat} {hello : ClientHelloPayload} {s next : Filtering Addr}

theorem tick_inv {now : UInt64} (inv : FilterInv deps srv delay hello s) (later : s.now ≤ now) :
    FilterInv deps srv delay hello { s with now } := by
  have later' := UInt64.le_iff_toNat_le.mp later
  refine ⟨inv.capacity, ?_, ?_, ?_, inv.once⟩
  · intro call member
    obtain ⟨seen, logged, genuine⟩ := inv.waiting call member
    exact ⟨UInt64.le_trans seen later, logged, genuine⟩
  · intro call member
    obtain ⟨seen, genuine⟩ := inv.passed call member
    exact ⟨UInt64.le_trans seen later, genuine⟩
  · intro sparse call member same soon
    dsimp only at soon ⊢
    exact inv.remembered sparse call member same (by omega)

theorem ping_inv {peer : Addr} {inbound : Bytes} {ping : Ping} (inv : FilterInv deps srv delay hello s)
    (range : srv.totp.InRange s.now) (h : authenticate deps srv s.now inbound = .ok ping) :
    FilterInv deps srv delay hello { s with
      waiting := s.waiting ++ [⟨ping.chp, peer, s.now⟩]
      authenticated := (s.now, ping.chp.nonce) :: s.authenticated } := by
  have sub : s.authenticated ⊆ (s.now, ping.chp.nonce) :: s.authenticated := List.subset_cons_self ..
  refine ⟨inv.capacity, ?_, inv.passed, ?_, ?_⟩
  · intro call member
    rcases List.mem_append.mp member with old | fresh
    · obtain ⟨seen, logged, genuine⟩ := inv.waiting call old
      exact ⟨seen, sub logged, genuine⟩
    · obtain rfl := List.mem_singleton.mp fresh
      exact ⟨UInt64.le_refl _, List.mem_cons_self, range, (authenticate_ok deps h).2.1⟩
  · intro sparse call member same soon
    exact (inv.remembered (sparse.of_subset sub) call member same soon).mono (otherNonces_mono sub)
  · intro sparse
    exact inv.once (sparse.of_subset sub)

/-- A call that reaches the filter while an earlier one matters was authenticated in its window. -/
theorem used_relevant {call earlier : Call Addr} (inv : FilterInv deps srv delay hello s)
    (waits : call ∈ s.waiting) (prompt : s.now.toNat ≤ call.seen.toNat + delay)
    (earlierSeen : earlier.seen ≤ s.now) (same : earlier.chp = hello)
    (soon : s.now.toNat < earlier.seen.toNat + srv.window + delay) :
    call.chp.nonce = hello.nonce ∨ call.chp.nonce ∈ Relevant srv delay earlier s.authenticated := by
  by_cases equal : call.chp.nonce = hello.nonce
  · exact Or.inl equal
  · obtain ⟨seen, logged, _⟩ := inv.waiting call waits
    rw [UInt64.le_iff_toNat_le] at seen earlierSeen
    exact Or.inr (mem_otherNonces.mpr ⟨call.seen, logged, by omega, by omega, by rwa [same]⟩)

theorem remembered_put {call earlier : Call Addr} {v : Addr} (inv : FilterInv deps srv delay hello s)
    (sparse : Sparse srv.replayFilter.capacity (srv.window + 2 * delay) hello.nonce s.authenticated)
    (waits : call ∈ s.waiting) (prompt : s.now.toNat ≤ call.seen.toNat + delay)
    (member : earlier ∈ s.passed) (same : earlier.chp = hello)
    (soon : s.now.toNat < earlier.seen.toNat + srv.window + delay) :
    (s.filter.put call.chp.nonce v).UsedSince hello.nonce (Relevant srv delay earlier s.authenticated) := by
  have used := used_relevant inv waits prompt (inv.passed earlier member).1 same soon
  refine LruCache.usedSince_put (inv.remembered sparse earlier member same soon) used ?_
  rw [inv.capacity, Relevant, same]
  exact sparse _

theorem hit_inv {index : Nat} {call : Call Addr} {v : Addr} (inv : FilterInv deps srv delay hello s)
    (waits : call ∈ s.waiting) (prompt : s.now.toNat ≤ call.seen.toNat + delay) :
    FilterInv deps srv delay hello { s with
      filter := s.filter.put call.chp.nonce v, waiting := s.waiting.eraseIdx index } := by
  refine ⟨inv.capacity, ?_, inv.passed, ?_, inv.once⟩
  · intro other member
    exact inv.waiting other (List.mem_of_mem_eraseIdx member)
  · intro sparse earlier member same soon
    exact remembered_put inv sparse waits prompt member same soon

/-- A repetition that the filter let through would have to come after the signature expired. -/
theorem miss_fresh {call : Call Addr} (inv : FilterInv deps srv delay hello s)
    (pos : 0 < srv.totp.step.toNat) (small : srv.totp.skew.toNat < 128)
    (distinct : srv.totp.DistinctSteps deps.blake2s 16 hello.nonce)
    (sparse : Sparse srv.replayFilter.capacity (srv.window + 2 * delay) hello.nonce s.authenticated)
    (waits : call ∈ s.waiting) (prompt : s.now.toNat ≤ call.seen.toNat + delay)
    (absent : call.chp.nonce ∉ s.filter.keys) (isHello : call.chp = hello) : passes hello s = 0 := by
  by_contra some
  obtain ⟨earlier, member, same⟩ := List.mem_map.mp (List.count_pos_iff.mp (Nat.pos_of_ne_zero some))
  obtain ⟨range, accepted⟩ := (inv.waiting call waits).2.2
  obtain ⟨_, earlierRange, earlierAccepted⟩ := inv.passed earlier member
  rw [isHello] at accepted absent
  rw [same] at earlierAccepted
  have close := Totp.verify_close deps.blake2s distinct pos small earlierRange range earlierAccepted accepted
  have soon : s.now.toNat < earlier.seen.toNat + srv.window + delay := by
    unfold Server.window
    omega
  exact absent (inv.remembered sparse earlier member same soon).mem

theorem miss_inv {index : Nat} {call : Call Addr} {v : Addr} (inv : FilterInv deps srv delay hello s)
    (pos : 0 < srv.totp.step.toNat) (small : srv.totp.skew.toNat < 128)
    (distinct : srv.totp.DistinctSteps deps.blake2s 16 hello.nonce)
    (waits : call ∈ s.waiting) (prompt : s.now.toNat ≤ call.seen.toNat + delay)
    (absent : call.chp.nonce ∉ s.filter.keys) :
    FilterInv deps srv delay hello { s with
      filter := s.filter.put call.chp.nonce v, waiting := s.waiting.eraseIdx index
      passed := call :: s.passed } := by
  obtain ⟨seen, _, genuine⟩ := inv.waiting call waits
  refine ⟨inv.capacity, ?_, ?_, ?_, ?_⟩
  · intro other member
    exact inv.waiting other (List.mem_of_mem_eraseIdx member)
  · intro other member
    rcases List.mem_cons.mp member with rfl | member
    · exact ⟨seen, genuine⟩
    · exact inv.passed other member
  · intro sparse other member same soon
    rcases List.mem_cons.mp member with rfl | member
    · have room : 0 < s.filter.capacity := by
        rw [inv.capacity]
        exact Nat.zero_lt_of_lt (sparse 0)
      rw [same]
      exact (LruCache.usedSince_put_self s.filter hello.nonce v room).mono (Finset.empty_subset _)
    · exact remembered_put inv sparse waits prompt member same soon
  · intro sparse
    simp only [passes, List.map_cons, List.count_cons]
    have before := inv.once sparse
    by_cases isHello : call.chp = hello
    · have fresh := miss_fresh inv pos small distinct sparse waits prompt absent isHello
      unfold passes at fresh
      simp [isHello, fresh]
    · unfold passes at before
      simp [isHello, before]

theorem filterStep_inv {event : FilterEvent Addr} (inv : FilterInv deps srv delay hello s)
    (pos : 0 < srv.totp.step.toNat) (small : srv.totp.skew.toNat < 128)
    (distinct : srv.totp.DistinctSteps deps.blake2s 16 hello.nonce)
    (prompt : Prompt srv delay s event) (h : filterStep deps srv s event = some next) :
    FilterInv deps srv delay hello next := by
  cases event with
  | tick now =>
    simp only [filterStep] at h
    split at h
    · next later =>
      cases h
      exact tick_inv inv later
    · cases h
  | ping peer inbound =>
    simp only [filterStep] at h
    split at h
    · next ping ok =>
      cases h
      exact ping_inv inv (by simpa [clockInRange] using prompt.2) ok
    · cases h
      exact inv
  | filter index =>
    simp only [filterStep] at h
    split at h
    · cases h
    · next call found =>
      have waits := List.mem_of_getElem? found
      have soon : s.now.toNat ≤ call.seen.toNat + delay := by
        simpa [within, found] using prompt.1
      split at h
      · next hit =>
        cases h
        obtain ⟨v, rfl⟩ := checkReplay_hit hit
        exact hit_inv inv waits soon
      · next miss =>
        cases h
        obtain ⟨absent, rfl⟩ := checkReplay_miss miss
        exact miss_inv inv pos small distinct waits soon absent

end

/-- No ClientHello passes the replay filter twice, when fewer than `replay_filter_size` other nonces
authenticate in a TOTP window widened by the time calls wait for the filter. -/
theorem replay_rejected (key : Bytes) (size delay : Nat) (start : UInt64) (hello : ClientHelloPayload)
    (events : List (FilterEvent Addr)) (final : Filtering Addr)
    (distinct : (Server.new deps Addr key size).totp.DistinctSteps deps.blake2s 16 hello.nonce)
    (h : run (filterStep deps (Server.new deps Addr key size))
      (filterInit (Server.new deps Addr key size) start) events = some final)
    (prompt : Guarded (filterStep deps (Server.new deps Addr key size)) (Prompt (Server.new deps Addr key size) delay)
      (filterInit (Server.new deps Addr key size) start) events)
    (sparse : Sparse size ((Server.new deps Addr key size).window + 2 * delay) hello.nonce final.authenticated) :
    passes hello final ≤ 1 := by
  have inv := guarded_invariant
    (fun s event next inv ok stepped => filterStep_inv inv
      (show 0 < (60 : UInt64).toNat by decide) (show (2 : UInt8).toNat < 128 by decide) distinct ok stepped)
    (filterInv_init deps (Server.new deps Addr key size) delay hello start) prompt h
  exact inv.once sparse

/-! ### Concrete runs -/

def paddedHash (msg : Bytes) : Bytes :=
  if msg.length = 40 then msg.drop 32 ++ List.replicate 24 0
  else msg.take 32 ++ List.replicate (32 - msg.length) 0

theorem paddedHash_length (msg : Bytes) : (paddedHash msg).length = 32 := by
  unfold paddedHash
  split
  · next long => simp [long]
  · simp only [List.length_append, List.length_take, List.length_replicate]
    omega

def bareClientHello (om : OpaqueMessage) : Option Message :=
  if long : 71 ≤ om.payload.length then
    if om.typ = .handshake ∧ om.payload.head? = some 0x01 then
      some (.handshake .clientHello (.clientHello ⟨(om.payload.drop 6).take 32, (om.payload.drop 39).take 32,
        by simp only [List.length_take, List.length_drop]; omega,
        by simp only [List.length_take, List.length_drop]; omega⟩))
    else none
  else none

def sampleDeps : Deps := ⟨Rustls.registered bareClientHello, paddedHash, fun _ _ => true, 0⟩

def sampleServer : Server Unit := Server.new sampleDeps Unit [0x6b] 2

def sampleRecord (r : UInt8) (k : Nat) : Bytes :=
  [0x16, 0x03, 0x01, 0x00, 0x4d, 0x01, 0x00, 0x00, 0x49, 0x03, 0x03] ++ List.replicate 32 r ++ [0x20] ++
    (List.replicate 16 0x07 ++ be64 k ++ List.replicate 8 0) ++ [0x00, 0x02, 0x13, 0x01, 0x01, 0x00]

def sampleHello (r : UInt8) (k : Nat) : ClientHelloPayload :=
  ⟨List.replicate 32 r, List.replicate 16 0x07 ++ be64 k ++ List.replicate 8 0, rfl, rfl⟩

theorem paddedHash_step (key : Bytes) (k : Nat) :
    paddedHash (paddedHash key ++ be64 k) = be64 k ++ List.replicate 24 0 := by
  have long : (paddedHash key ++ be64 k).length = 40 := by rw [List.length_append, paddedHash_length]; rfl
  rw [paddedHash, if_pos long, List.drop_append_of_le_length (by rw [paddedHash_length])]
  rw [← paddedHash_length key, List.drop_length, List.nil_append]

theorem paddedHash_sign (totp : Totp) (time : UInt64) (nonce : Bytes) (long : nonce.length = 32) :
    totp.sign paddedHash 16 time nonce = be64 (time / totp.step).toNat ++ List.replicate 8 0 := by
  have code : totp.generate paddedHash 16 time = be64 (time / totp.step).toNat ++ List.replicate 8 0 := by
    rw [Totp.generate, possiblyInsecureHashWithKey, paddedHash_step]
    rfl
  have padded : paddedHash (be64 (time / totp.step).toNat ++ List.replicate 8 0) =
      be64 (time / totp.step).toNat ++ List.replicate 24 0 := rfl
  have other : (be64 (time / totp.step).toNat ++ List.replicate 24 0 ++ nonce).length ≠ 40 := by simp [long]
  rw [Totp.sign, code, possiblyInsecureHashWithKey, padded, paddedHash, if_neg other]
  rfl

theorem paddedHash_distinct (totp : Totp) (nonce : Bytes) (long : nonce.length = 32) :
    totp.DistinctSteps paddedHash 16 nonce := by
  intro first second same
  rw [paddedHash_sign totp first nonce long, paddedHash_sign totp second nonce long] at same
  have steps := List.append_cancel_right same
  exact UInt64.toNat_inj.mp (be64_injective (UInt64.toNat_lt _) (UInt64.toNat_lt _) steps)

/-- One copy of a ClientHello waits for the filter until its nonce has been evicted. -/
def stalledRun : List (FilterEvent Unit) :=
  [.ping () (sampleRecord 0xaa 100), .ping () (sampleRecord 0xaa 100), .filter 0,
   .ping () (sampleRecord 0xbb 100), .filter 1, .tick 6400, .ping () (sampleRecord 0xcc 106), .filter 1, .filter 0]

/-- A clock before 1970-01-01 00:02 wraps the window around to the last steps of the clock. -/
def rewoundRun : List (FilterEvent Unit) :=
  [.ping () (sampleRecord 0xaa 307445734561825858), .filter 0,
   .tick 1000, .ping () (sampleRecord 0xbb 16), .filter 0, .tick 2000, .ping () (sampleRecord 0xcc 33), .filter 0,
   .tick 18446744073709551516, .ping () (sampleRecord 0xaa 307445734561825858), .filter 0]

theorem sparse_of_apart {nonce : Bytes} {width : Nat} {log : List (UInt64 × Bytes)}
    (apart : ∀ x ∈ log, ∀ y ∈ log, x.2 = nonce ∨ y.2 = nonce ∨ x.2 = y.2 ∨
      x.1.toNat + width ≤ y.1.toNat ∨ y.1.toNat + width ≤ x.1.toNat) : Sparse 2 width nonce log := by
  intro start
  apply Nat.lt_succ_of_le
  apply Finset.card_le_one.mpr
  intro x memberX y memberY
  obtain ⟨timeX, loggedX, lowX, highX, otherX⟩ := mem_otherNonces.mp memberX
  obtain ⟨timeY, loggedY, lowY, highY, otherY⟩ := mem_otherNonces.mp memberY
  have far := apart _ loggedX _ loggedY
  simp only [otherX, otherY, false_or] at far
  rcases far with same | far | far
  · exact same
  · omega
  · omega

/-- Within the stated bound on nonces, a ClientHello passes twice: through a call that waits for the
filter, and, without any wait, across a wrapped clock window. -/
theorem replay_accepted_twice :
    (∃ final, run (filterStep sampleDeps sampleServer) (filterInit sampleServer 6000) stalledRun = some final ∧
      Sparse 2 sampleServer.window (sampleHello 0xaa 100).nonce final.authenticated ∧
      passes (sampleHello 0xaa 100) final = 2) ∧
    (∃ final, run (filterStep sampleDeps sampleServer) (filterInit sampleServer 0) rewoundRun = some final ∧
      Guarded (filterStep sampleDeps sampleServer) (fun s event => within 0 s event = true)
        (filterInit sampleServer 0) rewoundRun ∧
      Sparse 2 sampleServer.window (sampleHello 0xaa 307445734561825858).nonce final.authenticated ∧
      passes (sampleHello 0xaa 307445734561825858) final = 2) ∧
    ∀ k, sampleServer.totp.DistinctSteps sampleDeps.blake2s 16 (sampleHello 0xaa k).nonce := by
  have stalled : (run (filterStep sampleDeps sampleServer) (filterInit sampleServer 6000) stalledRun).map
      (fun s => (s.authenticated, passes (sampleHello 0xaa 100) s)) =
      some ([(6400, List.replicate 32 0xcc), (6000, List.replicate 32 0xbb), (6000, List.replicate 32 0xaa),
        (6000, List.replicate 32 0xaa)], 2) := by decide +kernel
  have rewound : (run (filterStep sampleDeps sampleServer) (filterInit sampleServer 0) rewoundRun).map
      (fun s => (s.authenticated, passes (sampleHello 0xaa 307445734561825858) s)) =
      some ([(18446744073709551516, List.replicate 32 0xaa), (2000, List.replicate 32 0xcc),
        (1000, List.replicate 32 0xbb), (0, List.replicate 32 0xaa)], 2) := by decide +kernel
  obtain ⟨final, ran, facts⟩ := Option.map_eq_some_iff.mp stalled
  obtain ⟨final', ran', facts'⟩ := Option.map_eq_some_iff.mp rewound
  simp only [Prod.mk.injEq] at facts facts'
  refine ⟨⟨final, ran, ?_, facts.2⟩, ⟨final', ran', by decide +kernel, ?_, facts'.2⟩, ?_⟩
  · rw [facts.1]
    exact sparse_of_apart (by decide +kernel)
  · rw [facts'.1]
    exact sparse_of_apart (by decide +kernel)
  · intro k
    exact paddedHash_distinct _ _ rfl

theorem replay_rejected_again :
    ∃ final, run (filterStep sampleDeps sampleServer) (filterInit sampleServer 6000)
        [.ping () (sampleRecord 0xaa 100), .tick 6001, .filter 0, .ping () (sampleRecord 0xaa 100), .filter 0] =
        some final ∧ final.authenticated.length = 2 ∧ passes (sampleHello 0xaa 100) final ≤ 1 := by
  have ran : (run (filterStep sampleDeps sampleServer) (filterInit sampleServer 6000)
      [.ping () (sampleRecord 0xaa 100), .tick 6001, .filter 0, .ping () (sampleRecord 0xaa 100), .filter 0]).map
        Filtering.authenticated =
      some [(6001, List.replicate 32 0xaa), (6000, List.replicate 32 0xaa)] := by decide +kernel
  obtain ⟨final, ran, logged⟩ := Option.map_eq_some_iff.mp ran
  refine ⟨final, ran, by rw [logged]; rfl, ?_⟩
  refine replay_rejected sampleDeps [0x6b] 2 1 6000 (sampleHello 0xaa 100) _ final ?_ ran ?_ ?_
  · exact paddedHash_distinct _ _ rfl
  · decide +kernel
  · rw [logged]
    exact sparse_of_apart (by decide +kernel)

end NoisyShuttle.Tunnel
