import NoisyShuttle.Shuttle.Remote
import NoisyShuttle.Shuttle.Trojan
import NoisyShuttle.Shuttle.Url

/-!
# The HTTP proxy

`handle_connection_http`: the loop that reads the head of a request, and what is done with it. The
parser is the crate `httparse`; it is taken as a function of the bytes it is given.
-/

namespace NoisyShuttle.Shuttle
open Tunnel (IoError)

/-- The name of a header is a token, so it is ASCII. -/
structure HttpHeader where
  name : Text
  value : Bytes
  ascii : name.all (·.toNat < 128) = true
  deriving DecidableEq

structure HttpRequest where
  method : Text
  path : Text
  version : UInt8
  headers : List HttpHeader
  deriving DecidableEq

/-- `Request::parse` with room for 64 headers. -/
inductive Parsed where
  | complete (start : Nat) (request : HttpRequest)
  | incomplete
  | failed (message : String)
  deriving DecidableEq

/-! ## Reading the head -/

inductive HeadExit where
  | request (start : Nat) (request : HttpRequest) (body : Bytes)
  | io (err : IoError)
  | incompleted
  | malformed (message : String)
  | panicked (panic : Panic)
  | waiting
  deriving DecidableEq

/-- What the parser was given, read by read, and how the loop ended. -/
structure HeadRead where
  parses : List Bytes
  exit : HeadExit
  deriving DecidableEq

/-- The loop over the reads of `inbound`, with `filled` bytes of `buf` taken for read. -/
def readHead (parse : Bytes → Parsed) (buf : Bytes) (filled : Nat) : List (Except IoError Bytes) → HeadRead
  | [] => ⟨[], .waiting⟩
  | .error err :: _ => ⟨[], .io err⟩
  | .ok bytes :: reads =>
    if bytes = [] then ⟨[], .incompleted⟩
    else
      -- every read goes to the start of the buffer
      let buf := bytes ++ buf.drop bytes.length
      let filled := filled + bytes.length
      if filled ≤ buf.length then
        match parse (buf.take filled) with
        | .complete start request => ⟨[buf.take filled], .request start request ((buf.take filled).drop start)⟩
        | .failed message => ⟨[buf.take filled], .malformed message⟩
        | .incomplete =>
          let later := readHead parse buf filled reads
          { later with parses := buf.take filled :: later.parses }
      else ⟨[], .panicked .outOfRange⟩

/-! ## Handling the request -/

def http200ConnectionEstablished : Bytes :=
  ascii "HTTP/1.1 200 Connection Established\r\nX-Powered-By: noisy-shuttle\r\n\r\n"

def http400BadRequest : Bytes :=
  ascii "HTTP/1.1 400 Bad Request\r\n\r\n<html><h1>Not Proxied Request</h1>Powered by noisy-shuttle</html>"

def http405MethodNotAllowed : Bytes :=
  ascii "HTTP/1.1 405 Method Not Allowed\r\n\r\n<html><h1>Method Not Allowed</h1>Powered by noisy-shuttle</html>"

def HttpHeader.isProxy (header : HttpHeader) : Bool :=
  6 ≤ header.name.length && eqIgnoreAsciiCase (header.name.take 6) "Proxy-".toList

def HttpHeader.isHost (header : HttpHeader) : Bool := eqIgnoreAsciiCase header.name "Host".toList

def keptHeaders (headers : List HttpHeader) : List HttpHeader := headers.filter (!·.isProxy)

def hostValue (headers : List HttpHeader) : Option Bytes :=
  ((keptHeaders headers).filter (·.isHost)).getLast?.map (·.value)

/-- What is written to `inbound`, and the relay that follows or the error. -/
structure Handled (relay : Type) where
  reply : Bytes
  next : Except Bytes relay
  deriving DecidableEq

/-- `remote` goes to `relay_tcp_remote`; `direct` was written to a tunnel of its own, which then goes to
`relay_tcp_with` without an `outbuf`. -/
inductive HttpRelay where
  | remote (outbuf : Bytes)
  | direct (sent : Bytes) (initlen : Nat)
  deriving DecidableEq

def forwardedMethods : List Text :=
  ["GET", "POST", "OPTIONS", "HEAD", "PUT", "DELETE", "TRACE", "PATCH"].map String.toList

def destination (found : Text × UInt16) : Option Addr :=
  if short : found.1.encoded.length < 256 then
    some (.domain found.1.encoded found.2 (Nat.le_of_lt_succ short) found.1.validateUTF8_encoded)
  else none

def requestLine (request : HttpRequest) (path : Text) : Bytes :=
  request.method.encoded ++ ascii " " ++ path.encoded ++ ascii " HTTP/1." ++
    Text.encoded (Nat.toDigits 10 request.version.toNat) ++ ascii "\r\n"

def headerLine (name : Text) (value : Bytes) : Bytes := name.encoded ++ ascii ": " ++ value ++ ascii "\r\n"

/-- The head for the origin server, as the cursor writes it behind the Trojan header. -/
def rewrittenHead (request : HttpRequest) (path : Text) : Bytes :=
  requestLine request path ++
    (keptHeaders request.headers).flatMap (fun header =>
      headerLine header.name (if utf8 header.value then header.value else [])) ++ ascii "\r\n"

def trojanHeader (socks : Socks5 Addr) (destAddr : Addr) : Bytes := TrojanLikeRequest.encoded socks ⟨.connect, destAddr⟩

def invalidUrl (url : Text) : Bytes := ascii "invalid url: " ++ url.encoded

def notProxied (url : Text) (host : Option Bytes) : Bytes :=
  ascii "not proxied request (path: " ++ url.encoded ++ ascii ", host:" ++ host.getD (ascii "<EMPTY>") ++ ascii ")"

def forwardRequest (socks : Socks5 Addr) (pooled : Bool) (request : HttpRequest) (host : Option Bytes) (body : Bytes) :
    Except Panic (Handled HttpRelay) :=
  if request.path.head? = some '/' then
    .ok ⟨http400BadRequest, .error (notProxied request.path host)⟩
  else
    match extractHostAddrFromUrl request.path with
    | .error panic => .error panic
    | .ok found =>
      match found.bind destination, urlToRelative request.path with
      | some destAddr, some path =>
        let head := rewrittenHead request path
        let outbuf := trojanHeader socks destAddr ++ head ++ body
        .ok ⟨[], .ok (if pooled then .remote outbuf else .direct outbuf (head.length + body.length))⟩
      | _, _ => .ok ⟨[], .error (invalidUrl request.path)⟩

/-- The body of the loop once the head is parsed; `socks` and `fromStr` are `socks5_protocol`. -/
def handleRequest (socks : Socks5 Addr) (fromStr : Text → Option Addr) (pooled : Bool) (request : HttpRequest)
    (body : Bytes) : Except Panic (Handled HttpRelay) :=
  let host := hostValue request.headers
  if host.any (!utf8 ·) then .ok ⟨[], .error (ascii "invalid Host")⟩
  else if request.method = "CONNECT".toList then
    match fromStr request.path with
    | none => .ok ⟨[], .error (ascii "invalid address")⟩
    | some destAddr => .ok ⟨http200ConnectionEstablished, .ok (.remote (trojanHeader socks destAddr ++ body))⟩
  else if request.method ∈ forwardedMethods then forwardRequest socks pooled request host body
  else .ok ⟨http405MethodNotAllowed, .error (ascii "unspported HTTP method: " ++ request.method.encoded)⟩

/-! ## Reads that split the head -/

/-- The parser wants more bytes until the head is whole, and then does not look further. -/
structure CompleteHead (parse : Bytes → Parsed) (head : Bytes) (request : HttpRequest) : Prop where
  headers : request.headers.length ≤ 64
  parts : ∀ part rest, head = part ++ rest → rest ≠ [] → parse part = .incomplete
  whole : ∀ body, parse (head ++ body) = .complete head.length request

/-- The bytes received so far, after each read. -/
def receivedSoFar (segments : List Bytes) : List Bytes := segments.inits.tail.map List.flatten

theorem receivedSoFar_cons (first : Bytes) (rest : List Bytes) :
    receivedSoFar (first :: rest) = first :: (receivedSoFar rest).map (first ++ ·) := by
  cases rest with
  | nil => simp [receivedSoFar]
  | cons second more => simp [receivedSoFar, Function.comp_def]

section Split

variable {parse : Bytes → Parsed} {head body buf bytes : Bytes} {request : HttpRequest} {filled : Nat}
  {reads : List (Except IoError Bytes)}

/-- What the parser is given after a read of `bytes`. -/
def parseInput (buf : Bytes) (filled : Nat) (bytes : Bytes) : Bytes :=
  (bytes ++ buf.drop bytes.length).take (filled + bytes.length)

theorem parseInput_inside (room : filled + bytes.length ≤ buf.length) :
    filled + bytes.length ≤ (bytes ++ buf.drop bytes.length).length := by
  simp only [List.length_append, List.length_drop]
  omega

theorem readHead_complete {start : Nat} (nonempty : bytes ≠ []) (room : filled + bytes.length ≤ buf.length)
    (parsed : parse (parseInput buf filled bytes) = .complete start request) :
    readHead parse buf filled (.ok bytes :: reads) =
      ⟨[parseInput buf filled bytes], .request start request ((parseInput buf filled bytes).drop start)⟩ := by
  have inside := parseInput_inside room
  unfold parseInput at *
  simp only [readHead, if_neg nonempty, if_pos inside, parsed]

theorem readHead_parses (parse : Bytes → Parsed) (reads : List (Except IoError Bytes)) (nonempty : bytes ≠ [])
    (room : filled + bytes.length ≤ buf.length) :
    ∃ later, (readHead parse buf filled (.ok bytes :: reads)).parses = parseInput buf filled bytes :: later ∧
      (parse (parseInput buf filled bytes) = .incomplete →
        later = (readHead parse (bytes ++ buf.drop bytes.length) (filled + bytes.length) reads).parses) := by
  have inside := parseInput_inside room
  unfold parseInput
  simp only [readHead, if_neg nonempty, if_pos inside]
  split
  · next parsed => exact ⟨[], rfl, fun incomplete => nomatch parsed.symm.trans incomplete⟩
  · next parsed => exact ⟨[], rfl, fun incomplete => nomatch parsed.symm.trans incomplete⟩
  · exact ⟨_, rfl, fun _ => rfl⟩

theorem parseInput_zero (buf bytes : Bytes) : parseInput buf 0 bytes = bytes := by
  simp [parseInput]

theorem readHead_parses_two {first second : Bytes} (uninit : Bytes) (reads : List (Except IoError Bytes))
    (nonempty : first ≠ []) (more : second ≠ []) (room : first.length + second.length ≤ uninit.length)
    (cut : parse first = .incomplete) :
    ∃ later, (readHead parse uninit 0 (.ok first :: .ok second :: reads)).parses =
      first :: parseInput (first ++ uninit.drop first.length) first.length second :: later := by
  have inside : first.length + second.length ≤ (first ++ uninit.drop first.length).length := by
    rw [List.length_append, List.length_drop]
    omega
  have fits : 0 + first.length ≤ uninit.length := by omega
  obtain ⟨later, parses, goes⟩ := readHead_parses parse (.ok second :: reads) nonempty fits
  obtain ⟨rest, again, -⟩ := readHead_parses parse reads more inside
  rw [parseInput_zero] at parses goes
  rw [Nat.zero_add] at goes
  exact ⟨rest, by rw [parses, goes cut, again]⟩

/-- A second read ends before the bytes that are taken for read do. -/
theorem parseInput_getLast {first second : Bytes} (junk : UInt8) (nonempty : first ≠ []) (more : second ≠ []) {n : Nat}
    (room : first.length + second.length ≤ n) :
    (parseInput (first ++ (List.replicate n junk).drop first.length) first.length second).getLast? = some junk := by
  have f := List.length_pos_iff.mpr nonempty
  have s := List.length_pos_iff.mpr more
  unfold parseInput
  rw [List.getLast?_eq_getElem?, List.length_take_of_le, List.getElem?_take_of_lt (by omega),
    List.getElem?_append_right (by omega), List.getElem?_drop, List.getElem?_append_right (by omega),
    List.getElem?_drop, List.getElem?_replicate_of_lt (by omega)]
  simp only [List.length_append, List.length_drop, List.length_replicate]
  omega

/-- The parser has not seen all of the head in a first read that is shorter. -/
theorem CompleteHead.incomplete {first rest : Bytes} (complete : CompleteHead parse head request)
    (whole : first ++ rest = head ++ body) (short : first.length < head.length) : parse first = .incomplete := by
  obtain ⟨rest, cut⟩ : first <+: head := by
    refine List.prefix_of_prefix_length_le ?_ (List.prefix_append head body) (Nat.le_of_lt short)
    rw [← whole]
    exact List.prefix_append ..
  refine complete.parts first rest cut.symm ?_
  rintro rfl
  rw [← cut, List.append_nil] at short
  exact absurd short (Nat.lt_irrefl _)

/-- Some contents of the buffer show that the second parse is given more than was received. -/
theorem readHead_parses_differ {first second : Bytes} (cut : parse first = .incomplete) (nonempty : first ≠ [])
    (next : second ≠ []) (sizes : first.length + second.length ≤ maxFirstPacketSize) (more : List Bytes) :
    ∃ uninit : Bytes, uninit.length = maxFirstPacketSize ∧
      (readHead parse uninit 0 ((first :: second :: more).map .ok)).parses ≠
        receivedSoFar (first :: second :: more) := by
  obtain ⟨junk, differs⟩ : ∃ junk, junk ≠ second.getLast next := by
    by_cases zero : second.getLast next = 0
    · exact ⟨1, by rw [zero]; decide⟩
    · exact ⟨0, Ne.symm zero⟩
  refine ⟨List.replicate maxFirstPacketSize junk, List.length_replicate, ?_⟩
  intro same
  obtain ⟨later, parses⟩ := readHead_parses_two (List.replicate maxFirstPacketSize junk) (more.map .ok) nonempty next
    (by rwa [List.length_replicate]) cut
  rw [receivedSoFar_cons, receivedSoFar_cons, List.map_cons] at same
  have again := (List.cons.inj (List.cons.inj (parses.symm.trans same)).2).1
  have last := parseInput_getLast junk nonempty next sizes
  rw [again, List.getLast?_append_of_ne_nil _ next, List.getLast?_eq_some_getLast next] at last
  exact differs (Option.some.inj last).symm

end Split

/-- A head that is cut into several reads is parsed together with bytes that were never read: only if the
first read has all of it does the parser see what was received, whatever was in the buffer. -/
theorem readHead_segments_iff (parse : Bytes → Parsed) (head body : Bytes) (request : HttpRequest)
    (complete : CompleteHead parse head request) (segments : List Bytes) (nonempty : ∀ s ∈ segments, s ≠ [])
    (whole : segments.flatten = head ++ body) (ended : segments.dropLast.flatten.length < head.length)
    (fits : (head ++ body).length ≤ maxFirstPacketSize) :
    (∀ uninit : Bytes, uninit.length = maxFirstPacketSize →
        readHead parse uninit 0 (segments.map .ok) =
          ⟨receivedSoFar segments, .request head.length request body⟩) ↔
      head.length ≤ (segments.head?.getD []).length := by
  rcases segments with _ | ⟨first, _ | ⟨second, more⟩⟩
  · rw [List.flatten_nil, eq_comm, List.append_eq_nil_iff] at whole
    rw [whole.1] at ended
    exact absurd ended (Nat.not_lt_zero _)
  · have only : first = head ++ body := by simpa using whole
    subst only
    refine iff_of_true ?_ (by simp)
    intro uninit size
    have parsed : parse (parseInput uninit 0 (head ++ body)) = .complete head.length request := by
      rw [parseInput_zero]
      exact complete.whole body
    rw [List.map_singleton, readHead_complete (nonempty _ List.mem_cons_self) (by omega) parsed, parseInput_zero,
      List.drop_left]
    simp [receivedSoFar]
  · have some := nonempty first List.mem_cons_self
    have next := nonempty second (List.mem_cons_of_mem _ List.mem_cons_self)
    have short : first.length < head.length := by
      simp only [List.dropLast_cons_cons, List.flatten_cons, List.length_append] at ended
      omega
    refine iff_of_false ?_ (by simpa using short)
    intro same
    have sizes : first.length + second.length ≤ maxFirstPacketSize := by
      rw [← whole] at fits
      simp only [List.flatten_cons, List.length_append] at fits
      omega
    obtain ⟨uninit, size, differs⟩ := readHead_parses_differ (complete.incomplete whole short) some next sizes more
    exact differs (congrArg HeadRead.parses (same uninit size))

/-- A parser for one request. -/
def parseOnly (head : Bytes) (request : HttpRequest) (bytes : Bytes) : Parsed :=
  if head.isPrefixOf bytes then .complete head.length request
  else if bytes.isPrefixOf head then .incomplete
  else .failed "invalid token"

theorem completeHead_parseOnly {head : Bytes} {request : HttpRequest} (few : request.headers.length ≤ 64) :
    CompleteHead (parseOnly head request) head request := by
  refine ⟨few, ?_, ?_⟩
  · intro part rest split missing
    have short : ¬ head.isPrefixOf part = true := by
      intro whole
      have length := (List.isPrefixOf_iff_prefix.mp whole).length_le
      have := List.length_pos_iff.mpr missing
      rw [split, List.length_append] at length
      omega
    have inside : part.isPrefixOf head = true := List.isPrefixOf_iff_prefix.mpr ⟨rest, split.symm⟩
    unfold parseOnly
    rw [if_neg short, if_pos inside]
  · intro body
    have inside : head.isPrefixOf (head ++ body) = true := List.isPrefixOf_iff_prefix.mpr (List.prefix_append ..)
    unfold parseOnly
    rw [if_pos inside]

def getRequest : HttpRequest := ⟨"GET".toList, "http://a/".toList, 1, []⟩

def getHead : Bytes := ascii "GET http://a/ HTTP/1.1\r\n\r\n"

theorem readHead_segments_single :
    readHead (parseOnly getHead getRequest) (List.replicate maxFirstPacketSize 0) 0 [.ok (getHead ++ [7])] =
      ⟨[getHead ++ [7]], .request getHead.length getRequest [7]⟩ :=
  (readHead_segments_iff _ getHead [7] getRequest (completeHead_parseOnly (by decide)) [getHead ++ [7]]
    (by decide +kernel) (by decide +kernel) (by decide +kernel) (by decide +kernel)).mpr (by decide +kernel)
    (List.replicate maxFirstPacketSize 0) List.length_replicate

theorem readHead_segments_split :
    CompleteHead (parseOnly getHead getRequest) getHead getRequest ∧
      (readHead (parseOnly getHead getRequest) (List.replicate maxFirstPacketSize 0) 0
        [.ok (getHead.take 14), .ok (getHead.drop 14)]).exit = .malformed "invalid token" :=
  ⟨completeHead_parseOnly (by decide), by decide +kernel⟩

/-! ## What the origin server is sent -/

def HttpRelay.outbuf : HttpRelay → Bytes
  | .remote outbuf | .direct outbuf _ => outbuf

def HttpHeader.startsProxy (header : HttpHeader) : Bool := "proxy-".toList.isPrefixOf (header.name.map Char.toLower)

/-- The head a proxy owes the origin server: the request for the relative path, with every header but those
for the proxy. -/
def originHead (request : HttpRequest) (path : Text) : Bytes :=
  requestLine request path ++
    (request.headers.filter (!·.startsProxy)).flatMap (fun header => headerLine header.name header.value) ++
    ascii "\r\n"

theorem isProxy_eq_startsProxy (header : HttpHeader) : header.isProxy = header.startsProxy := by
  have lower : "Proxy-".toList.map Char.toLower = "proxy-".toList := by decide
  unfold HttpHeader.isProxy HttpHeader.startsProxy eqIgnoreAsciiCase
  rw [lower, Bool.eq_iff_iff, Bool.and_eq_true, decide_eq_true_iff, decide_eq_true_iff,
    List.isPrefixOf_iff_prefix, List.prefix_iff_eq_take, List.map_take]
  constructor
  · rintro ⟨-, same⟩
    exact same.symm
  · intro same
    refine ⟨?_, same.symm⟩
    have length := congrArg List.length same
    simp at length
    omega

theorem keptHeaders_eq (headers : List HttpHeader) : keptHeaders headers = headers.filter (!·.startsProxy) := by
  unfold keptHeaders
  congr 1
  funext header
  rw [isProxy_eq_startsProxy]

/-- The value a header is sent with. -/
def HttpHeader.sentValue (header : HttpHeader) : Bytes := if utf8 header.value then header.value else []

theorem sentValue_length (header : HttpHeader) : header.sentValue.length ≤ header.value.length := by
  unfold HttpHeader.sentValue
  split
  · exact Nat.le_refl _
  · exact Nat.zero_le _

theorem headerLine_length (name : Text) (value : Bytes) :
    (headerLine name value).length = name.encoded.length + value.length + 4 := by
  have colon : (ascii ": ").length = 2 := by decide
  have ending : (ascii "\r\n").length = 2 := by decide
  simp only [headerLine, List.length_append, colon, ending]
  omega

theorem flatMap_sentValue_length (headers : List HttpHeader) :
    (headers.flatMap fun header => headerLine header.name header.sentValue).length ≤
      (headers.flatMap fun header => headerLine header.name header.value).length := by
  induction headers with
  | nil => exact Nat.le_refl _
  | cons header rest ih =>
    have value := sentValue_length header
    simp only [List.flatMap_cons, List.length_append, headerLine_length]
    omega

theorem flatMap_sentValue_iff (headers : List HttpHeader) :
    (headers.flatMap fun header => headerLine header.name header.sentValue) =
        (headers.flatMap fun header => headerLine header.name header.value) ↔
      ∀ header ∈ headers, utf8 header.value = true := by
  induction headers with
  | nil => exact iff_of_true rfl nofun
  | cons header rest ih =>
    rw [List.flatMap_cons, List.flatMap_cons, List.forall_mem_cons]
    by_cases valid : utf8 header.value = true
    · have same : header.sentValue = header.value := if_pos valid
      rw [same, List.append_cancel_left_eq, ih, and_iff_right valid]
    · refine iff_of_false ?_ (fun all => valid all.1)
      intro same
      have dropped : header.sentValue = [] := if_neg valid
      have nonempty : header.value ≠ [] := by
        intro none
        rw [none] at valid
        exact valid (by decide)
      have length := congrArg List.length same
      have tail := flatMap_sentValue_length rest
      have := List.length_pos_iff.mpr nonempty
      simp only [List.length_append, headerLine_length, dropped, List.length_nil] at length
      omega

theorem rejected_ne_relayed {out reply err : Bytes} {relay : HttpRelay}
    (h : (Except.ok ⟨out, .error err⟩ : Except Panic (Handled HttpRelay)) = .ok ⟨reply, .ok relay⟩) : False := by
  cases h

theorem handleRequest_forwarded {socks : Socks5 Addr} {fromStr : Text → Option Addr} {pooled : Bool}
    {request : HttpRequest} {body reply : Bytes} {relay : HttpRelay} (method : request.method ≠ "CONNECT".toList)
    (handled : handleRequest socks fromStr pooled request body = .ok ⟨reply, .ok relay⟩) :
    ∃ found destAddr path, extractHostAddrFromUrl request.path = .ok (some found) ∧
      destination found = some destAddr ∧ urlToRelative request.path = some path ∧
      relay = if pooled then .remote (trojanHeader socks destAddr ++ rewrittenHead request path ++ body)
        else .direct (trojanHeader socks destAddr ++ rewrittenHead request path ++ body)
          ((rewrittenHead request path).length + body.length) := by
  unfold handleRequest at handled
  dsimp only at handled
  rw [if_neg method] at handled
  split at handled
  · exact (rejected_ne_relayed handled).elim
  split at handled
  · unfold forwardRequest at handled
    split at handled
    · exact (rejected_ne_relayed handled).elim
    split at handled
    · cases handled
    · next found extracted =>
      split at handled
      · next destAddr path addressed relative =>
        obtain ⟨pair, rfl, short⟩ := Option.bind_eq_some_iff.mp addressed
        cases handled
        exact ⟨pair, destAddr, path, extracted, short, relative, rfl⟩
      · exact (rejected_ne_relayed handled).elim
  · exact (rejected_ne_relayed handled).elim

theorem rewritten_request_iff (socks : Socks5 Addr) (fromStr : Text → Option Addr) (pooled : Bool)
    (request : HttpRequest) (body reply : Bytes) (relay : HttpRelay) (method : request.method ≠ "CONNECT".toList)
    (handled : handleRequest socks fromStr pooled request body = .ok ⟨reply, .ok relay⟩) :
    ∃ destAddr path sent, urlToRelative request.path = some path ∧
      readTrojanLikeRequest socks relay.outbuf = (.ok ⟨.connect, destAddr⟩, sent) ∧
      (sent = originHead request path ++ body ↔
        ∀ header ∈ request.headers, header.startsProxy = false → utf8 header.value = true) := by
  obtain ⟨found, destAddr, path, -, -, relative, rfl⟩ := handleRequest_forwarded method handled
  refine ⟨destAddr, path, rewrittenHead request path ++ body, relative, ?_, ?_⟩
  · have read := readTrojanLikeRequest_encoded socks ⟨.connect, destAddr⟩ (rewrittenHead request path ++ body)
    rw [← List.append_assoc] at read
    cases pooled with
    | false => exact read
    | true => exact read
  · have lines := flatMap_sentValue_iff (request.headers.filter (!·.startsProxy))
    rw [List.append_cancel_right_eq, rewrittenHead, originHead, keptHeaders_eq, List.append_cancel_right_eq,
      List.append_cancel_left_eq]
    refine lines.trans ?_
    simp only [List.mem_filter, Bool.not_eq_true', and_imp]

def proxiedRequest (value : Bytes) : HttpRequest :=
  ⟨"GET".toList, "http://a/x".toList, 1, [⟨"proxy-connection".toList, ascii "close", by decide⟩,
    ⟨"X".toList, value, by decide⟩]⟩

def proxiedOutbuf (value : Bytes) : Bytes :=
  [1, 3, 1, 97, 0, 80, 13, 10] ++ ascii "GET /x HTTP/1.1\r\nX: " ++ value ++ ascii "\r\n\r\n" ++ [7]

theorem rewritten_request_text :
    ∃ destAddr path sent, urlToRelative (proxiedRequest [98]).path = some path ∧
      readTrojanLikeRequest Addr.socks5 (proxiedOutbuf [98]) = (.ok ⟨.connect, destAddr⟩, sent) ∧
      sent = originHead (proxiedRequest [98]) path ++ [7] := by
  obtain ⟨destAddr, path, sent, relative, read, same⟩ := rewritten_request_iff Addr.socks5 (fun _ => none) true
    (proxiedRequest [98]) [7] [] (.remote (proxiedOutbuf [98])) (by decide) (by decide +kernel)
  exact ⟨destAddr, path, sent, relative, read, same.mpr (by decide +kernel)⟩

theorem rewritten_request_emptied :
    handleRequest Addr.socks5 (fun _ => none) true (proxiedRequest [0xff]) [7] =
        .ok ⟨[], .ok (.remote (proxiedOutbuf []))⟩ ∧
      proxiedOutbuf [] ≠ trojanHeader Addr.socks5 (.domain [97] 80 (by decide) (by decide)) ++
        (originHead (proxiedRequest [0xff]) "/x".toList ++ [7]) := by decide +kernel

end NoisyShuttle.Shuttle
