import NoisyShuttle.Shuttle.Http

/-!
# The size of the first packet

`outbuf` from the two proxy handlers to `relay_tcp_with`, which subtracts its length from
`MAX_FIRST_PACKET_SIZE`. A head is taken as it stands in the read buffer, so that what the rewriting
adds to it and what it leaves out can be counted.
-/

namespace NoisyShuttle.Shuttle

/-! ## Heads as text -/

inductive LineEnd where
  | crlf | lf
  deriving DecidableEq

def LineEnd.bytes : LineEnd → Bytes
  | .crlf => [0x0d, 0x0a]
  | .lf => [0x0a]

/-- A header line, with the blanks around its value. -/
structure HeaderText where
  header : HttpHeader
  before : Bytes
  after : Bytes
  ending : LineEnd

def HeaderText.bytes (line : HeaderText) : Bytes :=
  line.header.name.encoded ++ ascii ":" ++ line.before ++ line.header.value ++ line.after ++ line.ending.bytes

/-- A head that `httparse` accepts; `lead` are the empty lines it skips. -/
structure HeadText where
  lead : Bytes
  method : Text
  path : Text
  version : UInt8
  ending : LineEnd
  lines : List HeaderText
  final : LineEnd

def HeadText.bytes (head : HeadText) : Bytes :=
  head.lead ++ head.method.encoded ++ ascii " " ++ head.path.encoded ++ ascii " HTTP/1." ++
    Text.encoded (Nat.toDigits 10 head.version.toNat) ++ head.ending.bytes ++
    head.lines.flatMap HeaderText.bytes ++ head.final.bytes

def HeadText.request (head : HeadText) : HttpRequest :=
  ⟨head.method, head.path, head.version, head.lines.map (·.header)⟩

/-! ## SOCKS5 -/

inductive Socks5Command where
  | connect | udpAssociate | bind
  deriving DecidableEq

inductive Socks5Relay where
  | remote (outbuf : Bytes)
  | udp (header : TrojanLikeRequest Addr)

/-- What follows a command request; `bound` is the address of the UDP socket. -/
def handleCommand (socks : Socks5 Addr) (bound : Addr) (command : Socks5Command) (address : Addr) :
    Handled Socks5Relay :=
  match command with
  | .connect =>
    ⟨[0x05, 0x00, 0x00, 0x01, 0x00, 0x00, 0x00, 0x00, 0x00, 0x00], .ok (.remote (trojanHeader socks address))⟩
  | .udpAssociate => ⟨[0x05, 0x00, 0x00] ++ socks.write bound, .ok (.udp ⟨.udpAssociate, .v4 0 0⟩)⟩
  | .bind => ⟨[0x05, 0x07, 0x00], .error (ascii "Socks5 BIND not supported")⟩

/-! ## Requests and their first packet -/

/-- `Addr::from_str`: the shortest text of the longest IP address is `[::]:0`, and the text of a domain
has a colon and a port. -/
structure AddrText where
  fromStr : Text → Option Addr
  length_le : ∀ text addr, fromStr text = some addr → addr.write.length ≤ text.encoded.length + 13

inductive Accepted where
  | socks5 (bound : Addr) (command : Socks5Command) (address : Addr)
  | http (head : HeadText) (body : Bytes)

namespace Accepted

/-- The `outbuf` that comes to `relay_tcp_with` without a pool, or when the reusable attempt fails. -/
def firstPacket (socks : Socks5 Addr) (addrs : AddrText) (pooled : Bool) : Accepted → Option Bytes
  | .socks5 bound command address =>
    match (handleCommand socks bound command address).next with
    | .ok (.remote outbuf) => some outbuf
    | _ => none
  | .http head body =>
    match handleRequest socks addrs.fromStr pooled head.request body with
    | .ok ⟨_, .ok (.remote outbuf)⟩ => some outbuf
    | _ => none

def buffered : Accepted → Nat
  | .socks5 _ _ _ => 0
  | .http head body => (head.bytes ++ body).length

end Accepted

/-- A kept line gets a blank and CRLF. -/
def HeaderText.added (line : HeaderText) : Nat := if line.header.startsProxy then 0 else 3

def HeaderText.removed (line : HeaderText) : Nat :=
  if line.header.startsProxy then line.bytes.length
  else line.before.length + line.after.length + line.ending.bytes.length +
    if utf8 line.header.value then 0 else line.header.value.length

/-- The Trojan header has seven bytes beside the host; the request line and the empty line get CRLF. -/
def HeadText.added (head : HeadText) : Nat := 11 + (head.lines.map HeaderText.added).sum

/-- The scheme of the URL, with its slashes. -/
def schemeText (url : Text) : Text := (breakOn slashes url).elim [] fun (scheme, _) => scheme ++ slashes

def HeadText.removed (head : HeadText) : Nat :=
  head.lead.length + (schemeText head.path).encoded.length + head.ending.bytes.length + head.final.bytes.length +
    (head.lines.map HeaderText.removed).sum

/-- What the rewriting adds fits into what it removes and what is left of the buffer. -/
def Accepted.Fits : Accepted → Prop
  | .socks5 _ _ _ => True
  | .http head body => head.method = "CONNECT".toList ∨
    (head.bytes ++ body).length + head.added ≤ maxFirstPacketSize + head.removed

/-! ## Counting -/

theorem addr_write_length (addr : Addr) : addr.write.length ≤ 259 := by
  cases addr with
  | v4 ip port =>
    change 7 ≤ 259
    omega
  | v6 high low port =>
    change 19 ≤ 259
    omega
  | domain host port short valid =>
    simp only [Addr.write, List.length_cons, List.length_append, be16_length]
    omega

theorem HeaderText.kept_length {line : HeaderText} (kept : line.header.startsProxy = false) :
    (headerLine line.header.name line.header.sentValue).length + line.removed = line.bytes.length + line.added := by
  have colon : (ascii ":").length = 1 := by decide
  simp only [HeaderText.removed, HeaderText.added, HeaderText.bytes, kept, headerLine_length, List.length_append, colon,
    Bool.false_eq_true, if_false]
  by_cases valid : utf8 line.header.value = true
  · have same : line.header.sentValue = line.header.value := if_pos valid
    rw [same, if_pos valid]
    omega
  · have dropped : line.header.sentValue = [] := if_neg valid
    rw [dropped, if_neg valid, List.length_nil]
    omega

theorem lines_length (lines : List HeaderText) :
    ((keptHeaders (lines.map (·.header))).flatMap fun header => headerLine header.name header.sentValue).length +
        (lines.map HeaderText.removed).sum =
      (lines.flatMap HeaderText.bytes).length + (lines.map HeaderText.added).sum := by
  rw [keptHeaders_eq]
  induction lines with
  | nil => rfl
  | cons line rest ih =>
    simp only [List.map_cons, List.sum_cons, List.flatMap_cons, List.length_append]
    cases proxy : line.header.startsProxy with
    | true =>
      have removed : line.removed = line.bytes.length := by simp [HeaderText.removed, proxy]
      have added : line.added = 0 := by simp [HeaderText.added, proxy]
      rw [List.filter_cons_of_neg (by simp [proxy]), removed, added]
      omega
    | false =>
      have here := HeaderText.kept_length proxy
      rw [List.filter_cons_of_pos (by simp [proxy]), List.flatMap_cons, List.length_append]
      omega

/-- The URL of a forwarded request, in bytes. -/
theorem path_length {url path host : Text} {port : UInt16}
    (extracted : extractHostAddrFromUrl url = .ok (some (host, port))) (relative : urlToRelative url = some path) :
    url.encoded.length = (schemeText url).encoded.length + host.encoded.length + path.encoded.length := by
  obtain ⟨scheme, -, -, broken⟩ := breakOn_of_relative extracted relative
  have pieces := breakOn_eq_append broken
  have front : schemeText url = scheme ++ slashes := by simp [schemeText, broken]
  rw [front, Nat.add_assoc, ← List.length_append, ← List.length_append, ← Text.encoded_append, ← Text.encoded_append,
    ← pieces]

section

variable {socks : Socks5 Addr} (wire : ∀ addr, socks.write addr = addr.write)
include wire

theorem trojanHeader_length (addr : Addr) : (trojanHeader socks addr).length = addr.write.length + 3 := by
  simp only [trojanHeader, TrojanLikeRequest.encoded, wire, List.length_cons, List.length_append, List.length_nil]

theorem destination_length {host : Text} {port : UInt16} {destAddr : Addr}
    (addressed : destination (host, port) = some destAddr) :
    (trojanHeader socks destAddr).length = host.encoded.length + 7 := by
  unfold destination at addressed
  split at addressed
  · cases addressed
    rw [trojanHeader_length wire]
    simp only [Addr.write, List.length_cons, List.length_append, be16_length]
  · cases addressed

theorem forwarded_length {head : HeadText} (body : Bytes) {host : Text} {port : UInt16} {destAddr : Addr} {path : Text}
    (extracted : extractHostAddrFromUrl head.path = .ok (some (host, port)))
    (addressed : destination (host, port) = some destAddr) (relative : urlToRelative head.path = some path) :
    (trojanHeader socks destAddr ++ rewrittenHead head.request path ++ body).length + head.removed =
      (head.bytes ++ body).length + head.added := by
  have url := path_length extracted relative
  have header := destination_length wire addressed
  have lines := lines_length head.lines
  have blank : (ascii " ").length = 1 := by decide
  have version : (ascii " HTTP/1.").length = 8 := by decide
  have ending : (ascii "\r\n").length = 2 := by decide
  unfold HttpHeader.sentValue at lines
  simp only [HeadText.removed, HeadText.added, HeadText.bytes, rewrittenHead, requestLine, HeadText.request,
    List.length_append, header, url, blank, version, ending]
  omega

theorem connect_length {head : HeadText} {addrs : AddrText} {destAddr : Addr} (body : Bytes)
    (method : head.method = "CONNECT".toList) (parsed : addrs.fromStr head.path = some destAddr) :
    (trojanHeader socks destAddr ++ body).length ≤ (head.bytes ++ body).length := by
  have written := addrs.length_le head.path destAddr parsed
  have blank : (ascii " ").length = 1 := by decide
  have version : (ascii " HTTP/1.").length = 8 := by decide
  have word : (Text.encoded "CONNECT".toList).length = 7 := by decide
  have ending : ∀ e : LineEnd, 1 ≤ e.bytes.length := by
    intro e
    cases e <;> decide
  have first := ending head.ending
  have last := ending head.final
  simp only [List.length_append, trojanHeader_length wire, HeadText.bytes, method, blank, version, word]
  omega

end

/-! ## The first packet -/

theorem handleRequest_connect {socks : Socks5 Addr} {fromStr : Text → Option Addr} {pooled : Bool}
    {request : HttpRequest} {body reply outbuf : Bytes} (method : request.method = "CONNECT".toList)
    (handled : handleRequest socks fromStr pooled request body = .ok ⟨reply, .ok (.remote outbuf)⟩) :
    ∃ destAddr, fromStr request.path = some destAddr ∧ outbuf = trojanHeader socks destAddr ++ body := by
  unfold handleRequest at handled
  dsimp only at handled
  rw [if_pos method] at handled
  split at handled
  · cases handled
  split at handled
  · cases handled
  · next destAddr parsed =>
    cases handled
    exact ⟨destAddr, parsed, rfl⟩

theorem firstPacket_length_iff {socks : Socks5 Addr} (wire : ∀ addr, socks.write addr = addr.write) {addrs : AddrText}
    {pooled : Bool} {accepted : Accepted} {outbuf : Bytes}
    (read : accepted.buffered ≤ maxFirstPacketSize) (reaches : accepted.firstPacket socks addrs pooled = some outbuf) :
    outbuf.length ≤ maxFirstPacketSize ↔ accepted.Fits := by
  cases accepted with
  | socks5 bound command address =>
    refine iff_of_true ?_ trivial
    cases command with
    | connect =>
      cases reaches
      have := addr_write_length address
      rw [trojanHeader_length wire]
      simp only [maxFirstPacketSize]
      omega
    | udpAssociate => cases reaches
    | bind => cases reaches
  | http head body =>
    unfold Accepted.firstPacket at reaches
    dsimp only at reaches
    split at reaches
    · next reply out handled =>
      cases reaches
      by_cases method : head.method = "CONNECT".toList
      · obtain ⟨destAddr, parsed, rfl⟩ := handleRequest_connect method handled
        exact iff_of_true (Nat.le_trans (connect_length wire body method parsed) read) (.inl method)
      · obtain ⟨⟨host, port⟩, destAddr, path, extracted, addressed, relative, relay⟩ :=
          handleRequest_forwarded method handled
        have size := forwarded_length wire body extracted addressed relative
        cases pooled with
        | false => cases relay
        | true =>
          cases relay
          simp only [Accepted.Fits, method, false_or]
          omega
    · cases reaches

/-- The first packet of an accepted request is subtracted from `MAX_FIRST_PACKET_SIZE` and sent on whole,
by the one-shot tunnel itself and after a failed reusable attempt, exactly if the rewriting fits. -/
theorem first_packet_fits_iff (socks : Socks5 Addr) (wire : ∀ addr, socks.write addr = addr.write) (addrs : AddrText)
    (pooled : Bool) (accepted : Accepted) (outbuf : Bytes)
    (read : accepted.buffered ≤ maxFirstPacketSize) (reaches : accepted.firstPacket socks addrs pooled = some outbuf) :
    (outbuf.length ≤ maxFirstPacketSize ∧
      (∀ left, relayTcpWith (some outbuf) left = some (outbuf ++ left)) ∧
      ∀ script left err exchanged, relayTcpReusable script (some outbuf) = some (.error err, exchanged) →
        relayTcpRemote script (some outbuf) left = some ⟨exchanged, some (outbuf ++ left)⟩) ↔ accepted.Fits := by
  rw [← firstPacket_length_iff wire read reaches]
  constructor
  · exact And.left
  · intro short
    have sent : ∀ left, relayTcpWith (some outbuf) left = some (outbuf ++ left) := fun left => if_pos short
    refine ⟨short, sent, ?_⟩
    intro script left err exchanged failed
    unfold relayTcpRemote
    rw [failed]
    dsimp only
    rw [sent]
    rfl

def noAddrs : AddrText := ⟨fun _ => none, nofun⟩

def ftpHead : HeadText := ⟨[], "GET".toList, "ftp://h/".toList, 1, .crlf, [], .crlf⟩

theorem ftpHead_sizes : ftpHead.bytes.length = 25 ∧ ftpHead.added = 11 ∧ ftpHead.removed = 10 := by decide +kernel

theorem first_packet_fits_small :
    ∃ outbuf, (Accepted.http ftpHead [7]).firstPacket Addr.socks5 noAddrs true = some outbuf ∧
      outbuf.length ≤ maxFirstPacketSize := by
  have evaluated : ((Accepted.http ftpHead [7]).firstPacket Addr.socks5 noAddrs true).isSome = true := by decide +kernel
  obtain ⟨outbuf, reaches⟩ := Option.isSome_iff_exists.mp evaluated
  exact ⟨outbuf, reaches,
    ((first_packet_fits_iff Addr.socks5 (fun _ => rfl) noAddrs true _ outbuf (by decide +kernel) reaches).mpr
    (.inr (by decide +kernel))).1⟩

theorem ftpHead_reaches (body : Bytes) :
    ((Accepted.http ftpHead body).firstPacket Addr.socks5 noAddrs true).isSome = true := by
  rfl

/-- A request that fills the read buffer: one byte more than fits is handed on. -/
theorem first_packet_overflow :
    ∃ body outbuf, (Accepted.http ftpHead body).buffered = maxFirstPacketSize ∧
      (Accepted.http ftpHead body).firstPacket Addr.socks5 noAddrs true = some outbuf ∧
      maxFirstPacketSize < outbuf.length ∧ relayTcpWith (some outbuf) [] = none := by
  obtain ⟨size, added, removed⟩ := ftpHead_sizes
  obtain ⟨body, length⟩ : ∃ body : Bytes, body.length = 8167 := ⟨List.replicate 8167 7, List.length_replicate⟩
  have whole : (ftpHead.bytes ++ body).length = maxFirstPacketSize := by
    rw [List.length_append, size, length]
    rfl
  obtain ⟨outbuf, reaches⟩ := Option.isSome_iff_exists.mp (ftpHead_reaches body)
  have unfit : ¬ (Accepted.http ftpHead body).Fits := by
    rintro (method | fits)
    · exact absurd method (by decide)
    · rw [whole, added, removed] at fits
      omega
  have read : (Accepted.http ftpHead body).buffered ≤ maxFirstPacketSize := Nat.le_of_eq whole
  have long : ¬ outbuf.length ≤ maxFirstPacketSize := mt (firstPacket_length_iff (fun _ => rfl) read reaches).mp unfit
  exact ⟨body, outbuf, whole, reaches, Nat.lt_of_not_le long, if_neg long⟩

end NoisyShuttle.Shuttle
