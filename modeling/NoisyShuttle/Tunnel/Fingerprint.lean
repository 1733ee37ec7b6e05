import NoisyShuttle.Tunnel.Tls

/-!
# Fingerprints of ClientHello messages

`overwrite_client_hello_with_fingerprint_spec`. A typed enumeration of rustls is its code; extensions
the function does not rewrite are their type and body. GREASE values, the order in which a `HashMap`
is drained and the encoding of rustls are the parameters of `FingerprintDeps`.
-/

namespace NoisyShuttle.Tunnel

structure KeyShareEntry where
  group : UInt16
  payload : Bytes
  deriving DecidableEq

inductive ClientExtension where
  | namedGroups (groups : List UInt16)
  | ecPointFormats (formats : List UInt8)
  | protocols (alpn : List Bytes)
  | supportedVersions (vers : List UInt16)
  | signatureAlgorithms (algos : List UInt16)
  | keyShare (entries : List KeyShareEntry)
  | unknown (typ : UInt16) (payload : Bytes)
  | typed (typ : UInt16) (body : Bytes)
  deriving DecidableEq

def extensionALProtocolNegotiation : UInt16 := 0x0010
def extensionPadding : UInt16 := 0x0015
def extensionRenegotiationInfo : UInt16 := 0xff01

def ClientExtension.getType : ClientExtension → UInt16
  | .namedGroups _ => 0x000a
  | .ecPointFormats _ => 0x000b
  | .protocols _ => extensionALProtocolNegotiation
  | .supportedVersions _ => 0x002b
  | .signatureAlgorithms _ => 0x000d
  | .keyShare _ => 0x0033
  | .unknown typ _ | .typed typ _ => typ

/-- What the client sends: beside the fields the server reads, the cipher suites and the extensions. -/
structure ClientHello extends ClientHelloPayload where
  cipherSuites : List UInt16
  extensions : List ClientExtension
  deriving DecidableEq

/-- A message is stored twice, parsed and encoded. Of a handshake message that is no ClientHello `parsed`
is the encoding. -/
inductive MessagePayload where
  | clientHello (parsed : ClientHello) (encoded : Bytes)
  | handshake (parsed encoded : Bytes)
  | other (payload : Bytes)
  deriving DecidableEq

structure ClientMessage where
  version : UInt16
  payload : MessagePayload
  deriving DecidableEq

structure Ja3 where
  version : UInt16
  ciphers : List UInt16
  extensions : List UInt16
  curves : List UInt16
  pointFormats : List UInt8
  deriving DecidableEq

structure FingerprintSpec where
  ja3 : Option Ja3
  alpn : Option (List Bytes)
  signatureAlgos : Option (List UInt16)
  supportedVersions : Option (List UInt16)
  keyshareCurves : Option (List UInt16)
  deriving DecidableEq

namespace FingerprintSpec

def new : FingerprintSpec := ⟨none, none, none, none, none⟩

def isEmpty (fp : FingerprintSpec) : Bool :=
  fp.ja3.isNone && fp.alpn.isNone && fp.signatureAlgos.isNone && fp.supportedVersions.isNone &&
    fp.keyshareCurves.isNone

end FingerprintSpec

/-- `grease n` is the value of the n-th draw; `regreased` is `extensions_regreasing_as_typed`. -/
structure FingerprintDeps where
  isGrease : UInt16 → Bool
  grease : Nat → UInt16
  regreased : List UInt16 → List UInt16
  shuffled : List ClientExtension → List ClientExtension
  getEncoding : ClientHello → Bytes

/-! ## Maps by type -/

/-- A `HashMap` with one entry for a key. -/
def removeEntry {α : Type} (key : UInt16) (map : List (UInt16 × α)) : Option α × List (UInt16 × α) :=
  (map.lookup key, map.filter (·.1 ≠ key))

def collectEntries {α : Type} (key : α → UInt16) (entries : List α) : List (UInt16 × α) :=
  entries.foldl (fun map entry => (key entry, entry) :: (removeEntry (key entry) map).2) []

/-! ## The order of the extensions -/

/-- The payload of an extension that rustls did not send. -/
def dummyPayload (typ : UInt16) : Except String Bytes :=
  if typ = extensionALProtocolNegotiation then
    .error "Expect ALPN present in original message if it is listed in JA3"
  else if typ = extensionRenegotiationInfo then .ok [0x00]
  else if typ = 0x4469 then .ok [0x00, 0x03, 0x02, 0x68, 0x32]
  else if typ = 0x001b then .ok [0x02, 0x00, 0x02]
  else .ok []

/-- The extensions in the order of the JA3, what is left of the old ones, and `pad_per_rfc7685`. -/
def orderExtensions (addEmpty : Bool) :
    List UInt16 → List (UInt16 × ClientExtension) →
      Except String (List ClientExtension × List (UInt16 × ClientExtension) × Bool)
  | [], old => .ok ([], old, false)
  | typ :: rest, old =>
    match removeEntry typ old with
    | (some extension, old) =>
      (orderExtensions addEmpty rest old).map fun (new, old, pad) => (extension :: new, old, pad)
    | (none, old) =>
      if addEmpty then
        match dummyPayload typ with
        | .error panic => .error panic
        | .ok payload => (orderExtensions addEmpty rest old).map fun (new, old, pad) =>
          (.unknown typ payload :: new, old, pad || typ = extensionPadding)
      else orderExtensions addEmpty rest old

section

variable (deps : FingerprintDeps)

def matchExtensions (addEmpty drop : Bool) (ja3 : Ja3) (extensions : List ClientExtension) :
    Except String (List ClientExtension × Bool) :=
  match orderExtensions addEmpty (deps.regreased ja3.extensions) (collectEntries (·.getType) extensions) with
  | .error panic => .error panic
  | .ok (new, old, pad) =>
    .ok (if old ≠ [] ∧ !drop then new ++ deps.shuffled (old.map Prod.snd) else new, pad)

/-! ## The values of the extensions -/

/-- `grease_curves` with its last element first, the draws made so far, and `pad_per_rfc7685`. -/
structure Rewriting where
  greaseCurves : List UInt16
  drawn : Nat
  pad : Bool

def Rewriting.draw (st : Rewriting) : UInt16 × Rewriting := (deps.grease st.drawn, { st with drawn := st.drawn + 1 })

def tryRegrease (value : UInt16) (st : Rewriting) : UInt16 × Rewriting :=
  if deps.isGrease value then st.draw deps else (value, st)

def tryRegreaseAll : List UInt16 → Rewriting → List UInt16 × Rewriting
  | [], st => ([], st)
  | value :: rest, st =>
    let (value, st) := tryRegrease deps value st
    let (rest, st) := tryRegreaseAll rest st
    (value :: rest, st)

/-- The GREASE value for a curve. Of NamedGroups and KeyShare the one that comes first (`grease_curves` is
empty) draws and keeps its values, the other takes them from there. -/
def greaseCurve (first : Bool) (st : Rewriting) : UInt16 × Rewriting :=
  if first then
    let (value, st) := st.draw deps
    (value, { st with greaseCurves := value :: st.greaseCurves })
  else
    match st.greaseCurves with
    | value :: rest => (value, { st with greaseCurves := rest })
    | [] => st.draw deps

def overwriteCurve (first : Bool) (curve : UInt16) (st : Rewriting) : UInt16 × Rewriting :=
  if deps.isGrease curve then greaseCurve deps first st else (curve, st)

def overwriteGroups (first : Bool) : List UInt16 → Rewriting → List UInt16 × Rewriting
  | [], st => ([], st)
  | curve :: rest, st =>
    let (curve, st) := overwriteCurve deps first curve st
    let (rest, st) := overwriteGroups first rest st
    (curve :: rest, st)

def overwriteKeyShare (first : Bool) :
    List UInt16 → List (UInt16 × KeyShareEntry) → Rewriting → List KeyShareEntry × Rewriting
  | [], _, st => ([], st)
  | curve :: rest, old, st =>
    match removeEntry curve old with
    | (some entry, old) =>
      let (rest, st) := overwriteKeyShare first rest old st
      (entry :: rest, st)
    | (none, old) =>
      let (curve, st) := overwriteCurve deps first curve st
      let (rest, st) := overwriteKeyShare first rest old st
      (⟨curve, [0x00]⟩ :: rest, st)

variable (fp : FingerprintSpec)

def rewriteExtension (st : Rewriting) : ClientExtension → ClientExtension × Rewriting
  | .namedGroups groups =>
    match fp.ja3 with
    | some ja3 =>
      let (groups, st) := overwriteGroups deps st.greaseCurves.isEmpty ja3.curves st
      (.namedGroups groups, st)
    | none => (.namedGroups groups, st)
  | .ecPointFormats formats => (.ecPointFormats ((fp.ja3.map (·.pointFormats)).getD formats), st)
  | .protocols alpn => (.protocols (fp.alpn.getD alpn), st)
  | .supportedVersions vers =>
    match fp.supportedVersions with
    | some vers =>
      let (vers, st) := tryRegreaseAll deps vers st
      (.supportedVersions vers, st)
    | none => (.supportedVersions vers, st)
  | .signatureAlgorithms algos =>
    match fp.signatureAlgos with
    | some algos =>
      let (algos, st) := tryRegreaseAll deps algos st
      (.signatureAlgorithms algos, st)
    | none => (.signatureAlgorithms algos, st)
  | .keyShare entries =>
    match fp.keyshareCurves with
    | some curves =>
      let (entries, st) :=
        overwriteKeyShare deps st.greaseCurves.isEmpty curves (collectEntries (·.group) entries) st
      (.keyShare entries, st)
    | none => (.keyShare entries, st)
  | .unknown typ payload =>
    if typ = extensionPadding then (.unknown typ [], { st with pad := true }) else (.unknown typ payload, st)
  | .typed typ body => (.typed typ body, st)

def rewriteExtensions : List ClientExtension → Rewriting → List ClientExtension × Rewriting
  | [], st => ([], st)
  | extension :: rest, st =>
    let (extension, st) := rewriteExtension deps fp st extension
    let (rest, st) := rewriteExtensions rest st
    (extension :: rest, st)

/-! ## Padding -/

def rfc7685PaddingTarget : Nat := 512

def padExtensions (padlen : Nat) : List ClientExtension → List ClientExtension
  | [] => []
  | .unknown typ payload :: rest =>
    if typ = extensionPadding then
      .unknown typ (payload.take padlen ++ List.replicate (padlen - payload.length) 0) :: rest
    else .unknown typ payload :: padExtensions padlen rest
  | extension :: rest => extension :: padExtensions padlen rest

def padPerRfc7685 (hello : ClientHello) : ClientHello :=
  let padlen := rfc7685PaddingTarget - (deps.getEncoding hello).length
  if padlen ≠ 0 then { hello with extensions := padExtensions padlen hello.extensions } else hello

/-! ## The message -/

def overwriteHello (addEmpty drop : Bool) (hello : ClientHello) : Except String ClientHello :=
  let ordered := match fp.ja3 with
    | some ja3 => matchExtensions deps addEmpty drop ja3 hello.extensions
    | none => .ok (hello.extensions, false)
  match ordered with
  | .error panic => .error panic
  | .ok (extensions, pad) =>
    let (extensions, st) := rewriteExtensions deps fp extensions ⟨[], 0, pad⟩
    let cipherSuites := (fp.ja3.map (·.ciphers)).getD hello.cipherSuites
    let hello := { hello with cipherSuites := cipherSuites, extensions := extensions }
    .ok (if st.pad then padPerRfc7685 deps hello else hello)

/-- The message and the unsolicited extensions a server may answer with; an error is the text of a panic. -/
def overwriteClientHelloWithFingerprintSpec (addEmpty drop : Bool) (msg : ClientMessage) :
    Except String (ClientMessage × List UInt16) :=
  let version := (fp.ja3.map (·.version)).getD msg.version
  match msg.payload with
  | .clientHello parsed _ =>
    (overwriteHello deps fp addEmpty drop parsed).map fun hello =>
      (⟨version, .clientHello hello (deps.getEncoding hello)⟩, [extensionRenegotiationInfo])
  | .handshake parsed _ => .ok (⟨version, .handshake parsed parsed⟩, [extensionRenegotiationInfo])
  | .other payload => .ok (⟨version, .other payload⟩, [extensionRenegotiationInfo])

def FingerprintSpec.getClientHelloOverwriter (addEmpty drop : Bool) :
    Option (ClientMessage → Except String (ClientMessage × List UInt16)) :=
  if fp.isEmpty then none else some (overwriteClientHelloWithFingerprintSpec deps fp addEmpty drop)

end

/-! ## What is left as it was -/

variable {deps : FingerprintDeps} {fp : FingerprintSpec} {addEmpty drop : Bool}

theorem padPerRfc7685_payload (hello : ClientHello) :
    (padPerRfc7685 deps hello).toClientHelloPayload = hello.toClientHelloPayload := by
  unfold padPerRfc7685
  dsimp only
  split <;> rfl

theorem overwriteHello_payload {hello new : ClientHello} (h : overwriteHello deps fp addEmpty drop hello = .ok new) :
    new.toClientHelloPayload = hello.toClientHelloPayload := by
  unfold overwriteHello at h
  dsimp only at h
  split at h
  · cases h
  · next extensions pad ordered =>
    obtain rfl := Except.ok.inj h
    split
    · rw [padPerRfc7685_payload]
    · rfl

/-- A ClientHello keeps its random and session id, and is encoded again. -/
theorem overwriteClientHello_spec {version : UInt16} {hello : ClientHello} {encoded : Bytes} {new : ClientMessage}
    {allowed : List UInt16}
    (h : overwriteClientHelloWithFingerprintSpec deps fp addEmpty drop ⟨version, .clientHello hello encoded⟩ =
      .ok (new, allowed)) :
    ∃ after, new = ⟨(fp.ja3.map (·.version)).getD version, .clientHello after (deps.getEncoding after)⟩ ∧
      after.toClientHelloPayload = hello.toClientHelloPayload := by
  unfold overwriteClientHelloWithFingerprintSpec at h
  dsimp only at h
  cases written : overwriteHello deps fp addEmpty drop hello with
  | error panic =>
    rw [written] at h
    cases h
  | ok after =>
    rw [written] at h
    cases h
    exact ⟨after, rfl, overwriteHello_payload written⟩

end NoisyShuttle.Tunnel
