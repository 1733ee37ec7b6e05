import NoisyShuttle.Tunnel.Client
import NoisyShuttle.Tunnel.Layout

/-!
# ALPN and the JA3

`connect` configures ALPN if the JA3 lists it; the overwriter panics where the JA3 lists it and the
message has none left.
-/

namespace NoisyShuttle.Tunnel

variable {deps : FingerprintDeps} {fp : FingerprintSpec} {drop : Bool}

def alpnPanic : String := "Expect ALPN present in original message if it is listed in JA3"

/-- What is assumed of rustls: one ALPN extension if there are protocols to put into it, and else none. -/
def OneAlpn (tls : TlsConfig) : Prop :=
  ∀ protocols, (tls.extensions protocols).countP (·.getType = extensionALProtocolNegotiation) =
    if protocols = [] then 0 else 1

/-! ## Which layouts panic -/

theorem dummyPayload_cases (typ : UInt16) :
    typ = extensionALProtocolNegotiation ∧ dummyPayload typ = .error alpnPanic ∨
      typ ≠ extensionALProtocolNegotiation ∧ ∃ payload, dummyPayload typ = .ok payload := by
  by_cases same : typ = extensionALProtocolNegotiation
  · exact .inl ⟨same, if_pos same⟩
  · refine .inr ⟨same, ?_⟩
    unfold dummyPayload
    rw [if_neg same]
    split
    · exact ⟨_, rfl⟩
    · split
      · exact ⟨_, rfl⟩
      · split
        · exact ⟨_, rfl⟩
        · exact ⟨_, rfl⟩

theorem error_ne_error {α β : Type} (left right : String) :
    (.error left : Except String α) ≠ .error right ↔ (.error left : Except String β) ≠ .error right := by
  rw [ne_eq, ne_eq, Except.error.injEq, Except.error.injEq]

theorem map_ne_error {α β : Type} (f : α → β) (x : Except String α) (panic : String) :
    x.map f ≠ .error panic ↔ x ≠ .error panic := by
  cases x with
  | error other => exact error_ne_error other panic
  | ok a => exact iff_of_true nofun nofun

theorem orderExtensions_cons_ne_panic (typ : UInt16) (types : List UInt16) (old : List (UInt16 × ClientExtension)) :
    orderExtensions true (typ :: types) old ≠ .error alpnPanic ↔
      (typ = extensionALProtocolNegotiation → old.lookup typ ≠ none) ∧
        orderExtensions true types (removeEntry typ old).2 ≠ .error alpnPanic := by
  rw [orderExtensions]
  cases found : old.lookup typ with
  | some extension =>
    rw [removeEntry_of_lookup found]
    exact (map_ne_error ..).trans (iff_and_self.mpr fun _ _ => nofun)
  | none =>
    rw [removeEntry_of_lookup found]
    rcases dummyPayload_cases typ with ⟨alpn, panics⟩ | ⟨other, payload, made⟩
    · rw [panics]
      exact iff_of_false (fun differs => differs rfl) (fun both => both.1 alpn rfl)
    · rw [made]
      exact (map_ne_error ..).trans (iff_and_self.mpr fun _ alpn => absurd alpn other)

/-- Every entry for ALPN takes the extension away, and there is at most one. -/
theorem orderExtensions_ne_panic (types : List UInt16) (old : List (UInt16 × ClientExtension)) :
    orderExtensions true types old ≠ .error alpnPanic ↔
      types.count extensionALProtocolNegotiation ≤ (old.lookup extensionALProtocolNegotiation).toList.length := by
  induction types generalizing old with
  | nil => exact iff_of_true nofun (Nat.zero_le _)
  | cons typ types ih =>
    rw [orderExtensions_cons_ne_panic, ih, lookup_removeEntry]
    by_cases alpn : typ = extensionALProtocolNegotiation
    · subst alpn
      rw [if_pos rfl, List.count_cons_self]
      cases old.lookup extensionALProtocolNegotiation with
      | none => exact iff_of_false (fun both => both.1 rfl rfl) (Nat.not_succ_le_zero _)
      | some extension =>
        constructor
        · exact fun both => Nat.succ_le_succ both.2
        · exact fun one => ⟨fun _ => nofun, Nat.le_of_succ_le_succ one⟩
    · rw [if_neg (Ne.symm alpn), List.count_cons_of_ne alpn]
      exact and_iff_right fun same => absurd same alpn

theorem overwriteHello_ne_panic {ja3 : Ja3} (given : fp.ja3 = some ja3) (hello : ClientHello) :
    overwriteHello deps fp true drop hello ≠ .error alpnPanic ↔
      orderExtensions true (deps.regreased ja3.extensions) (collectEntries (·.getType) hello.extensions) ≠
        .error alpnPanic := by
  cases order : orderExtensions true (deps.regreased ja3.extensions) (collectEntries (·.getType) hello.extensions) with
  | error panic =>
    have written : overwriteHello deps fp true drop hello = .error panic := by
      simp only [overwriteHello, matchExtensions, given, order]
    rw [written]
    exact error_ne_error panic alpnPanic
  | ok result =>
    obtain ⟨new, left, pad⟩ := result
    have written : ∃ after, overwriteHello deps fp true drop hello = .ok after := by
      simp only [overwriteHello, matchExtensions, given, order]
      exact ⟨_, rfl⟩
    obtain ⟨after, written⟩ := written
    rw [written]
    exact iff_of_true nofun nofun

/-! ## What rustls is given -/

theorem count_regreased (lawful : deps.Lawful) {typ : UInt16} (plain : typ &&& 0x0f0f ≠ 0x0a0a) (types : List UInt16) :
    (deps.regreased types).count typ = types.count typ := by
  have related := lawful.regreased types
  generalize deps.regreased types = new at related
  induction related with
  | nil => rfl
  | @cons old new olds news head tail ih =>
    have same : new = typ ↔ old = typ := by
      unfold Regreased at head
      split at head
      · next grease =>
        constructor
        · rintro rfl
          exact absurd (lawful.shape _ head) plain
        · rintro rfl
          exact absurd (lawful.shape _ grease) plain
      · rw [head]
    rw [List.count_cons, List.count_cons, ih]
    simp only [beq_iff_eq, same]

theorem alpn_left {tls : TlsConfig} (one : OneAlpn tls) (protocols : List Bytes) :
    ((collectEntries (·.getType) (tls.extensions protocols)).lookup extensionALProtocolNegotiation).toList.length =
      if protocols = [] then 0 else 1 := by
  have count := one protocols
  have none := lookup_collectEntries ClientExtension.getType (tls.extensions protocols) extensionALProtocolNegotiation
  by_cases empty : protocols = []
  · rw [if_pos empty] at count ⊢
    rw [none.mpr (by simpa using List.countP_eq_zero.mp count)]
    rfl
  · rw [if_neg empty] at count ⊢
    cases found : (collectEntries (·.getType) (tls.extensions protocols)).lookup extensionALProtocolNegotiation with
    | some extension => rfl
    | none =>
      have zero : (tls.extensions protocols).countP (·.getType = extensionALProtocolNegotiation) = 0 :=
        List.countP_eq_zero.mpr (by simpa using none.mp found)
      omega

theorem alpnProtocols_eq_nil {ja3 : Ja3} (given : fp.ja3 = some ja3) :
    fp.alpnProtocols = [] ↔ extensionALProtocolNegotiation ∉ ja3.extensions ∨ fp.alpn = some [] := by
  unfold FingerprintSpec.alpnProtocols
  rw [given]
  dsimp only
  by_cases listed : extensionALProtocolNegotiation ∈ ja3.extensions
  · rw [if_pos listed]
    cases fp.alpn with
    | none => exact iff_of_false nofun (by simp [listed])
    | some protocols => simp [listed]
  · rw [if_neg listed]
    exact iff_of_true rfl (.inl listed)

/-- The fingerprint does not list ALPN, or once and not with an empty list of protocols. -/
def SingleAlpn (fp : FingerprintSpec) : Prop :=
  ∀ ja3, fp.ja3 = some ja3 → ja3.extensions.count extensionALProtocolNegotiation = 0 ∨
    ja3.extensions.count extensionALProtocolNegotiation = 1 ∧ fp.alpn ≠ some []

theorem overwriteHello_alpn (lawful : deps.Lawful) {tls : TlsConfig} (one : OneAlpn tls) (hello : ClientHello)
    (built : hello.extensions = tls.extensions fp.alpnProtocols) :
    overwriteHello deps fp true drop hello ≠ .error alpnPanic ↔ SingleAlpn fp := by
  cases given : fp.ja3 with
  | none =>
    have written : ∃ after, overwriteHello deps fp true drop hello = .ok after := by
      simp only [overwriteHello, given]
      exact ⟨_, rfl⟩
    obtain ⟨after, written⟩ := written
    rw [written]
    exact iff_of_true nofun fun ja3 same => nomatch given.symm.trans same
  | some ja3 =>
    have single : SingleAlpn fp ↔ ja3.extensions.count extensionALProtocolNegotiation = 0 ∨
        ja3.extensions.count extensionALProtocolNegotiation = 1 ∧ fp.alpn ≠ some [] := by
      unfold SingleAlpn
      rw [given]
      exact ⟨fun every => every ja3 rfl, fun this other same => Option.some.inj same ▸ this⟩
    have listed : extensionALProtocolNegotiation ∈ ja3.extensions ↔
        0 < ja3.extensions.count extensionALProtocolNegotiation := List.count_pos_iff.symm
    rw [overwriteHello_ne_panic given, orderExtensions_ne_panic, count_regreased lawful (by decide), built,
      alpn_left one, single]
    by_cases none : fp.alpnProtocols = []
    · rw [if_pos none]
      rcases (alpnProtocols_eq_nil given).mp none with absent | empty
      · rw [listed] at absent
        omega
      · simp [empty]
    · rw [if_neg none]
      rw [alpnProtocols_eq_nil given, not_or, not_not, listed] at none
      obtain ⟨some, kept⟩ := none
      constructor
      · exact fun bound => .inr ⟨by omega, kept⟩
      · rintro (zero | ⟨exact, -⟩) <;> omega

/-! ## The ClientHello of `connect` -/

theorem sessionId_fits {deps : Deps} (digest : ∀ msg, (deps.blake2s msg).length = 32) (totp : Totp) {pskE : Bytes}
    (length : pskE.length = 48) (now : UInt64) (nonce : Bytes) :
    (pskE.take 32).length = 32 ∧ ((pskE.drop 32).take 16 ++ totp.sign deps.blake2s 16 now nonce).length = 32 := by
  have signature : (totp.sign deps.blake2s 16 now nonce).length = 16 := by
    unfold Totp.sign possiblyInsecureHashWithKey
    rw [List.length_take, digest]
    rfl
  rw [List.length_append, signature, List.length_take, List.length_take, List.length_drop, length]
  decide

/-- The panic is reached by fingerprints that list ALPN twice, or once with an empty list of protocols. -/
theorem alpn_panic_iff (deps : Deps) (digest : ∀ msg, (deps.blake2s msg).length = 32) (fpDeps : FingerprintDeps)
    (lawful : fpDeps.Lawful) (tls : TlsConfig) (one : OneAlpn tls) (key : Bytes) (spec : FingerprintSpec)
    (pskE : Bytes) (length : pskE.length = 48) (now : UInt64) :
    (Client.newWithFingerprint deps key spec).clientHello deps fpDeps tls pskE now ≠ .error alpnPanic ↔
      SingleAlpn spec := by
  have sizes := sessionId_fits digest (Client.newWithFingerprint deps key spec).totp length now (pskE.take 32)
  unfold Client.clientHello
  dsimp only
  rw [dif_pos sizes]
  unfold FingerprintSpec.getClientHelloOverwriter
  by_cases empty : spec.isEmpty = true
  · have unlisted : spec.ja3 = none := by
      simp only [FingerprintSpec.isEmpty, Bool.and_eq_true, Option.isNone_iff_eq_none] at empty
      exact empty.1.1.1.1
    have none : (Client.newWithFingerprint deps key spec).fingerprintSpec.isEmpty = true := empty
    rw [if_pos none]
    refine iff_of_true ?_ ?_
    · intro panicked
      cases panicked
    · intro ja3 same
      cases unlisted.symm.trans same
  · have some : ¬ (Client.newWithFingerprint deps key spec).fingerprintSpec.isEmpty = true := empty
    rw [if_neg some]
    refine (map_ne_error ..).trans ((map_ne_error ..).trans ?_)
    exact overwriteHello_alpn lawful one _ rfl

/-! ### Fingerprints with ALPN -/

def alpnTls : TlsConfig where
  version := 0x0301
  cipherSuites := [0x1301]
  extensions protocols :=
    if protocols = [] then [.namedGroups [0x001d]] else [.namedGroups [0x001d], .protocols protocols]

theorem alpnTls_one : OneAlpn alpnTls := by
  intro protocols
  by_cases empty : protocols = []
  · rw [if_pos empty, empty]
    rfl
  · have sent : alpnTls.extensions protocols = [.namedGroups [0x001d], .protocols protocols] := if_neg empty
    rw [if_neg empty, sent]
    rfl

def alpnSpec (extensions : List UInt16) (alpn : Option (List Bytes)) : FingerprintSpec :=
  { FingerprintSpec.new with ja3 := some ⟨0x0303, [0x1301], extensions, [0x001d], [0x00]⟩, alpn := alpn }

theorem alpn_panic_iff_listed :
    (Client.newWithFingerprint plainDeps [0x6b] (alpnSpec [0x000a, 0x0010] (some [[0x68, 0x32]]))).clientHello plainDeps
      plainGrease alpnTls (List.replicate 48 0x07) 600 ≠ .error alpnPanic := by
  refine (alpn_panic_iff plainDeps (fun msg => ?_) plainGrease plainGrease_lawful alpnTls alpnTls_one [0x6b] _
    (List.replicate 48 0x07) List.length_replicate 600).mpr ?_
  · exact congrArg Nat.succ List.length_replicate
  · rintro ja3 same
    cases same
    exact .inr ⟨by decide, by decide⟩

/-- ALPN listed twice, and ALPN listed with an empty list of protocols. -/
theorem alpn_panic_reached :
    OneAlpn alpnTls ∧ plainGrease.Lawful ∧
    (Client.newWithFingerprint plainDeps [0x6b] (alpnSpec [0x0010, 0x0010] none)).clientHello plainDeps plainGrease
      alpnTls (List.replicate 48 0x07) 600 = .error alpnPanic ∧
    (Client.newWithFingerprint plainDeps [0x6b] (alpnSpec [0x0010] (some []))).clientHello plainDeps plainGrease
      alpnTls (List.replicate 48 0x07) 600 = .error alpnPanic :=
  ⟨alpnTls_one, plainGrease_lawful, rfl, rfl⟩

end NoisyShuttle.Tunnel
