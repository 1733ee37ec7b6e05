import NoisyShuttle.Lib.Text

/-!
# URLs of proxy requests

`extract_host_addr_from_url` and `url_to_relative`: the destination of a proxied request, and what is
left of its URL for the origin server.
-/

namespace NoisyShuttle.Shuttle

def slashes : Text := ['/', '/']

/-- `components` of `url.split("//")`: the scheme with its colon, and the next component up to its first
slash. -/
def components (url : Text) : Option (Text × Text) :=
  (breakOn slashes url).map fun (scheme, rest) => (scheme, (firstPiece slashes rest).takeWhile (· ≠ '/'))

def schemePort (scheme : Text) : Option UInt16 :=
  if scheme = "ftp".toList then some 21
  else if scheme = "https".toList then some 443
  else if scheme = "http".toList ∨ scheme = [] then some 80
  else none

def extractHostAddrFromUrl (url : Text) : Except Panic (Option (Text × UInt16)) :=
  match components url with
  | none => .ok none
  | some (scheme, host) =>
    match dropLastByte scheme with
    | .error panic => .error panic
    | .ok scheme =>
      match schemePort scheme with
      | none => .ok none
      | some port =>
        if ':' ∈ host then
          -- split_at leaves the colon at the front of the port
          let (h, p) := (host.takeWhile (· ≠ ':'), host.dropWhile (· ≠ ':'))
          .ok ((parseUnsigned 65536 p).map fun port => (h, UInt16.ofNat port))
        else .ok (some (host, port))

def afterSlashes (url : Text) : Text := (breakOn slashes url).elim url Prod.snd

def urlToRelative (url : Text) : Option Text :=
  let url := afterSlashes url
  if '/' ∈ url then some (url.dropWhile (· ≠ '/')) else none

/-! ## The destination -/

inductive UrlScheme where
  | http | https | ftp
  deriving DecidableEq

def UrlScheme.text : UrlScheme → Text
  | .http => "http".toList
  | .https => "https".toList
  | .ftp => "ftp".toList

def UrlScheme.defaultPort : UrlScheme → UInt16
  | .http => 80
  | .https => 443
  | .ftp => 21

def portText : Option UInt16 → Text
  | none => []
  | some port => ':' :: Nat.toDigits 10 port.toNat

def proxyUrl (scheme : UrlScheme) (host : Text) (port : Option UInt16) (path : Text) : Text :=
  scheme.text ++ "://".toList ++ (host ++ portText port ++ path)

theorem breakOn_proxyUrl (scheme : UrlScheme) (rest : Text) :
    breakOn slashes (scheme.text ++ "://".toList ++ rest) = some (scheme.text ++ [':'], rest) := by
  cases scheme <;> rfl

theorem schemePort_text (scheme : UrlScheme) :
    dropLastByte (scheme.text ++ [':']) = .ok scheme.text ∧ schemePort scheme.text = some scheme.defaultPort := by
  cases scheme <;> exact ⟨rfl, rfl⟩

theorem parseUnsigned_dropWhile {host : Text} (colon : ':' ∈ host) :
    parseUnsigned 65536 (host.dropWhile (· ≠ ':')) = none := by
  obtain ⟨rest, port⟩ := dropWhile_eq_cons colon
  rw [port, parseUnsigned_colon]

/-- What a URL yields once its scheme is known. An explicit port is never understood. -/
theorem extractHostAddr_components {url scheme host : Text} {port : UInt16} {name : Text}
    (split : components url = some (scheme, host)) (named : dropLastByte scheme = .ok name)
    (known : schemePort name = some port) :
    extractHostAddrFromUrl url = .ok (if ':' ∈ host then none else some (host, port)) := by
  unfold extractHostAddrFromUrl
  rw [split]
  dsimp only
  rw [named]
  dsimp only
  rw [known]
  dsimp only
  by_cases colon : ':' ∈ host
  · rw [if_pos colon, if_pos colon, parseUnsigned_dropWhile colon]
    rfl
  · rw [if_neg colon, if_neg colon]

theorem components_proxyUrl (scheme : UrlScheme) {host path : Text} (port : Option UInt16) (bare : '/' ∉ host)
    (rooted : path = [] ∨ ∃ rest, path = '/' :: rest) :
    components (proxyUrl scheme host port path) = some (scheme.text ++ [':'], host ++ portText port) := by
  have digits : '/' ∉ portText port := by
    cases port with
    | none => simp [portText]
    | some port =>
      intro member
      rcases List.mem_cons.mp member with colon | digit
      · exact absurd colon (by decide)
      · exact absurd (Nat.isDigit_of_mem_toDigits (by decide) (by decide) digit) (by decide)
  have cut : path.takeWhile (· ≠ '/') = [] := by
    rcases rooted with rfl | ⟨rest, rfl⟩
    · rfl
    · simp
  have whole : '/' ∉ host ++ portText port := by simp [bare, digits]
  unfold components proxyUrl
  rw [breakOn_proxyUrl, Option.map_some]
  dsimp only
  rw [slashes, takeWhile_firstPiece, takeWhile_append_of_not_mem whole, cut, List.append_nil]

theorem proxyUrl_destination_iff (scheme : UrlScheme) (host : Text) (port : Option UInt16) (path : Text)
    (bare : '/' ∉ host ∧ ':' ∉ host) (rooted : path = [] ∨ ∃ rest, path = '/' :: rest) :
    extractHostAddrFromUrl (proxyUrl scheme host port path) =
      .ok (some (host, port.getD scheme.defaultPort)) ↔ port = none := by
  obtain ⟨trimmed, known⟩ := schemePort_text scheme
  rw [extractHostAddr_components (components_proxyUrl scheme port bare.1 rooted) trimmed known]
  cases port with
  | none => simp [portText, bare.2]
  | some port => simp [portText]

theorem proxyUrl_destination_default :
    extractHostAddrFromUrl "ftp://host/a//b:9".toList = .ok (some ("host".toList, 21)) :=
  (proxyUrl_destination_iff .ftp "host".toList none "/a//b:9".toList (by decide) (.inr ⟨_, rfl⟩)).mpr rfl

theorem proxyUrl_destination_port :
    extractHostAddrFromUrl (proxyUrl .http "host".toList (some 8080) "/".toList) = .ok none := by decide +kernel

/-! ## The path -/

theorem components_eq_some {url scheme authority : Text} (h : components url = some (scheme, authority)) :
    ∃ rest, breakOn slashes url = some (scheme, rest) ∧ authority = rest.takeWhile (· ≠ '/') := by
  unfold components at h
  obtain ⟨⟨found, rest⟩, broken, same⟩ := Option.map_eq_some_iff.mp h
  obtain ⟨rfl, rfl⟩ := Prod.mk.injEq .. ▸ same
  exact ⟨rest, broken, takeWhile_firstPiece rest⟩

theorem extractHostAddr_eq_some {url host : Text} {port : UInt16}
    (h : extractHostAddrFromUrl url = .ok (some (host, port))) :
    ∃ scheme, components url = some (scheme, host) ∧ ':' ∉ host := by
  cases split : components url with
  | none => simp [extractHostAddrFromUrl, split] at h
  | some pair =>
    obtain ⟨scheme, authority⟩ := pair
    cases named : dropLastByte scheme with
    | error panic => simp [extractHostAddrFromUrl, split, named] at h
    | ok name =>
      cases known : schemePort name with
      | none => simp [extractHostAddrFromUrl, split, named, known] at h
      | some port =>
        rw [extractHostAddr_components split named known] at h
        split at h
        · cases h
        · next bare =>
          cases h
          exact ⟨scheme, rfl, bare⟩

theorem urlToRelative_eq_some {url path : Text} (h : urlToRelative url = some path) :
    '/' ∈ afterSlashes url ∧ path = (afterSlashes url).dropWhile (· ≠ '/') := by
  unfold urlToRelative at h
  dsimp only at h
  split at h
  · next member => exact ⟨member, (Option.some.inj h).symm⟩
  · cases h

/-- A URL with a destination and a path is its scheme, the host and the path. -/
theorem breakOn_of_relative {url host path : Text} {port : UInt16}
    (destination : extractHostAddrFromUrl url = .ok (some (host, port))) (relative : urlToRelative url = some path) :
    ∃ scheme, components url = some (scheme, host) ∧ ':' ∉ host ∧
      breakOn slashes url = some (scheme, host ++ path) := by
  obtain ⟨scheme, split, bare⟩ := extractHostAddr_eq_some destination
  obtain ⟨rest, broken, authority⟩ := components_eq_some split
  have after : afterSlashes url = rest := by simp [afterSlashes, broken]
  obtain ⟨-, cut⟩ := urlToRelative_eq_some relative
  refine ⟨scheme, split, bare, ?_⟩
  rw [cut, after, authority, List.takeWhile_append_dropWhile]
  exact broken

theorem urlToRelative_splits_iff (url host : Text) (port : UInt16)
    (destination : extractHostAddrFromUrl url = .ok (some (host, port))) :
    (∃ scheme authority path, components url = some (scheme, authority) ∧ host = authority.takeWhile (· ≠ ':') ∧
        urlToRelative url = some path ∧ path.head? = some '/' ∧ url = scheme ++ slashes ++ authority ++ path) ↔
      '/' ∈ afterSlashes url := by
  constructor
  · rintro ⟨_, _, path, -, -, relative, -, -⟩
    exact (urlToRelative_eq_some relative).1
  · intro member
    obtain ⟨tail, path⟩ := dropWhile_eq_cons member
    have relative : urlToRelative url = some ('/' :: tail) := by
      unfold urlToRelative
      rw [if_pos member, path]
    obtain ⟨scheme, split, bare, broken⟩ := breakOn_of_relative destination relative
    have whole : host.takeWhile (· ≠ ':') = host := by
      have := takeWhile_append_of_not_mem bare []
      simpa using this
    refine ⟨scheme, host, '/' :: tail, split, whole.symm, relative, rfl, ?_⟩
    rw [List.append_assoc]
    exact breakOn_eq_append broken

theorem urlToRelative_splits_path :
    ∃ scheme authority path, components "http://a/b//c".toList = some (scheme, authority) ∧
      "a".toList = authority.takeWhile (· ≠ ':') ∧
      urlToRelative "http://a/b//c".toList = some path ∧ path.head? = some '/' ∧
      "http://a/b//c".toList = scheme ++ slashes ++ authority ++ path :=
  (urlToRelative_splits_iff "http://a/b//c".toList "a".toList 80 (by decide +kernel)).mpr (by decide +kernel)

theorem urlToRelative_pathless :
    extractHostAddrFromUrl "http://a".toList = .ok (some ("a".toList, 80)) ∧
      urlToRelative "http://a".toList = none := by decide +kernel

end NoisyShuttle.Shuttle
