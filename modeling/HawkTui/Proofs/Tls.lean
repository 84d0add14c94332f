import HawkTui.Hawkd.GrpcHealth
import HawkTui.Lib.Collect

/-! Whether a watcher in a TLS mode can talk in clear. The mode asks for
certificates; the scheme, which decides, stays as the endpoint has it. -/

namespace HawkTui.Proofs.Tls
open Lib Text Collect GrpcHealth

def uriScheme (uri : Text) : Option Text := (splitOnce ':' uri).map Prod.fst

/-- The connection is encrypted, its peer is checked, and where the mode says so
this side is identified. -/
structure Secure (mode : GrpcTlsMode) (ep : Endpoint) : Prop where
  https : uriScheme ep.uri = some "https".toList
  certified : ∃ cfg ca, ep.tlsConfig = some cfg ∧ cfg.caCertificate = some ca ∧ (mode = .mtls → cfg.identity.isSome = true)

variable {χ : Type}

/-- Only secure endpoints are connected to; without one nothing is. -/
structure NeverInClear (read : Text → Except Text Bytes) (table : DebugTable) (tonic : Tonic χ) (spec : WatchSpec)
    (tls : GrpcTlsFiles) : Prop where
  secure : ∀ ep, prepareEndpoint read table tonic spec tls = .ok ep → Secure tls.mode ep
  refuses : ∀ e, prepareEndpoint read table tonic spec tls = .error e → connectChannel read table tonic spec tls = .error e

variable {read : Text → Except Text Bytes} {table : DebugTable} {tonic : Tonic χ} {spec : WatchSpec} {tls : GrpcTlsFiles}

/-- What the settings come to: they name all that the mode needs, and its files can be read. -/
structure Yields (read : Text → Except Text Bytes) (uri : Text) (tls : GrpcTlsFiles) (cfg : ClientTlsConfig) : Prop where
  ca : ∃ path pem, tls.caPem = some path ∧ read path = .ok pem ∧ cfg.caCertificate = some pem
  domain : ∃ name, tls.domainName.or (deriveHostFromUri uri) = some name ∧ cfg.domainName = some name
  single : tls.mode ≠ .mtls → cfg.identity = none
  both : tls.mode = .mtls → ∃ certPath keyPath cert key, tls.clientCertPem = some certPath ∧
    tls.clientKeyPem = some keyPath ∧ read certPath = .ok cert ∧ read keyPath = .ok key ∧ cfg.identity = some (cert, key)

theorem okOr_eq_ok {missing : String} {value : Option α} {a : α} : okOr missing value = .ok a ↔ value = some a := by
  cases value <;> simp [okOr]

theorem tlsDomain_ok_iff {uri name : Text} :
    tlsDomain uri tls = .ok name ↔ tls.domainName.or (deriveHostFromUri uri) = some name := by
  unfold tlsDomain
  cases tls.domainName with
  | none => simp [okOr_eq_ok]
  | some given => simp

theorem readPem_ok_iff {what : String} {path : Text} {pem : Bytes} :
    readPem read table what path = .ok pem ↔ read path = .ok pem := mapError_eq_ok

theorem buildTlsConfig_ok_iff {uri : Text} {cfg : ClientTlsConfig} :
    buildTlsConfig read table uri tls = .ok cfg ↔ Yields read uri tls cfg := by
  simp only [buildTlsConfig, bind_eq_ok, okOr_eq_ok, readPem_ok_iff, tlsDomain_ok_iff]
  constructor
  · rintro ⟨path, given, ca, readable, name, named, rest⟩
    split at rest
    next both =>
      simp only [bind_eq_ok, okOr_eq_ok, readPem_ok_iff] at rest
      obtain ⟨certPath, certGiven, keyPath, keyGiven, cert, certRead, key, keyRead, result⟩ := rest
      cases result
      exact ⟨⟨path, ca, given, readable, rfl⟩, ⟨name, named, rfl⟩, fun single => absurd both single,
        fun _ => ⟨certPath, keyPath, cert, key, certGiven, keyGiven, certRead, keyRead, rfl⟩⟩
    next single =>
      cases rest
      exact ⟨⟨path, ca, given, readable, rfl⟩, ⟨name, named, rfl⟩, fun _ => rfl, fun both => absurd both single⟩
  · intro yields
    obtain ⟨path, ca, given, readable, certified⟩ := yields.ca
    obtain ⟨name, named, domain⟩ := yields.domain
    refine ⟨path, given, ca, readable, name, named, ?_⟩
    obtain ⟨caCertificate, domainName, identity⟩ := cfg
    obtain rfl : caCertificate = some ca := certified
    obtain rfl : domainName = some name := domain
    split
    next both =>
      obtain ⟨certPath, keyPath, cert, key, certGiven, keyGiven, certRead, keyRead, identified⟩ := yields.both both
      obtain rfl : identity = some (cert, key) := identified
      simp only [bind_eq_ok, okOr_eq_ok, readPem_ok_iff]
      exact ⟨certPath, certGiven, keyPath, keyGiven, cert, certRead, key, keyRead, rfl⟩
    next single =>
      obtain rfl : identity = none := yields.single single
      rfl

/-- In a TLS mode everything has to succeed before a connection is opened. -/
theorem prepareEndpoint_ok_iff {ep : Endpoint} {uri : Text} (normal : normalizeEndpointUri spec.endpoint tls.mode = uri)
    (on : tls.mode ≠ .off) :
    prepareEndpoint read table tonic spec tls = .ok ep ↔ tonic.fromShared uri = .ok () ∧
      ∃ cfg, Yields read uri tls cfg ∧ tonic.tlsConfig cfg = .ok () ∧ ep = ⟨uri, 5, 15, some cfg⟩ := by
  simp only [prepareEndpoint, normal, bind_eq_ok, mapError_eq_ok]
  split
  next off => exact absurd off on
  all_goals
    simp only [bind_eq_ok, mapError_eq_ok, buildTlsConfig_ok_iff]
    constructor
    · rintro ⟨⟨⟩, shared, cfg, yields, ⟨⟩, accepted, result⟩
      cases result
      exact ⟨shared, cfg, yields, accepted, rfl⟩
    · rintro ⟨shared, cfg, yields, accepted, rfl⟩
      exact ⟨(), shared, cfg, yields, (), accepted, rfl⟩

theorem parseWatchSpec_trimmed {s : Text} (parsed : parseWatchSpec s = .ok spec) : Trimmed spec.endpoint := by
  simp only [parseWatchSpec] at parsed
  split at parsed
  · cases parsed
  · cases parsed
    cases (s.splitOn ',')[0]? with
    | none => exact trimmed_nil
    | some part => exact trim_trimmed part

theorem uriScheme_append {word : Text} (letters : ':' ∉ word) (rest : Text) :
    uriScheme (word ++ ':' :: rest) = some word := by
  rw [uriScheme, splitOnce_append letters, Option.map_some]

theorem normalize_http {endpoint : Text} (trimmed : Trimmed endpoint)
    (http : startsWith "http://".toList endpoint = true) (mode : GrpcTlsMode) :
    normalizeEndpointUri endpoint mode = endpoint := by
  unfold normalizeEndpointUri
  rw [trimmed]
  simp only [http, Bool.true_or, if_true]

theorem normalize_https {endpoint : Text} (trimmed : Trimmed endpoint)
    (plain : startsWith "http://".toList endpoint = false) {mode : GrpcTlsMode} (on : mode ≠ .off) :
    uriScheme (normalizeEndpointUri endpoint mode) = some "https".toList := by
  have schemed : ∀ rest, uriScheme ("https://".toList ++ rest) = some "https".toList := fun rest =>
    uriScheme_append (by decide : ':' ∉ "https".toList) ('/' :: '/' :: rest)
  unfold normalizeEndpointUri
  rw [trimmed]
  cases https : startsWith "https://".toList endpoint with
  | true =>
    obtain ⟨rest, same⟩ := List.isPrefixOf_iff_prefix.mp https
    simp only [plain, https, Bool.or_true, if_true]
    rw [← same]
    exact schemed rest
  | false =>
    simp only [plain, https, Bool.or_self, Bool.false_eq_true, if_false]
    cases mode with
    | off => exact absurd rfl on
    | tls => exact schemed endpoint
    | mtls => exact schemed endpoint

theorem not_secure_http {mode : GrpcTlsMode} {ep : Endpoint} (http : startsWith "http://".toList ep.uri = true) :
    ¬ Secure mode ep := by
  intro secure
  obtain ⟨rest, same⟩ := List.isPrefixOf_iff_prefix.mp http
  have scheme : uriScheme ep.uri = some "http".toList := by
    rw [← same]
    exact uriScheme_append (by decide : ':' ∉ "http".toList) ('/' :: '/' :: rest)
  rw [secure.https] at scheme
  exact absurd scheme (by decide)

theorem Yields.secure {uri : Text} {cfg : ClientTlsConfig} (yields : Yields read uri tls cfg)
    (https : uriScheme uri = some "https".toList) : Secure tls.mode ⟨uri, 5, 15, some cfg⟩ := by
  obtain ⟨_, ca, -, -, certified⟩ := yields.ca
  refine ⟨https, cfg, ca, rfl, certified, ?_⟩
  intro both
  obtain ⟨_, _, cert, key, -, -, -, -, identified⟩ := yields.both both
  rw [identified]
  rfl

/-- A watch in a TLS mode keeps out of the clear exactly when its endpoint does not
ask for it, or when one of the steps before the connection fails. -/
theorem never_in_clear_iff (read : Text → Except Text Bytes) (table : DebugTable) (tonic : Tonic χ) (s : Text)
    (spec : WatchSpec) (tls : GrpcTlsFiles) (parsed : parseWatchSpec s = .ok spec) (on : tls.mode ≠ .off) :
    NeverInClear read table tonic spec tls ↔
      ¬ (startsWith "http://".toList spec.endpoint = true ∧ tonic.fromShared spec.endpoint = .ok () ∧
        ∃ cfg, Yields read spec.endpoint tls cfg ∧ tonic.tlsConfig cfg = .ok ()) := by
  have trimmed := parseWatchSpec_trimmed parsed
  constructor
  · rintro never ⟨http, shared, cfg, yields, accepted⟩
    have prepared : prepareEndpoint read table tonic spec tls = .ok ⟨spec.endpoint, 5, 15, some cfg⟩ :=
      (prepareEndpoint_ok_iff (normalize_http trimmed http tls.mode) on).mpr ⟨shared, cfg, yields, accepted, rfl⟩
    exact not_secure_http http (never.secure _ prepared)
  · intro clear
    refine ⟨?_, ?_⟩
    · intro ep prepared
      obtain ⟨shared, cfg, yields, accepted, rfl⟩ := (prepareEndpoint_ok_iff rfl on).mp prepared
      cases http : startsWith "http://".toList spec.endpoint with
      | false => exact yields.secure (normalize_https trimmed http on)
      | true =>
        rw [normalize_http trimmed http] at shared yields
        exact absurd ⟨http, shared, cfg, yields, accepted⟩ clear
    · intro e failed
      simp only [connectChannel, failed, bind, Except.bind]

def lenient : Tonic Unit := ⟨fun _ => .ok (), fun _ => .ok (), fun _ => .ok ()⟩

def clearSpec : WatchSpec := ⟨"http://svc:50051".toList, [], "svc".toList⟩

def tlsFiles : GrpcTlsFiles := ⟨.tls, some "ca.pem".toList, none, none, none⟩

theorem tls_watch_in_clear :
    parseWatchSpec "http://svc:50051,,svc".toList = .ok clearSpec ∧
      prepareEndpoint (fun _ => .ok []) (fun _ => false) lenient clearSpec tlsFiles =
        .ok ⟨"http://svc:50051".toList, 5, 15, some ⟨some [], some "svc".toList, none⟩⟩ ∧
      ¬ NeverInClear (fun _ => .ok []) (fun _ => false) lenient clearSpec tlsFiles := by
  have prepared : prepareEndpoint (fun _ => .ok []) (fun _ => false) lenient clearSpec tlsFiles =
      .ok ⟨"http://svc:50051".toList, 5, 15, some ⟨some [], some "svc".toList, none⟩⟩ := rfl
  refine ⟨by decide, prepared, ?_⟩
  intro never
  exact not_secure_http (by decide) (never.secure _ prepared)

theorem schemeless_watch_never_in_clear :
    NeverInClear (fun _ => .ok []) (fun _ => false) lenient ⟨"svc:8443".toList, [], "svc".toList⟩ tlsFiles :=
  (never_in_clear_iff (fun _ => .ok []) (fun _ => false) lenient "svc:8443,,svc".toList
    ⟨"svc:8443".toList, [], "svc".toList⟩ tlsFiles (by decide) (by decide)).mpr fun clear => absurd clear.1 (by decide)

end HawkTui.Proofs.Tls
