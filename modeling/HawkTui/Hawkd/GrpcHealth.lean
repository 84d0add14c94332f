import HawkTui.Core.Debug
import HawkTui.Hawkd.UnixIngest
import HawkTui.Lib.Numbers

/-! The gRPC health watchers: their command line specs, how they connect, the
frames they put on the spine, and how long they wait between two attempts. -/

namespace HawkTui.GrpcHealth
open Lib Text Numbers UnixIngest

structure WatchSpec where
  endpoint : Text
  /-- Empty for the whole server. -/
  service : Text
  id : Text
  deriving DecidableEq

inductive GrpcTlsMode where
  | off
  | tls
  | mtls
  deriving DecidableEq, Repr

structure GrpcTlsFiles where
  mode : GrpcTlsMode
  caPem : Option Text
  clientCertPem : Option Text
  clientKeyPem : Option Text
  domainName : Option Text

structure GrpcWatchConfig where
  ttlStaleS : Int
  ttlDeadS : Int

def defaultId (endpoint service : Text) : Text :=
  let base := replace "https://".toList [] (replace "http://".toList [] endpoint)
  let base := replace [':'] ['_'] (replace ['/'] ['_'] base)
  if service.isEmpty then "grpc.".toList ++ base
  else
    let svc := replace [':'] ['_'] (replace ['/'] ['_'] service)
    "grpc.".toList ++ base ++ '.' :: svc

/-- `endpoint,service,id`, where all but the endpoint may be left out. -/
def parseWatchSpec (s : Text) : Except Text WatchSpec :=
  let parts := s.splitOn ','
  let endpoint := (parts[0]?.map trim).getD []
  if endpoint.isEmpty then .error "watch spec missing endpoint".toList
  else
    let service := (parts[1]?.map trim).getD []
    let id := match parts[2]?.map trim with
      | some v => if v.isEmpty then defaultId endpoint service else v
      | none => defaultId endpoint service
    .ok { endpoint, service, id }

def normalizeEndpointUri (raw : Text) (mode : GrpcTlsMode) : Text :=
  let s := trim raw
  if startsWith "http://".toList s || startsWith "https://".toList s then s
  else match mode with
    | .off => "http://".toList ++ s
    | .tls | .mtls => "https://".toList ++ s

def deriveHostFromUri (uri : Text) : Option Text := do
  let s ← (splitText "://".toList uri)[1]?
  let hostPort := (s.splitOn '/').head?.getD s
  let host := (hostPort.splitOn ':').head?.getD hostPort
  if host.isEmpty then none else some host

structure ClientTlsConfig where
  caCertificate : Option Bytes := none
  domainName : Option Text := none
  identity : Option (Bytes × Bytes) := none

structure Endpoint where
  uri : Text
  connectTimeoutS : Nat
  timeoutS : Nat
  tlsConfig : Option ClientTlsConfig := none

/-- The transport library: what it accepts, and what connecting gives. -/
structure Tonic (χ : Type) where
  fromShared : Text → Except Text Unit
  tlsConfig : ClientTlsConfig → Except Text Unit
  connect : Endpoint → Except Text χ

section
variable (read : Text → Except Text Bytes) (table : DebugTable)

def okOr (missing : String) : Option α → Except Text α
  | some a => .ok a
  | none => .error missing.toList

def readPem (what : String) (path : Text) : Except Text Bytes :=
  (read path).mapError fun e => "read ".toList ++ what.toList ++ ' ' :: debugStr table path ++ ": ".toList ++ e

def tlsDomain (uri : Text) (tls : GrpcTlsFiles) : Except Text Text :=
  match tls.domainName with
  | some d => .ok d
  | none => okOr "unable to derive domain name, pass --grpc-domain" (deriveHostFromUri uri)

def buildTlsConfig (uri : Text) (tls : GrpcTlsFiles) : Except Text ClientTlsConfig := do
  let caPath ← okOr "tls requires --grpc-ca <path>" tls.caPem
  let caPem ← readPem read table "ca pem" caPath
  let domain ← tlsDomain uri tls
  let cfg : ClientTlsConfig := { caCertificate := some caPem, domainName := some domain }
  if tls.mode = .mtls then do
    let certPath ← okOr "mtls requires --grpc-cert <path>" tls.clientCertPem
    let keyPath ← okOr "mtls requires --grpc-key <path>" tls.clientKeyPem
    let cert ← readPem read table "client cert" certPath
    let key ← readPem read table "client key" keyPath
    return { cfg with identity := some (cert, key) }
  else return cfg

variable {χ : Type} (tonic : Tonic χ)

/-- All that is done before the connection is opened. -/
def prepareEndpoint (spec : WatchSpec) (tls : GrpcTlsFiles) : Except Text Endpoint := do
  let uri := normalizeEndpointUri spec.endpoint tls.mode
  (tonic.fromShared uri).mapError fun e => "bad endpoint uri ".toList ++ uri ++ ": ".toList ++ e
  let ep : Endpoint := { uri, connectTimeoutS := 5, timeoutS := 15 }
  match tls.mode with
  | .off => return ep
  | .tls | .mtls => do
    let cfg ← buildTlsConfig read table uri tls
    (tonic.tlsConfig cfg).mapError fun e => "tls_config: ".toList ++ e
    return { ep with tlsConfig := some cfg }

def connectChannel (spec : WatchSpec) (tls : GrpcTlsFiles) : Except Text χ := do
  let ep ← prepareEndpoint read table tonic spec tls
  (tonic.connect ep).mapError fun e => "connect: ".toList ++ e

end

inductive ServingStatus where
  | serving
  | notServing
  | serviceUnknown
  | unknown
  deriving DecidableEq, Repr

def ServingStatus.debug : ServingStatus → Text
  | .serving => "Serving".toList
  | .notServing => "NotServing".toList
  | .serviceUnknown => "ServiceUnknown".toList
  | .unknown => "Unknown".toList

def statusLevel : ServingStatus → Level × Text
  | .serving => (.ok, "SERVING".toList)
  | .notServing => (.fail, "NOT_SERVING".toList)
  | .serviceUnknown => (.warn, "SERVICE_UNKNOWN".toList)
  | .unknown => (.unknown, "UNKNOWN".toList)

def statusFrame (spec : WatchSpec) (cfg : GrpcWatchConfig) (now : OffsetDateTime) (st : ServingStatus) : HawkFrame :=
  let kv : KvBag := ∅
  let kv := kv.insert "endpoint".toList spec.endpoint
  let kv := kv.insert "service".toList spec.service
  let kv := kv.insert "grpc_status".toList st.debug
  let kv := kv.insert "ttl_stale_s".toList (i64ToText cfg.ttlStaleS)
  let kv := kv.insert "ttl_dead_s".toList (i64ToText cfg.ttlDeadS)
  { ts := some now
    kind := "HEALTH".toList
    scope := "grpc".toList
    id := spec.id
    level := (statusLevel st).1
    msg := (statusLevel st).2
    kv }

/-- The message sent; the clock is read again when the line is written. -/
def emitStatusFrame (rfc : Rfc3339) (spec : WatchSpec) (cfg : GrpcWatchConfig) (now later : OffsetDateTime)
    (st : ServingStatus) : Bytes :=
  lineBytes rfc (statusFrame spec cfg now st) later

inductive WatchFailure where
  | connect
  | watch
  | stream
  deriving DecidableEq, Repr

def WatchFailure.msg : WatchFailure → Text
  | .connect => "connect failed".toList
  | .watch => "watch failed".toList
  | .stream => "stream error".toList

def errorFrame (spec : WatchSpec) (cfg : GrpcWatchConfig) (now : OffsetDateTime) (msg err : Text) : HawkFrame :=
  let kv : KvBag := ∅
  let kv := kv.insert "endpoint".toList spec.endpoint
  let kv := kv.insert "service".toList spec.service
  let kv := kv.insert "error".toList err
  let kv := kv.insert "ttl_stale_s".toList (i64ToText cfg.ttlStaleS)
  let kv := kv.insert "ttl_dead_s".toList (i64ToText cfg.ttlDeadS)
  { ts := some now
    kind := "HEALTH".toList
    scope := "grpc".toList
    id := spec.id
    level := .fail
    msg
    kv }

def emitErrorFrame (rfc : Rfc3339) (spec : WatchSpec) (cfg : GrpcWatchConfig) (now later : OffsetDateTime)
    (msg err : Text) : Bytes :=
  lineBytes rfc (errorFrame spec cfg now msg err) later

/-- The number on the wire; one that is not known counts as unknown. -/
def ServingStatus.ofWire : Int → ServingStatus
  | 1 => .serving
  | 2 => .notServing
  | 3 => .serviceUnknown
  | _ => .unknown

inductive Event where
  | status (st : ServingStatus)
  | failure (stage : WatchFailure) (err : Text)
  deriving DecidableEq

def emit (rfc : Rfc3339) (spec : WatchSpec) (cfg : GrpcWatchConfig) (now later : OffsetDateTime) : Event → Bytes
  | .status st => emitStatusFrame rfc spec cfg now later st
  | .failure stage err => emitErrorFrame rfc spec cfg now later stage.msg err

/-- How one turn of the loop can go. The items of a stream are all it ever yields. -/
inductive Attempt where
  | connectFailed (err : Text)
  | watchFailed (status : Text)
  | streamed (items : List (Except Text Int))

def readStream : List (Except Text Int) → List Event
  | [] => []
  | .ok status :: rest => .status (.ofWire status) :: readStream rest
  | .error e :: _ => [.failure .stream e]

structure Turn where
  events : List Event
  sleepMs : Nat
  deriving DecidableEq

def initialBackoffMs : Nat := 250

def maxBackoffMs : Nat := 15000

def watchTurn (backoffMs : Nat) : Attempt → Turn × Nat
  | .connectFailed err => ⟨⟨[.failure .connect err], backoffMs⟩, min (backoffMs * 2) maxBackoffMs⟩
  -- the connection stands, and the backoff is reset before the call
  | .watchFailed status => ⟨⟨[.failure .watch status], initialBackoffMs⟩, min (initialBackoffMs * 2) maxBackoffMs⟩
  | .streamed items => ⟨⟨readStream items, initialBackoffMs⟩, min (initialBackoffMs * 2) maxBackoffMs⟩

def watchFrom (backoffMs : Nat) : List Attempt → List Turn
  | [] => []
  | attempt :: rest => (watchTurn backoffMs attempt).1 :: watchFrom (watchTurn backoffMs attempt).2 rest

/-- The first turns of the loop, as far as their outcomes are known. -/
def watchOne (attempts : List Attempt) : List Turn := watchFrom initialBackoffMs attempts

end HawkTui.GrpcHealth
