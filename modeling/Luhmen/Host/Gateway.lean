/-
# Host.Gateway -- forwarding one request of the HTTPS gateway

`forward` as the source has it: what it refuses, the request it sends to the
upstream, and what it makes of the upstream's answer.  Header maps are those of
`Theory.HeaderMap`.  Parsing an authority and a URI is left to `Parsers`, of
which `Parsers.Documented` says what the gateway relies on.
-/
import Mathlib
import Luhmen.Theory.Decimal
import Luhmen.Theory.HeaderMap

set_option autoImplicit false

namespace Luhmen.Host.Gateway

open Luhmen.Theory Luhmen.Theory.Http

def MAX_BODY_BYTES : Nat := 8 * 1024 * 1024

def dot : UInt8 := 0x2e
def hyphen : UInt8 := 0x2d

/-! ## Configuration -/

/-- `Config`; a `BTreeMap` has each key once. -/
structure Config where
  listen_port : UInt16
  routes : List (Bytes × UInt16)
  distinct : (routes.map Prod.fst).Nodup

def validLabel (label : Bytes) : Bool :=
  label ≠ [] && label.length ≤ 63 && label.head? ≠ some hyphen && label.getLast? ≠ some hyphen &&
    label.all fun b => (0x61 ≤ b && b ≤ 0x7a) || (0x30 ≤ b && b ≤ 0x39) || b = hyphen

def validHostname (host : Bytes) : Bool :=
  host.length ≤ 253 && (ascii ".localhost").isSuffixOf host && (host.splitOn dot).all validLabel

inductive ConfigError where
  | listenPort
  | routeCount
  | route (host : Bytes)
  | upstreamPort (host : Bytes)
deriving DecidableEq, Repr

/-- The text of an error; `debug` is `{:?}` of a string. -/
def ConfigError.message (debug : Bytes → Bytes) : ConfigError → Bytes
  | .listenPort => ascii "gateway listen_port must be between 1024 and 65535"
  | .routeCount => ascii "configure between 1 and 32 gateway routes"
  | .route host =>
    ascii "invalid route " ++ debug host ++ ascii ": use lowercase names such as app.localhost"
  | .upstreamPort host =>
    ascii "route " ++ host ++ ascii " needs a nonzero upstream port different from listen_port"

def validateRoutes (listen_port : UInt16) : List (Bytes × UInt16) → Except ConfigError Unit
  | [] => .ok ()
  | (host, port) :: rest =>
    if validHostname host = false then .error (.route host)
    else if ¬ (0 < port ∧ port ≠ listen_port) then .error (.upstreamPort host)
    else validateRoutes listen_port rest

def Config.validate (config : Config) : Except ConfigError Unit :=
  if config.listen_port < 1024 then .error .listenPort
  else if config.routes = [] ∨ 32 < config.routes.length then .error .routeCount
  else validateRoutes config.listen_port config.routes

/-! ## Requests and responses -/

/-- A path and, behind a `?`, a query. -/
structure PathAndQuery where
  path : Bytes
  query : Option Bytes
deriving DecidableEq, Repr

def PathAndQuery.asStr (target : PathAndQuery) : Bytes :=
  match target.query with
  | none => target.path
  | some query => target.path ++ 0x3f :: query

structure Uri where
  scheme : Option Bytes
  authority : Option Bytes
  pathAndQuery : Option PathAndQuery
deriving DecidableEq, Repr

def Uri.path (uri : Uri) : Bytes :=
  match uri.pathAndQuery with
  | none => []
  | some target => target.path

structure Authority where
  host : Bytes
  port : Option UInt16
deriving DecidableEq, Repr

/-- What the `http` crate parses. -/
structure Parsers where
  authority : Bytes → Option Authority
  uri : Bytes → Option Uri

/-- What its documentation says of it: the host of an authority without user
information is an address in brackets or what stands before the colon of the port, and
the authority of an absolute URI is what stands between `//` and the path. -/
structure Parsers.Documented (parse : Parsers) : Prop where
  host : ∀ {text authority}, parse.authority text = some authority → 0x40 ∉ text →
    authority.host.head? = some openBracket ∨
      ∃ port, text = authority.host ++ port ∧ (port = [] ∨ port.head? = some colon)
  uri : ∀ {authority target uri},
    (∀ b ∈ authority, b ≠ 0x2f ∧ b ≠ 0x3f ∧ b ≠ 0x23 ∧ b ≠ 0x40) → target.head? = some 0x2f →
    parse.uri (ascii "http://" ++ authority ++ target) = some uri →
      uri.scheme = some (ascii "http") ∧ uri.authority = some authority

/-- A frame of an incoming body. -/
inductive Frame where
  | failed
  | data (chunk : Bytes)
  | trailers
deriving DecidableEq, Repr

structure Request where
  method : Bytes
  uri : Uri
  headers : HeaderMap
  body : List Frame

structure UpstreamRequest where
  method : Bytes
  uri : Uri
  headers : HeaderMap
  body : Bytes

/-- The upstream's answer, with what is known of its body's length. -/
structure UpstreamResponse where
  status : Nat
  headers : HeaderMap
  upper : Option Nat
  body : List Frame

inductive GatewayBody where
  | buffered (bytes : Bytes)
  | streaming (body : List Frame)

structure HttpResponse where
  status : Nat
  headers : HeaderMap
  body : GatewayBody

/-! ## Header names -/

def HOST : HeaderName := ⟨ascii "host", by decide⟩
def CONNECTION : HeaderName := ⟨ascii "connection", by decide⟩
def CONTENT_LENGTH : HeaderName := ⟨ascii "content-length", by decide⟩
def CONTENT_TYPE : HeaderName := ⟨ascii "content-type", by decide⟩
def UPGRADE : HeaderName := ⟨ascii "upgrade", by decide⟩
def FORWARDED : HeaderName := ⟨ascii "forwarded", by decide⟩
def X_FORWARDED_HOST : HeaderName := ⟨ascii "x-forwarded-host", by decide⟩
def X_FORWARDED_PROTO : HeaderName := ⟨ascii "x-forwarded-proto", by decide⟩
def X_FORWARDED_FOR : HeaderName := ⟨ascii "x-forwarded-for", by decide⟩
def X_FORWARDED_PORT : HeaderName := ⟨ascii "x-forwarded-port", by decide⟩

/-- The names `strip_hop_headers` removes from every message. -/
def hopHeaders : List HeaderName :=
  [CONNECTION, ⟨ascii "keep-alive", by decide⟩, ⟨ascii "proxy-authenticate", by decide⟩,
    ⟨ascii "proxy-authorization", by decide⟩, ⟨ascii "proxy-connection", by decide⟩,
    ⟨ascii "te", by decide⟩, ⟨ascii "trailer", by decide⟩, ⟨ascii "transfer-encoding", by decide⟩,
    UPGRADE]

/-! ## Forwarding -/

/-- `HeaderValue::to_str`. -/
def toStr (value : Bytes) : Option Bytes :=
  if value.all fun b => (0x20 ≤ b && b < 0x7f) || b = 0x09 then some value else none

def requestHost (parse : Parsers) (headers : HeaderMap) (listen_port : UInt16) : Option Bytes :=
  if (headers.getAll HOST).length ≠ 1 then none
  else
    match (headers.get HOST).bind toStr with
    | none => none
    | some value =>
      if 0x40 ∈ value then none
      else
        match parse.authority value with
        | none => none
        | some authority =>
          if authority.port ≠ none ∧ authority.port ≠ some listen_port then none
          else
            let host := lowercase authority.host
            if validHostname host then some host else none

/-- `str::trim` of visible ASCII. -/
def trim (text : Bytes) : Bytes :=
  let blank : UInt8 → Bool := fun b => b = 0x20 || b = 0x09
  ((text.dropWhile blank).reverse.dropWhile blank).reverse

/-- The headers that the `Connection` values name. -/
def connectionNames (headers : HeaderMap) : List HeaderName :=
  (((headers.getAll CONNECTION).filterMap toStr).flatMap (·.splitOn comma)).filterMap fun name =>
    HeaderName.fromBytes (trim name)

def stripHopHeaders (headers : HeaderMap) : HeaderMap :=
  (headers.removeAll (connectionNames headers)).removeAll hopHeaders

/-- `collect_body`; `reserve` says whether a buffer of some capacity can be had. -/
def collectBody (reserve : Nat → Bool) : List Frame → (bytes : Bytes) → (capacity : Nat) →
    Option Bytes
  | [], bytes, _ => some bytes
  | .failed :: _, _, _ => none
  | .trailers :: rest, bytes, capacity => collectBody reserve rest bytes capacity
  | .data chunk :: rest, bytes, capacity =>
    if MAX_BODY_BYTES - bytes.length < chunk.length then none
    else
      let required := bytes.length + chunk.length
      if capacity < required then
        let wanted := min (max (max (capacity * 2) 4096) required) MAX_BODY_BYTES
        if reserve wanted then collectBody reserve rest (bytes ++ chunk) wanted else none
      else collectBody reserve rest (bytes ++ chunk) capacity

/-- `response`, what the gateway answers itself. -/
def response (status : Nat) (message : String) : HttpResponse where
  status
  headers := ((⟨[]⟩ : HeaderMap).insert CONTENT_TYPE (ascii "text/plain; charset=utf-8")).insert
    CONNECTION (ascii "close")
  body := .buffered (ascii message)

/-- What comes of a request before the upstream is asked. -/
inductive Prepared where
  | refused (answer : HttpResponse)
  | panicked
  | sent (request : UpstreamRequest)

/-- The headers that are forwarded, `host` being the request's `Host`. -/
def forwardedHeaders (headers : HeaderMap) (host : Bytes) (listen_port : UInt16) : HeaderMap :=
  (((((((stripHopHeaders headers).remove CONTENT_LENGTH).remove FORWARDED).insert HOST host).insert
    X_FORWARDED_HOST host).insert
    X_FORWARDED_PROTO (ascii "https")).insert
    X_FORWARDED_FOR (ascii "127.0.0.1")).insert
    X_FORWARDED_PORT (decimal listen_port.toNat)

/-- `forward`, up to the exchange with the upstream. -/
def prepare (parse : Parsers) (reserve : Nat → Bool) (config : Config) (sni : Bytes)
    (request : Request) : Prepared :=
  if request.method = ascii "CONNECT" ∨ request.headers.containsKey UPGRADE then
    .refused (response 501 "CONNECT and protocol upgrades are not supported\n")
  else if request.uri.scheme.isSome ∨ request.uri.authority.isSome ∨
      request.uri.path.head? ≠ some 0x2f then
    .refused (response 400 "use an origin-form request target\n")
  else
    match requestHost parse request.headers config.listen_port with
    | none => .refused (response 400 "provide one valid Host header with the gateway port\n")
    | some host =>
      match (config.routes.lookup host).filter fun _ => host = sni with
      | none => .refused (response 421 "Host must match the configured TLS server name\n")
      | some port =>
        match collectBody reserve request.body [] 0 with
        | none => .refused (response 413 "request body failed or exceeds 8 MiB\n")
        | some body =>
          match request.headers.get HOST with
          | none => .panicked
          | some host_header =>
            let target := match request.uri.pathAndQuery with
              | none => [0x2f]
              | some target => target.asStr
            match parse.uri (ascii "http://" ++ (ascii "127.0.0.1:" ++ decimal port.toNat) ++ target) with
            | none => .panicked
            | some uri =>
              .sent
                { method := request.method
                  uri
                  headers := forwardedHeaders request.headers host_header config.listen_port
                  body }

/-- `exchange`: what is passed back of the upstream's answer. -/
def exchange (answer : Except Bytes UpstreamResponse) (is_head : Bool) :
    Except Bytes HttpResponse :=
  match answer with
  | .error _ => .error (ascii "read upstream response")
  | .ok answer =>
    if answer.status = 101 then .error (ascii "upstream protocol upgrades are not supported")
    else if is_head = false ∧ answer.status ≠ 304 ∧
        answer.upper.any (MAX_BODY_BYTES < ·) then
      .error (ascii "upstream body exceeds 8 MiB")
    else
      .ok
        { status := answer.status
          headers := stripHopHeaders answer.headers
          body := .streaming answer.body }

/-- `forward`: what is sent upstream, and what is answered (nothing where it
panics). -/
def forward (parse : Parsers) (reserve : Nat → Bool) (config : Config) (sni : Bytes)
    (upstream : UpstreamRequest → Except Bytes UpstreamResponse) (request : Request) :
    Option UpstreamRequest × Option HttpResponse :=
  match prepare parse reserve config sni request with
  | .refused answer => (none, some answer)
  | .panicked => (none, none)
  | .sent sent =>
    match exchange (upstream sent) (request.method = ascii "HEAD") with
    | .ok answer => (some sent, some answer)
    | .error _ =>
      (some sent, some (response 502 "upstream unavailable or response exceeds 8 MiB\n"))

end Luhmen.Host.Gateway
