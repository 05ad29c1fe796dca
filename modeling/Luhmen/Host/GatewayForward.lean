/-
# Host.GatewayForward -- what the gateway sends upstream and passes back

A request reaches an upstream only under the name its TLS connection was opened
for, and with the forwarding headers of the gateway: whatever a client sends as
`X-Forwarded-*`, or names in `Connection`, is replaced, as the headers are put
in after everything has been removed.  A response that is passed back is the
upstream's without its hop-by-hop headers.
-/
import Luhmen.Theory.Words
import Luhmen.Host.Gateway

set_option autoImplicit false

namespace Luhmen.Host.Gateway

open Luhmen.Theory Luhmen.Theory.Http

/-! ## Hop-by-hop headers -/

/-- A `Connection` value of visible ASCII names the header. -/
def Named (headers : HeaderMap) (name : HeaderName) : Prop :=
  ∃ value ∈ headers.getAll CONNECTION,
    (∀ b ∈ value, 0x20 ≤ b ∧ b < 0x7f ∨ b = 0x09) ∧
      ∃ item ∈ value.splitOn comma, HeaderName.fromBytes (trim item) = some name

theorem toStr_eq_some {value text : Bytes} :
    toStr value = some text ↔ (∀ b ∈ value, 0x20 ≤ b ∧ b < 0x7f ∨ b = 0x09) ∧ value = text := by
  unfold toStr
  rw [Option.ite_none_right_eq_some, Option.some_inj]
  simp [List.all_eq_true]

theorem mem_connectionNames {headers : HeaderMap} {name : HeaderName} :
    name ∈ connectionNames headers ↔ Named headers name := by
  simp only [connectionNames, Named, List.mem_filterMap, List.mem_flatMap, toStr_eq_some]
  constructor
  · rintro ⟨item, ⟨text, ⟨value, member, visible, rfl⟩, split⟩, parsed⟩
    exact ⟨value, member, visible, item, split, parsed⟩
  · rintro ⟨value, member, visible, item, split, parsed⟩
    exact ⟨item, ⟨value, ⟨value, member, visible, rfl⟩, split⟩, parsed⟩

theorem getAll_stripHopHeaders_hop (headers : HeaderMap) {name : HeaderName}
    (hop : name ∈ hopHeaders) : (stripHopHeaders headers).getAll name = [] :=
  HeaderMap.getAll_removeAll_of_mem hop

theorem getAll_stripHopHeaders_named {headers : HeaderMap} {name : HeaderName}
    (named : Named headers name) : (stripHopHeaders headers).getAll name = [] :=
  HeaderMap.getAll_removeAll_nil (HeaderMap.getAll_removeAll_of_mem (mem_connectionNames.2 named))

theorem getAll_stripHopHeaders_other {headers : HeaderMap} {name : HeaderName}
    (notHop : name ∉ hopHeaders) (notNamed : ¬ Named headers name) :
    (stripHopHeaders headers).getAll name = headers.getAll name := by
  rw [stripHopHeaders, HeaderMap.getAll_removeAll_of_notMem notHop]
  exact HeaderMap.getAll_removeAll_of_notMem (mt mem_connectionNames.1 notNamed)

/-! ## The forwarded headers -/

/-- The headers the gateway puts in itself. -/
def ownHeaders : List HeaderName :=
  [HOST, X_FORWARDED_HOST, X_FORWARDED_PROTO, X_FORWARDED_FOR, X_FORWARDED_PORT]

section Forwarded

variable (headers : HeaderMap) (host : Bytes) (listen_port : UInt16)

theorem forwardedHeaders_own :
    (forwardedHeaders headers host listen_port).getAll HOST = [host] ∧
    (forwardedHeaders headers host listen_port).getAll X_FORWARDED_HOST = [host] ∧
    (forwardedHeaders headers host listen_port).getAll X_FORWARDED_PROTO = [ascii "https"] ∧
    (forwardedHeaders headers host listen_port).getAll X_FORWARDED_FOR = [ascii "127.0.0.1"] ∧
    (forwardedHeaders headers host listen_port).getAll X_FORWARDED_PORT =
      [decimal listen_port.toNat] := by
  unfold forwardedHeaders
  refine ⟨?_, ?_, ?_, ?_, ?_⟩
  · iterate 4 rw [HeaderMap.getAll_insert_of_ne (by decide)]
    exact HeaderMap.getAll_insert_self
  · iterate 3 rw [HeaderMap.getAll_insert_of_ne (by decide)]
    exact HeaderMap.getAll_insert_self
  · iterate 2 rw [HeaderMap.getAll_insert_of_ne (by decide)]
    exact HeaderMap.getAll_insert_self
  · rw [HeaderMap.getAll_insert_of_ne (by decide)]
    exact HeaderMap.getAll_insert_self
  · exact HeaderMap.getAll_insert_self

/-- Behind the gateway's own headers stands what is left of the client's. -/
theorem forwardedHeaders_rest {name : HeaderName} (notOwn : name ∉ ownHeaders) :
    (forwardedHeaders headers host listen_port).getAll name =
      (((stripHopHeaders headers).remove CONTENT_LENGTH).remove FORWARDED).getAll name := by
  simp only [ownHeaders, List.mem_cons, List.not_mem_nil, or_false, not_or] at notOwn
  obtain ⟨notHost, notForwardedHost, notProto, notFor, notPort⟩ := notOwn
  unfold forwardedHeaders
  rw [HeaderMap.getAll_insert_of_ne notPort, HeaderMap.getAll_insert_of_ne notFor,
    HeaderMap.getAll_insert_of_ne notProto, HeaderMap.getAll_insert_of_ne notForwardedHost,
    HeaderMap.getAll_insert_of_ne notHost]

theorem forwardedHeaders_removed {name : HeaderName} (notOwn : name ∉ ownHeaders)
    (removed : name = FORWARDED ∨ name = CONTENT_LENGTH ∨ name ∈ hopHeaders ∨ Named headers name) :
    (forwardedHeaders headers host listen_port).getAll name = [] := by
  rw [forwardedHeaders_rest headers host listen_port notOwn]
  obtain rfl | rfl | hop | named := removed
  · exact HeaderMap.getAll_remove_self
  · exact HeaderMap.getAll_remove_nil HeaderMap.getAll_remove_self
  · exact HeaderMap.getAll_remove_nil
      (HeaderMap.getAll_remove_nil (getAll_stripHopHeaders_hop headers hop))
  · exact HeaderMap.getAll_remove_nil
      (HeaderMap.getAll_remove_nil (getAll_stripHopHeaders_named named))

theorem forwardedHeaders_kept {name : HeaderName} (notOwn : name ∉ ownHeaders)
    (notForwarded : name ≠ FORWARDED) (notLength : name ≠ CONTENT_LENGTH)
    (notHop : name ∉ hopHeaders) (notNamed : ¬ Named headers name) :
    (forwardedHeaders headers host listen_port).getAll name = headers.getAll name := by
  rw [forwardedHeaders_rest headers host listen_port notOwn,
    HeaderMap.getAll_remove_of_ne notForwarded, HeaderMap.getAll_remove_of_ne notLength]
  exact getAll_stripHopHeaders_other notHop notNamed

end Forwarded

/-! ## The destination -/

/-- An address and port hold nothing that would end an authority or begin its
host anew. -/
theorem authority_clean (n : Nat) :
    ∀ b ∈ ascii "127.0.0.1:" ++ decimal n, b ≠ 0x2f ∧ b ≠ 0x3f ∧ b ≠ 0x23 ∧ b ≠ 0x40 := by
  intro b member
  obtain address | port := List.mem_append.1 member
  · exact forall_mem_of_all (p := fun b => b ≠ 0x2f ∧ b ≠ 0x3f ∧ b ≠ 0x23 ∧ b ≠ 0x40)
      (by decide) b address
  · obtain ⟨low, high⟩ := decimal_digit b port
    refine ⟨?_, ?_, ?_, ?_⟩ <;> rintro rfl
    · exact absurd low (by decide)
    · exact absurd high (by decide)
    · exact absurd low (by decide)
    · exact absurd high (by decide)

/-- A routed name is a valid one, and its port is no port of the gateway's. -/
theorem routes_valid {listen_port : UInt16} {routes : List (Bytes × UInt16)}
    (valid : validateRoutes listen_port routes = .ok ()) {host : Bytes} {port : UInt16}
    (route : routes.lookup host = some port) : 0 < port ∧ port ≠ listen_port := by
  induction routes with
  | nil => cases route
  | cons first rest ih =>
    obtain ⟨name, target⟩ := first
    unfold validateRoutes at valid
    split at valid
    · cases valid
    · split at valid
      · cases valid
      · rename_i usable
        rw [List.lookup_cons] at route
        split at route
        · cases route
          exact not_not.1 usable
        · exact ih valid route

theorem Config.route_valid {config : Config} (valid : config.validate = .ok ()) {host : Bytes}
    {port : UInt16} (route : config.routes.lookup host = some port) :
    0 < port ∧ port ≠ config.listen_port := by
  unfold Config.validate at valid
  split at valid
  · cases valid
  · split at valid
    · cases valid
    · exact routes_valid valid route

section Prepare

variable {parse : Parsers} {config : Config} {sni : Bytes} {request : Request}
  {reserve : Nat → Bool}

/-- The host that is routed is that of the one `Host` header. -/
theorem requestHost_eq_some {headers : HeaderMap} {listen_port : UInt16} {host : Bytes} :
    requestHost parse headers listen_port = some host ↔
      ∃ value authority, headers.getAll HOST = [value] ∧ toStr value = some value ∧
        0x40 ∉ value ∧ parse.authority value = some authority ∧
        (authority.port = none ∨ authority.port = some listen_port) ∧
        host = lowercase authority.host ∧ validHostname host = true := by
  constructor
  · intro read
    unfold requestHost at read
    split at read
    · cases read
    rename_i single
    obtain ⟨value, only⟩ := List.length_eq_one_iff.1 (not_not.1 single)
    split at read
    · cases read
    rename_i text there
    rw [HeaderMap.get, only, List.head?_cons, Option.bind_some] at there
    obtain rfl := (toStr_eq_some.1 there).2
    split at read
    · cases read
    rename_i noUser
    split at read
    · cases read
    rename_i authority parsed
    split at read
    · cases read
    rename_i port
    dsimp only at read
    split at read
    · rename_i valid
      cases read
      refine ⟨value, authority, only, there, noUser, parsed, ?_, rfl, valid⟩
      by_contra other
      exact port (not_or.1 other)
    · cases read
  · rintro ⟨value, authority, only, visible, noUser, parsed, port, rfl, valid⟩
    have single : (headers.getAll HOST).length = 1 := by rw [only]; rfl
    have there : (headers.get HOST).bind toStr = some value := by
      rw [HeaderMap.get, only, List.head?_cons, Option.bind_some, visible]
    have noOther : ¬ (authority.port ≠ none ∧ authority.port ≠ some listen_port) :=
      fun other => port.elim other.1 other.2
    unfold requestHost
    rw [if_neg (not_not.2 single), there]
    dsimp only
    rw [if_neg noUser, parsed]
    dsimp only
    rw [if_neg noOther, if_pos valid]

/-- The letters of a name. -/
def HostByte (b : UInt8) : Prop :=
  (0x61 ≤ b ∧ b ≤ 0x7a) ∨ (0x30 ≤ b ∧ b ≤ 0x39) ∨ b = hyphen ∨ b = dot

theorem hostByte_of_valid {host : Bytes} (valid : validHostname host = true) :
    ∀ b ∈ host, HostByte b := by
  intro b member
  simp only [validHostname, Bool.and_eq_true] at valid
  rw [List.splitOn_eq_splitOnP] at valid
  rcases @sep_or_mem_splitOnP _ (· == dot) b host member with isDot | ⟨label, isLabel, inside⟩
  · exact .inr (.inr (.inr (beq_iff_eq.1 isDot)))
  · have all := List.all_eq_true.1 valid.2 label isLabel
    simp only [validLabel, Bool.and_eq_true, List.all_eq_true, Bool.or_eq_true,
      decide_eq_true_eq] at all
    rcases all.2 b inside with (letter | digit) | other
    · exact .inl letter
    · exact .inr (.inl digit)
    · exact .inr (.inr (.inl other))

/-- An address in brackets is no name. -/
theorem not_bracket {host : Bytes} (valid : validHostname (lowercase host) = true) :
    host.head? ≠ some openBracket := by
  intro bracket
  obtain ⟨rest, rfl⟩ : ∃ rest, host = openBracket :: rest := by
    cases host with
    | nil => cases bracket
    | cons b rest => cases bracket; exact ⟨rest, rfl⟩
  have letter := hostByte_of_valid valid (lower openBracket) List.mem_cons_self
  exact absurd letter (by unfold HostByte; decide)

/-- The target that is appended begins with a slash. -/
theorem target_slash {uri : Uri} (origin : uri.path.head? = some 0x2f) :
    (match uri.pathAndQuery with
      | none => [0x2f]
      | some target => target.asStr).head? = some 0x2f := by
  cases path : uri.pathAndQuery with
  | none => rfl
  | some target =>
    rw [Uri.path, path] at origin
    dsimp only at origin ⊢
    unfold PathAndQuery.asStr
    split
    · exact origin
    · rw [List.head?_append, origin]
      rfl

/-- What has to hold for a request to be sent, and what is sent then. -/
theorem prepare_sent {sent : UpstreamRequest}
    (prepared : prepare parse reserve config sni request = .sent sent) :
    ∃ value authority port target,
      request.headers.getAll HOST = [value] ∧ 0x40 ∉ value ∧
      parse.authority value = some authority ∧ lowercase authority.host = sni ∧
      validHostname sni = true ∧ config.routes.lookup sni = some port ∧ target.head? = some 0x2f ∧
      parse.uri (ascii "http://" ++ (ascii "127.0.0.1:" ++ decimal port.toNat) ++ target) =
        some sent.uri ∧
      sent.headers = forwardedHeaders request.headers value config.listen_port := by
  unfold prepare at prepared
  split at prepared
  · cases prepared
  · split at prepared
    · cases prepared
    · rename_i origin
      simp only [not_or, not_not] at origin
      split at prepared
      · cases prepared
      · rename_i host read
        obtain ⟨value, authority, only, -, noUser, parsed, -, rfl, valid⟩ :=
          requestHost_eq_some.1 read
        split at prepared
        · cases prepared
        · rename_i port route
          obtain ⟨route, same⟩ := Option.filter_eq_some_iff.1 route
          have same : lowercase authority.host = sni := of_decide_eq_true same
          split at prepared
          · cases prepared
          · split at prepared
            · cases prepared
            · rename_i header there
              have header_eq : header = value := by
                rw [HeaderMap.get, only, List.head?_cons] at there
                exact (Option.some.inj there).symm
              subst header_eq
              dsimp only at prepared
              split at prepared
              · cases prepared
              · rename_i uri formed
                cases prepared
                rw [same] at route valid
                exact ⟨header, authority, port, _, only, noUser, parsed, same, valid, route,
                  target_slash origin.2.2, formed, rfl⟩

variable {upstream : UpstreamRequest → Except Bytes UpstreamResponse}

/-- What is sent is what was prepared. -/
theorem forward_sent {sent : UpstreamRequest}
    (forwarded : (forward parse reserve config sni upstream request).1 = some sent) :
    prepare parse reserve config sni request = .sent sent := by
  unfold forward at forwarded
  split at forwarded
  · cases forwarded
  · cases forwarded
  · rename_i prepared
    split at forwarded
    · cases forwarded
      exact prepared
    · cases forwarded
      exact prepared

/-- What refuses a request is an answer of the gateway's own. -/
theorem prepare_refused {answer : HttpResponse}
    (prepared : prepare parse reserve config sni request = .refused answer) :
    ∃ status message, answer = response status message := by
  unfold prepare at prepared
  split at prepared
  · cases prepared
    exact ⟨_, _, rfl⟩
  · split at prepared
    · cases prepared
      exact ⟨_, _, rfl⟩
    · split at prepared
      · cases prepared
        exact ⟨_, _, rfl⟩
      · split at prepared
        · cases prepared
          exact ⟨_, _, rfl⟩
        · split at prepared
          · cases prepared
            exact ⟨_, _, rfl⟩
          · split at prepared
            · cases prepared
            · dsimp only at prepared
              split at prepared
              · cases prepared
              · cases prepared

theorem exchange_ok {reply : Except Bytes UpstreamResponse} {is_head : Bool}
    {answer : HttpResponse} (exchanged : exchange reply is_head = .ok answer) :
    ∃ passed, reply = .ok passed ∧ answer.status = passed.status ∧
      answer.headers = stripHopHeaders passed.headers ∧ answer.body = .streaming passed.body := by
  unfold exchange at exchanged
  split at exchanged
  · cases exchanged
  · rename_i passed
    split at exchanged
    · cases exchanged
    · split at exchanged
      · cases exchanged
      · cases exchanged
        exact ⟨passed, rfl, rfl, rfl, rfl⟩

/-- A body that streams is the upstream's, and comes with its answer without the
hop-by-hop headers. -/
theorem forward_passed {answer : HttpResponse} {body : List Frame}
    (answered : (forward parse reserve config sni upstream request).2 = some answer)
    (streams : answer.body = .streaming body) :
    ∃ sent passed, (forward parse reserve config sni upstream request).1 = some sent ∧
      upstream sent = .ok passed ∧ passed.body = body ∧ answer.status = passed.status ∧
      answer.headers = stripHopHeaders passed.headers := by
  unfold forward at answered ⊢
  split at answered
  · rename_i own prepared
    obtain ⟨status, message, rfl⟩ := prepare_refused prepared
    cases answered
    cases streams
  · cases answered
  · rename_i sent prepared
    split at answered
    · rename_i exchanged
      cases answered
      obtain ⟨passed, replied, status, headers, same⟩ := exchange_ok exchanged
      rw [same] at streams
      cases streams
      exact ⟨sent, passed, rfl, replied, rfl, status, headers⟩
    · cases answered
      cases streams

end Prepare

/-! ## Every request and every answer -/

/-- A request reaches the upstream that is routed for the name of its TLS
connection, which is the name in its one `Host` header, with the gateway's own
forwarding headers and none of those it removes.  An upstream's answer passes
without its hop-by-hop headers. -/
theorem forward_matching {parse : Parsers} (documented : parse.Documented) {config : Config}
    (valid : config.validate = .ok ()) (reserve : Nat → Bool) (sni : Bytes)
    (upstream : UpstreamRequest → Except Bytes UpstreamResponse) (request : Request) :
    (∀ sent, (forward parse reserve config sni upstream request).1 = some sent →
      (∃ port, config.routes.lookup sni = some port ∧ 0 < port ∧ port ≠ config.listen_port ∧
        sent.uri.scheme = some (ascii "http") ∧
        sent.uri.authority = some (ascii "127.0.0.1:" ++ decimal port.toNat)) ∧
      ∃ value, request.headers.getAll HOST = [value] ∧
        (∃ authority rest, parse.authority value = some authority ∧
          value = authority.host ++ rest ∧ (rest = [] ∨ rest.head? = some colon) ∧
          lowercase authority.host = sni) ∧
        sent.headers.getAll HOST = [value] ∧
        sent.headers.getAll X_FORWARDED_HOST = [value] ∧
        sent.headers.getAll X_FORWARDED_PROTO = [ascii "https"] ∧
        sent.headers.getAll X_FORWARDED_FOR = [ascii "127.0.0.1"] ∧
        sent.headers.getAll X_FORWARDED_PORT = [decimal config.listen_port.toNat] ∧
        ∀ name ∉ ownHeaders,
          (name = FORWARDED ∨ name = CONTENT_LENGTH ∨ name ∈ hopHeaders ∨
            Named request.headers name → sent.headers.getAll name = []) ∧
          (name ≠ FORWARDED → name ≠ CONTENT_LENGTH → name ∉ hopHeaders →
            ¬ Named request.headers name →
              sent.headers.getAll name = request.headers.getAll name)) ∧
    (∀ answer body, (forward parse reserve config sni upstream request).2 = some answer →
      answer.body = .streaming body →
      ∃ sent passed, (forward parse reserve config sni upstream request).1 = some sent ∧
        upstream sent = .ok passed ∧ passed.body = body ∧ answer.status = passed.status ∧
        ∀ name,
          (name ∈ hopHeaders ∨ Named passed.headers name → answer.headers.getAll name = []) ∧
          (name ∉ hopHeaders → ¬ Named passed.headers name →
            answer.headers.getAll name = passed.headers.getAll name)) := by
  constructor
  · intro sent forwarded
    obtain ⟨value, authority, port, target, only, noUser, parsed, same, name, route, slash, formed,
      headers⟩ := prepare_sent (forward_sent forwarded)
    obtain ⟨rest, whole, ends⟩ := (documented.host parsed noUser).resolve_left
      (not_bracket (same ▸ name))
    obtain ⟨scheme, destination⟩ := documented.uri (authority_clean port.toNat) slash formed
    obtain ⟨usable, foreign⟩ := config.route_valid valid route
    obtain ⟨host, forwardedHost, proto, client, port'⟩ :=
      forwardedHeaders_own request.headers value config.listen_port
    refine ⟨⟨port, route, usable, foreign, scheme, destination⟩, value, only,
      ⟨authority, rest, parsed, whole, ends, same⟩, ?_⟩
    rw [headers]
    refine ⟨host, forwardedHost, proto, client, port', fun name notOwn => ⟨?_, ?_⟩⟩
    · exact forwardedHeaders_removed request.headers value config.listen_port notOwn
    · exact forwardedHeaders_kept request.headers value config.listen_port notOwn
  · intro answer body answered streams
    obtain ⟨sent, passed, forwarded, replied, same, status, headers⟩ :=
      forward_passed answered streams
    refine ⟨sent, passed, forwarded, replied, same, status, fun name => ?_⟩
    rw [headers]
    constructor
    · rintro (hop | named)
      · exact getAll_stripHopHeaders_hop _ hop
      · exact getAll_stripHopHeaders_named named
    · intro notHop notNamed
      exact getAll_stripHopHeaders_other notHop notNamed

/-- A target split at its first `?`, as the `http` crate does. -/
def PathAndQuery.fromTarget (target : Bytes) : PathAndQuery where
  path := target.takeWhile (· ≠ 0x3f)
  query := (target.dropWhile (· ≠ 0x3f)).tail?

/-- Parsers of plain names and of URIs of a scheme and an authority. -/
def plainParsers : Parsers where
  authority text :=
    some ⟨text.takeWhile (· ≠ colon), if text.dropWhile (· ≠ colon) = [] then none else some 8443⟩
  uri text :=
    if (ascii "http://").isPrefixOf text then
      let rest := text.drop 7
      some ⟨some (ascii "http"), some (rest.takeWhile (· ≠ 0x2f)),
        some (.fromTarget (rest.dropWhile (· ≠ 0x2f)))⟩
    else none

theorem plainParsers_documented : plainParsers.Documented where
  host := by
    intro text authority parsed _
    cases parsed
    right
    refine ⟨text.dropWhile (· ≠ colon), (List.takeWhile_append_dropWhile ..).symm, ?_⟩
    cases rest : text.dropWhile (· ≠ colon) with
    | nil => exact .inl rfl
    | cons b port =>
      right
      have stops := List.head?_dropWhile_not (· ≠ colon) text
      rw [rest, List.head?_cons] at stops
      simpa using stops
  uri := by
    intro authority target uri clean slash parsed
    obtain ⟨path, rfl⟩ : ∃ path, target = 0x2f :: path := by
      cases target with
      | nil => cases slash
      | cons b path => cases slash; exact ⟨path, rfl⟩
    have dropped : (ascii "http://" ++ authority ++ 0x2f :: path).drop 7 = authority ++ 0x2f :: path := by
      rw [List.append_assoc]
      exact List.drop_left' rfl
    have host : (authority ++ 0x2f :: path).takeWhile (· ≠ 0x2f) = authority := by
      rw [List.takeWhile_append_of_pos (by simpa using fun b member => (clean b member).1)]
      simp
    unfold plainParsers at parsed
    dsimp only at parsed
    rw [dropped, host] at parsed
    split at parsed
    · cases parsed
      exact ⟨rfl, rfl⟩
    · cases parsed

/-- A client that names `Host` and a forwarding header in `Connection`. -/
def spoofed : Request where
  method := ascii "GET"
  uri := ⟨none, none, some ⟨ascii "/echo", some (ascii "x=1")⟩⟩
  headers := ⟨[(HOST, ascii "App.localhost:8443"),
    (CONNECTION, ascii "close, host, X-Forwarded-Proto"),
    (X_FORWARDED_PROTO, ascii "http")]⟩
  body := [.data (ascii "one")]

def sample : Config := ⟨8443, [(ascii "app.localhost", 3000)], by decide⟩

theorem forward_matching_spoofed :
    ∃ sent, (forward plainParsers (fun _ => true) sample (ascii "app.localhost")
        (fun _ => .error []) spoofed).1 = some sent ∧
      sent.uri.authority = some (ascii "127.0.0.1:3000") ∧
      sent.uri.pathAndQuery = some ⟨ascii "/echo", some (ascii "x=1")⟩ ∧
      sent.headers.getAll X_FORWARDED_PROTO = [ascii "https"] := by
  have valid : sample.validate = .ok () := by decide +kernel
  obtain ⟨sent, forwarded⟩ : ∃ sent, (forward plainParsers (fun _ => true) sample
      (ascii "app.localhost") (fun _ => .error []) spoofed).1 = some sent :=
    Option.isSome_iff_exists.1 (by decide +kernel)
  obtain ⟨⟨port, route, -, -, -, destination⟩, value, -, -, -, -, proto, -⟩ :=
    (forward_matching plainParsers_documented valid (fun _ => true) (ascii "app.localhost")
      (fun _ => .error []) spoofed).1 sent forwarded
  have routed : sample.routes.lookup (ascii "app.localhost") = some 3000 := by decide +kernel
  obtain rfl : port = 3000 := Option.some.inj (route.symm.trans routed)
  have target : ((forward plainParsers (fun _ => true) sample (ascii "app.localhost")
      (fun _ => .error []) spoofed).1.bind (·.uri.pathAndQuery)) =
        some ⟨ascii "/echo", some (ascii "x=1")⟩ := by decide +kernel
  rw [forwarded] at target
  exact ⟨sent, forwarded, destination, target, proto⟩

end Luhmen.Host.Gateway
