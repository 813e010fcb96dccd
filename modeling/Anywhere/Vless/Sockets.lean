import Anywhere.Vless.Client

/-!
# Anywhere — the sockets of a VLESS connect

A `VlessClient` keeps what it has built in fields, and before every attempt but the
first it cancels what the fields hold. Nobody else holds the client: a socket that is
in no field when an attempt fails, or in a field when the last one does, stays open.
The sockets that a connect opens are numbered in the order in which they are connected;
one that cannot be connected closes its channel itself and is not among them.
-/

namespace Anywhere.Vless.Sockets

open List

-- ----
-- Fields and runs

/-- The sockets that cancelling an object closes. The tunnel a client was given is
none of its own. -/
abbrev Handle := List Nat

/-- The fields of `VlessClient`, each as what its `cancel` closes. -/
structure Fields where
  connection : Option Handle := none
  realityClient : Option Handle := none
  realityConnection : Option Handle := none
  tlsClient : Option Handle := none
  tlsConnection : Option Handle := none
  webSocketConnection : Option Handle := none
  httpUpgradeConnection : Option Handle := none
  xhttpConnection : Option Handle := none
  grpcConnection : Option Handle := none

def Fields.held (f : Fields) : Handle :=
  f.grpcConnection.getD [] ++ f.xhttpConnection.getD [] ++ f.httpUpgradeConnection.getD [] ++
    f.webSocketConnection.getD [] ++ f.connection.getD [] ++ f.realityConnection.getD [] ++
    f.realityClient.getD [] ++ f.tlsConnection.getD [] ++ f.tlsClient.getD []

/-- The sockets below `opened` have been connected. -/
structure World where
  opened : Nat := 0
  cancelled : List Nat := []
  fields : Fields := {}

def World.cleanupRetryResources (w : World) : World :=
  { w with cancelled := w.cancelled ++ w.fields.held, fields := {} }

/-- A step of the client, which may throw. -/
def Run (α : Type) := World → Except Failure α × World

namespace Run

def throw {α : Type} (e : Failure) : Run α := fun w => (.error e, w)

def check : Option Failure → Run Unit
  | none => fun w => (.ok (), w)
  | some e => throw e

def store (f : Fields → Fields) : Run Unit := fun w => (.ok (), { w with fields := f w.fields })

instance : Monad Run where
  pure a := fun w => (.ok a, w)
  bind m f := fun w =>
    match m w with
    | (.ok a, w) => f a w
    | (.error e, w) => (.error e, w)

end Run

-- ----
-- Opening connections

inductive Security where
  | plain | tls | reality
  deriving DecidableEq

/-- The layer under the VLESS connection; `upload` is how XHTTP connects a second time. -/
inductive Layer where
  | base | webSocket | httpUpgrade | grpc
  | xhttp (upload : Option Security)
  deriving DecidableEq

/-- What happens to one attempt from outside. -/
structure Trial where
  /-- What `NioSocket.connect` throws. -/
  tcp : Option Failure := none
  /-- What the TLS or Reality handshake throws. -/
  handshake : Option Failure := none
  /-- The version the TLS handshake has ended with. -/
  version : TlsVersion := .tls13
  /-- What the upgrade or the setup throws before there is an upload connection. -/
  setup : Option Failure := none
  /-- What connecting a hop of the upload tunnel throws. -/
  hop : Nat → Option Failure := fun _ => none
  uploadTcp : Option Failure := none
  uploadHandshake : Option Failure := none
  /-- What the setup throws behind the upload connection. -/
  uploadSetup : Option Failure := none
  /-- What sending the request throws. -/
  request : Option Failure := none
  /-- What sending the first Vision frames throws. -/
  opening : Option Failure := none

def openSocket (tcp : Option Failure) : Run Handle := fun w =>
  match tcp with
  | none => (.ok [w.opened], { w with opened := w.opened + 1 })
  | some e => (.error e, w)

/-- The loop of `buildUploadTunnel`. The connection through the last hop closes those
under it when it is cancelled; the hops before one that fails are in nobody's hands. -/
def openHops : List (Option Failure) → Run Handle
  | [] => pure []
  | hop :: hops => do
    let previousConnection ← openSocket hop
    let later ← openHops hops
    return previousConnection ++ later

section Attempt

variable (client : VlessClient) (t : Trial)

/-- Without a chain the upload goes through the tunnel that is there. -/
def buildUploadTunnel : Run Handle :=
  openHops ((List.range (client.configuration.chain.getD []).length).map t.hop)

def clientTransport : Run Handle := if client.tunneled then return [] else openSocket t.tcp

/-- The field is set before the socket is connected. -/
def openTransport : Run Handle := do
  if client.tunneled then return []
  Run.store fun f => { f with connection := some [] }
  let socket ← openSocket t.tcp
  Run.store fun f => { f with connection := some socket }
  return socket

/-- `TlsClient.connect` and `RealityClient.connect`. -/
def clientConnect : Run Handle := do
  let connection ← clientTransport client t
  Run.check t.handshake
  return connection

/-- The fields are set when the client has connected. -/
def openTls : Run Handle := do
  let connection ← clientConnect client t
  Run.store fun f => { f with tlsClient := some connection, tlsConnection := some connection }
  return connection

/-- The fields are set when the client has connected. -/
def openReality : Run Handle := do
  let connection ← clientConnect client t
  Run.store fun f =>
    { f with realityClient := some connection, realityConnection := some connection }
  return connection

def openCarrier : Security → Run Handle
  | .plain => openTransport client t
  | .tls => openTls client t
  | .reality => openReality client t

/-- `uploadConnectionFactory`. -/
def openUpload (security : Security) : Run Handle := do
  let transport ← if client.tunneled then buildUploadTunnel client t else openSocket t.uploadTcp
  Run.check (if security = .plain then none else t.uploadHandshake)
  return transport

/-- The layer's connection, kept in its field, and its upgrade or setup. -/
def performSetup (carrier : Handle) : Layer → Run Handle
  | .base => return carrier
  | .webSocket => do
    Run.store fun f => { f with webSocketConnection := some carrier }
    Run.check t.setup
    return carrier
  | .httpUpgrade => do
    Run.store fun f => { f with httpUpgradeConnection := some carrier }
    Run.check t.setup
    return carrier
  | .grpc => do
    Run.store fun f => { f with grpcConnection := some carrier }
    Run.check t.setup
    return carrier
  | .xhttp none => do
    Run.store fun f => { f with xhttpConnection := some carrier }
    Run.check t.setup
    return carrier
  | .xhttp (some security) => do
    Run.store fun f => { f with xhttpConnection := some carrier }
    Run.check t.setup
    let upload ← openUpload client t security
    Run.store fun f => { f with xhttpConnection := some (carrier ++ upload) }
    Run.check t.uploadSetup
    return carrier ++ upload

/-- What `validateOuterTlsForVision` finds under a base connection. -/
def outerTlsVersion : Security → Option TlsVersion
  | .plain => none
  | .tls => some t.version
  | .reality => some .tls13

def validateOuterTls (security : Security) : Option Failure :=
  match outerTlsVersion t security with
  | none => some (.protocolError "Vision requires outer TLS or REALITY transport")
  | some .tls12 => some (.protocolError "Vision requires outer TLS 1.3, found TLS12")
  | some .tls13 => none

variable (command : VlessCommand)

/-- What the request and what follows it throw. Only the base connections know Vision. -/
def requestFailure (security : Security) (layer : Layer) : Option Failure :=
  t.request.or
    (if layer = .base ∧ isVisionFlow client.configuration ∧ command ≠ .udp then
      (validateOuterTls t security).or t.opening
    else none)

def attempt (security : Security) (layer : Layer) : Run Handle := do
  let carrier ← openCarrier client t security
  let connection ← performSetup client t carrier layer
  Run.check (requestFailure client t command security layer)
  return connection

end Attempt

-- ----
-- The client

def attempts (body : Nat → Run Handle) : List Nat → Failure → Run Handle
  | [], lastError => Run.throw lastError
  | i :: later, _ => fun w =>
    match body i (if i > 0 then w.cleanupRetryResources else w) with
    | (.ok connection, w) => (.ok connection, w)
    | (.error e, w) =>
      if e = .certificateValidationFailed then (.error e, w) else attempts body later e w

def order (client : VlessClient) : List Nat :=
  (List.range maxRetryAttempts).takeWhile fun attempt => !(client.tunneled && attempt > 0)

section Connect

variable (client : VlessClient) (command : VlessCommand) (env : Nat → Trial)

def withRetry (security : Security) (layer : Layer) : Run Handle :=
  attempts (fun i => attempt client (env i) command security layer) (order client)
    (.connectionFailed "All retry attempts failed")

/-- Over a tunnel there is one attempt and no loop around it. -/
def connectDirect : Run Handle :=
  if client.tunneled then attempt client (env 0) command .plain .base
  else withRetry client command env .plain .base

def connectWithReality : Run Handle := withRetry client command env .reality .base

/-- Over a tunnel there is one attempt and no loop around it. -/
def connectWithTls : Run Handle :=
  if client.tunneled then attempt client (env 0) command .tls .base
  else withRetry client command env .tls .base

def connectWsWithRetry : Run Handle := withRetry client command env .plain .webSocket

def connectWssWithRetry : Run Handle := withRetry client command env .tls .webSocket

def connectHttpUpgradeWithRetry : Run Handle := withRetry client command env .plain .httpUpgrade

def connectHttpsUpgradeWithRetry : Run Handle := withRetry client command env .tls .httpUpgrade

def connectGrpcPlainWithRetry : Run Handle := withRetry client command env .plain .grpc

def connectGrpcsWithRetry : Run Handle := withRetry client command env .tls .grpc

def connectGrpcRealityWithRetry : Run Handle := withRetry client command env .reality .grpc

/-- The modes of XHTTP over HTTP/1.1 that have an upload connection. -/
def needsUpload (mode : XHttpMode) : Bool := mode == .packetUp || mode == .streamUp

def connectXHttpWithRetry (mode : XHttpMode) : Run Handle :=
  withRetry client command env .plain (.xhttp (if needsUpload mode then some .plain else none))

def connectXHttpsWithRetry (mode : XHttpMode) (useHTTP2 : Bool) : Run Handle :=
  withRetry client command env .tls
    (.xhttp (if !useHTTP2 && needsUpload mode then some .tls else none))

def connectXHttpRealityWithRetry : Run Handle :=
  withRetry client command env .reality (.xhttp none)

def connectWithWebSocket : Run Handle :=
  match client.configuration.websocket, client.configuration.tls with
  | none, _ =>
    Run.throw (.connectionFailed "WebSocket transport specified but no WebSocket configuration")
  | some _, some _ => connectWssWithRetry client command env
  | some _, none => connectWsWithRetry client command env

def connectWithHttpUpgrade : Run Handle :=
  match client.configuration.httpUpgrade, client.configuration.tls with
  | none, _ =>
    Run.throw (.connectionFailed "HTTP upgrade transport specified but no configuration")
  | some _, some _ => connectHttpsUpgradeWithRetry client command env
  | some _, none => connectHttpUpgradeWithRetry client command env

def connectWithXHttp : Run Handle :=
  match client.configuration.xhttp with
  | none =>
    Run.throw (.connectionFailed "XHTTP transport specified but no XHTTP configuration")
  | some xhttpConfig =>
    let httpVersion := decideXHttpHttpVersion client.configuration
    let mode := resolvedMode client.configuration xhttpConfig
    if httpVersion = .http3 then
      Run.throw (.connectionFailed
        "XHTTP over TLS with ALPN h3 requires QUIC/HTTP/3, which is not implemented")
    else
      match client.configuration.reality, client.configuration.tls with
      | some _, _ => connectXHttpRealityWithRetry client command env
      | none, some _ => connectXHttpsWithRetry client command env mode (httpVersion == .http2)
      | none, none => connectXHttpWithRetry client command env mode

def connectWithGrpc : Run Handle :=
  match client.configuration.grpc, client.configuration.reality, client.configuration.tls with
  | none, _, _ =>
    Run.throw (.connectionFailed "gRPC transport specified but no gRPC configuration")
  | some _, some _, _ => connectGrpcRealityWithRetry client command env
  | some _, none, some _ => connectGrpcsWithRetry client command env
  | some _, none, none => connectGrpcPlainWithRetry client command env

/-- A transport that Vision does not work over. -/
def withoutVision (name : String) (connect : Run Handle) : Run Handle :=
  if isVisionFlow client.configuration then
    Run.throw (.protocolError ("Vision flow is not supported over " ++ name ++ " transport"))
  else connect

def connectWithCommand (destinationPort : Nat) : Run Handle :=
  if command = .udp ∧ destinationPort = 443 ∧ isVisionFlow client.configuration ∧
      !allowUDP443 client.configuration then Run.throw .dropped
  else
    match client.configuration.transport with
    | "ws" => withoutVision client "WebSocket" (connectWithWebSocket client command env)
    | "httpupgrade" =>
      withoutVision client "HTTP upgrade" (connectWithHttpUpgrade client command env)
    | "xhttp" => withoutVision client "XHTTP" (connectWithXHttp client command env)
    | "grpc" => withoutVision client "gRPC" (connectWithGrpc client command env)
    | _ =>
      match client.configuration.tls, client.configuration.reality with
      | some _, _ => connectWithTls client command env
      | none, some _ => connectWithReality client command env
      | none, none => connectDirect client command env

def connect (destinationPort : Nat) : Except Failure Handle × World :=
  connectWithCommand client command env destinationPort {}

end Connect

-- ----
-- Opening sockets

theorem bind_run {α β : Type} (m : Run α) (f : α → Run β) (w : World) :
    (m >>= f) w = match m w with
      | (.ok a, w) => f a w
      | (.error e, w) => (.error e, w) := rfl

/-- How a run ends that throws `failure`, or returns the handle. -/
def ending (failure : Option Failure) (h : Handle) : Except Failure Handle :=
  match failure with
  | none => .ok h
  | some e => .error e

/-- The numbers of the sockets that were opened between two worlds. -/
def fresh (w w' : World) : Handle := List.range' w.opened (w'.opened - w.opened)

/-- A run that touches no field: it returns all the sockets it has opened, or throws and
has lost them. -/
structure Establishes (m : Run Handle) (opens : Prop) (failure : Option Failure) : Prop where
  result : ∀ w, (m w).1 = ending failure (fresh w (m w).2)
  fields : ∀ w, (m w).2.fields = w.fields
  cancelled : ∀ w, (m w).2.cancelled = w.cancelled
  le : ∀ w, w.opened ≤ (m w).2.opened
  opens : ∀ w, w.opened < (m w).2.opened ↔ opens

variable {w w' : World}

namespace Establishes

theorem nothing : Establishes (fun w => (.ok [], w)) False none where
  result w := by simp [ending, fresh]
  fields _ := rfl
  cancelled _ := rfl
  le _ := Nat.le_refl _
  opens w := by simp

theorem socket (tcp : Option Failure) : Establishes (openSocket tcp) (tcp = none) tcp := by
  rcases tcp with _ | e
  · exact ⟨fun w => by simp [openSocket, ending, fresh], fun _ => rfl, fun _ => rfl,
      fun w => by simp [openSocket], fun w => by simp [openSocket]⟩
  · exact ⟨fun w => by simp [openSocket, ending], fun _ => rfl, fun _ => rfl,
      fun w => by simp [openSocket], fun w => by simp [openSocket]⟩

section Rules

variable {m m' : Run Handle} {opens opens' : Prop} {failure failure' : Option Failure}

theorem run_ok (hm : Establishes m opens none) (w : World) :
    m w = (.ok (fresh w (m w).2), (m w).2) := Prod.ext (hm.result w) rfl

theorem run_error {e : Failure} (hm : Establishes m opens (some e)) (w : World) :
    m w = (.error e, (m w).2) := Prod.ext (hm.result w) rfl

theorem check (hm : Establishes m opens failure) (later : Option Failure) :
    Establishes (do let h ← m; Run.check later; return h) opens (failure.or later) := by
  have hrun : ∀ w, (do let h ← m; Run.check later; return h : Run Handle) w =
      (ending (failure.or later) (fresh w (m w).2), (m w).2) := by
    intro w
    rw [bind_run]
    rcases failure with _ | e
    · rw [hm.run_ok w]
      rcases later with _ | e <;> rfl
    · rw [hm.run_error w]
      rfl
  refine ⟨fun w => ?_, fun w => ?_, fun w => ?_, fun w => ?_, fun w => ?_⟩ <;> rw [hrun]
  · exact hm.fields w
  · exact hm.cancelled w
  · exact hm.le w
  · exact hm.opens w

theorem fresh_append {w'' : World} (h : w.opened ≤ w'.opened) (h' : w'.opened ≤ w''.opened) :
    fresh w w' ++ fresh w' w'' = fresh w w'' := by
  have hlast : w.opened + (w'.opened - w.opened) = w'.opened := by omega
  have hlen : w''.opened - w.opened = w'.opened - w.opened + (w''.opened - w'.opened) := by omega
  rw [fresh, fresh, fresh, hlen, ← List.range'_append_1, hlast]

/-- One run after another, with the sockets of both. -/
theorem andThen (hm : Establishes m opens failure) (hm' : Establishes m' opens' failure') :
    Establishes (do let h ← m; let h' ← m'; return h ++ h') (opens ∨ failure = none ∧ opens')
      (failure.or failure') := by
  rcases failure with _ | e
  · have hrun : ∀ w, (do let h ← m; let h' ← m'; return h ++ h' : Run Handle) w =
        (ending failure' (fresh w (m' (m w).2).2), (m' (m w).2).2) := by
      intro w
      rw [bind_run, hm.run_ok w]
      dsimp only
      rw [bind_run]
      rcases failure' with _ | e
      · rw [hm'.run_ok (m w).2]
        rw [← fresh_append (hm.le w) (hm'.le (m w).2)]
        rfl
      · rw [hm'.run_error (m w).2]
        rfl
    refine ⟨fun w => ?_, fun w => ?_, fun w => ?_, fun w => ?_, fun w => ?_⟩ <;> rw [hrun]
    · rfl
    · exact (hm'.fields _).trans (hm.fields w)
    · exact (hm'.cancelled _).trans (hm.cancelled w)
    · exact (hm.le w).trans (hm'.le _)
    · have hle := hm.le w
      have hle' := hm'.le (m w).2
      have hopens := hm.opens w
      have hopens' := hm'.opens (m w).2
      simp only [true_and]
      rw [← hopens, ← hopens']
      omega
  · have hrun : ∀ w, (do let h ← m; let h' ← m'; return h ++ h' : Run Handle) w =
        (.error e, (m w).2) := by
      intro w
      rw [bind_run, hm.run_error w]
    refine ⟨fun w => ?_, fun w => ?_, fun w => ?_, fun w => ?_, fun w => ?_⟩ <;> rw [hrun]
    · rfl
    · exact hm.fields w
    · exact hm.cancelled w
    · exact hm.le w
    · rw [hm.opens w]
      simp

end Rules

theorem hops (outcomes : List (Option Failure)) :
    Establishes (openHops outcomes) (outcomes.head? = some none) (outcomes.findSome? id) := by
  induction outcomes with
  | nil =>
    have hopens : (([] : List (Option Failure)).head? = some none) = False := by simp
    rw [hopens]
    exact nothing
  | cons hop hops ih =>
    have h := (socket hop).andThen ih
    have hopens : (hop = none ∨ hop = none ∧ hops.head? = some none) ↔
        (hop :: hops).head? = some none := by simp +contextual
    have hfailure : hop.or (hops.findSome? id) = (hop :: hops).findSome? id := by
      rcases hop with _ | e <;> simp
    rw [← hfailure, ← hopens]
    exact h

end Establishes

-- ----
-- What an attempt opens and loses

section Trial

variable (client : VlessClient) (t : Trial)

/-- The socket to the server is connected. -/
def opensFirst : Bool := !client.tunneled && t.tcp.isNone

/-- What connecting to the server throws, with the handshake on top. -/
def openFailure (security : Security) : Option Failure :=
  (if client.tunneled then none else t.tcp).or
    (if security = .plain then none else t.handshake)

def uploadHops : List (Option Failure) :=
  (List.range (client.configuration.chain.getD []).length).map t.hop

/-- The upload socket, or the first hop of the upload tunnel, is connected. -/
def opensUpload (layer : Layer) : Bool :=
  match layer with
  | .xhttp (some _) =>
    t.setup.isNone &&
      if client.tunneled then (uploadHops client t).head? = some none else t.uploadTcp.isNone
  | _ => false

/-- What opening the upload connection throws. -/
def uploadFailure (security : Security) : Option Failure :=
  (if client.tunneled then (uploadHops client t).findSome? id else t.uploadTcp).or
    (if security = .plain then none else t.uploadHandshake)

def setUpFailure (layer : Layer) : Option Failure :=
  match layer with
  | .base => none
  | .webSocket | .httpUpgrade | .grpc | .xhttp none => t.setup
  | .xhttp (some security) => t.setup.or ((uploadFailure client t security).or t.uploadSetup)

/-- The upload connection fails behind its first socket. -/
def losesUpload (layer : Layer) : Bool :=
  match layer with
  | .xhttp (some security) => opensUpload client t layer && (uploadFailure client t security).isSome
  | _ => false

variable (command : VlessCommand) (security : Security) (layer : Layer)

/-- The first thing an attempt throws. -/
def failure : Option Failure :=
  (openFailure client t security).or
    ((setUpFailure client t layer).or (requestFailure client t command security layer))

/-- The attempt connects a socket. -/
def opens : Bool :=
  opensFirst client t || (openFailure client t security).isNone && opensUpload client t layer

/-- The attempt fails between connecting a socket and keeping it: in the handshake of a
TLS or Reality client, or while the upload connection is opened. -/
def loses : Bool :=
  opensFirst client t && (openFailure client t security).isSome ||
    (openFailure client t security).isNone && losesUpload client t layer

/-- Every attempt that is followed by another keeps what it has connected, and the last
one, when it fails, has connected nothing. -/
def Releases : List Trial → Bool
  | [] => true
  | t :: later =>
    match failure client t command security layer with
    | none => true
    | some e =>
      if e = .certificateValidationFailed ∨ later = [] then !opens client t security layer
      else !loses client t security layer && Releases later

end Trial

-- ----
-- One attempt

/-- An attempt that began in `w` has come to `w'`: it has cancelled nothing, and the
fields hold sockets of its own, all of them if `kept`. -/
structure Since (w w' : World) (kept : Prop) : Prop where
  cancelled : w'.cancelled = w.cancelled
  le : w.opened ≤ w'.opened
  own : ∀ id ∈ w'.fields.held, w.opened ≤ id ∧ id < w'.opened
  kept : (∀ id, w.opened ≤ id → id < w'.opened → id ∈ w'.fields.held) ↔ kept

theorem mem_fresh {id : Nat} (h : w.opened ≤ w'.opened) :
    id ∈ fresh w w' ↔ w.opened ≤ id ∧ id < w'.opened := by
  rw [fresh, mem_range'_1]
  omega

theorem Since.of_held (hc : w'.cancelled = w.cancelled) (hle : w.opened ≤ w'.opened)
    (hheld : ∀ id, id ∈ w'.fields.held ↔ id ∈ fresh w w') : Since w w' True where
  cancelled := hc
  le := hle
  own id hid := (mem_fresh hle).mp ((hheld id).mp hid)
  kept := iff_of_true (fun id h h' => (hheld id).mpr ((mem_fresh hle).mpr ⟨h, h'⟩)) trivial

theorem Since.of_lost {w'' : World} (h : Since w w' True) (hf : w''.fields = w'.fields)
    (hc : w''.cancelled = w'.cancelled) (hle : w'.opened ≤ w''.opened) :
    Since w w'' (¬ w'.opened < w''.opened) where
  cancelled := hc.trans h.cancelled
  le := h.le.trans hle
  own id hid := by
    have hown := h.own id (hf ▸ hid)
    exact ⟨hown.1, hown.2.trans_le hle⟩
  kept := by
    constructor
    · intro hall hlt
      have hid := hall w'.opened h.le hlt
      rw [hf] at hid
      exact absurd (h.own _ hid).2 (Nat.lt_irrefl _)
    · intro hnot id hid hid'
      rw [hf]
      exact h.kept.mpr trivial id hid (by omega)

section Attempt

variable (client : VlessClient) (t : Trial)

theorem clientTransport_establishes :
    Establishes (clientTransport client t) (opensFirst client t = true)
      (if client.tunneled then none else t.tcp) := by
  by_cases htunnel : client.tunneled = true
  · have hrun : clientTransport client t = fun w => (.ok [], w) := by
      rw [clientTransport, if_pos htunnel]
      rfl
    have hopens : (opensFirst client t = true) = False := by simp [opensFirst, htunnel]
    rw [hrun, hopens, if_pos htunnel]
    exact .nothing
  · have hopens : (opensFirst client t = true) = (t.tcp = none) := by simp [opensFirst, htunnel]
    rw [clientTransport, hopens, if_neg htunnel, if_neg htunnel]
    exact .socket t.tcp

theorem clientConnect_establishes :
    Establishes (clientConnect client t) (opensFirst client t = true)
      ((if client.tunneled then none else t.tcp).or t.handshake) :=
  (clientTransport_establishes client t).check t.handshake

/-- A client's connection is stored when the client has connected, and lost when it has
failed in its handshake. -/
theorem stored_spec {m : Run Handle} {opens : Prop} {failure : Option Failure}
    (hm : Establishes m opens failure) (f : Handle → Fields → Fields)
    (hw : w.fields = {}) (hf : ∀ h id, id ∈ (f h {}).held ↔ id ∈ h) :
    ∃ w', (do let h ← m; Run.store (f h); return h : Run Handle) w =
        (ending failure (fresh w w'), w') ∧
      Since w w' (¬ (opens ∧ failure.isSome)) ∧ (w.opened < w'.opened ↔ opens) ∧
      (failure = none → ∀ id, id ∈ w'.fields.held ↔ id ∈ fresh w w') := by
  have hle := hm.le w
  have hopens := hm.opens w
  have hcancelled := hm.cancelled w
  have hfields := (hm.fields w).trans hw
  rcases failure with _ | e
  · let w' : World := { (m w).2 with fields := f (fresh w (m w).2) {} }
    have hrun : (do let h ← m; Run.store (f h); return h : Run Handle) w =
        (.ok (fresh w w'), w') := by
      rw [bind_run, hm.run_ok w]
      show (_, { (m w).2 with fields := f (fresh w (m w).2) (m w).2.fields }) = _
      rw [hfields]
      rfl
    have hheld : ∀ id, id ∈ w'.fields.held ↔ id ∈ fresh w w' := hf _
    have hsince : Since w w' True := .of_held hcancelled hle hheld
    exact ⟨w', hrun, by simpa using hsince, hopens, fun _ => hheld⟩
  · have hrun : (do let h ← m; Run.store (f h); return h : Run Handle) w =
        (.error e, (m w).2) := by
      rw [bind_run, hm.run_error w]
    have hempty : Since w w True := .of_held rfl (Nat.le_refl _) (by simp [hw, fresh, Fields.held])
    have hlost := hempty.of_lost (hm.fields w) hcancelled hle
    refine ⟨(m w).2, hrun, ?_, hopens, by simp⟩
    simpa [hopens] using hlost

/-- The socket of a plain connection is in its field from the start. -/
theorem openTransport_spec (hw : w.fields = {}) :
    ∃ w', openTransport client t w = (ending (openFailure client t .plain) (fresh w w'), w') ∧
      Since w w' (¬ (opensFirst client t = true ∧ (openFailure client t .plain).isSome)) ∧
      (w.opened < w'.opened ↔ opensFirst client t = true) ∧
      (openFailure client t .plain = none → ∀ id, id ∈ w'.fields.held ↔ id ∈ fresh w w') := by
  by_cases htunnel : client.tunneled = true
  · refine ⟨w, ?_, ?_, by simp [opensFirst, htunnel], ?_⟩
    · rw [openTransport, if_pos htunnel]
      simp [openFailure, htunnel, ending, fresh]
      rfl
    · have hsince : Since w w True :=
        .of_held rfl (Nat.le_refl _) (by simp [hw, fresh, Fields.held])
      simpa [opensFirst, htunnel] using hsince
    · simp [hw, Fields.held, fresh]
  · rw [Bool.not_eq_true] at htunnel
    rcases htcp : t.tcp with _ | e
    · let w' : World := { w with
        opened := w.opened + 1
        fields := { w.fields with connection := some [w.opened] } }
      have hheld : ∀ id, id ∈ w'.fields.held ↔ id ∈ fresh w w' := by
        simp [w', hw, Fields.held, fresh]
      have hsince : Since w w' True := .of_held rfl (Nat.le_succ _) hheld
      refine ⟨w', ?_, ?_, by simp [w', opensFirst, htunnel, htcp], fun _ => hheld⟩
      · simp [openTransport, htunnel, bind_run, Run.store, openSocket, htcp, openFailure, ending,
          fresh, w']
        rfl
      · simpa [openFailure, htunnel, htcp] using hsince
    · refine ⟨{ w with fields := { w.fields with connection := some [] } }, ?_, ?_,
        by simp [opensFirst, htcp], by simp [openFailure, htunnel, htcp]⟩
      · simp [openTransport, htunnel, bind_run, Run.store, openSocket, htcp, openFailure, ending]
      · have hsince : Since w { w with fields := { w.fields with connection := some [] } } True :=
          .of_held rfl (Nat.le_refl _) (by simp [hw, fresh, Fields.held])
        simpa [opensFirst, htcp] using hsince

theorem openCarrier_spec (security : Security) (hw : w.fields = {}) :
    ∃ w', openCarrier client t security w =
        (ending (openFailure client t security) (fresh w w'), w') ∧
      Since w w' (¬ (opensFirst client t = true ∧ (openFailure client t security).isSome)) ∧
      (w.opened < w'.opened ↔ opensFirst client t = true) ∧
      (openFailure client t security = none → ∀ id, id ∈ w'.fields.held ↔ id ∈ fresh w w') := by
  rcases security with _ | _ | _
  · exact openTransport_spec client t hw
  · have hfailure : openFailure client t .tls =
        (if client.tunneled then none else t.tcp).or t.handshake := by simp [openFailure]
    rw [hfailure]
    exact stored_spec (clientConnect_establishes client t) (fun connection f =>
      { f with tlsClient := some connection, tlsConnection := some connection }) hw
      (by simp [Fields.held])
  · have hfailure : openFailure client t .reality =
        (if client.tunneled then none else t.tcp).or t.handshake := by simp [openFailure]
    rw [hfailure]
    exact stored_spec (clientConnect_establishes client t) (fun connection f =>
      { f with realityClient := some connection, realityConnection := some connection }) hw
      (by simp [Fields.held])

theorem openUpload_establishes (security : Security) :
    Establishes (openUpload client t security)
      (if client.tunneled then (uploadHops client t).head? = some none else t.uploadTcp = none)
      (uploadFailure client t security) := by
  by_cases htunnel : client.tunneled = true
  · simp only [openUpload, uploadFailure, htunnel, if_true]
    exact (Establishes.hops (uploadHops client t)).check _
  · simp only [openUpload, uploadFailure, htunnel, Bool.false_eq_true, if_false]
    exact (Establishes.socket t.uploadTcp).check _

/-- A layer's field takes in what the others hold. -/
theorem held_layer {f : Fields} {carrier all : Handle} (hheld : ∀ id, id ∈ f.held ↔ id ∈ carrier)
    (hall : ∀ id ∈ carrier, id ∈ all) (id : Nat) :
    (id ∈ { f with webSocketConnection := some all }.held ↔ id ∈ all) ∧
    (id ∈ { f with httpUpgradeConnection := some all }.held ↔ id ∈ all) ∧
    (id ∈ { f with grpcConnection := some all }.held ↔ id ∈ all) ∧
    (id ∈ { f with xhttpConnection := some all }.held ↔ id ∈ all) := by
  have hid := hheld id
  by_cases hin : id ∈ all
  · simp [Fields.held, hin]
  · have hnot : id ∉ carrier := fun h => hin (hall id h)
    simp only [Fields.held, mem_append, hnot, iff_false, not_or] at hid
    simp [Fields.held, hin, hid]

/-- A layer that keeps its connection in a field and checks its setup. -/
theorem layer_spec (hsince : Since w w' True) (f : Fields → Fields)
    (hf : ∀ id, id ∈ (f w'.fields).held ↔ id ∈ fresh w w') (setup : Option Failure) :
    ∃ w'', (do Run.store f; Run.check setup; return fresh w w' : Run Handle) w' =
        (ending setup (fresh w w''), w'') ∧ Since w w'' True ∧ w''.opened = w'.opened ∧
      ∀ id, id ∈ w''.fields.held ↔ id ∈ fresh w w'' := by
  refine ⟨{ w' with fields := f w'.fields }, ?_, .of_held hsince.cancelled hsince.le hf, rfl, hf⟩
  rcases setup with _ | e <;> rfl

theorem upload_spec (security : Security) (hsince : Since w w' True)
    (hheld : ∀ id, id ∈ w'.fields.held ↔ id ∈ fresh w w') :
    ∃ w'', performSetup client t (fresh w w') (.xhttp (some security)) w' =
        (ending (setUpFailure client t (.xhttp (some security))) (fresh w w''), w'') ∧
      Since w w'' (losesUpload client t (.xhttp (some security)) = false) ∧
      (w'.opened < w''.opened ↔ opensUpload client t (.xhttp (some security)) = true) ∧
      w'.opened ≤ w''.opened := by
  have hupload := openUpload_establishes client t security
  have hlayer := fun id => (held_layer hheld (fun _ h => h) id).2.2.2
  let w1 : World := { w' with fields := { w'.fields with xhttpConnection := some (fresh w w') } }
  have hsince1 : Since w w1 True := .of_held hsince.cancelled hsince.le hlayer
  rcases hsetup : t.setup with _ | e
  · have hle := hupload.le w1
    have hcancelled := (hupload.cancelled w1).trans hsince.cancelled
    have hbegin : performSetup client t (fresh w w') (.xhttp (some security)) w' =
        (do let upload ← openUpload client t security
            Run.store fun f => { f with xhttpConnection := some (fresh w w' ++ upload) }
            Run.check t.uploadSetup
            return fresh w w' ++ upload : Run Handle) w1 := by
      rw [performSetup, hsetup]
      rfl
    have hopen : opensUpload client t (.xhttp (some security)) = true ↔
        w1.opened < (openUpload client t security w1).2.opened := by
      rw [hupload.opens w1, opensUpload, hsetup]
      by_cases htunnel : client.tunneled = true <;> simp [htunnel]
    rcases hfailure : uploadFailure client t security with _ | e
    · rw [hfailure] at hupload
      let w2 : World := (openUpload client t security w1).2
      let w3 : World :=
        { w2 with fields := { w2.fields with xhttpConnection := some (fresh w w2) } }
      have hall : fresh w w1 ++ fresh w1 w2 = fresh w w2 := Establishes.fresh_append hsince.le hle
      have hfields : w2.fields = w1.fields := hupload.fields w1
      have hlayer3 : ∀ id, id ∈ w3.fields.held ↔ id ∈ fresh w w2 := by
        intro id
        have hin : ∀ id ∈ fresh w w', id ∈ fresh w w2 := by
          intro id hid
          rw [← hall]
          exact mem_append_left _ hid
        show id ∈ { w2.fields with xhttpConnection := some (fresh w w2) }.held ↔ _
        rw [hfields]
        exact (held_layer hheld hin id).2.2.2
      have hrun : performSetup client t (fresh w w') (.xhttp (some security)) w' =
          (ending t.uploadSetup (fresh w w3), w3) := by
        rw [hbegin, bind_run, hupload.run_ok w1]
        dsimp only
        rw [show fresh w w' ++ fresh w1 (openUpload client t security w1).2 = fresh w w2 from hall]
        rcases t.uploadSetup with _ | e <;> rfl
      have hsince3 : Since w w3 True :=
        .of_held hcancelled (hsince.le.trans hle) hlayer3
      refine ⟨w3, ?_, ?_, hopen.symm, hle⟩
      · simpa [setUpFailure, hsetup, hfailure] using hrun
      · simpa [losesUpload, hfailure] using hsince3
    · rw [hfailure] at hupload
      refine ⟨(openUpload client t security w1).2, ?_, ?_, hopen.symm, hle⟩
      · rw [hbegin, bind_run, hupload.run_error w1]
        simp [setUpFailure, hsetup, hfailure, ending]
      · have hlost := hsince1.of_lost (hupload.fields w1) (hupload.cancelled w1) hle
        rw [← hopen] at hlost
        simpa [losesUpload, hfailure] using hlost
  · refine ⟨w1, ?_, ?_, ?_, Nat.le_refl _⟩
    · simp [performSetup, bind_run, Run.store, Run.check, Run.throw, hsetup,
        setUpFailure, ending, w1]
    · simpa [losesUpload, opensUpload, hsetup] using hsince1
    · simp [opensUpload, hsetup, w1]

/-- The setup of a layer, over the sockets the fields hold. -/
theorem performSetup_spec (layer : Layer) (hsince : Since w w' True)
    (hheld : ∀ id, id ∈ w'.fields.held ↔ id ∈ fresh w w') :
    ∃ w'', performSetup client t (fresh w w') layer w' =
        (ending (setUpFailure client t layer) (fresh w w''), w'') ∧
      Since w w'' (losesUpload client t layer = false) ∧
      (w'.opened < w''.opened ↔ opensUpload client t layer = true) ∧
      w'.opened ≤ w''.opened := by
  have hlayer := fun id => held_layer hheld (fun _ h => h) id
  have hsame : ∀ f : Fields → Fields, (∀ id, id ∈ (f w'.fields).held ↔ id ∈ fresh w w') →
      ∃ w'', (do Run.store f; Run.check t.setup; return fresh w w' : Run Handle) w' =
        (ending t.setup (fresh w w''), w'') ∧ Since w w'' (false = false) ∧
        (w'.opened < w''.opened ↔ false = true) ∧ w'.opened ≤ w''.opened := by
    intro f hf
    obtain ⟨w'', hrun, hsince', hopened, -⟩ := layer_spec hsince f hf t.setup
    exact ⟨w'', hrun, by simpa using hsince', by simp [hopened], hopened.ge⟩
  rcases layer with _ | _ | _ | _ | upload
  · exact ⟨w', rfl, by simpa [losesUpload] using hsince, by simp [opensUpload], Nat.le_refl _⟩
  · exact hsame _ fun id => (hlayer id).1
  · exact hsame _ fun id => (hlayer id).2.1
  · exact hsame _ fun id => (hlayer id).2.2.1
  · rcases upload with _ | security
    · exact hsame _ fun id => (hlayer id).2.2.2
    · exact upload_spec client t security hsince hheld

variable (command : VlessCommand)

/-- What one attempt opens, and what of it the fields hold. -/
theorem attempt_spec (security : Security) (layer : Layer) (hw : w.fields = {}) :
    ∃ w', attempt client t command security layer w =
        (ending (failure client t command security layer) (fresh w w'), w') ∧
      Since w w' (loses client t security layer = false) ∧
      (w.opened < w'.opened ↔ opens client t security layer = true) := by
  obtain ⟨w1, hcarrier, hsince, hfirst, hheld⟩ := openCarrier_spec client t security hw
  rcases hopen : openFailure client t security with _ | e
  · rw [hopen] at hcarrier hsince
    have hsince1 : Since w w1 True := by simpa using hsince
    obtain ⟨w2, hsetup, hsince2, hupload, hle2⟩ :=
      performSetup_spec client t layer hsince1 (hheld hopen)
    refine ⟨w2, ?_, by simpa [loses, hopen] using hsince2, ?_⟩
    · rw [attempt, bind_run, hcarrier]
      simp only [ending]
      rw [bind_run, hsetup, failure, hopen]
      rcases setUpFailure client t layer with _ | e
      · rcases requestFailure client t command security layer with _ | e <;> rfl
      · rfl
    · simp only [opens, hopen, Option.isNone_none, Bool.true_and, Bool.or_eq_true]
      rw [← hfirst, ← hupload]
      have hle := hsince1.le
      omega
  · rw [hopen] at hcarrier hsince
    refine ⟨w1, ?_, by simpa [loses, hopen] using hsince, by simpa [opens, hopen] using hfirst⟩
    rw [attempt, bind_run, hcarrier, failure, hopen]
    rfl

end Attempt

-- ----
-- All attempts

/-- When a connect throws, every socket it has connected was cancelled; when it returns
a connection, those that were not are the ones under it. -/
def Clean : Except Failure Handle × World → Prop
  | (.error _, w) => ∀ id < w.opened, id ∈ w.cancelled
  | (.ok connection, w) => ∀ id < w.opened, id ∉ w.cancelled ↔ id ∈ connection

section Ends

variable {w w' : World} {kept : Prop} (hsince : Since w w' kept)
  (hbound : ∀ id ∈ w.cancelled, id < w.opened)
include hsince hbound

theorem clean_ok : Clean (.ok (fresh w w'), w') ↔ ∀ id < w.opened, id ∈ w.cancelled := by
  simp only [Clean, mem_fresh hsince.le, hsince.cancelled]
  constructor
  · intro h id hid
    by_contra hnot
    have hown := ((h id (hid.trans_le hsince.le)).mp hnot).1
    omega
  · intro h id hid
    refine ⟨fun hnot => ⟨?_, hid⟩, fun hown hin => ?_⟩
    · by_contra hlt
      exact hnot (h id (by omega))
    · have hlt := hbound id hin
      omega

theorem clean_error (e : Failure) :
    Clean (.error e, w') ↔ (∀ id < w.opened, id ∈ w.cancelled) ∧ ¬ w.opened < w'.opened := by
  have hle := hsince.le
  simp only [Clean, hsince.cancelled]
  constructor
  · refine fun h => ⟨fun id hid => h id (hid.trans_le hle), fun hlt => ?_⟩
    exact absurd (hbound _ (h _ hlt)) (Nat.lt_irrefl _)
  · rintro ⟨h, hnot⟩ id hid
    exact h id (by omega)

theorem cleanup_cancelled :
    (∀ id < w'.cleanupRetryResources.opened, id ∈ w'.cleanupRetryResources.cancelled) ↔
      (∀ id < w.opened, id ∈ w.cancelled) ∧ kept := by
  simp only [World.cleanupRetryResources, mem_append, hsince.cancelled]
  rw [← hsince.kept]
  constructor
  · intro h
    refine ⟨fun id hid => ?_, fun id hid hid' => ?_⟩
    · rcases h id (hid.trans_le hsince.le) with hin | hheld
      · exact hin
      · have hown := (hsince.own id hheld).1
        omega
    · rcases h id hid' with hin | hheld
      · have hlt := hbound id hin
        omega
      · exact hheld
  · rintro ⟨h, hheld⟩ id hid
    by_cases hlt : id < w.opened
    · exact .inl (h id hlt)
    · exact .inr (hheld id (by omega) hid)

theorem cleanup_bound : ∀ id ∈ w'.cleanupRetryResources.cancelled,
    id < w'.cleanupRetryResources.opened := by
  intro id hid
  simp only [World.cleanupRetryResources, mem_append, hsince.cancelled] at hid ⊢
  rcases hid with hin | hheld
  · exact (hbound id hin).trans_le hsince.le
  · exact (hsince.own id hheld).2

end Ends

section Loop

variable (client : VlessClient) (command : VlessCommand) (env : Nat → Trial)
  (security : Security) (layer : Layer)

theorem attempts_cons (body : Nat → Run Handle) (i : Nat) (later : List Nat) (lastError : Failure)
    (w : World) :
    attempts body (i :: later) lastError w =
      match body i (if i > 0 then w.cleanupRetryResources else w) with
      | (.ok connection, w) => (.ok connection, w)
      | (.error e, w) =>
        if e = .certificateValidationFailed then (.error e, w) else attempts body later e w := rfl

/-- The loop, from a world whose fields are empty. -/
theorem attempts_clean (later : List Nat) (lastError : Failure) {i : Nat} {v : World}
    (hv : (if i > 0 then w.cleanupRetryResources else w) = v) (hfields : v.fields = {})
    (hbound : ∀ id ∈ v.cancelled, id < v.opened) (hlater : ∀ j ∈ later, 0 < j) :
    Clean (attempts (fun i => attempt client (env i) command security layer) (i :: later)
        lastError w) ↔
      (∀ id < v.opened, id ∈ v.cancelled) ∧
        Releases client command security layer ((i :: later).map env) = true := by
  induction later generalizing i lastError w v with
  | nil =>
    obtain ⟨w', hrun, hsince, hopens⟩ := attempt_spec client (env i) command security layer hfields
    rw [attempts_cons, hv, hrun, map_cons, map_nil, Releases]
    rcases failure client (env i) command security layer with _ | e
    · simpa [ending] using clean_ok hsince hbound
    · have hclean := clean_error hsince hbound e
      rw [hopens, Bool.not_eq_true] at hclean
      simp only [ending, attempts, Run.throw, ite_self, or_true, if_true, Bool.not_eq_true']
      exact hclean
  | cons j later ih =>
    obtain ⟨w', hrun, hsince, hopens⟩ := attempt_spec client (env i) command security layer hfields
    rw [attempts_cons, hv, hrun, map_cons, Releases]
    rcases failure client (env i) command security layer with _ | e
    · simpa [ending] using clean_ok hsince hbound
    · simp only [ending]
      by_cases hfatal : e = .certificateValidationFailed
      · have hclean := clean_error hsince hbound e
        rw [hopens, Bool.not_eq_true] at hclean
        simpa [hfatal] using hclean
      · have hj : (if j > 0 then w'.cleanupRetryResources else w') = w'.cleanupRetryResources :=
          if_pos (hlater j (by simp))
        have hnext := ih e hj rfl (cleanup_bound hsince hbound)
          fun k hk => hlater k (by simp [hk])
        have hcancelled := cleanup_cancelled hsince hbound
        simp only [hfatal, if_false, false_or, map_cons, reduceCtorEq, Bool.and_eq_true,
          Bool.not_eq_true'] at hnext ⊢
        rw [hnext, hcancelled, and_assoc]

theorem order_eq : order client = if client.tunneled then [0] else [0, 1, 2, 3, 4] := by
  rcases client with ⟨configuration, _ | _⟩ <;> rfl

theorem withRetry_clean :
    Clean (withRetry client command env security layer {}) ↔
      Releases client command security layer ((order client).map env) = true := by
  have hclean : ∀ later, (∀ j ∈ later, 0 < j) → ∀ lastError,
      (Clean (attempts (fun i => attempt client (env i) command security layer) (0 :: later)
        lastError {}) ↔ Releases client command security layer ((0 :: later).map env) = true) := by
    intro later hlater lastError
    have hloop := attempts_clean client command env security layer later lastError
      (w := {}) (v := {}) (i := 0) (by simp) rfl (by simp) hlater
    simpa using hloop
  rw [withRetry, order_eq]
  split_ifs
  · exact hclean [] (by simp) _
  · exact hclean [1, 2, 3, 4] (by simp) _

/-- One attempt without a loop is the loop over a tunnel. -/
theorem withRetry_tunneled (htunnel : client.tunneled = true) :
    withRetry client command env security layer = attempt client
    (env 0) command security layer := by
  funext w
  rw [withRetry, order_eq, if_pos htunnel, attempts_cons]
  simp only [gt_iff_lt, Nat.lt_irrefl, if_false]
  rcases attempt client (env 0) command security layer w with ⟨_ | connection, w'⟩
  · simp [attempts, Run.throw]
  · rfl

end Loop

-- ----
-- The transport and its security

section Route

variable (client : VlessClient) (command : VlessCommand)

/-- The security of a transport that knows no Reality. -/
def tlsOrPlain : Security := if client.configuration.tls.isSome then .tls else .plain

def realityOrTls : Security :=
  if client.configuration.reality.isSome then .reality else tlsOrPlain client

def xhttpLayer (mode : XHttpMode) : Layer :=
  match realityOrTls client with
  | .plain => .xhttp (if needsUpload mode then some .plain else none)
  | .tls =>
    .xhttp (if !(decideXHttpHttpVersion client.configuration == .http2) && needsUpload mode then
      some .tls else none)
  | .reality => .xhttp none

/-- The loop that the configuration asks for, when it asks for one. -/
def route (destinationPort : Nat) : Option (Security × Layer) :=
  let c := client.configuration
  if command = .udp ∧ destinationPort = 443 ∧ isVisionFlow c ∧ !allowUDP443 c then none
  else
    match c.transport with
    | "ws" =>
      if isVisionFlow c ∨ c.websocket.isNone then none else some (tlsOrPlain client, .webSocket)
    | "httpupgrade" =>
      if isVisionFlow c ∨ c.httpUpgrade.isNone then none
      else some (tlsOrPlain client, .httpUpgrade)
    | "xhttp" =>
      if isVisionFlow c ∨ decideXHttpHttpVersion c = .http3 then none
      else c.xhttp.map fun xhttpConfig =>
        (realityOrTls client, xhttpLayer client (resolvedMode c xhttpConfig))
    | "grpc" =>
      if isVisionFlow c ∨ c.grpc.isNone then none else some (realityOrTls client, .grpc)
    | _ =>
      some (if c.tls.isSome then .tls else if c.reality.isSome then .reality else .plain, .base)

variable (env : Nat → Trial)

/-- A run is the loop of this route, or throws before it. -/
def Follows (m : Run Handle) : Option (Security × Layer) → Prop
  | none => ∃ e, m = Run.throw e
  | some (security, layer) => m = withRetry client command env security layer

theorem connectDirect_eq :
    connectDirect client command env = withRetry client command env .plain .base := by
  rw [connectDirect]
  split_ifs with htunnel
  · rw [withRetry_tunneled client command env .plain .base htunnel]
  · rfl

theorem connectWithTls_eq :
    connectWithTls client command env = withRetry client command env .tls .base := by
  rw [connectWithTls]
  split_ifs with htunnel
  · rw [withRetry_tunneled client command env .tls .base htunnel]
  · rfl

variable {client command env}

theorem Follows.withoutVision {name : String} {m : Run Handle} {r : Option (Security × Layer)}
    {other : Prop} [Decidable other]
    (hm : Follows client command env m (if other then none else r)) :
    Follows client command env (withoutVision client name m)
      (if isVisionFlow client.configuration ∨ other then none else r) := by
  rw [Sockets.withoutVision]
  by_cases hvision : isVisionFlow client.configuration = true
  · rw [if_pos hvision, if_pos (.inl hvision)]
    exact ⟨_, rfl⟩
  · simpa [hvision] using hm

variable (client command env)

theorem connectWithWebSocket_follows :
    Follows client command env (connectWithWebSocket client command env)
      (if client.configuration.websocket.isNone then none
      else some (tlsOrPlain client, .webSocket)) := by
  rw [connectWithWebSocket, tlsOrPlain]
  rcases client.configuration.websocket with _ | _
  · exact ⟨_, rfl⟩
  · rcases client.configuration.tls with _ | _ <;> exact rfl

theorem connectWithHttpUpgrade_follows :
    Follows client command env (connectWithHttpUpgrade client command env)
      (if client.configuration.httpUpgrade.isNone then none
      else some (tlsOrPlain client, .httpUpgrade)) := by
  rw [connectWithHttpUpgrade, tlsOrPlain]
  rcases client.configuration.httpUpgrade with _ | _
  · exact ⟨_, rfl⟩
  · rcases client.configuration.tls with _ | _ <;> exact rfl

theorem connectWithGrpc_follows :
    Follows client command env (connectWithGrpc client command env)
      (if client.configuration.grpc.isNone then none else some (realityOrTls client, .grpc)) := by
  rw [connectWithGrpc, realityOrTls, tlsOrPlain]
  rcases client.configuration.grpc with _ | _
  · exact ⟨_, rfl⟩
  · rcases client.configuration.reality with _ | _
    · rcases client.configuration.tls with _ | _ <;> exact rfl
    · exact rfl

theorem connectWithXHttp_follows :
    Follows client command env (connectWithXHttp client command env)
      (if decideXHttpHttpVersion client.configuration = .http3 then none
      else client.configuration.xhttp.map fun xhttpConfig =>
        (realityOrTls client,
          xhttpLayer client (resolvedMode client.configuration xhttpConfig))) := by
  rw [connectWithXHttp]
  rcases client.configuration.xhttp with _ | xhttpConfig
  · simp only [Option.map_none, ite_self]
    exact ⟨_, rfl⟩
  · dsimp only
    by_cases hhttp3 : decideXHttpHttpVersion client.configuration = .http3
    · rw [if_pos hhttp3, if_pos hhttp3]
      exact ⟨_, rfl⟩
    · rw [if_neg hhttp3, if_neg hhttp3, Option.map_some]
      rw [xhttpLayer, realityOrTls, tlsOrPlain]
      rcases client.configuration.reality with _ | _
      · rcases client.configuration.tls with _ | _ <;> exact rfl
      · exact rfl

/-- Every transport comes to one loop or throws before it. -/
theorem connectWithCommand_follows (destinationPort : Nat) :
    Follows client command env (connectWithCommand client command env destinationPort)
      (route client command destinationPort) := by
  rw [route, connectWithCommand]
  by_cases hdropped : command = .udp ∧ destinationPort = 443 ∧
      isVisionFlow client.configuration = true ∧ (!allowUDP443 client.configuration) = true
  · rw [if_pos hdropped, if_pos hdropped]
    exact ⟨_, rfl⟩
  · rw [if_neg hdropped, if_neg hdropped]
    split
    · exact (connectWithWebSocket_follows client command env).withoutVision
    · exact (connectWithHttpUpgrade_follows client command env).withoutVision
    · exact (connectWithXHttp_follows client command env).withoutVision
    · exact (connectWithGrpc_follows client command env).withoutVision
    · have hdirect := connectDirect_eq client command env
      have htls := connectWithTls_eq client command env
      rcases client.configuration.tls with _ | _
      · rcases client.configuration.reality with _ | _
        · exact hdirect
        · exact rfl
      · exact htls

/-- The attempts that a connect makes give up what they have opened. -/
def ReleasesAll (destinationPort : Nat) : Prop :=
  match route client command destinationPort with
  | none => True
  | some (security, layer) =>
    Releases client command security layer ((order client).map env) = true

theorem connect_clean (destinationPort : Nat) :
    Clean (connect client command env destinationPort) ↔
      ReleasesAll client command env destinationPort := by
  have hfollows := connectWithCommand_follows client command env destinationPort
  rw [connect, ReleasesAll]
  rcases hroute : route client command destinationPort with _ | ⟨security, layer⟩
  · rw [hroute] at hfollows
    obtain ⟨e, he⟩ := hfollows
    rw [he]
    simp [Run.throw, Clean]
  · rw [hroute] at hfollows
    rw [show connectWithCommand client command env destinationPort = _ from hfollows]
    exact withRetry_clean client command env security layer

end Route

-- ----
-- Chains

/-- What `ProxyClientFactory.connect` does for one hop of a chain. -/
structure Hop where
  failure : Option Failure := none
  /-- Whether it has cancelled the tunnel it was given when it throws. -/
  cancelsTunnel : Bool := false
  /-- Whether the connection it returns cancels the tunnel under it when it is cancelled. -/
  passesOn : Bool := true

/-- Which of the tunnels are cancelled when the newest is; the newest comes first. -/
def cancelNewest : List Hop → List Bool
  | [] => []
  | hop :: tunnels =>
    true :: if hop.passesOn then cancelNewest tunnels else tunnels.map fun _ => false

/-- The loop of `LwipTcpConnection.connectChain`, with the exit proxy as the last hop.
Where a hop throws, the result says which of the tunnels to the earlier hops have been
cancelled; the handler aborts the local connection and cancels none. -/
def connectChain (tunnels : List Hop) : List Hop → Except (List Bool) (List Hop)
  | [] => .ok tunnels
  | hop :: later =>
    match hop.failure with
    | none => connectChain (hop :: tunnels) later
    | some _ =>
      .error (if hop.cancelsTunnel then cancelNewest tunnels else tunnels.map fun _ => false)

/-- A chain that fails leaves no tunnel open. -/
def ChainClean (result : Except (List Bool) (List Hop)) : Prop :=
  ∀ cancelled, result = .error cancelled → ∀ c ∈ cancelled, c = true

/-- The first hop fails, or the one that fails cancels its tunnel and the connections of
all earlier ones but the first pass that on. -/
def ChainReleases (hops : List Hop) : Prop :=
  ∀ hop ∈ (hops.dropWhile (·.failure.isNone)).head?,
    hops.takeWhile (·.failure.isNone) = [] ∨
      hop.cancelsTunnel = true ∧ ∀ h ∈ (hops.takeWhile (·.failure.isNone)).tail, h.passesOn = true

theorem cancelNewest_all (tunnels : List Hop) :
    (∀ c ∈ cancelNewest tunnels, c = true) ↔ ∀ h ∈ tunnels.dropLast, h.passesOn = true := by
  induction tunnels with
  | nil => simp [cancelNewest]
  | cons hop tunnels ih =>
    rcases tunnels with _ | ⟨below, tunnels⟩
    · simp [cancelNewest]
    · rw [cancelNewest, dropLast_cons_of_ne_nil (by simp)]
      by_cases hpass : hop.passesOn = true
      · simpa [hpass] using ih
      · simp [hpass]

/-- The loop goes on with every hop until one fails. -/
theorem connectChain_eq (hops tunnels : List Hop) :
    connectChain tunnels hops =
      match (hops.dropWhile (·.failure.isNone)).head? with
      | none => .ok ((hops.takeWhile (·.failure.isNone)).reverse ++ tunnels)
      | some hop =>
        .error (if hop.cancelsTunnel then
          cancelNewest ((hops.takeWhile (·.failure.isNone)).reverse ++ tunnels)
        else ((hops.takeWhile (·.failure.isNone)).reverse ++ tunnels).map fun _ => false) := by
  induction hops generalizing tunnels with
  | nil => rfl
  | cons hop hops ih =>
    rw [connectChain]
    rcases hfailure : hop.failure with _ | e
    · simp [hfailure, ih]
    · simp [hfailure]

theorem connectChain_clean (hops : List Hop) :
    ChainClean (connectChain [] hops) ↔ ChainReleases hops := by
  rw [connectChain_eq, ChainReleases, ChainClean]
  generalize hops.takeWhile (·.failure.isNone) = before
  generalize (hops.dropWhile (·.failure.isNone)).head? = failing
  rcases failing with _ | hop
  · simp
  · simp only [Except.error.injEq, append_nil, forall_eq', Option.mem_def, Option.some.injEq]
    by_cases hcancels : hop.cancelsTunnel = true
    · rw [if_pos hcancels, cancelNewest_all, dropLast_reverse]
      rcases before with _ | ⟨first, before⟩ <;> simp [hcancels]
    · rcases before with _ | ⟨first, before⟩ <;> simp [hcancels]

/-- **What failed connects leave open.** A connect cleans up after itself exactly when
every attempt that is followed by another fails outside the TLS and Reality handshakes of
its connections, and a last one that fails has connected nothing; a chain does exactly
when its first hop is the one that fails, or the hop that fails has closed the others. -/
theorem failed_connects (client : VlessClient) (command : VlessCommand) (env : Nat → Trial)
    (destinationPort : Nat) (hops : List Hop) :
    (Clean (connect client command env destinationPort) ↔
      ReleasesAll client command env destinationPort) ∧
    (ChainClean (connectChain [] hops) ↔ ChainReleases hops) :=
  ⟨connect_clean client command env destinationPort, connectChain_clean hops⟩

/-- A Reality server that hangs up in every handshake. -/
def hangUp : Except Failure Handle × World :=
  connect
    { configuration :=
        { serverAddress := "198.51.100.1", serverPort := 443,
          reality := some ⟨"example.com", [], [], .chrome133⟩ } }
    .tcp (fun _ => { handshake := some .other }) 443

/-- Each of the five attempts leaves its socket open. -/
theorem handshakes_left_open :
    hangUp.1 = .error .other ∧ hangUp.2.opened = 5 ∧ hangUp.2.cancelled = [] ∧ ¬ Clean hangUp := by
  have hrun : hangUp = (.error .other, { opened := 5 }) := rfl
  rw [hrun]
  refine ⟨rfl, rfl, rfl, fun hclean => ?_⟩
  have hfirst := hclean 0 (by decide)
  simp at hfirst

end Anywhere.Vless.Sockets
