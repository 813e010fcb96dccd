import Anywhere.Vless.Client
import Anywhere.Vless.Detection

/-!
# Anywhere — what protects the bytes of a VLESS connection

A write is guarded when it is made on a record connection that was established by a TLS
or Reality client built from the configuration. A dozen functions of the client choose
the connection, each from the fields of the configuration it looks at; every one of them
is followed to its writes with the rules of `Lib.Meets`.

* `session_protected` — whatever fails and is tried again, the writes of a connect and of
  the payload behind it are guarded or follow such an announcement.
-/

namespace Anywhere.Vless

open Lib

-- ----
-- Protection

/-- The client was built from this configuration, with its server name and its
certificate checks, and with its version limits where they are kept. -/
def Protection.From (c : ProxyConfiguration) (limits : Prop) : Protection → Prop
  | .tls config =>
    ∃ base, c.tls = some base ∧ config.serverName = base.serverName ∧
      config.allowInsecure = base.allowInsecure ∧
      (limits → config.minVersion = base.minVersion ∧ config.maxVersion = base.maxVersion)
  | .reality config => c.reality = some config

/-- A record connection of the configured client. -/
def Carrier.Guarded (c : ProxyConfiguration) (limits : Prop) (k : Carrier) : Prop :=
  ∃ p, k.protection = some p ∧ p.From c limits

/-- Of the configurations that are rebuilt only that of gRPC keeps the limits. -/
def KeepsLimits (c : ProxyConfiguration) : Prop := c.transport ≠ "ws" ∧ c.transport ≠ "xhttp"

variable (c : ProxyConfiguration)

/-- A write announces direct copy: behind the UUID, if the write is the first one, it is
whole frames, of which the last one and no other has the DIRECT command. -/
def AnnouncesDirect (data : Bytes) : Prop :=
  ∃ (front : Bytes) (others : List Frame) (last : Frame), (front = [] ∨ front = c.uuid) ∧
    (∀ f ∈ others, f.command = .paddingContinue) ∧ last.command = .paddingDirect ∧
    (∀ f ∈ others ++ [last], f.Fits) ∧
    data = front ++ ((others ++ [last]).map Frame.bytes).flatten

/-- Direct copy was announced on this connection. -/
def Announced (past : List Write) (k : Carrier) : Prop :=
  ∃ w ∈ past, w.carrier = k ∧ AnnouncesDirect c w.data

/-- A write on a record connection of the configured client, or one of the payloads of a
Vision connection, copied to the transport of the record connection on which that was
announced. -/
def Protected (payloads : List Bytes) (past : List Write) (w : Write) : Prop :=
  w.carrier.Guarded c (KeepsLimits c) ∨
    isVisionFlow c ∧ w.data ∈ payloads ∧
      ∃ k, k.Guarded c (KeepsLimits c) ∧ Announced c past k ∧ w.carrier = k.bare

/-- The connections that are made on record connections of the configured client. -/
def VlessConnection.Guarded : VlessConnection → Prop
  | .direct k | .tls k _ | .reality k | .webSocket k | .httpUpgrade k | .grpc k =>
    k.Guarded c (KeepsLimits c)
  | .xhttp x =>
    x.download.Guarded c (KeepsLimits c) ∧ ∀ k, x.upload = some k → k.Guarded c (KeepsLimits c)

/-- The record connection that `sendDirectRaw` can bypass. -/
def VlessConnection.record : VlessConnection → Option Carrier
  | .tls k _ | .reality k => some k
  | _ => none

/-- The connections a connect may return after `past` was written. -/
def ProxyConnection.Safe (past : List Write) : ProxyConnection → Prop
  | .plain inner | .udp inner => inner.Guarded c
  | .vision inner s =>
    inner.Guarded c ∧ isVisionFlow c ∧ (∀ uuid ∈ s.writeOnceUserUUID, uuid = c.uuid) ∧
      ∃ k, inner.record = some k ∧ (s.writerDirectCopy = true → Announced c past k)

variable {c} {payloads : List Bytes} {past : List Write}

theorem Announced.mono {now : List Write} {k : Carrier} (h : Announced c past k)
    (hnow : past <+: now) : Announced c now k := by
  obtain ⟨w, hw, hcarrier, hdirect⟩ := h
  exact ⟨w, hnow.subset hw, hcarrier, hdirect⟩

section Writes

variable {k : Carrier} (data : Bytes)

theorem write_meets (hk : k.Guarded c (KeepsLimits c)) {record : Option Carrier}
    (hrecord : ∀ k' ∈ record, k = k') :
    Meets (Protected c payloads) past (Effects.write ⟨k, data⟩ : Sends Unit) fun now _ =>
      ∀ k' ∈ record, ⟨k', data⟩ ∈ now :=
  .write (.inl hk) fun k' hk' => by simp [hrecord k' hk']

theorem xhttp_send_meets {x : XHttpConnection} (h : (VlessConnection.xhttp x).Guarded c) :
    Meets (Protected c payloads) past (x.send data) fun _ _ => True := by
  have hdownload : Meets (Protected c payloads) past (Effects.write ⟨x.download, data⟩ : Sends Unit)
      fun _ _ => True := .write (.inl h.1) trivial
  have hupload : Meets (Protected c payloads) past (x.uploadSend data) fun _ _ => True := by
    unfold XHttpConnection.uploadSend
    split
    · exact .throw _
    · rename_i upload hsome
      exact .write (.inl (h.2 upload hsome)) trivial
  unfold XHttpConnection.send
  split
  · exact hdownload
  · split
    · exact hupload
    · exact hupload
    · exact hdownload
    · exact .pure trivial

/-- A write on a guarded connection. The record connections write the data at once. -/
theorem sendRaw_meets {inner : VlessConnection} (h : inner.Guarded c) :
    Meets (Protected c payloads) past (inner.sendRaw data) fun now _ =>
      ∀ k ∈ inner.record, ⟨k, data⟩ ∈ now := by
  cases inner with
  | xhttp x => exact (xhttp_send_meets data h).mono fun _ _ _ _ _ hk => by cases hk
  | tls k version => exact write_meets data h fun _ hk => Option.some.inj hk
  | reality k => exact write_meets data h fun _ hk => Option.some.inj hk
  | _ => exact write_meets data h fun _ hk => by cases hk

end Writes

variable {s s' : VisionTrafficState} {data out : Bytes} {outcomes : Nat → Outcome} {path : Path}

/-- After direct copy has begun a write is passed on as it is, and it begins with a write
that announces it. -/
theorem sendRaw_announces (huuid : ∀ uuid ∈ s.writeOnceUserUUID, uuid = c.uuid)
    (h : Vless.sendRaw s data outcomes = some (s', path, out)) :
    (path = .direct → s.writerDirectCopy = true ∧ out = data) ∧
      (∀ uuid ∈ s'.writeOnceUserUUID, uuid = c.uuid) ∧
      (s'.writerDirectCopy = true → s.writerDirectCopy = true ∨ path = .inner ∧
        AnnouncesDirect c out) := by
  obtain ⟨⟨s₁, out₁⟩, hsent, hresult⟩ := Option.map_eq_some_iff.mp h
  simp only [Prod.mk.injEq] at hresult
  obtain ⟨rfl, rfl, rfl⟩ := hresult
  by_cases hdirect : s.writerDirectCopy = true
  · unfold processSendData at hsent
    rw [processSendData_filter] at hsent
    simp only [hdirect, if_true, Option.some.injEq, Prod.mk.injEq] at hsent
    obtain ⟨rfl, rfl⟩ := hsent
    exact ⟨fun _ => ⟨hdirect, rfl⟩, huuid, fun _ => .inl hdirect⟩
  · have hdirect' : s.writerDirectCopy = false := by simpa using hdirect
    refine ⟨by simp [hdirect'], ?_⟩
    by_cases hpadding : s.writerIsPadding = true
    · obtain ⟨others, f, hothers, hfits, -, rfl, rfl⟩ :=
        processSendData_padding hpadding hdirect' hsent
      refine ⟨fun _ hnone => (by cases hnone), fun hnow => .inr ⟨by simp [hdirect'], ?_⟩⟩
      have hcommand : f.command = .paddingDirect := by
        simpa [VisionTrafficState.written] using hnow
      refine ⟨s.writeOnceUserUUID.getD [], others, f, ?_, hothers, hcommand, hfits, rfl⟩
      rcases hfront : s.writeOnceUserUUID with _ | uuid
      · exact .inl rfl
      · exact .inr (huuid uuid hfront)
    · -- a writer that has stopped padding only looks for a ClientHello
      rw [processSendData_raw (by simpa using hpadding)] at hsent
      cases hsent
      exact ⟨huuid, fun hnow => absurd hnow hdirect⟩

/-- Once direct copy was announced, only the data of the caller is written without
protection. -/
theorem visionSend_meets {inner : VlessConnection}
    (h : (ProxyConnection.vision inner s).Safe c past)
    (hdata : s.writerDirectCopy = true → data ∈ payloads) (outcomes : Nat → Outcome) :
    Meets (Protected c payloads) past (visionSend inner s data outcomes) fun now s' =>
      (ProxyConnection.vision inner s').Safe c now := by
  obtain ⟨hguarded, hflow, huuid, k, hrecord, hdirect⟩ := h
  unfold visionSend
  split
  · exact .throw _
  · rename_i s' paddedData hsent
    obtain ⟨-, huuid', hannounces⟩ := sendRaw_announces huuid hsent
    refine Meets.bind ((sendRaw_meets paddedData hguarded).mono fun now _ hnow hwritten =>
      (⟨hnow, hwritten k hrecord⟩ : past <+: now ∧ _)) fun now _ hnow => ?_
    obtain ⟨hpast, hwritten⟩ := hnow
    refine .pure ⟨hguarded, hflow, huuid', k, hrecord, fun hcopy => ?_⟩
    rcases hannounces hcopy with hbefore | ⟨-, hframe⟩
    · exact (hdirect hbefore).mono hpast
    · exact ⟨_, hwritten, rfl, hframe⟩
  · rename_i s' paddedData hsent
    obtain ⟨hcopied, huuid', -⟩ := sendRaw_announces huuid hsent
    obtain ⟨hcopy, rfl⟩ := hcopied rfl
    have hannounced := hdirect hcopy
    have hwrite (hk : k.Guarded c (KeepsLimits c)) : Meets (Protected c payloads) past
        (Effects.write ⟨k.bare, paddedData⟩ : Sends Unit) fun now _ => past <+: now :=
      .write (.inr ⟨hflow, hdata hcopy, k, hk, hannounced, rfl⟩) (List.prefix_append past _)
    have hsend : Meets (Protected c payloads) past (inner.sendDirectRaw paddedData)
        fun now _ => past <+: now := by
      cases inner with
      | tls k' version =>
        cases hrecord
        exact hwrite hguarded
      | reality k' =>
        cases hrecord
        exact hwrite hguarded
      | _ => cases hrecord
    exact hsend.bind fun now _ hpast =>
      .pure ⟨hguarded, hflow, huuid', k, hrecord, fun _ => hannounced.mono hpast⟩

theorem step_meets {connection : ProxyConnection} (h : connection.Safe c past) (e : VisionEvent)
    (hpayload : ∀ data outcomes, e = .write data outcomes → data ∈ payloads) :
    Meets (Protected c payloads) past (connection.step e) fun now connection' =>
      connection'.Safe c now := by
  cases connection with
  | plain inner =>
    cases e with
    | write data outcomes => exact (sendRaw_meets data h).bind fun _ _ _ => .pure h
    | receive data => exact .pure h
  | udp inner =>
    cases e with
    | write data outcomes => exact (sendRaw_meets (frame data) h).bind fun _ _ _ => .pure h
    | receive data => exact .pure h
  | vision inner s =>
    cases e with
    | write data outcomes =>
      exact (visionSend_meets h (fun _ => hpayload data outcomes rfl) outcomes).bind
        fun _ _ hsafe => .pure hsafe
    | receive data =>
      obtain ⟨hguarded, hflow, huuid, k, hrecord, hdirect⟩ := h
      have hwriter := processReceiveData_writer s data
      refine .pure ⟨hguarded, hflow, fun uuid hsome => huuid uuid ?_, k, hrecord,
        fun hcopy => hdirect ?_⟩
      · rwa [hwriter.1] at hsome
      · rwa [hwriter.2.2.1] at hcopy

namespace VlessClient

section Handshake

variable {client : VlessClient} {base : VlessConnection} {attempt : Attempt}

theorem sendRequest_meets (hbase : base.Guarded c) (requestData : Bytes) (attempt : Attempt) :
    Meets (Protected c payloads) past (sendRequest base requestData attempt) fun _ _ => True :=
  (sendRaw_meets requestData hbase).bind fun _ _ _ => .check (.pure trivial)

theorem performStreamHandshake_meets (hbase : base.Guarded client.configuration)
    (command : VlessCommand) (destinationHost : Text) (destinationPort : Nat)
    (initialData : Option Bytes) (attempt : Attempt) :
    Meets (Protected client.configuration payloads) past
      (client.performStreamHandshake base command destinationHost destinationPort
        initialData attempt)
      fun now connection => connection.Safe client.configuration now := by
  refine (sendRequest_meets hbase _ attempt).bind fun now _ _ => .pure ?_
  split
  · exact hbase
  · exact hbase

/-- A Vision connection starts with the writer padding. -/
theorem openVision_meets (hbase : base.Guarded client.configuration) {k : Carrier}
    (hrecord : base.record = some k) (hflow : isVisionFlow client.configuration)
    (initialData : Option Bytes) (attempt : Attempt) :
    Meets (Protected client.configuration payloads) past
    (client.openVision base initialData attempt)
      fun now connection => connection.Safe client.configuration now := by
  have hstart : (ProxyConnection.vision base (wrapWithVision client.configuration)).Safe
      client.configuration past :=
    ⟨hbase, hflow, fun _ hsome => (Option.some.inj hsome).symm, k, hrecord,
      fun hcopy => by cases hcopy⟩
  unfold openVision
  cases initialData with
  | some data =>
    exact (visionSend_meets hstart (fun hcopy => by cases hcopy) attempt.outcomes).bind
      fun _ _ hsafe => .check (.pure hsafe)
  | none =>
    dsimp only
    split
    · exact .throw _
    · rename_i s padded hopened
      obtain ⟨paddingLen, -, hresult⟩ := Option.map_eq_some_iff.mp hopened
      cases hresult
      refine (sendRaw_meets _ hbase).bind fun _ _ _ => .check (.pure ?_)
      exact ⟨hbase, hflow, fun _ hnone => (by cases hnone), k, hrecord,
        fun hcopy => (by cases hcopy)⟩

theorem performBaseHandshake_meets (hbase : base.Guarded client.configuration)
    (command : VlessCommand) (destinationHost : Text) (destinationPort : Nat)
    (initialData : Option Bytes) (attempt : Attempt) :
    Meets (Protected client.configuration payloads) past
      (client.performBaseHandshake base command destinationHost destinationPort initialData attempt)
      fun now connection => connection.Safe client.configuration now := by
  unfold performBaseHandshake
  dsimp only
  split
  · exact .throw _
  refine (sendRequest_meets hbase _ attempt).bind fun now _ _ => ?_
  split
  · exact .pure hbase
  split
  · rename_i hvision
    rw [Bool.and_eq_true] at hvision
    cases hrecord : base.record with
    | none =>
      have hversion : base.outerTlsVersion = none := by
        cases base <;> first | rfl | cases hrecord
      rw [validateOuterTlsForVision, hversion]
      exact .throw _
    | some k => exact .check (openVision_meets hbase hrecord hvision.1 initialData attempt)
  · exact .pure hbase

theorem withRetry_meets {env : Nat → Attempt} {body : Attempt → Sends ProxyConnection}
    {Q : List Write → ProxyConnection → Prop}
    (hbody : ∀ now attempt, Meets (Protected c payloads) now (body attempt) Q) :
    Meets (Protected c payloads) past (client.withRetry env body) Q :=
  .attempts (fun now i => hbody now { env i with number := i }) _ _

/-- Opening a connection writes nothing, and gives a record connection of the client
that was built from the configuration. -/
def Opens (client : VlessClient) (carrier : Attempt → Sends Carrier) : Prop :=
  ∀ payloads past attempt, Meets (Protected client.configuration payloads) past
    (carrier attempt) fun _ k =>
    k.Guarded client.configuration (KeepsLimits client.configuration)

theorem openTls_opens {tlsConfig : TlsConfiguration}
    (h : (Protection.tls tlsConfig).From client.configuration (KeepsLimits client.configuration)) :
    client.Opens (client.openTls tlsConfig) := fun _ _ _ =>
  .check (.pure ⟨_, rfl, h⟩)

theorem openReality_opens {realityConfig : RealityConfiguration}
    (h : client.configuration.reality = some realityConfig) :
    client.Opens (client.openReality realityConfig) := fun _ _ _ =>
  .check (.pure ⟨_, rfl, h⟩)

end Handshake

section Connect

variable {client : VlessClient} {command : VlessCommand} {destinationHost : Text}
  {destinationPort : Nat} {initialData : Option Bytes} {env : Nat → Attempt}

theorem connectStream_meets {carrier : Attempt → Sends Carrier} (hopens : client.Opens carrier)
    {layer : Carrier → VlessConnection}
    (hlayer : ∀ k : Carrier, k.Guarded client.configuration (KeepsLimits client.configuration) →
      (layer k).Guarded client.configuration) :
    Meets (Protected client.configuration payloads) past
      (client.connectStream command destinationHost destinationPort initialData env carrier layer)
      fun now connection => connection.Safe client.configuration now :=
  withRetry_meets fun now attempt =>
    (hopens _ now attempt).bind fun _ _ hk =>
      .check (performStreamHandshake_meets (hlayer _ hk) command destinationHost destinationPort
        initialData attempt)

theorem performSetup_meets {x : XHttpConnection} {setup : Option Failure}
    {factory : Option (Sends Carrier)} (hx : (VlessConnection.xhttp x).Guarded c)
    (hfactory : ∀ past, ∀ m ∈ factory, Meets (Protected c payloads) past m fun _ k =>
      k.Guarded c (KeepsLimits c)) :
    Meets (Protected c payloads) past (x.performSetup setup factory) fun _ x' =>
      (VlessConnection.xhttp x').Guarded c := by
  unfold XHttpConnection.performSetup
  refine .check ?_
  split
  · exact .pure hx
  · cases factory with
    | none => exact .throw _
    | some m =>
      refine (hfactory past m rfl).bind fun _ k hk => .pure ⟨hx.1, ?_⟩
      intro k' hk'
      cases hk'
      exact hk

theorem connectXHttpLayer_meets {carrier : Attempt → Sends Carrier} (hopens : client.Opens carrier)
    {protection : Option Protection} {mode : XHttpMode} {useHTTP2 needsUpload : Bool}
    (hupload : needsUpload = true → ∃ p, protection = some p ∧
      p.From client.configuration (KeepsLimits client.configuration)) :
    Meets (Protected client.configuration payloads) past
      (client.connectXHttpLayer command destinationHost destinationPort initialData env carrier
        protection mode useHTTP2 needsUpload)
      fun now connection => connection.Safe client.configuration now := by
  refine withRetry_meets fun now attempt => (hopens _ now attempt).bind fun _ k hk => ?_
  have hfactory : ∀ past,
      ∀ m ∈ (if needsUpload then some (client.openUpload protection attempt) else none),
        Meets (Protected client.configuration payloads) past m fun _ k =>
          k.Guarded client.configuration (KeepsLimits client.configuration) := by
    intro past m hm
    split at hm
    · rename_i hneeds
      cases hm
      obtain ⟨p, rfl, hp⟩ := hupload hneeds
      exact .check (.pure ⟨p, rfl, hp⟩)
    · cases hm
  exact (performSetup_meets ⟨hk, fun _ hnone => by cases hnone⟩ hfactory).bind fun _ _ hx =>
    performStreamHandshake_meets hx command destinationHost destinationPort initialData attempt

variable {tls : TlsConfiguration}

theorem from_base (htls : client.configuration.tls = some tls) {limits : Prop} :
    (Protection.tls tls).From client.configuration limits :=
  ⟨tls, htls, rfl, rfl, fun _ => ⟨rfl, rfl⟩⟩

theorem from_sanitized (htls : client.configuration.tls = some tls) {limits : Prop} :
    (Protection.tls (sanitizedTlsConfiguration tls)).From client.configuration limits :=
  ⟨tls, htls, rfl, rfl, fun _ => ⟨rfl, rfl⟩⟩

theorem from_webSocket (htls : client.configuration.tls = some tls)
    (htransport : client.configuration.transport = "ws") :
    (Protection.tls (webSocketTlsConfig tls)).From client.configuration
      (KeepsLimits client.configuration) :=
  ⟨tls, htls, rfl, rfl, fun hlimits => absurd htransport hlimits.1⟩

theorem from_xhttp (htls : client.configuration.tls = some tls)
    (htransport : client.configuration.transport = "xhttp") (httpVersion : XHttpHttpVersion) :
    (Protection.tls (sanitizedXHttpTlsConfig tls httpVersion)).From client.configuration
      (KeepsLimits client.configuration) :=
  ⟨tls, htls, rfl, rfl, fun hlimits => absurd htransport hlimits.2⟩

theorem withoutVision_meets {name : String} {m : Sends ProxyConnection}
    {Q : List Write → ProxyConnection → Prop} (hm : Meets (Protected c payloads) past m Q) :
    Meets (Protected c payloads) past (client.withoutVision name m) Q := by
  unfold withoutVision
  split
  · exact .throw _
  · exact hm

theorem connectWithTls_meets (htls : client.configuration.tls = some tls) :
    Meets (Protected client.configuration payloads) past
      (client.connectWithTls command destinationHost destinationPort initialData env tls)
      fun now connection => connection.Safe client.configuration now := by
  unfold connectWithTls
  have hconnect : ∀ now attempt, Meets (Protected client.configuration payloads) now
      (client.openTls tls attempt >>= fun tlsConnection =>
        client.performBaseHandshake (.tls tlsConnection attempt.version) command destinationHost
          destinationPort initialData attempt)
      fun now connection => connection.Safe client.configuration now := fun now attempt =>
    (openTls_opens (from_base htls) _ now attempt).bind fun _ k hk =>
      performBaseHandshake_meets
        (show (VlessConnection.tls k attempt.version).Guarded client.configuration from hk)
        command destinationHost destinationPort initialData attempt
  dsimp only
  split
  · exact hconnect past _
  · exact withRetry_meets hconnect

theorem connectWithReality_meets {reality : RealityConfiguration}
    (hreality : client.configuration.reality = some reality) :
    Meets (Protected client.configuration payloads) past
      (client.connectWithReality command destinationHost destinationPort initialData env reality)
      fun now connection => connection.Safe client.configuration now :=
  withRetry_meets fun now attempt =>
    (openReality_opens hreality _ now attempt).bind fun _ k hk =>
      performBaseHandshake_meets
        (show (VlessConnection.reality k).Guarded client.configuration from hk)
        command destinationHost destinationPort initialData attempt

/-- **A connect.** Reality over WebSocket or HTTP upgrade is left out. -/
theorem connectWithCommand_meets
    (hset : client.configuration.tls.isSome ∨ client.configuration.reality.isSome ∧
      client.configuration.transport ≠ "ws" ∧ client.configuration.transport ≠ "httpupgrade") :
    Meets (Protected client.configuration payloads) past
      (client.connectWithCommand command destinationHost destinationPort initialData env)
      fun now connection => connection.Safe client.configuration now := by
  unfold connectWithCommand
  split
  · exact .throw _
  split
  · rename_i htransport
    refine withoutVision_meets ?_
    unfold connectWithWebSocket
    split
    · exact .throw _
    · rename_i tls _ htls
      exact connectStream_meets (openTls_opens (from_webSocket htls htransport)) fun _ hk => hk
    · rename_i hnone
      rw [hnone, htransport] at hset
      simp at hset
  · rename_i htransport
    refine withoutVision_meets ?_
    unfold connectWithHttpUpgrade
    split
    · exact .throw _
    · rename_i tls _ htls
      exact connectStream_meets (openTls_opens (from_base htls)) fun _ hk => hk
    · rename_i hnone
      rw [hnone, htransport] at hset
      simp at hset
  · rename_i htransport
    refine withoutVision_meets ?_
    unfold connectWithXHttp
    split
    · exact .throw _
    dsimp only
    split
    · exact .throw _
    split
    · rename_i reality _ hreality
      exact connectXHttpLayer_meets (openReality_opens hreality) fun hneeds => by cases hneeds
    · rename_i tls hnone htls
      exact connectXHttpLayer_meets (openTls_opens (from_xhttp htls htransport _)) fun _ =>
        ⟨_, rfl, from_xhttp htls htransport _⟩
    · rename_i hreality htls
      rw [htls, hreality] at hset
      simp at hset
  · refine withoutVision_meets ?_
    unfold connectWithGrpc
    split
    · exact .throw _
    · rename_i reality _ _ hreality
      exact connectStream_meets (openReality_opens hreality) fun _ hk => hk
    · rename_i tls _ _ htls
      exact connectStream_meets (openTls_opens (from_sanitized htls)) fun _ hk => hk
    · rename_i hreality htls
      rw [htls, hreality] at hset
      simp at hset
  · split
    · rename_i tls _ htls
      exact connectWithTls_meets htls
    · rename_i reality _ hreality
      exact connectWithReality_meets hreality
    · rename_i htls hreality
      rw [htls, hreality] at hset
      simp at hset

/-- The combinations that are refused before anything is opened: UDP to port 443 with
plain Vision, Vision over an HTTP layer, a transport without its configuration, and
XHTTP over QUIC. -/
def Unsupported (c : ProxyConfiguration) (command : VlessCommand) (destinationPort : Nat) : Prop :=
  (command = .udp ∧ destinationPort = 443 ∧ isVisionFlow c ∧ !allowUDP443 c) ∨
    (c.transport = "ws" ∧ (isVisionFlow c ∨ c.websocket = none)) ∨
    (c.transport = "httpupgrade" ∧ (isVisionFlow c ∨ c.httpUpgrade = none)) ∨
    (c.transport = "xhttp" ∧
      (isVisionFlow c ∨ c.xhttp = none ∨ decideXHttpHttpVersion c = .http3)) ∨
    (c.transport = "grpc" ∧ (isVisionFlow c ∨ c.grpc = none))

theorem withoutVision_throws {name : String} {m : Sends ProxyConnection}
    (h : isVisionFlow client.configuration ∨ ∃ e, m = .throw e) :
    ∃ e, client.withoutVision name m = .throw e := by
  unfold withoutVision
  split
  · exact ⟨_, rfl⟩
  · rename_i hflow
    exact h.resolve_left hflow

theorem connectWithCommand_throws
    (h : Unsupported client.configuration command destinationPort) :
    ∃ e, client.connectWithCommand command destinationHost destinationPort initialData env =
      .throw e := by
  unfold connectWithCommand
  split
  · exact ⟨_, rfl⟩
  rename_i hdropped
  rcases h.resolve_left hdropped with ⟨htransport, hwhy⟩ | ⟨htransport, hwhy⟩ | ⟨htransport, hwhy⟩ |
    ⟨htransport, hwhy⟩
  · rw [htransport]
    refine withoutVision_throws (hwhy.imp_right fun hnone => ?_)
    rw [connectWithWebSocket, hnone]
    exact ⟨_, rfl⟩
  · rw [htransport]
    refine withoutVision_throws (hwhy.imp_right fun hnone => ?_)
    rw [connectWithHttpUpgrade, hnone]
    exact ⟨_, rfl⟩
  · rw [htransport]
    refine withoutVision_throws (hwhy.imp_right fun hwhy => ?_)
    rw [connectWithXHttp]
    rcases hwhy with hnone | hquic
    · rw [hnone]
      exact ⟨_, rfl⟩
    · split
      · exact ⟨_, rfl⟩
      · dsimp only
        rw [if_pos hquic]
        exact ⟨_, rfl⟩
  · rw [htransport]
    refine withoutVision_throws (hwhy.imp_right fun hnone => ?_)
    rw [connectWithGrpc, hnone]
    exact ⟨_, rfl⟩

end Connect

end VlessClient

open VlessClient in
/-- **The configured protection is kept.** Every write of the request and of the payload
is made on a record connection that a TLS or Reality client has established from the
configuration, except that a Vision connection copies payload to the transport of its own
record connection once it has announced that on it. An unsupported combination throws and writes
nothing. -/
theorem session_protected (client : VlessClient)
    (hset : client.configuration.tls.isSome ∨ client.configuration.reality.isSome ∧
      client.configuration.transport ≠ "ws" ∧ client.configuration.transport ≠ "httpupgrade")
    (command : VlessCommand) (destinationHost : Text) (destinationPort : Nat)
    (initialData : Option Bytes) (env : Nat → Attempt) (events : List VisionEvent) :
    Allowed (Protected client.configuration (writesOf events)) []
        (client.session command destinationHost destinationPort initialData env events).written ∧
      (Unsupported client.configuration command destinationPort →
        ∃ e, client.session command destinationHost destinationPort initialData env events =
          .throw e) := by
  refine ⟨?_, fun hunsupported => ?_⟩
  · have hsession : Meets (Protected client.configuration (writesOf events)) []
        (client.session command destinationHost destinationPort initialData env events)
        fun now connection => connection.Safe client.configuration now :=
      (connectWithCommand_meets hset).bind fun _ _ hsafe =>
        Meets.foldlM (fun _ _ e he h => step_meets h e fun data outcomes hwrite =>
          List.mem_filterMap.2 ⟨e, he, by rw [hwrite]⟩) hsafe
    exact hsession.allowed
  · obtain ⟨e, he⟩ := @connectWithCommand_throws client command destinationHost destinationPort
      initialData env hunsupported
    refine ⟨e, ?_⟩
    rw [VlessClient.session, he]
    rfl

def visionClient : VlessClient where
  configuration :=
    { serverAddress := "example.org"
      serverPort := 443
      uuid := List.replicate 16 7
      flow := some "xtls-rprx-vision"
      tls := some { serverName := "example.org", allowInsecure := false } }

/-- The ServerHello of an inner TLS 1.3 connection arrives, a record of it is sent, and
then another one. -/
def innerTlsEvents : List VisionEvent :=
  [.receive serverHello13, .write [0x17, 0x03, 0x03, 0, 1, 9] fun _ => ⟨3, fun _ => 0⟩,
    .write [0x17, 0x03, 0x03, 0, 1, 5] fun _ => ⟨3, fun _ => 0⟩]

def smoothAttempt : Attempt := { outcomes := fun _ => ⟨3, fun _ => 0⟩ }

/-- The request is sent twice, and then an opening frame and the two records, all of them
on the connection of the second attempt. -/
theorem visionClient_protected :
    ((visionClient.session .tcp "192.0.2.1".toList 80 none
        (fun i => if i = 0 then { smoothAttempt with request := some .other } else smoothAttempt)
        innerTlsEvents).written.map fun w => (w.carrier.attempt, w.carrier.protection.isSome)) =
      [(0, true), (1, true), (1, true), (1, true), (1, false)] ∧
    Allowed (Protected visionClient.configuration (writesOf innerTlsEvents)) []
      (visionClient.session .tcp "192.0.2.1".toList 80 none
        (fun i => if i = 0 then { smoothAttempt with request := some .other } else smoothAttempt)
        innerTlsEvents).written :=
  ⟨by decide +kernel, (session_protected visionClient (.inl rfl) .tcp _ 80 none _ _).1⟩

/-- The second record is sent outside the outer TLS. -/
theorem visionClient_copies :
    visionClient.configuration.tls.isSome ∧
    ¬ ∀ w ∈ (visionClient.session .tcp "192.0.2.1".toList 80 none (fun _ => smoothAttempt)
        innerTlsEvents).written,
      w.carrier.Guarded visionClient.configuration True := by
  refine ⟨rfl, fun h => ?_⟩
  have hbare : ∃ w ∈ (visionClient.session .tcp "192.0.2.1".toList 80 none
      (fun _ => smoothAttempt) innerTlsEvents).written, w.carrier.protection = none := by
    decide +kernel
  obtain ⟨w, hw, hnone⟩ := hbare
  obtain ⟨p, hsome, -⟩ := h w hw
  rw [hnone] at hsome
  cases hsome

end Anywhere.Vless
