import Mathlib.Data.List.Induction
import Anywhere.Lib.Buckets
import Anywhere.Lib.Machine
import Anywhere.Shadowsocks.Protocol

/-!
# Anywhere — `ShadowsocksUdpSession`

All flows of one configuration share a socket. A reply is handed to the first flow
listed under its source, and when there is none to a flow on its port, which then
counts the source among its own hosts. The two indexes are derived from the
registrations and are updated next to them.

* `Indexed` — the indexes list exactly what the registrations say.
* `Named` — the hosts the events of a run have given to a token.
* `session_indexed` — what holds of the indexes after every run.
-/

namespace Anywhere.Shadowsocks

open Lib List

-- ----
-- The model

/-- A Kotlin `Long` from its value. -/
def toLong (n : Int) : Int := n.bmod (2 ^ 64)

/-- `Math.abs`; the least `Long` has no absolute value. -/
def mathAbs (n : Int) : Int := toLong n.natAbs

def readLongBE (bytes : Bytes) (offset : Nat) : Int :=
  toLong (((bytes.drop offset).take 8).foldl (fun v b => v * 256 + b.toNat) 0)

/-- The ciphers of the AES variant with the keys of the session: the packet header
under the last PSK, the key of a server session, and the AEAD with key and nonce. -/
structure AesVariant where
  ecbDecrypt : Bytes → Bytes
  deriveSessionKey : Int → Bytes
  openBody : Bytes → Bytes → Bytes → Option Bytes

/-- `Mode`, with the ciphers applied to their keys. -/
inductive Mode
  | legacy (decrypt : Bytes → Option Bytes)
  | ss2022AES (variant : AesVariant)
  | ss2022ChaCha (openBody : Bytes → Bytes → Option Bytes)

/-- `Registration`. A `LinkedHashSet` is a list in the order of insertion, so the
destination host comes first. -/
structure Registration (η : Type) where
  token : Nat
  port : Nat
  responseHosts : List Text
  hasLearnedSource : Bool
  handler : η

def Registration.dstHost {η : Type} (reg : Registration η) : Option Text := reg.responseHosts.head?

inductive State
  | idle | connecting | ready | failed | cancelled
  deriving DecidableEq

structure PendingSend where
  token : Nat
  dstHost : Text
  dstPort : Nat
  payload : Bytes

/-- Which index found the flow of a reply. -/
inductive Route
  | exact | portOnly
  deriving DecidableEq

structure Delivery (η : Type) where
  token : Nat
  handler : η
  host : Text
  payload : Bytes
  route : Route
  deriving DecidableEq

structure ShadowsocksUdpSession (η : Type) where
  state : State := .idle
  nextToken : Nat := 0
  registrations : Nat → Option (Registration η) := fun _ => none
  tokensByResponse : Buckets (Text × Nat) Nat := Buckets.empty
  tokensByPort : Buckets Nat Nat := Buckets.empty
  pendingSends : List PendingSend := []
  sessionID : Int := 0
  remoteSessionID : Int := 0
  remoteCipherKey : Option Bytes := none

/-- `LinkedHashSet.add`. -/
def insertHost (hosts : List Text) (host : Text) : List Text :=
  if host ∈ hosts then hosts else hosts ++ [host]

namespace ShadowsocksUdpSession

variable {η : Type}

def register (s : ShadowsocksUdpSession η) (dstHost : Text) (dstPort : Nat)
    (responseHostHints : List Text) (handler : η) : ShadowsocksUdpSession η :=
  let token := s.nextToken + 1
  let hosts := responseHostHints.foldl insertHost [dstHost]
  { s with
    nextToken := token
    registrations := Function.update s.registrations token
      (some ⟨token, dstPort, hosts, decide (hosts.length > 1), handler⟩)
    tokensByResponse := s.tokensByResponse.addAll (hosts.map (·, dstPort)) token
    tokensByPort := s.tokensByPort.add dstPort token
    state := if s.state = .idle then .connecting else s.state }

/-- One turn of the loop of `addResponseHints`: the hosts, the index and `inserted`. -/
def addHint (token port : Nat) (acc : List Text × Buckets (Text × Nat) Nat × Bool) (hint : Text) :
    List Text × Buckets (Text × Nat) Nat × Bool :=
  if hint ∈ acc.1 then acc
  else (acc.1 ++ [hint], acc.2.1.add (hint, port) token, true)

def addResponseHints (s : ShadowsocksUdpSession η) (token : Nat) (hints : List Text) :
    ShadowsocksUdpSession η :=
  match s.registrations token with
  | none => s
  | some reg =>
    let acc := hints.foldl (addHint token reg.port) (reg.responseHosts, s.tokensByResponse, false)
    { s with
      registrations := Function.update s.registrations token
        (some { reg with
          responseHosts := acc.1
          hasLearnedSource := acc.2.2 || reg.hasLearnedSource })
      tokensByResponse := acc.2.1 }

def unregister (s : ShadowsocksUdpSession η) (token : Nat) : ShadowsocksUdpSession η :=
  match s.registrations token with
  | none => s
  | some reg =>
    { s with
      registrations := Function.update s.registrations token none
      tokensByResponse := s.tokensByResponse.removeAll (reg.responseHosts.map (·, reg.port)) token
      tokensByPort := s.tokensByPort.remove reg.port token
      pendingSends := s.pendingSends.filter (·.token ≠ token) }

/-- `send`: what is not buffered leaves no trace in the session. -/
def send (s : ShadowsocksUdpSession η) (token : Nat) (dstHost : Text) (dstPort : Nat)
    (payload : Bytes) : ShadowsocksUdpSession η :=
  match s.registrations token with
  | none => s
  | some _ =>
    if s.state = .idle ∨ s.state = .connecting then
      { s with pendingSends := s.pendingSends ++ [⟨token, dstHost, dstPort, payload⟩] }
    else s

def cancel (s : ShadowsocksUdpSession η) : ShadowsocksUdpSession η :=
  if s.state = .cancelled then s
  else
    { s with
      state := .cancelled
      registrations := fun _ => none
      tokensByResponse := Buckets.empty
      tokensByPort := Buckets.empty
      pendingSends := [] }

/-- The task `beginConnect` posts when the socket is there. -/
def connected (s : ShadowsocksUdpSession η) : ShadowsocksUdpSession η :=
  if s.state = .cancelled then s else { s with state := .ready, pendingSends := [] }

/-- The task `beginConnect` posts when there is none. -/
def connectFailed (s : ShadowsocksUdpSession η) : ShadowsocksUdpSession η :=
  if s.state = .cancelled then s else { s with state := .failed, pendingSends := [] }

def firstRegistration (s : ShadowsocksUdpSession η) (tokens : List Nat) : Option (Registration η) :=
  tokens.findSome? s.registrations

def firstRegistrationWhere (s : ShadowsocksUdpSession η) (tokens : List Nat)
    (predicate : Registration η → Bool) : Option (Registration η) :=
  tokens.findSome? fun t => (s.registrations t).filter predicate

/-- `parseServerUDPBody`, up to the bytes `decodeUDPPacket` is called with. -/
def parseServerUDPBody (sessionID now : Int) (body : Bytes) : Option Bytes :=
  if body.length < 1 + 8 + 8 + 2 then none
  else if body.head? ≠ some 1 then none
  else if mathAbs (toLong (now - readLongBE body 1)) > 30 then none
  else if readLongBE body 9 ≠ sessionID then none
  else
    let paddingLen := (body.getD 17 0).toNat * 256 + (body.getD 18 0).toNat
    if body.length < 19 + paddingLen then none else some (body.drop (19 + paddingLen))

def cipherKey (s : ShadowsocksUdpSession η) (variant : AesVariant) (serverSession : Int) : Bytes :=
  match s.remoteCipherKey with
  | some cached =>
    if serverSession = s.remoteSessionID then cached else variant.deriveSessionKey serverSession
  | none => variant.deriveSessionKey serverSession

def decryptSS2022AES (s : ShadowsocksUdpSession η) (variant : AesVariant) (now : Int)
    (data : Bytes) :
    ShadowsocksUdpSession η × Option Bytes :=
  if data.length < 16 + 16 then (s, none)
  else
    let header := variant.ecbDecrypt (data.take 16)
    let serverSession := readLongBE header 0
    let key := s.cipherKey variant serverSession
    ({ s with remoteSessionID := serverSession, remoteCipherKey := some key },
      (variant.openBody key ((header.drop 4).take 12) (data.drop 16)).bind
        (parseServerUDPBody s.sessionID now))

def decryptSS2022ChaCha (s : ShadowsocksUdpSession η) (openBody : Bytes → Bytes → Option Bytes)
    (now : Int) (data : Bytes) : Option Bytes :=
  if data.length < 24 + 16 then none
  else
    (openBody (data.take 24) (data.drop 24)).bind fun body =>
      if body.length < 16 then none else parseServerUDPBody s.sessionID now (body.drop 16)

/-- `decryptPacket`, up to the bytes `decodeUDPPacket` is called with. -/
def decryptPacket (s : ShadowsocksUdpSession η) (mode : Mode) (now : Int) (data : Bytes) :
    ShadowsocksUdpSession η × Option Bytes :=
  match mode with
  | .legacy decrypt => (s, decrypt data)
  | .ss2022AES variant => s.decryptSS2022AES variant now data
  | .ss2022ChaCha openBody => (s, s.decryptSS2022ChaCha openBody now data)

/-- The flow a reply is for, and the index that finds it. -/
def target (s : ShadowsocksUdpSession η) (host : Text) (port : Nat) :
    Option (Registration η × Route) :=
  match (s.tokensByResponse (host, port)).bind s.firstRegistration with
  | some reg => some (reg, .exact)
  | none =>
    ((s.tokensByPort port).bind fun tokens =>
      (s.firstRegistrationWhere tokens (fun reg => !reg.hasLearnedSource)).or
        (s.firstRegistration tokens)).map (·, .portOnly)

/-- The port-only fallback pins the source of the reply. -/
def learn (s : ShadowsocksUdpSession η) (reg : Registration η) (host : Text) (port : Nat) :
    ShadowsocksUdpSession η :=
  { s with
    registrations := Function.update s.registrations reg.token
      (some { reg with
        responseHosts := insertHost reg.responseHosts host
        hasLearnedSource := true })
    tokensByResponse :=
      if host ∈ reg.responseHosts then s.tokensByResponse
      else s.tokensByResponse.add (host, port) reg.token }

/-- `handleReceivedDatagram` behind the decoding. -/
def dispatch (s : ShadowsocksUdpSession η) (packet : UdpPacket) :
    ShadowsocksUdpSession η × Option (Delivery η) :=
  match s.target packet.host packet.port with
  | none => (s, none)
  | some (reg, .exact) => (s, some ⟨reg.token, reg.handler, packet.host, packet.payload, .exact⟩)
  | some (reg, .portOnly) =>
    (s.learn reg packet.host packet.port,
      some ⟨reg.token, reg.handler, packet.host, packet.payload, .portOnly⟩)

def handleReceivedDatagram (s : ShadowsocksUdpSession η) (mode : Mode) (now : Int) (data : Bytes) :
    ShadowsocksUdpSession η × Option (Delivery η) :=
  match (s.decryptPacket mode now data).2.bind decodeUDPPacket with
  | none => ((s.decryptPacket mode now data).1, none)
  | some packet => (s.decryptPacket mode now data).1.dispatch packet

end ShadowsocksUdpSession

/-- What runs on the executor of the session. -/
inductive Event (η : Type)
  | register (dstHost : Text) (dstPort : Nat) (responseHostHints : List Text) (handler : η)
  | addResponseHints (token : Nat) (hints : List Text)
  | unregister (token : Nat)
  | send (token : Nat) (dstHost : Text) (dstPort : Nat) (payload : Bytes)
  | connected
  | connectFailed
  | datagram (now : Int) (data : Bytes)
  | cancel

namespace ShadowsocksUdpSession

variable {η : Type}

def step (mode : Mode) (s : ShadowsocksUdpSession η) : Event η → ShadowsocksUdpSession η
  | .register dstHost dstPort hints handler => s.register dstHost dstPort hints handler
  | .addResponseHints token hints => s.addResponseHints token hints
  | .unregister token => s.unregister token
  | .send token dstHost dstPort payload => s.send token dstHost dstPort payload
  | .connected => s.connected
  | .connectFailed => s.connectFailed
  | .datagram now data => (s.handleReceivedDatagram mode now data).1
  | .cancel => s.cancel

-- ----
-- The invariant

/-- The token is registered with this port and counts this host among its own. -/
def Answers (s : ShadowsocksUdpSession η) (key : Text × Nat) (t : Nat) : Prop :=
  ∃ reg, s.registrations t = some reg ∧ reg.port = key.2 ∧ key.1 ∈ reg.responseHosts

def OnPort (s : ShadowsocksUdpSession η) (port t : Nat) : Prop :=
  ∃ reg, s.registrations t = some reg ∧ reg.port = port

/-- The indexes list exactly what the registrations say. -/
structure Indexed (s : ShadowsocksUdpSession η) : Prop where
  fresh : ∀ {t reg}, s.registrations t = some reg → t ≤ s.nextToken ∧ reg.token = t
  byResponse : s.tokensByResponse.Indexes s.Answers
  byPort : s.tokensByPort.Indexes s.OnPort

/-- Fields the indexes do not depend on may change. -/
theorem Indexed.frame {s s' : ShadowsocksUdpSession η} (h : s.Indexed)
    (hnext : s'.nextToken = s.nextToken) (hregs : s'.registrations = s.registrations)
    (hresponse : s'.tokensByResponse = s.tokensByResponse)
    (hport : s'.tokensByPort = s.tokensByPort) : s'.Indexed where
  fresh := by
    rw [hregs, hnext]
    exact h.fresh
  byResponse := by
    rw [hresponse]
    refine h.byResponse.congr fun key t => ?_
    simp only [Answers, hregs]
  byPort := by
    rw [hport]
    refine h.byPort.congr fun port t => ?_
    simp only [OnPort, hregs]

theorem indexed_empty {s : ShadowsocksUdpSession η} (hregs : s.registrations = fun _ => none)
    (hresponse : s.tokensByResponse = Buckets.empty) (hport : s.tokensByPort = Buckets.empty) :
    s.Indexed where
  fresh := by simp [hregs]
  byResponse := by
    rw [hresponse]
    exact Buckets.indexes_empty (by simp [Answers, hregs])
  byPort := by
    rw [hport]
    exact Buckets.indexes_empty (by simp [OnPort, hregs])

-- ----
-- Registering

theorem mem_insertHost {hosts : List Text} {host h : Text} :
    h ∈ insertHost hosts host ↔ h ∈ hosts ∨ h = host := by
  unfold insertHost
  split <;> rename_i hmem
  · refine ⟨.inl, ?_⟩
    rintro (h' | rfl)
    · exact h'
    · exact hmem
  · simp

theorem prefix_insertHost (hosts : List Text) (host : Text) : hosts <+: insertHost hosts host := by
  unfold insertHost
  split
  · exact prefix_refl _
  · exact prefix_append _ _

theorem nodup_insertHost {hosts : List Text} (h : hosts.Nodup) (host : Text) :
    (insertHost hosts host).Nodup := by
  unfold insertHost
  split <;> rename_i hmem
  · exact h
  · rw [← concat_eq_append]
    exact h.concat hmem

theorem prefix_insertHosts (hosts hints : List Text) : hosts <+: hints.foldl insertHost hosts := by
  induction hints generalizing hosts with
  | nil => exact prefix_refl _
  | cons hint hints ih => exact (prefix_insertHost hosts hint).trans (ih _)

theorem insertHosts {hosts : List Text} (h : hosts.Nodup) (hints : List Text) :
    (hints.foldl insertHost hosts).Nodup ∧
      ∀ host, host ∈ hints.foldl insertHost hosts ↔ host ∈ hosts ∨ host ∈ hints := by
  induction hints generalizing hosts with
  | nil => exact ⟨h, by simp⟩
  | cons hint hints ih =>
    obtain ⟨hnodup, hmem⟩ := ih (nodup_insertHost h hint)
    refine ⟨hnodup, fun host => ?_⟩
    rw [foldl_cons, hmem, mem_insertHost, mem_cons]
    exact or_assoc

theorem map_port_nodup {hosts : List Text} (h : hosts.Nodup) (port : Nat) :
    (hosts.map (·, port)).Nodup :=
  h.map fun _ _ heq => (Prod.mk.inj heq).1

theorem not_registered_next {s : ShadowsocksUdpSession η} (h : s.Indexed) :
    s.registrations (s.nextToken + 1) = none := by
  rcases hreg : s.registrations (s.nextToken + 1) with _ | reg
  · rfl
  · have := (h.fresh hreg).1
    omega

theorem register_indexed {s : ShadowsocksUdpSession η} (h : s.Indexed) (dstHost : Text)
    (dstPort : Nat) (hints : List Text) (handler : η) :
    (s.register dstHost dstPort hints handler).Indexed where
  fresh := by
    intro t reg hreg
    by_cases ht : t = s.nextToken + 1
    · subst ht
      simp only [register, Function.update_self, Option.some.injEq] at hreg
      rw [← hreg]
      exact ⟨Nat.le_refl _, rfl⟩
    · simp only [register, Function.update_of_ne ht] at hreg
      obtain ⟨hle, htok⟩ := h.fresh hreg
      exact ⟨Nat.le_succ_of_le hle, htok⟩
  byResponse := by
    have hnew := not_registered_next h
    obtain ⟨hnodup, -⟩ := insertHosts (nodup_singleton dstHost) hints
    refine (h.byResponse.addAll (map_port_nodup hnodup dstPort) ?_).congr ?_
    · rintro key - ⟨reg, hreg, -⟩
      rw [hnew] at hreg
      cases hreg
    · rintro ⟨host, port⟩ t
      by_cases ht : t = s.nextToken + 1
      · subst ht
        simp [Answers, register, hnew, and_comm, eq_comm]
      · simp [Answers, register, ht]
  byPort := by
    have hnew := not_registered_next h
    refine (h.byPort.addAll (nodup_singleton dstPort) (t := s.nextToken + 1) ?_).congr ?_
    · rintro port - ⟨reg, hreg, -⟩
      rw [hnew] at hreg
      cases hreg
    · intro port t
      by_cases ht : t = s.nextToken + 1
      · subst ht
        simp [OnPort, register, hnew, eq_comm]
      · simp [OnPort, register, ht]

-- ----
-- New hosts of a registered token

/-- Hosts that are new to a registration go into it and under the index. -/
theorem extend_indexed {s s' : ShadowsocksUdpSession η} (h : s.Indexed) {t : Nat}
    {reg : Registration η} (hreg : s.registrations t = some reg) (hosts : List Text)
    (hnodup : hosts.Nodup) (hnew : ∀ host ∈ hosts, host ∉ reg.responseHosts) (learned : Bool)
    (hnext : s'.nextToken = s.nextToken)
    (hregs : s'.registrations = Function.update s.registrations t
      (some { reg with responseHosts := reg.responseHosts ++ hosts, hasLearnedSource := learned }))
    (hresponse : s'.tokensByResponse = s.tokensByResponse.addAll (hosts.map (·, reg.port)) t)
    (hport : s'.tokensByPort = s.tokensByPort) : s'.Indexed where
  fresh := by
    intro t' reg' hreg'
    rw [hnext]
    by_cases ht : t' = t
    · subst ht
      rw [hregs, Function.update_self, Option.some.injEq] at hreg'
      obtain ⟨hle, htok⟩ := h.fresh hreg
      rw [← hreg']
      exact ⟨hle, htok⟩
    · rw [hregs, Function.update_of_ne ht] at hreg'
      exact h.fresh hreg'
  byResponse := by
    rw [hresponse]
    refine (h.byResponse.addAll (map_port_nodup hnodup reg.port) ?_).congr ?_
    · intro key hkey
      obtain ⟨host, hhost, rfl⟩ := mem_map.1 hkey
      rintro ⟨reg', hreg', -, hmem⟩
      rw [hreg, Option.some.injEq] at hreg'
      rw [← hreg'] at hmem
      exact hnew host hhost hmem
    · rintro ⟨host, port⟩ t'
      by_cases ht : t' = t
      · subst ht
        simp only [Answers, hregs, hreg, Function.update_self, Option.some.injEq, exists_eq_left',
          mem_append, mem_map, Prod.mk.injEq, true_and]
        constructor
        · rintro (⟨hp, hmem⟩ | ⟨host', hmem, rfl, hp⟩)
          · exact ⟨hp, .inl hmem⟩
          · exact ⟨hp, .inr hmem⟩
        · rintro ⟨hp, hmem | hmem⟩
          · exact .inl ⟨hp, hmem⟩
          · exact .inr ⟨host, hmem, rfl, hp⟩
      · simp [Answers, hregs, ht]
  byPort := by
    rw [hport]
    refine h.byPort.congr fun port t' => ?_
    by_cases ht : t' = t
    · subst ht
      simp [OnPort, hregs, hreg]
    · simp [OnPort, hregs, Function.update_of_ne ht]

/-- The loop of `addResponseHints` adds the hints that are new, each once. -/
theorem addHints (token port : Nat) (hints : List Text) (hosts : List Text)
    (b : Buckets (Text × Nat) Nat) (inserted : Bool) :
    ∃ new : List Text, new.Nodup ∧ (∀ host ∈ new, host ∉ hosts) ∧
      (∀ host, host ∈ hosts ++ new ↔ host ∈ hosts ∨ host ∈ hints) ∧
      ∃ inserted', hints.foldl (addHint token port) (hosts, b, inserted) =
        (hosts ++ new, b.addAll (new.map (·, port)) token, inserted') := by
  induction hints generalizing hosts b inserted with
  | nil => exact ⟨[], nodup_nil, by simp, by simp, inserted, by simp [Buckets.addAll]⟩
  | cons hint hints ih =>
    rw [foldl_cons, addHint]
    by_cases hmem : hint ∈ hosts
    · obtain ⟨new, hnodup, hnew, hall, inserted', heq⟩ := ih hosts b inserted
      refine ⟨new, hnodup, hnew, fun host => ?_, inserted', by simpa [hmem] using heq⟩
      rw [hall, mem_cons]
      refine ⟨?_, ?_⟩
      · rintro (h | h)
        · exact .inl h
        · exact .inr (.inr h)
      · rintro (h | rfl | h)
        · exact .inl h
        · exact .inl hmem
        · exact .inr h
    · obtain ⟨new, hnodup, hnew, hall, inserted', heq⟩ :=
        ih (hosts ++ [hint]) (b.add (hint, port) token) true
      refine ⟨hint :: new, ?_, ?_, fun host => ?_, inserted', ?_⟩
      · rw [nodup_cons]
        exact ⟨fun h => hnew hint h (by simp), hnodup⟩
      · intro host hhost
        rcases mem_cons.1 hhost with rfl | hhost
        · exact hmem
        · exact fun h => hnew host hhost (by simp [h])
      · have := hall host
        rw [append_assoc] at this
        rw [show hosts ++ hint :: new = hosts ++ ([hint] ++ new) from rfl, this]
        simp [or_assoc]
      · simp only [hmem, if_false]
        rw [heq, append_assoc]
        rfl

theorem addResponseHints_indexed {s : ShadowsocksUdpSession η} (h : s.Indexed) (token : Nat)
    (hints : List Text) : (s.addResponseHints token hints).Indexed := by
  unfold addResponseHints
  rcases hreg : s.registrations token with _ | reg
  · exact h
  · obtain ⟨new, hnodup, hnew, -, inserted, heq⟩ :=
      addHints token reg.port hints reg.responseHosts s.tokensByResponse false
    simp only [heq]
    exact extend_indexed h hreg new hnodup hnew _ rfl rfl rfl rfl

theorem learn_indexed {s : ShadowsocksUdpSession η} (h : s.Indexed) {reg : Registration η}
    (hreg : s.registrations reg.token = some reg) (host : Text) :
    (s.learn reg host reg.port).Indexed := by
  by_cases hmem : host ∈ reg.responseHosts
  · refine extend_indexed h hreg [] nodup_nil (by simp) true rfl ?_ ?_ rfl
    · simp [learn, insertHost, hmem]
    · simp [learn, hmem, Buckets.addAll]
  · refine extend_indexed h hreg [host] (nodup_singleton host) (by simpa) true rfl ?_ ?_ rfl
    · simp [learn, insertHost, hmem]
    · simp [learn, hmem, Buckets.addAll]

-- ----
-- Unregistering

theorem answers_mem {s : ShadowsocksUdpSession η} {t : Nat} {reg : Registration η}
    (hreg : s.registrations t = some reg) (key : Text × Nat) (h : s.Answers key t) :
    key ∈ reg.responseHosts.map (·, reg.port) := by
  obtain ⟨reg', hreg', hport, hmem⟩ := h
  rw [hreg, Option.some.injEq] at hreg'
  subst hreg'
  exact mem_map.2 ⟨key.1, hmem, by rw [hport]⟩

theorem onPort_mem {s : ShadowsocksUdpSession η} {t : Nat} {reg : Registration η}
    (hreg : s.registrations t = some reg) (port : Nat) (h : s.OnPort port t) :
    port ∈ [reg.port] := by
  obtain ⟨reg', hreg', hport⟩ := h
  rw [hreg, Option.some.injEq] at hreg'
  rw [hreg', hport]
  exact mem_singleton_self port

theorem unregister_indexed {s : ShadowsocksUdpSession η} (h : s.Indexed) (token : Nat) :
    (s.unregister token).Indexed := by
  unfold unregister
  rcases hreg : s.registrations token with _ | reg
  · exact h
  · refine ⟨?_, ?_, ?_⟩
    · intro t reg' hreg'
      by_cases ht : t = token
      · subst ht
        simp at hreg'
      · simp only [Function.update_of_ne ht] at hreg'
        exact h.fresh hreg'
    · refine (h.byResponse.removeAll (answers_mem hreg)).congr ?_
      rintro ⟨host, port⟩ t
      by_cases ht : t = token
      · subst ht
        simp [Answers]
      · simp [Answers, ht]
    · refine (h.byPort.removeAll (onPort_mem hreg)).congr ?_
      intro port t
      by_cases ht : t = token
      · subst ht
        simp [OnPort]
      · simp [OnPort, ht]

-- ----
-- Replies

theorem firstRegistration_mem {s : ShadowsocksUdpSession η} {tokens : List Nat}
    {reg : Registration η} (h : s.firstRegistration tokens = some reg) :
    ∃ t ∈ tokens, s.registrations t = some reg :=
  List.exists_of_findSome?_eq_some h

theorem firstRegistrationWhere_mem {s : ShadowsocksUdpSession η} {tokens : List Nat}
    {predicate : Registration η → Bool} {reg : Registration η}
    (h : s.firstRegistrationWhere tokens predicate = some reg) :
    ∃ t ∈ tokens, s.registrations t = some reg := by
  obtain ⟨t, ht, hreg⟩ := List.exists_of_findSome?_eq_some h
  exact ⟨t, ht, (Option.filter_eq_some_iff.1 hreg).1⟩

theorem target_registered {s : ShadowsocksUdpSession η} (h : s.Indexed) {host : Text} {port : Nat}
    {reg : Registration η} {route : Route} (htarget : s.target host port = some (reg, route)) :
    s.registrations reg.token = some reg ∧ reg.port = port := by
  unfold target at htarget
  split at htarget
  · rename_i reg' hfirst
    obtain ⟨rfl, -⟩ := Prod.mk.inj (Option.some.inj htarget)
    obtain ⟨tokens, htokens, hfirst⟩ := Option.bind_eq_some_iff.1 hfirst
    obtain ⟨t, ht, hreg⟩ := firstRegistration_mem hfirst
    have hlisted : t ∈ s.tokensByResponse.listed (host, port) := by rwa [Buckets.listed, htokens]
    obtain ⟨reg', hreg', hport, -⟩ := (h.byResponse.mem_iff _ t).1 hlisted
    rw [hreg, Option.some.injEq] at hreg'
    rw [(h.fresh hreg).2]
    exact ⟨hreg, hreg' ▸ hport⟩
  · obtain ⟨reg', hfound, heq⟩ := Option.map_eq_some_iff.1 htarget
    obtain ⟨rfl, -⟩ := Prod.mk.inj heq
    obtain ⟨tokens, htokens, hfirst⟩ := Option.bind_eq_some_iff.1 hfound
    have hmem : ∃ t ∈ tokens, s.registrations t = some reg' := by
      rcases Option.or_eq_some_iff.1 hfirst with hfirst | ⟨-, hfirst⟩
      · exact firstRegistrationWhere_mem hfirst
      · exact firstRegistration_mem hfirst
    obtain ⟨t, ht, hreg⟩ := hmem
    have hlisted : t ∈ s.tokensByPort.listed port := by rwa [Buckets.listed, htokens]
    obtain ⟨reg'', hreg'', hport⟩ := (h.byPort.mem_iff _ t).1 hlisted
    rw [hreg, Option.some.injEq] at hreg''
    rw [(h.fresh hreg).2]
    exact ⟨hreg, hreg'' ▸ hport⟩

theorem dispatch_indexed {s : ShadowsocksUdpSession η} (h : s.Indexed) (packet : UdpPacket) :
    (s.dispatch packet).1.Indexed := by
  unfold dispatch
  split
  · exact h
  · exact h
  · rename_i reg htarget
    obtain ⟨hreg, hport⟩ := target_registered h htarget
    rw [← hport]
    exact learn_indexed h hreg packet.host

/-- Decrypting changes nothing but the cached key. -/
theorem decryptPacket_frame (s : ShadowsocksUdpSession η) (mode : Mode) (now : Int) (data : Bytes) :
    ∃ sid key, (s.decryptPacket mode now data).1 =
      { s with remoteSessionID := sid, remoteCipherKey := key } := by
  rcases mode with decrypt | variant | openBody
  · exact ⟨_, _, rfl⟩
  · show ∃ sid key, (s.decryptSS2022AES variant now data).1 = _
    unfold decryptSS2022AES
    split
    · exact ⟨_, _, rfl⟩
    · exact ⟨_, _, rfl⟩
  · exact ⟨_, _, rfl⟩

theorem Indexed.decryptPacket {s : ShadowsocksUdpSession η} (h : s.Indexed)
    (mode : Mode) (now : Int) (data : Bytes) : (s.decryptPacket mode now data).1.Indexed ∧
      (s.decryptPacket mode now data).1.registrations = s.registrations ∧
      (s.decryptPacket mode now data).1.tokensByResponse = s.tokensByResponse := by
  obtain ⟨sid, key, hs⟩ := s.decryptPacket_frame mode now data
  rw [hs]
  exact ⟨h.frame rfl rfl rfl rfl, rfl, rfl⟩

theorem handleReceivedDatagram_indexed {s : ShadowsocksUdpSession η} (h : s.Indexed) (mode : Mode)
    (now : Int) (data : Bytes) : (s.handleReceivedDatagram mode now data).1.Indexed := by
  have hdec := (h.decryptPacket mode now data).1
  unfold handleReceivedDatagram
  split
  · exact hdec
  · exact dispatch_indexed hdec _

-- ----
-- Steps and runs

/-- Every task of the executor keeps the indexes. -/
theorem step_indexed (mode : Mode) {s : ShadowsocksUdpSession η} (h : s.Indexed) (e : Event η) :
    (s.step mode e).Indexed := by
  rcases e with ⟨dstHost, dstPort, hints, handler⟩ | ⟨token, hints⟩ | token |
    ⟨token, dstHost, dstPort, payload⟩ | _ | _ | ⟨now, data⟩ | _
  · exact register_indexed h dstHost dstPort hints handler
  · exact addResponseHints_indexed h token hints
  · exact unregister_indexed h token
  · show (s.send token dstHost dstPort payload).Indexed
    unfold send
    split
    · exact h
    · split
      · exact h.frame rfl rfl rfl rfl
      · exact h
  · show s.connected.Indexed
    unfold connected
    split
    · exact h
    · exact h.frame rfl rfl rfl rfl
  · show s.connectFailed.Indexed
    unfold connectFailed
    split
    · exact h
    · exact h.frame rfl rfl rfl rfl
  · exact handleReceivedDatagram_indexed h mode now data
  · show s.cancel.Indexed
    unfold cancel
    split
    · exact h
    · exact indexed_empty rfl rfl rfl

def initial (sessionID : Int) : ShadowsocksUdpSession η := { sessionID := sessionID }

def after (mode : Mode) (sessionID : Int) (es : List (Event η)) : ShadowsocksUdpSession η :=
  run (step mode) (initial sessionID) es

theorem after_indexed (mode : Mode) (sessionID : Int) (es : List (Event η)) :
    (after mode sessionID es).Indexed :=
  run_invariant (I := Indexed) (fun _ e h => step_indexed mode h e) (indexed_empty rfl rfl rfl) es

theorem after_append (mode : Mode) (sessionID : Int) (es : List (Event η)) (e : Event η) :
    after mode sessionID (es ++ [e]) = (after mode sessionID es).step mode e :=
  run_append _ _ es [e]

-- ----
-- Where the hosts of a token come from

/-- The event gives the host to the token: as its destination, as a hint, or as the
source of a reply that came to it by the port alone. -/
def Names (mode : Mode) (s : ShadowsocksUdpSession η) (t : Nat) (host : Text) : Event η → Prop
  | .register dstHost _ hints _ => t = s.nextToken + 1 ∧ (host = dstHost ∨ host ∈ hints)
  | .addResponseHints token hints => t = token ∧ (s.registrations t).isSome ∧ host ∈ hints
  | .datagram now data => ∃ d, (s.handleReceivedDatagram mode now data).2 = some d ∧
      d.token = t ∧ d.route = .portOnly ∧ d.host = host
  | _ => False

/-- Some event of the run gives the host to the token. -/
def Named (mode : Mode) (sessionID : Int) (es : List (Event η)) (t : Nat) (host : Text) : Prop :=
  ∃ es₁ e es₂, es = es₁ ++ e :: es₂ ∧ Names mode (after mode sessionID es₁) t host e

def Opened (mode : Mode) (sessionID : Int) (es : List (Event η)) (t port : Nat) : Prop :=
  ∃ es₁ dstHost hints handler es₂, es = es₁ ++ .register dstHost port hints handler :: es₂ ∧
    t = (after mode sessionID es₁).nextToken + 1

/-- What a step does to the registration of a token that is registered behind it. -/
inductive Follows (mode : Mode) (s : ShadowsocksUdpSession η) (e : Event η) (t : Nat)
    (reg' : Registration η) : Prop
  | kept (reg : Registration η) (hreg : s.registrations t = some reg) (hport : reg'.port = reg.port)
      (hold : reg.responseHosts <+: reg'.responseHosts)
      (hhosts : ∀ host, host ∈ reg'.responseHosts ↔
        host ∈ reg.responseHosts ∨ Names mode s t host e)
  | opened (dstHost : Text) (hints : List Text) (handler : η)
      (he : e = .register dstHost reg'.port hints handler) (ht : t = s.nextToken + 1)
      (hdst : reg'.dstHost = some dstHost)
      (hhosts : ∀ host, host ∈ reg'.responseHosts ↔ Names mode s t host e)

theorem follows_same {mode : Mode} {s : ShadowsocksUdpSession η} {e : Event η} {t : Nat}
    {reg : Registration η} (hreg : s.registrations t = some reg)
    (hno : ∀ host, ¬ Names mode s t host e) : Follows mode s e t reg :=
  .kept reg hreg rfl (prefix_refl _) fun host => by simp [hno host]

theorem register_follows (mode : Mode) {s : ShadowsocksUdpSession η} {t : Nat}
    {reg' : Registration η} (dstHost : Text) (dstPort : Nat) (hints : List Text) (handler : η)
    (hreg' : (s.register dstHost dstPort hints handler).registrations t = some reg') :
    Follows mode s (.register dstHost dstPort hints handler) t reg' := by
  by_cases ht : t = s.nextToken + 1
  · subst ht
    simp only [register, Function.update_self, Option.some.injEq] at hreg'
    subst hreg'
    refine .opened dstHost hints handler rfl rfl ?_ fun host => ?_
    · obtain ⟨rest, hrest⟩ := prefix_insertHosts [dstHost] hints
      rw [Registration.dstHost, ← hrest]
      rfl
    rw [(insertHosts (nodup_singleton dstHost) hints).2]
    simp [Names]
  · simp only [register, Function.update_of_ne ht] at hreg'
    exact follows_same hreg' fun host hn => ht hn.1

theorem addResponseHints_follows (mode : Mode) {s : ShadowsocksUdpSession η} {t : Nat}
    {reg' : Registration η} (token : Nat) (hints : List Text)
    (hreg' : (s.addResponseHints token hints).registrations t = some reg') :
    Follows mode s (.addResponseHints token hints) t reg' := by
  unfold addResponseHints at hreg'
  rcases hreg : s.registrations token with _ | reg
  · simp only [hreg] at hreg'
    refine follows_same hreg' fun host hn => ?_
    obtain ⟨rfl, hsome, -⟩ := hn
    rw [hreg] at hsome
    cases hsome
  · by_cases ht : t = token
    · subst ht
      obtain ⟨new, -, -, hall, inserted, heq⟩ :=
        addHints t reg.port hints reg.responseHosts s.tokensByResponse false
      simp only [hreg, heq, Function.update_self, Option.some.injEq] at hreg'
      subst hreg'
      refine .kept reg hreg rfl (prefix_append _ _) fun host => ?_
      rw [hall]
      simp [Names, hreg]
    · simp only [hreg, Function.update_of_ne ht] at hreg'
      exact follows_same hreg' fun host hn => ht hn.1

theorem dispatch_follows {s : ShadowsocksUdpSession η} (h : s.Indexed)
    {packet : UdpPacket} {t : Nat} {reg' : Registration η}
    (hreg' : (s.dispatch packet).1.registrations t = some reg') :
    ∃ reg, s.registrations t = some reg ∧ reg'.port = reg.port ∧
      reg.responseHosts <+: reg'.responseHosts ∧
      ∀ host, host ∈ reg'.responseHosts ↔ host ∈ reg.responseHosts ∨
        ∃ d, (s.dispatch packet).2 = some d ∧ d.token = t ∧ d.route = .portOnly ∧
          d.host = host := by
  unfold dispatch at hreg' ⊢
  rcases htarget : s.target packet.host packet.port with _ | ⟨reg, route⟩
  · simp only [htarget] at hreg' ⊢
    exact ⟨reg', hreg', rfl, prefix_refl _, by simp⟩
  · rcases route with _ | _
    · simp only [htarget] at hreg' ⊢
      exact ⟨reg', hreg', rfl, prefix_refl _, by simp⟩
    · simp only [htarget] at hreg' ⊢
      obtain ⟨hreg, -⟩ := target_registered h htarget
      by_cases ht : t = reg.token
      · subst ht
        simp only [learn, Function.update_self, Option.some.injEq] at hreg'
        subst hreg'
        refine ⟨reg, hreg, rfl, prefix_insertHost _ _, fun host => ?_⟩
        rw [mem_insertHost]
        simp [eq_comm]
      · simp only [learn, Function.update_of_ne ht] at hreg'
        refine ⟨reg', hreg', rfl, prefix_refl _, fun host => ?_⟩
        simp [Ne.symm ht]

theorem handleReceivedDatagram_follows (mode : Mode) {s : ShadowsocksUdpSession η} (h : s.Indexed)
    {t : Nat} {reg' : Registration η} (now : Int) (data : Bytes)
    (hreg' : (s.handleReceivedDatagram mode now data).1.registrations t = some reg') :
    Follows mode s (.datagram now data) t reg' := by
  obtain ⟨hdec, hregs, -⟩ := h.decryptPacket mode now data
  rcases hpacket : (s.decryptPacket mode now data).2.bind decodeUDPPacket with _ | packet
  · simp only [handleReceivedDatagram, hpacket, hregs] at hreg'
    refine follows_same hreg' fun host hn => ?_
    simp [Names, handleReceivedDatagram, hpacket] at hn
  · simp only [handleReceivedDatagram, hpacket] at hreg'
    obtain ⟨reg, hreg, hport, hold, hhosts⟩ := dispatch_follows hdec hreg'
    rw [hregs] at hreg
    refine .kept reg hreg hport hold fun host => ?_
    rw [hhosts]
    simp [Names, handleReceivedDatagram, hpacket]

theorem step_follows (mode : Mode) {s : ShadowsocksUdpSession η} (h : s.Indexed) (e : Event η)
    {t : Nat} {reg' : Registration η} (hreg' : (s.step mode e).registrations t = some reg') :
    Follows mode s e t reg' := by
  rcases e with ⟨dstHost, dstPort, hints, handler⟩ | ⟨token, hints⟩ | token |
    ⟨token, dstHost, dstPort, payload⟩ | _ | _ | ⟨now, data⟩ | _
  · exact register_follows mode dstHost dstPort hints handler hreg'
  · exact addResponseHints_follows mode token hints hreg'
  · refine follows_same ?_ fun _ hn => hn
    simp only [step, unregister] at hreg'
    split at hreg'
    · exact hreg'
    · by_cases ht : t = token
      · simp [ht] at hreg'
      · simpa [ht] using hreg'
  · refine follows_same ?_ fun _ hn => hn
    simp only [step, send] at hreg'
    split at hreg'
    · exact hreg'
    · split at hreg' <;> exact hreg'
  · refine follows_same ?_ fun _ hn => hn
    simp only [step, connected] at hreg'
    split at hreg' <;> exact hreg'
  · refine follows_same ?_ fun _ hn => hn
    simp only [step, connectFailed] at hreg'
    split at hreg' <;> exact hreg'
  · exact handleReceivedDatagram_follows mode h now data hreg'
  · refine follows_same ?_ fun _ hn => hn
    simp only [step, cancel] at hreg'
    split at hreg'
    · exact hreg'
    · cases hreg'

theorem nextToken_le_step (mode : Mode) (s : ShadowsocksUdpSession η) (e : Event η) :
    s.nextToken ≤ (s.step mode e).nextToken := by
  rcases e with ⟨dstHost, dstPort, hints, handler⟩ | ⟨token, hints⟩ | token |
    ⟨token, dstHost, dstPort, payload⟩ | _ | _ | ⟨now, data⟩ | _
  · exact Nat.le_succ _
  · simp only [step, addResponseHints]
    split <;> exact Nat.le_refl _
  · simp only [step, unregister]
    split <;> exact Nat.le_refl _
  · simp only [step, send]
    split
    · exact Nat.le_refl _
    · split <;> exact Nat.le_refl _
  · simp only [step, connected]
    split <;> exact Nat.le_refl _
  · simp only [step, connectFailed]
    split <;> exact Nat.le_refl _
  · obtain ⟨sid, key, hs⟩ := s.decryptPacket_frame mode now data
    simp only [step, handleReceivedDatagram, hs]
    split
    · exact Nat.le_refl _
    · unfold dispatch
      split <;> exact Nat.le_refl _
  · simp only [step, cancel]
    split <;> exact Nat.le_refl _

theorem delivery_registered {mode : Mode} {s : ShadowsocksUdpSession η} (h : s.Indexed) {now : Int}
    {data : Bytes} {d : Delivery η} (hd : (s.handleReceivedDatagram mode now data).2 = some d) :
    ∃ reg, s.registrations d.token = some reg := by
  obtain ⟨hdec, hregs, -⟩ := h.decryptPacket mode now data
  unfold handleReceivedDatagram at hd
  split at hd
  · cases hd
  · unfold dispatch at hd
    split at hd
    · cases hd
    · rename_i reg htarget
      obtain rfl := Option.some.inj hd
      exact ⟨reg, hregs ▸ (target_registered hdec htarget).1⟩
    · rename_i reg htarget
      obtain rfl := Option.some.inj hd
      exact ⟨reg, hregs ▸ (target_registered hdec htarget).1⟩

theorem names_le (mode : Mode) {s : ShadowsocksUdpSession η} (h : s.Indexed) {e : Event η} {t : Nat}
    {host : Text} (hn : Names mode s t host e) : t ≤ (s.step mode e).nextToken := by
  rcases e with ⟨dstHost, dstPort, hints, handler⟩ | ⟨token, hints⟩ | token |
    ⟨token, dstHost, dstPort, payload⟩ | _ | _ | ⟨now, data⟩ | _
  · exact Nat.le_of_eq hn.1
  · obtain ⟨reg, hreg⟩ := Option.isSome_iff_exists.1 hn.2.1
    exact Nat.le_trans (h.fresh hreg).1 (nextToken_le_step mode s _)
  · exact hn.elim
  · exact hn.elim
  · exact hn.elim
  · exact hn.elim
  · obtain ⟨d, hd, rfl, -, -⟩ := hn
    obtain ⟨reg, hreg⟩ := delivery_registered h hd
    exact Nat.le_trans (h.fresh hreg).1 (nextToken_le_step mode s _)
  · exact hn.elim

theorem named_append {mode : Mode} {sessionID : Int} {es : List (Event η)} {e : Event η} {t : Nat}
    {host : Text} :
    Named mode sessionID (es ++ [e]) t host ↔
      Named mode sessionID es t host ∨ Names mode (after mode sessionID es) t host e := by
  constructor
  · rintro ⟨es₁, e', es₂, heq, hn⟩
    rcases eq_nil_or_concat es₂ with rfl | ⟨es₃, e'', rfl⟩
    · obtain ⟨rfl, he⟩ := append_inj' heq rfl
      obtain rfl : e = e' := by simpa using he
      exact .inr hn
    · rw [concat_eq_append, ← cons_append, ← append_assoc] at heq
      obtain ⟨rfl, -⟩ := append_inj' heq rfl
      exact .inl ⟨es₁, e', es₃, rfl, hn⟩
  · rintro (⟨es₁, e', es₂, rfl, hn⟩ | hn)
    · exact ⟨es₁, e', es₂ ++ [e], by simp, hn⟩
    · exact ⟨es, e, [], rfl, hn⟩

theorem named_le {mode : Mode} {sessionID : Int} {es : List (Event η)} {t : Nat} {host : Text}
    (hn : Named mode sessionID es t host) : t ≤ (after mode sessionID es).nextToken := by
  induction es using List.reverseRecOn with
  | nil =>
    obtain ⟨es₁, e, es₂, heq, -⟩ := hn
    simp at heq
  | append_singleton es e ih =>
    rw [after_append]
    rcases named_append.1 hn with hn | hn
    · exact Nat.le_trans (ih hn) (nextToken_le_step mode _ e)
    · exact names_le mode (after_indexed mode sessionID es) hn

/-- The hosts of a registered token are those the run has given to it, and its port
is the one it was registered with. -/
theorem registered_named (mode : Mode) (sessionID : Int) (es : List (Event η)) {t : Nat}
    {reg : Registration η} (hreg : (after mode sessionID es).registrations t = some reg) :
    Opened mode sessionID es t reg.port ∧
      ∀ host, host ∈ reg.responseHosts ↔ Named mode sessionID es t host := by
  induction es using List.reverseRecOn generalizing reg with
  | nil => cases hreg
  | append_singleton es e ih =>
    rw [after_append] at hreg
    rcases step_follows mode (after_indexed mode sessionID es) e hreg with
      ⟨reg₀, hreg₀, hport, -, hhosts⟩ | ⟨dstHost, hints, handler, he, ht, -, hhosts⟩
    · obtain ⟨⟨es₁, dstHost, hints, handler, es₂, rfl, ht⟩, hnamed⟩ := ih hreg₀
      refine ⟨⟨es₁, dstHost, hints, handler, es₂ ++ [e], by simp [hport], ht⟩, fun host => ?_⟩
      rw [hhosts, hnamed, named_append]
    · refine ⟨⟨es, dstHost, hints, handler, [], by rw [he], ht⟩, fun host => ?_⟩
      rw [hhosts, named_append]
      refine ⟨.inr, ?_⟩
      rintro (hn | hn)
      · have := named_le hn
        omega
      · exact hn

-- ----
-- The index invariant

theorem unregister_listed {s : ShadowsocksUdpSession η} (h : s.Indexed) (token : Nat) :
    (∀ key, (s.unregister token).tokensByResponse.listed key =
        (s.tokensByResponse.listed key).filter (· ≠ token)) ∧
      ∀ port, (s.unregister token).tokensByPort.listed port =
        (s.tokensByPort.listed port).filter (· ≠ token) := by
  unfold unregister
  rcases hreg : s.registrations token with _ | reg
  · -- a token that is not registered is listed nowhere
    refine ⟨fun key => ?_, fun port => ?_⟩
    · symm
      rw [filter_eq_self]
      intro t ht
      obtain ⟨reg, hreg', -⟩ := (h.byResponse.mem_iff key t).1 ht
      rw [decide_eq_true_eq]
      rintro rfl
      rw [hreg] at hreg'
      cases hreg'
    · symm
      rw [filter_eq_self]
      intro t ht
      obtain ⟨reg, hreg', -⟩ := (h.byPort.mem_iff port t).1 ht
      rw [decide_eq_true_eq]
      rintro rfl
      rw [hreg] at hreg'
      cases hreg'
  · exact ⟨h.byResponse.listed_removeAll_eq (answers_mem hreg),
      h.byPort.listed_removeAll_eq (onPort_mem hreg)⟩

theorem unregister_registrations (s : ShadowsocksUdpSession η) (token t : Nat) :
    (s.unregister token).registrations t = if t = token then none else s.registrations t := by
  unfold unregister
  rcases hreg : s.registrations token with _ | reg
  · by_cases ht : t = token
    · simp [ht, hreg]
    · simp [ht]
  · by_cases ht : t = token
    · simp [ht]
    · simp [ht]

/-- After every run a token is listed, once, exactly under the hosts it has been
given and the port it was registered with; no list is empty; and unregistering a
token takes it out of the lists and changes nothing else in them. -/
theorem session_indexed (mode : Mode) (sessionID : Int) (es : List (Event η)) :
    (∀ key t, t ∈ (after mode sessionID es).tokensByResponse.listed key ↔
      ∃ reg, (after mode sessionID es).registrations t = some reg ∧ reg.port = key.2 ∧
        key.1 ∈ reg.responseHosts) ∧
    (∀ port t, t ∈ (after mode sessionID es).tokensByPort.listed port ↔
      ∃ reg, (after mode sessionID es).registrations t = some reg ∧ reg.port = port) ∧
    (∀ key, ((after mode sessionID es).tokensByResponse.listed key).Nodup) ∧
    (∀ port, ((after mode sessionID es).tokensByPort.listed port).Nodup) ∧
    (∀ t reg, (after mode sessionID es).registrations t = some reg →
      Opened mode sessionID es t reg.port ∧
        ∀ host, host ∈ reg.responseHosts ↔ Named mode sessionID es t host) ∧
    (∀ key, (after mode sessionID es).tokensByResponse key ≠ some []) ∧
    (∀ port, (after mode sessionID es).tokensByPort port ≠ some []) ∧
    (∀ token,
      (∀ key, ((after mode sessionID es).unregister token).tokensByResponse.listed key =
        ((after mode sessionID es).tokensByResponse.listed key).filter (· ≠ token)) ∧
      (∀ port, ((after mode sessionID es).unregister token).tokensByPort.listed port =
        ((after mode sessionID es).tokensByPort.listed port).filter (· ≠ token)) ∧
      ∀ t, ((after mode sessionID es).unregister token).registrations t =
        if t = token then none else (after mode sessionID es).registrations t) := by
  have h := after_indexed mode sessionID es
  refine ⟨h.byResponse.mem_iff, h.byPort.mem_iff, h.byResponse.nodup, h.byPort.nodup, ?_,
    h.byResponse.full, h.byPort.full, ?_⟩
  · exact fun t reg hreg => registered_named mode sessionID es hreg
  · intro token
    obtain ⟨hresponse, hport⟩ := unregister_listed h token
    exact ⟨hresponse, hport, unregister_registrations _ token⟩

end ShadowsocksUdpSession

end Anywhere.Shadowsocks
