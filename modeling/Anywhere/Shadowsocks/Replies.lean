import Anywhere.Shadowsocks.UdpSession

/-!
# Anywhere — replies of a Shadowsocks session

Flows are registered under the text `inet_ntop` makes of their destination, and a
reply is looked up under the text `decodeUDPPacket` makes of its source. For an
IPv6 address with a run of zero groups these differ, and the reply goes to some
flow on its port.

* `Apart` — the steps that give a source to no flow but those it is the destination of.
* `reply_exact_iff` — the addresses whose replies find their flow by the exact index.
-/

namespace Anywhere.Shadowsocks

open Lib

namespace ShadowsocksUdpSession

variable {η : Type}

-- ----
-- The cached key

structure Cached (mode : Mode) (sessionID : Int) (s : ShadowsocksUdpSession η) : Prop where
  sessionID_eq : s.sessionID = sessionID
  key_eq : ∀ variant, mode = .ss2022AES variant → ∀ key, s.remoteCipherKey = some key →
    key = variant.deriveSessionKey s.remoteSessionID

theorem Cached.cipherKey_eq {variant : AesVariant} {sessionID : Int} {s : ShadowsocksUdpSession η}
    (h : s.Cached (.ss2022AES variant) sessionID) (serverSession : Int) :
    s.cipherKey variant serverSession = variant.deriveSessionKey serverSession := by
  unfold cipherKey
  split
  · rename_i cached hcached
    split
    · rename_i heq
      rw [heq]
      exact h.key_eq variant rfl cached hcached
    · rfl
  · rfl

theorem Cached.frame {mode : Mode} {sessionID : Int} {s s' : ShadowsocksUdpSession η}
    (h : s.Cached mode sessionID) (hid : s'.sessionID = s.sessionID)
    (hremote : s'.remoteSessionID = s.remoteSessionID)
    (hkey : s'.remoteCipherKey = s.remoteCipherKey) : s'.Cached mode sessionID where
  sessionID_eq := hid.trans h.sessionID_eq
  key_eq := by
    rw [hremote, hkey]
    exact h.key_eq

theorem cached_initial (mode : Mode) (sessionID : Int) :
    (initial sessionID : ShadowsocksUdpSession η).Cached mode sessionID where
  sessionID_eq := rfl
  key_eq := by
    intro variant _ key hkey
    cases hkey

/-- The cached key does not show. -/
theorem decryptPacket_eq {mode : Mode} {sessionID : Int} {s : ShadowsocksUdpSession η}
    (h : s.Cached mode sessionID) (now : Int) (data : Bytes) :
    (s.decryptPacket mode now data).2 =
      ((initial sessionID : ShadowsocksUdpSession η).decryptPacket mode now data).2 := by
  rcases mode with decrypt | variant | openBody
  · rfl
  · show (s.decryptSS2022AES variant now data).2 =
      ((initial sessionID : ShadowsocksUdpSession η).decryptSS2022AES variant now data).2
    unfold decryptSS2022AES
    split
    · rfl
    · show Option.bind (variant.openBody (s.cipherKey variant _) _ _) _ = _
      rw [h.cipherKey_eq, h.sessionID_eq]
      rfl
  · show s.decryptSS2022ChaCha openBody now data =
      (initial sessionID : ShadowsocksUdpSession η).decryptSS2022ChaCha openBody now data
    simp only [decryptSS2022ChaCha, h.sessionID_eq]
    rfl

theorem decryptPacket_cached {mode : Mode} {sessionID : Int} {s : ShadowsocksUdpSession η}
    (h : s.Cached mode sessionID) (now : Int) (data : Bytes) :
    (s.decryptPacket mode now data).1.Cached mode sessionID := by
  rcases mode with decrypt | variant | openBody
  · exact h
  · show (s.decryptSS2022AES variant now data).1.Cached _ _
    unfold decryptSS2022AES
    split
    · exact h
    · refine ⟨h.sessionID_eq, ?_⟩
      rintro variant' hmode key hkey
      obtain rfl := Mode.ss2022AES.inj hmode
      rw [← Option.some.inj hkey]
      exact h.cipherKey_eq _
  · exact h

theorem step_cached {mode : Mode} {sessionID : Int} {s : ShadowsocksUdpSession η}
    (h : s.Cached mode sessionID) (e : Event η) : (s.step mode e).Cached mode sessionID := by
  rcases e with ⟨dstHost, dstPort, hints, handler⟩ | ⟨token, hints⟩ | token |
    ⟨token, dstHost, dstPort, payload⟩ | _ | _ | ⟨now, data⟩ | _
  · exact h.frame rfl rfl rfl
  · simp only [step, addResponseHints]
    split <;> exact h.frame rfl rfl rfl
  · simp only [step, unregister]
    split <;> exact h.frame rfl rfl rfl
  · simp only [step, send]
    split
    · exact h
    · split <;> exact h.frame rfl rfl rfl
  · simp only [step, connected]
    split <;> exact h.frame rfl rfl rfl
  · simp only [step, connectFailed]
    split <;> exact h.frame rfl rfl rfl
  · simp only [step, handleReceivedDatagram]
    have hdec := decryptPacket_cached h now data
    split
    · exact hdec
    · unfold dispatch
      split <;> exact hdec.frame rfl rfl rfl
  · simp only [step, cancel]
    split <;> exact h.frame rfl rfl rfl

-- ----
-- Runs

def HasFlow (s : ShadowsocksUdpSession η) (host : Text) (port : Nat) : Prop :=
  ∃ t reg, s.registrations t = some reg ∧ reg.dstHost = some host ∧ reg.port = port

/-- The destinations of flows are addresses in the text of `lwip_ip_to_string`. -/
def Literal : Event η → Prop
  | .register dstHost _ _ _ => ∃ a : IpAddress, dstHost = a.toText
  | _ => True

/-- The step gives the source (`a`, `port`) to no flow with another destination:
no such flow has it as a hint, and a reply from it does not arrive while there are
flows on the port and none of them is for it. -/
def Apart (mode : Mode) (a : IpAddress) (port : Nat) (s : ShadowsocksUdpSession η) : Event η → Prop
  | .register dstHost dstPort hints _ => dstPort = port → a.replyText ∈ hints → dstHost = a.toText
  | .addResponseHints token hints => a.replyText ∈ hints →
      ∀ reg, s.registrations token = some reg → reg.port = port → reg.dstHost = some a.toText
  | .datagram now data => ∀ payload,
      (s.decryptPacket mode now data).2.bind decodeUDPPacket = some ⟨a.replyText, port, payload⟩ →
      s.HasFlow a.toText port ∨ ∀ t, ¬ s.OnPort port t
  | _ => True

/-- `Apart` for a source that is its own text: it is given to no flow with another
destination. -/
def Exclusive (mode : Mode) (host : Text) (port : Nat) (s : ShadowsocksUdpSession η) :
    Event η → Prop
  | .register dstHost dstPort hints _ => dstPort = port → host ∈ hints → dstHost = host
  | .addResponseHints token hints => host ∈ hints →
      ∀ reg, s.registrations token = some reg → reg.port = port → reg.dstHost = some host
  | .datagram now data => ∀ payload,
      (s.decryptPacket mode now data).2.bind decodeUDPPacket = some ⟨host, port, payload⟩ →
      s.HasFlow host port ∨ ∀ t, ¬ s.OnPort port t
  | _ => True

theorem Apart.exclusive {mode : Mode} {a : IpAddress} {port : Nat} {s : ShadowsocksUdpSession η}
    {e : Event η} (h : Apart mode a port s e) (ha : a.Plain) :
    Exclusive mode a.toText port s e := by
  unfold Apart at h
  rw [(replyText_eq_iff a).2 ha] at h
  exact h

/-- A datagram from the server of the session that names `a` and `port` as its source. -/
def Reply (η : Type) (mode : Mode) (sessionID : Int) (a : IpAddress) (port : Nat) (now : Int)
    (data payload : Bytes) : Prop :=
  ((initial sessionID : ShadowsocksUdpSession η).decryptPacket mode now data).2 =
    some (a.packet port payload)

/-- The exact index hands the payload to a flow for this destination. -/
def Delivered (s : ShadowsocksUdpSession η) (a : IpAddress) (port : Nat) (payload : Bytes)
    (delivery : Option (Delivery η)) : Prop :=
  ∃ d reg, delivery = some d ∧ d.route = .exact ∧ d.payload = payload ∧ d.handler = reg.handler ∧
    s.registrations d.token = some reg ∧ reg.dstHost = some a.toText ∧ reg.port = port

-- ----
-- The exact index

/-- Where some flow counts the source among its hosts, the exact index finds one
that does. -/
theorem target_exact {s : ShadowsocksUdpSession η} (h : s.Indexed) {host : Text} {port t : Nat}
    (ht : s.Answers (host, port) t) :
    ∃ reg, s.target host port = some (reg, .exact) ∧ s.registrations reg.token = some reg ∧
      reg.port = port ∧ host ∈ reg.responseHosts := by
  have hmem := (h.byResponse.mem_iff (host, port) t).2 ht
  rcases hlist : s.tokensByResponse (host, port) with _ | tokens
  · rw [Buckets.listed, hlist] at hmem
    cases hmem
  · rw [Buckets.listed, hlist, Option.getD_some] at hmem
    obtain ⟨reg₀, hreg₀, -⟩ := ht
    have hsome : (s.firstRegistration tokens).isSome := by
      rw [firstRegistration, List.findSome?_isSome_iff]
      exact ⟨t, hmem, by rw [hreg₀]; rfl⟩
    obtain ⟨reg, hfirst⟩ := Option.isSome_iff_exists.1 hsome
    obtain ⟨t', ht', hreg⟩ := firstRegistration_mem hfirst
    have hlisted : t' ∈ s.tokensByResponse.listed (host, port) := by rwa [Buckets.listed, hlist]
    obtain ⟨reg', hreg', hport, hhost⟩ := (h.byResponse.mem_iff _ t').1 hlisted
    rw [hreg, Option.some.injEq] at hreg'
    subst hreg'
    refine ⟨reg, ?_, ?_, hport, hhost⟩
    · simp [target, hlist, hfirst]
    · rw [(h.fresh hreg).2]
      exact hreg

theorem answers_of_dstHost {s : ShadowsocksUdpSession η} {t : Nat} {reg : Registration η}
    {host : Text} (hreg : s.registrations t = some reg) (hdst : reg.dstHost = some host) :
    s.Answers (host, reg.port) t :=
  ⟨reg, hreg, rfl, List.mem_of_head? hdst⟩

/-- Only flows for `a` count it among their hosts. -/
def Owned (a : IpAddress) (port : Nat) (s : ShadowsocksUdpSession η) : Prop :=
  ∀ t reg, s.registrations t = some reg → reg.port = port → a.replyText ∈ reg.responseHosts →
    reg.dstHost = some a.toText

theorem dstHost_of_isPrefix {reg reg' : Registration η}
    (h : reg.responseHosts <+: reg'.responseHosts) {host : Text} (hdst : reg.dstHost = some host) :
    reg'.dstHost = some host := by
  obtain ⟨rest, hrest⟩ := h
  rw [Registration.dstHost] at hdst ⊢
  rw [← hrest, List.head?_append, hdst]
  rfl

/-- Only flows for the host count it among their hosts. -/
def OwnedBy (host : Text) (port : Nat) (s : ShadowsocksUdpSession η) : Prop :=
  ∀ t reg, s.registrations t = some reg → reg.port = port → host ∈ reg.responseHosts →
    reg.dstHost = some host

theorem owned_iff {a : IpAddress} (ha : a.Plain) (port : Nat) (s : ShadowsocksUdpSession η) :
    s.Owned a port ↔ s.OwnedBy a.toText port := by
  unfold Owned OwnedBy
  rw [(replyText_eq_iff a).2 ha]

/-- A reply is given to no flow on its port, unless one of them is for its source. -/
theorem not_learned {mode : Mode} {host : Text} {port : Nat} {s : ShadowsocksUdpSession η}
    (h : s.Indexed) {now : Int} {data : Bytes}
    (hexcl : Exclusive mode host port s (.datagram now data)) {t : Nat} {reg : Registration η}
    (hreg : s.registrations t = some reg) (hport : reg.port = port) :
    ¬ Names mode s t host (.datagram now data) := by
  rintro ⟨d, hd, rfl, hroute, hhost⟩
  obtain ⟨hdec, hregs, -⟩ := h.decryptPacket mode now data
  unfold handleReceivedDatagram at hd
  split at hd
  · cases hd
  · rename_i packet hpacket
    unfold dispatch at hd
    split at hd
    · cases hd
    · obtain rfl := Option.some.inj hd
      cases hroute
    · rename_i reg' htarget
      obtain rfl := Option.some.inj hd
      obtain ⟨hreg', hport'⟩ := target_registered hdec htarget
      rw [hregs, hreg, Option.some.injEq] at hreg'
      subst hreg'
      have hp : packet.port = port := hport'.symm.trans hport
      have heq : packet = ⟨host, port, packet.payload⟩ := by
        rw [← hhost, ← hp]
      rw [heq] at hpacket
      rcases hexcl packet.payload hpacket with ⟨t, reg₁, hreg₁, hdst, hport₁⟩ | hnone
      · -- a flow for the source is there, so the exact index has an entry
        have hans : (s.decryptPacket mode now data).1.Answers (packet.host, packet.port) t := by
          rw [show packet.host = host from hhost, hp, ← hport₁]
          exact answers_of_dstHost (by rw [hregs]; exact hreg₁) hdst
        obtain ⟨reg₂, htarget₂, -⟩ := target_exact hdec hans
        rw [htarget] at htarget₂
        cases htarget₂
      · exact hnone _ ⟨reg, hreg, hport⟩

theorem step_ownedBy {mode : Mode} {host : Text} {port : Nat} {s : ShadowsocksUdpSession η}
    (h : s.Indexed) (hown : s.OwnedBy host port) {e : Event η}
    (hexcl : Exclusive mode host port s e) :
    (s.step mode e).OwnedBy host port := by
  intro t reg' hreg' hport' hmem
  rcases step_follows mode h e hreg' with
    ⟨reg, hreg, hport, hold, hhosts⟩ | ⟨dstHost, hints, handler, rfl, rfl, hdst, hhosts⟩
  · refine dstHost_of_isPrefix hold ?_
    rcases (hhosts _).1 hmem with hmem | hn
    · exact hown t reg hreg (hport ▸ hport') hmem
    · rcases e with ⟨dstHost, dstPort, hints, handler⟩ | ⟨token, hints⟩ | token |
        ⟨token, dstHost, dstPort, payload⟩ | _ | _ | ⟨now, data⟩ | _
      · rw [hn.1, not_registered_next h] at hreg
        cases hreg
      · obtain ⟨rfl, -, hmem⟩ := hn
        exact hexcl hmem reg hreg (hport ▸ hport')
      · exact hn.elim
      · exact hn.elim
      · exact hn.elim
      · exact hn.elim
      · exact absurd hn (not_learned h hexcl hreg (hport ▸ hport'))
      · exact hn.elim
  · rw [hdst]
    rcases ((hhosts _).1 hmem).2 with heq | hmem
    · rw [← heq]
    · rw [hexcl hport' hmem]

theorem step_owned {mode : Mode} {a : IpAddress} {port : Nat} (ha : a.Plain)
    {s : ShadowsocksUdpSession η} (h : s.Indexed) (hown : s.Owned a port) {e : Event η}
    (hapart : Apart mode a port s e) : (s.step mode e).Owned a port := by
  rw [owned_iff ha] at hown ⊢
  exact step_ownedBy h hown (hapart.exclusive ha)

/-- In an apart run the replies from an address that is not shortened find a flow
for it by the exact index. -/
theorem reply_delivered {mode : Mode} {sessionID : Int} {a : IpAddress} {port : Nat} {now : Int}
    {data payload : Bytes} (hport : port < 65536)
    (hreply : Reply η mode sessionID a port now data payload) (ha : a.Plain)
    {es : List (Event η)} (hrun : RunAll (step mode) (Apart mode a port) (initial sessionID) es)
    (hflow : (after mode sessionID es).HasFlow a.toText port) :
    Delivered (after mode sessionID es) a port payload
      ((after mode sessionID es).handleReceivedDatagram mode now data).2 := by
  have hinv : (after mode sessionID es).Indexed ∧ (after mode sessionID es).Cached mode sessionID ∧
      (after mode sessionID es).Owned a port := by
    refine run_invariant_of (I := fun s => s.Indexed ∧ s.Cached mode sessionID ∧ s.Owned a port)
      (fun s e hc hs => ?_) hrun ⟨indexed_empty rfl rfl rfl, cached_initial mode sessionID, ?_⟩
    · exact ⟨step_indexed mode hs.1 e, step_cached hs.2.1 e, step_owned ha hs.1 hs.2.2 hc⟩
    · intro t reg hreg
      cases hreg
  obtain ⟨hidx, hcached, hown⟩ := hinv
  generalize after mode sessionID es = s at *
  obtain ⟨hdec, hregs, -⟩ := hidx.decryptPacket mode now data
  obtain ⟨t, reg₀, hreg₀, hdst₀, hport₀⟩ := hflow
  rw [← (replyText_eq_iff a).2 ha] at hdst₀
  have hans : (s.decryptPacket mode now data).1.Answers (a.replyText, port) t := by
    rw [← hport₀]
    exact answers_of_dstHost (by rw [hregs]; exact hreg₀) hdst₀
  obtain ⟨reg, htarget, hreg, hport', hmem⟩ := target_exact hdec hans
  have hpacket : (s.decryptPacket mode now data).2.bind decodeUDPPacket =
      some ⟨a.replyText, port, payload⟩ := by
    rw [decryptPacket_eq hcached, hreply, Option.bind_some, decodeUDPPacket_packet a hport]
  rw [hregs] at hreg
  refine ⟨⟨reg.token, reg.handler, a.replyText, payload, .exact⟩, reg, ?_, rfl, rfl, rfl, hreg,
    hown _ reg hreg hport' hmem, hport'⟩
  simp only [handleReceivedDatagram, hpacket, dispatch, htarget]

-- ----
-- A shortened address

/-- What comes by the exact index comes to a flow that counts the source among its
hosts. -/
theorem exact_mem {s : ShadowsocksUdpSession η} (h : s.Indexed) {packet : UdpPacket}
    {d : Delivery η} (hd : (s.dispatch packet).2 = some d) (hroute : d.route = .exact) :
    ∃ reg, s.registrations d.token = some reg ∧ packet.host ∈ reg.responseHosts := by
  unfold dispatch at hd
  split at hd
  · cases hd
  · rename_i reg htarget
    obtain rfl := Option.some.inj hd
    refine ⟨reg, (target_registered h htarget).1, ?_⟩
    unfold target at htarget
    split at htarget
    · rename_i reg' hfirst
      obtain ⟨rfl, -⟩ := Prod.mk.inj (Option.some.inj htarget)
      obtain ⟨tokens, htokens, hfirst⟩ := Option.bind_eq_some_iff.1 hfirst
      obtain ⟨t, ht, hreg⟩ := firstRegistration_mem hfirst
      have hlisted : t ∈ s.tokensByResponse.listed (packet.host, packet.port) := by
        rwa [Buckets.listed, htokens]
      obtain ⟨reg₁, hreg₁, -, hmem⟩ := (h.byResponse.mem_iff _ t).1 hlisted
      rw [hreg, Option.some.injEq] at hreg₁
      rwa [hreg₁]
    · obtain ⟨reg', -, heq⟩ := Option.map_eq_some_iff.1 htarget
      cases (Prod.mk.inj heq).2
  · obtain rfl := Option.some.inj hd
    cases hroute

/-- A single flow: it is found exactly only when the two texts agree. -/
theorem plain_of_delivered {mode : Mode} {sessionID : Int} {a : IpAddress} {port : Nat} {now : Int}
    {data payload : Bytes} (hport : port < 65536)
    (hreply : Reply η mode sessionID a port now data payload) (handler : η)
    (h : Delivered (after mode sessionID [.register a.toText port [] handler]) a port payload
      ((after mode sessionID [.register a.toText port [] handler]).handleReceivedDatagram mode now
        data).2) : a.Plain := by
  have hidx := after_indexed mode sessionID [.register a.toText port [] handler]
  have hcached : (after mode sessionID [.register a.toText port [] handler]).Cached
      mode sessionID :=
    step_cached (cached_initial mode sessionID) (.register a.toText port [] handler)
  have hsingle : ∀ t reg,
      (after mode sessionID [.register a.toText port [] handler]).registrations t =
      some reg → reg.responseHosts = [a.toText] := by
    intro t reg hreg
    by_cases ht : t = 1
    · subst ht
      rw [← Option.some.inj hreg]
      rfl
    · simp [after, step, register, initial, ht] at hreg
  generalize after mode sessionID [.register a.toText port [] handler] = s at *
  obtain ⟨d, -, hd, hroute, -⟩ := h
  obtain ⟨hdec, hregs, -⟩ := hidx.decryptPacket mode now data
  have hpacket : (s.decryptPacket mode now data).2.bind decodeUDPPacket =
      some ⟨a.replyText, port, payload⟩ := by
    rw [decryptPacket_eq hcached, hreply, Option.bind_some, decodeUDPPacket_packet a hport]
  simp only [handleReceivedDatagram, hpacket] at hd
  obtain ⟨reg, hreg, hmem⟩ := exact_mem hdec hd hroute
  rw [hregs] at hreg
  rw [hsingle _ reg hreg] at hmem
  exact (replyText_eq_iff a).1 (List.mem_singleton.1 hmem)

/-- The replies from an address find a flow for it by the exact index, in every
apart run of flows for IP addresses, exactly when `inet_ntop` does not shorten it. -/
theorem reply_exact_iff {mode : Mode} {sessionID : Int} {a : IpAddress} {port : Nat} {now : Int}
    {data payload : Bytes} (hport : port < 65536)
    (hreply : Reply η mode sessionID a port now data payload) (handler : η) :
    (∀ es : List (Event η),
      RunAll (step mode) (fun s e => Literal e ∧ Apart mode a port s e) (initial sessionID) es →
      (after mode sessionID es).HasFlow a.toText port →
      Delivered (after mode sessionID es) a port payload
        ((after mode sessionID es).handleReceivedDatagram mode now data).2) ↔ a.Plain := by
  constructor
  · intro h
    refine plain_of_delivered hport hreply handler (h _ ⟨⟨⟨a, rfl⟩, ?_⟩, trivial⟩ ?_)
    · intro _ hmem
      cases hmem
    · exact ⟨1, ⟨1, port, [a.toText], false, handler⟩, rfl, rfl, rfl⟩
  · intro ha es hrun hflow
    exact reply_delivered hport hreply ha (hrun.imp fun _ _ h => h.2) hflow

theorem length_resolver : ([1, 1, 1, 1] : Bytes).length = 4 := rfl

def resolver : IpAddress := .ipv4 ⟨[1, 1, 1, 1], length_resolver⟩

theorem resolver_reply_exact :
    Reply Nat (.legacy some) 0 resolver 53 0 (resolver.packet 53 [7]) [7] ∧
    ((∀ es : List (Event Nat),
      RunAll (step (.legacy some)) (fun s e => Literal e ∧ Apart (.legacy some) resolver 53 s e)
        (initial 0) es →
      (after (.legacy some) 0 es).HasFlow resolver.toText 53 →
      Delivered (after (.legacy some) 0 es) resolver 53 [7]
        ((after (.legacy some) 0 es).handleReceivedDatagram (.legacy some) 0
          (resolver.packet 53 [7])).2) ↔ resolver.Plain) :=
  ⟨rfl, reply_exact_iff (by decide) rfl 0⟩

/-- 2001:db8::1 and 2001:db8::2. -/
def firstPeer : IpAddress :=
  .ipv6 ⟨[0x20, 0x01, 0x0D, 0xB8, 0, 0, 0, 0, 0, 0, 0, 0, 0, 0, 0, 1], rfl⟩

def secondPeer : IpAddress :=
  .ipv6 ⟨[0x20, 0x01, 0x0D, 0xB8, 0, 0, 0, 0, 0, 0, 0, 0, 0, 0, 0, 2], rfl⟩

/-- Two flows on one port: the reply from the second destination is handed to the
first flow, by the port alone. -/
theorem reply_to_other_flow :
    (after (.legacy some) 0 [.register firstPeer.toText 443 [] 1,
        .register secondPeer.toText 443 [] 2]).registrations 1 =
      some ⟨1, 443, [firstPeer.toText], false, 1⟩ ∧
    (after (.legacy some) 0 [.register firstPeer.toText 443 [] 1,
        .register secondPeer.toText 443 [] 2]).registrations 2 =
      some ⟨2, 443, [secondPeer.toText], false, 2⟩ ∧
    firstPeer.toText ≠ secondPeer.toText ∧
    Reply Nat (.legacy some) 0 secondPeer 443 0 (secondPeer.packet 443 [7]) [7] ∧
    ((after (.legacy some) 0 [.register firstPeer.toText 443 [] 1,
        .register secondPeer.toText 443 [] 2]).handleReceivedDatagram (.legacy some) 0
          (secondPeer.packet 443 [7])).2 =
      some ⟨1, 1, "2001:db8:0:0:0:0:0:2".toList, [7], .portOnly⟩ := by
  refine ⟨rfl, rfl, by decide, rfl, ?_⟩
  decide +kernel

end ShadowsocksUdpSession

end Anywhere.Shadowsocks
