import Anywhere.Shadowsocks.Header
import Anywhere.Shadowsocks.Replies

/-!
# Anywhere — flows of a session that share a destination

A reply names the destination it comes from and nothing else, so the session cannot
tell flows to one destination apart: the flow that is first in the list of the source
gets the replies to all of them.

* `reply_first` — whom a reply is handed to, after every run.
-/

namespace Anywhere.Shadowsocks

open Lib List

namespace ShadowsocksUdpSession

variable {η : Type}

-- ----
-- The first of the list

/-- Every token listed is registered, so the first one is found. -/
theorem target_first {s : ShadowsocksUdpSession η} (h : s.Indexed) {host : Text} {port t : Nat}
    {ts : List Nat} (hlist : s.tokensByResponse.listed (host, port) = t :: ts) :
    ∃ reg, s.registrations t = some reg ∧ reg.port = port ∧ host ∈ reg.responseHosts ∧
      s.target host port = some (reg, .exact) := by
  have hmem : t ∈ s.tokensByResponse.listed (host, port) := by rw [hlist]; exact mem_cons_self
  obtain ⟨reg, hreg, hport, hhost⟩ := (h.byResponse.mem_iff (host, port) t).1 hmem
  refine ⟨reg, hreg, hport, hhost, ?_⟩
  rcases htokens : s.tokensByResponse (host, port) with _ | tokens
  · rw [Buckets.listed, htokens] at hlist
    cases hlist
  · rw [Buckets.listed, htokens, Option.getD_some] at hlist
    have hfirst : s.firstRegistration tokens = some reg := by
      rw [hlist, firstRegistration, List.findSome?_cons, hreg]
    simp [target, htokens, hfirst]

/-- A reply whose source is the destination of a flow is handed to the first token
listed for that source. -/
theorem dispatch_first {s : ShadowsocksUdpSession η} (h : s.Indexed) {packet : UdpPacket} {t : Nat}
    (ht : s.Answers (packet.host, packet.port) t) :
    ∃ d reg ts, (s.dispatch packet) = (s, some d) ∧ d.route = .exact ∧ d.payload = packet.payload ∧
      d.handler = reg.handler ∧ s.registrations d.token = some reg ∧ reg.port = packet.port ∧
      packet.host ∈ reg.responseHosts ∧
      s.tokensByResponse.listed (packet.host, packet.port) = d.token :: ts := by
  have hmem := (h.byResponse.mem_iff (packet.host, packet.port) t).2 ht
  rcases hlist : s.tokensByResponse.listed (packet.host, packet.port) with _ | ⟨first, ts⟩
  · rw [hlist] at hmem
    cases hmem
  · obtain ⟨reg, hreg, hport, hhost, htarget⟩ := target_first h hlist
    have htoken := (h.fresh hreg).2
    refine ⟨⟨reg.token, reg.handler, packet.host, packet.payload, .exact⟩, reg, ts, ?_,
      rfl, rfl, rfl, ?_, hport, hhost, ?_⟩
    · rw [dispatch, htarget]
    · rw [htoken]
      exact hreg
    · rw [htoken]

-- ----
-- The order of the list

/-- A step appends the newest token to the list of a source that no other flow is given,
or takes tokens out of it. -/
theorem step_listed {mode : Mode} {host : Text} {port : Nat} {s : ShadowsocksUdpSession η}
    (h : s.Indexed) {e : Event η} (hexcl : Exclusive mode host port s e) :
    List.Sublist ((s.step mode e).tokensByResponse.listed (host, port))
      (s.tokensByResponse.listed (host, port) ++ [s.nextToken + 1]) := by
  have hsame : List.Sublist (s.tokensByResponse.listed (host, port))
      (s.tokensByResponse.listed (host, port) ++ [s.nextToken + 1]) := sublist_append_left _ _
  rcases e with ⟨dstHost, dstPort, hints, handler⟩ | ⟨token, hints⟩ | token |
    ⟨token, dstHost, dstPort, payload⟩ | _ | _ | ⟨now, data⟩ | _
  · obtain ⟨hnodup, -⟩ := insertHosts (nodup_singleton dstHost) hints
    show List.Sublist ((s.tokensByResponse.addAll _ (s.nextToken + 1)).listed (host, port)) _
    rw [Buckets.listed_addAll (map_port_nodup hnodup dstPort)]
    split
    · exact List.Sublist.refl _
    · exact hsame
  · show List.Sublist ((s.addResponseHints token hints).tokensByResponse.listed (host, port)) _
    unfold addResponseHints
    rcases hreg : s.registrations token with _ | reg
    · exact hsame
    · obtain ⟨new, hnodup, hnew, hall, inserted, heq⟩ :=
        addHints token reg.port hints reg.responseHosts s.tokensByResponse false
      simp only [heq]
      rw [Buckets.listed_addAll (map_port_nodup hnodup reg.port), if_neg]
      · exact hsame
      · -- a flow that the source is new to has another destination
        intro hmem
        obtain ⟨host', hmem', hkey⟩ := mem_map.1 hmem
        obtain ⟨rfl, hport⟩ := Prod.mk.inj hkey
        have hhint : host' ∈ hints := by
          rcases (hall host').1 (mem_append_right _ hmem') with hold | hhint
          · exact absurd hold (hnew host' hmem')
          · exact hhint
        exact hnew host' hmem' (List.mem_of_head? (hexcl hhint reg hreg hport))
  · show List.Sublist ((s.unregister token).tokensByResponse.listed (host, port)) _
    rw [(unregister_listed h token).1]
    exact filter_sublist.trans hsame
  · simp only [step, send]
    split
    · exact hsame
    · split <;> exact hsame
  · simp only [step, connected]
    split <;> exact hsame
  · simp only [step, connectFailed]
    split <;> exact hsame
  · show List.Sublist ((s.handleReceivedDatagram mode now data).1.tokensByResponse.listed
      (host, port)) _
    obtain ⟨hdec, hregs, hindex⟩ := h.decryptPacket mode now data
    rcases hpacket : (s.decryptPacket mode now data).2.bind decodeUDPPacket with _ | packet
    · simp only [handleReceivedDatagram, hpacket, hindex]
      exact hsame
    · rcases htarget : (s.decryptPacket mode now data).1.target packet.host packet.port with
        _ | ⟨reg, _ | _⟩
      · simp only [handleReceivedDatagram, hpacket, dispatch, htarget, hindex]
        exact hsame
      · simp only [handleReceivedDatagram, hpacket, dispatch, htarget, hindex]
        exact hsame
      · obtain ⟨hreg, hport⟩ := target_registered hdec htarget
        rw [hregs] at hreg
        have hother : (host, port) ≠ (packet.host, packet.port) := by
          intro hkey
          obtain ⟨rfl, rfl⟩ := Prod.mk.inj hkey
          refine not_learned h hexcl hreg hport
            ⟨⟨reg.token, reg.handler, packet.host, packet.payload, .portOnly⟩, ?_, rfl, rfl, rfl⟩
          simp only [handleReceivedDatagram, hpacket, dispatch, htarget]
        simp only [handleReceivedDatagram, hpacket, dispatch, htarget, learn, hindex]
        split
        · exact hsame
        · rw [Buckets.listed_add, if_neg hother]
          exact hsame
  · simp only [step, cancel]
    split
    · exact hsame
    · exact nil_sublist _

/-- The tokens listed for a source are in the order they were given out. -/
def Ordered (host : Text) (port : Nat) (s : ShadowsocksUdpSession η) : Prop :=
  (s.tokensByResponse.listed (host, port)).Pairwise (· < ·)

theorem step_ordered {mode : Mode} {host : Text} {port : Nat} {s : ShadowsocksUdpSession η}
    (h : s.Indexed) (hord : s.Ordered host port) {e : Event η}
    (hexcl : Exclusive mode host port s e) : (s.step mode e).Ordered host port := by
  refine List.Pairwise.sublist (step_listed h hexcl) ?_
  rw [pairwise_append]
  refine ⟨hord, pairwise_singleton _ _, fun t ht t' ht' => ?_⟩
  obtain ⟨reg, hreg, -⟩ := (h.byResponse.mem_iff (host, port) t).1 ht
  have := (h.fresh hreg).1
  rw [mem_singleton.1 ht']
  omega

theorem after_exclusive {mode : Mode} {sessionID : Int} {host : Text} {port : Nat}
    {es : List (Event η)}
    (hrun : RunAll (step mode) (Exclusive mode host port) (initial sessionID) es) :
    (after mode sessionID es).OwnedBy host port ∧ (after mode sessionID es).Ordered host port := by
  have hinv : (after mode sessionID es).Indexed ∧ (after mode sessionID es).OwnedBy host port ∧
      (after mode sessionID es).Ordered host port := by
    refine run_invariant_of (I := fun s => s.Indexed ∧ s.OwnedBy host port ∧ s.Ordered host port)
      (fun s e hexcl hs => ?_) hrun ⟨indexed_empty rfl rfl rfl, ?_, List.Pairwise.nil⟩
    · exact ⟨step_indexed mode hs.1 e, step_ownedBy hs.1 hs.2.1 hexcl,
        step_ordered hs.1 hs.2.2 hexcl⟩
    · intro t reg hreg
      cases hreg
  exact hinv.2

theorem after_cached (mode : Mode) (sessionID : Int) (es : List (Event η)) :
    (after mode sessionID es).Cached mode sessionID :=
  run_invariant (I := Cached mode sessionID) (fun _ e h => step_cached h e)
    (cached_initial mode sessionID) es

-- ----
-- Replies

/-- The server's answer to a request: a datagram that decrypts to the header of the
request and a payload. -/
def Answer (η : Type) (mode : Mode) (sessionID : Int) (inet : Net.Inet) (host : Text) (port : Nat)
    (now : Int) (data payload : Bytes) : Prop :=
  ∃ plain, encodeUDPPacket inet host port payload = some plain ∧
    ((initial sessionID : ShadowsocksUdpSession η).decryptPacket mode now data).2 = some plain

/-- After every run, the answer to a request of a registered flow is handed by the
exact index to one flow and changes no registration. That flow counts the source among
its hosts and is the first listed for it; it is the flow of the request when no other
flow counts the source. In a run where the source is given to no flow with another
destination it is the first registered of the flows for this destination. -/
theorem reply_first (mode : Mode) (sessionID : Int) (inet : Net.Inet)
    (es : List (Event η)) (t : Nat) (reg : Registration η) (host : Text) (now : Int)
    (data payload : Bytes) (hreg : (after mode sessionID es).registrations t = some reg)
    (hdst : reg.dstHost = some host) (hport : reg.port < 65536) (hreadable : Readable inet host)
    (hanswer : Answer η mode sessionID inet host reg.port now data payload) :
    ∃ d reg',
      ((after mode sessionID es).handleReceivedDatagram mode now data).2 = some d ∧
      ((after mode sessionID es).handleReceivedDatagram mode now data).1.registrations =
        (after mode sessionID es).registrations ∧
      d.route = .exact ∧ d.payload = payload ∧ d.handler = reg'.handler ∧
      (after mode sessionID es).registrations d.token = some reg' ∧
      reg'.port = reg.port ∧ host ∈ reg'.responseHosts ∧
      ((after mode sessionID es).tokensByResponse.listed (host, reg.port)).head? = some d.token ∧
      ((∀ t' reg'', (after mode sessionID es).registrations t' = some reg'' →
        reg''.port = reg.port → host ∈ reg''.responseHosts → t' = t) → d.token = t) ∧
      (RunAll (step mode) (Exclusive mode host reg.port) (initial sessionID) es →
        reg'.dstHost = some host ∧
        ∀ t' reg'', (after mode sessionID es).registrations t' = some reg'' →
        reg''.port = reg.port →
          reg''.dstHost = some host → d.token ≤ t') := by
  have hidx := after_indexed mode sessionID es
  have hcached := after_cached mode sessionID es
  have hexclusive := fun hrun => @after_exclusive η mode sessionID host reg.port es hrun
  generalize after mode sessionID es = s at *
  obtain ⟨plain, hplain, hdecrypt⟩ := hanswer
  obtain ⟨plain', hplain', hdecode⟩ := decodeUDPPacket_encodeUDPPacket hreadable hport payload
  rw [hplain, Option.some.injEq] at hplain'
  subst hplain'
  obtain ⟨hdec, hregs, hindex⟩ := hidx.decryptPacket mode now data
  have hpacket : (s.decryptPacket mode now data).2.bind decodeUDPPacket =
      some ⟨host, reg.port, payload⟩ := by
    rw [decryptPacket_eq hcached, hdecrypt, Option.bind_some, hdecode]
  have hans : (s.decryptPacket mode now data).1.Answers (host, reg.port) t :=
    answers_of_dstHost (by rw [hregs]; exact hreg) hdst
  obtain ⟨d, reg', ts, hdispatch, hroute, hpayload, hhandler, htoken, hport', hmem, hlist⟩ :=
    @dispatch_first η _ hdec ⟨host, reg.port, payload⟩ t hans
  rw [hregs] at htoken
  rw [hindex] at hlist
  have hresult : s.handleReceivedDatagram mode now data = ((s.decryptPacket mode now data).1,
      some d) := by
    rw [handleReceivedDatagram, hpacket]
    exact hdispatch
  refine ⟨d, reg', by rw [hresult], by rw [hresult, hregs], hroute, hpayload, hhandler,
    htoken, hport', hmem, by rw [hlist]; rfl, fun honly => honly d.token reg' htoken hport' hmem,
    fun hrun => ?_⟩
  obtain ⟨hown, hord⟩ := hexclusive hrun
  refine ⟨hown d.token reg' htoken hport' hmem, fun t' reg'' hreg'' hport'' hdst'' => ?_⟩
  have hlisted : t' ∈ s.tokensByResponse.listed (host, reg.port) :=
    (hidx.byResponse.mem_iff (host, reg.port) t').2 ⟨reg'', hreg'', hport'',
      List.mem_of_head? hdst''⟩
  rw [Ordered, hlist, pairwise_cons] at hord
  rw [hlist] at hlisted
  rcases mem_cons.1 hlisted with rfl | hlater
  · exact Nat.le_refl _
  · exact Nat.le_of_lt (hord.1 t' hlater)

/-- 1.1.1.1 on the platform. -/
def resolverInet : Net.Inet :=
  ⟨fun text => if text = "1.1.1.1".toList then some resolver else none⟩

theorem resolver_readable : Readable resolverInet resolver.toText :=
  .address resolver (by decide) trivial

/-- One flow to the resolver: its answer comes to it. -/
theorem reply_first_resolver :
    ∃ d reg', ((after (.legacy some) 0 [.register resolver.toText 53 [] 1]).handleReceivedDatagram
        (.legacy some) 0 (resolver.packet 53 [7])).2 = some d ∧
      d.payload = [7] ∧ d.token = 1 ∧ d.handler = reg'.handler ∧
      (after (.legacy some) 0 [.register resolver.toText 53 [] 1]).registrations d.token =
        some reg' := by
  have hanswer : Answer Nat (.legacy some) 0 resolverInet resolver.toText 53 0
      (resolver.packet 53 [7])
      [7] := ⟨resolver.packet 53 [7], by decide, rfl⟩
  obtain ⟨d, reg', hd, -, -, hpayload, hhandler, hreg, -, -, hhead, -⟩ :=
    reply_first (.legacy some) 0 resolverInet [.register resolver.toText 53 [] 1] 1
      ⟨1, 53, [resolver.toText], false, 1⟩ resolver.toText 0 (resolver.packet 53 [7]) [7] rfl rfl
      (by decide) resolver_readable hanswer
  refine ⟨d, reg', hd, hpayload, ?_, hhandler, hreg⟩
  have hlist :
      (after (.legacy some) 0 [.register resolver.toText 53 [] (1 : Nat)]).tokensByResponse.listed
      (resolver.toText, 53) = [1] := by decide
  rw [hlist] at hhead
  exact (Option.some.inj hhead).symm

/-- Two local sockets ask the resolver; the answers to both come to the first flow. -/
theorem answers_to_first_flow :
    (after (.legacy some) 0 [.register resolver.toText 53 [] 1, .connected,
        .register resolver.toText 53 [] 2, .send 1 resolver.toText 53 [1],
        .send 2 resolver.toText 53 [2]]).registrations 2 =
      some ⟨2, 53, [resolver.toText], false, 2⟩ ∧
    Answer Nat (.legacy some) 0 resolverInet resolver.toText 53 0 (resolver.packet 53 [2]) [2] ∧
    ((after (.legacy some) 0 [.register resolver.toText 53 [] 1, .connected,
        .register resolver.toText 53 [] 2, .send 1 resolver.toText 53 [1],
        .send 2 resolver.toText 53 [2],
        .datagram 0 (resolver.packet 53 [1])]).handleReceivedDatagram
          (.legacy some) 0 (resolver.packet 53 [2])).2 =
      some ⟨1, 1, resolver.toText, [2], .exact⟩ := by
  refine ⟨rfl, ⟨resolver.packet 53 [2], by decide, rfl⟩, ?_⟩
  decide

end ShadowsocksUdpSession

end Anywhere.Shadowsocks
