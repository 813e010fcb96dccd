import Anywhere.Tcp.Runs

/-!
# Anywhere — the downlink of a connection

Bytes travel from an upstream receive through `pendingWrite` into lwIP's send
buffer. Every drain writes a prefix of `pendingWrite` and drops exactly that
prefix, so the stream is never reordered, whatever lwIP answers:

* `downlink_stream` — in every run, what `nativeTcpWrite` accepted is a prefix
  of what was received, and while the connection is open the two differ by
  exactly what `pendingWrite` holds.
-/

namespace Anywhere.Tcp

open List

variable {σ : Type}

/-- Accepted, then pending, is what was received. -/
structure DownlinkInv (c : Core) : Prop where
  accepted : acceptedBytes c.trace <+: upstreamBytes c.trace
  pending : c.closed = false →
    acceptedBytes c.trace ++ c.pendingWrite.toByteArray = upstreamBytes c.trace

theorem downlinkInv_fresh : DownlinkInv .fresh := ⟨by simp [Core.fresh, acceptedBytes], by
  intro _
  rfl⟩

/-- An action that adds no accepted and no received bytes, and keeps
`pendingWrite`, changes nothing about the downlink. -/
theorem downlinkInv_frame {c c' : Core} (h : DownlinkInv c) (l : List Obs)
    (htr : c'.trace = c.trace ++ l) (hw : c'.pendingWrite = c.pendingWrite)
    (hc : c'.closed = false → c.closed = false)
    (hf : acceptedBytes l = []) (hu : upstreamBytes l = []) : DownlinkInv c' := by
  have hacc : acceptedBytes c'.trace = acceptedBytes c.trace := by
    rw [htr, acceptedBytes_append, hf, append_nil]
  have hup : upstreamBytes c'.trace = upstreamBytes c.trace := by
    rw [htr, upstreamBytes_append, hu, append_nil]
  refine ⟨?_, fun ho => ?_⟩
  · rw [hacc, hup]
    exact h.accepted
  · rw [hacc, hup, hw]
    exact h.pending (hc ho)

/-- The bytes `nativeTcpRecved` acknowledges are not downlink bytes. -/
theorem acceptedBytes_ackObs (bytes : Nat) : acceptedBytes (ackObs bytes) = [] := by
  refine flatMap_eq_nil_iff.mpr fun o ho => ?_
  rcases ackObs_kind bytes o ho with h | rfl
  · cases o <;> first | rfl | cases h
  · rfl

theorem upstreamBytes_ackObs (bytes : Nat) : upstreamBytes (ackObs bytes) = [] :=
  upstreamBytes_eq_nil fun o ho => by
    rcases ackObs_kind bytes o ho with h | rfl <;> simp_all [Obs.kind]

theorem downlinkInv_action {F : List Job → Prop} {c c' : Core} (h : Action F c c')
    (hi : DownlinkInv c) : DownlinkInv c' := by
  cases h with
  | afterClosed hc hc' hb l htr hl =>
    have hacc : acceptedBytes l = [] := acceptedBytes_eq_nil fun o ho => by
      rcases hl o ho with h | h | h <;> simp [h]
    refine ⟨?_, fun ho => by simp [hc'] at ho⟩
    rw [htr, acceptedBytes_append, upstreamBytes_append, hacc, append_nil]
    exact hi.accepted.trans (prefix_append _ _)
  | shut ho hc' hb l htr hl =>
    obtain ⟨front, feed, rel, rfl, hfront, -, hfeed, hpre, hrel⟩ := hl.split
    have hacc1 : acceptedBytes front = [] := acceptedBytes_eq_nil fun o ho => by
      rcases hfront o ho with h | h <;> simp [h]
    have hacc2 : acceptedBytes rel = [] := acceptedBytes_eq_nil fun o ho => by
      simp [hrel.kind o ho]
    have hup1 : upstreamBytes front = [] := upstreamBytes_eq_nil fun o ho => by
      rcases hfront o ho with h | h <;> simp [h]
    have hup2 : upstreamBytes feed = [] := upstreamBytes_eq_nil fun o ho => by
      simp [hfeed o ho]
    have hup3 : upstreamBytes rel = [] := upstreamBytes_eq_nil fun o ho => by
      simp [hrel.kind o ho]
    refine ⟨?_, fun ho => by simp [hc'] at ho⟩
    -- the last feed places a prefix of what `pendingWrite` held
    obtain ⟨rest, hrest⟩ := hpre
    rw [htr]
    simp only [acceptedBytes_append, upstreamBytes_append, hacc1, hacc2, hup1, hup2, hup3,
      nil_append, append_nil]
    rw [← hi.pending ho, ← hrest, ← append_assoc]
    exact prefix_append _ _
  | upstream ho data =>
    refine ⟨?_, fun _ => ?_⟩
    · simp only [acceptedBytes_append, upstreamBytes_append]
      rw [show acceptedBytes [Obs.upstream data] = [] from rfl, append_nil]
      exact hi.accepted.trans (prefix_append _ _)
    · simp only [acceptedBytes_append, upstreamBytes_append,
        ByteArrayOutputStream.toByteArray_write]
      rw [show acceptedBytes [Obs.upstream data] = [] from rfl,
        show upstreamBytes [Obs.upstream data] = data by simp [upstreamBytes, Obs.upstreamPart],
        append_nil, ← append_assoc, hi.pending ho]
  | feed ho l rest hl hw =>
    have hup : upstreamBytes l = [] := upstreamBytes_eq_nil fun o ho => by simp [hl o ho]
    have hall : acceptedBytes (c.trace ++ l) ++ rest.toByteArray =
        upstreamBytes (c.trace ++ l) := by
      rw [acceptedBytes_append, upstreamBytes_append, hup, append_nil, append_assoc, hw,
        hi.pending ho]
    exact ⟨⟨_, hall⟩, fun _ => hall⟩
  | @coroutine ho co l hj r hr hF =>
    have hk := resume_kind co r
    exact downlinkInv_frame hi _ rfl rfl id
      (acceptedBytes_eq_nil fun o h => by simp [hk o h])
      (upstreamBytes_eq_nil fun o h => by simp [hk o h])
  | ack ho hj =>
    exact downlinkInv_frame hi _ rfl rfl id (acceptedBytes_ackObs _) (upstreamBytes_ackObs _)
  | proxyConnected ho hj rest hrest new tr hnew =>
    rcases hnew with ⟨-, rfl⟩ | ⟨-, rfl, -⟩
    · exact downlinkInv_frame hi [] rfl rfl id rfl rfl
    · exact downlinkInv_frame hi _ rfl rfl id (acceptedBytes_ackObs _) (upstreamBytes_ackObs _)
  | ret | deliverPending | deliverCoalesce => exact downlinkInv_frame hi _ rfl rfl id rfl rfl
  | pick | schedule | dialDirect | dialProxy | directConnected | flushTask | flushTaskIdle
  | flushDone | flushAgain | flushLost | flushCancelled | received | drainRetry | armReceive
  | postRetry => exact downlinkInv_frame hi [] (by simp) rfl id rfl rfl

/-- **The downlink stream.** In every run of a connection, whatever lwIP answers
to each call, the bytes accepted by `nativeTcpWrite` are, in order, a prefix of
the bytes received from upstream; and while the connection is open the rest of
the received bytes is what `pendingWrite` holds. -/
theorem downlink_stream (env : Env σ) (p : Params σ) (es : List Event) :
    acceptedBytes (runFrom env p es).trace <+: upstreamBytes (runFrom env p es).trace ∧
      ((runFrom env p es).closed = false →
        acceptedBytes (runFrom env p es).trace ++ (runFrom env p es).pendingWrite.toByteArray =
          upstreamBytes (runFrom env p es).trace) := by
  have hinv : DownlinkInv (runFrom env p es).toCore :=
    core_invariant downlinkInv_fresh (fun _ _ => downlinkInv_action) env p es
  exact ⟨hinv.accepted, hinv.pending⟩

end Anywhere.Tcp
