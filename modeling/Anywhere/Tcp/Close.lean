import Anywhere.Tcp.Downlink
import Anywhere.Tcp.Pcb
import Anywhere.Tcp.Uplink

/-!
# Anywhere — what an orderly close leaves behind

`close` makes one best-effort flush of `pendingWrite` and then closes the pcb
and drops every buffer. This module says what that leaves undone, for every way
in which `close` is reached after the upstream EOF:

* `orderly_close` — the bytes `nativeTcpWrite` accepted before `nativeTcpClose`
  miss exactly what that one flush could not place, and the bytes handed
  upstream miss exactly what was still held.
-/

namespace Anywhere.Tcp

open List

variable {σ : Type}

-- ----
-- Uplink bytes are held somewhere until they are handed upstream

/-- Delivered bytes that were not handed upstream, wherever they are. -/
def Core.heldUplink (c : Core) : Bytes :=
  c.pendingData.toByteArray ++ c.coalesced ++ c.jobs.flatMap Job.unsent

/-- **A coroutine loses no byte.** What it hands upstream in one turn, followed
by what it leaves to the jobs it posts, is what it had to send. -/
theorem resume_unsent (co : Coroutine) (r : Outcome) (hr : co.sendCancelled r = false) :
    handedBytes (co.resume r).1 ++ (co.resume r).2.flatMap Job.unsent =
      (Job.coroutine co).unsent := by
  have hchunk := flushChunk_append_drop
  -- the two loops, from any position
  have hsend : ∀ (todo : List Bytes) (k : Nat), handedBytes (connectSendFrom todo k).1 ++
      (connectSendFrom todo k).2.flatMap Job.unsent = todo.flatten := by
    intro todo k
    cases todo <;> simp [connectSendFrom, handedBytes, Obs.handedPart, Job.unsent]
  have hflush : ∀ (data : Bytes) (sent : Nat), handedBytes (flushFrom data sent).1 ++
      (flushFrom data sent).2.flatMap Job.unsent = data.drop sent := by
    intro data sent
    unfold flushFrom
    split
    · simpa [handedBytes, Obs.handedPart, Job.unsent] using hchunk data sent
    · rename_i hdone
      have hnil := drop_eq_nil_iff.mpr (not_lt.mp hdone)
      simp [handedBytes, Job.unsent, hnil]
  cases co with
  | dialDirect calling d =>
    cases calling <;> cases r <;> simp [Coroutine.resume, handedBytes, Job.unsent]
  | dialProxy calling hops d =>
    cases calling with
    | false =>
      cases hops <;> cases d <;>
        simp [Coroutine.resume, finalHop, handedBytes, Obs.handedPart, Job.unsent]
    | true =>
      cases hops with
      | zero =>
        cases r <;> cases d <;>
          simp [Coroutine.resume, handedBytes, Obs.handedPart, Job.unsent]
      | succ hops =>
        cases r with
        | returned _ =>
          cases hops <;> cases d <;>
            simp [Coroutine.resume, finalHop, handedBytes, Obs.handedPart, Job.unsent]
        | threw => simp [Coroutine.resume, handedBytes, Job.unsent]
        | cancelled => simp [Coroutine.resume, handedBytes, Job.unsent]
  | dialAbandoned held k => simp [Coroutine.resume, handedBytes, Job.unsent]
  | connectSend calling todo k =>
    cases calling with
    | false => exact hsend todo k
    | true =>
      cases r with
      | returned _ => exact hsend todo.tail k
      | threw => simp [Coroutine.resume, handedBytes, Obs.handedPart, Job.unsent]
      | cancelled => cases hr
  | flush calling data sent =>
    cases calling with
    | false => exact hflush data sent
    | true =>
      cases r with
      | returned _ => exact hflush data (sent + (flushChunk data sent).length)
      | threw => simp [Coroutine.resume, handedBytes, Obs.handedPart, Job.unsent]
      | cancelled => cases hr
  | receive calling => cases calling <;> simp [Coroutine.resume, handedBytes, Job.unsent]

/-- Handed and held together are the delivered bytes, up to order. -/
def HeldInv (c : Core) : Prop :=
  c.closed = false → (handedBytes c.trace ++ c.heldUplink).Perm (deliveredBytes c.trace)

/-- An action that delivers nothing and moves bytes from one holder to another
or upstream. -/
theorem heldInv_move {c c' : Core} (hi : HeldInv c) (ho : c.closed = false) (l : List Obs)
    (htr : c'.trace = c.trace ++ l) (hdel : deliveredBytes l = [])
    (hheld : (handedBytes l ++ c'.heldUplink).Perm c.heldUplink) : HeldInv c' := by
  intro _
  rw [htr, handedBytes_append, deliveredBytes_append, hdel, append_nil, append_assoc]
  exact (hheld.append_left _).trans (hi ho)

/-- A job is replaced by others that hold the same bytes. -/
theorem heldInv_job {c c' : Core} (hi : HeldInv c) (ho : c.closed = false) {j : Job}
    {l new : List Job} (hj : c.jobs = j :: l) (hj' : c'.jobs = l ++ new) (tr : List Obs)
    (htr : c'.trace = c.trace ++ tr) (hdel : deliveredBytes tr = [])
    (hbytes : (handedBytes tr ++ new.flatMap Job.unsent ++ c'.pendingData.toByteArray ++
      c'.coalesced).Perm (j.unsent ++ c.pendingData.toByteArray ++ c.coalesced)) :
    HeldInv c' := by
  refine heldInv_move hi ho tr htr hdel (perm_iff_count.mpr fun b => ?_)
  have hcount := perm_iff_count.mp hbytes b
  simp only [Core.heldUplink, hj, hj', flatMap_append, flatMap_cons, count_append]
    at hcount ⊢
  omega

theorem handedBytes_ackObs (bytes : Nat) : handedBytes (ackObs bytes) = [] :=
  handedBytes_eq_nil fun o ho => by
    rcases ackObs_kind bytes o ho with h | rfl <;> simp_all [Obs.kind]

theorem heldInv_action {F : List Job → Prop} {c c' : Core} (h : Action F c c')
    (hw : WindowInv c) (hi : HeldInv c) : HeldInv c' := by
  cases h with
  | pick hperm =>
    intro ho
    refine List.Perm.trans ?_ (hi ho)
    exact (((hperm.symm.flatMap_right Job.unsent).append_left _).append_left _)
  | afterClosed hc hc' | shut ho hc' =>
    intro h
    simp [hc'] at h
  | ret ho err => exact heldInv_move hi ho _ rfl rfl (List.Perm.refl _)
  | deliverPending ho hl data | deliverCoalesce ho hl data =>
    intro _
    refine perm_iff_count.mpr fun b => ?_
    have hcount := perm_iff_count.mp (hi ho) b
    simp only [Core.heldUplink, Core.coalesced, handedBytes_append, deliveredBytes_append,
      ByteArrayOutputStream.toByteArray_write, Option.getD_some, count_append] at hcount ⊢
    simp only [handedBytes, deliveredBytes, Obs.handedPart, Obs.deliveredPart, flatMap_cons,
      flatMap_nil, append_nil, count_nil] at hcount ⊢
    omega
  | schedule ho hl hf hs =>
    refine heldInv_move hi ho [] (by simp) rfl ?_
    simp [Core.heldUplink, Core.coalesced, handedBytes, Job.unsent]
  | dialDirect ho hidle d rest hd | dialProxy ho hidle hops d rest hd =>
    refine heldInv_move hi ho [] (by simp) rfl (perm_iff_count.mpr fun b => ?_)
    have hcount := congrArg (List.count b) hd
    simp only [Core.heldUplink, Core.coalesced, handedBytes, flatMap_append,
      flatMap_cons, flatMap_nil, append_nil, count_append, nil_append,
      Job.unsent] at hcount ⊢
    omega
  | directConnected ho hj rest hrest new hnew =>
    refine heldInv_job hi ho hj rfl [] (by simp) rfl (List.Perm.of_eq ?_)
    rcases hnew with ⟨todo, rfl, hbytes⟩ | ⟨rfl, rfl, hbytes⟩
    · simp [handedBytes, Job.unsent, hrest, ← hbytes, Core.coalesced]
    · simp [handedBytes, Job.unsent, hrest, hbytes, Core.coalesced]
  | proxyConnected ho hj rest hrest new tr hnew =>
    rcases hnew with ⟨rfl, rfl⟩ | ⟨rfl, rfl, hbytes⟩
    · refine heldInv_job hi ho hj rfl [] (by simp) rfl (List.Perm.of_eq ?_)
      simp [handedBytes, Job.unsent, hrest, Core.coalesced]
    · refine heldInv_job hi ho hj rfl _ rfl (deliveredBytes_ackObs _) (List.Perm.of_eq ?_)
      simp [handedBytes_ackObs, Job.unsent, hrest, hbytes, Core.coalesced]
  | @flushTask ho l hj buf hb hne | @flushAgain ho l hj buf hb hne =>
    refine heldInv_job hi ho hj rfl [] (by simp) rfl (perm_iff_count.mpr fun b => ?_)
    simp [handedBytes, Job.unsent, Core.coalesced, hb, count_append]
    omega
  | flushTaskIdle ho hj hb =>
    have hempty : c.coalesced = [] := coalesced_eq_nil hw ho hb
    refine heldInv_job hi ho hj (append_nil _).symm [] (by simp) rfl (List.Perm.of_eq ?_)
    rw [hempty]
    simp [handedBytes, Job.unsent, Core.coalesced]
  | flushLost ho hj hb =>
    have hempty : c.coalesced = [] := coalesced_eq_nil hw ho (.inr hb)
    refine heldInv_job hi ho hj (append_nil _).symm [] (by simp) rfl (List.Perm.of_eq ?_)
    rw [hempty]
    simp [handedBytes, Job.unsent, Core.coalesced]
  | flushDone ho hj | flushCancelled ho hj | received ho hj | drainRetry ho hj =>
    refine heldInv_job hi ho hj (append_nil _).symm [] (by simp) rfl (List.Perm.of_eq ?_)
    simp [handedBytes, Job.unsent, Core.coalesced]
  | @coroutine ho co l hj r hr hF =>
    have hk := resume_kind co r
    refine heldInv_job hi ho hj rfl _ rfl (deliveredBytes_eq_nil fun o h => by simp [hk o h]) ?_
    rw [resume_unsent co r hr]
    exact List.Perm.refl _
  | ack ho hj =>
    refine heldInv_job hi ho hj (append_nil _).symm _ rfl (deliveredBytes_ackObs _)
      (List.Perm.of_eq ?_)
    simp [handedBytes_ackObs, Job.unsent, Core.coalesced]
  | armReceive ho | postRetry ho =>
    refine heldInv_move hi ho [] (by simp) rfl ?_
    simp [Core.heldUplink, Core.coalesced, handedBytes, Job.unsent]
  | upstream ho data => exact heldInv_move hi ho _ rfl rfl (List.Perm.refl _)
  | feed ho l rest hl hw =>
    refine heldInv_move hi ho l rfl (deliveredBytes_eq_nil fun o h => by simp [hl o h]) ?_
    rw [handedBytes_eq_nil fun o h => by simp [hl o h]]
    exact List.Perm.refl _

/-- In every open state of every run each delivered byte was handed upstream or
is held. -/
theorem held_uplink (env : Env σ) (p : Params σ) (es : List Event) :
    HeldInv (runFrom env p es).toCore :=
  (core_invariant (I := fun c => WindowInv c ∧ HeldInv c)
    ⟨windowInv_fresh, fun _ => List.Perm.refl _⟩
    (fun _ _ h hi => ⟨windowInv_action h hi.1, heldInv_action h hi.1 hi.2⟩) env p es).2

-- ----
-- The last flush

/-- lwIP refuses nothing: there is always room, and every `tcp_write` succeeds. -/
def Native.Takes (n : Native) : Prop := (∀ k, 0 < n.sndbuf k) ∧ ∀ k, n.write k = 0

/-- When lwIP refuses nothing the loop of `feedLwip` ends with everything placed. -/
theorem feedLoop_all {n : Native} (hn : n.Takes) (data : Bytes) (dataOffset count : Nat)
    (fuel k offset : Nat) (hoff : offset ≤ count) (hfuel : count - offset ≤ fuel) :
    acceptedBytes (feedLoop n data dataOffset count false fuel k offset).2 =
      (data.drop (dataOffset + offset)).take (count - offset) := by
  induction fuel generalizing k offset with
  | zero =>
    have hzero : count - offset = 0 := by omega
    simp [feedLoop, acceptedBytes, hzero]
  | succ fuel ih =>
    have hroom := hn.1 (2 * k)
    have hask : askSndbuf n k false = (n.sndbuf (2 * k), [.sndbuf]) := by
      simp [askSndbuf]
    unfold feedLoop
    simp only [hask, hn.2 k, ne_eq, not_true_eq_false, if_false]
    split
    · rename_i hlt
      rw [if_neg (by omega)]
      generalize hchunk : min (n.sndbuf (2 * k)).toNat (min (count - offset) tcpMaxWriteSize) =
        chunk
      have hpos : 0 < chunk := by
        have : 0 < tcpMaxWriteSize := by decide
        omega
      have hrest := ih (k + 1) (offset + chunk) (by omega) (by omega)
      simp only [acceptedBytes_append, hrest]
      simp only [acceptedBytes, Obs.acceptedPart, flatMap_cons, flatMap_nil, if_true,
        nil_append, append_nil]
      -- this chunk and what the later turns place are consecutive
      have hdrop : data.drop (dataOffset + (offset + chunk)) =
          (data.drop (dataOffset + offset)).drop chunk := by
        rw [drop_drop, Nat.add_assoc]
      rw [hdrop, ← take_add]
      congr 1
      omega
    · have hzero : count - offset = 0 := by omega
      simp [acceptedBytes, hzero]

/-- The last flush places all of `pendingWrite` when lwIP refuses nothing. -/
theorem flushObs_all {n : Native} (hn : n.Takes) (b : ByteArrayOutputStream) :
    acceptedBytes (flushObs n b) = b.toByteArray := by
  have hloop := feedLoop_all hn b.backingArray 0 b.size b.size 0 0 (Nat.zero_le _) (by omega)
  have hsize : b.size = b.toByteArray.length := b.size_eq
  unfold flushObs
  split
  · rename_i hzero
    rw [hsize] at hzero
    rw [eq_nil_of_length_eq_zero hzero]
    rfl
  · have hout : acceptedBytes (if (feedLwip n b.backingArray 0 b.size false).1 > 0 then
        [Obs.output] else []) = [] := by
      split <;> rfl
    rw [acceptedBytes_append, hout, append_nil, feedLwip, hloop]
    simp only [Nat.add_zero, drop_zero, Nat.sub_zero, hsize]
    exact b.take_backingArray

-- ----
-- Closing after the upstream EOF

/-- How `close` is reached after the upstream EOF: by FIN, by the half-close
timeout, or by the EOF itself when FIN came first. -/
inductive ClosesAfterEof (s : State σ) : Event → Native → Prop
  | fin (n : Native) (hb : s.bound = true) (hd : s.downlinkDone = true) :
      ClosesAfterEof s (.fin n) n
  | finPbuf (n : Native) (hb : s.bound = true) (hd : s.downlinkDone = true) :
      ClosesAfterEof s (.recv n [] false) n
  | timeout (n : Native) (t : ActivityTimer) (ht : s.activityTimer = some t)
      (hx : t.tick.2 = true) (hd : s.downlinkDone = true) : ClosesAfterEof s (.activityTick n) n
  | eof (n : Native) (i : Nat) (r : Outcome) (d : Option Bytes)
      (hj : s.jobs[i]? = some (.received (.returned d))) (he : d.getD [] = [])
      (hu : s.uplinkDone = true) : ClosesAfterEof s (.job n i r) n

theorem pendingWrite_beginConnecting (s : State σ) :
    s.beginConnecting.pendingWrite = s.pendingWrite := by
  have htake : ∀ t : State σ, t.takePendingData.2.pendingWrite = t.pendingWrite := by
    intro t
    unfold State.takePendingData
    split <;> rfl
  unfold State.beginConnecting State.connectDirect State.connectProxy
  dsimp only
  split_ifs <;> first | rfl | exact htake _

/-- FIN after the EOF closes, whatever the sniff phase was doing. -/
theorem handleRemoteClose_after_eof (n : Native) {s : State σ} (ho : s.closed = false)
    (hd : s.downlinkDone = true) :
    (s.handleRemoteClose n).closed = true ∧
      (s.handleRemoteClose n).trace = s.trace ++ (flushObs n s.pendingWrite ++ closeObs n) := by
  have hfinish : ∀ t : State σ, t.closed = false → t.downlinkDone = true →
      (t.finishUplink n).closed = true ∧
        (t.finishUplink n).trace = t.trace ++ (flushObs n t.pendingWrite ++ closeObs n) := by
    intro t hto htd
    obtain ⟨hc, -, htr⟩ := close_open n (s := { t with uplinkDone := true }) hto
    unfold State.finishUplink
    dsimp only
    rw [if_pos htd]
    exact ⟨hc, htr⟩
  unfold State.handleRemoteClose
  rw [if_neg (by simp [ho])]
  split
  · dsimp only
    split
    · obtain ⟨hc, -, htr⟩ := close_open n (s := s.commitRoute) ho
      exact ⟨hc, htr⟩
    · obtain ⟨hc, htr⟩ := hfinish s.commitRoute.beginConnecting
        (by rw [beginConnecting_keeps.1]; exact ho) (by rw [beginConnecting_keeps.2]; exact hd)
      rw [trace_beginConnecting, pendingWrite_beginConnecting] at htr
      exact ⟨hc, htr⟩
  · exact hfinish s ho hd

/-- The step that closes: one flush of `pendingWrite`, then `nativeTcpClose`. -/
theorem step_closesAfterEof (env : Env σ) {s : State σ} {e : Event} {n : Native}
    (ho : s.closed = false) (h : ClosesAfterEof s e n) :
    (step env s e).closed = true ∧ ∃ back, (∀ o ∈ back, o.kind = .ret) ∧
      (step env s e).trace =
        s.trace ++ (flushObs n s.pendingWrite ++ closeObs n) ++ back := by
  cases h with
  | fin _ hb hd | finPbuf _ hb hd =>
    obtain ⟨hc, htr⟩ := handleRemoteClose_after_eof n ho hd
    refine ⟨?_, [.ret errOk], by simp [Obs.kind], ?_⟩
    · simp only [step, hb, if_true, State.tcpRecvCb, State.onTcpRecv]
      exact hc
    · simp only [step, hb, if_true, State.tcpRecvCb, State.onTcpRecv]
      exact congrArg (· ++ [Obs.ret errOk]) htr
  | timeout _ t ht hx hd =>
    obtain ⟨hc, -, htr⟩ := close_open n (s := { s with activityTimer := some t.tick.1 }) ho
    refine ⟨?_, [], by simp, ?_⟩
    · simp only [step, State.onActivityTick, ht, hx, if_true]
      exact hc
    · simp only [step, State.onActivityTick, ht, hx, if_true, append_nil]
      exact htr
  | eof _ i r d hj he hu =>
    have hstep : step env s (.job n i r) = State.close n { s with
        jobs := s.jobs.eraseIdx i, receiveInFlight := false, downlinkDone := true } := by
      simp only [step, hj, State.enabled, if_true, State.runJob, State.receivedTask, he,
        isEmpty_nil]
      rw [if_neg (by simp [ho]), if_pos hu]
    obtain ⟨hc, -, htr⟩ := close_open n (s := { s with
      jobs := s.jobs.eraseIdx i, receiveInFlight := false, downlinkDone := true }) ho
    rw [hstep]
    exact ⟨hc, [], by simp, by simpa using htr⟩

/-- What `close` owes to the two streams. -/
structure Closed (s : State σ) (n : Native) (tr : List Obs) : Prop where
  /-- One best-effort flush comes before `nativeTcpClose`, and nothing is written
  after it. -/
  flushed : ∃ back, tr = s.trace ++ flushObs n s.pendingWrite ++ .tcpClose n.tcpClose :: back ∧
    acceptedBytes back = []
  /-- The downlink misses exactly what that flush could not place. -/
  downlink : acceptedBytes tr ++
    s.pendingWrite.toByteArray.drop (acceptedBytes (flushObs n s.pendingWrite)).length =
      upstreamBytes tr
  /-- The uplink misses exactly what was still held. -/
  uplink : (handedBytes tr ++ s.heldUplink).Perm (deliveredBytes tr)

/-- **An orderly close.** In every run in which `close` is reached after the
upstream EOF: it flushes `pendingWrite` once before `nativeTcpClose`; every
received byte has been accepted by then exactly when that flush places all of
`pendingWrite`, which it does when lwIP refuses nothing; and every delivered byte
has been handed upstream exactly when none is held any more in `pendingData`, in
the coalesce buffer or by a pending coroutine. -/
theorem orderly_close (env : Env σ) (p : Params σ) (es : List Event) (e : Event) (n : Native)
    (ho : (runFrom env p es).closed = false) (h : ClosesAfterEof (runFrom env p es) e n) :
    let s := runFrom env p es
    let tr := (step env s e).trace
    Closed s n tr ∧
      (acceptedBytes tr = upstreamBytes tr ↔
        acceptedBytes (flushObs n s.pendingWrite) = s.pendingWrite.toByteArray) ∧
      (n.Takes → acceptedBytes tr = upstreamBytes tr) ∧
      ((handedBytes tr).Perm (deliveredBytes tr) ↔ s.heldUplink = []) := by
  intro s tr
  obtain ⟨-, back, hback, htr⟩ := step_closesAfterEof env ho h
  change tr = s.trace ++ (flushObs n s.pendingWrite ++ closeObs n) ++ back at htr
  obtain ⟨hfeed, hpre⟩ := flushObs_spec n s.pendingWrite
  have hclose := (release_closeObs n).kind
  have hpending := (downlink_stream env p es).2 ho
  have hheld : (handedBytes s.trace ++ s.heldUplink).Perm (deliveredBytes s.trace) :=
    held_uplink env p es ho
  -- the closing step receives, delivers and hands nothing
  have hacc : acceptedBytes tr = acceptedBytes s.trace ++
      acceptedBytes (flushObs n s.pendingWrite) := by
    rw [htr]
    simp only [acceptedBytes_append]
    rw [acceptedBytes_eq_nil (l := closeObs n) fun o ho => by simp [hclose o ho],
      acceptedBytes_eq_nil (l := back) fun o ho => by simp [hback o ho]]
    simp
  have hup : upstreamBytes tr = upstreamBytes s.trace := by
    rw [htr]
    simp only [upstreamBytes_append]
    rw [upstreamBytes_eq_nil (l := closeObs n) fun o ho => by simp [hclose o ho],
      upstreamBytes_eq_nil (l := back) fun o ho => by simp [hback o ho],
      upstreamBytes_eq_nil (l := flushObs n s.pendingWrite) fun o ho => by simp [hfeed o ho]]
    simp
  have hhand : handedBytes tr = handedBytes s.trace := by
    rw [htr]
    simp only [handedBytes_append]
    rw [handedBytes_eq_nil (l := closeObs n) fun o ho => by simp [hclose o ho],
      handedBytes_eq_nil (l := back) fun o ho => by simp [hback o ho],
      handedBytes_eq_nil (l := flushObs n s.pendingWrite) fun o ho => by simp [hfeed o ho]]
    simp
  have hdel : deliveredBytes tr = deliveredBytes s.trace := by
    rw [htr]
    simp only [deliveredBytes_append]
    rw [deliveredBytes_eq_nil (l := closeObs n) fun o ho => by simp [hclose o ho],
      deliveredBytes_eq_nil (l := back) fun o ho => by simp [hback o ho],
      deliveredBytes_eq_nil (l := flushObs n s.pendingWrite) fun o ho => by simp [hfeed o ho]]
    simp
  have hall : acceptedBytes tr = upstreamBytes tr ↔
      acceptedBytes (flushObs n s.pendingWrite) = s.pendingWrite.toByteArray := by
    rw [hacc, hup, ← hpending]
    exact append_right_inj _
  refine ⟨⟨?_, ?_, ?_⟩, hall, fun hn => hall.mpr (flushObs_all hn _), ?_⟩
  · refine ⟨(if n.tcpClose ≠ 0 then [.tcpAbort] else []) ++ back, ?_, ?_⟩
    · rw [htr]
      simp [closeObs]
    · rw [acceptedBytes_append, acceptedBytes_eq_nil (l := back) fun o ho => by simp [hback o ho]]
      split <;> rfl
  · rw [hacc, hup, ← hpending, append_assoc]
    obtain ⟨rest, hrest⟩ := hpre
    congr 1
    rw [← hrest]
    simp
  · rw [hhand, hdel]
    exact hheld
  · rw [hhand, hdel]
    constructor
    · intro hperm
      have hlen := (hperm.trans hheld.symm).length_eq
      rw [length_append] at hlen
      exact eq_nil_of_length_eq_zero (by omega)
    · intro hnil
      rw [hnil, append_nil] at hheld
      exact hheld

/-- Of two bytes from upstream one fits into the send buffer; then upstream ends,
and a byte of the app waits for its flush. -/
def eofWhileStalled : List Event :=
  relayConnects ++
    [returns 0, returns 0 (some [7, 8]),
      .job ⟨fun k => if k = 0 then 1 else 0, fun _ => 0, 0⟩ 0 (.returned none)] ++
    [returns 0, returns 0, returns 0, .recv (lwip 0 0) [9] false]

/-- FIN comes while lwIP takes everything: the stalled byte is placed, the byte
that waits for its flush is dropped. -/
theorem orderly_close_fin :
    acceptedBytes (step plainEnv (runFrom plainEnv bypassed eofWhileStalled)
        (.fin (lwip 100 0))).trace =
      upstreamBytes (step plainEnv (runFrom plainEnv bypassed eofWhileStalled)
        (.fin (lwip 100 0))).trace ∧
    (runFrom plainEnv bypassed eofWhileStalled).heldUplink = [9] :=
  ⟨(orderly_close plainEnv bypassed eofWhileStalled (.fin (lwip 100 0)) (lwip 100 0) (by decide)
      (.fin _ (by decide) (by decide))).2.2.1 ⟨fun _ => by simp [lwip], fun _ => rfl⟩, by decide⟩

/-- FIN comes while the send buffer is still full: the pcb is closed in order,
and both the byte from upstream and the byte of the app are lost. -/
theorem close_truncates :
    ClosesAfterEof (runFrom plainEnv bypassed eofWhileStalled) (.fin (lwip 0 0)) (lwip 0 0) ∧
      ¬ (acceptedBytes (step plainEnv (runFrom plainEnv bypassed eofWhileStalled)
            (.fin (lwip 0 0))).trace =
          upstreamBytes (step plainEnv (runFrom plainEnv bypassed eofWhileStalled)
            (.fin (lwip 0 0))).trace ∧
        (handedBytes (step plainEnv (runFrom plainEnv bypassed eofWhileStalled)
            (.fin (lwip 0 0))).trace).Perm
          (deliveredBytes (step plainEnv (runFrom plainEnv bypassed eofWhileStalled)
            (.fin (lwip 0 0))).trace)) := by
  refine ⟨.fin _ (by decide) (by decide), ?_⟩
  rintro ⟨hdown, -⟩
  exact absurd hdown (by decide)

end Anywhere.Tcp
