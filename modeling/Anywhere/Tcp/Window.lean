import Anywhere.Tcp.Runs

/-!
# Anywhere — the receive window of a connection

lwIP's receive window shrinks by every byte `tcp_recv_cb` delivers and reopens
by what `nativeTcpRecved` acknowledges. Every delivered byte that has not been
acknowledged is accounted for: it sits in `pendingData`, in the coalesce
buffer, or with a pending job that owes its acknowledgement.

* `window_conservation` — acknowledged plus held is delivered, in every open
  state of every run; the connection never acknowledges more than it received,
  and once nothing is held back it has acknowledged everything.
-/

namespace Anywhere.Tcp

open List

variable {σ : Type}

/-! ## Who owes an acknowledgement -/

/-- Bytes whose acknowledgement a coroutine owes. -/
def Coroutine.unacked : Coroutine → Nat
  | dialDirect _ d => sizeOrZero d
  | dialProxy _ _ d => sizeOrZero d
  | dialAbandoned _ k => k
  | connectSend _ _ totalAck => totalAck
  | flush _ data sent => data.length - sent
  | receive _ => 0

/-- Bytes whose acknowledgement a pending job owes. -/
def Job.unacked : Job → Nat
  | directConnected d => sizeOrZero d
  | proxyConnected k => k
  | connectFailed _ _ k => k
  | ack k => k
  | abort _ k => k
  | flushFailed _ k => k
  | coroutine c => c.unacked
  | flushCoalesceBuffer | flushDone | flushCancelled | received _ | drainRetry => 0

def Core.coalesced (c : Core) : Bytes := (c.coalesceBuffer.getD .empty).toByteArray

/-- Delivered bytes that are held and not yet acknowledged. -/
def Core.heldBytes (c : Core) : Nat :=
  c.pendingData.toByteArray.length + c.coalesced.length + (c.jobs.map Job.unacked).sum

attribute [local grind =] Job.unacked Coroutine.unacked Coroutine.resume connectSendFrom flushFrom

theorem length_flushChunk (data : Bytes) (sent : Nat) :
    (flushChunk data sent).length = min (data.length - sent) tcpMaxCoalesceSize := by
  unfold flushChunk
  dsimp only
  split
  · rename_i h
    exact h.2.symm
  · simp only [length_take, length_drop]
    omega

theorem unacked_flushFrom (data : Bytes) (sent : Nat) :
    ((flushFrom data sent).2.map Job.unacked).sum = data.length - sent := by
  unfold flushFrom
  split
  · simp [Job.unacked, Coroutine.unacked]
  · simp only [map_cons, map_nil, sum_cons, sum_nil, Job.unacked]
    omega

theorem unacked_connectSendFrom (todo : List Bytes) (k : Nat) :
    ((connectSendFrom todo k).2.map Job.unacked).sum = k := by
  cases todo <;> simp [connectSendFrom, Job.unacked, Coroutine.unacked]

/-- **A coroutine loses no acknowledgement.** What it posts owes exactly what it
owed itself. -/
theorem resume_unacked (co : Coroutine) (r : Outcome) (hr : co.sendCancelled r = false) :
    ((co.resume r).2.map Job.unacked).sum = co.unacked := by
  cases co with
  | dialDirect calling d =>
    cases calling <;> cases r <;>
      simp [Coroutine.resume, Job.unacked, Coroutine.unacked, sizeOrZero]
  | dialProxy calling hops d =>
    cases calling with
    | false => simp [Coroutine.resume, Job.unacked, Coroutine.unacked]
    | true =>
      cases hops <;> cases r <;>
        simp [Coroutine.resume, Job.unacked, Coroutine.unacked]
  | dialAbandoned d k => simp [Coroutine.resume, Job.unacked, Coroutine.unacked]
  | connectSend calling todo k =>
    cases calling with
    | false => exact unacked_connectSendFrom todo k
    | true =>
      cases r with
      | returned _ => exact unacked_connectSendFrom todo.tail k
      | threw => simp [Coroutine.resume, Job.unacked, Coroutine.unacked]
      | cancelled => simp [Coroutine.sendCancelled] at hr
  | flush calling data sent =>
    cases calling with
    | false => exact unacked_flushFrom data sent
    | true =>
      cases r with
      | returned _ =>
        have hrest := unacked_flushFrom data (sent + (flushChunk data sent).length)
        have hlen := length_flushChunk data sent
        simp only [Coroutine.resume, map_cons, sum_cons, Job.unacked, Coroutine.unacked,
          hrest]
        omega
      | threw => simp [Coroutine.resume, Job.unacked, Coroutine.unacked]
      | cancelled => simp [Coroutine.sendCancelled] at hr
  | receive calling => cases calling <;> simp [Coroutine.resume, Job.unacked, Coroutine.unacked]

/-! ## The invariant -/

structure WindowInv (c : Core) : Prop where
  acked_le : ackedBytes c.trace ≤ (deliveredBytes c.trace).length
  conserved : c.closed = false → ackedBytes c.trace + c.heldBytes = (deliveredBytes c.trace).length
  /-- Bytes are coalesced only once there is a remote side to send them to. -/
  coalesced : c.closed = false → c.coalesced ≠ [] →
    c.directRelay = true ∨ c.vlessConnection = true

theorem windowInv_fresh : WindowInv .fresh :=
  ⟨Nat.zero_le _, fun _ => rfl, fun _ h => absurd rfl h⟩

/-- An open core that is conserved never acknowledged too much. -/
theorem windowInv_open {c : Core}
    (hcons : ackedBytes c.trace + c.heldBytes = (deliveredBytes c.trace).length)
    (hco : c.coalesced ≠ [] → c.directRelay = true ∨ c.vlessConnection = true) : WindowInv c :=
  ⟨by omega, fun _ => hcons, fun _ => hco⟩

/-- An action that delivers nothing and acknowledges what it no longer holds. -/
theorem windowInv_move {c c' : Core} (hi : WindowInv c) (ho : c.closed = false) (l : List Obs)
    (htr : c'.trace = c.trace ++ l) (hdel : deliveredBytes l = [])
    (hheld : ackedBytes l + c'.heldBytes = c.heldBytes)
    (hco : c'.coalesced ≠ [] → c'.directRelay = true ∨ c'.vlessConnection = true) :
    WindowInv c' := by
  refine windowInv_open ?_ hco
  have hcons := hi.conserved ho
  rw [htr, ackedBytes_append, deliveredBytes_append, hdel, append_nil]
  omega

theorem deliveredBytes_ackObs (bytes : Nat) : deliveredBytes (ackObs bytes) = [] :=
  deliveredBytes_eq_nil fun o ho => by
    rcases ackObs_kind bytes o ho with h | rfl <;> simp_all [Obs.kind]

/-- A flush that finds no remote side finds nothing to send either. -/
theorem coalesced_eq_nil {c : Core} (hi : WindowInv c) (ho : c.closed = false)
    (h : c.coalesced = [] ∨ c.directRelay = false ∧ c.vlessConnection = false) :
    c.coalesced = [] := by
  rcases h with h | ⟨hd, hv⟩
  · exact h
  · by_contra hne
    rcases hi.coalesced ho hne with h | h <;> simp_all

theorem windowInv_action {F : List Job → Prop} {c c' : Core} (h : Action F c c')
    (hi : WindowInv c) : WindowInv c' := by
  cases h with
  | pick hperm =>
    have hsum := Lib.sum_map_perm hperm Job.unacked
    refine ⟨hi.acked_le, fun ho => ?_, hi.coalesced⟩
    rw [← hi.conserved ho]
    simp only [Core.heldBytes, Core.coalesced, hsum]
  | afterClosed hc hc' hb l htr hl =>
    have hdel : deliveredBytes l = [] := deliveredBytes_eq_nil fun o ho => by
      rcases hl o ho with h | h | h <;> simp [h]
    have hack : ackedBytes l = 0 := ackedBytes_eq_zero fun o ho => by
      rcases hl o ho with h | h | h <;> simp [h]
    refine ⟨?_, fun ho => by simp [hc'] at ho, fun ho => by simp [hc'] at ho⟩
    rw [htr, ackedBytes_append, deliveredBytes_append, hdel, hack]
    simpa using hi.acked_le
  | shut ho hc' hb l htr hl =>
    obtain ⟨front, feed, rel, rfl, hfront, hle, hfeed, -, hrel⟩ := hl.split
    have hack1 : ackedBytes feed = 0 := ackedBytes_eq_zero fun o h => by simp [hfeed o h]
    have hack2 : ackedBytes rel = 0 := ackedBytes_eq_zero fun o h => by simp [hrel.kind o h]
    refine ⟨?_, fun h => by simp [hc'] at h, fun h => by simp [hc'] at h⟩
    -- what the closing step acknowledges was held in `pendingData`
    have hcons := hi.conserved ho
    rw [htr]
    simp only [ackedBytes_append, deliveredBytes_append, hack1, hack2, length_append]
    unfold Core.heldBytes at hcons
    omega
  | ret ho err => exact windowInv_move hi ho _ rfl rfl (Nat.zero_add _) (hi.coalesced ho)
  | deliverPending ho hl data =>
    refine windowInv_open ?_ (hi.coalesced ho)
    have hcons := hi.conserved ho
    simp only [Core.heldBytes, Core.coalesced, ackedBytes_append, deliveredBytes_append,
      ByteArrayOutputStream.toByteArray_write, length_append] at hcons ⊢
    simp only [ackedBytes, deliveredBytes, Obs.recvedPart, Obs.deliveredPart, map_cons,
      map_nil, sum_cons, sum_nil, flatMap_cons, flatMap_nil,
      append_nil] at hcons ⊢
    omega
  | deliverCoalesce ho hl data =>
    refine windowInv_open ?_ fun _ => ?_
    · have hcons := hi.conserved ho
      simp only [Core.heldBytes, Core.coalesced, ackedBytes_append, deliveredBytes_append,
        ByteArrayOutputStream.toByteArray_write, length_append, Option.getD_some] at hcons ⊢
      simp only [ackedBytes, deliveredBytes, Obs.recvedPart, Obs.deliveredPart, map_cons,
        map_nil, sum_cons, sum_nil, flatMap_cons, flatMap_nil,
        append_nil] at hcons ⊢
      omega
    · simp only [Core.live, Bool.and_eq_true, Bool.or_eq_true] at hl
      exact hl.1.1
  | schedule ho hl hf hs =>
    refine windowInv_move hi ho [] (by simp) rfl ?_ (hi.coalesced ho)
    simp [Core.heldBytes, Core.coalesced, ackedBytes, Job.unacked]
  | dialDirect ho hidle initialData rest hd =>
    refine windowInv_move hi ho [] (by simp) rfl ?_ fun _ => .inl rfl
    have hlen := congrArg List.length hd
    simp only [length_append] at hlen
    simp only [Core.heldBytes, Core.coalesced, ackedBytes, map_nil, sum_nil,
      map_append, map_cons, sum_append, sum_cons, Job.unacked,
      Coroutine.unacked, sizeOrZero]
    omega
  | dialProxy ho hidle hops initialData rest hd =>
    refine windowInv_move hi ho [] (by simp) rfl ?_ (hi.coalesced ho)
    have hlen := congrArg List.length hd
    simp only [length_append] at hlen
    simp only [Core.heldBytes, Core.coalesced, ackedBytes, map_nil, sum_nil,
      map_append, map_cons, sum_append, sum_cons, Job.unacked,
      Coroutine.unacked, sizeOrZero]
    omega
  | directConnected ho hj rest hrest new hnew =>
    refine windowInv_move hi ho [] (by simp) rfl ?_ (hi.coalesced ho)
    rcases hnew with ⟨todo, rfl, hd⟩ | ⟨rfl, rfl, hd⟩
    · have hlen := congrArg List.length hd
      simp only [length_append] at hlen
      simp only [Core.heldBytes, Core.coalesced, ackedBytes, map_nil, sum_nil, hj, hrest,
        map_append, map_cons, sum_append, sum_cons, length_nil,
        Job.unacked, Coroutine.unacked, sizeOrZero]
      omega
    · simp [Core.heldBytes, Core.coalesced, ackedBytes, hj, Job.unacked, sizeOrZero, hd, hrest]
  | proxyConnected ho hj rest hrest new tr hnew =>
    rcases hnew with ⟨rfl, rfl⟩ | ⟨rfl, rfl, hd⟩
    · refine windowInv_move hi ho [] rfl rfl ?_ fun _ => .inr rfl
      simp only [Core.heldBytes, Core.coalesced, ackedBytes, map_nil, sum_nil, hj, hrest,
        map_append, map_cons, sum_append, sum_cons, length_nil,
        Job.unacked, Coroutine.unacked]
      omega
    · refine windowInv_move hi ho _ rfl (deliveredBytes_ackObs _) ?_ fun _ => .inr rfl
      simp only [Core.heldBytes, Core.coalesced, ackedBytes_ackObs, hj, hd, hrest, append_nil,
        map_cons, sum_cons, Job.unacked]
      omega
  | flushTask ho hj hb hne =>
    refine windowInv_move hi ho [] (by simp) rfl ?_ fun h => absurd rfl h
    simp [Core.heldBytes, Core.coalesced, ackedBytes, hj, hb, Job.unacked, Coroutine.unacked]
    omega
  | flushTaskIdle ho hj hb =>
    refine windowInv_move hi ho [] (by simp) rfl ?_ fun h => absurd rfl h
    have hempty : c.coalesced = [] := coalesced_eq_nil hi ho hb
    simp [Core.heldBytes, hempty, ackedBytes, hj, Job.unacked]
    rfl
  | flushDone ho hj hb =>
    refine windowInv_move hi ho [] (by simp) rfl ?_ (hi.coalesced ho)
    simp [Core.heldBytes, Core.coalesced, ackedBytes, hj, Job.unacked]
  | flushAgain ho hj hb hne =>
    refine windowInv_move hi ho [] (by simp) rfl ?_ fun h => absurd rfl h
    simp [Core.heldBytes, Core.coalesced, ackedBytes, hj, hb, Job.unacked, Coroutine.unacked]
    omega
  | flushLost ho hj hb =>
    refine windowInv_move hi ho [] (by simp) rfl ?_ fun h => absurd rfl h
    have hempty : c.coalesced = [] := coalesced_eq_nil hi ho (.inr hb)
    simp [Core.heldBytes, hempty, ackedBytes, hj, Job.unacked]
    rfl
  | flushCancelled ho hj =>
    refine windowInv_move hi ho [] (by simp) rfl ?_ (hi.coalesced ho)
    simp [Core.heldBytes, Core.coalesced, ackedBytes, hj, Job.unacked]
  | @coroutine ho co l hj r hr hF =>
    have hk := resume_kind co r
    refine windowInv_move hi ho _ rfl (deliveredBytes_eq_nil fun o h => by simp [hk o h]) ?_
      (hi.coalesced ho)
    have hack : ackedBytes (co.resume r).1 = 0 :=
      ackedBytes_eq_zero fun o h => by simp [hk o h]
    have hsum := resume_unacked co r hr
    simp only [Core.heldBytes, Core.coalesced, hack, hj, map_append, sum_append,
      map_cons, sum_cons, Job.unacked, hsum]
    omega
  | ack ho hj =>
    refine windowInv_move hi ho _ rfl (deliveredBytes_ackObs _) ?_ (hi.coalesced ho)
    simp only [Core.heldBytes, Core.coalesced, ackedBytes_ackObs, hj, map_cons, sum_cons,
      Job.unacked]
    omega
  | received ho hj | drainRetry ho hj =>
    refine windowInv_move hi ho [] (by simp) rfl ?_ (hi.coalesced ho)
    simp [Core.heldBytes, Core.coalesced, ackedBytes, hj, Job.unacked]
  | armReceive ho | postRetry ho =>
    refine windowInv_move hi ho [] (by simp) rfl ?_ (hi.coalesced ho)
    simp [Core.heldBytes, Core.coalesced, ackedBytes, Job.unacked, Coroutine.unacked]
  | upstream ho data =>
    exact windowInv_move hi ho _ rfl rfl (Nat.zero_add _) (hi.coalesced ho)
  | feed ho l rest hl hw =>
    have hack : ackedBytes l = 0 := ackedBytes_eq_zero fun o h => by simp [hl o h]
    refine windowInv_move hi ho l rfl (deliveredBytes_eq_nil fun o h => by simp [hl o h]) ?_
      (hi.coalesced ho)
    rw [hack, Nat.zero_add]
    rfl

/-! ## Runs -/

/-- A pending job that owns uplink bytes: it has them to send, or to acknowledge. -/
def Job.ownsUplink : Job → Bool
  | directConnected _ | proxyConnected _ | connectFailed _ _ _ | ack _ | abort _ _
  | flushFailed _ _ => true
  | coroutine (.receive _) => false
  | coroutine _ => true
  | flushCoalesceBuffer | flushDone | flushCancelled | received _ | drainRetry => false

theorem unacked_of_not_ownsUplink {j : Job} (h : j.ownsUplink = false) : j.unacked = 0 := by
  cases j with
  | coroutine co => cases co <;> first | rfl | cases h
  | _ => first | rfl | cases h

/-- **Conservation of the receive window.** In every state of every run the
bytes passed to `nativeTcpRecved` never exceed the bytes delivered; while the
connection is open, acknowledged plus held is delivered; and when every uplink
byte was sent, so that no byte is buffered and no pending job owns one, all of
them have been acknowledged. -/
theorem window_conservation (env : Env σ) (p : Params σ) (es : List Event) :
    let s := runFrom env p es
    ackedBytes s.trace ≤ (deliveredBytes s.trace).length ∧
    (s.closed = false → ackedBytes s.trace + s.heldBytes = (deliveredBytes s.trace).length) ∧
    (s.closed = false → s.pendingData.toByteArray = [] → s.coalesced = [] →
      (∀ j ∈ s.jobs, j.ownsUplink = false) →
      ackedBytes s.trace = (deliveredBytes s.trace).length) := by
  intro s
  have hinv : WindowInv s.toCore :=
    core_invariant windowInv_fresh (fun _ _ => windowInv_action) env p es
  refine ⟨hinv.acked_le, hinv.conserved, fun ho hp hc hj => ?_⟩
  have hjobs : (s.jobs.map Job.unacked).sum = 0 := by
    refine sum_eq_zero fun k hk => ?_
    obtain ⟨j, hmem, rfl⟩ := mem_map.mp hk
    exact unacked_of_not_ownsUplink (hj j hmem)
  have hcons := hinv.conserved ho
  simpa [Core.heldBytes, hp, hc, hjobs] using hcons

end Anywhere.Tcp
