import Anywhere.Tcp.Runs

/-!
# Anywhere — the lifetime of the pcb

The pcb belongs to lwIP again once it was closed, aborted or reported by
`tcp_err`. About ten deferred tasks capture it; each checks `closed` before it
touches the pcb, and that is enough:

* `pcb_untouched` — in every run no native call follows the release of the pcb,
  and the pcb is released once.

The other half of lwIP's contract is about the callbacks: one that aborts its
own pcb has to return `ERR_ABRT`, because lwIP goes on using the pcb
otherwise. `tcp_recv_cb` and `tcp_sent_cb` return `ERR_OK` whatever the handler
did, so the contract is kept exactly in the runs whose callbacks never abort
(`pcb_contract`): the pending-data cap is not exceeded, no `tcp_write` of a
drain fails fatally, and `tcp_close` succeeds.
-/

namespace Anywhere.Tcp

open List

variable {σ : Type}

/-! ## No call after the release -/

/-- A call of the Kotlin side on the pcb. -/
def Obs.native : Obs → Bool
  | sndbuf | write _ _ | output | recved _ | tcpClose _ | tcpAbort => true
  | delivered _ | sendStart _ | sendEnd | upstream _ | tcpErr | ret _ => false

/-- The pcb is gone after this; a `tcp_close` that fails leaves it in place. -/
def Obs.releases : Obs → Bool
  | tcpClose err => err == 0
  | tcpAbort | tcpErr => true
  | _ => false

/-- After the release of the pcb there is no native call and no second release. -/
def PcbDiscipline (tr : List Obs) : Prop :=
  tr.Pairwise fun o o' => o.releases = true → o'.native = false ∧ o'.releases = false

structure PcbInv (c : Core) : Prop where
  discipline : PcbDiscipline c.trace
  held : c.closed = false → ∀ o ∈ c.trace, o.releases = false

theorem pcbInv_fresh : PcbInv .fresh := ⟨.nil, fun _ o ho => by cases ho⟩

variable {l : List Obs}

/-- Nothing was released so far: any discipline may follow. -/
theorem discipline_append {tr : List Obs} (h : ∀ o ∈ tr, o.releases = false)
    (hl : PcbDiscipline l) : PcbDiscipline (tr ++ l) := by
  refine pairwise_append.mpr ⟨?_, hl, ?_⟩
  · refine pairwise_of_forall_mem_list fun o ho o' _ hrel => ?_
    simp [h o ho] at hrel
  · intro o ho o' _ hrel
    simp [h o ho] at hrel

theorem discipline_release (hl : Release l) : PcbDiscipline l := by
  cases hl with
  | close | abort | error => exact pairwise_singleton _ _
  | closeFailed err herr =>
    refine pairwise_pair.mpr fun hrel => ?_
    simp [Obs.releases, herr] at hrel

theorem releases_kind {o : Obs} (h : o.releases = true) : o.kind = .release := by
  cases o <;> first | rfl | cases h

theorem native_of_quiet {o : Obs} (h : o.quiet) : o.native = false ∧ o.releases = false := by
  rcases h with h | h | h <;> cases o <;> first | exact ⟨rfl, rfl⟩ | cases h

variable {c c' : Core}

/-- An action of an open connection that releases nothing. -/
theorem pcbInv_open (hi : PcbInv c) (ho : c.closed = false) (l : List Obs)
    (htr : c'.trace = c.trace ++ l) (hl : ∀ o ∈ l, o.kind ≠ .release) : PcbInv c' := by
  have hall : ∀ o ∈ c'.trace, o.releases = false := by
    intro o hmem
    rw [htr] at hmem
    rcases mem_append.mp hmem with hmem | hmem
    · exact hi.held ho o hmem
    · cases hrel : o.releases with
      | false => rfl
      | true => exact absurd (releases_kind hrel) (hl o hmem)
  refine ⟨?_, fun _ => hall⟩
  rw [← append_nil c'.trace]
  exact discipline_append hall .nil

theorem pcbInv_action {F : List Job → Prop} (h : Action F c c') (hi : PcbInv c) :
    PcbInv c' := by
  cases h with
  | pick => exact ⟨hi.discipline, hi.held⟩
  | afterClosed hc hc' hb l htr hl =>
    refine ⟨?_, fun ho => by simp [hc'] at ho⟩
    rw [htr]
    refine pairwise_append.mpr ⟨hi.discipline, ?_, fun o _ o' ho' _ =>
      native_of_quiet (hl o' ho')⟩
    exact pairwise_of_forall_mem_list fun o _ o' ho' _ => native_of_quiet (hl o' ho')
  | shut ho hc' hb l htr hl =>
    obtain ⟨front, feed, rel, rfl, hfront, -, hfeed, -, hrel⟩ := hl.split
    refine ⟨?_, fun h => by simp [hc'] at h⟩
    rw [htr, ← append_assoc]
    refine discipline_append (fun o hmem => ?_) (discipline_release hrel)
    -- nothing before the release at the end of the step releases the pcb
    rcases mem_append.mp hmem with hmem | hmem
    · exact hi.held ho o hmem
    · have hkind : o.kind ≠ .release := by
        rcases mem_append.mp hmem with hmem | hmem
        · rcases hfront o hmem with h | h <;> simp [h]
        · simp [hfeed o hmem]
      cases hr : o.releases with
      | false => rfl
      | true => exact absurd (releases_kind hr) hkind
  | @coroutine ho co l hj r hr hF =>
    exact pcbInv_open hi ho _ rfl fun o h => by simp [resume_kind co r o h]
  | ack ho hj =>
    refine pcbInv_open hi ho _ rfl fun o h => ?_
    rcases ackObs_kind _ o h with h | rfl <;> simp_all [Obs.kind]
  | proxyConnected ho hj rest hrest new tr hnew =>
    rcases hnew with ⟨-, rfl⟩ | ⟨-, rfl, -⟩
    · exact pcbInv_open hi ho [] rfl (by simp)
    · refine pcbInv_open hi ho _ rfl fun o h => ?_
      rcases ackObs_kind _ o h with h | rfl <;> simp_all [Obs.kind]
  | feed ho l rest hl hw => exact pcbInv_open hi ho _ rfl fun o h => by simp [hl o h]
  | ret ho | deliverPending ho | deliverCoalesce ho | upstream ho =>
    exact pcbInv_open hi ho _ rfl (by simp [Obs.kind])
  | schedule ho | dialDirect ho | dialProxy ho | directConnected ho | flushTask ho
  | flushTaskIdle ho | flushDone ho | flushAgain ho | flushLost ho | flushCancelled ho
  | received ho | drainRetry ho | armReceive ho | postRetry ho =>
    exact pcbInv_open hi ho [] (by simp) (by simp)

theorem pcbInv_runFrom (env : Env σ) (p : Params σ) (es : List Event) :
    PcbInv (runFrom env p es).toCore :=
  core_invariant pcbInv_fresh (fun _ _ => pcbInv_action) env p es

/-- **The pcb is not touched after its release**, and it is released once: in
every run, after a successful `tcp_close`, a `tcp_abort` or a `tcp_err` there is
neither a native call nor another release. -/
theorem pcb_untouched (env : Env σ) (p : Params σ) (es : List Event) :
    PcbDiscipline (runFrom env p es).trace :=
  (pcbInv_runFrom env p es).discipline

/-! ## Aborting inside a callback -/

def Event.isCallback : Event → Bool
  | recv _ _ _ | fin _ | sent _ => true
  | _ => false

/-- lwIP's callback contract for one event: when the pcb was aborted inside
`tcp_recv_cb` or `tcp_sent_cb`, that callback returns `ERR_ABRT`. -/
def AbortReported (env : Env σ) (s : State σ) (e : Event) : Prop :=
  e.isCallback = true → s.bound = true →
    .tcpAbort ∈ (step env s e).trace.drop s.trace.length →
    (step env s e).trace.getLast? = some (.ret errAbrt)

/-- The sniffer ends with a name that a routing rule rejects. -/
def rejects (env : Env σ) (data : Bytes) (s : State σ) : Bool :=
  match s.sniffer, env.stack with
  | some sniffer, some stack =>
    match (env.feed sniffer data).1 with
    | .found serverName =>
      match stack.matchDomain serverName with
      | some .reject => true
      | _ => false
    | _ => false
  | _, _ => false

/-- Received bytes go to `pendingData`: the route is not committed, or the
remote side is not connected yet. -/
def buffersPending (s : State σ) : Bool :=
  s.sniffer.isSome || s.vlessConnecting || s.directConnecting ||
    (!s.directRelay && !s.vlessConnection)

/-- FIN closes the connection at once: nothing was ever received from the app,
or the remote side is done too. -/
def finCloses (s : State σ) : Bool :=
  (s.sniffer.isSome && s.pendingData.size == 0) || s.downlinkDone

/-- The callback keeps the pcb or closes it in order: the cap of `pendingData`
holds, no `tcp_write` of the drain is fatal, `tcp_close` succeeds. -/
def CallbackKeepsPcb (env : Env σ) (s : State σ) (e : Event) : Prop :=
  s.bound = true →
    match e with
    | .recv n data false =>
      if data.isEmpty then finCloses s = true → n.tcpClose = 0
      else
        (buffersPending s = true → s.pendingData.size + data.length ≤ tcpMaxPendingDataSize) ∧
        (rejects env data s = true → n.tcpClose = 0)
    | .fin n => finCloses s = true → n.tcpClose = 0
    | .sent n =>
      s.pendingWrite.size > 0 →
        (feedLwip n s.pendingWrite.backingArray 0 s.pendingWrite.size true).1 ≠ -1
    | _ => True

theorem trace_tryArmReceive (s : State σ) : s.tryArmReceive.trace = s.trace := by
  unfold State.tryArmReceive
  split_ifs <;> rfl

theorem trace_takePendingData (s : State σ) : s.takePendingData.2.trace = s.trace := by
  unfold State.takePendingData
  split <;> rfl

/-- Dialing makes no native call. -/
theorem trace_beginConnecting (s : State σ) : s.beginConnecting.trace = s.trace := by
  unfold State.beginConnecting State.connectDirect State.connectProxy
  dsimp only
  split_ifs <;> first | rfl | exact trace_takePendingData _

variable {s : State σ}

theorem beginConnecting_keeps :
    s.beginConnecting.closed = s.closed ∧ s.beginConnecting.downlinkDone = s.downlinkDone := by
  have htake : ∀ t : State σ, t.takePendingData.2.closed = t.closed ∧
      t.takePendingData.2.downlinkDone = t.downlinkDone := by
    intro t
    unfold State.takePendingData
    split <;> exact ⟨rfl, rfl⟩
  unfold State.beginConnecting State.connectDirect State.connectProxy
  dsimp only
  split_ifs <;> first | exact ⟨rfl, rfl⟩ | exact htake _

/-- The half-close timeouts are positive: arming one never closes. -/
theorem trace_setActivityTimeout (n : Native) {t : Nat} (ht : 0 < t) (s : State σ) :
    (s.setActivityTimeout n t).trace = s.trace := by
  unfold State.setActivityTimeout
  split
  · rfl
  · rename_i timer _
    have hset : (timer.setTimeout t).2 = false := by
      unfold ActivityTimer.setTimeout
      rw [if_neg (show ¬ t ≤ 0 by omega)]
      split <;> rfl
    simp [hset]

variable {data : Bytes}

theorem appendPendingData_fst :
    (s.appendPendingData data).1 = true ↔
      s.pendingData.size + data.length ≤ tcpMaxPendingDataSize := by
  unfold State.appendPendingData
  split
  · simp only [Bool.false_eq_true, false_iff]
    omega
  · simp only [true_iff]
    omega

theorem buffersPending_of_rejects {env : Env σ}
    (h : rejects env data s = true) : buffersPending s = true := by
  unfold rejects at h
  cases hs : s.sniffer with
  | none => simp [hs] at h
  | some sniffer => simp [buffersPending, hs]

theorem rejects_iff {env : Env σ} {sniffer : σ}
    (h : s.sniffer = some sniffer) :
    rejects env data s = true ↔ ∃ serverName stack,
      (env.feed sniffer data).1 = .found serverName ∧ env.stack = some stack ∧
        stack.matchDomain serverName = some .reject := by
  unfold rejects
  rw [h]
  cases hstack : env.stack with
  | none => simp
  | some stack =>
    cases hfeed : (env.feed sniffer data).1 with
    | found serverName =>
      cases hm : stack.matchDomain serverName with
      | none => simp [hfeed, hm]
      | some action => cases action <;> simp [hfeed, hm]
    | needMore | notTls | unavailable => simp [hfeed]

theorem tcpAbort_not_mem_feed (h : ∀ o ∈ l, o.kind = .feed) :
    Obs.tcpAbort ∉ l := by
  intro hmem
  cases h _ hmem

section Aborts

variable {s : State σ} (ho : s.closed = false)
include ho

theorem tcpAbort_mem_abort : Obs.tcpAbort ∈ s.abort.trace := by
  simp [State.abort, ho, State.releaseProtocol, State.nativeTcpAbort]

theorem tcpAbort_mem_appendPendingData
    (hcap : s.pendingData.size + data.length > tcpMaxPendingDataSize) :
    Obs.tcpAbort ∈ (s.appendPendingData data).2.trace := by
  unfold State.appendPendingData
  rw [if_pos hcap]
  exact tcpAbort_mem_abort ho

variable (hna : Obs.tcpAbort ∉ s.trace)
include hna

theorem tcpAbort_mem_close (n : Native) :
    Obs.tcpAbort ∈ (s.close n).trace ↔ n.tcpClose ≠ 0 := by
  have hfeed := tcpAbort_not_mem_feed (flushObs_spec n s.pendingWrite).1
  rw [(close_open n ho).2.2]
  simp only [mem_append, hna, hfeed, false_or, closeObs]
  split <;> simp_all

theorem tcpAbort_mem_drainPendingWrite (n : Native) :
    Obs.tcpAbort ∈ (s.drainPendingWrite n).trace ↔
      s.pendingWrite.size > 0 ∧
        (feedLwip n s.pendingWrite.backingArray 0 s.pendingWrite.size true).1 = -1 := by
  obtain ⟨-, -, -, -, hall⟩ := feedLwip_spec n s.pendingWrite true
  have hfeed := tcpAbort_not_mem_feed hall
  unfold State.drainPendingWrite
  rw [if_neg (by simp [ho])]
  dsimp only
  generalize feedLwip n s.pendingWrite.backingArray 0 s.pendingWrite.size true = fed at *
  split
  · rename_i hpos
    split
    · rename_i hfatal
      have hmem := tcpAbort_mem_abort (s := (s.emit fed.2).emit [.sndbuf]) ho
      exact ⟨fun _ => ⟨hpos, hfatal⟩, fun _ => hmem⟩
    · rename_i hok
      split
      · rw [trace_tryArmReceive]
        simp [State.emit, hna, hok, hfeed]
      · simp [State.emit, State.post, hna, hok, hfeed]
  · rename_i hpos
    rw [trace_tryArmReceive]
    exact ⟨fun h => absurd h hna, fun h => absurd h.1 hpos⟩

theorem tcpAbort_mem_finishUplink (n : Native) :
    Obs.tcpAbort ∈ (s.finishUplink n).trace ↔ s.downlinkDone = true ∧ n.tcpClose ≠ 0 := by
  unfold State.finishUplink
  dsimp only
  split
  · rename_i hd
    have hclose := tcpAbort_mem_close (s := { s with uplinkDone := true }) ho hna n
    rw [hclose]
    simp [show s.downlinkDone = true from hd]
  · rename_i hd
    rw [trace_setActivityTimeout n (by decide)]
    simp [hna, hd]

theorem tcpAbort_mem_handleRemoteClose (n : Native) :
    Obs.tcpAbort ∈ (s.handleRemoteClose n).trace ↔ finCloses s = true ∧ n.tcpClose ≠ 0 := by
  unfold State.handleRemoteClose finCloses
  rw [if_neg (by simp [ho])]
  split
  · rename_i hsniff
    dsimp only
    split
    · rename_i hzero
      have hclose := tcpAbort_mem_close (s := s.commitRoute) ho hna n
      have hzero' : s.pendingData.size = 0 := hzero
      rw [hclose]
      simp only [hsniff, hzero', beq_self_eq_true, Bool.and_self, Bool.true_or, true_and]
    · rename_i hpos
      have hpos' : s.pendingData.toByteArray ≠ [] := by
        simpa [State.commitRoute, State.cancelSniffDeadline] using hpos
      have hbegin := tcpAbort_mem_finishUplink (s := s.commitRoute.beginConnecting)
        (by rw [beginConnecting_keeps.1]; exact ho) (by rw [trace_beginConnecting]; exact hna) n
      rw [hbegin, beginConnecting_keeps.2]
      simp [hpos', State.commitRoute, State.cancelSniffDeadline]
  · rename_i hsniff
    rw [tcpAbort_mem_finishUplink ho hna n]
    simp [hsniff]

theorem tcpAbort_mem_applySNI (env : Env σ) (n : Native) (sni : String) :
    Obs.tcpAbort ∈ (s.applySNI env n sni).trace ↔
      (∃ stack, env.stack = some stack ∧ stack.matchDomain sni = some .reject) ∧
        n.tcpClose ≠ 0 := by
  unfold State.applySNI
  split
  · rename_i hnone
    simp [hna, hnone]
  · rename_i stack hstack
    split
    · rename_i hmatch
      simp [hna, hstack, hmatch]
    · rename_i action hmatch
      dsimp only
      split
      · simp [hna, hstack, hmatch]
      · unfold State.rejectGracefully
        rw [if_neg (by simp [ho])]
        have hno : Obs.tcpAbort ∉ recvedChunks s.pendingData.size s.pendingData.size := by
          intro hmem
          cases recved_of_mem_recvedChunks hmem
        rw [tcpAbort_mem_close (by exact ho)
          (fun hmem => (mem_append.mp hmem).elim hna hno) n]
        simp [hstack, hmatch]
      · split <;> simp [hna, hstack, hmatch]

theorem tcpAbort_mem_sniffed (env : Env σ) (n : Native) (st : SniffState) :
    Obs.tcpAbort ∈ (s.sniffed env n st).trace ↔
      (∃ serverName stack, st = .found serverName ∧ env.stack = some stack ∧
        stack.matchDomain serverName = some .reject) ∧ n.tcpClose ≠ 0 := by
  cases st with
  | needMore => simp [State.sniffed, hna]
  | found serverName =>
    have hsni := tcpAbort_mem_applySNI (s := s.commitRoute) ho hna env n serverName
    have hsame : (s.sniffed env n (.found serverName)).trace =
        (s.commitRoute.applySNI env n serverName).trace := by
      simp only [State.sniffed]
      split
      · rfl
      · exact trace_beginConnecting _
    rw [hsame, hsni]
    simp
  | notTls | unavailable =>
    simp only [State.sniffed, trace_beginConnecting]
    simpa [State.commitRoute, State.cancelSniffDeadline] using hna

/-- A delivery aborts exactly when it exceeds the cap, or is rejected by a rule
while `tcp_close` fails. -/
theorem tcpAbort_mem_handleReceivedData (env : Env σ) (n : Native) (data : Bytes) :
    Obs.tcpAbort ∈ (s.handleReceivedData env n data).trace ↔
      (buffersPending s = true ∧ s.pendingData.size + data.length > tcpMaxPendingDataSize) ∨
        (s.pendingData.size + data.length ≤ tcpMaxPendingDataSize ∧
          rejects env data s = true ∧ n.tcpClose ≠ 0) := by
  unfold State.handleReceivedData
  rw [if_neg (by simp [ho])]
  dsimp only
  split
  · rename_i sniffer hsniff
    have hsniff' : s.sniffer = some sniffer := hsniff
    have hbuf : buffersPending s = true := by simp [buffersPending, hsniff']
    split
    · rename_i happ
      have hcap : s.pendingData.size + data.length > tcpMaxPendingDataSize := by
        by_contra hle
        rw [appendPendingData_fst.2 (by exact not_lt.mp hle)] at happ
        simp at happ
      have hmem := tcpAbort_mem_appendPendingData (s := { s.emit [.delivered data] with
        activityTimer := s.activityTimer.map .update
        sniffer := some (env.feed sniffer data).2 }) ho hcap
      exact ⟨fun _ => .inl ⟨hbuf, hcap⟩, fun _ => hmem⟩
    · rename_i happ
      simp only [Bool.not_eq_true', Bool.not_eq_false] at happ
      have hle := appendPendingData_fst.1 happ
      rw [appendPendingData_open happ, tcpAbort_mem_sniffed (by exact ho)
        (by simpa [State.emit] using hna) env n, ← rejects_iff hsniff']
      constructor
      · exact fun h => .inr ⟨hle, h⟩
      · rintro (⟨-, hgt⟩ | ⟨-, h⟩)
        · exact absurd hle (not_le.mpr hgt)
        · exact h
  · rename_i hsniff
    have hsniff' : s.sniffer = none := hsniff
    have hrej : rejects env data s = false := by simp [rejects, hsniff']
    have hno : Obs.tcpAbort ∉ (s.emit [.delivered data]).trace := by simpa [State.emit] using hna
    have happend : ∀ t : State σ, t.toCore = (s.emit [.delivered data]).toCore →
        (Obs.tcpAbort ∈ (t.appendPendingData data).2.trace ↔
          s.pendingData.size + data.length > tcpMaxPendingDataSize) := by
      intro t ht
      have hto : t.closed = false := by rw [ht]; exact ho
      have hpd : t.pendingData = s.pendingData := by rw [ht]; rfl
      constructor
      · intro hmem
        by_contra hle
        rw [appendPendingData_open (appendPendingData_fst.2 (by rw [hpd]; exact not_lt.mp hle))]
          at hmem
        exact hno (by rw [← ht]; exact hmem)
      · intro hcap
        exact tcpAbort_mem_appendPendingData hto (by rw [hpd]; exact hcap)
    split
    · rename_i hconn
      have hbuf : buffersPending s = true := by
        have : (s.vlessConnecting || s.directConnecting) = true := hconn
        simp only [Bool.or_eq_true] at this
        rcases this with h | h <;> simp [buffersPending, h]
      refine (happend _ (by rfl)).trans ?_
      simp [hbuf, hrej]
    · rename_i hconn
      have hconn' : s.vlessConnecting = false ∧ s.directConnecting = false := by
        have : ¬ (s.vlessConnecting || s.directConnecting) = true := hconn
        simpa using this
      split
      · rename_i hend
        have hend' : (s.directRelay || s.vlessConnection) = true := hend
        have hbuf : buffersPending s = false := by
          simp only [Bool.or_eq_true] at hend'
          rcases hend' with h | h <;> simp [buffersPending, hsniff', hconn', h]
        split <;> simpa [hbuf, hrej, State.emit, State.post] using hna
      · rename_i hend
        have hend' : s.directRelay = false ∧ s.vlessConnection = false := by
          have : ¬ (s.directRelay || s.vlessConnection) = true := hend
          simpa using this
        have hbuf : buffersPending s = true := by simp [buffersPending, hend']
        have hsame : ∀ t : State σ, (if (!(t.appendPendingData data).1) = true then
            (t.appendPendingData data).2 else (t.appendPendingData data).2.beginConnecting).trace =
            (t.appendPendingData data).2.trace := by
          intro t
          split
          · rfl
          · exact trace_beginConnecting _
        rw [hsame]
        refine (happend _ (by rfl)).trans ?_
        simp [hbuf, hrej]

end Aborts

/-! ## The callback contract -/

theorem action_trace {F : List Job → Prop} (h : Action F c c') :
    c.trace <+: c'.trace := by
  cases h with
  | afterClosed _ _ _ l htr | shut _ _ _ l htr => exact ⟨l, htr.symm⟩
  | pick | schedule | dialDirect | dialProxy | directConnected | flushTask | flushTaskIdle
  | flushDone | flushAgain | flushLost | flushCancelled | received | drainRetry | armReceive
  | postRetry => exact prefix_refl _
  | _ => exact prefix_append _ _

theorem step_trace (env : Env σ) (s : State σ) (e : Event) (ht : Tidy s) :
    s.trace <+: (step env s e).trace :=
  Lib.actions_invariant (I := fun c => s.trace <+: c.trace)
    (fun _ _ hact hpre => hpre.trans (action_trace hact))
    (step_actions (F := fun _ => True) env s e ht (by simp)) (prefix_refl _)

/-- What a callback returns: never `ERR_ABRT`. -/
theorem callback_ret (env : Env σ) (s : State σ) (e : Event) (hcb : e.isCallback = true)
    (hb : s.bound = true) : (step env s e).trace.getLast? ≠ some (.ret errAbrt) := by
  cases e with
  | recv n data memErr =>
    simp only [step, hb, if_true, State.tcpRecvCb]
    split <;> simp [State.emit, errOk, errMem, errAbrt]
  | fin n => simp [step, hb, State.tcpRecvCb, State.emit, errOk, errAbrt]
  | sent n => simp [step, hb, State.tcpSentCb, State.emit, errOk, errAbrt]
  | err | job | handshakeTimeout | sniffDeadline | activityTick => cases hcb

theorem tcpAbort_mem_step (env : Env σ) (s : State σ) (e : Event) (hcb : e.isCallback = true)
    (hb : s.bound = true) (ho : s.closed = false) (hna : Obs.tcpAbort ∉ s.trace) :
    Obs.tcpAbort ∈ (step env s e).trace ↔ ¬ CallbackKeepsPcb env s e := by
  have hret : ∀ (t : State σ) (err : Int),
      Obs.tcpAbort ∈ (t.emit [.ret err]).trace ↔ Obs.tcpAbort ∈ t.trace := by
    intro t err
    simp [State.emit]
  cases e with
  | recv n data memErr =>
    simp only [step, hb, if_true, State.tcpRecvCb, State.onTcpRecv, CallbackKeepsPcb, forall_const]
    cases memErr with
    | true => simpa [hret] using hna
    | false =>
      simp only [Bool.false_eq_true, if_false, hret]
      split
      · rw [tcpAbort_mem_handleRemoteClose ho hna]
        simp
      · rw [tcpAbort_mem_handleReceivedData ho hna, not_and_or, Classical.not_imp,
          Classical.not_imp, not_le]
        constructor
        · rintro (h | ⟨-, h⟩)
          · exact .inl h
          · exact .inr h
        · rintro (h | h)
          · exact .inl h
          · by_cases hle : s.pendingData.size + data.length ≤ tcpMaxPendingDataSize
            · exact .inr ⟨hle, h⟩
            · exact .inl ⟨buffersPending_of_rejects h.1, not_le.mp hle⟩
  | fin n =>
    simp only [step, hb, if_true, State.tcpRecvCb, State.onTcpRecv, CallbackKeepsPcb, forall_const,
      Bool.false_eq_true, if_false, hret, isEmpty_nil]
    rw [tcpAbort_mem_handleRemoteClose ho hna]
    simp
  | sent n =>
    simp only [step, hb, if_true, State.tcpSentCb, State.handleSent, CallbackKeepsPcb,
      forall_const, hret]
    rw [if_neg (by simp [ho]), tcpAbort_mem_drainPendingWrite ho hna]
    simp only [Classical.not_imp, not_not]
  | err | job | handshakeTimeout | sniffDeadline | activityTick => cases hcb

theorem abortReported_iff (env : Env σ) (s : State σ) (e : Event) (ht : Tidy s)
    (hp : PcbInv s.toCore) : AbortReported env s e ↔ CallbackKeepsPcb env s e := by
  by_cases hcb : e.isCallback = true
  · by_cases hb : s.bound = true
    · have ho : s.closed = false := by
        cases hc : s.closed with
        | false => rfl
        | true => simp [ht.unbound hc] at hb
      have hna : Obs.tcpAbort ∉ s.trace := by
        intro hmem
        cases hp.held ho _ hmem
      obtain ⟨l, hl⟩ := step_trace env s e ht
      have hnew : Obs.tcpAbort ∈ (step env s e).trace.drop s.trace.length ↔
          Obs.tcpAbort ∈ (step env s e).trace := by
        rw [← hl]
        simp [hna]
      have hmem := tcpAbort_mem_step env s e hcb hb ho hna
      constructor
      · intro h
        by_contra hbad
        exact callback_ret env s e hcb hb (h hcb hb (hnew.mpr (hmem.mpr hbad)))
      · intro hgood _ _ h
        exact absurd hgood (hmem.mp (hnew.mp h))
    · exact ⟨fun _ h => absurd h hb, fun _ _ h => absurd h hb⟩
  · refine ⟨fun _ _ => ?_, fun _ h => absurd h hcb⟩
    cases e with
    | recv | fin | sent => exact absurd rfl hcb
    | _ => trivial

/-- **The lwIP contract of a connection.** In every run the pcb is not touched
after its release and released once; and its callbacks report an abort to lwIP,
at every event of the run, exactly when none of them aborts: no delivery
exceeds the cap of `pendingData`, no drain in `tcp_sent_cb` runs into a fatal
`tcp_write`, and `tcp_close` succeeds in every callback that closes. -/
theorem pcb_contract (env : Env σ) (p : Params σ) (es : List Event) :
    (PcbDiscipline (runFrom env p es).trace ∧
      Lib.RunAll (step env) (AbortReported env) (init env p) es) ↔
    Lib.RunAll (step env) (CallbackKeepsPcb env) (init env p) es := by
  refine Iff.trans (and_iff_right (pcb_untouched env p es)) ?_
  -- along the run every state is tidy and holds the pcb invariant
  suffices h : ∀ (fs : List Event) (s : State σ), Tidy s ∧ PcbInv s.toCore →
      (Lib.RunAll (step env) (AbortReported env) s fs ↔
        Lib.RunAll (step env) (CallbackKeepsPcb env) s fs) from
    h es (init env p) ⟨tidy_init env p, pcbInv_runFrom env p []⟩
  intro fs
  induction fs with
  | nil => intro s _; exact Iff.rfl
  | cons e fs ih =>
    intro s hs
    have hnext : Tidy (step env s e) ∧ PcbInv (step env s e).toCore :=
      ⟨tidy_step env s e hs.1, Lib.actions_invariant (I := PcbInv) (fun _ _ => pcbInv_action)
        (step_actions (F := fun _ => True) env s e hs.1 (by simp)) hs.2⟩
    exact and_congr (abortReported_iff env s e hs.1 hs.2) (ih _ hnext)

/-- A byte arrives from upstream while the send buffer is full. -/
def byteStalls : List Event :=
  relayConnects ++ [returns 0, returns 0 (some [7]), returns 0]

/-- A fatal `tcp_write` (`ERR_CONN`) in the drain that `tcp_sent_cb` runs: the
pcb is aborted inside the callback, and the callback returns `ERR_OK`. -/
theorem sent_abort_returns_ok :
    ¬ (PcbDiscipline (runFrom plainEnv bypassed (byteStalls ++ [.sent (lwip 100 (-11))])).trace ∧
      Lib.RunAll (step plainEnv) (AbortReported plainEnv) (init plainEnv bypassed)
        (byteStalls ++ [.sent (lwip 100 (-11))])) := by
  rintro ⟨-, hall⟩
  have hsent := (Lib.runAll_append.mp hall).2.1
  have hret := hsent rfl (by decide) (by decide)
  exact absurd hret (by decide)

end Anywhere.Tcp
