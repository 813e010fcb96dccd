import Anywhere.Tcp.Actions

/-!
# Anywhere — runs of a connection are sequences of actions

`step_actions` needs the sniff phase to be idle: while the sniffer runs,
nothing has been dialed, nothing is posted and nothing was received. That is a
fact about the sniffer field, which the core does not have, so it is carried
along the run (`tidy_step`), and with it every run is a sequence of actions:

* `core_invariant` — what holds of the initial core and of every action holds
  after every run;
* `core_invariant_of` — the same when the start of a flush needs a condition on
  the jobs that are pending then.
-/

namespace Anywhere.Tcp

open Relation

variable {σ : Type}

/-! ## The sniff phase never comes back -/

namespace State

section

variable {s : State σ} (h : s.sniffer = none)
include h

theorem sniffer_abort : s.abort.sniffer = none := by
  unfold abort
  split
  · exact h
  · rfl

theorem sniffer_close (n : Native) : (s.close n).sniffer = none := by
  unfold close
  split
  · exact h
  · rfl

theorem sniffer_tryArmReceive : s.tryArmReceive.sniffer = none := by
  unfold tryArmReceive
  split_ifs <;> exact h

theorem sniffer_drainPendingWrite (n : Native) : (s.drainPendingWrite n).sniffer = none := by
  unfold drainPendingWrite
  dsimp only
  split_ifs
  · exact h
  · exact sniffer_abort h
  · exact sniffer_tryArmReceive h
  · exact sniffer_tryArmReceive h
  · exact h
  · exact sniffer_tryArmReceive h

theorem sniffer_takePendingData : s.takePendingData.2.sniffer = none := by
  unfold takePendingData
  split <;> exact h

theorem sniffer_beginConnecting : s.beginConnecting.sniffer = none := by
  unfold beginConnecting connectDirect connectProxy
  dsimp only
  split_ifs <;> first | exact h | exact sniffer_takePendingData h

theorem sniffer_setActivityTimeout (n : Native) (t : Nat) :
    (s.setActivityTimeout n t).sniffer = none := by
  unfold setActivityTimeout
  split
  · exact h
  · dsimp only
    split_ifs
    · exact sniffer_close (by exact h) n
    · exact h

theorem sniffer_finishUplink (n : Native) : (s.finishUplink n).sniffer = none := by
  unfold finishUplink
  dsimp only
  split_ifs
  · exact sniffer_close (by exact h) n
  · exact sniffer_setActivityTimeout (by exact h) n _

theorem sniffer_appendPendingData (data : Bytes) : (s.appendPendingData data).2.sniffer = none := by
  unfold appendPendingData
  split
  · exact sniffer_abort h
  · exact h

theorem sniffer_flushCoalesceBuffer : s.flushCoalesceBuffer.sniffer = none := by
  unfold flushCoalesceBuffer
  dsimp only
  split
  · exact h
  · split_ifs <;> exact h

theorem sniffer_applySNI (env : Env σ) (n : Native) (sni : String) :
    (s.applySNI env n sni).sniffer = none := by
  unfold applySNI
  split
  · exact h
  · split
    · exact h
    · dsimp only
      split
      · exact h
      · unfold rejectGracefully
        split
        · exact h
        · exact sniffer_close (by exact h) n
      · split <;> exact h

theorem sniffer_directConnected (d : Option Bytes) : (s.directConnected d).sniffer = none := by
  unfold directConnected
  dsimp only
  split_ifs
  · exact h
  · exact sniffer_tryArmReceive (sniffer_takePendingData h)
  · exact sniffer_tryArmReceive (sniffer_takePendingData h)

theorem sniffer_onProxyConnected (k : Nat) : (s.onProxyConnected k).sniffer = none := by
  unfold onProxyConnected
  dsimp only
  split_ifs
  · exact h
  · refine sniffer_tryArmReceive ?_
    split
    · exact sniffer_takePendingData (by exact h)
    · rw [ackBytesToLwip_eq]
      exact sniffer_takePendingData (by exact h)
  · refine sniffer_tryArmReceive ?_
    split <;> exact sniffer_takePendingData (by exact h)

theorem sniffer_receivedTask (n : Native) (r : Outcome) : (s.receivedTask n r).sniffer = none := by
  unfold receivedTask
  cases r with
  | cancelled => exact h
  | threw =>
    dsimp only
    split_ifs
    · exact h
    · exact sniffer_abort (by exact h)
  | returned data =>
    dsimp only
    split_ifs
    · exact h
    · exact sniffer_close (by exact h) n
    · exact sniffer_setActivityTimeout (by exact h) n _
    · exact h
    · unfold writeToLwip
      split_ifs
      · exact h
      · exact sniffer_drainPendingWrite (by exact h) n

theorem sniffer_runJob (n : Native) (r : Outcome) (j : Job) : (s.runJob n r j).sniffer = none := by
  cases j with
  | flushCoalesceBuffer => exact sniffer_flushCoalesceBuffer h
  | directConnected d => exact sniffer_directConnected h d
  | proxyConnected k => exact sniffer_onProxyConnected h k
  | connectFailed direct d k =>
    cases direct <;> (simp only [runJob]; split_ifs <;> first | exact h | exact sniffer_abort h)
  | ack k =>
    simp only [runJob, ackBytesToLwip_eq]
    split_ifs <;> exact h
  | abort d k => exact sniffer_abort h
  | flushDone =>
    simp only [runJob]
    split_ifs
    · exact h
    · split
      · split_ifs
        · exact sniffer_flushCoalesceBuffer (by exact h)
        · exact h
      · exact h
  | flushCancelled => exact h
  | flushFailed d k => exact sniffer_abort (by exact h)
  | received r => exact sniffer_receivedTask h n r
  | drainRetry =>
    simp only [runJob]
    split_ifs
    · exact h
    · exact sniffer_drainPendingWrite h n
  | coroutine co =>
    simp only [runJob]
    split_ifs <;> exact h

theorem sniffer_handleReceivedData (env : Env σ) (n : Native) (data : Bytes) :
    (s.handleReceivedData env n data).sniffer = none := by
  unfold handleReceivedData
  split_ifs
  · exact h
  · dsimp only
    split
    · rename_i hsome
      simp [emit, h] at hsome
    · split_ifs
      · exact sniffer_appendPendingData (by exact h) data
      · exact h
      · exact h
      · exact sniffer_appendPendingData (by exact h) data
      · exact sniffer_beginConnecting (sniffer_appendPendingData (by exact h) data)

end

theorem sniffer_handleRemoteClose (n : Native) (s : State σ) (ho : s.closed = false) :
    (s.handleRemoteClose n).sniffer = none := by
  unfold handleRemoteClose
  rw [if_neg (by simp [ho])]
  split
  · dsimp only
    split
    · exact sniffer_close rfl n
    · exact sniffer_finishUplink (sniffer_beginConnecting rfl) n
  · rename_i hnone
    exact sniffer_finishUplink (by simpa using hnone) n

theorem sniffer_sniffed (env : Env σ) (n : Native) (s : State σ) (st : SniffState)
    (hst : st ≠ .needMore) : (s.sniffed env n st).sniffer = none := by
  cases st with
  | needMore => exact absurd rfl hst
  | found serverName =>
    have hsni := sniffer_applySNI (s := s.commitRoute) rfl env n serverName
    simp only [sniffed]
    split
    · exact hsni
    · exact sniffer_beginConnecting hsni
  | notTls => exact sniffer_beginConnecting rfl
  | unavailable => exact sniffer_beginConnecting rfl

end State

variable {s : State σ}

theorem sniffing_of_none (h : s.sniffer = none) : Sniffing s := by
  intro hs
  simp [h] at hs

theorem sniffing_abort (h : Sniffing s) : Sniffing s.abort := by
  unfold State.abort
  split
  · exact h
  · exact sniffing_of_none rfl

theorem sniffing_close (n : Native) (h : Sniffing s) : Sniffing (s.close n) := by
  unfold State.close
  split
  · exact h
  · exact sniffing_of_none rfl

theorem sniffing_handleReceivedData (env : Env σ) (n : Native) (data : Bytes)
    (h : Sniffing s) : Sniffing (s.handleReceivedData env n data) := by
  cases hs : s.sniffer with
  | none => exact sniffing_of_none (State.sniffer_handleReceivedData hs env n data)
  | some sniffer =>
    unfold State.handleReceivedData
    split_ifs
    · exact h
    · dsimp only
      split
      · rename_i sniffer' _
        split_ifs with happ
        · -- the cap was exceeded: aborted
          unfold State.appendPendingData at happ ⊢
          split at happ
          · rename_i hcap
            rw [if_pos hcap]
            exact sniffing_abort fun _ => h (by simp [hs])
          · simp at happ
        · rw [appendPendingData_open (by simpa using happ)]
          by_cases hmore : (env.feed sniffer' data).1 = .needMore
          · rw [hmore]
            intro _
            exact h (by simp [hs])
          · exact sniffing_of_none (State.sniffer_sniffed env n _ _ hmore)
      · rename_i hnone
        simp [State.emit, hs] at hnone

theorem sniffing_handleRemoteClose (n : Native) (h : Sniffing s) :
    Sniffing (s.handleRemoteClose n) := by
  cases hc : s.closed with
  | true => simpa [State.handleRemoteClose, hc] using h
  | false => exact sniffing_of_none (State.sniffer_handleRemoteClose n s hc)

/-- While the sniffer runs there is nothing to drain and nowhere to receive from. -/
theorem drainPendingWrite_of_idle (n : Native) (hi : s.idle)
    (hw : s.pendingWrite.toByteArray = []) : s.drainPendingWrite n = s := by
  simp [State.drainPendingWrite, State.tryArmReceive, hw, hi.1, hi.2.1]

theorem sniffing_step (env : Env σ) (s : State σ) (e : Event) (h : Sniffing s) :
    Sniffing (step env s e) := by
  cases e with
  | recv n data memErr =>
    simp only [step, State.tcpRecvCb, State.onTcpRecv]
    split_ifs
    · exact h
    · exact sniffing_handleRemoteClose n h
    · exact sniffing_handleReceivedData env n data h
    · exact h
  | fin n =>
    simp only [step]
    split_ifs
    · exact sniffing_handleRemoteClose n h
    · exact h
  | sent n =>
    simp only [step, State.tcpSentCb, State.handleSent]
    split_ifs
    · exact h
    · cases hs : s.sniffer with
      | none => exact sniffing_of_none (State.sniffer_drainPendingWrite hs n)
      | some sniffer =>
        obtain ⟨hi, -, hw⟩ := h (by simp [hs])
        rw [drainPendingWrite_of_idle n hi hw]
        exact h
    · exact h
  | err =>
    simp only [step, State.tcpErrCb, State.handleError]
    split_ifs
    · exact h
    · exact sniffing_of_none rfl
    · exact h
  | job n i r =>
    simp only [step]
    split
    · exact h
    · rename_i j hj
      split_ifs
      · by_cases hs : s.sniffer = none
        · exact sniffing_of_none (State.sniffer_runJob (by exact hs) n r j)
        · obtain ⟨-, hjobs, -⟩ := h (by simpa [Option.isSome_iff_ne_none] using hs)
          simp [hjobs] at hj
      · exact h
  | handshakeTimeout =>
    simp only [step, State.onHandshakeTimeout]
    split_ifs
    · exact sniffing_abort (by exact h)
    · exact h
    · exact h
  | sniffDeadline =>
    simp only [step, State.onSniffDeadline]
    split_ifs
    · exact sniffing_of_none (State.sniffer_beginConnecting rfl)
    · exact h
    · exact h
  | activityTick n =>
    simp only [step, State.onActivityTick]
    split
    · exact h
    · split_ifs
      · exact sniffing_close n (by exact h)
      · exact h

/-! ## Runs -/

variable {F : List Job → Prop}

theorem action_unbound {c c' : Core} (h : Action F c c')
    (hu : c.closed = true → c.bound = false) : c'.closed = true → c'.bound = false := by
  cases h with
  | afterClosed hc _ hb => exact fun _ => hb.trans (hu hc)
  | shut _ _ hb => exact fun _ => hb
  | _ => exact hu

/-- A step keeps what the actions need of the sniff phase. -/
theorem tidy_step (env : Env σ) (s : State σ) (e : Event) (h : Tidy s) : Tidy (step env s e) where
  unbound :=
    Lib.actions_invariant (I := fun c => c.closed = true → c.bound = false)
      (fun _ _ => action_unbound)
      (step_actions (F := fun _ => True) env s e h (by simp)) h.unbound
  sniffing := sniffing_step env s e h.sniffing

theorem tidy_init (env : Env σ) (p : Params σ) : Tidy (init env p) := by
  unfold init
  dsimp only
  split
  · rename_i hnone
    have hbegin : Actions (fun _ => True) (State.fresh env p).toCore
        (State.fresh env p).beginConnecting.toCore := beginConnecting_actions _ rfl
    refine ⟨Lib.actions_invariant (I := fun c => c.closed = true → c.bound = false)
      (fun _ _ => action_unbound) hbegin (by simp [State.fresh]), ?_⟩
    exact sniffing_of_none (State.sniffer_beginConnecting (by simpa using hnone))
  · exact ⟨by simp [State.fresh], fun _ => ⟨⟨rfl, rfl, rfl, rfl⟩, rfl, rfl⟩⟩

def Core.fresh : Core where
  closed := false
  bound := true
  directRelay := false
  vlessConnection := false
  directConnecting := false
  vlessConnecting := false
  pendingData := .empty
  coalesceBuffer := none
  coalesceScheduled := false
  coalesceFlushInFlight := false
  pendingWrite := .empty
  receiveInFlight := false
  jobs := []
  trace := []

/-- The initial state is reached by actions. -/
theorem init_actions (env : Env σ) (p : Params σ) :
    Actions F .fresh (init env p).toCore := by
  unfold init
  dsimp only
  split
  · exact beginConnecting_actions (State.fresh env p) rfl
  · exact .refl

/-- A step at which the coroutine of a flush starts only where `F` holds of the
other pending jobs. -/
def FlushStartsIn (F : List Job → Prop) (s : State σ) (e : Event) : Prop :=
  ∀ n i r co, e = .job n i r → s.jobs[i]? = some (.coroutine co) →
    co.startsFlush = true → F (s.jobs.eraseIdx i)

/-- The flush a step would start, and the other pending jobs. -/
def startedFlush (s : State σ) : Event → Option (List Job)
  | .job _ i _ =>
    match s.jobs[i]? with
    | some (.coroutine co) => if co.startsFlush then some (s.jobs.eraseIdx i) else none
    | _ => none
  | _ => none

theorem flushStartsIn_iff (s : State σ) (e : Event) :
    FlushStartsIn F s e ↔ ∀ l ∈ startedFlush s e, F l := by
  constructor
  · intro h l hl
    cases e with
    | job n i r =>
      simp only [startedFlush] at hl
      split at hl
      · split_ifs at hl with hst
        · rename_i hj
          cases hl
          exact h n i r _ rfl hj hst
        · cases hl
      · cases hl
    | _ => cases hl
  · rintro h n i r co rfl hj hst
    exact h _ (by simp [startedFlush, hj, hst])

instance (F : List Job → Prop) [DecidablePred F] (s : State σ) (e : Event) :
    Decidable (FlushStartsIn F s e) :=
  decidable_of_iff _ (flushStartsIn_iff s e).symm

/-- **Invariants of runs, conditional form.** -/
theorem core_invariant_of {I : Core → Prop} (hfresh : I .fresh)
    (hact : ∀ c c', Action F c c' → I c → I c') (env : Env σ) (p : Params σ) (es : List Event)
    (hes : Lib.RunAll (step env) (FlushStartsIn F) (init env p) es) :
    I (runFrom env p es).toCore := by
  have hinit : I (init env p).toCore := Lib.actions_invariant hact (init_actions env p) hfresh
  have hrun := Lib.run_invariant_of (I := fun s => Tidy s ∧ I s.toCore)
    (fun s e hF hs => ⟨tidy_step env s e hs.1,
      Lib.actions_invariant hact (step_actions env s e hs.1 hF) hs.2⟩)
    hes ⟨tidy_init env p, hinit⟩
  exact hrun.2

theorem core_invariant {I : Core → Prop} (hfresh : I .fresh)
    (hact : ∀ c c', Action (fun _ => True) c c' → I c → I c') (env : Env σ) (p : Params σ)
    (es : List Event) : I (runFrom env p es).toCore := by
  have hinit : I (init env p).toCore := Lib.actions_invariant hact (init_actions env p) hfresh
  have hrun := Lib.run_invariant (I := fun s => Tidy s ∧ I s.toCore)
    (fun s e hs => ⟨tidy_step env s e hs.1,
      Lib.actions_invariant hact (step_actions env s e hs.1 (by simp)) hs.2⟩)
    (⟨tidy_init env p, hinit⟩ : Tidy (init env p) ∧ I (init env p).toCore) es
  exact hrun.2

/-! ## A concrete connection -/

def plainEnv : Env Unit := ⟨fun u _ => (.notTls, u), none⟩

/-- A connection that is relayed directly. -/
def bypassed : Params Unit where
  dstHost := "192.0.2.1"
  configuration := { serverAddress := "192.0.2.2", serverPort := 443 }
  forceBypass := true
  sniffer := none

/-- lwIP with a send buffer of a given size and one answer to every `tcp_write`. -/
def lwip (sndbuf write : Int) : Native := ⟨fun _ => sndbuf, fun _ => write, 0⟩

/-- The pending job at an index runs, and the call it waits for returns. -/
def returns (i : Nat) (data : Option Bytes := none) : Event :=
  .job (lwip 0 0) i (.returned data)

/-- The relay connects: the dial starts, returns, and its task runs; a receive is
pending afterwards. -/
def relayConnects : List Event := [returns 0, returns 0, returns 0]

end Anywhere.Tcp
