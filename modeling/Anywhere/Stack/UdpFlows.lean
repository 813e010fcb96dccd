import Anywhere.Lib.Machine
import Anywhere.Lib.Registry

/-!
# Anywhere — the UDP flows of `LwipStack`

Flows are in a table by their key. A flow that ends is taken out of the table by
its key, often in a block that is posted to the executor and runs later; the
blocks behind a mux close handler and behind a receive loop do not look whether the
flow was closed meanwhile, nor whether the table has another flow by then. Flow
objects are numbered in the order they are made, and what is still posted for a
flow is kept with it: the posted blocks may run in any order.

* `Sound` — the table holds the flows that have not ended, and what is still to come
  for an ended flow finds no other flow under its key.
* `Settled` — no flow is made while such a block or loop of an earlier one with its
  key is left.
* `run_flows` — in a run like that no block removes another flow, and every flow with
  an upstream is in the table.
-/

namespace Anywhere.Stack

open Lib List

-- ----
-- The model

def maxUdpFlows : Nat := 200

/-- `TunnelConstants.udpIdleTimeoutSec`, in the unit of the clock. -/
def udpIdleTimeout : Int := 60 * 1000000000

/-- What `connectProxy` finds: the bypass, Shadowsocks with its session or without one,
a Vision flow to port 443, a chain or a proxy, or the mux. -/
inductive Route
  | direct
  | shadowsocks (bound : Bool)
  | vision443
  | proxied
  | mux
  deriving Repr

/-- The ways that connect in a coroutine. -/
inductive Path
  | direct | proxied | mux
  deriving DecidableEq, Repr

/-- The coroutine that connects, and the block it posts. -/
inductive Attempt
  | idle
  | inFlight (path : Path)
  | connected (path : Path)
  | failed (path : Path)
  deriving DecidableEq

/-- `directRelay`, `proxyConnection`, `muxSession` and `ssSession`. -/
inductive Upstream
  | direct | proxy | mux | shadowsocks
  deriving DecidableEq

structure LwipUdpFlow where
  flowKey : String
  lastActivity : Int
  upstream : Option Upstream
  proxyConnecting : Bool
  closed : Bool
  /-- `scopeJob` is cancelled. -/
  released : Bool
  attempt : Attempt
  /-- The receive loop of `startProxyReceiving` has not ended. -/
  receiving : Bool
  /-- The mux session is open and has the handlers of this flow. -/
  sessionOpen : Bool
  /-- Posted blocks `close(); udpFlows.remove(flowKey)`. -/
  closeTasks : Nat
  /-- Posted blocks of the error handler of `connectShadowsocksUdp`. -/
  errorTasks : Nat
  deriving DecidableEq

namespace LwipUdpFlow

/-- `releaseProtocol`; closing a mux session that is open calls its close handler. -/
def releaseProtocol (flow : LwipUdpFlow) : LwipUdpFlow :=
  { flow with
    released := true
    upstream := none
    proxyConnecting := false
    sessionOpen := false
    closeTasks := if flow.sessionOpen then flow.closeTasks + 1 else flow.closeTasks }

def close (flow : LwipUdpFlow) : LwipUdpFlow :=
  if flow.closed then flow else { flow with closed := true }.releaseProtocol

/-- `connectProxy`, and whether it removes the flow. -/
def connectProxy (flow : LwipUdpFlow) (route : Route) : LwipUdpFlow × Bool :=
  if flow.proxyConnecting || flow.upstream.isSome || flow.closed then (flow, false)
  else
    match route with
    | .direct =>
      ({ flow with
        proxyConnecting := true, upstream := some .direct, attempt := .inFlight .direct }, false)
    | .shadowsocks true => ({ flow with upstream := some .shadowsocks }, false)
    | .shadowsocks false => (flow.close, true)
    | .vision443 => ({ flow with closed := true }, true)
    | .proxied => ({ flow with proxyConnecting := true, attempt := .inFlight .proxied }, false)
    | .mux => ({ flow with proxyConnecting := true, attempt := .inFlight .mux }, false)

/-- `handleReceivedData`; with an upstream the datagram is sent, and while the flow
connects it is kept. -/
def handleReceivedData (flow : LwipUdpFlow) (route : Route) (now : Int) : LwipUdpFlow × Bool :=
  if flow.closed then (flow, false) else { flow with lastActivity := now }.connectProxy route

/-- The coroutine of `connectProxy` ends and posts its block. -/
def connectEnds (flow : LwipUdpFlow) (ok : Bool) : LwipUdpFlow :=
  match flow.attempt with
  | .inFlight path => { flow with attempt := if ok then .connected path else .failed path }
  | _ => flow

/-- The block behind a connection that was made. The mux session may have been closed
before its handlers were set. -/
def onConnected (flow : LwipUdpFlow) (path : Path) (sessionClosed : Bool) : LwipUdpFlow × Bool :=
  if flow.closed then (flow, false)
  else
    match path with
    | .direct => (flow, false)
    | .proxied => ({ flow with upstream := some .proxy, receiving := true }, false)
    | .mux =>
      if sessionClosed then (flow.releaseProtocol, true)
      else ({ flow with upstream := some .mux, sessionOpen := true }, false)

def onConnectFailed (flow : LwipUdpFlow) (path : Path) : LwipUdpFlow × Bool :=
  if flow.closed then (flow, false)
  else
    match path with
    | .direct => (flow.close, true)
    | .proxied => (flow.releaseProtocol, true)
    | .mux => (flow.releaseProtocol, true)

/-- The block that the coroutine posted. -/
def connectTask (flow : LwipUdpFlow) (sessionClosed : Bool) : LwipUdpFlow × Bool :=
  match flow.attempt with
  | .connected path =>
    { flow with proxyConnecting := false, attempt := .idle }.onConnected path sessionClosed
  | .failed path => { flow with proxyConnecting := false, attempt := .idle }.onConnectFailed path
  | _ => (flow, false)

/-- The mux session ends, and its close handler posts a block. -/
def sessionEnds (flow : LwipUdpFlow) : LwipUdpFlow :=
  if flow.sessionOpen then { flow with sessionOpen := false, closeTasks := flow.closeTasks + 1 }
  else flow

/-- The receive loop ends, by an error, at the end of the stream or when it is
cancelled, and its error handler posts a block. -/
def receiveEnds (flow : LwipUdpFlow) : LwipUdpFlow :=
  if flow.receiving then { flow with receiving := false, closeTasks := flow.closeTasks + 1 }
  else flow

/-- The Shadowsocks session fails, and the error handler of the flow posts a block. -/
def sessionFails (flow : LwipUdpFlow) : LwipUdpFlow :=
  if flow.upstream = some .shadowsocks then { flow with errorTasks := flow.errorTasks + 1 }
  else flow

/-- The block of a close handler or of the end of a receive loop. -/
def closeTask (flow : LwipUdpFlow) : LwipUdpFlow × Bool :=
  match flow.closeTasks with
  | 0 => (flow, false)
  | n + 1 => ({ flow with closeTasks := n }.close, true)

/-- The block of the Shadowsocks error handler. -/
def errorTask (flow : LwipUdpFlow) : LwipUdpFlow × Bool :=
  match flow.errorTasks with
  | 0 => (flow, false)
  | n + 1 => if flow.closed then ({ flow with errorTasks := n }, false)
      else ({ flow with errorTasks := n }.close, true)

def handleRemoteData (flow : LwipUdpFlow) (now : Int) : LwipUdpFlow :=
  if flow.closed then flow else { flow with lastActivity := now }

/-- A flow as `onUdpRecv` makes it. -/
def new (flowKey : String) (now : Int) : LwipUdpFlow :=
  ⟨flowKey, now, none, false, false, false, .idle, false, false, 0, 0⟩

end LwipUdpFlow

/-- The flows made so far, and the table. -/
structure UdpFlows where
  flows : List LwipUdpFlow
  udpFlows : Table String

namespace UdpFlows

def empty : UdpFlows := ⟨[], ∅⟩

/-- What happens to one flow; it may remove its key from the table. -/
def act (s : UdpFlows) (i : Nat) (g : LwipUdpFlow → LwipUdpFlow × Bool) : UdpFlows :=
  match s.flows[i]? with
  | none => s
  | some flow =>
    { flows := s.flows.set i (g flow).1
      udpFlows := if (g flow).2 then s.udpFlows.erase flow.flowKey else s.udpFlows }

def add (s : UdpFlows) (flow : LwipUdpFlow) : UdpFlows :=
  { flows := s.flows ++ [flow]
    udpFlows := s.udpFlows.insert flow.flowKey s.flows.length }

/-- `onUdpRecv`, for a datagram that is not answered as a DNS query or dropped as QUIC:
to its flow, or to a new one if the routing accepts it. -/
def onUdpRecv (s : UdpFlows) (flowKey : String) (accepted : Bool) (route : Route) (now : Int) :
    UdpFlows :=
  match s.udpFlows.lookup flowKey with
  | some i => s.act i (·.handleReceivedData route now)
  | none =>
    if accepted ∧ s.udpFlows.entries.length < maxUdpFlows then
      (s.add (.new flowKey now)).act s.flows.length (·.handleReceivedData route now)
    else s

/-- The flows of the table that have been idle for too long, with their keys. -/
def idle (s : UdpFlows) (now : Int) : List ((_ : String) × Nat) :=
  s.udpFlows.entries.filter fun entry =>
    s.flows[entry.2]?.any fun flow => now - flow.lastActivity > udpIdleTimeout

/-- The task of `startUdpCleanupTimer`. -/
def cleanup (s : UdpFlows) (now : Int) : UdpFlows :=
  { flows := s.flows.mapIdx fun i flow => if (s.idle now).any (·.2 == i) then flow.close else flow
    udpFlows := ((s.idle now).map (·.1)).foldl (fun t k => t.erase k) s.udpFlows }

/-- `handleWake` and `shutdownInternal`: `MuxManager.closeAll` ends all sessions, every
flow of the table is closed, and the table is cleared. -/
def shutdown (s : UdpFlows) : UdpFlows :=
  { flows := s.flows.mapIdx fun i flow =>
      if s.udpFlows.entries.any (·.2 == i) then flow.sessionEnds.close else flow.sessionEnds
    udpFlows := ∅ }

/-- What happens: what the executor runs, and what makes others post to it. -/
inductive Event
  | onUdpRecv (flowKey : String) (accepted : Bool) (route : Route) (now : Int)
  | connectEnds (i : Nat) (ok : Bool)
  | connectTask (i : Nat) (sessionClosed : Bool)
  | sessionEnds (i : Nat)
  | receiveEnds (i : Nat)
  | sessionFails (i : Nat)
  | closeTask (i : Nat)
  | errorTask (i : Nat)
  | handleRemoteData (i : Nat) (now : Int)
  | cleanup (now : Int)
  | shutdown
  deriving Repr

def step (s : UdpFlows) : Event → UdpFlows
  | .onUdpRecv flowKey accepted route now => s.onUdpRecv flowKey accepted route now
  | .connectEnds i ok => s.act i fun flow => (flow.connectEnds ok, false)
  | .connectTask i sessionClosed => s.act i (·.connectTask sessionClosed)
  | .sessionEnds i => s.act i fun flow => (flow.sessionEnds, false)
  | .receiveEnds i => s.act i fun flow => (flow.receiveEnds, false)
  | .sessionFails i => s.act i fun flow => (flow.sessionFails, false)
  | .closeTask i => s.act i (·.closeTask)
  | .errorTask i => s.act i (·.errorTask)
  | .handleRemoteData i now => s.act i fun flow => (flow.handleRemoteData now, false)
  | .cleanup now => s.cleanup now
  | .shutdown => s.shutdown

end UdpFlows

-- ----
-- One flow

namespace LwipUdpFlow

def alive (flow : LwipUdpFlow) : Bool := !flow.closed && !flow.released

/-- A block that removes the key without a look at the flow is posted, or will be. -/
def pending (flow : LwipUdpFlow) : Bool := flow.receiving || 0 < flow.closeTasks

/-- How the fields of a flow go together: an ended flow has no upstream and no open
session, one that ended without being closed does not connect any more, `proxyConnecting`
is set as long as one that is not closed connects, and the error handler is that of a flow
with a Shadowsocks session. -/
structure Ok (flow : LwipUdpFlow) : Prop where
  session : flow.sessionOpen = true → flow.alive = true ∧ flow.upstream = some .mux
  upstream : flow.released = true → flow.upstream = none
  attempt : flow.attempt ≠ .idle → flow.released = true → flow.closed = true
  error : 0 < flow.errorTasks → flow.closed = true ∨ flow.upstream = some .shadowsocks
  path : flow.attempt ≠ .idle →
    flow.closed = true ∨
      flow.proxyConnecting = true ∧ (flow.upstream = none ∨ flow.upstream = some .direct)

/-- What may happen to a flow: it keeps its key, it ends exactly when its key is
removed, which is only done for a flow that has not ended or has such a block, and only
a flow that has not ended gets one. -/
structure Tame (flow flow' : LwipUdpFlow) (removed : Bool) : Prop where
  key : flow'.flowKey = flow.flowKey
  ended : flow'.alive = (flow.alive && !removed)
  due : removed = true → flow.alive = true ∨ flow.pending = true
  later : flow'.pending = true → flow.alive = true ∨ flow.pending = true
  ok : flow'.Ok

variable {flow flow' : LwipUdpFlow}

theorem Tame.refl (h : flow.Ok) : Tame flow flow false := by
  refine ⟨rfl, by simp, ?_, Or.inr, h⟩
  intro hfalse
  cases hfalse

theorem ok_new (flowKey : String) (now : Int) : (new flowKey now).Ok := by
  refine ⟨?_, ?_, ?_, ?_, ?_⟩ <;> simp [new]

theorem not_closed_of_alive (h : flow.alive = true) :
    flow.closed = false ∧ flow.released = false := by
  simpa [alive] using h

theorem Tame.of_same (hkey : flow'.flowKey = flow.flowKey) (halive : flow'.alive = flow.alive)
    (hpending : flow'.pending = true → flow.alive = true ∨ flow.pending = true) (hok : flow'.Ok) :
    Tame flow flow' false := by
  refine ⟨hkey, by simpa using halive, ?_, hpending, hok⟩
  intro hfalse
  cases hfalse

/-- The end of a flow, by `close` or by `releaseProtocol` alone. -/
theorem Tame.of_ended (hkey : flow'.flowKey = flow.flowKey) (halive : flow'.alive = false)
    (hdue : flow.alive = true ∨ flow.pending = true) (hok : flow'.Ok) : Tame flow flow' true :=
  ⟨hkey, by simpa using halive, fun _ => hdue, fun _ => hdue, hok⟩

theorem Ok.close (h : flow.Ok) : flow.close.Ok := by
  unfold LwipUdpFlow.close
  split
  · exact h
  · refine ⟨?_, ?_, ?_, ?_, ?_⟩
    · intro hopen
      cases hopen
    · intro _
      rfl
    · intro _ _
      rfl
    · intro _
      exact Or.inl rfl
    · intro _
      exact Or.inl rfl

theorem close_alive (flow : LwipUdpFlow) : flow.close.alive = false := by
  unfold close
  split
  · simp_all [alive]
  · rfl

theorem close_flowKey (flow : LwipUdpFlow) : flow.close.flowKey = flow.flowKey := by
  unfold close
  split
  · rfl
  · rfl

theorem tame_close (h : flow.Ok) (hdue : flow.alive = true ∨ flow.pending = true) :
    Tame flow flow.close true :=
  .of_ended (close_flowKey flow) (close_alive flow) hdue h.close

/-- A flow that is released and not closed has nothing left that could bring it back. -/
theorem tame_releaseProtocol (halive : flow.alive = true) (hidle : flow.attempt = .idle)
    (herror : flow.errorTasks = 0) : Tame flow flow.releaseProtocol true := by
  refine .of_ended rfl ?_ (Or.inl halive) ⟨?_, ?_, ?_, ?_, ?_⟩
  · simp [alive, releaseProtocol]
  · intro hopen
    cases hopen
  · intro _
    rfl
  · intro hattempt
    exact absurd hidle hattempt
  · intro herrors
    simp [releaseProtocol, herror] at herrors
  · intro hattempt
    exact absurd hidle hattempt

/-- An error handler that is due to a flow that is not closed has a Shadowsocks session. -/
theorem Ok.no_error (h : flow.Ok) (hclosed : flow.closed = false)
    (hupstream : flow.upstream ≠ some .shadowsocks) : flow.errorTasks = 0 := by
  by_contra herrors
  rcases h.error (Nat.pos_of_ne_zero herrors) with hc | hss
  · simp [hclosed] at hc
  · exact hupstream hss

theorem tame_connectProxy (h : flow.Ok) (halive : flow.alive = true) (route : Route) :
    Tame flow (flow.connectProxy route).1 (flow.connectProxy route).2 := by
  obtain ⟨hclosed, hreleased⟩ := not_closed_of_alive halive
  unfold connectProxy
  split
  · exact .refl h
  · rename_i hguard
    simp only [Bool.or_eq_true, not_or, Bool.not_eq_true, Option.isSome_eq_false_iff,
      Option.isNone_iff_eq_none] at hguard
    obtain ⟨⟨hconnecting, hnone⟩, -⟩ := hguard
    have herror : flow.errorTasks = 0 := h.no_error hclosed (by simp [hnone])
    have hsession : flow.sessionOpen = false := by
      by_contra hopen
      simpa [hnone] using (h.session (by simpa using hopen)).2
    have hidle : flow.attempt = .idle := by
      by_contra hattempt
      simpa [hclosed, hconnecting] using h.path hattempt
    rcases route with _ | bound | _ | _ | _
    · refine .of_same rfl rfl Or.inr ⟨?_, ?_, ?_, ?_, ?_⟩
      · simp [hsession]
      · simp [hreleased]
      · simp [hreleased]
      · simp [herror]
      · simp
    · rcases bound with _ | _
      · exact tame_close h (Or.inl halive)
      · refine .of_same rfl rfl Or.inr ⟨?_, ?_, h.attempt, ?_, ?_⟩
        · simp [hsession]
        · simp [hreleased]
        · simp
        · simp [hidle]
    · refine .of_ended rfl (by simp [alive]) (Or.inl halive) ⟨?_, h.upstream, ?_, ?_, ?_⟩
      · simp [hsession]
      · simp
      · simp
      · simp
    · refine .of_same rfl rfl Or.inr ⟨h.session, h.upstream, ?_, h.error, ?_⟩
      · simp [hreleased]
      · simp [hnone]
    · refine .of_same rfl rfl Or.inr ⟨h.session, h.upstream, ?_, h.error, ?_⟩
      · simp [hreleased]
      · simp [hnone]

theorem Tame.trans {flow'' : LwipUdpFlow} {removed : Bool} (h : Tame flow flow' false)
    (h' : Tame flow' flow'' removed) : Tame flow flow'' removed := by
  have halive : flow'.alive = flow.alive := by simpa using h.ended
  have hback : flow'.alive = true ∨ flow'.pending = true → flow.alive = true ∨
      flow.pending = true := by
    rintro (ha | hp)
    · exact Or.inl (halive ▸ ha)
    · exact h.later hp
  refine ⟨h'.key.trans h.key, ?_, fun hr => hback (h'.due hr), fun hp => hback (h'.later hp), h'.ok⟩
  rw [h'.ended, halive]

theorem tame_handleReceivedData (h : flow.Ok) (halive : flow.alive = true) (route : Route)
    (now : Int) :
    Tame flow (flow.handleReceivedData route now).1 (flow.handleReceivedData route now).2 := by
  have hstamp : Tame flow { flow with lastActivity := now } false :=
    .of_same rfl rfl Or.inr ⟨h.session, h.upstream, h.attempt, h.error, h.path⟩
  unfold handleReceivedData
  rw [if_neg (by simp [(not_closed_of_alive halive).1])]
  exact hstamp.trans (tame_connectProxy hstamp.ok halive route)

theorem tame_connectEnds (h : flow.Ok) (ok : Bool) : Tame flow (flow.connectEnds ok) false := by
  unfold connectEnds
  split
  · rename_i path hpath
    have hattempt : flow.attempt ≠ .idle := by simp [hpath]
    exact .of_same rfl rfl Or.inr
      ⟨h.session, h.upstream, fun _ => h.attempt hattempt, h.error, fun _ => h.path hattempt⟩
  · exact .refl h

/-- The coroutine is over, and the block runs with `proxyConnecting` reset. -/
theorem tame_answered (h : flow.Ok) :
    Tame flow { flow with proxyConnecting := false, attempt := .idle } false := by
  refine .of_same rfl rfl Or.inr ⟨h.session, h.upstream, ?_, h.error, ?_⟩
  · simp
  · simp

theorem tame_connectTask (h : flow.Ok) (sessionClosed : Bool) :
    Tame flow (flow.connectTask sessionClosed).1 (flow.connectTask sessionClosed).2 := by
  have hanswered := tame_answered h
  -- A flow that still connects and is not closed has not ended.
  have hfacts : flow.attempt ≠ .idle → flow.closed = false →
      flow.alive = true ∧ flow.released = false ∧ flow.errorTasks = 0 ∧
        flow.sessionOpen = false := by
    intro hattempt hclosed
    have hreleased : flow.released = false := by
      by_contra hreleased
      simpa [hclosed] using h.attempt hattempt (by simpa using hreleased)
    have hpath : flow.upstream = none ∨ flow.upstream = some .direct := by
      rcases h.path hattempt with hc | hp
      · simp [hclosed] at hc
      · exact hp.2
    refine ⟨by simp [alive, hclosed, hreleased], hreleased, h.no_error hclosed ?_, ?_⟩
    · rcases hpath with hup | hup <;> simp [hup]
    · by_contra hopen
      have hmux := (h.session (by simpa using hopen)).2
      rcases hpath with hup | hup <;> simp [hup] at hmux
  unfold connectTask
  split
  · rename_i path hpath
    refine hanswered.trans ?_
    unfold onConnected
    split
    · exact .refl hanswered.ok
    · rename_i hclosed
      obtain ⟨halive, hreleased, herror, hsession⟩ :=
        hfacts (by simp [hpath]) (by simpa using hclosed)
      rcases path with _ | _ | _
      · exact .refl hanswered.ok
      · refine .of_same rfl rfl (fun _ => Or.inl halive) ⟨?_, ?_, ?_, ?_, ?_⟩
        · simp [hsession]
        · simp [hreleased]
        · simp
        · simp [herror]
        · simp
      · simp only
        split
        · exact tame_releaseProtocol halive rfl herror
        · refine .of_same rfl rfl Or.inr ⟨?_, ?_, ?_, ?_, ?_⟩
          · intro _
            exact ⟨halive, rfl⟩
          · simp [hreleased]
          · simp
          · simp [herror]
          · simp
  · rename_i path hpath
    refine hanswered.trans ?_
    unfold onConnectFailed
    split
    · exact .refl hanswered.ok
    · rename_i hclosed
      obtain ⟨halive, hreleased, herror, hsession⟩ :=
        hfacts (by simp [hpath]) (by simpa using hclosed)
      rcases path with _ | _ | _
      · exact tame_close hanswered.ok (Or.inl halive)
      · exact tame_releaseProtocol halive rfl herror
      · exact tame_releaseProtocol halive rfl herror
  · exact .refl h

theorem tame_sessionEnds (h : flow.Ok) : Tame flow flow.sessionEnds false := by
  unfold sessionEnds
  split
  · rename_i hopen
    refine .of_same rfl rfl (fun _ => Or.inl (h.session hopen).1) ⟨?_, h.upstream, h.attempt,
      h.error, h.path⟩
    simp
  · exact .refl h

theorem tame_receiveEnds (h : flow.Ok) : Tame flow flow.receiveEnds false := by
  unfold receiveEnds
  split
  · rename_i hreceiving
    refine .of_same rfl rfl (fun _ => Or.inr ?_) ⟨h.session, h.upstream, h.attempt, h.error, h.path⟩
    simp [pending, hreceiving]
  · exact .refl h

theorem tame_sessionFails (h : flow.Ok) : Tame flow flow.sessionFails false := by
  unfold sessionFails
  split
  · rename_i hss
    exact .of_same rfl rfl Or.inr ⟨h.session, h.upstream, h.attempt, fun _ => Or.inr hss, h.path⟩
  · exact .refl h

theorem tame_closeTask (h : flow.Ok) : Tame flow flow.closeTask.1 flow.closeTask.2 := by
  unfold closeTask
  split
  · exact .refl h
  · rename_i n hn
    have hok : Ok { flow with closeTasks := n } :=
      ⟨h.session, h.upstream, h.attempt, h.error, h.path⟩
    refine .of_ended (close_flowKey _) (close_alive _) (Or.inr ?_) hok.close
    simp [pending, hn]

theorem tame_errorTask (h : flow.Ok) : Tame flow flow.errorTask.1 flow.errorTask.2 := by
  unfold errorTask
  split
  · exact .refl h
  · rename_i n hn
    have herrors : 0 < flow.errorTasks := by omega
    have hok : Ok { flow with errorTasks := n } :=
      ⟨h.session, h.upstream, h.attempt, fun _ => h.error herrors, h.path⟩
    split
    · exact .of_same rfl rfl Or.inr hok
    · rename_i hclosed
      have hss : flow.upstream = some .shadowsocks := (h.error herrors).resolve_left hclosed
      have hreleased : flow.released = false := by
        by_contra hreleased
        simpa [hss] using h.upstream (by simpa using hreleased)
      refine .of_ended (close_flowKey _) (close_alive _) (Or.inl ?_) hok.close
      simpa [alive, hreleased] using hclosed

theorem tame_handleRemoteData (h : flow.Ok) (now : Int) :
    Tame flow (flow.handleRemoteData now) false := by
  unfold handleRemoteData
  split
  · exact .refl h
  · exact .of_same rfl rfl Or.inr ⟨h.session, h.upstream, h.attempt, h.error, h.path⟩

end LwipUdpFlow

-- ----
-- The table

namespace UdpFlows

def keyAt (s : UdpFlows) (i : Nat) : Option String := s.flows[i]?.map (·.flowKey)

def aliveAt (s : UdpFlows) (i : Nat) : Bool := s.flows[i]?.any (·.alive)

def pendingAt (s : UdpFlows) (i : Nat) : Bool := s.flows[i]?.any (·.pending)

/-- The table holds the flows that have not ended, each under its key, and a flow that
something is still to come for is the only one under its key that has not ended. -/
structure Sound (s : UdpFlows) : Prop where
  registered : Registers s.keyAt (s.aliveAt · = true) s.udpFlows
  ok : ∀ (i : Nat) (flow : LwipUdpFlow), s.flows[i]? = some flow → flow.Ok
  only : ∀ i j, s.pendingAt i = true → s.aliveAt j = true → s.keyAt i = s.keyAt j → i = j

/-- A flow is made only when nothing is still to come for an earlier one with its key. -/
def Settled (s : UdpFlows) : Event → Prop
  | .onUdpRecv flowKey _ _ _ =>
    s.udpFlows.lookup flowKey = none → ∀ flow ∈ s.flows, flow.flowKey = flowKey →
      flow.pending = false
  | _ => True

instance decidableSettled (s : UdpFlows) : ∀ e, Decidable (s.Settled e)
  | .onUdpRecv flowKey _ _ _ => inferInstanceAs (Decidable (s.udpFlows.lookup flowKey = none →
      ∀ flow ∈ s.flows, flow.flowKey = flowKey → flow.pending = false))
  | .connectEnds _ _ | .connectTask _ _ | .sessionEnds _ | .receiveEnds _ | .sessionFails _
  | .closeTask _ | .errorTask _ | .handleRemoteData _ _ | .cleanup _ | .shutdown => isTrue trivial

variable {s s' : UdpFlows} {i j : Nat} {flow : LwipUdpFlow} {removed : Nat → Bool}

theorem keyAt_eq (h : s.flows[i]? = some flow) : s.keyAt i = some flow.flowKey := by
  simp [keyAt, h]

theorem aliveAt_eq (h : s.flows[i]? = some flow) : s.aliveAt i = flow.alive := by
  simp [aliveAt, h]

theorem pendingAt_eq (h : s.flows[i]? = some flow) : s.pendingAt i = flow.pending := by
  simp [pendingAt, h]

theorem exists_of_alive (h : s.aliveAt i = true) : ∃ flow, s.flows[i]? = some flow := by
  rcases hi : s.flows[i]? with _ | flow
  · simp [aliveAt, hi] at h
  · exact ⟨flow, rfl⟩

/-- Every flow does what a flow may do; those of `removed` have their keys removed. -/
structure Evolves (s s' : UdpFlows) (removed : Nat → Bool) : Prop where
  same : ∀ i : Nat, s.flows[i]? = none → s'.flows[i]? = none
  tame : ∀ (i : Nat) (flow : LwipUdpFlow), s.flows[i]? = some flow →
    ∃ flow', s'.flows[i]? = some flow' ∧ flow.Tame flow' (removed i)

namespace Evolves

theorem keyAt (h : Evolves s s' removed) (i : Nat) : s'.keyAt i = s.keyAt i := by
  rcases hi : s.flows[i]? with _ | flow
  · simp [UdpFlows.keyAt, hi, h.same i hi]
  · obtain ⟨flow', hi', htame⟩ := h.tame i flow hi
    rw [keyAt_eq hi, keyAt_eq hi', htame.key]

theorem aliveAt (h : Evolves s s' removed) (i : Nat) :
    s'.aliveAt i = (s.aliveAt i && !removed i) := by
  rcases hi : s.flows[i]? with _ | flow
  · simp [UdpFlows.aliveAt, hi, h.same i hi]
  · obtain ⟨flow', hi', htame⟩ := h.tame i flow hi
    rw [aliveAt_eq hi, aliveAt_eq hi', htame.ended]

theorem pendingAt (h : Evolves s s' removed) (hpending : s'.pendingAt i = true) :
    s.aliveAt i = true ∨ s.pendingAt i = true := by
  rcases hi : s.flows[i]? with _ | flow
  · simp [UdpFlows.pendingAt, h.same i hi] at hpending
  · obtain ⟨flow', hi', htame⟩ := h.tame i flow hi
    rw [pendingAt_eq hi'] at hpending
    rw [aliveAt_eq hi, pendingAt_eq hi]
    exact htame.later hpending

/-- What is left to show is that the table loses exactly those keys. -/
theorem sound (h : Evolves s s' removed) (hs : s.Sound)
    (hregistered : Registers s'.keyAt (s'.aliveAt · = true) s'.udpFlows) : s'.Sound := by
  refine ⟨hregistered, ?_, ?_⟩
  · intro i flow' hi'
    rcases hi : s.flows[i]? with _ | flow
    · rw [h.same i hi] at hi'
      cases hi'
    · obtain ⟨flow'', hi'', htame⟩ := h.tame i flow hi
      rw [hi', Option.some.injEq] at hi''
      subst hi''
      exact htame.ok
  · intro i j hpending halive hkey
    rw [h.keyAt, h.keyAt] at hkey
    have hj : s.aliveAt j = true := by
      rw [h.aliveAt] at halive
      exact (Bool.and_eq_true_iff.1 halive).1
    rcases h.pendingAt hpending with hi | hi
    · obtain ⟨flow, hflow⟩ := exists_of_alive hi
      exact hs.registered.unique hi hj (keyAt_eq hflow) (hkey.symm.trans (keyAt_eq hflow))
    · exact hs.only i j hi hj hkey

/-- The keys that are removed are those of the flows that end. -/
theorem registers (h : Evolves s s' removed) (hs : s.Sound) {ks : List String}
    (htable : s'.udpFlows = ks.foldl (fun t k => t.erase k) s.udpFlows)
    (hks : ∀ (j : Nat) (flow : LwipUdpFlow), s.flows[j]? = some flow → s.aliveAt j = true →
      (removed j = true ↔ flow.flowKey ∈ ks)) : s'.Sound := by
  refine h.sound hs ?_
  rw [htable]
  refine Registers.eraseAll hs.registered (fun j _ => h.keyAt j) ?_
  intro j
  rw [h.aliveAt, Bool.and_eq_true, Bool.not_eq_true', and_congr_right_iff]
  intro halive
  obtain ⟨flow, hj⟩ := exists_of_alive halive
  rw [keyAt_eq hj, ← Bool.not_eq_true, hks j flow hj halive]
  constructor
  · rintro hnot k hk heq
    rw [Option.some.injEq] at heq
    subst heq
    exact hnot hk
  · intro hall hmem
    exact hall _ hmem rfl

end Evolves

theorem evolves_act {g : LwipUdpFlow → LwipUdpFlow × Bool} (hs : s.Sound)
    (hi : s.flows[i]? = some flow) (htame : flow.Tame (g flow).1 (g flow).2) :
    Evolves s (s.act i g) fun j => decide (j = i) && (g flow).2 := by
  have hact : (s.act i g).flows = s.flows.set i (g flow).1 := by simp [act, hi]
  refine ⟨?_, ?_⟩
  · intro j hj
    rw [hact, List.getElem?_eq_none_iff, length_set]
    exact List.getElem?_eq_none_iff.1 hj
  · intro j flow' hj
    rw [hact]
    by_cases hij : j = i
    · subst hij
      rw [hi, Option.some.injEq] at hj
      subst hj
      refine ⟨(g flow).1, ?_, by simpa using htame⟩
      rw [List.getElem?_set_self (List.getElem?_eq_some_iff.1 hi).1]
    · refine ⟨flow', ?_, ?_⟩
      · rw [List.getElem?_set_ne (Ne.symm hij)]
        exact hj
      · simpa [hij] using LwipUdpFlow.Tame.refl (hs.ok j flow' hj)

/-- What happens to one flow removes no key but its own, and no other flow has that. -/
theorem Sound.act {g : LwipUdpFlow → LwipUdpFlow × Bool} (hs : s.Sound)
    (htame : ∀ flow, s.flows[i]? = some flow → flow.Tame (g flow).1 (g flow).2) :
    (s.act i g).Sound := by
  rcases hi : s.flows[i]? with _ | flow
  · have hsame : s.act i g = s := by simp [UdpFlows.act, hi]
    rw [hsame]
    exact hs
  · have hflow := htame flow hi
    have htable : (s.act i g).udpFlows =
        (if (g flow).2 then [flow.flowKey] else []).foldl (fun t k => t.erase k) s.udpFlows := by
      simp only [UdpFlows.act, hi]
      split
      · rfl
      · rfl
    refine (evolves_act hs hi hflow).registers hs htable ?_
    intro j flow' hj halive
    by_cases hremoved : (g flow).2 = true
    · simp only [hremoved, Bool.and_true, decide_eq_true_iff, if_true, mem_singleton]
      constructor
      · rintro rfl
        rw [hi, Option.some.injEq] at hj
        rw [hj]
      · intro hkey
        have hkeys : s.keyAt i = s.keyAt j := by rw [keyAt_eq hi, keyAt_eq hj, hkey]
        rcases hflow.due hremoved with ha | hp
        · rw [← aliveAt_eq hi] at ha
          exact hs.registered.unique halive ha (keyAt_eq hj) (by rw [keyAt_eq hi, hkey])
        · rw [← pendingAt_eq hi] at hp
          exact (hs.only i j hp halive hkeys).symm
    · simp [hremoved]

/-- A new flow, when nothing is still to come for another one with its key. -/
theorem Sound.add (hs : s.Sound) (halive : flow.alive = true) (hok : flow.Ok)
    (hpending : flow.pending = false) (hnone : s.udpFlows.lookup flow.flowKey = none)
    (hsettled : ∀ other ∈ s.flows, other.flowKey = flow.flowKey → other.pending = false) :
    (s.add flow).Sound := by
  have hself : (s.add flow).flows[s.flows.length]? = some flow := by simp [UdpFlows.add]
  have hold : ∀ i < s.flows.length, (s.add flow).flows[i]? = s.flows[i]? :=
    fun i hi => List.getElem?_append_left hi
  have hlt : ∀ i, s.aliveAt i = true → i < s.flows.length := by
    intro i hi
    obtain ⟨_, hi⟩ := exists_of_alive hi
    exact (List.getElem?_eq_some_iff.1 hi).1
  have hcases : ∀ (i : Nat) (other : LwipUdpFlow), (s.add flow).flows[i]? = some other →
      s.flows[i]? = some other ∨ i = s.flows.length ∧ other = flow := by
    intro i other hi
    by_cases hlt : i < s.flows.length
    · exact Or.inl ((hold i hlt).symm.trans hi)
    · obtain ⟨hi', -⟩ := List.getElem?_eq_some_iff.1 hi
      obtain rfl : i = s.flows.length := by
        simp only [UdpFlows.add, length_append, length_singleton] at hi'
        omega
      exact Or.inr ⟨rfl, Option.some.inj (hi.symm.trans hself)⟩
  have haliveAt : ∀ i, (s.add flow).aliveAt i = true ↔ s.aliveAt i = true ∨ i = s.flows.length := by
    intro i
    constructor
    · intro hi
      obtain ⟨other, hother⟩ := exists_of_alive hi
      rcases hcases i other hother with hi' | ⟨rfl, -⟩
      · rw [aliveAt_eq hother] at hi
        exact Or.inl ((aliveAt_eq hi').trans hi)
      · exact Or.inr rfl
    · rintro (hi | rfl)
      · obtain ⟨other, hother⟩ := exists_of_alive hi
        rw [aliveAt_eq ((hold i (hlt i hi)).trans hother), ← aliveAt_eq hother]
        exact hi
      · exact (aliveAt_eq hself).trans halive
  have hkeyAt : ∀ i < s.flows.length, (s.add flow).keyAt i = s.keyAt i := by
    intro i hi
    simp only [keyAt, hold i hi]
  have hfresh : ∀ i, s.aliveAt i = true → s.keyAt i ≠ some flow.flowKey := by
    intro i hi hkey
    have hlookup := (hs.registered flow.flowKey i).2 ⟨hi, hkey⟩
    rw [hnone] at hlookup
    cases hlookup
  refine ⟨?_, ?_, ?_⟩
  · exact Registers.insert hs.registered (fun i hi => (hlt i hi).ne) hfresh (keyAt_eq hself)
      (fun i hi => hkeyAt i (hlt i hi)) haliveAt
  · intro i other hi
    rcases hcases i other hi with hi | ⟨-, rfl⟩
    · exact hs.ok i other hi
    · exact hok
  · intro i j hpend hj hkey
    rcases hother : (s.add flow).flows[i]? with _ | other
    · simp [pendingAt, hother] at hpend
    · rw [pendingAt_eq hother] at hpend
      rcases hcases i other hother with hi | ⟨-, rfl⟩
      · have hi' := (List.getElem?_eq_some_iff.1 hi).1
        rw [hkeyAt i hi'] at hkey
        rcases (haliveAt j).1 hj with hj | rfl
        · rw [hkeyAt j (hlt j hj)] at hkey
          exact hs.only i j ((pendingAt_eq hi).trans hpend) hj hkey
        · rw [keyAt_eq hi, keyAt_eq hself, Option.some.injEq] at hkey
          rw [hsettled other (List.mem_of_getElem? hi) hkey] at hpend
          cases hpend
      · rw [hpending] at hpend
        cases hpend

theorem Sound.onUdpRecv (hs : s.Sound) {flowKey : String} {accepted : Bool}
    {route : Route} {now : Int} (hsettled : s.Settled (.onUdpRecv flowKey accepted route now)) :
    (s.onUdpRecv flowKey accepted route now).Sound := by
  unfold UdpFlows.onUdpRecv
  split
  · rename_i i hlookup
    refine hs.act fun flow hi => ?_
    have halive : s.aliveAt i = true := ((hs.registered flowKey i).1 hlookup).1
    rw [aliveAt_eq hi] at halive
    exact LwipUdpFlow.tame_handleReceivedData (hs.ok i flow hi) halive route now
  · rename_i hlookup
    split
    · have hadd : (s.add (.new flowKey now)).Sound :=
        hs.add rfl (LwipUdpFlow.ok_new flowKey now) rfl hlookup (hsettled hlookup)
      refine hadd.act fun flow hi => ?_
      obtain rfl : flow = .new flowKey now := by
        simpa [UdpFlows.add, eq_comm] using hi
      exact LwipUdpFlow.tame_handleReceivedData (LwipUdpFlow.ok_new flowKey now) rfl route now
    · exact hs

theorem Sound.alive_of_entry (hs : s.Sound) {entry : (_ : String) × Nat}
    (hentry : entry ∈ s.udpFlows.entries) :
    s.aliveAt entry.2 = true ∧ s.keyAt entry.2 = some entry.1 :=
  (hs.registered entry.1 entry.2).1 (AList.mem_lookup_iff.2 hentry)

theorem evolves_mapIdx {f : Nat → LwipUdpFlow → LwipUdpFlow} (hflows : s'.flows = s.flows.mapIdx f)
    (htame : ∀ (i : Nat) (flow : LwipUdpFlow), s.flows[i]? = some flow →
      flow.Tame (f i flow) (removed i)) :
    Evolves s s' removed := by
  refine ⟨?_, ?_⟩
  · intro i hi
    simp [hflows, hi]
  · intro i flow hi
    exact ⟨f i flow, by simp [hflows, hi], htame i flow hi⟩

theorem Sound.cleanup (hs : s.Sound) (now : Int) : (s.cleanup now).Sound := by
  have hevolves : Evolves s (s.cleanup now) fun i => (s.idle now).any (·.2 == i) := by
    refine evolves_mapIdx rfl ?_
    intro i flow hi
    split
    · rename_i hidle
      obtain ⟨entry, hentry, hnumber⟩ := any_eq_true.1 hidle
      obtain rfl : entry.2 = i := by simpa using hnumber
      have halive := (hs.alive_of_entry (mem_of_mem_filter hentry)).1
      rw [aliveAt_eq hi] at halive
      rw [hidle]
      exact LwipUdpFlow.tame_close (hs.ok _ flow hi) (Or.inl halive)
    · rename_i hidle
      rw [Bool.not_eq_true] at hidle
      rw [hidle]
      exact .refl (hs.ok i flow hi)
  refine hevolves.registers hs rfl ?_
  intro j flow hj halive
  simp only [any_eq_true, mem_map, beq_iff_eq]
  constructor
  · rintro ⟨entry, hentry, rfl⟩
    refine ⟨entry, hentry, ?_⟩
    have hkey := (hs.alive_of_entry (mem_of_mem_filter hentry)).2
    rw [keyAt_eq hj, Option.some.injEq] at hkey
    exact hkey.symm
  · rintro ⟨entry, hentry, hkey⟩
    refine ⟨entry, hentry, ?_⟩
    obtain ⟨halive', hkey'⟩ := hs.alive_of_entry (mem_of_mem_filter hentry)
    exact hs.registered.unique halive' halive hkey' (by rw [keyAt_eq hj, hkey])

theorem Sound.shutdown (hs : s.Sound) : s.shutdown.Sound := by
  have hevolves : Evolves s s.shutdown fun i => s.udpFlows.entries.any (·.2 == i) := by
    refine evolves_mapIdx rfl ?_
    intro i flow hi
    have hsession := LwipUdpFlow.tame_sessionEnds (hs.ok i flow hi)
    split
    · rename_i hany
      obtain ⟨entry, hentry, hnumber⟩ := any_eq_true.1 hany
      obtain rfl : entry.2 = i := by simpa using hnumber
      have halive := (hs.alive_of_entry hentry).1
      rw [aliveAt_eq hi] at halive
      rw [hany]
      refine hsession.trans (LwipUdpFlow.tame_close hsession.ok (Or.inl ?_))
      rw [hsession.ended, halive]
      rfl
    · rename_i hany
      rw [Bool.not_eq_true] at hany
      rw [hany]
      exact hsession
  refine hevolves.sound hs (Registers.empty fun i halive => ?_)
  rw [hevolves.aliveAt, Bool.and_eq_true, Bool.not_eq_true'] at halive
  obtain ⟨flow, hi⟩ := exists_of_alive halive.1
  have hlookup := (hs.registered flow.flowKey i).2 ⟨halive.1, keyAt_eq hi⟩
  have hentry := AList.mem_lookup_iff.1 hlookup
  exact Bool.eq_false_iff.1 halive.2 (any_eq_true.2 ⟨_, hentry, by simp⟩)

def Event.flow? : Event → Option Nat
  | .connectEnds i _ | .connectTask i _ | .sessionEnds i | .receiveEnds i | .sessionFails i
  | .closeTask i | .errorTask i | .handleRemoteData i _ => some i
  | .onUdpRecv _ _ _ _ | .cleanup _ | .shutdown => none

theorem Sound.step_act (hs : s.Sound) {e : Event} (he : e.flow? = some i) :
    ∃ g, s.step e = s.act i g ∧ ∀ flow, s.flows[i]? = some flow →
      flow.Tame (g flow).1 (g flow).2 := by
  rcases e with _ | ⟨i, ok⟩ | ⟨i, sessionClosed⟩ | i | i | i | i | i | ⟨i, now⟩ | now | _
  · cases he
  · cases he
    exact ⟨_, rfl, fun flow hi => LwipUdpFlow.tame_connectEnds (hs.ok i flow hi) ok⟩
  · cases he
    exact ⟨_, rfl, fun flow hi => LwipUdpFlow.tame_connectTask (hs.ok i flow hi) sessionClosed⟩
  · cases he
    exact ⟨_, rfl, fun flow hi => LwipUdpFlow.tame_sessionEnds (hs.ok i flow hi)⟩
  · cases he
    exact ⟨_, rfl, fun flow hi => LwipUdpFlow.tame_receiveEnds (hs.ok i flow hi)⟩
  · cases he
    exact ⟨_, rfl, fun flow hi => LwipUdpFlow.tame_sessionFails (hs.ok i flow hi)⟩
  · cases he
    exact ⟨_, rfl, fun flow hi => LwipUdpFlow.tame_closeTask (hs.ok i flow hi)⟩
  · cases he
    exact ⟨_, rfl, fun flow hi => LwipUdpFlow.tame_errorTask (hs.ok i flow hi)⟩
  · cases he
    exact ⟨_, rfl, fun flow hi => LwipUdpFlow.tame_handleRemoteData (hs.ok i flow hi) now⟩
  · cases he
  · cases he

/-- A step that makes no flow too early leaves the table as it must be. -/
theorem Sound.step (s : UdpFlows) (e : Event) (hsettled : s.Settled e) (hs : s.Sound) :
    (s.step e).Sound := by
  rcases he : e.flow? with _ | i
  · rcases e with _ | _ | _ | _ | _ | _ | _ | _ | _ | now | _ <;> try cases he
    · exact hs.onUdpRecv hsettled
    · exact hs.cleanup now
    · exact hs.shutdown
  · obtain ⟨g, hact, htame⟩ := hs.step_act he
    rw [hact]
    exact hs.act htame

-- ----
-- Runs

def Live (s : UdpFlows) (i : Nat) (flow : LwipUdpFlow) : Prop :=
  s.flows[i]? = some flow ∧ flow.closed = false ∧ flow.upstream.isSome = true

/-- Every live flow is the value of the table at its key, and no two have one key. -/
def Held (s : UdpFlows) : Prop :=
  (∀ i flow, s.Live i flow → s.udpFlows.lookup flow.flowKey = some i) ∧
  ∀ i j flow other, s.Live i flow → s.Live j other → flow.flowKey = other.flowKey → i = j

/-- What is done for a flow leaves the others in the table. -/
def RemovesOwn (s : UdpFlows) (e : Event) : Prop :=
  ∀ i, e.flow? = some i → ∀ key j, j ≠ i → s.udpFlows.lookup key = some j →
    (s.step e).udpFlows.lookup key = some j

theorem Sound.held (hs : s.Sound) : s.Held := by
  have hlookup : ∀ i flow, s.Live i flow → s.udpFlows.lookup flow.flowKey = some i := by
    rintro i flow ⟨hi, hclosed, hupstream⟩
    have hreleased : flow.released = false := by
      by_contra hreleased
      rw [(hs.ok i flow hi).upstream (by simpa using hreleased)] at hupstream
      cases hupstream
    have halive : s.aliveAt i = true := by
      rw [aliveAt_eq hi]
      simp [LwipUdpFlow.alive, hclosed, hreleased]
    exact (hs.registered flow.flowKey i).2 ⟨halive, keyAt_eq hi⟩
  refine ⟨hlookup, ?_⟩
  intro i j flow other hi hj hkey
  have hfirst := hlookup i flow hi
  rw [hkey, hlookup j other hj, Option.some.injEq] at hfirst
  exact hfirst.symm

theorem Sound.removesOwn (hs : s.Sound) (e : Event) : s.RemovesOwn e := by
  intro i he key j hj hlookup
  obtain ⟨g, hact, htame⟩ := hs.step_act he
  rw [hact]
  obtain ⟨halive, hkey⟩ := (hs.registered key j).1 hlookup
  rcases hi : s.flows[i]? with _ | flow
  · rw [UdpFlows.act, hi]
    exact hlookup
  · have hevolves := evolves_act hs hi (htame flow hi)
    refine ((hs.act htame).registered key j).2 ⟨?_, (hevolves.keyAt j).trans hkey⟩
    show (s.act i g).aliveAt j = true
    rw [hevolves.aliveAt, halive]
    simp [hj]

theorem sound_empty : empty.Sound := by
  refine ⟨Registers.empty fun i halive => ?_, ?_, ?_⟩
  · cases halive
  · intro i flow hi
    cases hi
  · intro i j hi
    cases hi

/-- In a run that makes no flow while something is still to come for an earlier one with
its key, nothing done for a flow removes another one, and at every moment the live flows
are in the table, each alone under its key. -/
theorem run_flows (es : List Event) (h : RunAll step Settled empty es) :
    (run step empty es).Held ∧ RunAll step (fun s e => s.Held ∧ s.RemovesOwn e) empty es :=
  ⟨(run_invariant_of Sound.step h sound_empty).held,
    h.of_invariant Sound.step (fun _ e _ hs => ⟨hs.held, hs.removesOwn e⟩) sound_empty⟩

/-- A flow through a proxy is closed when it is idle, its receive loop ends and the block
runs, and then a datagram makes a new flow with the key. -/
def laterDatagram : List Event :=
  [.onUdpRecv "a:1-b:2" true .proxied 0, .connectEnds 0 true, .connectTask 0 false,
    .handleRemoteData 0 1, .cleanup 60000000002, .receiveEnds 0, .closeTask 0,
    .onUdpRecv "a:1-b:2" true .direct 60000000003, .connectEnds 1 true, .connectTask 1 false]

theorem run_flows_laterDatagram :
    RunAll step Settled empty laterDatagram ∧ (run step empty laterDatagram).Held :=
  have h : RunAll step Settled empty laterDatagram := by decide
  ⟨h, (run_flows laterDatagram h).1⟩

/-- The same with the datagram before the block: the block of the old flow removes the
new one, which is live and in no table. -/
theorem new_flow_removed :
    ¬(run step empty [.onUdpRecv "a:1-b:2" true .proxied 0, .connectEnds 0 true,
      .connectTask 0 false, .cleanup 60000000001, .receiveEnds 0,
      .onUdpRecv "a:1-b:2" true .direct 60000000002, .closeTask 0]).Held := by
  intro hheld
  have hlookup := hheld.1 1 ⟨"a:1-b:2", 60000000002, some .direct, true, false, false,
    .inFlight .direct, false, false, 0, 0⟩ ⟨by decide, rfl, rfl⟩
  revert hlookup
  decide

end UdpFlows

end Anywhere.Stack
