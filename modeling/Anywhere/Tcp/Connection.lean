import Anywhere.Lib.Machine
import Anywhere.Tcp.ByteBuffer

/-!
# Anywhere — `LwipTcpConnection.kt` as an event machine

One TCP connection of the tunnel: the lwIP pcb on the local side, a proxy
connection or a direct relay on the remote side. Everything runs on the lwIP
executor thread, so a run is a sequence of *events*, each handled to its end
before the next one:

* a callback of lwIP (`tcp_recv_cb`, `tcp_sent_cb`, `tcp_err_cb`);
* a timer (handshake timeout, sniff deadline, activity tick);
* one of the *pending jobs*: a task posted with `lwipExecutor.execute`, a
  delayed task, or a coroutine of the connection's scope together with the
  outcome of the call it is suspended in.

Any pending job may run next, which covers every order the executor, the
dispatcher and the network can produce. What lwIP answers to
`nativeTcpSndbuf`, `nativeTcpWrite` and `tcp_close` is part of the event.

The scope is cancelled in the same step that sets `closed`, so `closed` also
tells whether `scopeJob.cancel()` has run: a coroutine that has not started by
then never does, and one that is suspended may be resumed with a
`CancellationException`.

Logging and the request log are left out.
-/

namespace Anywhere.Tcp

/-! ## Constants (`TunnelConstants.kt`) -/

def connectionIdleTimeoutMs : Nat := 300000
def downlinkOnlyTimeoutMs : Nat := 1000
def uplinkOnlyTimeoutMs : Nat := 1000
def tcpMaxWriteSize : Nat := 16 * 1024
def tcpMaxCoalesceSize : Nat := 65535
def tcpMaxPendingDataSize : Nat := 2 * 1024 * 1360
def drainLowWaterMark : Nat := 512 * 1360

/-! ## `ActivityTimer.kt` -/

/-- `ActivityTimer`: the tick itself is an event, so of the schedule only the
interval is kept. -/
structure ActivityTimer where
  hasActivity : Bool
  cancelled : Bool
  timeoutMs : Nat

namespace ActivityTimer

def new (timeoutMs : Nat) : ActivityTimer := ⟨false, false, timeoutMs⟩

def update (t : ActivityTimer) : ActivityTimer := { t with hasActivity := true }

def cancel (t : ActivityTimer) : ActivityTimer := { t with cancelled := true }

/-- `setTimeout`: the timer, and whether `onTimeout` is called. `hasActivity`
is deliberately kept. -/
def setTimeout (t : ActivityTimer) (timeoutMs : Nat) : ActivityTimer × Bool :=
  if t.cancelled then (t, false)
  else if timeoutMs ≤ 0 then (t.cancel, true)
  else ({ t with timeoutMs := timeoutMs }, false)

def tick (t : ActivityTimer) : ActivityTimer × Bool :=
  if t.cancelled then (t, false)
  else if t.hasActivity then ({ t with hasActivity := false }, false)
  else (t.cancel, true)

end ActivityTimer

/-! ## What a connection does to the outside -/

/-- What lwIP answers during one event: the `k`-th `nativeTcpSndbuf`, the
`k`-th `nativeTcpWrite`, and `tcp_close`. -/
structure Native where
  sndbuf : Nat → Int
  write : Nat → Int
  tcpClose : Int

/-- Observable actions, in the order they happen. -/
inductive Obs where
  /-- `handleReceivedData(data)` on an open connection. -/
  | delivered (data : Bytes)
  /-- An upstream send is called (`relay.send`, `connection.send`, or the
  connect call that carries `initialData`). -/
  | sendStart (data : Bytes)
  /-- That call returned or threw. -/
  | sendEnd
  /-- A receive result reaches the executor. -/
  | upstream (data : Bytes)
  | sndbuf
  | write (chunk : Bytes) (err : Int)
  | output
  | recved (n : Nat)
  | tcpClose (err : Int)
  | tcpAbort
  /-- lwIP reports the pcb gone (`tcp_err_cb`). -/
  | tcpErr
  /-- What `tcp_recv_cb` or `tcp_sent_cb` returns to lwIP. -/
  | ret (err : Int)
  deriving DecidableEq

/-- How the call a coroutine is suspended in ends. -/
inductive Outcome where
  | returned (data : Option Bytes)
  | threw
  | cancelled
  deriving Repr

/-- A coroutine of the connection's scope; `calling` tells whether it is
suspended in a call or has not started. -/
inductive Coroutine where
  /-- `connectDirect`'s, up to the end of `relay.connect`. -/
  | dialDirect (calling : Bool) (initialData : Option Bytes)
  /-- `connectProxy`'s or `connectChain`'s; `hops` chain hops are still to
  return before the call that carries `initialData`. -/
  | dialProxy (calling : Bool) (hops : Nat) (initialData : Option Bytes)
  /-- A dial that ended in a `CancellationException` (a shared HTTP/2 session
  hands one to every waiter): it just returns, with what it had extracted. -/
  | dialAbandoned (held : Bytes) (unacked : Nat)
  /-- The connect-time drain of `connectDirect` and `onProxyConnected`. -/
  | connectSend (calling : Bool) (todo : List Bytes) (totalAck : Nat)
  /-- `flushCoalesceBuffer`'s. -/
  | flush (calling : Bool) (data : Bytes) (sent : Nat)
  /-- `tryArmReceive`'s. -/
  | receive (calling : Bool)
  deriving Repr

/-- Work that has been posted and has not run to its end: executor tasks, and
coroutines. The tasks behind a failed coroutine also carry what it still held:
the bytes it had not handed upstream, and how many it had not acknowledged. -/
inductive Job where
  | flushCoalesceBuffer
  | directConnected (initialData : Option Bytes)
  | proxyConnected (handshakeAckBytes : Nat)
  | connectFailed (direct : Bool) (held : Bytes) (unacked : Nat)
  | ack (bytes : Nat)
  | abort (held : Bytes) (unacked : Nat)
  | flushDone
  | flushCancelled
  | flushFailed (held : Bytes) (unacked : Nat)
  | received (r : Outcome)
  | drainRetry
  | coroutine (c : Coroutine)
  deriving Repr

/-! ## Coroutines

What a coroutine does between two suspensions depends on nothing but itself and
the outcome of the call it was suspended in. -/

/-- Length of an optional array (`?.size ?: 0`). -/
def sizeOrZero (d : Option Bytes) : Nat := (d.getD []).length

def flushChunk (data : Bytes) (sent : Nat) : Bytes :=
  let chunkSize := min (data.length - sent) tcpMaxCoalesceSize
  if sent = 0 ∧ chunkSize = data.length then data
  else (data.drop sent).take chunkSize

/-- The connect call that carries `initialData` begins. -/
def finalHop : Nat → Option Bytes → List Obs
  | 0, some d => [.sendStart d]
  | _, _ => []

def connectSendFrom (todo : List Bytes) (totalAck : Nat) : List Obs × List Job :=
  match todo with
  | d :: _ => ([.sendStart d], [.coroutine (.connectSend true todo totalAck)])
  | [] => ([], [.ack totalAck])

/-- The send loop of a flush at an offset. -/
def flushFrom (data : Bytes) (sent : Nat) : List Obs × List Job :=
  if sent < data.length then
    ([.sendStart (flushChunk data sent)], [.coroutine (.flush true data sent)])
  else ([], [.flushDone])

namespace Coroutine

def started : Coroutine → Bool
  | dialDirect calling _ => calling
  | dialProxy calling _ _ => calling
  | dialAbandoned _ _ => true
  | connectSend calling _ _ => calling
  | flush calling _ _ => calling
  | receive calling => calling

/-- From its start or a resumption to the next suspension or the end: what it
does, and what it posts (itself, when it is suspended again). -/
def resume (r : Outcome) : Coroutine → List Obs × List Job
  | dialDirect false initialData => ([], [.coroutine (dialDirect true initialData)])
  | dialDirect true initialData =>
    match r with
    | .returned _ => ([], [.directConnected initialData])
    | .threw => ([], [.connectFailed true (initialData.getD []) (sizeOrZero initialData)])
    | .cancelled =>
      ([], [.coroutine (dialAbandoned (initialData.getD []) (sizeOrZero initialData))])
  | dialProxy false hops initialData =>
    (finalHop hops initialData, [.coroutine (dialProxy true hops initialData)])
  | dialProxy true (hops + 1) initialData =>
    match r with
    | .returned _ => (finalHop hops initialData, [.coroutine (dialProxy true hops initialData)])
    | .threw => ([], [.connectFailed false (initialData.getD []) (sizeOrZero initialData)])
    | .cancelled =>
      ([], [.coroutine (dialAbandoned (initialData.getD []) (sizeOrZero initialData))])
  | dialProxy true 0 initialData =>
    let ended := if initialData.isSome then [Obs.sendEnd] else []
    match r with
    | .returned _ => (ended, [.proxyConnected (sizeOrZero initialData)])
    | .threw => (ended, [.connectFailed false [] (sizeOrZero initialData)])
    | .cancelled => (ended, [.coroutine (dialAbandoned [] (sizeOrZero initialData))])
  | dialAbandoned held unacked => ([], [.coroutine (dialAbandoned held unacked)])
  | connectSend false todo totalAck => connectSendFrom todo totalAck
  | connectSend true todo totalAck =>
    match r with
    | .returned _ =>
      (.sendEnd :: (connectSendFrom todo.tail totalAck).1, (connectSendFrom todo.tail totalAck).2)
    | .threw => ([.sendEnd], [.abort todo.tail.flatten totalAck])
    | .cancelled => ([.sendEnd], [])
  | flush false data sent => flushFrom data sent
  | flush true data sent =>
    let chunkSize := (flushChunk data sent).length
    match r with
    | .returned _ =>
      (.sendEnd :: (flushFrom data (sent + chunkSize)).1,
        .ack chunkSize :: (flushFrom data (sent + chunkSize)).2)
    | .threw =>
      ([.sendEnd], [.flushFailed (data.drop (sent + chunkSize)) (data.length - sent)])
    | .cancelled => ([.sendEnd], [.flushCancelled])
  | receive false => ([], [.coroutine (receive true)])
  | receive true => ([], [.received r])

end Coroutine

/-! ## State -/

/-- The part of a connection the byte streams and the pcb depend on. -/
structure Core where
  closed : Bool
  /-- The pcb's callbacks point at this connection. -/
  bound : Bool
  directRelay : Bool
  vlessConnection : Bool
  directConnecting : Bool
  vlessConnecting : Bool
  pendingData : ByteArrayOutputStream
  coalesceBuffer : Option ByteArrayOutputStream
  coalesceScheduled : Bool
  coalesceFlushInFlight : Bool
  pendingWrite : ByteArrayOutputStream
  receiveInFlight : Bool
  jobs : List Job
  trace : List Obs

/-- A connection; `σ` is the state of its `TlsClientHelloSniffer`. -/
structure State (σ : Type) extends Core where
  dstHost : String
  configuration : ProxyConfiguration
  bypass : Bool
  sniffer : Option σ
  sniffDeadline : Bool
  handshakeTimer : Bool
  activityTimer : Option ActivityTimer
  uplinkDone : Bool
  downlinkDone : Bool

/-- `TlsClientHelloSniffer.State`. -/
inductive SniffState where
  | needMore
  | found (serverName : String)
  | notTls
  | unavailable

inductive RouteAction where
  | direct
  | reject
  | proxy (configurationId : Bytes)

/-- The routing side of `LwipStack.instance`. -/
structure Stack where
  matchDomain : String → Option RouteAction
  resolveConfiguration : Bytes → Option ProxyConfiguration
  shouldBypass : String → Bool

/-- What a connection reads from its surroundings: the sniffer's parser, and
the stack when there is one. -/
structure Env (σ : Type) where
  feed : σ → Bytes → SniffState × σ
  stack : Option Stack

variable {σ : Type}

namespace State

def emit (s : State σ) (l : List Obs) : State σ :=
  { s with trace := s.trace ++ l }

/-- `lwipExecutor.execute` or `lwipExecutor.schedule`. -/
def post (s : State σ) (j : Job) : State σ :=
  { s with jobs := s.jobs ++ [j] }

/-- `scope.launch`. -/
def launch (s : State σ) (c : Coroutine) : State σ := s.post (.coroutine c)

def isEstablishing (s : State σ) : Bool :=
  s.vlessConnecting || s.directConnecting || s.sniffer.isSome

def cancelSniffDeadline (s : State σ) : State σ :=
  { s with sniffDeadline := false }

/-! ## Closing -/

def releaseProtocol (s : State σ) : State σ :=
  { s with
    handshakeTimer := false
    sniffDeadline := false
    sniffer := none
    activityTimer := none
    directRelay := false
    vlessConnection := false
    vlessConnecting := false
    directConnecting := false
    pendingData := s.pendingData.reset
    pendingWrite := s.pendingWrite.reset
    coalesceBuffer := none
    coalesceScheduled := false
    receiveInFlight := false }

/-- `lwip_bridge_tcp_abort`: the callbacks are cleared, then `tcp_abort`. -/
def nativeTcpAbort (s : State σ) : State σ :=
  { s with bound := false, trace := s.trace ++ [.tcpAbort] }

/-- `lwip_bridge_tcp_close`: the callbacks are cleared, then `tcp_close`, with
`tcp_abort` as the fallback when it fails. -/
def nativeTcpClose (n : Native) (s : State σ) : State σ :=
  { s with
    bound := false
    trace := s.trace ++ [.tcpClose n.tcpClose] ++ if n.tcpClose ≠ 0 then [.tcpAbort] else [] }

def abort (s : State σ) : State σ :=
  if s.closed then s
  else releaseProtocol (nativeTcpAbort { s with closed := true })

end State

/-! ## The downlink: `feedLwip` and its callers -/

/-- How much `feedLwip` may write in its `k`-th turn. An empty send buffer is
flushed with `tcp_output` and asked once more when `retryOnEmpty` is set. -/
def askSndbuf (n : Native) (k : Nat) (retryOnEmpty : Bool) : Int × List Obs :=
  if n.sndbuf (2 * k) ≤ 0 ∧ retryOnEmpty then
    (n.sndbuf (2 * k + 1), [.sndbuf, .output, .sndbuf])
  else (n.sndbuf (2 * k), [.sndbuf])

/-- The loop of `feedLwip`: what it returns, and its native calls. Every turn
but the last places at least one byte, so `count` turns are enough. -/
def feedLoop (n : Native) (data : Bytes) (dataOffset count : Nat) (retryOnEmpty : Bool) :
    Nat → Nat → Nat → Int × List Obs
  | 0, _, offset => (offset, [])
  | fuel + 1, k, offset =>
    if offset < count then
      let asked := askSndbuf n k retryOnEmpty
      if asked.1 ≤ 0 then (offset, asked.2)
      else
        let chunkSize := min asked.1.toNat (min (count - offset) tcpMaxWriteSize)
        let err := n.write k
        let wrote := asked.2 ++ [.write ((data.drop (dataOffset + offset)).take chunkSize) err]
        if err ≠ 0 then
          if err = -1 then (offset, wrote) else (-1, wrote)
        else
          let rest := feedLoop n data dataOffset count retryOnEmpty fuel (k + 1)
            (offset + chunkSize)
          (rest.1, wrote ++ rest.2)
    else (offset, [])

def feedLwip (n : Native) (data : Bytes) (dataOffset count : Nat) (retryOnEmpty : Bool) :
    Int × List Obs :=
  feedLoop n data dataOffset count retryOnEmpty count 0 0

namespace State

/-- Best-effort flush of pending data into the lwIP send buffer before close. -/
def flushPendingToLwip (n : Native) (s : State σ) : State σ :=
  if s.pendingWrite.size = 0 then s
  else
    let fed := feedLwip n s.pendingWrite.backingArray 0 s.pendingWrite.size false
    s.emit (fed.2 ++ if fed.1 > 0 then [.output] else [])

def close (n : Native) (s : State σ) : State σ :=
  if s.closed then s
  else releaseProtocol (nativeTcpClose n (flushPendingToLwip n { s with closed := true }))

def tryArmReceive (s : State σ) : State σ :=
  if s.closed || s.receiveInFlight then s
  else if s.pendingWrite.size ≥ drainLowWaterMark then s
  else if !s.directRelay && !s.vlessConnection then s
  else { s with receiveInFlight := true }.launch (.receive false)

def drainPendingWrite (n : Native) (s : State σ) : State σ :=
  if s.closed then s
  else if s.pendingWrite.size > 0 then
    let dataSize := s.pendingWrite.size
    let fed := feedLwip n s.pendingWrite.backingArray 0 dataSize true
    let s := s.emit fed.2
    if fed.1 = -1 then (s.emit [.sndbuf]).abort
    else if fed.1 > 0 then
      let s := { s with
        pendingWrite :=
          if fed.1 ≥ dataSize then s.pendingWrite.reset
          else s.pendingWrite.consume fed.1.toNat }
      tryArmReceive (s.emit [.output])
    else s.post .drainRetry
  else tryArmReceive s

def writeToLwip (n : Native) (data : Bytes) (s : State σ) : State σ :=
  if s.closed || data.isEmpty then s
  else drainPendingWrite n { s with pendingWrite := s.pendingWrite.write data }

/-! ## The receive window -/

end State

/-- The `nativeTcpRecved` calls for a byte count, in chunks of at most 65535. -/
def recvedChunks : Nat → Nat → List Obs
  | 0, _ => []
  | fuel + 1, remaining =>
    if remaining > 0 then
      .recved (min remaining 65535) :: recvedChunks fuel (remaining - min remaining 65535)
    else []

namespace State

def ackBytesToLwip (bytes : Nat) (s : State σ) : State σ :=
  if bytes ≤ 0 then s else s.emit (recvedChunks bytes bytes ++ [.output])

/-- Advances the window over `pendingData`, so that `close` sends a FIN and not
a RST. -/
def rejectGracefully (n : Native) (s : State σ) : State σ :=
  if s.closed then s
  else close n (s.emit (recvedChunks s.pendingData.size s.pendingData.size))

/-! ## Connecting -/

/-- `pendingData.toByteArray()` and `reset()` when there is anything. -/
def takePendingData (s : State σ) : Option Bytes × State σ :=
  if s.pendingData.size > 0 then
    (some s.pendingData.toByteArray, { s with pendingData := s.pendingData.reset })
  else (none, s)

def connectDirect (s : State σ) : State σ :=
  if s.directConnecting || s.directRelay || s.closed then s
  else
    let taken := takePendingData { s with directConnecting := true }
    { taken.2 with directRelay := true }.launch (.dialDirect false taken.1)

/-- `connectProxy`, with `connectChain` when the configuration has a chain. -/
def connectProxy (s : State σ) : State σ :=
  if s.vlessConnecting || s.vlessConnection || s.closed then s
  else
    let s := { s with vlessConnecting := true }
    let taken :=
      if s.configuration.outboundProtocol.handshakeCarriesInitialData then takePendingData s
      else (none, s)
    taken.2.launch (.dialProxy false (s.configuration.chain.getD []).length taken.1)

def beginConnecting (s : State σ) : State σ :=
  if s.closed || s.vlessConnecting || s.directConnecting then s
  else if s.vlessConnection || s.directRelay then s
  else if s.bypass then connectDirect s
  else connectProxy s

/-- `appendPendingData`: `false` when the cap would be exceeded, and then the
connection is aborted. -/
def appendPendingData (data : Bytes) (s : State σ) : Bool × State σ :=
  if s.pendingData.size + data.length > tcpMaxPendingDataSize then (false, s.abort)
  else (true, { s with pendingData := s.pendingData.write data })

/-- `applySNI`: the sniffed name may switch the proxy, flip `bypass`, or reject
the connection. -/
def applySNI (env : Env σ) (n : Native) (sni : String) (s : State σ) : State σ :=
  match env.stack with
  | none => s
  | some stack =>
    match stack.matchDomain sni with
    | none => s
    | some action =>
      let s := { s with dstHost := sni }
      match action with
      | .direct => { s with bypass := true }
      | .reject => rejectGracefully n s
      | .proxy id =>
        let s := match stack.resolveConfiguration id with
          | some resolved =>
            let defaultChain := s.configuration.chain
            { s with
              configuration :=
                if defaultChain.getD [] ≠ [] ∧ resolved.chain.isNone then
                  resolved.withChain defaultChain
                else resolved }
          | none => s
        { s with bypass := stack.shouldBypass sni }

/-! ## The uplink -/

def flushCoalesceBuffer (s : State σ) : State σ :=
  let buf := s.coalesceBuffer
  let s := { s with coalesceBuffer := none, coalesceScheduled := false }
  match buf with
  | none => s
  | some buf =>
    if s.closed || buf.size = 0 then s
    else if !s.directRelay && !s.vlessConnection then s
    else { s with coalesceFlushInFlight := true }.launch (.flush false buf.toByteArray 0)

/-- The route is committed: the sniff phase is over. -/
def commitRoute (s : State σ) : State σ :=
  cancelSniffDeadline { s with sniffer := none }

/-- The first terminal state of the sniffer commits the route. -/
def sniffed (env : Env σ) (n : Native) (s : State σ) : SniffState → State σ
  | .needMore => s
  | .found serverName =>
    let s := applySNI env n serverName (commitRoute s)
    -- the rule may have rejected the connection
    if s.closed then s else beginConnecting s
  | .notTls => beginConnecting (commitRoute s)
  | .unavailable => beginConnecting (commitRoute s)

def handleReceivedData (env : Env σ) (n : Native) (data : Bytes) (s : State σ) : State σ :=
  if s.closed then s
  else
    let s := s.emit [.delivered data]
    let s := { s with activityTimer := s.activityTimer.map .update }
    match s.sniffer with
    | some sniffer =>
      let fed := env.feed sniffer data
      let appended := appendPendingData data { s with sniffer := some fed.2 }
      if !appended.1 then appended.2 else sniffed env n appended.2 fed.1
    | none =>
      if s.vlessConnecting || s.directConnecting then (appendPendingData data s).2
      else if s.directRelay || s.vlessConnection then
        let s := { s with
          coalesceBuffer := some ((s.coalesceBuffer.getD .empty).write data) }
        if !s.coalesceFlushInFlight && !s.coalesceScheduled then
          { s with coalesceScheduled := true }.post .flushCoalesceBuffer
        else s
      else
        let appended := appendPendingData data s
        if !appended.1 then appended.2 else beginConnecting appended.2

def handleSent (n : Native) (s : State σ) : State σ :=
  if s.closed then s else drainPendingWrite n s

/-- `activityTimer?.setTimeout(timeoutMs)`; the timer's `onTimeout` closes the
connection. -/
def setActivityTimeout (n : Native) (timeoutMs : Nat) (s : State σ) : State σ :=
  match s.activityTimer with
  | none => s
  | some t =>
    let set := t.setTimeout timeoutMs
    let s := { s with activityTimer := some set.1 }
    if set.2 then close n s else s

/-- The tail of `handleRemoteClose`. -/
def finishUplink (n : Native) (s : State σ) : State σ :=
  let s := { s with uplinkDone := true }
  if s.downlinkDone then close n s
  else setActivityTimeout n downlinkOnlyTimeoutMs s

def handleRemoteClose (n : Native) (s : State σ) : State σ :=
  if s.closed then s
  else if s.sniffer.isSome then
    -- FIN before the sniff phase ended: nothing to forward, or the IP-based route
    let s := commitRoute s
    if s.pendingData.size = 0 then close n s
    else finishUplink n (beginConnecting s)
  else finishUplink n s

/-- `handleError`: lwIP has already freed the pcb. -/
def handleError (s : State σ) : State σ :=
  if s.closed then s else releaseProtocol { s with closed := true }

end State

/-! ## Jobs -/

namespace State

/-- A timer and the receive loop of a connection that has just been made. -/
def connected (s : State σ) : State σ :=
  { s with
    handshakeTimer := false
    activityTimer := some (ActivityTimer.new connectionIdleTimeoutMs) }

/-- The executor task at the end of `connectDirect`'s coroutine. -/
def directConnected (initialData : Option Bytes) (s : State σ) : State σ :=
  let s := { s with directConnecting := false }
  if s.closed then s
  else
    let taken := takePendingData (connected s)
    let s := taken.2
    let s :=
      if initialData.isSome || taken.1.isSome then
        s.launch (.connectSend false (initialData.toList ++ taken.1.toList)
          (sizeOrZero initialData + sizeOrZero taken.1))
      else s
    tryArmReceive s

/-- The executor task of `onProxyConnected`. -/
def onProxyConnected (handshakeAckBytes : Nat) (s : State σ) : State σ :=
  let s := { s with vlessConnecting := false }
  if s.closed then s
  else
    let taken := takePendingData (connected { s with vlessConnection := true })
    let s := taken.2
    let s := match taken.1 with
      | some followup =>
        s.launch (.connectSend false [followup] (handshakeAckBytes + followup.length))
      | none => if handshakeAckBytes > 0 then ackBytesToLwip handshakeAckBytes s else s
    tryArmReceive s

def receivedTask (n : Native) (r : Outcome) (s : State σ) : State σ :=
  let s := { s with receiveInFlight := false }
  match r with
  | .cancelled => s
  | .threw => if s.closed then s else s.abort
  | .returned data =>
    if (data.getD []).isEmpty then
      if s.closed then s
      else
        let s := { s with downlinkDone := true }
        if s.uplinkDone then close n s
        else setActivityTimeout n uplinkOnlyTimeoutMs s
    else
      let s := s.emit [.upstream (data.getD [])]
      if s.closed then s
      else writeToLwip n (data.getD []) { s with activityTimer := s.activityTimer.map .update }

/-- A job runs; it is no longer among `s.jobs`. -/
def runJob (n : Native) (r : Outcome) (s : State σ) : Job → State σ
  | .flushCoalesceBuffer => flushCoalesceBuffer s
  | .directConnected initialData => directConnected initialData s
  | .proxyConnected handshakeAckBytes => onProxyConnected handshakeAckBytes s
  | .connectFailed direct _ _ =>
    let s := if direct then { s with directConnecting := false }
      else { s with vlessConnecting := false }
    if s.closed then s else s.abort
  | .ack bytes => if s.closed then s else ackBytesToLwip bytes s
  | .abort _ _ => s.abort
  | .flushDone =>
    let s := { s with coalesceFlushInFlight := false }
    if s.closed then s
    else
      match s.coalesceBuffer with
      | some buf => if buf.size > 0 then flushCoalesceBuffer s else s
      | none => s
  | .flushCancelled => { s with coalesceFlushInFlight := false }
  | .flushFailed _ _ => { s with coalesceFlushInFlight := false }.abort
  | .received r => receivedTask n r s
  | .drainRetry => if s.closed then s else drainPendingWrite n s
  | .coroutine c =>
    -- cancelled before it was dispatched: the body never runs
    if s.closed && !c.started then s
    else { s with trace := s.trace ++ (c.resume r).1, jobs := s.jobs ++ (c.resume r).2 }

end State

/-! ## Events -/

inductive Event where
  /-- `tcp_recv_cb` with a pbuf; `memErr` when the copy of a chained pbuf cannot
  be allocated (lwIP keeps the pbuf). -/
  | recv (n : Native) (data : Bytes) (memErr : Bool)
  /-- `tcp_recv_cb` with a null pbuf: FIN. -/
  | fin (n : Native)
  | sent (n : Native)
  | err
  | job (n : Native) (i : Nat) (r : Outcome)
  | handshakeTimeout
  | sniffDeadline
  | activityTick (n : Native)

/-- lwIP error codes the bridge uses. -/
def errOk : Int := 0
def errMem : Int := -1
def errAbrt : Int := -13

namespace State

/-- `onTcpRecv`: data, or FIN when there is none. -/
def onTcpRecv (env : Env σ) (n : Native) (data : Bytes) (s : State σ) : State σ :=
  if data.isEmpty then handleRemoteClose n s else handleReceivedData env n data s

def tcpRecvCb (env : Env σ) (n : Native) (data : Bytes) (memErr : Bool) (s : State σ) : State σ :=
  if memErr then s.emit [.ret errMem]
  else (onTcpRecv env n data s).emit [.ret errOk]

def tcpSentCb (n : Native) (s : State σ) : State σ :=
  (handleSent n s).emit [.ret errOk]

/-- `tcp_err_cb`: lwIP calls it on a pcb it has already freed. -/
def tcpErrCb (s : State σ) : State σ :=
  handleError { s with bound := false, trace := s.trace ++ [.tcpErr] }

def onHandshakeTimeout (s : State σ) : State σ :=
  let s := { s with handshakeTimer := false }
  if !s.closed && s.isEstablishing then s.abort else s

def onSniffDeadline (s : State σ) : State σ :=
  let s := { s with sniffDeadline := false }
  if !s.closed && s.sniffer.isSome then beginConnecting { s with sniffer := none } else s

/-- A tick of the activity timer; `onTimeout` is `if (!closed) close()`. -/
def onActivityTick (n : Native) (s : State σ) : State σ :=
  match s.activityTimer with
  | none => s
  | some t =>
    let ticked := t.tick
    let s := { s with activityTimer := some ticked.1 }
    if ticked.2 then close n s else s

/-- A send of this connection ends in a `CancellationException` only after its
own scope was cancelled. -/
def enabled (s : State σ) : Job → Outcome → Bool
  | .coroutine (.connectSend true _ _), .cancelled => s.closed
  | .coroutine (.flush true _ _), .cancelled => s.closed
  | _, _ => true

end State

/-- One event. lwIP calls back only while the callbacks are bound, and a timer
fires only while it is armed. -/
def step (env : Env σ) (s : State σ) : Event → State σ
  | .recv n data memErr => if s.bound then s.tcpRecvCb env n data memErr else s
  | .fin n => if s.bound then s.tcpRecvCb env n [] false else s
  | .sent n => if s.bound then s.tcpSentCb n else s
  | .err => if s.bound then s.tcpErrCb else s
  | .job n i r =>
    match s.jobs[i]? with
    | none => s
    | some j =>
      if s.enabled j r then { s with jobs := s.jobs.eraseIdx i }.runJob n r j else s
  | .handshakeTimeout => if s.handshakeTimer then s.onHandshakeTimeout else s
  | .sniffDeadline => if s.sniffDeadline then s.onSniffDeadline else s
  | .activityTick n => s.onActivityTick n

structure Params (σ : Type) where
  dstHost : String
  configuration : ProxyConfiguration
  forceBypass : Bool
  /-- A fresh sniffer when `sniffSNI` is set. -/
  sniffer : Option σ

/-- The fields before the `init` block runs. -/
def State.fresh (env : Env σ) (p : Params σ) : State σ where
  closed := false
  bound := true
  directRelay := false
  vlessConnection := false
  directConnecting := false
  vlessConnecting := false
  pendingData := .empty
  coalesceBuffer := none
  coalesceScheduled := false
  coalesceFlushInFlight := false
  pendingWrite := .empty
  receiveInFlight := false
  jobs := []
  trace := []
  dstHost := p.dstHost
  configuration := p.configuration
  bypass := p.forceBypass || (env.stack.map fun st => st.shouldBypass p.dstHost).getD false
  sniffer := p.sniffer
  sniffDeadline := false
  handshakeTimer := true
  activityTimer := none
  uplinkDone := false
  downlinkDone := false

/-- A connection right after its constructor. -/
def init (env : Env σ) (p : Params σ) : State σ :=
  let s := State.fresh env p
  if s.sniffer.isNone then s.beginConnecting else { s with sniffDeadline := true }

def runFrom (env : Env σ) (p : Params σ) (es : List Event) : State σ :=
  Lib.run (step env) (init env p) es

end Anywhere.Tcp
