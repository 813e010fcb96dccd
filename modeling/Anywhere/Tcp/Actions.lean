import Anywhere.Tcp.Connection

/-!
# Anywhere — what one event of a connection can do

`step` is a tree of conditionals over twenty functions. This module says once
what it can do to the byte streams and the pcb: every step is a finite sequence
of the atomic *actions* below (`step_actions`), and every invariant of the
development is proved against the actions, never against `step`.

* `Action` — the atomic actions on `Core`. Its parameter `F` is a condition on
  the jobs that are pending when the coroutine of a flush starts; results that
  hold of every run use `F := fun _ => True`.
-/

namespace Anywhere.Tcp

open Relation List

variable {σ : Type}

/-! ## Reading a trace -/

namespace Obs

def deliveredPart : Obs → Bytes
  | delivered d => d
  | _ => []

def handedPart : Obs → Bytes
  | sendStart d => d
  | _ => []

def upstreamPart : Obs → Bytes
  | upstream d => d
  | _ => []

def acceptedPart : Obs → Bytes
  | write d err => if err = 0 then d else []
  | _ => []

def recvedPart : Obs → Nat
  | recved n => n
  | _ => 0

inductive Kind where
  | delivered | send | upstream | feed | recved | release | ret

def kind : Obs → Kind
  | delivered _ => .delivered
  | sendStart _ | sendEnd => .send
  | upstream _ => .upstream
  | sndbuf | write _ _ | output => .feed
  | recved _ => .recved
  | tcpClose _ | tcpAbort | tcpErr => .release
  | ret _ => .ret

/-- Not a call on the pcb, and not a delivery by lwIP. -/
def quiet (o : Obs) : Prop := o.kind = .send ∨ o.kind = .upstream ∨ o.kind = .ret

end Obs

/-- The bytes lwIP delivered, in order. -/
def deliveredBytes (tr : List Obs) : Bytes := tr.flatMap Obs.deliveredPart

/-- The bytes handed to an upstream send, in call order. -/
def handedBytes (tr : List Obs) : Bytes := tr.flatMap Obs.handedPart

def upstreamBytes (tr : List Obs) : Bytes := tr.flatMap Obs.upstreamPart

/-- The bytes accepted by `nativeTcpWrite`, in call order. -/
def acceptedBytes (tr : List Obs) : Bytes := tr.flatMap Obs.acceptedPart

/-- The sum of the lengths passed to `nativeTcpRecved`. -/
def ackedBytes (tr : List Obs) : Nat := (tr.map Obs.recvedPart).sum

section Append

variable (a b : List Obs)

@[simp] theorem deliveredBytes_append :
    deliveredBytes (a ++ b) = deliveredBytes a ++ deliveredBytes b := by
  simp [deliveredBytes]

@[simp] theorem handedBytes_append : handedBytes (a ++ b) = handedBytes a ++ handedBytes b := by
  simp [handedBytes]

@[simp] theorem upstreamBytes_append :
    upstreamBytes (a ++ b) = upstreamBytes a ++ upstreamBytes b := by
  simp [upstreamBytes]

@[simp] theorem acceptedBytes_append :
    acceptedBytes (a ++ b) = acceptedBytes a ++ acceptedBytes b := by
  simp [acceptedBytes]

@[simp] theorem ackedBytes_append : ackedBytes (a ++ b) = ackedBytes a + ackedBytes b := by
  simp [ackedBytes]

end Append

section Kinds

variable {l : List Obs}

theorem deliveredBytes_eq_nil (h : ∀ o ∈ l, o.kind ≠ .delivered) : deliveredBytes l = [] := by
  refine flatMap_eq_nil_iff.mpr fun o ho => ?_
  cases o <;> first | rfl | exact absurd rfl (h _ ho)

theorem handedBytes_eq_nil (h : ∀ o ∈ l, o.kind ≠ .send) : handedBytes l = [] := by
  refine flatMap_eq_nil_iff.mpr fun o ho => ?_
  cases o <;> first | rfl | exact absurd rfl (h _ ho)

theorem upstreamBytes_eq_nil (h : ∀ o ∈ l, o.kind ≠ .upstream) : upstreamBytes l = [] := by
  refine flatMap_eq_nil_iff.mpr fun o ho => ?_
  cases o <;> first | rfl | exact absurd rfl (h _ ho)

theorem acceptedBytes_eq_nil (h : ∀ o ∈ l, o.kind ≠ .feed) : acceptedBytes l = [] := by
  refine flatMap_eq_nil_iff.mpr fun o ho => ?_
  cases o <;> first | rfl | exact absurd rfl (h _ ho)

theorem ackedBytes_eq_zero (h : ∀ o ∈ l, o.kind ≠ .recved) : ackedBytes l = 0 := by
  refine sum_eq_zero fun k hk => ?_
  obtain ⟨o, ho, rfl⟩ := mem_map.mp hk
  cases o <;> first | rfl | exact absurd rfl (h _ ho)

end Kinds

/-! ## Actions -/

namespace Core

/-- The route is not committed: nothing was dialed. -/
def idle (c : Core) : Prop :=
  c.directRelay = false ∧ c.vlessConnection = false ∧
    c.directConnecting = false ∧ c.vlessConnecting = false

/-- The remote side is connected. -/
def live (c : Core) : Bool :=
  (c.directRelay || c.vlessConnection) && !c.directConnecting && !c.vlessConnecting

end Core

/-- How a pcb is released: `tcp_close`, its `tcp_abort` fallback, `tcp_abort`,
or by lwIP itself. -/
inductive Release : List Obs → Prop
  | close : Release [.tcpClose 0]
  | closeFailed (err : Int) (h : err ≠ 0) : Release [.tcpClose err, .tcpAbort]
  | abort : Release [.tcpAbort]
  | error : Release [.tcpErr]

theorem Release.kind {l : List Obs} (h : Release l) : ∀ o ∈ l, o.kind = .release := by
  cases h <;> simp [Obs.kind]

/-- What is done in the step that closes a connection: a last delivery or
acknowledgement, a last feed of `pendingWrite`, and the release of the pcb. -/
structure Shutdown (c : Core) (l : List Obs) : Prop where
  split : ∃ front feed rel, l = front ++ feed ++ rel ∧
    (∀ o ∈ front, o.kind = .delivered ∨ o.kind = .recved) ∧
    ackedBytes front ≤ c.pendingData.toByteArray.length ∧
    (∀ o ∈ feed, o.kind = .feed) ∧
    acceptedBytes feed <+: c.pendingWrite.toByteArray ∧
    Release rel

/-- The native calls of `ackBytesToLwip`. -/
def ackObs (bytes : Nat) : List Obs :=
  if bytes ≤ 0 then [] else recvedChunks bytes bytes ++ [Obs.output]

def Coroutine.startsFlush : Coroutine → Bool
  | .flush false _ _ => true
  | _ => false

/-- A send that ends in a `CancellationException`. -/
def Coroutine.sendCancelled : Coroutine → Outcome → Bool
  | .connectSend true _ _, .cancelled => true
  | .flush true _ _, .cancelled => true
  | _, _ => false

inductive Action (F : List Job → Prop) : Core → Core → Prop
  -- any pending job may be the next one
  | pick {c : Core} {l : List Job} (h : c.jobs.Perm l) : Action F c { c with jobs := l }
  | afterClosed {c c' : Core} (hc : c.closed = true) (hc' : c'.closed = true)
      (hb : c'.bound = c.bound) (l : List Obs) (htr : c'.trace = c.trace ++ l)
      (hl : ∀ o ∈ l, o.quiet) : Action F c c'
  | shut {c c' : Core} (ho : c.closed = false) (hc' : c'.closed = true) (hb : c'.bound = false)
      (l : List Obs) (htr : c'.trace = c.trace ++ l) (hl : Shutdown c l) : Action F c c'
  | ret {c : Core} (ho : c.closed = false) (err : Int) :
      Action F c { c with trace := c.trace ++ [.ret err] }
  -- uplink: lwIP delivers
  | deliverPending {c : Core} (ho : c.closed = false) (hl : c.live = false) (data : Bytes) :
      Action F c { c with
        pendingData := c.pendingData.write data, trace := c.trace ++ [.delivered data] }
  | deliverCoalesce {c : Core} (ho : c.closed = false) (hl : c.live = true) (data : Bytes) :
      Action F c { c with
        coalesceBuffer := some ((c.coalesceBuffer.getD .empty).write data)
        trace := c.trace ++ [.delivered data] }
  | schedule {c : Core} (ho : c.closed = false) (hl : c.live = true)
      (hf : c.coalesceFlushInFlight = false) (hs : c.coalesceScheduled = false) :
      Action F c { c with
        coalesceScheduled := true, jobs := c.jobs ++ [.flushCoalesceBuffer] }
  -- uplink: connecting
  | dialDirect {c : Core} (ho : c.closed = false) (hi : c.idle) (initialData : Option Bytes)
      (rest : ByteArrayOutputStream)
      (hd : initialData.getD [] ++ rest.toByteArray = c.pendingData.toByteArray) :
      Action F c { c with
        directConnecting := true, directRelay := true, pendingData := rest
        jobs := c.jobs ++ [.coroutine (.dialDirect false initialData)] }
  | dialProxy {c : Core} (ho : c.closed = false) (hi : c.idle) (hops : Nat)
      (initialData : Option Bytes) (rest : ByteArrayOutputStream)
      (hd : initialData.getD [] ++ rest.toByteArray = c.pendingData.toByteArray) :
      Action F c { c with
        vlessConnecting := true, pendingData := rest
        jobs := c.jobs ++ [.coroutine (.dialProxy false hops initialData)] }
  | directConnected {c : Core} (ho : c.closed = false) {initialData : Option Bytes}
      {l : List Job} (hj : c.jobs = .directConnected initialData :: l)
      (rest : ByteArrayOutputStream) (hrest : rest.toByteArray = []) (new : List Job)
      (hnew : (∃ todo : List Bytes,
            new = [.coroutine (.connectSend false todo todo.flatten.length)] ∧
            initialData.getD [] ++ c.pendingData.toByteArray = todo.flatten) ∨
          (new = [] ∧ initialData = none ∧ c.pendingData.toByteArray = [])) :
      Action F c { c with directConnecting := false, pendingData := rest, jobs := l ++ new }
  | proxyConnected {c : Core} (ho : c.closed = false) {ackBytes : Nat} {l : List Job}
      (hj : c.jobs = .proxyConnected ackBytes :: l) (rest : ByteArrayOutputStream)
      (hrest : rest.toByteArray = []) (new : List Job) (tr : List Obs)
      (hnew : (new = [.coroutine (.connectSend false [c.pendingData.toByteArray]
              (ackBytes + c.pendingData.toByteArray.length))] ∧ tr = []) ∨
          (new = [] ∧ tr = ackObs ackBytes ∧ c.pendingData.toByteArray = [])) :
      Action F c { c with
        vlessConnecting := false, vlessConnection := true, pendingData := rest
        jobs := l ++ new, trace := c.trace ++ tr }
  -- uplink: flushing
  | flushTask {c : Core} (ho : c.closed = false) {l : List Job}
      (hj : c.jobs = .flushCoalesceBuffer :: l) {buf : ByteArrayOutputStream}
      (hb : c.coalesceBuffer = some buf) (hne : buf.toByteArray ≠ []) :
      Action F c { c with
        coalesceBuffer := none, coalesceScheduled := false, coalesceFlushInFlight := true
        jobs := l ++ [.coroutine (.flush false buf.toByteArray 0)] }
  | flushTaskIdle {c : Core} (ho : c.closed = false) {l : List Job}
      (hj : c.jobs = .flushCoalesceBuffer :: l)
      (hb : (c.coalesceBuffer.getD .empty).toByteArray = [] ∨
        c.directRelay = false ∧ c.vlessConnection = false) :
      Action F c { c with coalesceBuffer := none, coalesceScheduled := false, jobs := l }
  | flushDone {c : Core} (ho : c.closed = false) {l : List Job} (hj : c.jobs = .flushDone :: l)
      (hb : (c.coalesceBuffer.getD .empty).toByteArray = []) :
      Action F c { c with coalesceFlushInFlight := false, jobs := l }
  | flushAgain {c : Core} (ho : c.closed = false) {l : List Job} (hj : c.jobs = .flushDone :: l)
      {buf : ByteArrayOutputStream} (hb : c.coalesceBuffer = some buf)
      (hne : buf.toByteArray ≠ []) :
      Action F c { c with
        coalesceBuffer := none, coalesceScheduled := false, coalesceFlushInFlight := true
        jobs := l ++ [.coroutine (.flush false buf.toByteArray 0)] }
  | flushLost {c : Core} (ho : c.closed = false) {l : List Job} (hj : c.jobs = .flushDone :: l)
      (hb : c.directRelay = false ∧ c.vlessConnection = false) :
      Action F c { c with
        coalesceBuffer := none, coalesceScheduled := false, coalesceFlushInFlight := false
        jobs := l }
  | flushCancelled {c : Core} (ho : c.closed = false) {l : List Job}
      (hj : c.jobs = .flushCancelled :: l) :
      Action F c { c with coalesceFlushInFlight := false, jobs := l }
  -- coroutines and acknowledgements
  | coroutine {c : Core} (ho : c.closed = false) {co : Coroutine} {l : List Job}
      (hj : c.jobs = .coroutine co :: l) (r : Outcome) (hr : co.sendCancelled r = false)
      (hF : co.startsFlush = true → F l) :
      Action F c { c with jobs := l ++ (co.resume r).2, trace := c.trace ++ (co.resume r).1 }
  | ack {c : Core} (ho : c.closed = false) {bytes : Nat} {l : List Job}
      (hj : c.jobs = .ack bytes :: l) :
      Action F c { c with jobs := l, trace := c.trace ++ ackObs bytes }
  -- downlink
  | received {c : Core} (ho : c.closed = false) {r : Outcome} {l : List Job}
      (hj : c.jobs = .received r :: l) :
      Action F c { c with jobs := l, receiveInFlight := false }
  | drainRetry {c : Core} (ho : c.closed = false) {l : List Job} (hj : c.jobs = .drainRetry :: l) :
      Action F c { c with jobs := l }
  | armReceive {c : Core} (ho : c.closed = false) :
      Action F c { c with
        receiveInFlight := true, jobs := c.jobs ++ [.coroutine (.receive false)] }
  | postRetry {c : Core} (ho : c.closed = false) :
      Action F c { c with jobs := c.jobs ++ [.drainRetry] }
  | upstream {c : Core} (ho : c.closed = false) (data : Bytes) :
      Action F c { c with
        pendingWrite := c.pendingWrite.write data, trace := c.trace ++ [.upstream data] }
  | feed {c : Core} (ho : c.closed = false) (l : List Obs) (rest : ByteArrayOutputStream)
      (hl : ∀ o ∈ l, o.kind = .feed)
      (hw : acceptedBytes l ++ rest.toByteArray = c.pendingWrite.toByteArray) :
      Action F c { c with pendingWrite := rest, trace := c.trace ++ l }

abbrev Actions (F : List Job → Prop) : Core → Core → Prop := ReflTransGen (Action F)

/-! ## The two loops -/

/-- `ackBytesToLwip` and `rejectGracefully` pass on exactly the bytes they are
asked to acknowledge. -/
theorem ackedBytes_recvedChunks {fuel remaining : Nat} (h : remaining ≤ fuel) :
    ackedBytes (recvedChunks fuel remaining) = remaining := by
  induction fuel generalizing remaining with
  | zero => simp [recvedChunks, ackedBytes]; omega
  | succ fuel ih =>
    unfold recvedChunks
    split
    · have hrest := @ih (remaining - min remaining 65535) (by omega)
      simp only [ackedBytes, map_cons, sum_cons, Obs.recvedPart] at hrest ⊢
      omega
    · simp only [ackedBytes, map_nil, sum_nil]
      omega

theorem recved_of_mem_recvedChunks {fuel remaining : Nat} {o : Obs}
    (h : o ∈ recvedChunks fuel remaining) : o.kind = .recved := by
  induction fuel generalizing remaining with
  | zero => simp [recvedChunks] at h
  | succ fuel ih =>
    unfold recvedChunks at h
    split at h
    · rcases mem_cons.mp h with rfl | h
      · rfl
      · exact ih h
    · simp at h

@[simp] theorem ackedBytes_ackObs (bytes : Nat) : ackedBytes (ackObs bytes) = bytes := by
  unfold ackObs
  split
  · simp only [ackedBytes, map_nil, sum_nil]
    omega
  · rw [ackedBytes_append, ackedBytes_recvedChunks le_rfl]
    simp [ackedBytes, Obs.recvedPart]

theorem ackObs_kind (bytes : Nat) : ∀ o ∈ ackObs bytes, o.kind = .recved ∨ o = .output := by
  intro o ho
  unfold ackObs at ho
  split at ho
  · simp at ho
  · rcases mem_append.mp ho with ho | ho
    · exact .inl (recved_of_mem_recvedChunks ho)
    · exact .inr (by simpa using ho)

theorem askSndbuf_spec (n : Native) (k : Nat) (retry : Bool) :
    (∀ o ∈ (askSndbuf n k retry).2, o.kind = .feed) ∧
      acceptedBytes (askSndbuf n k retry).2 = [] := by
  unfold askSndbuf
  split <;> simp [Obs.kind, acceptedBytes, Obs.acceptedPart]

/-- What `feedLwip` has placed when its loop ends: a run of consecutive bytes
from where it started, of the length it returns when it does not fail. -/
theorem feedLoop_spec (n : Native) (data : Bytes) (dataOffset count : Nat) (retry : Bool)
    (fuel k offset : Nat) (hoff : offset ≤ count) :
    ∃ placed, offset + placed ≤ count ∧
      acceptedBytes (feedLoop n data dataOffset count retry fuel k offset).2 =
        (data.drop (dataOffset + offset)).take placed ∧
      ((feedLoop n data dataOffset count retry fuel k offset).1 ≠ -1 →
        (feedLoop n data dataOffset count retry fuel k offset).1 =
        ((offset + placed : Nat) : Int)) ∧
      ∀ o ∈ (feedLoop n data dataOffset count retry fuel k offset).2, o.kind = .feed := by
  induction fuel generalizing k offset with
  | zero => exact ⟨0, by simpa using hoff, by simp [feedLoop, acceptedBytes], by simp [feedLoop]⟩
  | succ fuel ih =>
    obtain ⟨hfeeds, hacc⟩ := askSndbuf_spec n k retry
    unfold feedLoop
    simp only
    split
    · rename_i hlt
      split
      · exact ⟨0, by simpa using hoff, by simp [hacc], by simp, hfeeds⟩
      · rename_i hpos
        split
        · rename_i herr
          have hw : acceptedBytes ((askSndbuf n k retry).2 ++ [Obs.write
              ((data.drop (dataOffset + offset)).take (min (askSndbuf n k retry).1.toNat
                (min (count - offset) tcpMaxWriteSize))) (n.write k)]) = [] := by
            rw [acceptedBytes_append, hacc]
            simp [acceptedBytes, Obs.acceptedPart, herr]
          split
          · refine ⟨0, by simpa using hoff, by simpa using hw, by simp, ?_⟩
            simpa [or_imp, forall_and, Obs.kind] using hfeeds
          · refine ⟨0, by simpa using hoff, by simpa using hw, by simp, ?_⟩
            simpa [or_imp, forall_and, Obs.kind] using hfeeds
        · rename_i herr
          generalize hchunk : min (askSndbuf n k retry).1.toNat
            (min (count - offset) tcpMaxWriteSize) = chunk
          obtain ⟨placed, hle, hbytes, hret, hall⟩ := ih (k + 1) (offset + chunk) (by omega)
          refine ⟨chunk + placed, by omega, ?_, ?_, ?_⟩
          · rw [acceptedBytes_append, acceptedBytes_append, hacc, hbytes]
            simp only [acceptedBytes, Obs.acceptedPart, flatMap_cons, flatMap_nil,
              nil_append, append_nil, not_not.mp herr, if_true]
            have hdrop : data.drop (dataOffset + (offset + chunk)) =
                (data.drop (dataOffset + offset)).drop chunk := by
              rw [drop_drop, Nat.add_assoc]
            rw [hdrop, ← take_add]
          · intro hne
            rw [hret hne]
            push_cast
            omega
          · simpa [or_imp, forall_and, Obs.kind] using ⟨hfeeds, hall⟩
    · exact ⟨0, by simpa using hoff, by simp [acceptedBytes], by simp, by simp⟩

/-- `feedLwip` from the start of a buffer: it places a prefix of what the buffer
holds, and says how long. -/
theorem feedLwip_spec (n : Native) (b : ByteArrayOutputStream) (retry : Bool) :
    ∃ placed ≤ b.toByteArray.length,
      acceptedBytes (feedLwip n b.backingArray 0 b.size retry).2 = b.toByteArray.take placed ∧
      ((feedLwip n b.backingArray 0 b.size retry).1 ≠ -1 →
        (feedLwip n b.backingArray 0 b.size retry).1 = (placed : Int)) ∧
      ∀ o ∈ (feedLwip n b.backingArray 0 b.size retry).2, o.kind = .feed := by
  obtain ⟨placed, hle, hbytes, hret, hall⟩ :=
    feedLoop_spec n b.backingArray 0 b.size retry b.size 0 0 (Nat.zero_le _)
  simp only [Nat.zero_add, ByteArrayOutputStream.size_eq] at hle
  refine ⟨placed, hle, ?_, by simpa [feedLwip] using hret, hall⟩
  calc acceptedBytes (feedLwip n b.backingArray 0 b.size retry).2
      = b.backingArray.take placed := by simpa [feedLwip] using hbytes
    _ = (b.backingArray.take b.toByteArray.length).take placed := by
        rw [take_take, min_eq_left hle]
    _ = b.toByteArray.take placed := by rw [b.take_backingArray]

/-! ## Closing -/

variable {c : Core} {s : State σ}

section Sim

variable {F : List Job → Prop}

/-- `abort` after native calls `l` of the same step. -/
theorem shut_abort (front feed : List Obs) (ho : c.closed = false)
    (hs : s.closed = false) (htr : s.trace = c.trace ++ (front ++ feed))
    (hfront : ∀ o ∈ front, o.kind = .delivered ∨ o.kind = .recved)
    (hack : ackedBytes front ≤ c.pendingData.toByteArray.length)
    (hfeed : ∀ o ∈ feed, o.kind = .feed)
    (hacc : acceptedBytes feed <+: c.pendingWrite.toByteArray) :
    Actions F c s.abort.toCore := by
  have habort : s.abort = State.releaseProtocol
      (State.nativeTcpAbort { s with closed := true }) := by
    simp [State.abort, hs]
  rw [habort]
  refine .single (.shut ho rfl rfl (front ++ feed ++ [Obs.tcpAbort]) ?_
    ⟨front, feed, [Obs.tcpAbort], rfl, hfront, hack, hfeed, hacc, .abort⟩)
  simp [State.releaseProtocol, State.nativeTcpAbort, htr]

theorem abort_actions (s : State σ) (hcore : c = s.toCore) :
    Actions F c s.abort.toCore := by
  subst hcore
  cases hc : s.closed with
  | true => simp only [State.abort, hc, if_true]; exact .refl
  | false =>
    exact shut_abort [] [] hc hc (by simp) (by simp) (by simp [ackedBytes]) (by simp)
      (by simp [acceptedBytes])

/-- The native calls of `flushPendingToLwip`. -/
def flushObs (n : Native) (b : ByteArrayOutputStream) : List Obs :=
  if b.size = 0 then []
  else (feedLwip n b.backingArray 0 b.size false).2 ++
    if (feedLwip n b.backingArray 0 b.size false).1 > 0 then [Obs.output] else []

theorem flushObs_spec (n : Native) (b : ByteArrayOutputStream) :
    (∀ o ∈ flushObs n b, o.kind = .feed) ∧ acceptedBytes (flushObs n b) <+: b.toByteArray := by
  obtain ⟨placed, -, hbytes, -, hall⟩ := feedLwip_spec n b false
  unfold flushObs
  split
  · simp [acceptedBytes]
  · refine ⟨?_, ?_⟩
    · intro o ho
      rcases mem_append.mp ho with ho | ho
      · exact hall o ho
      · split at ho <;> simp_all [Obs.kind]
    · rw [acceptedBytes_append, hbytes]
      have hout : acceptedBytes (if (feedLwip n b.backingArray 0 b.size false).1 > 0 then
          [Obs.output] else []) = [] := by
        split <;> simp [acceptedBytes, Obs.acceptedPart]
      rw [hout, append_nil]
      exact take_prefix _ _

/-- The release at the end of `lwip_bridge_tcp_close`. -/
def closeObs (n : Native) : List Obs :=
  [Obs.tcpClose n.tcpClose] ++ if n.tcpClose ≠ 0 then [Obs.tcpAbort] else []

theorem release_closeObs (n : Native) : Release (closeObs n) := by
  unfold closeObs
  split
  · rename_i h
    exact .closeFailed _ h
  · rename_i h
    rw [not_not.mp h]
    exact .close

/-- What `close` does to the core, on an open connection. -/
theorem close_open (n : Native) (hs : s.closed = false) :
    (s.close n).closed = true ∧ (s.close n).bound = false ∧
      (s.close n).trace = s.trace ++ (flushObs n s.pendingWrite ++ closeObs n) := by
  simp only [State.close, hs, Bool.false_eq_true, if_false, State.releaseProtocol,
    State.nativeTcpClose, State.flushPendingToLwip, flushObs, closeObs]
  split <;> simp [State.emit]

/-- `close` after native calls of the same step. -/
theorem shut_close (n : Native) (front : List Obs)
    (ho : c.closed = false) (hs : s.closed = false) (htr : s.trace = c.trace ++ front)
    (hw : s.pendingWrite = c.pendingWrite)
    (hfront : ∀ o ∈ front, o.kind = .delivered ∨ o.kind = .recved)
    (hack : ackedBytes front ≤ c.pendingData.toByteArray.length) :
    Actions F c (s.close n).toCore := by
  obtain ⟨hc, hb, htrace⟩ := close_open n hs
  obtain ⟨hfeed, hacc⟩ := flushObs_spec n s.pendingWrite
  refine .single (.shut ho hc hb (front ++ flushObs n s.pendingWrite ++ closeObs n) ?_
    ⟨front, _, _, rfl, hfront, hack, hfeed, hw ▸ hacc, release_closeObs n⟩)
  rw [htrace, htr]
  simp

theorem close_actions (n : Native) (s : State σ) (hcore : c = s.toCore) :
    Actions F c (s.close n).toCore := by
  subst hcore
  cases hc : s.closed with
  | true => simp only [State.close, hc, if_true]; exact .refl
  | false =>
    exact shut_close n [] hc hc (by simp) rfl (by simp) (by simp [ackedBytes])

/-! ## The downlink -/

theorem tryArmReceive_actions (s : State σ) (hc : c = s.toCore) :
    Actions F c s.tryArmReceive.toCore := by
  subst hc
  unfold State.tryArmReceive
  split
  · exact .refl
  · rename_i h
    split
    · exact .refl
    · split
      · exact .refl
      · have ho : s.closed = false := by simp_all
        exact .single (.armReceive ho)

theorem drainPendingWrite_actions (n : Native) (s : State σ) (hcore : c = s.toCore) :
    Actions F c (s.drainPendingWrite n).toCore := by
  subst hcore
  unfold State.drainPendingWrite
  split
  · exact .refl
  · rename_i hopen
    have ho : s.closed = false := by simpa using hopen
    dsimp only
    split
    · obtain ⟨placed, hle, hbytes, hret, hall⟩ := feedLwip_spec n s.pendingWrite true
      generalize feedLwip n s.pendingWrite.backingArray 0 s.pendingWrite.size true = fed at *
      have hpre : acceptedBytes fed.2 <+: s.pendingWrite.toByteArray := by
        rw [hbytes]
        exact take_prefix _ _
      split
      · -- a fatal `tcp_write`: the send buffer is asked for the log, then abort
        refine shut_abort [] (fed.2 ++ [Obs.sndbuf]) ho ho
          (by simp [State.emit]) (by simp) (by simp [ackedBytes]) ?_ ?_
        · simpa [or_imp, forall_and, Obs.kind] using hall
        · rw [acceptedBytes_append]
          simpa [acceptedBytes, Obs.acceptedPart] using hpre
      · rename_i hok
        have hplaced := hret hok
        split
        · rename_i hpos
          refine .head (.feed ho (fed.2 ++ [Obs.output]) (if fed.1 ≥ s.pendingWrite.size then
            s.pendingWrite.reset else s.pendingWrite.consume fed.1.toNat) ?_ ?_) ?_
          · simpa [or_imp, forall_and, Obs.kind] using hall
          · rw [acceptedBytes_append, hbytes, hplaced]
            simp only [acceptedBytes, Obs.acceptedPart, flatMap_cons, flatMap_nil,
              append_nil, Int.toNat_natCast, ByteArrayOutputStream.size_eq]
            split
            · rw [take_of_length_le (by omega)]
              simp
            · simp
          · exact tryArmReceive_actions _ (by simp [State.emit])
        · rename_i hpos
          -- nothing was placed: the remainder stays, a retry is posted
          have hzero : placed = 0 := by omega
          refine .head (.feed ho fed.2 s.pendingWrite hall ?_) (.single (.postRetry ho))
          rw [hbytes, hzero]
          simp
    · exact tryArmReceive_actions s rfl

theorem setActivityTimeout_actions (n : Native) (timeoutMs : Nat) (s : State σ)
    (hc : c = s.toCore) : Actions F c (s.setActivityTimeout n timeoutMs).toCore := by
  subst hc
  unfold State.setActivityTimeout
  split
  · exact .refl
  · dsimp only
    split
    · exact close_actions n _ rfl
    · exact .refl

/-! ## Connecting -/

/-- Taking `pendingData` out changes nothing else, and loses nothing. -/
theorem takePendingData_spec (s : State σ) :
    ∃ rest : ByteArrayOutputStream, s.takePendingData.2 = { s with pendingData := rest } ∧
      rest.toByteArray = [] ∧ s.takePendingData.1.getD [] = s.pendingData.toByteArray := by
  unfold State.takePendingData
  split
  · exact ⟨s.pendingData.reset, rfl, by simp, by simp⟩
  · rename_i hzero
    have hempty : s.pendingData.toByteArray = [] := by simpa using hzero
    exact ⟨s.pendingData, rfl, hempty, by simp [hempty]⟩

theorem beginConnecting_actions (s : State σ) (hc : c = s.toCore) :
    Actions F c s.beginConnecting.toCore := by
  subst hc
  unfold State.beginConnecting
  split
  · exact .refl
  · rename_i h1
    simp only [Bool.or_eq_true, not_or, Bool.not_eq_true] at h1
    split
    · exact .refl
    · rename_i h2
      simp only [Bool.or_eq_true, not_or, Bool.not_eq_true] at h2
      have hidle : s.idle := ⟨h2.2, h2.1, h1.2, h1.1.2⟩
      split
      · unfold State.connectDirect
        rw [if_neg (by simp [h1.2, h2.2, h1.1.1])]
        obtain ⟨rest, htaken, hrest, hbytes⟩ :=
          takePendingData_spec { s with directConnecting := true }
        dsimp only
        rw [htaken]
        exact .single (.dialDirect h1.1.1 hidle _ rest (by rw [hrest, hbytes, append_nil]))
      · unfold State.connectProxy
        rw [if_neg (by simp [h1.1.2, h2.1, h1.1.1])]
        dsimp only
        split
        · obtain ⟨rest, htaken, hrest, hbytes⟩ :=
            takePendingData_spec { s with vlessConnecting := true }
          rw [htaken]
          exact .single (.dialProxy h1.1.1 hidle _ _ rest
            (by rw [hrest, hbytes, append_nil]))
        · exact .single (.dialProxy h1.1.1 hidle _ none s.pendingData (by simp))

theorem ackBytesToLwip_eq (bytes : Nat) (s : State σ) :
    s.ackBytesToLwip bytes = s.emit (ackObs bytes) := by
  unfold State.ackBytesToLwip ackObs
  split <;> simp [State.emit]

theorem directConnected_actions (ho : s.closed = false)
    (initialData : Option Bytes) :
    Actions F { s.toCore with jobs := .directConnected initialData :: s.jobs }
      (s.directConnected initialData).toCore := by
  unfold State.directConnected
  dsimp only
  rw [if_neg (by simp [ho])]
  obtain ⟨rest, htaken, hrest, hbytes⟩ :=
    takePendingData_spec (State.connected { s with directConnecting := false })
  have hbytes' : _ = s.pendingData.toByteArray := hbytes
  rw [htaken]
  generalize (State.takePendingData (State.connected { s with directConnecting := false })).1 =
    followup at *
  refine .head (.directConnected (by exact ho) rfl rest hrest
    (if initialData.isSome || followup.isSome then
      [.coroutine (.connectSend false (initialData.toList ++ followup.toList)
        (sizeOrZero initialData + sizeOrZero followup))] else []) ?_) ?_
  · dsimp only
    rw [← hbytes']
    cases initialData with
    | none =>
      cases followup with
      | none => exact .inr ⟨by simp, rfl, rfl⟩
      | some f => exact .inl ⟨[f], by simp [sizeOrZero], by simp⟩
    | some d =>
      refine .inl ⟨[d] ++ followup.toList, ?_, ?_⟩
      · cases followup <;> simp [sizeOrZero]
      · cases followup <;> simp
  · refine tryArmReceive_actions _ ?_
    split <;> simp [State.launch, State.post, State.connected]

theorem onProxyConnected_actions (ho : s.closed = false) (ackBytes : Nat) :
    Actions F { s.toCore with jobs := .proxyConnected ackBytes :: s.jobs }
      (s.onProxyConnected ackBytes).toCore := by
  unfold State.onProxyConnected
  dsimp only
  rw [if_neg (by simp [ho])]
  obtain ⟨rest, htaken, hrest, hbytes⟩ := takePendingData_spec
    (State.connected { s with vlessConnecting := false, vlessConnection := true })
  have hbytes' : _ = s.pendingData.toByteArray := hbytes
  rw [htaken]
  generalize (State.takePendingData
    (State.connected { s with vlessConnecting := false, vlessConnection := true })).1 =
      followup at *
  cases followup with
  | none =>
    refine .head (.proxyConnected (by exact ho) rfl rest hrest [] (ackObs ackBytes)
      (.inr ⟨rfl, rfl, hbytes'.symm⟩)) (tryArmReceive_actions _ ?_)
    dsimp only
    split
    · simp [ackBytesToLwip_eq, State.emit, State.connected]
    · rename_i h
      simp [ackObs, show ackBytes = 0 by omega, State.connected]
  | some f =>
    have hf : f = s.pendingData.toByteArray := hbytes'
    subst hf
    refine .head (.proxyConnected (by exact ho) rfl rest hrest _ [] (.inl ⟨rfl, rfl⟩))
      (tryArmReceive_actions _ ?_)
    simp [State.launch, State.post, State.connected]

/-! ## Jobs -/

theorem flushTask_actions (ho : s.closed = false) :
    Actions F { s.toCore with jobs := .flushCoalesceBuffer :: s.jobs }
      s.flushCoalesceBuffer.toCore := by
  unfold State.flushCoalesceBuffer
  dsimp only
  split
  · rename_i hb
    exact .single (.flushTaskIdle (by exact ho) rfl (.inl (by simp [hb])))
  · rename_i buf hb
    split
    · rename_i h
      exact .single (.flushTaskIdle (by exact ho) rfl (.inl (by simpa [ho, hb] using h)))
    · rename_i h
      split
      · rename_i h'
        exact .single (.flushTaskIdle (by exact ho) rfl (.inr (by simpa using h')))
      · exact .single (.flushTask (by exact ho) rfl hb (by simpa [ho] using h))

theorem flushDone_actions (n : Native) (r : Outcome) (ho : s.closed = false) :
    Actions F { s.toCore with jobs := .flushDone :: s.jobs } (s.runJob n r .flushDone).toCore := by
  simp only [State.runJob]
  rw [if_neg (by simp [ho])]
  split
  · rename_i buf hb
    split
    · rename_i hpos
      have hne : buf.toByteArray ≠ [] := by
        intro h
        simp [h] at hpos
      simp only [State.flushCoalesceBuffer, hb]
      rw [if_neg (by simp [ho, hne])]
      split
      · rename_i h'
        exact .single (.flushLost (by exact ho) rfl (by simpa using h'))
      · exact .single (.flushAgain (by exact ho) rfl rfl hne)
    · rename_i hzero
      exact .single (.flushDone (by exact ho) rfl (by simpa [hb] using hzero))
  · rename_i hb
    exact .single (.flushDone (by exact ho) rfl (by simp [hb]))

theorem receivedTask_actions (n : Native) (ho : s.closed = false) (r : Outcome) :
    Actions F { s.toCore with jobs := .received r :: s.jobs } (s.receivedTask n r).toCore := by
  refine .head (.received (by exact ho) rfl) ?_
  unfold State.receivedTask
  dsimp only
  cases r with
  | cancelled => exact .refl
  | threw =>
    dsimp only
    rw [if_neg (by simp [ho])]
    exact abort_actions _ rfl
  | returned data =>
    dsimp only
    split
    · rw [if_neg (by simp [ho])]
      split
      · exact close_actions n _ rfl
      · exact setActivityTimeout_actions n _ _ rfl
    · rename_i hne
      rw [if_neg (by simp [ho, State.emit])]
      unfold State.writeToLwip
      rw [if_neg (by simp [ho, State.emit]; simpa using hne)]
      exact .head (.upstream (by exact ho) (data.getD [])) (drainPendingWrite_actions n _ rfl)

theorem resume_kind (co : Coroutine) (r : Outcome) : ∀ o ∈ (co.resume r).1, o.kind = .send := by
  have hsend : ∀ todo k, ∀ o ∈ (connectSendFrom todo k).1, o.kind = .send := by
    intro todo k
    cases todo <;> simp [connectSendFrom, Obs.kind]
  have hflush : ∀ d k, ∀ o ∈ (flushFrom d k).1, o.kind = .send := by
    intro d k
    unfold flushFrom
    split <;> simp [Obs.kind]
  have hhop : ∀ k d, ∀ o ∈ finalHop k d, o.kind = .send := by
    intro k d
    unfold finalHop
    split <;> simp [Obs.kind]
  cases co with
  | dialDirect calling d => cases calling <;> cases r <;> simp [Coroutine.resume]
  | dialProxy calling hops d =>
    cases calling with
    | false => exact hhop _ _
    | true =>
      cases hops with
      | zero => cases r <;> cases d <;> simp [Coroutine.resume, Obs.kind]
      | succ hops =>
        cases r with
        | returned _ => exact hhop _ _
        | threw | cancelled => simp [Coroutine.resume]
  | dialAbandoned d k => simp [Coroutine.resume]
  | connectSend calling todo k =>
    cases calling with
    | false => exact hsend _ _
    | true =>
      cases r with
      | returned _ => simpa [Coroutine.resume, Obs.kind] using hsend todo.tail k
      | threw | cancelled => simp [Coroutine.resume, Obs.kind]
  | flush calling d k =>
    cases calling with
    | false => exact hflush _ _
    | true =>
      cases r with
      | returned _ => simpa [Coroutine.resume, Obs.kind] using hflush _ _
      | threw | cancelled => simp [Coroutine.resume, Obs.kind]
  | receive calling => cases calling <;> cases r <;> simp [Coroutine.resume]

theorem runJob_closed (n : Native) (r : Outcome) (s : State σ) (j : Job) (hc : s.closed = true) :
    (s.runJob n r j).closed = true ∧ (s.runJob n r j).bound = s.bound ∧
      ∃ l, (s.runJob n r j).trace = s.trace ++ l ∧ ∀ o ∈ l, o.quiet := by
  have keep : ∀ s' : State σ, s'.closed = true → s'.bound = s.bound → s'.trace = s.trace →
      s'.closed = true ∧ s'.bound = s.bound ∧
        ∃ l, s'.trace = s.trace ++ l ∧ ∀ o ∈ l, o.quiet :=
    fun s' h1 h2 h3 => ⟨h1, h2, [], by simpa using h3, by simp⟩
  cases j with
  | flushCoalesceBuffer =>
    simp only [State.runJob, State.flushCoalesceBuffer]
    split <;> apply keep <;> simp [hc]
  | directConnected d => apply keep <;> simp [State.runJob, State.directConnected, hc]
  | proxyConnected k => apply keep <;> simp [State.runJob, State.onProxyConnected, hc]
  | connectFailed direct d k => cases direct <;> apply keep <;> simp [State.runJob, hc]
  | ack k => apply keep <;> simp [State.runJob, hc]
  | abort d k => apply keep <;> simp [State.runJob, State.abort, hc]
  | flushDone => apply keep <;> simp [State.runJob, hc]
  | flushCancelled => apply keep <;> simp [State.runJob, hc]
  | flushFailed d k => apply keep <;> simp [State.runJob, State.abort, hc]
  | drainRetry => apply keep <;> simp [State.runJob, hc]
  | received r =>
    cases r with
    | cancelled | threw => apply keep <;> simp [State.runJob, State.receivedTask, hc]
    | returned data =>
      simp only [State.runJob, State.receivedTask]
      split
      · apply keep <;> simp [hc]
      · refine ⟨by simp [State.emit, hc], by simp [State.emit, hc],
          [.upstream (data.getD [])], by simp [State.emit, hc], by simp [Obs.quiet, Obs.kind]⟩
  | coroutine co =>
    simp only [State.runJob, hc, Bool.true_and]
    split
    · exact keep s hc rfl rfl
    · exact ⟨rfl, rfl, _, rfl, fun o ho => .inl (resume_kind co r o ho)⟩

theorem sendCancelled_of_enabled {co : Coroutine} {r : Outcome}
    (ho : s.closed = false) (h : s.enabled (.coroutine co) r = true) :
    co.sendCancelled r = false := by
  cases co with
  | connectSend calling _ _ | flush calling _ _ =>
    cases calling <;> cases r <;> simp_all [State.enabled, Coroutine.sendCancelled]
  | dialDirect | dialProxy | dialAbandoned | receive => rfl

theorem runJob_actions (n : Native) (r : Outcome) (s : State σ) (j : Job)
    (hen : s.enabled j r = true)
    (hF : ∀ co, j = .coroutine co → co.startsFlush = true → F s.jobs) :
    Actions F { s.toCore with jobs := j :: s.jobs } (s.runJob n r j).toCore := by
  cases hc : s.closed with
  | true =>
    obtain ⟨h1, h2, l, h3, h4⟩ := runJob_closed n r s j hc
    exact .single (.afterClosed hc h1 h2 l h3 h4)
  | false =>
    cases j with
    | flushCoalesceBuffer => exact flushTask_actions hc
    | directConnected d => exact directConnected_actions hc d
    | proxyConnected k => exact onProxyConnected_actions hc k
    | flushDone => exact flushDone_actions n r hc
    | received r => exact receivedTask_actions n hc r
    | connectFailed direct d k =>
      have habort : ∀ s' : State σ, s'.closed = false → s'.trace = s.trace →
          Actions F { s.toCore with jobs := .connectFailed direct d k :: s.jobs }
            s'.abort.toCore := by
        intro s' h1 h2
        exact shut_abort [] [] (by exact hc) h1 (by simp [h2]) (by simp)
          (by simp [ackedBytes]) (by simp) (by simp [acceptedBytes])
      cases direct <;> (simp only [State.runJob]; rw [if_neg (by simp [hc])]; exact habort _ hc rfl)
    | abort d k =>
      exact shut_abort [] [] (by exact hc) hc (by simp) (by simp)
        (by simp [ackedBytes]) (by simp) (by simp [acceptedBytes])
    | flushFailed d k =>
      exact shut_abort [] [] (by exact hc) hc (by simp) (by simp)
        (by simp [ackedBytes]) (by simp) (by simp [acceptedBytes])
    | ack k =>
      simp only [State.runJob]
      rw [if_neg (by simp [hc]), ackBytesToLwip_eq]
      exact .single (.ack (by exact hc) rfl)
    | flushCancelled => exact .single (.flushCancelled (by exact hc) rfl)
    | drainRetry =>
      simp only [State.runJob]
      rw [if_neg (by simp [hc])]
      exact .head (.drainRetry (by exact hc) rfl) (drainPendingWrite_actions n s rfl)
    | coroutine co =>
      simp only [State.runJob]
      rw [if_neg (by simp [hc])]
      exact .single (.coroutine (by exact hc) rfl r (sendCancelled_of_enabled hc hen) (hF co rfl))

/-! ## Callbacks and timers -/

/-- While the sniffer runs nothing has been dialed, posted or received. -/
def Sniffing (s : State σ) : Prop :=
  s.sniffer.isSome = true → s.idle ∧ s.jobs = [] ∧ s.pendingWrite.toByteArray = []

/-- The sniff phase is idle, and the callbacks of a closed connection are gone. -/
structure Tidy (s : State σ) : Prop where
  unbound : s.closed = true → s.bound = false
  sniffing : Sniffing s

theorem idle.not_live (h : c.idle) : c.live = false := by
  simp [Core.live, h.1, h.2.1]

/-- A delivery that is appended to `pendingData`, or runs into its cap. -/
theorem appendPendingData_actions (data : Bytes)
    (ho : c.closed = false) (hl : c.live = false)
    (hs : s.toCore = { c with trace := c.trace ++ [Obs.delivered data] }) :
    Actions F c (s.appendPendingData data).2.toCore := by
  unfold State.appendPendingData
  split
  · have hso : s.closed = false := by rw [hs]; exact ho
    have htr : s.trace = c.trace ++ ([Obs.delivered data] ++ []) := by rw [hs]; rfl
    exact shut_abort _ [] ho hso htr (by simp [Obs.kind]) (by simp [ackedBytes, Obs.recvedPart])
      (by simp)
      (by simp [acceptedBytes])
  · have hcore : { s.toCore with pendingData := s.pendingData.write data } =
        { c with pendingData := c.pendingData.write data
                 trace := c.trace ++ [Obs.delivered data] } := by
      rw [hs]
    dsimp only
    rw [hcore]
    exact .single (.deliverPending ho hl data)

theorem appendPendingData_open {data : Bytes}
    (h : (s.appendPendingData data).1 = true) :
    (s.appendPendingData data).2 = { s with pendingData := s.pendingData.write data } := by
  unfold State.appendPendingData at h ⊢
  split at h
  · simp at h
  · rename_i hcap
    rw [if_neg hcap]

/-- What the sniffed name can do to the core: nothing, or a graceful reject. -/
theorem applySNI_actions (env : Env σ) (n : Native) (sni : String) (s : State σ)
    (hcore : c = s.toCore) : Actions F c (s.applySNI env n sni).toCore := by
  subst hcore
  unfold State.applySNI
  split
  · exact .refl
  · split
    · exact .refl
    · dsimp only
      split
      · exact .refl
      · unfold State.rejectGracefully
        dsimp only
        split
        · exact .refl
        · rename_i hopen
          have ho : s.closed = false := by simpa using hopen
          refine shut_close n (recvedChunks s.pendingData.size s.pendingData.size) ho
            (by exact ho) rfl rfl ?_ ?_
          · intro o h
            exact .inr (recved_of_mem_recvedChunks h)
          · rw [ackedBytes_recvedChunks le_rfl, ByteArrayOutputStream.size_eq]
      · split <;> exact .refl

theorem sniffed_actions (env : Env σ) (n : Native) (s : State σ) (st : SniffState) :
    Actions F s.toCore (s.sniffed env n st).toCore := by
  cases st with
  | needMore => exact .refl
  | found serverName =>
    have hsni : Actions F s.toCore (s.commitRoute.applySNI env n serverName).toCore :=
      applySNI_actions env n serverName s.commitRoute rfl
    simp only [State.sniffed]
    split
    · exact hsni
    · exact hsni.trans (beginConnecting_actions _ rfl)
  | notTls => exact beginConnecting_actions s.commitRoute rfl
  | unavailable => exact beginConnecting_actions s.commitRoute rfl

theorem handleReceivedData_actions (env : Env σ) (n : Native) (data : Bytes) (s : State σ)
    (ht : Tidy s) : Actions F s.toCore (s.handleReceivedData env n data).toCore := by
  unfold State.handleReceivedData
  split
  · exact .refl
  · rename_i hopen
    have ho : s.closed = false := by simpa using hopen
    dsimp only
    split
    · rename_i sniffer hsniff
      have hsniff' : s.sniffer.isSome = true := by
        simp only [State.emit] at hsniff
        simp [hsniff]
      have hlive := idle.not_live (ht.sniffing hsniff').1
      have happ := appendPendingData_actions (F := F) (c := s.toCore) (s :=
        { s.emit [.delivered data] with
          activityTimer := s.activityTimer.map .update
          sniffer := some (env.feed sniffer data).2 }) data ho hlive rfl
      split
      · exact happ
      · exact happ.trans (sniffed_actions env n _ _)
    · split
      · rename_i hconn
        have hlive : s.live = false := by
          simp only [State.emit, Bool.or_eq_true] at hconn
          rcases hconn with h | h <;> simp [Core.live, h]
        exact appendPendingData_actions data ho hlive rfl
      · rename_i hconn
        simp only [State.emit, Bool.or_eq_true, not_or, Bool.not_eq_true] at hconn
        split
        · rename_i hend
          have hlive : s.live = true := by
            simpa [Core.live, hconn, State.emit] using hend
          refine .head (.deliverCoalesce ho hlive data) ?_
          split
          · rename_i hsch
            simp only [State.emit, Bool.and_eq_true, Bool.not_eq_true'] at hsch
            exact .single (.schedule ho hlive hsch.1 hsch.2)
          · exact .refl
        · rename_i hend
          have hlive : s.live = false := by
            simp only [State.emit, Bool.or_eq_true, not_or, Bool.not_eq_true] at hend
            simp [Core.live, hend]
          have happ := appendPendingData_actions (F := F) (c := s.toCore) (s :=
            { s.emit [.delivered data] with activityTimer := s.activityTimer.map .update })
            data ho hlive rfl
          split
          · exact happ
          · exact happ.trans (beginConnecting_actions _ rfl)

theorem finishUplink_actions (n : Native) (s : State σ) (hcore : c = s.toCore) :
    Actions F c (s.finishUplink n).toCore := by
  subst hcore
  unfold State.finishUplink
  dsimp only
  split
  · exact close_actions n _ rfl
  · exact setActivityTimeout_actions n _ _ rfl

theorem handleRemoteClose_actions (n : Native) (s : State σ) :
    Actions F s.toCore (s.handleRemoteClose n).toCore := by
  unfold State.handleRemoteClose
  split
  · exact .refl
  · split
    · dsimp only
      split
      · exact close_actions n _ rfl
      · exact (beginConnecting_actions s.commitRoute rfl).trans (finishUplink_actions n _ rfl)
    · exact finishUplink_actions n s rfl

theorem ret_actions (s : State σ) (err : Int) (h : Actions F c s.toCore) :
    Actions F c (s.emit [.ret err]).toCore := by
  refine h.trans ?_
  cases hc : s.closed with
  | true => exact .single (.afterClosed hc hc rfl [.ret err] rfl (by simp [Obs.quiet, Obs.kind]))
  | false => exact .single (.ret hc err)

/-- **The simulation.** One event is a sequence of actions; the coroutine of a
flush starts only where `F` holds of the other pending jobs. -/
theorem step_actions (env : Env σ) (s : State σ) (e : Event) (ht : Tidy s)
    (hF : ∀ n i r co, e = .job n i r → s.jobs[i]? = some (.coroutine co) →
      co.startsFlush = true → F (s.jobs.eraseIdx i)) :
    Actions F s.toCore (step env s e).toCore := by
  cases e with
  | recv n data memErr =>
    simp only [step]
    split
    · simp only [State.tcpRecvCb, State.onTcpRecv]
      split
      · exact ret_actions s _ .refl
      · refine ret_actions _ _ ?_
        split
        · exact handleRemoteClose_actions n s
        · exact handleReceivedData_actions env n data s ht
    · exact .refl
  | fin n =>
    simp only [step]
    split
    · exact ret_actions _ _ (handleRemoteClose_actions n s)
    · exact .refl
  | sent n =>
    simp only [step]
    split
    · refine ret_actions _ _ ?_
      unfold State.handleSent
      split
      · exact .refl
      · exact drainPendingWrite_actions n s rfl
    · exact .refl
  | err =>
    simp only [step]
    split
    · rename_i hb
      cases hc : s.closed with
      | true => simp [ht.unbound hc] at hb
      | false =>
        simp only [State.tcpErrCb, State.handleError]
        rw [if_neg (by simp [hc])]
        exact .single (.shut hc rfl rfl [.tcpErr] rfl
          ⟨[], [], [.tcpErr], rfl, by simp, by simp [ackedBytes], by simp,
            by simp [acceptedBytes], .error⟩)
    · exact .refl
  | job n i r =>
    simp only [step]
    split
    · exact .refl
    · rename_i j hj
      split
      · rename_i hen
        refine .head (.pick (Lib.perm_cons_eraseIdx hj)) ?_
        exact runJob_actions n r { s with jobs := s.jobs.eraseIdx i } j
          (by cases j <;> exact hen)
          (fun co hco hst => hF n i r co rfl (hco ▸ hj) hst)
      · exact .refl
  | handshakeTimeout =>
    simp only [step]
    split
    · simp only [State.onHandshakeTimeout]
      split
      · exact abort_actions _ rfl
      · exact .refl
    · exact .refl
  | sniffDeadline =>
    simp only [step]
    split
    · simp only [State.onSniffDeadline]
      split
      · exact beginConnecting_actions _ rfl
      · exact .refl
    · exact .refl
  | activityTick n =>
    simp only [step, State.onActivityTick]
    split
    · exact .refl
    · split
      · exact close_actions n _ rfl
      · exact .refl

end Sim

end Anywhere.Tcp
