import Anywhere.Config
import Anywhere.Lib.Machine
import Anywhere.Lib.WriteQueue

/-!
# Anywhere — the writes of `NioSocket`

Two threads write to the channel. The one that calls `send` writes at once when no
write is queued, and queues what is left; `sendAsync` only queues. The selector
thread writes the data given to `connect` when the connection is made, and what is
queued when the channel is writable. A write may take any part of what it is given.
Neither `send` nor `sendAsync` takes a lock, so several calls may be in progress, each
between its checks and its write, or between that and the place where it queues what is
left. The steps below are what one thread does between two points at which another one
may see it.

* `Flowing` — the queue, and what a call is about to queue, is what is left of the data
  taken so far.
* `Apart` — no call is taken while `onConnectable` runs or another call is in progress.
* `run_order` — then what is written is a prefix of what was taken, in call order.
-/

namespace Anywhere.Net

open Lib List

-- ----
-- The model

def maxPendingSendBytes : Nat := 4194304

/-- `PendingSend`; the continuation is that of the data with this number. -/
structure PendingSend where
  data : Bytes
  offset : Nat
  continuation : Option Nat
  deriving Repr

/-- How far the connection is. `connected` and `queueing` are inside `onConnectable`:
the channel is set, and the initial data, or the rest of it, still has to be written
or queued. -/
inductive Phase
  | setup
  | connecting (initialData : Bytes)
  | connected (initialData : Bytes)
  | queueing (initialData : Bytes) (offset : Nat)
  | ready
  | cancelled
  deriving DecidableEq

/-- Where a call is: in a `send` that found the queue empty and is about to write, or
about to queue its data. -/
inductive Caller
  | writing (data : Bytes)
  | adding (send : PendingSend)
  deriving Repr

/-- `NioSocket`, with the bytes the channel has taken. `callers` are the calls in progress,
in the order in which they began. `called` are the arguments of the
calls so far, `accepted` those that were taken for this channel, and `completed` the
numbers of the sends that have returned. -/
structure NioSocket where
  phase : Phase
  pendingSends : List PendingSend
  callers : List Caller
  writeInterest : Bool
  pendingOps : Nat
  inOnWritable : Bool
  zeroWriteCount : Nat
  written : Bytes
  failed : Bool
  called : List Bytes
  accepted : List Bytes
  completed : List Nat

namespace NioSocket

def new : NioSocket := ⟨.setup, [], [], false, 0, false, 0, [], false, [], [], []⟩

def hasChannel (s : NioSocket) : Bool :=
  match s.phase with
  | .connected _ | .queueing _ _ | .ready => true
  | .setup | .connecting _ | .cancelled => false

/-- The selector thread is not inside `onConnectable` or `onWritable`. -/
def selectorFree (s : NioSocket) : Bool :=
  match s.phase with
  | .connected _ | .queueing _ _ => false
  | .setup | .connecting _ | .ready | .cancelled => !s.inOnWritable

def queuedSendBytes (s : NioSocket) : Nat :=
  (s.pendingSends.map fun send => send.data.length - send.offset).sum

/-- The checks of `send` and `sendAsync`. -/
def takes (s : NioSocket) (data : Bytes) : Bool :=
  !data.isEmpty && s.hasChannel && s.queuedSendBytes + data.length ≤ maxPendingSendBytes

/-- `connect`, up to the registration at the selector. -/
def connect (s : NioSocket) (initialData : Bytes) : NioSocket :=
  match s.phase with
  | .setup => { s with phase := .connecting initialData, called := s.called ++ [initialData] }
  | _ => s

/-- The connection cannot be made; the next address may be tried. -/
def connectFails (s : NioSocket) : NioSocket :=
  match s.phase with
  | .connecting _ => { s with phase := .setup }
  | _ => s

/-- `onConnectable`, up to the write of the initial data. -/
def finishConnect (s : NioSocket) : NioSocket :=
  match s.phase with
  | .connecting initialData =>
    { s with
      phase := if initialData.isEmpty then .ready else .connected initialData
      writeInterest := false
      written := []
      accepted := if initialData.isEmpty then [] else [initialData]
      completed := [] }
  | _ => s

/-- The write of the initial data, which takes some bytes or throws. -/
def writeInitial (s : NioSocket) (taken : Option Nat) : NioSocket :=
  match s.phase with
  | .connected initialData =>
    match taken with
    | none => { s with phase := .setup }
    | some n =>
      { s with
        phase := if n < initialData.length then .queueing initialData n else .ready
        written := s.written ++ initialData.take n }
  | _ => s

def queueInitial (s : NioSocket) : NioSocket :=
  match s.phase with
  | .queueing initialData offset =>
    { s with
      phase := .ready
      pendingSends := s.pendingSends ++ [⟨initialData, offset, none⟩]
      writeInterest := true }
  | _ => s

/-- `send`, up to its write or to where it queues the data. -/
def send (s : NioSocket) (data : Bytes) : NioSocket :=
  if s.takes data then
    if s.pendingSends.isEmpty then
      { s with callers := s.callers ++ [.writing data], called := s.called ++ [data] }
    else
      { s with
        callers := s.callers ++ [.adding ⟨data, 0, some s.accepted.length⟩]
        called := s.called ++ [data]
        accepted := s.accepted ++ [data] }
  else { s with called := s.called ++ [data] }

def sendAsync (s : NioSocket) (data : Bytes) : NioSocket :=
  if s.takes data then
    { s with
      callers := s.callers ++ [.adding ⟨data, 0, none⟩]
      called := s.called ++ [data]
      accepted := s.accepted ++ [data] }
  else { s with called := s.called ++ [data] }

/-- The write of a `send`, which takes some bytes or throws; a closed channel throws. -/
def callerWrites (s : NioSocket) (i : Nat) (taken : Option Nat) : NioSocket :=
  match s.callers[i]?, (if s.hasChannel then taken else none) with
  | some (.writing _), none => { s with callers := s.callers.eraseIdx i }
  | some (.writing data), some n =>
    let k := s.accepted.length
    let s := { s with written := s.written ++ data.take n, accepted := s.accepted ++ [data] }
    if n < data.length then { s with callers := s.callers.set i (.adding ⟨data, n, some k⟩) }
    else { s with callers := s.callers.eraseIdx i, completed := s.completed ++ [k] }
  | _, _ => s

/-- A call queues its data and asks for write interest. -/
def callerAdds (s : NioSocket) (i : Nat) : NioSocket :=
  match s.callers[i]? with
  | some (.adding send) =>
    { s with
      callers := s.callers.eraseIdx i
      pendingSends := s.pendingSends ++ [send]
      pendingOps := s.pendingOps + 1 }
  | _ => s

/-- The selector thread runs what `runOnSelector` was given. -/
def runOp (s : NioSocket) : NioSocket :=
  if s.selectorFree ∧ 0 < s.pendingOps then
    { s with pendingOps := s.pendingOps - 1, writeInterest := s.writeInterest || s.hasChannel }
  else s

/-- The channel is writable and `onWritable` is entered. -/
def writable (s : NioSocket) : NioSocket :=
  if s.phase = .ready ∧ s.writeInterest then { s with inOnWritable := true } else s

def forceCancel (s : NioSocket) : NioSocket :=
  { s with phase := .cancelled, pendingSends := [], writeInterest := false, inOnWritable := false }

/-- The head of the queue is written out. -/
def pollSend (s : NioSocket) (send : PendingSend) (rest : List PendingSend) : NioSocket :=
  { s with
    pendingSends := rest, completed := s.completed ++ send.continuation.toList,
    zeroWriteCount := 0 }

/-- The part of a turn behind a write that took `n` bytes. -/
def afterWrite (s : NioSocket) (send : PendingSend) (rest : List PendingSend)
    (n : Nat) : NioSocket :=
  let remaining := send.data.length - send.offset
  if 0 < n then
    let s := { s with written := s.written ++ (send.data.drop send.offset).take n }
    if remaining ≤ n then s.pollSend send rest
    else
      { s with
        pendingSends := { send with offset := send.offset + n } :: rest, zeroWriteCount := 0 }
  else if remaining = 0 then s.pollSend send rest
  else if 100 < s.zeroWriteCount + 1 then
    { s with zeroWriteCount := s.zeroWriteCount + 1 }.forceCancel
  else { s with zeroWriteCount := s.zeroWriteCount + 1, inOnWritable := false }

/-- A turn of the loop of `onWritable`. -/
def turn (s : NioSocket) (taken : Option Nat) : NioSocket :=
  if s.phase = .ready ∧ s.inOnWritable then
    match s.pendingSends, taken with
    | [], _ => { s with inOnWritable := false, writeInterest := false }
    | _ :: _, none =>
      { s with pendingSends := [], inOnWritable := false, writeInterest := false, failed := true }
    | send :: rest, some n => s.afterWrite send rest n
  else s

inductive Event
  | connect (initialData : Bytes)
  | connectFails
  | finishConnect
  | writeInitial (taken : Option Nat)
  | queueInitial
  | send (data : Bytes)
  | sendAsync (data : Bytes)
  | callerWrites (i : Nat) (taken : Option Nat)
  | callerAdds (i : Nat)
  | runOp
  | writable
  | turn (taken : Option Nat)
  | forceCancel
  deriving Repr

def step (s : NioSocket) : Event → NioSocket
  | .connect initialData => s.connect initialData
  | .connectFails => s.connectFails
  | .finishConnect => s.finishConnect
  | .writeInitial taken => s.writeInitial taken
  | .queueInitial => s.queueInitial
  | .send data => s.send data
  | .sendAsync data => s.sendAsync data
  | .callerWrites i taken => s.callerWrites i taken
  | .callerAdds i => s.callerAdds i
  | .runOp => s.runOp
  | .writable => s.writable
  | .turn taken => s.turn taken
  | .forceCancel => s.forceCancel

-- ----
-- What is left to write

/-- The initial data that `onConnectable` has not queued yet. -/
def phaseSends (s : NioSocket) : List PendingSend :=
  match s.phase with
  | .connected initialData => [⟨initialData, 0, none⟩]
  | .queueing initialData offset => [⟨initialData, offset, none⟩]
  | .setup | .connecting _ | .ready | .cancelled => []

def Caller.toQueue : Caller → Option PendingSend
  | .adding send => some send
  | .writing _ => none

def Caller.toWrite : Caller → Option Bytes
  | .writing data => some data
  | .adding _ => none

/-- What the calls in progress are about to queue. -/
def callerSends (s : NioSocket) : List PendingSend := s.callers.filterMap Caller.toQueue

/-- What is left to write, in the order in which it will be. -/
def sends (s : NioSocket) : List PendingSend := s.phaseSends ++ s.pendingSends ++ s.callerSends

/-- The data of the sends that are about to write. -/
def waiting (s : NioSocket) : List Bytes := s.callers.filterMap Caller.toWrite

/-- The sends of this list are what is left of the data taken, and each continuation
is that of its data. -/
def Left (accepted : List Bytes) (sends : List PendingSend) (written : Bytes)
    (completed : List Nat) : Prop :=
  ∃ finished, Writes accepted (sends.map fun send => (send.data, send.offset)) written finished ∧
    (∀ k ∈ completed, k < finished) ∧
    ∀ (j : Nat) (send : PendingSend) (k : Nat), sends[j]? = some send → send.continuation = some k →
      k = finished + j

/-- While there is a channel, what was taken is written or left. -/
def Flowing (s : NioSocket) : Prop := Left s.accepted s.sends s.written s.completed

/-- What is written is a prefix of what was taken, and every send that has returned is
in it. -/
def Ordered (s : NioSocket) : Prop :=
  s.written <+: s.accepted.flatten ∧ ∀ k ∈ s.completed,
    (s.accepted.take (k + 1)).flatten <+: s.written

namespace Left

variable {accepted : List Bytes} {sends : List PendingSend} {written : Bytes} {completed : List Nat}
  {send : PendingSend}

theorem push (h : Left accepted sends written completed) (data : Bytes) (continuation : Option Nat)
    (hnumber : ∀ k, continuation = some k → k = accepted.length) :
    Left (accepted ++ [data]) (sends ++ [⟨data, 0, continuation⟩]) written completed := by
  obtain ⟨finished, hwrites, hcompleted, hnumbers⟩ := h
  refine ⟨finished, ?_, hcompleted, ?_⟩
  · rw [map_append]
    exact hwrites.push data
  · intro j send k hj hk
    by_cases hlt : j < sends.length
    · rw [List.getElem?_append_left hlt] at hj
      exact hnumbers j send k hj hk
    · rw [List.getElem?_append_right (by omega)] at hj
      obtain ⟨hzero, heq⟩ := List.getElem?_eq_some_iff.1 hj
      rw [length_singleton, Nat.lt_one_iff] at hzero
      simp only [hzero, getElem_singleton] at heq
      subst heq
      have hlen := hwrites.length
      rw [length_map] at hlen
      rw [hnumber k hk, hlen]
      omega

/-- A `send` that finds nothing left and writes a part of its data. -/
theorem pushPart (h : Left accepted [] written completed) (data : Bytes) (n : Nat) :
    Left (accepted ++ [data]) [⟨data, n, some accepted.length⟩]
    (written ++ data.take n) completed := by
  obtain ⟨finished, hwrites, hcompleted, -⟩ := h
  refine ⟨finished, hwrites.pushPart data n, hcompleted, ?_⟩
  intro j send k hj hk
  obtain ⟨hzero, heq⟩ := List.getElem?_eq_some_iff.1 hj
  rw [length_singleton, Nat.lt_one_iff] at hzero
  simp only [hzero, getElem_singleton] at heq
  subst heq
  have hlen := hwrites.length
  rw [Option.some.injEq] at hk
  simpa [hzero, ← hk] using hlen

theorem advance (h : Left accepted (send :: sends) written completed) (n : Nat) :
    Left accepted ({ send with offset := send.offset + n } :: sends)
      (written ++ (send.data.drop send.offset).take n) completed := by
  obtain ⟨finished, hwrites, hcompleted, hnumbers⟩ := h
  refine ⟨finished, hwrites.advance n, hcompleted, ?_⟩
  intro j other k hj hk
  rcases j with _ | j
  · rw [List.getElem?_cons_zero, Option.some.injEq] at hj
    subst hj
    exact hnumbers 0 send k rfl hk
  · exact hnumbers (j + 1) other k hj hk

theorem finish (h : Left accepted (send :: sends) written completed)
    (hoffset : send.data.length ≤ send.offset) :
    Left accepted sends written (completed ++ send.continuation.toList) := by
  obtain ⟨finished, hwrites, hcompleted, hnumbers⟩ := h
  refine ⟨finished + 1, hwrites.finish hoffset, ?_, ?_⟩
  · intro k hk
    rcases mem_append.1 hk with hk | hk
    · exact Nat.lt_succ_of_lt (hcompleted k hk)
    · have hnumber := hnumbers 0 send k rfl (Option.mem_toList.1 hk)
      omega
  · intro j other k hj hk
    have hnumber := hnumbers (j + 1) other k hj hk
    omega

end Left

theorem Flowing.ordered {s : NioSocket} (h : s.Flowing) : s.Ordered := by
  obtain ⟨finished, hwrites, hcompleted, -⟩ := h
  exact ⟨hwrites.written_out, fun k hk => hwrites.finished_out (hcompleted k hk)⟩

-- ----
-- Steps

/-- No call is taken while `onConnectable` runs or another call is in progress. -/
def Apart (s : NioSocket) : Event → Prop
  | .send data | .sendAsync data => s.takes data = true → s.phase = .ready ∧ s.callers = []
  | _ => True

instance decidableApart (s : NioSocket) : ∀ e, Decidable (s.Apart e)
  | .send data | .sendAsync data =>
    inferInstanceAs (Decidable (s.takes data = true → s.phase = .ready ∧ s.callers = []))
  | .connect _ | .connectFails | .finishConnect | .writeInitial _ | .queueInitial
  | .callerWrites _ _ | .callerAdds _ | .runOp | .writable | .turn _ | .forceCancel =>
      isTrue trivial

/-- What holds of a socket in a run like that, as long as no write of `onWritable` has
failed. -/
structure Sound (s : NioSocket) : Prop where
  ordered : s.failed = false → s.Ordered
  flowing : s.failed = false → s.hasChannel = true → s.Flowing
  calls : (s.accepted ++ s.waiting).Sublist s.called
  initial : ∀ initialData, s.phase = .connecting initialData → initialData ∈ s.called
  quiet : s.phase ≠ .ready → s.phase ≠ .cancelled → s.pendingSends = [] ∧ s.callers = []
  alone : s.callers.length ≤ 1
  empty : ∀ data, .writing data ∈ s.callers → s.pendingSends = []

variable {s : NioSocket}

/-- With a channel the order follows from what is left. -/
theorem Sound.of_flowing (hflowing : s.failed = false → s.Flowing)
    (hcalls : (s.accepted ++ s.waiting).Sublist s.called)
    (hphase : ∀ initialData, s.phase ≠ .connecting initialData)
    (hquiet : s.phase ≠ .ready → s.phase ≠ .cancelled → s.pendingSends = [] ∧ s.callers = [])
    (halone : s.callers.length ≤ 1)
    (hempty : ∀ data, .writing data ∈ s.callers → s.pendingSends = []) : s.Sound :=
  ⟨fun hfailed => (hflowing hfailed).ordered, fun hfailed _ => hflowing hfailed, hcalls,
    fun initialData hinitial => absurd hinitial (hphase initialData), hquiet, halone, hempty⟩

/-- A call in progress is the only one. -/
theorem Sound.only (h : s.Sound) {i : Nat} {caller : Caller}
    (hcaller : s.callers[i]? = some caller) :
    s.callers = [caller] ∧ i = 0 := by
  obtain ⟨hlt, hget⟩ := List.getElem?_eq_some_iff.1 hcaller
  have hlength : s.callers.length = 1 := by
    have halone := h.alone
    omega
  obtain ⟨only, honly⟩ := List.length_eq_one_iff.1 hlength
  obtain rfl : i = 0 := by omega
  simp only [honly, getElem_singleton] at hget
  exact ⟨by rw [honly, hget], rfl⟩

theorem Sound.connect (h : s.Sound) (initialData : Bytes) : (s.connect initialData).Sound := by
  unfold NioSocket.connect
  split
  · rename_i hphase
    have hquiet := h.quiet (by simp [hphase]) (by simp [hphase])
    refine ⟨h.ordered, ?_, h.calls.trans (sublist_append_left _ _), ?_, fun _ _ => hquiet,
      h.alone, h.empty⟩
    · intro _ hchannel
      cases hchannel
    · intro other hother
      obtain rfl : initialData = other := Phase.connecting.inj hother
      simp
  · exact h

theorem Sound.connectFails (h : s.Sound) : s.connectFails.Sound := by
  unfold NioSocket.connectFails
  split
  · rename_i hphase
    have hquiet := h.quiet (by simp [hphase]) (by simp [hphase])
    refine ⟨h.ordered, ?_, h.calls, ?_, fun _ _ => hquiet, h.alone, h.empty⟩
    · intro _ hchannel
      cases hchannel
    · intro initialData hinitial
      cases hinitial
  · exact h

theorem Sound.finishConnect (h : s.Sound) : s.finishConnect.Sound := by
  unfold NioSocket.finishConnect
  split
  · rename_i initialData hphase
    obtain ⟨hsends, hcaller⟩ := h.quiet (by simp [hphase]) (by simp [hphase])
    have hcalled := h.initial initialData hphase
    have hstart : Left [] [] [] [] := by
      refine ⟨0, Writes.start, ?_, ?_⟩
      · intro k hk
        cases hk
      · intro j send k hj
        cases hj
    by_cases hempty : initialData.isEmpty = true
    · simp only [hempty, if_true]
      refine .of_flowing (fun _ => ?_) ?_ (fun _ hinitial => (by cases hinitial))
        (fun _ _ => ⟨hsends, hcaller⟩) h.alone h.empty
      · simpa [Flowing, sends, phaseSends, callerSends, hsends, hcaller] using hstart
      · simp [waiting, hcaller]
    · simp only [hempty]
      refine .of_flowing (fun _ => ?_) ?_ (fun _ hinitial => (by cases hinitial))
        (fun _ _ => ⟨hsends, hcaller⟩) h.alone h.empty
      · have hpush := hstart.push initialData none (by simp)
        simpa [Flowing, sends, phaseSends, callerSends, hsends, hcaller] using hpush
      · simpa [waiting, hcaller] using hcalled
  · exact h

theorem Sound.writeInitial (h : s.Sound) (taken : Option Nat) : (s.writeInitial taken).Sound := by
  unfold NioSocket.writeInitial
  split
  · rename_i initialData hphase
    obtain ⟨hsends, hcaller⟩ := h.quiet (by simp [hphase]) (by simp [hphase])
    have hflowing : s.failed = false →
        Left s.accepted [⟨initialData, 0, none⟩] s.written s.completed := by
      intro hfailed
      have hflowing := h.flowing hfailed (by simp [hasChannel, hphase])
      simpa [Flowing, sends, phaseSends, callerSends, hphase, hsends, hcaller] using hflowing
    rcases taken with _ | n
    · refine ⟨h.ordered, ?_, h.calls, ?_, fun _ _ => ⟨hsends, hcaller⟩, h.alone, h.empty⟩
      · intro _ hchannel
        cases hchannel
      · intro other hinitial
        cases hinitial
    · by_cases hn : n < initialData.length
      · simp only [hn, if_true]
        refine .of_flowing (fun hfailed => ?_) h.calls (fun _ hinitial => (by cases hinitial))
          (fun _ _ => ⟨hsends, hcaller⟩) h.alone h.empty
        have hadvance := (hflowing hfailed).advance n
        simpa [Flowing, sends, phaseSends, callerSends, hsends, hcaller] using hadvance
      · simp only [hn, if_false]
        refine .of_flowing (fun hfailed => ?_) h.calls (fun _ hinitial => (by cases hinitial))
          (fun _ _ => ⟨hsends, hcaller⟩) h.alone h.empty
        have hfinish := ((hflowing hfailed).advance n).finish (by simpa using hn)
        simpa [Flowing, sends, phaseSends, callerSends, hsends, hcaller] using hfinish
  · exact h

theorem Sound.queueInitial (h : s.Sound) : s.queueInitial.Sound := by
  unfold NioSocket.queueInitial
  split
  · rename_i initialData offset hphase
    obtain ⟨hsends, hcaller⟩ := h.quiet (by simp [hphase]) (by simp [hphase])
    refine .of_flowing (fun hfailed => ?_) h.calls (fun _ hinitial => (by cases hinitial))
      (fun hready => absurd rfl hready) h.alone ?_
    · have hflowing := h.flowing hfailed (by simp [hasChannel, hphase])
      simpa [Flowing, sends, phaseSends, callerSends, hphase, hsends, hcaller] using hflowing
    · intro data hwriting
      simp [hcaller] at hwriting
  · exact h

theorem Sound.refuse (h : s.Sound) (data : Bytes) : Sound { s with called := s.called ++ [data] } :=
  ⟨h.ordered, h.flowing, h.calls.trans (sublist_append_left _ _),
    fun initialData hinitial => mem_append_left _ (h.initial initialData hinitial), h.quiet,
    h.alone, h.empty⟩

/-- A call that takes its data and is about to queue it. -/
theorem Sound.accept (h : s.Sound) (hready : s.phase = .ready) (hcallers : s.callers = [])
    (data : Bytes) (continuation : Option Nat)
    (hnumber : ∀ k, continuation = some k → k = s.accepted.length) :
    Sound { s with
      callers := s.callers ++ [.adding ⟨data, 0, continuation⟩]
      called := s.called ++ [data]
      accepted := s.accepted ++ [data] } := by
  simp only [hcallers, nil_append]
  refine .of_flowing (fun hfailed => ?_) ?_ (fun _ hinitial => (by simp [hready] at hinitial))
    (fun hother => absurd hready hother) le_rfl (fun _ hwriting => (by simp at hwriting))
  · have hflowing := h.flowing hfailed (by simp [hasChannel, hready])
    have hpush := Left.push hflowing data continuation hnumber
    simpa [Flowing, sends, phaseSends, callerSends, Caller.toQueue, filterMap_cons,
      hready, hcallers]
      using hpush
  · have hcalls := h.calls
    simp only [waiting, hcallers, filterMap_nil, append_nil] at hcalls
    simpa [waiting, Caller.toWrite, filterMap_cons] using hcalls.append (List.Sublist.refl [data])

theorem Sound.send (h : s.Sound) {data : Bytes} (hapart : s.Apart (.send data)) :
    (s.send data).Sound := by
  unfold NioSocket.send
  split
  · rename_i htakes
    obtain ⟨hready, hcallers⟩ := hapart htakes
    split
    · rename_i hnone
      simp only [hcallers, nil_append]
      refine .of_flowing (fun hfailed => ?_) ?_ (fun _ hinitial => (by simp [hready] at hinitial))
        (fun hother => absurd hready hother) le_rfl (fun _ _ => List.isEmpty_iff.1 hnone)
      · have hflowing := h.flowing hfailed (by simp [hasChannel, hready])
        simpa [Flowing, sends, phaseSends, callerSends, Caller.toQueue, filterMap_cons,
          hready, hcallers]
          using hflowing
      · have hcalls := h.calls
        simp only [waiting, hcallers, filterMap_nil, append_nil] at hcalls
        exact hcalls.append (List.Sublist.refl _)
    · exact h.accept hready hcallers data (some s.accepted.length)
        fun k hk => (Option.some.inj hk).symm
  · exact h.refuse data

theorem Sound.sendAsync (h : s.Sound) {data : Bytes} (hapart : s.Apart (.sendAsync data)) :
    (s.sendAsync data).Sound := by
  unfold NioSocket.sendAsync
  split
  · rename_i htakes
    obtain ⟨hready, hcallers⟩ := hapart htakes
    exact h.accept hready hcallers data none fun k hk => (by cases hk)
  · exact h.refuse data

theorem Sound.ready_of_busy (h : s.Sound) (hchannel : s.hasChannel = true)
    (hbusy : s.callers ≠ []) : s.phase = .ready := by
  by_contra hready
  have hcancelled : s.phase ≠ .cancelled := by
    intro hcancelled
    simp [hasChannel, hcancelled] at hchannel
  exact hbusy (h.quiet hready hcancelled).2

theorem Sound.callerWrites (h : s.Sound) (i : Nat) (taken : Option Nat) :
    (s.callerWrites i taken).Sound := by
  unfold NioSocket.callerWrites
  split
  · rename_i data hcaller hnone
    obtain ⟨hcallers, rfl⟩ := h.only hcaller
    have hcalls : s.accepted.Sublist s.called := (sublist_append_left _ _).trans h.calls
    simp only [hcallers, eraseIdx_cons_zero]
    refine ⟨h.ordered, ?_, by simpa [waiting] using hcalls, h.initial, ?_, Nat.zero_le _,
      fun _ hwriting => (by simp at hwriting)⟩
    · intro hfailed hchannel
      have hflowing := h.flowing hfailed hchannel
      simpa [Flowing, sends, phaseSends, callerSends, Caller.toQueue, filterMap_cons,
        hcallers] using hflowing
    · intro hready hcancelled
      exact ⟨(h.quiet hready hcancelled).1, rfl⟩
  · rename_i data n hcaller htaken
    obtain ⟨hcallers, rfl⟩ := h.only hcaller
    have hchannel : s.hasChannel = true := by
      by_contra hchannel
      simp [hchannel] at htaken
    have hready := h.ready_of_busy hchannel (by simp [hcallers])
    have hnone := h.empty data (by simp [hcallers])
    have hcalls : (s.accepted ++ [data]).Sublist s.called := by
      simpa [waiting, Caller.toWrite, filterMap_cons, hcallers] using h.calls
    have hpart : s.failed = false → Left (s.accepted ++ [data]) [⟨data, n, some s.accepted.length⟩]
        (s.written ++ data.take n) s.completed := by
      intro hfailed
      have hflowing := h.flowing hfailed hchannel
      refine Left.pushPart ?_ data n
      simpa [Flowing, sends, phaseSends, callerSends, Caller.toQueue, filterMap_cons, hready,
        hnone, hcallers]
        using hflowing
    simp only [hcallers, set_cons_zero, eraseIdx_cons_zero]
    split
    · refine .of_flowing (fun hfailed => ?_)
        (by simpa [waiting, Caller.toWrite, filterMap_cons] using hcalls)
        (fun _ hinitial => (by simp [hready] at hinitial)) (fun hother => absurd hready hother)
        le_rfl (fun _ hwriting => (by simp at hwriting))
      simpa [Flowing, sends, phaseSends, callerSends, Caller.toQueue, filterMap_cons, hready, hnone]
        using hpart hfailed
    · rename_i hn
      refine .of_flowing (fun hfailed => ?_) (by simpa [waiting] using hcalls)
        (fun _ hinitial => (by simp [hready] at hinitial)) (fun hother => absurd hready hother)
        (Nat.zero_le _) (fun _ hwriting => (by simp at hwriting))
      have hfinish := (hpart hfailed).finish (by simpa using hn)
      simpa [Flowing, sends, phaseSends, callerSends, hready, hnone] using hfinish
  · exact h

theorem Sound.callerAdds (h : s.Sound) (i : Nat) : (s.callerAdds i).Sound := by
  unfold NioSocket.callerAdds
  split
  · rename_i send hcaller
    obtain ⟨hcallers, rfl⟩ := h.only hcaller
    simp only [hcallers, eraseIdx_cons_zero]
    refine ⟨h.ordered, ?_, ?_, h.initial, ?_, Nat.zero_le _,
      fun _ hwriting => (by simp at hwriting)⟩
    · intro hfailed hchannel
      have hflowing := h.flowing hfailed hchannel
      simpa [Flowing, sends, phaseSends, callerSends, Caller.toQueue, filterMap_cons,
        hcallers] using hflowing
    · simpa [waiting, Caller.toWrite, filterMap_cons, hcallers] using h.calls
    · intro hready hcancelled
      have hidle := (h.quiet hready hcancelled).2
      simp [hcallers] at hidle
  · exact h

theorem Sound.same {s' : NioSocket} (h : s.Sound) (hphase : s'.phase = s.phase)
    (hsends : s'.pendingSends = s.pendingSends) (hcaller : s'.callers = s.callers)
    (hwritten : s'.written = s.written) (hfailed : s'.failed = s.failed)
    (hcalled : s'.called = s.called) (haccepted : s'.accepted = s.accepted)
    (hcompleted : s'.completed = s.completed) : s'.Sound := by
  obtain ⟨phase, pendingSends, callers, _, _, _, _, written, failed, called, accepted, completed⟩ :=
    s
  obtain ⟨_, _, _, _, _, _, _, _, _, _, _, _⟩ := s'
  simp only at hphase hsends hcaller hwritten hfailed hcalled haccepted hcompleted
  subst hphase hsends hcaller hwritten hfailed hcalled haccepted hcompleted
  exact ⟨h.ordered, h.flowing, h.calls, h.initial, h.quiet, h.alone, h.empty⟩

theorem Sound.forceCancel (h : s.Sound) : s.forceCancel.Sound := by
  refine ⟨h.ordered, ?_, h.calls, ?_, fun _ hcancelled => absurd rfl hcancelled, h.alone,
    fun _ _ => rfl⟩
  · intro _ hchannel
    cases hchannel
  · intro initialData hinitial
    cases hinitial

/-- The send at the head of the queue, of which `n` more bytes are written, is out. -/
theorem Sound.pollSend (h : s.Sound) (hready : s.phase = .ready) {send : PendingSend}
    {rest : List PendingSend} (hqueue : s.pendingSends = send :: rest) (n : Nat)
    (hn : send.data.length ≤ send.offset + n) :
    (NioSocket.pollSend { s with written := s.written ++ (send.data.drop send.offset).take n } send
      rest).Sound := by
  refine .of_flowing (fun hfailed => ?_) h.calls ?_ (fun hother => absurd hready hother) h.alone ?_
  · have hflowing := h.flowing hfailed (by simp [hasChannel, hready])
    have hleft : Left s.accepted (send :: (rest ++ s.callerSends)) s.written s.completed := by
      simpa [Flowing, sends, phaseSends, hready, hqueue] using hflowing
    have hfinish := (hleft.advance n).finish hn
    simpa [Flowing, sends, phaseSends, callerSends, NioSocket.pollSend, hready] using hfinish
  · intro initialData hinitial
    simp [NioSocket.pollSend, hready] at hinitial
  · intro data hwriting
    have hnone := h.empty data hwriting
    rw [hqueue] at hnone
    cases hnone

theorem Sound.afterWrite (h : s.Sound) (hready : s.phase = .ready) {send : PendingSend}
    {rest : List PendingSend} (hqueue : s.pendingSends = send :: rest) (n : Nat) :
    (s.afterWrite send rest n).Sound := by
  unfold NioSocket.afterWrite
  simp only
  split
  · split
    · exact h.pollSend hready hqueue n (by omega)
    · refine .of_flowing (fun hfailed => ?_) h.calls ?_ (fun hother => absurd hready hother)
        h.alone ?_
      · have hflowing := h.flowing hfailed (by simp [hasChannel, hready])
        have hleft : Left s.accepted (send :: (rest ++ s.callerSends)) s.written s.completed := by
          simpa [Flowing, sends, phaseSends, hready, hqueue] using hflowing
        simpa [Flowing, sends, phaseSends, callerSends, hready] using hleft.advance n
      · intro initialData hinitial
        simp [hready] at hinitial
      · intro data hwriting
        have hnone := h.empty data hwriting
        rw [hqueue] at hnone
        cases hnone
  · split
    · rename_i hzero
      have hpoll := h.pollSend hready hqueue 0 (by omega)
      simpa using hpoll
    · split
      · refine Sound.forceCancel ?_
        exact h.same rfl rfl rfl rfl rfl rfl rfl rfl
      · exact h.same rfl rfl rfl rfl rfl rfl rfl rfl

theorem Sound.turn (h : s.Sound) (taken : Option Nat) : (s.turn taken).Sound := by
  unfold NioSocket.turn
  split
  · rename_i hloop
    split
    · rename_i hqueue
      exact h.same rfl rfl rfl rfl rfl rfl rfl rfl
    · refine ⟨?_, ?_, h.calls, h.initial, fun hother => absurd hloop.1 hother, h.alone,
        fun _ _ => rfl⟩
      · intro hfailed
        cases hfailed
      · intro hfailed
        cases hfailed
    · rename_i send rest n hqueue
      exact h.afterWrite hloop.1 hqueue n
  · exact h

/-- A step at which no call that is taken meets `onConnectable` or another call keeps the
order. -/
theorem Sound.step (s : NioSocket) (e : Event) (hapart : s.Apart e) (h : s.Sound) :
    (s.step e).Sound := by
  rcases e with data | _ | _ | taken | _ | data | data | ⟨i, taken⟩ | i | _ | _ | taken | _
  · exact h.connect data
  · exact h.connectFails
  · exact h.finishConnect
  · exact h.writeInitial taken
  · exact h.queueInitial
  · exact h.send hapart
  · exact h.sendAsync hapart
  · exact h.callerWrites i taken
  · exact h.callerAdds i
  · show Sound (if _ then _ else _)
    split
    · exact h.same rfl rfl rfl rfl rfl rfl rfl rfl
    · exact h
  · show Sound (if _ then _ else _)
    split
    · exact h.same rfl rfl rfl rfl rfl rfl rfl rfl
    · exact h
  · exact h.turn taken
  · exact h.forceCancel

end NioSocket

end Anywhere.Net
