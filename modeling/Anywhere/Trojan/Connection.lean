import Anywhere.Lib.Machine
import Anywhere.Trojan.Protocol

/-!
# Anywhere — `TrojanConnection`

The header of the request goes in front of the first write. A write takes it under a lock and sends
what it has behind it, so that the writes of other threads may be sent in between.

* `header_once` — in every order of steps each write is sent once, and the header in front of the
  first; it is the first to be sent where no write is overtaken.
-/

namespace Anywhere.Trojan

open Lib List

-- ----
-- The model

def COMMAND_TCP : UInt8 := 0x01

/-- What is left of the header, the payloads of the writes that have still to send them, and what
the TLS connection was given. -/
structure TrojanConnection where
  pendingHeader : Option Bytes
  sending : List Bytes := []
  sent : List Bytes := []

namespace TrojanConnection

def new (inet : Net.Inet) (passwordKey : Bytes) (destinationHost : Text) (destinationPort : Nat) :
    TrojanConnection where
  pendingHeader :=
    some (buildRequestHeader inet passwordKey COMMAND_TCP destinationHost destinationPort)

def consumeHeader (c : TrojanConnection) : Option Bytes × TrojanConnection :=
  (c.pendingHeader, { c with pendingHeader := none })

/-- `sendRaw` and `sendRawAsync`, up to the call of `tlsConnection`. -/
def sendRaw (c : TrojanConnection) (data : Bytes) : TrojanConnection :=
  let (header, c) := c.consumeHeader
  { c with sending := c.sending ++ [(header.map (· ++ data)).getD data] }

/-- A thread makes a write, or the write at a place is sent. -/
inductive Event
  | sendRaw (data : Bytes)
  | send (i : Nat)

def step (c : TrojanConnection) : Event → TrojanConnection
  | .sendRaw data => c.sendRaw data
  | .send i =>
    match c.sending[i]? with
    | none => c
    | some payload => { c with sending := c.sending.eraseIdx i, sent := c.sent ++ [payload] }

def writesOf (events : List Event) : List Bytes :=
  events.filterMap fun
    | .sendRaw data => some data
    | .send _ => none

/-- The payloads of the writes, in their order. -/
def payloads (header : Bytes) : List Bytes → List Bytes
  | [] => []
  | data :: writes => (header ++ data) :: writes

def Event.InOrder : Event → Prop
  | .sendRaw _ => True
  | .send i => i = 0

-- ----
-- Every order of steps

variable {header data payload : Bytes} {writes : List Bytes} {c : TrojanConnection}

/-- The header is there until there is a write. -/
def Pending (header : Bytes) (writes : List Bytes) (c : TrojanConnection) : Prop :=
  c.pendingHeader = if writes = [] then some header else none

theorem payloads_append (header : Bytes) (writes : List Bytes) (data : Bytes) :
    payloads header (writes ++ [data]) =
      payloads header writes ++
        [((if writes = [] then some header else none).map (· ++ data)).getD data] := by
  cases writes with
  | nil => rfl
  | cons first writes => rfl

/-- What relates the payloads to what became of them, and is kept by every send that is allowed. -/
theorem relates_run {R : List Bytes → List Bytes → Prop} {C : Event → Prop}
    (happend : ∀ xs ys payload, R xs ys → R (xs ++ [payload]) (ys ++ [payload]))
    (hsend : ∀ xs sending i payload ys, C (.send i) → sending[i]? = some payload →
      R (xs ++ sending) ys → R (xs ++ payload :: sending.eraseIdx i) ys)
    (hpending : Pending header writes c) (h : R (c.sent ++ c.sending) (payloads header writes))
    {events : List Event} (hevents : ∀ e ∈ events, C e) :
    R ((run step c events).sent ++ (run step c events).sending)
      (payloads header (writes ++ writesOf events)) := by
  induction events generalizing writes c with
  | nil => simpa [writesOf] using h
  | cons e events ih =>
    have hlater : ∀ e ∈ events, C e := fun e he => hevents e (mem_cons_of_mem _ he)
    cases e with
    | sendRaw data =>
      have hwrite := happend _ _ ((c.pendingHeader.map (· ++ data)).getD data) h
      rw [append_assoc, hpending, ← payloads_append] at hwrite
      have hrun := @ih (writes ++ [data]) (c.sendRaw data) (if_neg (by simp)).symm
        (by rw [sendRaw, consumeHeader, hpending]; exact hwrite) hlater
      rwa [append_assoc] at hrun
    | send i =>
      rw [run_cons, step]
      rcases hpayload : c.sending[i]? with _ | payload
      · exact ih hpending h hlater
      · refine @ih writes _ hpending ?_ hlater
        show R ((c.sent ++ [payload]) ++ c.sending.eraseIdx i) _
        rw [append_assoc]
        exact hsend _ _ i payload _ (hevents _ mem_cons_self) hpayload h

/-- In every order of steps: what is sent and what has still to be sent are the writes, each once,
with the header in front of the first; and where no write is overtaken, the TLS connection is given
the header and then the writes. -/
theorem header_once (inet : Net.Inet) (passwordKey : Bytes) (destinationHost : Text)
    (destinationPort : Nat) (events : List Event) :
    let header := buildRequestHeader inet passwordKey COMMAND_TCP destinationHost destinationPort
    let c := run step (new inet passwordKey destinationHost destinationPort) events
    (c.sent ++ c.sending).Perm (payloads header (writesOf events)) ∧
      ((∀ e ∈ events, e.InOrder) → c.sent ++ c.sending = payloads header (writesOf events)) := by
  intro header c
  have hpending : Pending header [] (new inet passwordKey destinationHost destinationPort) := rfl
  constructor
  · refine relates_run (R := List.Perm) (C := fun _ => True)
      (fun xs ys payload h => Perm.append_right [payload] h) ?_ hpending (Perm.refl _)
        fun _ _ => trivial
    intro xs sending i payload ys _ hpayload h
    exact ((perm_cons_eraseIdx hpayload).symm.append_left xs).trans h
  · refine relates_run (R := Eq) (fun xs ys payload h => congrArg (· ++ [payload]) h)
      ?_ hpending rfl
    rintro xs (_ | ⟨first, sending⟩) i payload ys rfl hpayload h
    · cases hpayload
    · obtain rfl := Option.some.inj hpayload
      exact h

/-- A write that overtakes the first one reaches the server without a header in front. -/
example : (run step ⟨some [7], [], []⟩ [.sendRaw [1], .sendRaw [2], .send 1, .send 0]).sent =
    [[2], [7, 1]] := by
  decide

end TrojanConnection

end Anywhere.Trojan
