import Anywhere.Mux.Frame
import Anywhere.Lib.Machine
import Anywhere.Lib.Registry

/-!
# Anywhere — `MuxClient`

The sessions of one mux connection are in a table by id. Ids come from a counter
that goes from 65535 back to 1 without a look at the table, and an XUDP session
always has id 0; a session is taken out of the table by its id. Session objects
are numbered in the order `createSession` makes them.

* `Registered` — the table holds the sessions that are open, each under its id.
* `Numbered` — the id of a session from the number of sessions made before it.
* `Spaced` — no session is made while the one 65535 before it is open, and no
  second XUDP session while there is one.
* `run_identity` — in a run with these spaces every id is new, and every frame
  reaches the session it is for.
-/

namespace Anywhere.Mux

open Lib FakeIp List

-- ----
-- The model

/-- How far the `createSession` of a session is: it waits for the connection, or for
its NEW frame to be written, or it is over. -/
inductive Creation
  | connecting | writing | returned | thrown
  deriving DecidableEq

structure MuxSession where
  sessionID : Nat
  network : MuxNetwork
  targetHost : Text
  targetPort : Nat
  globalID : Option Bytes
  closed : Bool
  creation : Creation

/-- `MuxClient`, with every session object made so far, the frames handed to
`writeFrame`, and the bytes its parser keeps. -/
structure MuxClient where
  objects : List MuxSession
  sessions : Table Nat
  nextSessionID : Nat
  connecting : Bool
  connected : Bool
  closed : Bool
  isXUDP : Bool
  idleTimer : Bool
  written : List MuxFrame
  buffer : Bytes

variable {f : MuxSession → MuxSession} {globalID : Option Bytes} {host : Text} {port n : Nat}
  {network : MuxNetwork}

namespace MuxClient

def new : MuxClient := ⟨[], ∅, 1, false, false, false, false, false, [], []⟩

def resetIdleTimer (client : MuxClient) : MuxClient :=
  { client with idleTimer := !(client.closed || !client.sessions.entries.isEmpty) }

def modify (client : MuxClient) (i : Nat) (f : MuxSession → MuxSession) : MuxClient :=
  { client with objects := client.objects.modify i f }

def removeSession (client : MuxClient) (sessionID : Nat) : MuxClient :=
  let client := { client with sessions := client.sessions.erase sessionID }
  if client.sessions.entries.isEmpty then client.resetIdleTimer else client

/-- `closeAll`: `deliverClose` for every session of the table. -/
def closeAll (client : MuxClient) : MuxClient :=
  if client.closed then client
  else
    { client with
      closed := true
      idleTimer := false
      objects := client.objects.mapIdx fun i session =>
        if client.sessions.entries.any (·.2 == i) then { session with closed := true } else session
      sessions := ∅
      connecting := false
      buffer := [] }

/-- The id that `createSession` takes. -/
def takenID (client : MuxClient) (globalID : Option Bytes) : Nat :=
  if globalID.isSome then 0 else client.nextSessionID

/-- The catch block of `createSession`. -/
def fail (client : MuxClient) (i : Nat) (sessionID : Nat) : MuxClient :=
  { client.modify i ({ · with creation := .thrown }) with
    sessions := client.sessions.erase sessionID }

/-- The part of `createSession` behind `connectMux`: the NEW frame goes out, except
for XUDP. -/
def writeNew (client : MuxClient) (i : Nat) (session : MuxSession) : MuxClient :=
  if session.globalID.isSome then client.modify i ({ · with creation := .returned })
  else if client.closed then client.fail i session.sessionID
  else
    { client.modify i ({ · with creation := .writing }) with
      written := client.written ++ [(⟨session.sessionID, .new, 0, some session.network,
        some session.targetHost, some session.targetPort, none⟩, none)] }

def countID (client : MuxClient) (globalID : Option Bytes) : MuxClient :=
  if globalID.isSome then { client with isXUDP := true }
  else
    let nextSessionID := (client.nextSessionID + 1) &&& 0xFFFF
    { client with nextSessionID := if nextSessionID = 0 then 1 else nextSessionID }

def addSession (client : MuxClient) (session : MuxSession) : MuxClient :=
  { client with
    objects := client.objects ++ [session]
    sessions := client.sessions.insert session.sessionID client.objects.length }

/-- `createSession`, up to its first suspension. -/
def createSession (client : MuxClient) (network : MuxNetwork) (host : Text) (port : Nat)
    (globalID : Option Bytes) : MuxClient :=
  if client.closed then client
  else
    let session : MuxSession :=
      ⟨client.takenID globalID, network, host, port, globalID, false, .connecting⟩
    let added := ((client.countID globalID).addSession session).resetIdleTimer
    if client.connected then added.writeNew client.objects.length session
    else { added with connecting := true }

/-- `MuxSession.close` of a session that `createSession` has returned. -/
def close (client : MuxClient) (i : Nat) : MuxClient :=
  match client.objects[i]? with
  | none => client
  | some session =>
    if session.closed ∨ session.creation ≠ .returned then client
    else
      let closing := client.modify i ({ · with closed := true })
      let ended : List MuxFrame :=
        if client.closed then []
        else [(⟨session.sessionID, .ended, 0, none, none, none, none⟩, none)]
      { closing with written := closing.written ++ ended }.removeSession session.sessionID

/-- What a session is given: `deliverData` and `deliverClose` behind their `closed`
check. -/
inductive Delivery
  | data (payload : Bytes)
  | ended

/-- The session object of a table entry, when it is not closed. -/
def openAt (client : MuxClient) (i : Nat) : Bool :=
  match client.objects[i]? with
  | some session => !session.closed
  | none => false

/-- A turn of the loop of `handleReceivedData`: the client, and what is delivered to
which session. -/
def handleFrame (client : MuxClient) (frame : MuxFrame) : MuxClient × Option (Nat × Delivery) :=
  match frame.1.status, client.sessions.lookup frame.1.sessionID with
  | .keep, some i =>
    match frame.2 with
    | some payload =>
      if !payload.isEmpty && client.openAt i then (client, some (i, .data payload))
      else (client, none)
    | none => (client, none)
  | .ended, some i =>
    let removed := { client with sessions := client.sessions.erase frame.1.sessionID }
    (removed.modify i ({ · with closed := true }), if client.openAt i then
      some (i, .ended) else none)
  | _, _ => (client, none)

def handled (client : MuxClient) (frame : MuxFrame) : MuxClient := (client.handleFrame frame).1

/-- `handleReceivedData`; when the parser throws, the receive loop ends in `closeAll`. -/
def handleReceivedData (inet : InetAddress) (client : MuxClient) (data : Bytes) : MuxClient :=
  match feed inet client.buffer data with
  | (buffer, some frames) => run handled { client with buffer := buffer } frames
  | (buffer, none) => { client with buffer := buffer }.closeAll

inductive Event
  | createSession (network : MuxNetwork) (host : Text) (port : Nat) (globalID : Option Bytes)
  /-- `client.connectMux()` returns. -/
  | connected
  /-- A `createSession` that waited for the connection goes on. -/
  | goOn (i : Nat)
  /-- The NEW frame of a session is written and its `createSession` returns. -/
  | wrote (i : Nat)
  /-- A `createSession` that waits is cancelled, or what it waits for fails. -/
  | throws (i : Nat)
  | close (i : Nat)
  | receive (data : Bytes)
  /-- The idle timer fires. -/
  | idle
  /-- The connection fails, a write fails, the receive loop ends, or the stack closes it. -/
  | closeAll
  deriving Repr

/-- A session whose `createSession` still waits. -/
def waitingAt (client : MuxClient) (i : Nat) (creation : Creation) : Option MuxSession :=
  client.objects[i]?.filter (·.creation = creation)

def step (inet : InetAddress) (client : MuxClient) : Event → MuxClient
  | .createSession network host port globalID => client.createSession network host port globalID
  | .connected =>
    if client.objects.any (·.creation = .connecting) then
      { client with connected := true, connecting := false }.resetIdleTimer
    else client
  | .goOn i =>
    match client.waitingAt i .connecting with
    | some session => if client.connected then client.writeNew i session else client
    | none => client
  | .wrote i =>
    match client.waitingAt i .writing with
    | some _ => client.modify i ({ · with creation := .returned })
    | none => client
  | .throws i =>
    match client.objects[i]? with
    | some session =>
      if session.creation = .connecting ∨ session.creation = .writing then
        client.fail i session.sessionID
      else client
    | none => client
  | .close i => client.close i
  | .receive data => client.handleReceivedData inet data
  | .idle => if client.idleTimer && client.sessions.entries.isEmpty then client.closeAll else client
  | .closeAll => client.closeAll

-- ----
-- Open sessions

def idAt (client : MuxClient) (i : Nat) : Option Nat := client.objects[i]?.map (·.sessionID)

/-- The session was opened and is not closed, and its `createSession` has not thrown. -/
def aliveAt (client : MuxClient) (i : Nat) : Bool :=
  match client.objects[i]? with
  | some session => !session.closed && session.creation != .thrown
  | none => false

/-- The table holds the sessions that are open, each under its id. -/
def Registered (client : MuxClient) : Prop :=
  Registers client.idAt (client.aliveAt · = true) client.sessions

variable {client client' : MuxClient} {i j : Nat} {session : MuxSession}

theorem aliveAt_eq (h : client.objects[i]? = some session) :
    client.aliveAt i = (!session.closed && session.creation != .thrown) := by
  simp [aliveAt, h]

theorem idAt_eq (h : client.objects[i]? = some session) :
    client.idAt i = some session.sessionID := by
  simp [idAt, h]

theorem exists_of_alive (h : client.aliveAt i = true) :
    ∃ session, client.objects[i]? = some session := by
  unfold aliveAt at h
  split at h
  · exact ⟨_, by assumption⟩
  · cases h

theorem getElem?_modify_self (f : MuxSession → MuxSession) (h : client.objects[i]? = some session) :
    (client.modify i f).objects[i]? = some (f session) := by
  simp [modify, h]

theorem getElem?_modify_ne (f : MuxSession → MuxSession) (h : j ≠ i) :
    (client.modify i f).objects[j]? = client.objects[j]? := by
  simp [modify, h.symm]

/-- What is said of session `j` only depends on its object. -/
theorem aliveAt_congr (h : client'.objects[j]? = client.objects[j]?) :
    client'.aliveAt j = client.aliveAt j := by
  simp only [aliveAt, h]

theorem idAt_congr (h : client'.objects[j]? = client.objects[j]?) :
    client'.idAt j = client.idAt j := by
  simp only [idAt, h]

/-- A change of a session that leaves its id and whether it is open. -/
theorem Registered.modify (h : client.Registered) (hi : client.objects[i]? = some session)
    (hid : (f session).sessionID = session.sessionID)
    (hclosed : (f session).closed = session.closed) (hbefore : session.creation ≠ .thrown)
    (hafter : (f session).creation ≠ .thrown) : (client.modify i f).Registered := by
  refine Registers.congr h ?_ ?_
  · intro j _
    by_cases hj : j = i
    · subst hj
      rw [idAt_eq (getElem?_modify_self f hi), idAt_eq hi, hid]
    · exact idAt_congr (getElem?_modify_ne f hj)
  · intro j
    by_cases hj : j = i
    · subst hj
      rw [aliveAt_eq (getElem?_modify_self f hi), aliveAt_eq hi, hclosed]
      simp [hbefore, hafter]
    · rw [aliveAt_congr (getElem?_modify_ne f hj)]

/-- The end of a session: its id is erased, which must not be the id of another one. -/
theorem Registered.retire (h : client.Registered) (hi : client.objects[i]? = some session)
    (hid : (f session).sessionID = session.sessionID)
    (hdead : (f session).closed = true ∨ (f session).creation = .thrown)
    (hother : ∀ j, client.aliveAt j = true → client.idAt j = some session.sessionID → j = i)
    (hobjects : client'.objects = (client.modify i f).objects)
    (hsessions : client'.sessions = client.sessions.erase session.sessionID) :
    client'.Registered := by
  have hself : client'.objects[i]? = some (f session) := by
    rw [hobjects]
    exact getElem?_modify_self f hi
  have hne : ∀ j, j ≠ i → client'.objects[j]? = client.objects[j]? := by
    intro j hj
    rw [hobjects]
    exact getElem?_modify_ne f hj
  unfold Registered
  rw [hsessions]
  refine Registers.erase h ?_ ?_
  · intro j _
    by_cases hj : j = i
    · subst hj
      rw [idAt_eq hself, idAt_eq hi, hid]
    · exact idAt_congr (hne j hj)
  · intro j
    by_cases hj : j = i
    · subst hj
      rw [aliveAt_eq hself, idAt_eq hi]
      rcases hdead with hdead | hdead
      · simp [hdead]
      · simp [hdead]
    · rw [aliveAt_congr (hne j hj)]
      constructor
      · intro halive
        exact ⟨halive, fun hk => hj (hother j halive hk)⟩
      · exact And.left

theorem Registered.only (h : client.Registered) (hi : client.objects[i]? = some session)
    (halive : client.aliveAt i = true) :
    ∀ j, client.aliveAt j = true → client.idAt j = some session.sessionID → j = i :=
  fun _ hj hk => Registers.unique h hj halive hk (idAt_eq hi)

theorem Registered.closeAll (h : client.Registered) : client.closeAll.Registered := by
  unfold MuxClient.closeAll
  split
  · exact h
  · refine Registers.empty fun i halive => ?_
    obtain ⟨session, hi⟩ := exists_of_alive halive
    rw [aliveAt_eq hi] at halive
    simp only [List.getElem?_mapIdx, Option.map_eq_some_iff] at hi
    obtain ⟨before, hbefore, rfl⟩ := hi
    -- A session that was open is in the table, and gets its `deliverClose`.
    split at halive
    · simp at halive
    · rename_i hany
      have hlookup := (h before.sessionID i).2 ⟨(aliveAt_eq hbefore).trans halive, idAt_eq hbefore⟩
      have hentry := AList.mem_lookup_iff.1 hlookup
      exact hany (any_eq_true.2 ⟨_, hentry, by simp⟩)

theorem Registered.addSession (h : client.Registered) (hclosed : session.closed = false)
    (hcreation : session.creation ≠ .thrown)
    (hfresh : ∀ i, client.aliveAt i = true → client.idAt i ≠ some session.sessionID) :
    (client.addSession session).Registered := by
  have hlt : ∀ i, client.aliveAt i = true → i < client.objects.length := by
    intro i hi
    obtain ⟨_, hi⟩ := exists_of_alive hi
    exact (List.getElem?_eq_some_iff.1 hi).1
  have hself : (client.addSession session).objects[client.objects.length]? = some session := by
    simp [MuxClient.addSession]
  refine Registers.insert h (n := client.objects.length) (fun i hi => (hlt i hi).ne) hfresh ?_ ?_ ?_
  · exact idAt_eq hself
  · intro i hi
    exact idAt_congr (List.getElem?_append_left (hlt i hi))
  · intro i
    rcases lt_trichotomy i client.objects.length with hi | hi | hi
    · rw [aliveAt_congr (List.getElem?_append_left hi)]
      simp [hi.ne]
    · subst hi
      rw [aliveAt_eq hself]
      simp [hclosed, hcreation]
    · have hnone : (client.addSession session).objects[i]? = none := by
        rw [List.getElem?_eq_none_iff]
        simp only [MuxClient.addSession, length_append, length_singleton]
        omega
      have hbefore : client.objects[i]? = none := List.getElem?_eq_none_iff.2 hi.le
      simp [aliveAt, hnone, hbefore, hi.ne']

-- ----
-- Ids

/-- A session whose id comes from the counter. -/
def isOrdinary (session : MuxSession) : Bool := session.globalID.isNone

/-- The ids of the session objects, and which of them come from the counter. -/
def idents (client : MuxClient) : List (Nat × Bool) :=
  client.objects.map fun session => (session.sessionID, isOrdinary session)

/-- The counter has gone round with the ordinary sessions, and each of them has the id
it stood at. -/
structure Numbered (client : MuxClient) : Prop where
  next : client.nextSessionID = client.idents.countP (·.2) % 65535 + 1
  ids : ∀ (i id : Nat) (ordinary : Bool), client.idents[i]? = some (id, ordinary) →
    id = if ordinary then (client.idents.take i).countP (·.2) % 65535 + 1 else 0

theorem Numbered.congr (h : client.Numbered) (hidents : client'.idents = client.idents)
    (hnext : client'.nextSessionID = client.nextSessionID) : client'.Numbered := by
  refine ⟨?_, ?_⟩
  · rw [hnext, hidents, h.next]
  · rw [hidents]
    exact h.ids

theorem idents_modify (hid : ∀ s, (f s).sessionID = s.sessionID)
    (hglobal : ∀ s, (f s).globalID = s.globalID) : (client.modify i f).idents = client.idents := by
  refine List.ext_getElem? fun j => ?_
  simp only [idents, modify, List.getElem?_map, List.getElem?_modify, Option.map_eq_map,
    Option.map_map]
  refine congrArg (Option.map · _) (funext fun s => ?_)
  show ((if i = j then f s else s).sessionID, isOrdinary (if i = j then f s else s)) = _
  split
  · rw [hid, isOrdinary, hglobal]
    rfl
  · rfl

theorem idents_closeAll : client.closeAll.idents = client.idents := by
  unfold MuxClient.closeAll
  split
  · rfl
  · refine List.ext_getElem? fun j => ?_
    simp only [idents, List.getElem?_map, List.getElem?_mapIdx, Option.map_map]
    refine congrArg (Option.map · _) (funext fun s => ?_)
    show (MuxSession.sessionID (if _ then _ else s), isOrdinary (if _ then _ else s)) = _
    split
    · rfl
    · rfl

/-- The counter goes from 65535 back to 1. -/
theorem next_eq (n : Nat) :
    (if (n % 65535 + 1 + 1) &&& 0xFFFF = 0 then 1 else (n % 65535 + 1 + 1) &&& 0xFFFF) =
      (n + 1) % 65535 + 1 := by
  have hand : (n % 65535 + 1 + 1) &&& 0xFFFF = (n % 65535 + 2) % 65536 :=
    Nat.and_two_pow_sub_one_eq_mod (n % 65535 + 2) 16
  rw [hand]
  split <;> omega

/-- `createSession` gives the id the counter stands at. -/
theorem Numbered.addSession (h : client.Numbered)
    (hid : session.sessionID = client.takenID globalID) (hglobal : session.globalID = globalID) :
    ((client.countID globalID).addSession session).Numbered := by
  have hidents : ((client.countID globalID).addSession session).idents =
      client.idents ++ [(session.sessionID, isOrdinary session)] := by
    unfold countID
    split
    · simp [idents, MuxClient.addSession]
    · simp [idents, MuxClient.addSession]
  refine ⟨?_, ?_⟩
  · rw [hidents, countP_append]
    rcases globalID with _ | gid
    · simp only [isOrdinary, hglobal, Option.isNone_none, countP_singleton, if_true]
      show (if (client.nextSessionID + 1) &&& 0xFFFF = 0 then 1
        else (client.nextSessionID + 1) &&& 0xFFFF) = _
      rw [h.next, next_eq]
    · simp only [isOrdinary, hglobal, Option.isNone_some, countP_singleton]
      exact h.next
  · rw [hidents]
    intro i id ordinary hi
    by_cases hlt : i < client.idents.length
    · rw [List.getElem?_append_left hlt] at hi
      rw [take_append_of_le_length hlt.le]
      exact h.ids i id ordinary hi
    · rw [List.getElem?_append_right (by omega)] at hi
      obtain ⟨hzero, heq⟩ := List.getElem?_eq_some_iff.1 hi
      simp only [length_singleton, Nat.lt_one_iff] at hzero
      simp only [hzero, getElem_singleton, Prod.mk.injEq] at heq
      obtain ⟨rfl, rfl⟩ := heq
      rw [hid, takenID, isOrdinary, hglobal, take_append_of_le_length (by omega),
        take_of_length_le (by omega)]
      rcases globalID with _ | gid
      · exact h.next
      · rfl

/-- The number of ordinary sessions from session `i` on. -/
def ordinaryFrom (client : MuxClient) (i : Nat) : Nat := (client.objects.drop i).countP isOrdinary

/-- No open ordinary session is 65535 ordinary sessions old when an ordinary one is
made, no XUDP session is open when one is made, and a `createSession` that throws when
its session has been closed leaves no open session with that id. -/
def Spaced (client : MuxClient) : Event → Prop
  | .createSession _ _ _ globalID =>
    ∀ i < client.objects.length, client.aliveAt i = true →
      if globalID.isSome then client.objects[i]?.any isOrdinary = true
      else client.objects[i]?.any isOrdinary = true → client.ordinaryFrom i < 65535
  | .throws i =>
    client.objects[i]?.any (·.closed) = true →
      ∀ j < client.objects.length, client.aliveAt j = true → client.idAt j ≠ client.idAt i
  | _ => True

instance decidableSpaced (client : MuxClient) : ∀ e, Decidable (client.Spaced e)
  | .createSession _ _ _ globalID => inferInstanceAs (Decidable (∀ i < client.objects.length,
      client.aliveAt i = true → if globalID.isSome then client.objects[i]?.any isOrdinary = true
        else client.objects[i]?.any isOrdinary = true → client.ordinaryFrom i < 65535))
  | .throws i => inferInstanceAs (Decidable (client.objects[i]?.any (·.closed) = true →
      ∀ j < client.objects.length, client.aliveAt j = true → client.idAt j ≠ client.idAt i))
  | .connected | .goOn _ | .wrote _ | .close _ | .receive _ | .idle | .closeAll => isTrue trivial

theorem takenID_fresh (h : client.Numbered)
    (hspaced : client.Spaced (.createSession network host port globalID)) :
    ∀ i, client.aliveAt i = true → client.idAt i ≠ some (client.takenID globalID) := by
  intro i halive hid
  obtain ⟨session, hi⟩ := exists_of_alive halive
  obtain ⟨hlt, -⟩ := List.getElem?_eq_some_iff.1 hi
  have hspace := hspaced i hlt halive
  have hident : client.idents[i]? = some (session.sessionID, isOrdinary session) := by
    simp [idents, hi]
  have hids := h.ids i _ _ hident
  rw [idAt_eq hi, Option.some.injEq, takenID] at hid
  rw [hi, Option.any_some] at hspace
  rcases globalID with _ | gid
  · simp only [Option.isSome_none, Bool.false_eq_true, if_false] at hid hspace
    rw [h.next] at hid
    by_cases hord : isOrdinary session = true
    · have hage := hspace hord
      rw [hord, if_pos rfl] at hids
      -- The sessions before this one and those from it on are all of them.
      have hsum : client.idents.countP (·.2) =
          (client.idents.take i).countP (·.2) + (client.idents.drop i).countP (·.2) := by
        rw [← countP_append, take_append_drop]
      have hfrom : (client.idents.drop i).countP (·.2) = client.ordinaryFrom i := by
        simp only [idents, ordinaryFrom, ← map_drop, countP_map]
        rfl
      have hpos : 0 < client.ordinaryFrom i := by
        unfold ordinaryFrom
        rw [countP_pos_iff]
        refine ⟨session, ?_, hord⟩
        rw [List.mem_iff_getElem?]
        exact ⟨0, by simpa using hi⟩
      omega
    · rw [if_neg hord] at hids
      omega
  · simp only [Option.isSome_some, if_true] at hid hspace
    rw [hspace, if_pos rfl] at hids
    omega

-- ----
-- Steps

/-- What holds of a client in a run with these spaces. -/
structure Sound (client : MuxClient) : Prop where
  registered : client.Registered
  numbered : client.Numbered
  ended : client.closed = true → client.sessions = ∅

theorem Sound.new : new.Sound := by
  refine ⟨Registers.empty fun i halive => ?_, ⟨rfl, ?_⟩, fun hclosed => (by cases hclosed)⟩
  · cases halive
  · intro i id ordinary hi
    cases hi

theorem Sound.not_alive (h : client.Sound) (hclosed : client.closed = true) (i : Nat) :
    client.aliveAt i ≠ true := by
  intro halive
  obtain ⟨session, hi⟩ := exists_of_alive halive
  have hlookup := (h.registered session.sessionID i).2 ⟨halive, idAt_eq hi⟩
  rw [h.ended hclosed] at hlookup
  cases hlookup

/-- `createSession` goes on: only its own session changes, and stays open. -/
theorem Sound.proceed (h : client.Sound) (hi : client.objects[i]? = some session)
    (hcreation : session.creation ≠ .thrown) {creation : Creation} (hne : creation ≠ .thrown) :
    (client.modify i ({ · with creation := creation })).Sound := by
  refine ⟨h.registered.modify hi rfl rfl hcreation hne, ?_, h.ended⟩
  exact h.numbered.congr (idents_modify (fun _ => rfl) fun _ => rfl) rfl

theorem Sound.retire (h : client.Sound) (hi : client.objects[i]? = some session)
    (hid : ∀ s, (f s).sessionID = s.sessionID) (hglobal : ∀ s, (f s).globalID = s.globalID)
    (hdead : (f session).closed = true ∨ (f session).creation = .thrown)
    (hother : ∀ j, client.aliveAt j = true → client.idAt j = some session.sessionID → j = i)
    (hobjects : client'.objects = (client.modify i f).objects)
    (hsessions : client'.sessions = client.sessions.erase session.sessionID)
    (hnext : client'.nextSessionID = client.nextSessionID)
    (hclosed : client'.closed = client.closed) :
    client'.Sound := by
  refine ⟨h.registered.retire hi (hid session) hdead hother hobjects hsessions, ?_, ?_⟩
  · refine h.numbered.congr ?_ hnext
    rw [idents, hobjects]
    exact idents_modify hid hglobal
  · intro hc
    rw [hsessions, h.ended (hclosed.symm.trans hc)]
    rfl

theorem Sound.closeAll (h : client.Sound) : client.closeAll.Sound := by
  have hnext : client.closeAll.nextSessionID = client.nextSessionID := by
    unfold MuxClient.closeAll
    split
    · rfl
    · rfl
  refine ⟨h.registered.closeAll, h.numbered.congr idents_closeAll hnext, ?_⟩
  intro _
  unfold MuxClient.closeAll
  split
  · exact h.ended (by assumption)
  · rfl

theorem Sound.fail (h : client.Sound) (hi : client.objects[i]? = some session)
    (hother : ∀ j, client.aliveAt j = true → client.idAt j = some session.sessionID → j = i) :
    (client.fail i session.sessionID).Sound :=
  h.retire hi (f := ({ · with creation := .thrown })) (fun _ => rfl) (fun _ => rfl) (Or.inr rfl)
    hother rfl rfl rfl rfl

theorem Sound.writeNew (h : client.Sound) (hi : client.objects[i]? = some session)
    (hcreation : session.creation ≠ .thrown) : (client.writeNew i session).Sound := by
  unfold MuxClient.writeNew
  split
  · exact h.proceed hi hcreation (by decide)
  · split
    · rename_i hclosed
      exact h.fail hi fun j hj => absurd hj (h.not_alive hclosed j)
    · have hproceed : (client.modify i ({ · with creation := .writing })).Sound :=
        h.proceed hi hcreation (by decide)
      exact ⟨hproceed.registered, hproceed.numbered.congr rfl rfl, hproceed.ended⟩

theorem Sound.createSession (h : client.Sound)
    (hspaced : client.Spaced (.createSession network host port globalID)) :
    (client.createSession network host port globalID).Sound := by
  unfold MuxClient.createSession
  split
  · exact h
  · rename_i hopen
    set session : MuxSession :=
      ⟨client.takenID globalID, network, host, port, globalID, false, .connecting⟩
    have hcount : (client.countID globalID).objects = client.objects ∧
        (client.countID globalID).sessions = client.sessions ∧
        (client.countID globalID).closed = client.closed := by
      unfold countID
      split
      · exact ⟨rfl, rfl, rfl⟩
      · exact ⟨rfl, rfl, rfl⟩
    obtain ⟨hobjects, hsessions, hclosed⟩ := hcount
    have hregistered : (client.countID globalID).Registered := by
      unfold Registered idAt aliveAt
      rw [hobjects, hsessions]
      exact h.registered
    have hadded : ((client.countID globalID).addSession session).resetIdleTimer.Sound := by
      have hnumbered : ((client.countID globalID).addSession session).Numbered :=
        h.numbered.addSession rfl rfl
      refine ⟨?_, hnumbered.congr rfl rfl, ?_⟩
      · have hfresh : ∀ i, (client.countID globalID).aliveAt i = true →
            (client.countID globalID).idAt i ≠ some session.sessionID := by
          unfold idAt aliveAt
          rw [hobjects]
          exact takenID_fresh h.numbered hspaced
        exact hregistered.addSession rfl (fun hthrown => (by cases hthrown)) hfresh
      · intro hc
        exact absurd (hclosed.symm.trans hc) hopen
    show MuxClient.Sound (if _ then _ else _)
    split
    · refine hadded.writeNew ?_ fun hthrown => (by cases hthrown)
      show ((client.countID globalID).objects ++ [session])[client.objects.length]? = _
      rw [hobjects]
      simp
    · exact ⟨hadded.registered, hadded.numbered.congr rfl rfl, hadded.ended⟩

theorem removeSession_frame (client : MuxClient) (id : Nat) :
    (client.removeSession id).objects = client.objects ∧
    (client.removeSession id).sessions = client.sessions.erase id ∧
    (client.removeSession id).nextSessionID = client.nextSessionID ∧
    (client.removeSession id).closed = client.closed := by
  unfold removeSession
  simp only
  split
  · exact ⟨rfl, rfl, rfl, rfl⟩
  · exact ⟨rfl, rfl, rfl, rfl⟩

theorem Sound.close (h : client.Sound) (i : Nat) : (client.close i).Sound := by
  unfold MuxClient.close
  split
  · exact h
  · rename_i session hi
    split
    · exact h
    · rename_i hdone
      obtain ⟨hclosed, hreturned⟩ := not_or.1 hdone
      rw [not_not] at hreturned
      have halive : client.aliveAt i = true := by simp [aliveAt_eq hi, hclosed, hreturned]
      obtain ⟨hobjects, hsessions, hnext, hc⟩ := removeSession_frame
        { client.modify i ({ · with closed := true }) with
          written := client.written ++
            if client.closed then []
            else [(⟨session.sessionID, .ended, 0, none, none, none, none⟩, none)] }
            session.sessionID
      exact h.retire hi (f := ({ · with closed := true })) (fun _ => rfl)
        (fun _ => rfl) (Or.inl rfl)
        (h.registered.only hi halive) hobjects hsessions hnext hc

def due (frame : MuxFrame) : Option Delivery :=
  match frame.1.status, frame.2 with
  | .keep, some payload => if payload.isEmpty then none else some (.data payload)
  | .ended, _ => some .ended
  | _, _ => none

theorem openAt_of_alive (h : client.aliveAt i = true) : client.openAt i = true := by
  obtain ⟨session, hi⟩ := exists_of_alive h
  rw [aliveAt_eq hi] at h
  simp only [openAt, hi]
  exact (Bool.and_eq_true_iff.1 h).1

/-- A frame is delivered to the session that was opened with its id and is open, if
there is one. -/
theorem Registered.delivery (h : client.Registered) (frame : MuxFrame) (i : Nat) (d : Delivery) :
    (client.handleFrame frame).2 = some (i, d) ↔
      due frame = some d ∧ client.aliveAt i = true ∧ client.idAt i = some frame.1.sessionID := by
  rw [← h frame.1.sessionID i]
  obtain ⟨metadata, payload⟩ := frame
  unfold handleFrame due
  simp only
  rcases hlookup : client.sessions.lookup metadata.sessionID with _ | k
  · rcases metadata.status with _ | _ | _ | _ <;> simp
  · have hopen := openAt_of_alive ((h metadata.sessionID k).1 hlookup).1
    rcases metadata.status with _ | _ | _ | _
    · simp
    · rcases payload with _ | payload
      · simp
      · by_cases hempty : payload.isEmpty = true
        · simp [hempty]
        · simp [hempty, hopen, and_comm]
    · simp [hopen, and_comm]
    · simp

theorem handled_cases (client : MuxClient) (frame : MuxFrame) :
    client.handled frame = client ∨ frame.1.status = .ended ∧ ∃ i,
      client.sessions.lookup frame.1.sessionID = some i ∧
      client.handled frame =
        { client with sessions := client.sessions.erase frame.1.sessionID }.modify i
        ({ · with closed := true }) := by
  unfold handled handleFrame
  split
  · left
    split
    · split
      · rfl
      · rfl
    · rfl
  · rename_i i hstatus hlookup
    exact Or.inr ⟨hstatus, i, hlookup, rfl⟩
  · left
    rfl

theorem Sound.handled (h : client.Sound) (frame : MuxFrame) : (client.handled frame).Sound := by
  rcases handled_cases client frame with heq | ⟨-, i, hlookup, heq⟩
  · rw [heq]
    exact h
  · obtain ⟨halive, hid⟩ := (h.registered _ i).1 hlookup
    obtain ⟨session, hi⟩ := exists_of_alive halive
    obtain hsession : session.sessionID = frame.1.sessionID := by
      simpa [idAt_eq hi] using hid
    rw [heq, ← hsession]
    exact h.retire hi (f := ({ · with closed := true })) (fun _ => rfl) (fun _ => rfl) (Or.inl rfl)
      (h.registered.only hi halive) rfl rfl rfl rfl

theorem Sound.handleReceivedData (h : client.Sound) (inet : InetAddress) (data : Bytes) :
    (client.handleReceivedData inet data).Sound := by
  have hbuffer : ∀ buffer, MuxClient.Sound { client with buffer := buffer } :=
    fun _ => ⟨h.registered, h.numbered.congr rfl rfl, h.ended⟩
  unfold MuxClient.handleReceivedData
  split
  · exact run_invariant (fun _ frame h => h.handled frame) (hbuffer _) _
  · exact (hbuffer _).closeAll

theorem waitingAt_eq_some {creation : Creation} (h : client.waitingAt i creation = some session) :
    client.objects[i]? = some session ∧ session.creation = creation := by
  unfold waitingAt at h
  simpa [Option.filter_eq_some_iff] using h

theorem Sound.step (inet : InetAddress) (client : MuxClient) (e : Event) (hspaced : client.Spaced e)
    (h : client.Sound) : (client.step inet e).Sound := by
  rcases e with ⟨network, host, port, globalID⟩ | _ | i | i | i | i | data | _ | _
  · exact h.createSession hspaced
  · show MuxClient.Sound (if _ then _ else _)
    split
    · exact ⟨h.registered, h.numbered.congr rfl rfl, h.ended⟩
    · exact h
  · show MuxClient.Sound (match client.waitingAt i .connecting with | some session => _ | none => _)
    split
    · rename_i session hwaiting
      obtain ⟨hi, hcreation⟩ := waitingAt_eq_some hwaiting
      split
      · exact h.writeNew hi (by simp [hcreation])
      · exact h
    · exact h
  · show MuxClient.Sound (match client.waitingAt i .writing with | some session => _ | none => _)
    split
    · rename_i session hwaiting
      obtain ⟨hi, hcreation⟩ := waitingAt_eq_some hwaiting
      exact h.proceed hi (by simp [hcreation]) (by decide)
    · exact h
  · show MuxClient.Sound (match client.objects[i]? with | some session => _ | none => _)
    split
    · rename_i session hi
      split
      · rename_i hwaits
        refine h.fail hi ?_
        by_cases hclosed : session.closed = true
        · intro j halive hid
          obtain ⟨other, hj⟩ := exists_of_alive halive
          have hlt := (List.getElem?_eq_some_iff.1 hj).1
          exact absurd (hid.trans (idAt_eq hi).symm) (hspaced (by simp [hi, hclosed]) j hlt halive)
        · refine h.registered.only hi ?_
          rw [aliveAt_eq hi]
          rcases hwaits with hwaits | hwaits
          · simp [hclosed, hwaits]
          · simp [hclosed, hwaits]
      · exact h
    · exact h
  · exact h.close i
  · exact h.handleReceivedData inet data
  · show MuxClient.Sound (if _ then _ else _)
    split
    · exact h.closeAll
    · exact h
  · exact h.closeAll

-- ----
-- Identity

/-- The step takes session `i` out of the table and no other one. -/
def RemovesOnly (client client' : MuxClient) (i : Nat) : Prop :=
  ∀ k j, client'.sessions.lookup k = some j ↔ client.sessions.lookup k = some j ∧ j ≠ i

/-- A frame is for the session that was opened with its id and is still open: that one
gets what the frame has, and an END takes that one out of the table. -/
def Delivers (client : MuxClient) (frame : MuxFrame) : Prop :=
  (∀ i d, (client.handleFrame frame).2 = some (i, d) ↔
    due frame = some d ∧ client.aliveAt i = true ∧ client.idAt i = some frame.1.sessionID) ∧
  (∀ i, (client.handleFrame frame).2 = some (i, .ended) →
    RemovesOnly client (client.handled frame) i) ∧
  ((∀ i, (client.handleFrame frame).2 ≠ some (i, .ended)) → client.handled frame = client)

/-- What every step does with the sessions: the id of a new one is in no entry of the
table and no entry is lost, a session that is closed, and one whose `createSession`
throws, is taken out alone, and the frames are delivered. -/
def Identity (inet : InetAddress) (client : MuxClient) : Event → Prop
  | .createSession network host port globalID =>
    client.closed = false →
      client.sessions.lookup (client.takenID globalID) = none ∧
      ∀ k i, client.sessions.lookup k = some i →
        (client.createSession network host port globalID).sessions.lookup k = some i
  | .close i => client.close i = client ∨ RemovesOnly client (client.close i) i
  | .throws i => client.step inet (.throws i) = client ∨
      RemovesOnly client (client.step inet (.throws i)) i
  | .receive data =>
    ∀ buffer frames, feed inet client.buffer data = (buffer, some frames) →
      RunAll handled Delivers { client with buffer := buffer } frames
  | _ => True

/-- Session `i` is no longer open, and the objects of the others are as they were. -/
theorem RemovesOnly.of_sound (h : client.Sound) (h' : client'.Sound)
    (hne : ∀ j, j ≠ i → client'.objects[j]? = client.objects[j]?)
    (hdead : client'.aliveAt i ≠ true) :
    RemovesOnly client client' i := by
  intro k j
  rw [h.registered k j, h'.registered k j]
  by_cases hj : j = i
  · subst hj
    simp [hdead]
  · show client'.aliveAt j = true ∧ client'.idAt j = some k ↔ _
    rw [aliveAt_congr (hne j hj), idAt_congr (hne j hj)]
    simp [hj]

theorem Sound.delivers (h : client.Sound) (frame : MuxFrame) : client.Delivers frame := by
  refine ⟨h.registered.delivery frame, ?_, ?_⟩
  · intro i hi
    obtain ⟨hdue, halive, hid⟩ := (h.registered.delivery frame i .ended).1 hi
    have hlookup := (h.registered frame.1.sessionID i).2 ⟨halive, hid⟩
    obtain ⟨session, hobject⟩ := exists_of_alive halive
    have hended : frame.1.status = .ended := by
      unfold due at hdue
      split at hdue
      · split at hdue <;> cases hdue
      · assumption
      · cases hdue
    have heq : client.handled frame =
        { client with sessions := client.sessions.erase frame.1.sessionID }.modify i
          ({ · with closed := true }) := by
      simp only [MuxClient.handled, handleFrame, hended, hlookup]
    refine RemovesOnly.of_sound h (h.handled frame) ?_ ?_
    · intro j hj
      rw [heq]
      exact getElem?_modify_ne _ hj
    · have hself : (client.handled frame).objects[i]? = some { session with closed := true } := by
        rw [heq]
        exact getElem?_modify_self _ hobject
      rw [aliveAt_eq hself]
      simp
  · intro hnone
    rcases handled_cases client frame with heq | ⟨hended, i, hlookup, -⟩
    · exact heq
    · refine absurd ((h.registered.delivery frame i .ended).2 ⟨?_, (h.registered _ i).1 hlookup⟩)
        (hnone i)
      simp [due, hended]

theorem close_cases (client : MuxClient) (i : Nat) :
    client.close i = client ∨ ∃ session, client.objects[i]? = some session ∧
      (client.close i).objects = (client.modify i ({ · with closed := true })).objects := by
  unfold MuxClient.close
  split
  · exact Or.inl rfl
  · split
    · exact Or.inl rfl
    · exact Or.inr ⟨_, by assumption, (removeSession_frame _ _).1⟩

theorem throws_cases (inet : InetAddress) (client : MuxClient) (i : Nat) :
    client.step inet (.throws i) = client ∨ ∃ session, client.objects[i]? = some session ∧
      client.step inet (.throws i) = client.fail i session.sessionID := by
  show (match client.objects[i]? with | some session => _ | none => _) = _ ∨ _
  split
  · rename_i session hi
    split
    · rename_i hwaits
      exact Or.inr ⟨session, hi, by simp [step, hi, hwaits]⟩
    · exact Or.inl rfl
  · exact Or.inl rfl

theorem createSession_sessions (hopen : client.closed = false) :
    (client.createSession network host port globalID).sessions =
      client.sessions.insert (client.takenID globalID) client.objects.length := by
  unfold MuxClient.createSession writeNew
  rcases globalID with _ | gid
  · rcases hconnected : client.connected with _ | _ <;>
      simp [hopen, countID, MuxClient.addSession, resetIdleTimer, MuxClient.modify]
  · rcases hconnected : client.connected with _ | _ <;>
      simp [hopen, countID, MuxClient.addSession, resetIdleTimer, MuxClient.modify]

theorem Sound.identity (inet : InetAddress) (h : client.Sound) {e : Event}
    (hspaced : client.Spaced e) :
    client.Identity inet e := by
  rcases e with ⟨network, host, port, globalID⟩ | _ | i | i | i | i | data | _ | _
  · intro hopen
    have hnone : client.sessions.lookup (client.takenID globalID) = none := by
      rcases hlookup : client.sessions.lookup (client.takenID globalID) with _ | i
      · rfl
      · obtain ⟨halive, hid⟩ := (h.registered _ i).1 hlookup
        exact absurd hid (takenID_fresh h.numbered hspaced i halive)
    refine ⟨hnone, ?_⟩
    intro k i hi
    rw [createSession_sessions hopen, AList.lookup_insert_ne]
    · exact hi
    · rintro rfl
      rw [hnone] at hi
      cases hi
  · trivial
  · trivial
  · trivial
  · rcases throws_cases inet client i with heq | ⟨session, hi, heq⟩
    · exact Or.inl heq
    · right
      refine RemovesOnly.of_sound h (h.step inet client _ hspaced) ?_ ?_
      · intro j hj
        rw [heq]
        exact getElem?_modify_ne _ hj
      · rw [heq]
        have hself : (client.fail i session.sessionID).objects[i]? =
            some { session with creation := .thrown } := getElem?_modify_self _ hi
        rw [aliveAt_eq hself]
        simp
  · rcases close_cases client i with heq | ⟨session, hi, hobjects⟩
    · exact Or.inl heq
    · right
      refine RemovesOnly.of_sound h (h.close i) ?_ ?_
      · intro j hj
        rw [hobjects]
        exact getElem?_modify_ne _ hj
      · have hself : (client.close i).objects[i]? = some { session with closed := true } := by
          rw [hobjects]
          exact getElem?_modify_self _ hi
        rw [aliveAt_eq hself]
        simp
  · intro buffer frames _
    have hbuffer : MuxClient.Sound { client with buffer := buffer } :=
      ⟨h.registered, h.numbered.congr rfl rfl, h.ended⟩
    exact (runAll_true MuxClient.handled _ frames).of_invariant (fun _ frame _ h => h.handled frame)
      (fun _ frame _ h => h.delivers frame) hbuffer
  · trivial
  · trivial

/-- In a run with these spaces every new session has an id of its own, no session is
displaced or removed for another one, and every frame reaches the session it is for. -/
theorem run_identity (inet : InetAddress) (es : List Event) (h : RunAll (step inet) Spaced new es) :
    RunAll (step inet) (Identity inet) new es :=
  h.of_invariant (Sound.step inet)
    (fun _ _ hspaced hsound => hsound.identity inet hspaced) Sound.new

/-- Two sessions and an XUDP session; one is closed and the server ends another. -/
def sessionRun : List Event :=
  [.createSession .tcp "a.test".toList 443 none, .connected, .goOn 0, .wrote 0,
    .createSession .udp "b.test".toList 53 none, .createSession .udp "c.test".toList 53 (some [1]),
    .wrote 1, .close 0,
    .receive (encodeMuxFrame noInet (⟨2, .ended, 0, none, none, none, none⟩, none)),
    .createSession .tcp "d.test".toList 443 none]

theorem run_identity_sessionRun :
    RunAll (step noInet) Spaced new sessionRun ∧
      RunAll (step noInet) (Identity noInet) new sessionRun :=
  have h : RunAll (step noInet) Spaced new sessionRun := by decide
  ⟨h, run_identity noInet sessionRun h⟩

-- ----
-- The counter comes round

def opening : Event := .createSession .tcp "a.test".toList 443 none

/-- The client after `n` calls of `createSession`, while it connects. -/
def opened (n : Nat) : MuxClient := run (step noInet) new (List.replicate n opening)

theorem opened_succ (n : Nat) : opened (n + 1) = (opened n).step noInet opening := by
  rw [opened, replicate_succ', run_append]
  rfl

/-- None of the sessions is closed, and the client is not connected. -/
theorem opened_frame (n : Nat) :
    (opened n).objects.length = n ∧ (opened n).closed = false ∧ (opened n).connected = false ∧
    ∀ session ∈ (opened n).objects,
      session.closed = false ∧ session.creation = .connecting ∧ session.globalID = none := by
  induction n with
  | zero => exact ⟨rfl, rfl, rfl, fun session hsession => (by cases hsession)⟩
  | succ n ih =>
    obtain ⟨hlen, hclosed, hconnected, hall⟩ := ih
    rw [opened_succ]
    have hobjects : ((opened n).step noInet opening).objects = (opened n).objects ++
        [⟨(opened n).nextSessionID, .tcp, "a.test".toList, 443, none, false, .connecting⟩] := by
      simp only [step, opening, createSession, hclosed, hconnected]
      rfl
    refine ⟨?_, ?_, ?_, ?_⟩
    · rw [hobjects, length_append, hlen]
      rfl
    · simp only [step, opening, createSession, hclosed, hconnected]
      exact hclosed
    · simp only [step, opening, createSession, hclosed, hconnected]
      exact hconnected
    · intro session hsession
      rw [hobjects, mem_append, mem_singleton] at hsession
      rcases hsession with hsession | rfl
      · exact hall session hsession
      · exact ⟨rfl, rfl, rfl⟩

theorem sound_opened (hn : n ≤ 65535) : (opened n).Sound := by
  induction n with
  | zero => exact Sound.new
  | succ n ih =>
    rw [opened_succ]
    refine Sound.step noInet _ _ ?_ (ih (by omega))
    intro i _ _ _
    have hage : (opened n).ordinaryFrom i ≤ ((opened n).objects.drop i).length := countP_le_length
    rw [length_drop, (opened_frame n).1] at hage
    omega

theorem opened_next (hn : n ≤ 65535) : (opened n).nextSessionID = n % 65535 + 1 := by
  have hcount : (opened n).idents.countP (·.2) = n := by
    rw [idents, countP_map, countP_eq_length.2, (opened_frame n).1]
    intro session hsession
    have hglobal := ((opened_frame n).2.2.2 session hsession).2.2
    simp [isOrdinary, hglobal]
  rw [(sound_opened hn).numbered.next, hcount]

theorem opened_first (hn : n ≤ 65535) :
    (opened (n + 1)).aliveAt 0 = true ∧ (opened (n + 1)).idAt 0 = some 1 := by
  induction n with
  | zero => exact ⟨by decide, by decide⟩
  | succ n ih =>
    obtain ⟨hlen, hclosed, hconnected, -⟩ := opened_frame (n + 1)
    have hkeep : (opened (n + 1 + 1)).objects[0]? = (opened (n + 1)).objects[0]? := by
      rw [opened_succ (n + 1)]
      simp only [step, opening, createSession, hclosed, hconnected]
      exact List.getElem?_append_left (by simp [countID, hlen])
    rw [aliveAt_congr hkeep, idAt_congr hkeep]
    exact ih (by omega)

theorem opened_displaced (hn : n = 65535) :
    ¬(opened n).Identity noInet opening ∧ (opened (n + 1)).aliveAt 0 = true ∧
    (opened (n + 1)).idAt 0 = some 1 ∧ (opened (n + 1)).sessions.lookup 1 = some n := by
  obtain ⟨hlen, hopen, -⟩ := opened_frame n
  have hnext : (opened n).takenID none = 1 := by
    show (opened n).nextSessionID = 1
    rw [opened_next hn.le, hn]
  have hfirst : (opened n).aliveAt 0 = true ∧ (opened n).idAt 0 = some 1 := by
    obtain ⟨m, rfl⟩ : ∃ m, n = m + 1 := ⟨65534, hn⟩
    exact opened_first (by omega)
  refine ⟨?_, (opened_first hn.le).1, (opened_first hn.le).2, ?_⟩
  · intro hidentity
    have hnone := (hidentity hopen).1
    rw [hnext, ((sound_opened hn.le).registered 1 0).2 hfirst] at hnone
    cases hnone
  · rw [opened_succ n]
    show ((opened n).createSession _ _ _ none).sessions.lookup 1 = _
    rw [createSession_sessions hopen, hnext, AList.lookup_insert, hlen]

/-- The session made after 65535 others takes the id of the first one, which is still
open, and its place in the table. -/
theorem session_displaced :
    ¬(opened 65535).Identity noInet opening ∧ (opened 65536).aliveAt 0 = true ∧
    (opened 65536).idAt 0 = some 1 ∧ (opened 65536).sessions.lookup 1 = some 65535 :=
  opened_displaced rfl

end MuxClient

end Anywhere.Mux
