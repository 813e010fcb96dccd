import Mathlib.Data.List.Nodup
import Anywhere.Lib.Machine

/-!
# Anywhere — the send lock of `TlsRecordConnection`

`send` holds the lock from the encryption of its records until the socket has taken
all of them. When the socket takes only a part, the coroutine is suspended with the
lock, and goes on where its dispatcher runs it; for most sends that is the lwIP
executor. `sendAsync` and `sendCloseNotify` take the same lock in `runBlocking`, on
the executor: while they wait, the executor runs nothing.

* `Deadlocked` — the executor waits for the lock and its holder waits for the executor.
* `Unhindered` — the executor takes the lock only when none of its own sends is under way.
* `run_not_deadlocked` — then it is never deadlocked.
-/

namespace Anywhere.Tls.SendLock

open Lib List

-- ----
-- The model

/-- Where a `send` is: it waits for the lock; it has been handed the lock and waits for
its dispatcher; it is suspended in `NioSocket.send`; or the socket has resumed it and it
waits for its dispatcher. All but the first hold the lock. -/
inductive Place
  | waiting | granted | writing | written
  deriving DecidableEq

/-- A `send` that has been called and has not returned. -/
structure Send where
  id : Nat
  onExecutor : Bool
  cancelled : Bool
  place : Place
  deriving DecidableEq

/-- What the executor waits for the lock for. -/
inductive Blocking
  | sendAsync | closeNotify

/-- `Mutex` hands the lock over in the order of the `lock` calls. -/
inductive Waiter
  | send (id : Nat)
  | executor
  deriving DecidableEq

/-- The connection: whether it still has its transport, the sends under way, the lock,
and the executor. -/
structure TlsRecordConnection where
  connected : Bool
  sends : List Send
  holder : Option Nat
  waiters : List Waiter
  blocked : Option Blocking
  nextId : Nat

namespace TlsRecordConnection

def new : TlsRecordConnection := ⟨true, [], none, [], none, 0⟩

/-- A `send` gets to another place. -/
def move (s : TlsRecordConnection) (id : Nat) (place : Place) : TlsRecordConnection :=
  { s with
    sends := s.sends.map fun send => if send.id = id then { send with place := place } else send }

/-- `forceCancel` of the socket resumes the sends that wait in it. -/
def forceCancel (s : TlsRecordConnection) : TlsRecordConnection :=
  { s with
    connected := false
    sends := s.sends.map fun send => if send.place = .writing then { send with place := .written }
    else send }

/-- The executor has the lock: what it does with it does not suspend, and `cancel` goes
on behind `sendCloseNotify`. -/
def unblock (s : TlsRecordConnection) : TlsRecordConnection :=
  match s.blocked with
  | some .closeNotify => { s with blocked := none }.forceCancel
  | some .sendAsync => { s with blocked := none }
  | none => s

/-- `unlock`, for those who wait. -/
def handOver (s : TlsRecordConnection) : List Waiter → TlsRecordConnection
  | [] => { s with holder := none, waiters := [] }
  | .send id :: waiters => { s with holder := some id, waiters := waiters }.move id .granted
  | .executor :: waiters => s.unblock.handOver waiters

/-- A `send` returns, or throws, and the lock is released. -/
def leave (s : TlsRecordConnection) (id : Nat) : TlsRecordConnection :=
  { s with sends := s.sends.filter (·.id ≠ id) }.handOver s.waiters

/-- `send`; `whole` is whether the socket takes the records at once. -/
def send (s : TlsRecordConnection) (onExecutor whole : Bool) : TlsRecordConnection :=
  if onExecutor ∧ s.blocked.isSome then s
  else if s.holder.isSome then
    { s with
      sends := s.sends ++ [⟨s.nextId, onExecutor, false, .waiting⟩]
      waiters := s.waiters ++ [.send s.nextId]
      nextId := s.nextId + 1 }
  else if s.connected ∧ !whole then
    { s with
      sends := s.sends ++ [⟨s.nextId, onExecutor, false, .writing⟩]
      holder := some s.nextId
      nextId := s.nextId + 1 }
  else s

/-- The dispatcher runs a `send` that waits for it. One that was cancelled, or finds no
transport, throws. -/
def dispatch (s : TlsRecordConnection) (id : Nat) (whole : Bool) : TlsRecordConnection :=
  match s.sends.find? (·.id = id) with
  | none => s
  | some send =>
    if send.onExecutor ∧ s.blocked.isSome then s
    else
      match send.place with
      | .granted =>
        if send.cancelled ∨ !s.connected ∨ whole then s.leave id else s.move id .writing
      | .written => s.leave id
      | .waiting | .writing => s

/-- `runBlocking` with the lock, on the executor. -/
def blocking (s : TlsRecordConnection) (what : Blocking) : TlsRecordConnection :=
  if s.holder.isSome then { s with blocked := some what, waiters := s.waiters ++ [.executor] }
  else { s with blocked := some what }.unblock

/-- The scope of the connection is cancelled: of its sends, those that wait for the lock
are gone, and the others find out when they are dispatched. -/
def cancelScope (s : TlsRecordConnection) (scope : List Nat) : TlsRecordConnection :=
  let gone := s.sends.filter fun send => send.id ∈ scope ∧ send.place = .waiting
  { s with
    sends := (s.sends.filter fun send => !(send.id ∈ scope ∧ send.place = .waiting)).map fun send =>
      if send.id ∈ scope then { send with cancelled := true } else send
    waiters := s.waiters.filter fun waiter => gone.all fun send => waiter ≠ .send send.id }

inductive Event
  | send (onExecutor whole : Bool)
  /-- The selector has written what was left of the records, or could not. -/
  | socketResumes (id : Nat)
  | dispatch (id : Nat) (whole : Bool)
  | sendAsync
  /-- `LwipTcpConnection.releaseProtocol`: the scope is cancelled, then `cancel` called. -/
  | releaseProtocol (scope : List Nat)
  deriving Repr

def step (s : TlsRecordConnection) : Event → TlsRecordConnection
  | .send onExecutor whole => s.send onExecutor whole
  | .socketResumes id =>
    match s.sends.find? (·.id = id) with
    | none => s
    | some send => if send.place = .writing then s.move id .written else s
  | .dispatch id whole => s.dispatch id whole
  | .sendAsync => if s.blocked.isSome then s else s.blocking .sendAsync
  | .releaseProtocol scope =>
    if s.blocked.isSome then s else (s.cancelScope scope).blocking .closeNotify

/-- The executor waits for the lock, and the send that holds it waits for the executor. -/
def Deadlocked (s : TlsRecordConnection) : Prop :=
  s.blocked.isSome ∧ ∃ send ∈ s.sends, send.onExecutor = true ∧ s.holder = some send.id

/-- The executor takes the lock only when none of its own sends is under way, apart from
those that `releaseProtocol` cancels before they have the lock. -/
def Unhindered (s : TlsRecordConnection) : Event → Prop
  | .sendAsync => ∀ send ∈ s.sends, send.onExecutor = false
  | .releaseProtocol scope =>
    ∀ send ∈ s.sends, send.onExecutor = true → send.id ∈ scope ∧ send.place = .waiting
  | _ => True

instance decidableUnhindered (s : TlsRecordConnection) : ∀ e, Decidable (s.Unhindered e)
  | .sendAsync => inferInstanceAs (Decidable (∀ send ∈ s.sends, send.onExecutor = false))
  | .releaseProtocol scope => inferInstanceAs (Decidable (∀ send ∈ s.sends, send.onExecutor = true →
      send.id ∈ scope ∧ send.place = .waiting))
  | .send _ _ | .socketResumes _ | .dispatch _ _ => isTrue trivial

-- ----
-- The lock

variable {s : TlsRecordConnection}

/-- A send that does not wait for the lock holds it, and no two sends have one id. -/
structure Locked (s : TlsRecordConnection) : Prop where
  held : ∀ send ∈ s.sends, send.place ≠ .waiting → s.holder = some send.id
  fresh : ∀ send ∈ s.sends, send.id < s.nextId
  ids : (s.sends.map (·.id)).Nodup

theorem ids_move (s : TlsRecordConnection) (id : Nat) (place : Place) :
    (s.move id place).sends.map (·.id) = s.sends.map (·.id) := by
  simp only [move, map_map]
  refine map_congr_left fun send _ => ?_
  show Send.id (if _ then _ else _) = _
  split <;> rfl

theorem ids_forceCancel (s : TlsRecordConnection) :
    s.forceCancel.sends.map (·.id) = s.sends.map (·.id) := by
  simp only [forceCancel, map_map]
  refine map_congr_left fun send _ => ?_
  show Send.id (if _ then _ else _) = _
  split <;> rfl

theorem fresh_iff {sends sends' : List Send} (h : sends'.map (·.id) = sends.map (·.id)) (n : Nat) :
    (∀ send ∈ sends', send.id < n) ↔ ∀ send ∈ sends, send.id < n := by
  have hmap : ∀ l : List Send, (∀ send ∈ l, send.id < n) ↔ ∀ id ∈ l.map (·.id), id < n := by
    intro l
    simp
  rw [hmap, hmap, h]

/-- Only the send that holds the lock gets to another place. -/
theorem Locked.move (h : s.Locked) {id : Nat} (hholder : s.holder = some id) (place : Place) :
    (s.move id place).Locked := by
  refine ⟨?_, (fresh_iff (ids_move s id place) _).2 h.fresh, by rw [ids_move]; exact h.ids⟩
  intro send' hsend' hplace
  obtain ⟨send, hsend, rfl⟩ := mem_map.1 hsend'
  by_cases hid : send.id = id
  · simp only [hid, if_true] at hplace ⊢
    exact hholder
  · simp only [hid, if_false] at hplace ⊢
    exact h.held send hsend hplace

/-- When nobody holds the lock, all sends wait for it. -/
structure Idle (s : TlsRecordConnection) : Prop where
  waiting : ∀ send ∈ s.sends, send.place = .waiting
  fresh : ∀ send ∈ s.sends, send.id < s.nextId
  ids : (s.sends.map (·.id)).Nodup

theorem Idle.forceCancel (h : s.Idle) : s.forceCancel.Idle := by
  refine ⟨?_, (fresh_iff (ids_forceCancel s) _).2 h.fresh, by rw [ids_forceCancel]; exact h.ids⟩
  intro send' hsend'
  obtain ⟨send, hsend, rfl⟩ := mem_map.1 hsend'
  have hwaiting := h.waiting send hsend
  simp [hwaiting]

theorem Idle.unblock (h : s.Idle) : s.unblock.Idle := by
  unfold TlsRecordConnection.unblock
  split
  · refine Idle.forceCancel ?_
    exact ⟨h.waiting, h.fresh, h.ids⟩
  · exact ⟨h.waiting, h.fresh, h.ids⟩
  · exact h

theorem Idle.locked (h : s.Idle) : s.Locked :=
  ⟨fun send hsend hplace => absurd (h.waiting send hsend) hplace, h.fresh, h.ids⟩

theorem Idle.handOver (waiters : List Waiter) (h : s.Idle) : (s.handOver waiters).Locked := by
  induction waiters generalizing s with
  | nil => exact ⟨fun send hsend hplace => absurd (h.waiting send hsend) hplace, h.fresh, h.ids⟩
  | cons waiter waiters ih =>
    rcases waiter with id | _
    · refine Locked.move ?_ rfl .granted
      exact ⟨fun send hsend hplace => absurd (h.waiting send hsend) hplace, h.fresh, h.ids⟩
    · exact ih h.unblock

/-- The send that holds the lock leaves, and the others wait for it. -/
theorem Locked.leave (h : s.Locked) {id : Nat} (hholder : s.holder = some id) :
    (s.leave id).Locked := by
  refine Idle.handOver s.waiters ⟨?_, ?_, ?_⟩
  · intro send hsend
    obtain ⟨hsend, hid⟩ := mem_filter.1 hsend
    by_contra hplace
    have hself := h.held send hsend hplace
    rw [hholder, Option.some.injEq] at hself
    simp [hself] at hid
  · intro send hsend
    exact h.fresh send (mem_filter.1 hsend).1
  · exact (filter_sublist.map _).nodup h.ids

theorem Locked.add (h : s.Locked) {connection : TlsRecordConnection} {send : Send}
    (hid : send.id = s.nextId) (hsends : connection.sends = s.sends ++ [send])
    (hnext : connection.nextId = s.nextId + 1)
    (hheld : ∀ other ∈ s.sends, other.place ≠ .waiting → connection.holder = some other.id)
    (hself : send.place ≠ .waiting → connection.holder = some send.id) : connection.Locked := by
  refine ⟨?_, ?_, ?_⟩
  · rw [hsends]
    intro other hother hplace
    rcases mem_append.1 hother with hother | hother
    · exact hheld other hother hplace
    · obtain rfl := mem_singleton.1 hother
      exact hself hplace
  · rw [hsends, hnext]
    intro other hother
    rcases mem_append.1 hother with hother | hother
    · exact Nat.lt_succ_of_lt (h.fresh other hother)
    · obtain rfl := mem_singleton.1 hother
      omega
  · rw [hsends, map_append, nodup_append]
    refine ⟨h.ids, by simp, ?_⟩
    intro a ha b hb hab
    obtain ⟨other, hother, rfl⟩ := mem_map.1 ha
    have hlt := h.fresh other hother
    simp only [map_cons, map_nil, mem_singleton] at hb
    omega

theorem Locked.send (h : s.Locked) (onExecutor whole : Bool) :
    (s.send onExecutor whole).Locked := by
  unfold TlsRecordConnection.send
  split
  · exact h
  · split
    · exact h.add rfl rfl rfl h.held fun hplace => absurd rfl hplace
    · rename_i hholder
      split
      · refine h.add rfl rfl rfl ?_ fun _ => rfl
        intro other hother hplace
        rw [h.held other hother hplace] at hholder
        simp at hholder
      · exact h

theorem find_some {id : Nat} {send : Send} (h : s.sends.find? (·.id = id) = some send) :
    send ∈ s.sends ∧ send.id = id :=
  ⟨List.mem_of_find?_eq_some h, by simpa using List.find?_some h⟩

theorem Locked.dispatch (h : s.Locked) (id : Nat) (whole : Bool) :
    (s.dispatch id whole).Locked := by
  unfold TlsRecordConnection.dispatch
  split
  · exact h
  · rename_i send hfind
    obtain ⟨hsend, rfl⟩ := find_some hfind
    split
    · exact h
    · split
      · rename_i hplace
        have hholder := h.held send hsend (by simp [hplace])
        split
        · exact h.leave hholder
        · exact h.move hholder .writing
      · rename_i hplace
        exact h.leave (h.held send hsend (by simp [hplace]))
      · exact h
      · exact h

theorem Locked.blocking (h : s.Locked) (what : Blocking) : (s.blocking what).Locked := by
  unfold TlsRecordConnection.blocking
  split
  · exact ⟨h.held, h.fresh, h.ids⟩
  · rename_i hholder
    have hidle : Idle { s with blocked := some what } := by
      refine ⟨?_, h.fresh, h.ids⟩
      intro send hsend
      by_contra hplace
      rw [h.held send hsend hplace] at hholder
      simp at hholder
    exact hidle.unblock.locked

theorem Locked.cancelScope (h : s.Locked) (scope : List Nat) : (s.cancelScope scope).Locked := by
  have hids : (s.cancelScope scope).sends.map (·.id) =
      (s.sends.filter fun send => !(send.id ∈ scope ∧ send.place = .waiting)).map (·.id) := by
    simp only [TlsRecordConnection.cancelScope, map_map]
    refine map_congr_left fun send _ => ?_
    show Send.id (if _ then _ else _) = _
    split <;> rfl
  refine ⟨?_, ?_, ?_⟩
  · intro send' hsend' hplace
    obtain ⟨send, hsend, rfl⟩ := mem_map.1 hsend'
    have hmem := (mem_filter.1 hsend).1
    split at hplace
    · rename_i hscope
      simp only [hscope, if_true]
      exact h.held send hmem hplace
    · rename_i hscope
      simp only [hscope, if_false]
      exact h.held send hmem hplace
  · refine (fresh_iff hids _).2 fun send hsend => ?_
    exact h.fresh send (mem_filter.1 hsend).1
  · rw [hids]
    exact (filter_sublist.map _).nodup h.ids

theorem Locked.step (s : TlsRecordConnection) (e : Event) (h : s.Locked) : (s.step e).Locked := by
  rcases e with ⟨onExecutor, whole⟩ | id | ⟨id, whole⟩ | _ | scope
  · exact h.send onExecutor whole
  · show Locked (match s.sends.find? (·.id = id) with | none => _ | some send => _)
    split
    · exact h
    · rename_i send hfind
      obtain ⟨hsend, rfl⟩ := find_some hfind
      split
      · rename_i hplace
        exact h.move (h.held send hsend (by simp [hplace])) .written
      · exact h
  · exact h.dispatch id whole
  · show Locked (if _ then _ else _)
    split
    · exact h
    · exact h.blocking .sendAsync
  · show Locked (if _ then _ else _)
    split
    · exact h
    · exact (h.cancelScope scope).blocking .closeNotify

theorem locked_new : new.Locked := by
  refine ⟨?_, ?_, nodup_nil⟩
  · intro send hsend
    cases hsend
  · intro send hsend
    cases hsend

-- ----
-- Deadlock

theorem deadlocked_move (h : s.Deadlocked) (id : Nat) (place : Place) :
    (s.move id place).Deadlocked := by
  obtain ⟨hblocked, send, hsend, hexecutor, hholder⟩ := h
  refine ⟨hblocked, _, mem_map_of_mem hsend, ?_, ?_⟩
  · show Send.onExecutor (if _ then _ else _) = true
    split
    · exact hexecutor
    · exact hexecutor
  · show s.holder = some (Send.id (if _ then _ else _))
    split
    · exact hholder
    · exact hholder

/-- The holder of the lock would have to run on the executor to release it, and nobody
else can. -/
theorem deadlocked_step (s : TlsRecordConnection) (e : Event) (hlocked : s.Locked)
    (h : s.Deadlocked) :
    (s.step e).Deadlocked := by
  obtain ⟨hblocked, holder, hmem, hexecutor, hholder⟩ := h
  rcases e with ⟨onExecutor, whole⟩ | id | ⟨id, whole⟩ | _ | scope
  · show Deadlocked (if _ then _ else _)
    split
    · exact ⟨hblocked, holder, hmem, hexecutor, hholder⟩
    · rw [if_pos (by simp [hholder])]
      exact ⟨hblocked, holder, mem_append_left _ hmem, hexecutor, hholder⟩
  · show Deadlocked (match s.sends.find? (·.id = id) with | none => _ | some send => _)
    split
    · exact ⟨hblocked, holder, hmem, hexecutor, hholder⟩
    · split
      · exact deadlocked_move ⟨hblocked, holder, hmem, hexecutor, hholder⟩ id .written
      · exact ⟨hblocked, holder, hmem, hexecutor, hholder⟩
  · have hsame : s.dispatch id whole = s := by
      unfold TlsRecordConnection.dispatch
      split
      · rfl
      · rename_i send hfind
        obtain ⟨hsend, rfl⟩ := find_some hfind
        split
        · rfl
        · rename_i hrun
          -- It does not run on the executor, so it is not the holder of the lock.
          have hwaiting : send.place = .waiting := by
            by_contra hplace
            have hself := hlocked.held send hsend hplace
            rw [hholder, Option.some.injEq] at hself
            have heq : holder = send := inj_on_of_nodup_map hlocked.ids hmem hsend hself
            subst heq
            exact hrun ⟨hexecutor, hblocked⟩
          rw [hwaiting]
    show (s.dispatch id whole).Deadlocked
    rw [hsame]
    exact ⟨hblocked, holder, hmem, hexecutor, hholder⟩
  · show Deadlocked (if _ then _ else _)
    rw [if_pos hblocked]
    exact ⟨hblocked, holder, hmem, hexecutor, hholder⟩
  · show Deadlocked (if _ then _ else _)
    rw [if_pos hblocked]
    exact ⟨hblocked, holder, hmem, hexecutor, hholder⟩

-- ----
-- Runs without

/-- While the executor waits, no send of its own is under way. -/
def Calm (s : TlsRecordConnection) : Prop :=
  s.blocked.isSome = true → ∀ send ∈ s.sends, send.onExecutor = false

/-- No sends come and the executor does not begin to wait. -/
structure Shrinks (s s' : TlsRecordConnection) : Prop where
  sends : ∀ send' ∈ s'.sends, ∃ send ∈ s.sends, send.onExecutor = send'.onExecutor
  blocked : s'.blocked.isSome = true → s.blocked.isSome = true

namespace Shrinks

variable {s' s'' : TlsRecordConnection}

theorem trans (h : Shrinks s s') (h' : Shrinks s' s'') : Shrinks s s'' := by
  refine ⟨?_, fun hblocked => h.blocked (h'.blocked hblocked)⟩
  intro send'' hsend''
  obtain ⟨send', hsend', heq'⟩ := h'.sends send'' hsend''
  obtain ⟨send, hsend, heq⟩ := h.sends send' hsend'
  exact ⟨send, hsend, heq.trans heq'⟩

theorem move (s : TlsRecordConnection) (id : Nat) (place : Place) :
    Shrinks s (s.move id place) := by
  refine ⟨?_, fun h => h⟩
  intro send' hsend'
  obtain ⟨send, hsend, rfl⟩ := mem_map.1 hsend'
  refine ⟨send, hsend, ?_⟩
  split <;> rfl

theorem unblock (s : TlsRecordConnection) : Shrinks s s.unblock := by
  unfold TlsRecordConnection.unblock
  split
  · rename_i hblocked
    refine ⟨?_, fun _ => by simp [hblocked]⟩
    intro send' hsend'
    obtain ⟨send, hsend, rfl⟩ := mem_map.1 hsend'
    refine ⟨send, hsend, ?_⟩
    split <;> rfl
  · rename_i hblocked
    exact ⟨fun send hsend => ⟨send, hsend, rfl⟩, fun _ => by simp [hblocked]⟩
  · exact ⟨fun send hsend => ⟨send, hsend, rfl⟩, fun h => h⟩

theorem handOver (waiters : List Waiter) (s : TlsRecordConnection) :
    Shrinks s (s.handOver waiters) := by
  induction waiters generalizing s with
  | nil => exact ⟨fun send hsend => ⟨send, hsend, rfl⟩, fun h => h⟩
  | cons waiter waiters ih =>
    rcases waiter with id | _
    · have hheld : Shrinks s { s with holder := some id, waiters := waiters } :=
        ⟨fun send hsend => ⟨send, hsend, rfl⟩, fun h => h⟩
      exact hheld.trans (Shrinks.move _ id .granted)
    · exact (Shrinks.unblock s).trans (ih s.unblock)

theorem leave (s : TlsRecordConnection) (id : Nat) : Shrinks s (s.leave id) := by
  have hfilter : Shrinks s { s with sends := s.sends.filter (·.id ≠ id) } :=
    ⟨fun send hsend => ⟨send, (mem_filter.1 hsend).1, rfl⟩, fun h => h⟩
  exact hfilter.trans (Shrinks.handOver s.waiters _)

end Shrinks

theorem Calm.shrinks {s' : TlsRecordConnection} (h : s.Calm) (hshrinks : Shrinks s s') :
    s'.Calm := by
  intro hblocked send' hsend'
  obtain ⟨send, hsend, heq⟩ := hshrinks.sends send' hsend'
  rw [← heq]
  exact h (hshrinks.blocked hblocked) send hsend

theorem Calm.send (h : s.Calm) (onExecutor whole : Bool) : (s.send onExecutor whole).Calm := by
  have hadd : ∀ send : Send, send.onExecutor = onExecutor →
      ¬(onExecutor = true ∧ s.blocked.isSome = true) →
      s.blocked.isSome = true → ∀ other ∈ s.sends ++ [send], other.onExecutor = false := by
    intro send hsend hrun hblocked other hother
    rcases mem_append.1 hother with hother | hother
    · exact h hblocked other hother
    · obtain rfl := mem_singleton.1 hother
      rw [hsend]
      simpa [hblocked] using hrun
  unfold TlsRecordConnection.send
  split
  · exact h
  · rename_i hrun
    split
    · exact hadd _ rfl hrun
    · split
      · exact hadd _ rfl hrun
      · exact h

theorem Calm.dispatch (h : s.Calm) (id : Nat) (whole : Bool) : (s.dispatch id whole).Calm := by
  unfold TlsRecordConnection.dispatch
  split
  · exact h
  · split
    · exact h
    · split
      · split
        · exact h.shrinks (Shrinks.leave s id)
        · exact h.shrinks (Shrinks.move s id .writing)
      · exact h.shrinks (Shrinks.leave s id)
      · exact h
      · exact h

/-- The executor begins to wait when none of its sends is under way. -/
theorem calm_blocking (hnone : ∀ send ∈ s.sends, send.onExecutor = false) (what : Blocking) :
    (s.blocking what).Calm := by
  unfold TlsRecordConnection.blocking
  split
  · exact fun _ => hnone
  · refine Calm.shrinks ?_ (Shrinks.unblock _)
    exact fun _ => hnone

theorem Calm.step (s : TlsRecordConnection) (e : Event) (hfree : s.Unhindered e) (h : s.Calm) :
    (s.step e).Calm := by
  rcases e with ⟨onExecutor, whole⟩ | id | ⟨id, whole⟩ | _ | scope
  · exact h.send onExecutor whole
  · show Calm (match s.sends.find? (·.id = id) with | none => _ | some send => _)
    split
    · exact h
    · split
      · exact h.shrinks (Shrinks.move s id .written)
      · exact h
  · exact h.dispatch id whole
  · show Calm (if _ then _ else _)
    split
    · exact h
    · exact calm_blocking hfree .sendAsync
  · show Calm (if _ then _ else _)
    split
    · exact h
    · refine calm_blocking ?_ .closeNotify
      intro send' hsend'
      obtain ⟨send, hsend, rfl⟩ := mem_map.1 hsend'
      obtain ⟨hmem, hkept⟩ := mem_filter.1 hsend
      have hoff : send.onExecutor = false := by
        by_contra hexecutor
        simp [hfree send hmem (by simpa using hexecutor)] at hkept
      split
      · exact hoff
      · exact hoff

/-- When the executor takes the lock only while none of its own sends is under way, it
never waits for one of them. -/
theorem run_not_deadlocked (es : List Event) (h : RunAll step Unhindered new es) :
    ¬(run step new es).Deadlocked := by
  have hcalm : (run step new es).Calm :=
    run_invariant_of Calm.step h fun hblocked => (by cases hblocked)
  rintro ⟨hblocked, send, hsend, hexecutor, -⟩
  rw [hcalm hblocked send hsend] at hexecutor
  cases hexecutor

/-- A send is written in two pieces and returns, and then the connection is released. -/
def releasedLater : List Event :=
  [.send true false, .socketResumes 0, .dispatch 0 true, .sendAsync, .send false false,
    .releaseProtocol [], .socketResumes 1, .dispatch 1 true]

theorem run_not_deadlocked_releasedLater :
    RunAll step Unhindered new releasedLater ∧ ¬(run step new releasedLater).Deadlocked :=
  have h : RunAll step Unhindered new releasedLater := by decide
  ⟨h, run_not_deadlocked releasedLater h⟩

/-- Nothing leads out of the deadlock. -/
theorem run_deadlocked (es : List Event) (hlocked : s.Locked) (h : s.Deadlocked) :
    (run step s es).Deadlocked :=
  have hboth := run_invariant (I := fun s => s.Locked ∧ s.Deadlocked)
    (fun s e h => ⟨Locked.step s e h.1, deadlocked_step s e h.1 h.2⟩) ⟨hlocked, h⟩ es
  hboth.2

/-- When the connection is released while a send is written in part, the executor waits
for the send and the send for the executor, for ever. -/
theorem released_while_writing :
    (run step new [.send true false, .releaseProtocol [0]]).Deadlocked ∧
    ∀ es, (run step (run step new [.send true false, .releaseProtocol [0]]) es).Deadlocked := by
  have hlocked : (run step new [.send true false, .releaseProtocol [0]]).Locked :=
    run_invariant Locked.step locked_new _
  have hdead : (run step new [.send true false, .releaseProtocol [0]]).Deadlocked :=
    ⟨rfl, ⟨0, true, true, .writing⟩, by decide, rfl, rfl⟩
  exact ⟨hdead, fun es => run_deadlocked es hlocked hdead⟩

end TlsRecordConnection

end Anywhere.Tls.SendLock
