import Anywhere.Tcp.Window

/-!
# Anywhere — the uplink of a connection

A delivered byte can wait in five places before it is handed upstream: with the
dial that extracted it as `initialData`, with the connect-time drain, with the
coroutine of a flush, in `pendingData`, or in the coalesce buffer. While the
connection is open they line up in that order behind the bytes already handed
over, and a send starts only when no other one is running — *provided* a flush
does not start while the connect-time drain is still at work. Nothing in the
code keeps the two apart: the drain does not set `coalesceFlushInFlight`.

* `UplinkInv` — where the bytes are, and which coroutines may be there at once.
* `uplink_stream` — order and single flight, in every run whose flushes start
  after the drain.
* `flush_overtakes_drain` — a run in which a flush overtakes it.
-/

namespace Anywhere.Tcp

open List

variable {σ : Type}

/-! ## Single flight -/

/-- How an observation changes the number of upstream sends in flight. -/
def Obs.flight (k : Nat) : Obs → Nat
  | sendStart _ => k + 1
  | sendEnd => k - 1
  | _ => k

/-- Upstream sends that were called and have not completed. -/
def sendsInFlight (tr : List Obs) : Nat := tr.foldl Obs.flight 0

/-- An upstream send is started only when no earlier one is in flight. -/
def SingleFlight (tr : List Obs) : Prop :=
  ∀ pre d post, tr = pre ++ .sendStart d :: post → sendsInFlight pre = 0

theorem sendsInFlight_snoc (tr : List Obs) (o : Obs) :
    sendsInFlight (tr ++ [o]) = o.flight (sendsInFlight tr) := by
  simp [sendsInFlight, foldl_append]

variable {tr : List Obs}

theorem singleFlight_snoc {o : Obs} (h : SingleFlight tr)
    (ho : ∀ d, o = .sendStart d → sendsInFlight tr = 0) : SingleFlight (tr ++ [o]) := by
  intro pre d post htr
  rcases eq_nil_or_concat post with rfl | ⟨post', last, rfl⟩
  · -- the new observation is the send that starts
    obtain ⟨rfl, hlast⟩ := append_inj' htr rfl
    exact ho d (by simpa using hlast)
  · refine h pre d post' ?_
    have hinit : tr ++ [o] = (pre ++ .sendStart d :: post') ++ [last] := by
      rw [htr, concat_eq_append]
      simp
    exact (append_inj' hinit rfl).1

/-- Observations that are not upstream sends do not count. -/
theorem singleFlight_append {l : List Obs} (h : SingleFlight tr)
    (hl : ∀ o ∈ l, o.kind ≠ .send) :
    SingleFlight (tr ++ l) ∧ sendsInFlight (tr ++ l) = sendsInFlight tr := by
  induction l generalizing tr with
  | nil => simpa using h
  | cons o l ih =>
    have ho := hl o (by simp)
    have hone : SingleFlight (tr ++ [o]) := by
      refine singleFlight_snoc h fun d hd => ?_
      subst hd
      exact absurd rfl ho
    have hflight : sendsInFlight (tr ++ [o]) = sendsInFlight tr := by
      rw [sendsInFlight_snoc]
      cases o <;> first | rfl | exact absurd rfl ho
    obtain ⟨h1, h2⟩ := ih hone fun o' ho' => hl o' (by simp [ho'])
    rw [show tr ++ o :: l = (tr ++ [o]) ++ l by simp]
    exact ⟨h1, h2.trans hflight⟩

/-! ## Who holds which bytes -/

namespace Job

def isDial : Job → Bool
  | directConnected _ | proxyConnected _ | connectFailed _ _ _ => true
  | coroutine (.dialDirect _ _) | coroutine (.dialProxy _ _ _)
  | coroutine (.dialAbandoned _ _) => true
  | _ => false

/-- The connect-time drain and the task behind its failure. -/
def isSend : Job → Bool
  | abort _ _ => true
  | coroutine (.connectSend _ _ _) => true
  | _ => false

def isFlush : Job → Bool
  | flushDone | flushCancelled | flushFailed _ _ => true
  | coroutine (.flush _ _ _) => true
  | _ => false

def isFlushTask : Job → Bool
  | flushCoalesceBuffer => true
  | _ => false

/-- The connect-time drain is not over: it runs, or it failed with bytes unsent
and the connection is about to be aborted for that. -/
def drains : Job → Bool
  | abort held _ => !held.isEmpty
  | coroutine (.connectSend _ _ _) => true
  | _ => false

/-- Bytes a job still has to hand upstream. -/
def unsent : Job → Bytes
  | directConnected d => d.getD []
  | connectFailed _ held _ => held
  | abort held _ => held
  | flushFailed held _ => held
  | coroutine (.dialDirect _ d) => d.getD []
  | coroutine (.dialProxy true 0 _) => []
  | coroutine (.dialProxy _ _ d) => d.getD []
  | coroutine (.dialAbandoned held _) => held
  | coroutine (.connectSend false todo _) => todo.flatten
  | coroutine (.connectSend true todo _) => todo.tail.flatten
  | coroutine (.flush false data sent) => data.drop sent
  | coroutine (.flush true data sent) => data.drop (sent + (flushChunk data sent).length)
  | _ => []

/-- Whether a job is a coroutine inside an upstream send. -/
def sending : Job → Nat
  | coroutine (.dialProxy true 0 (some _)) => 1
  | coroutine (.connectSend true _ _) => 1
  | coroutine (.flush true _ _) => 1
  | _ => 0

end Job

namespace Core

def dials (c : Core) : List Job := c.jobs.filter Job.isDial
def sends (c : Core) : List Job := c.jobs.filter Job.isSend
def flushes (c : Core) : List Job := c.jobs.filter Job.isFlush
def flushTasks (c : Core) : List Job := c.jobs.filter Job.isFlushTask

/-- The delivered bytes that were not handed upstream, in stream order. -/
def unsent (c : Core) : Bytes :=
  c.dials.flatMap Job.unsent ++ c.sends.flatMap Job.unsent ++ c.flushes.flatMap Job.unsent ++
    c.pendingData.toByteArray ++ c.coalesced

def DialFlags (c : Core) : Job → Prop
  | .proxyConnected _ | .connectFailed false _ _ | .coroutine (.dialProxy _ _ _) =>
    c.vlessConnecting = true ∧ c.directConnecting = false
  | .directConnected _ | .connectFailed true _ _ | .coroutine (.dialDirect _ _) =>
    c.directConnecting = true ∧ c.vlessConnecting = false ∧ c.directRelay = true
  | _ => c.directConnecting = true ∨ c.vlessConnecting = true

end Core

/-- No connect-time drain is pending. -/
def NoDrain (jobs : List Job) : Prop := ∀ j ∈ jobs, j.drains = false

instance : DecidablePred NoDrain := fun jobs =>
  inferInstanceAs (Decidable (∀ j ∈ jobs, j.drains = false))

/-- A flush whose coroutine has not started. -/
def Job.flushWaits : Job → Bool
  | coroutine (.flush false _ _) => true
  | _ => false

/-! ## The invariant -/

/-- Where the uplink bytes of an open connection are, and what may be pending at
the same time. -/
structure UplinkOpen (c : Core) : Prop where
  dials_le : c.dials.length ≤ 1
  sends_le : c.sends.length ≤ 1
  flushes_le : c.flushes.length ≤ 1
  tasks_le : c.flushTasks.length ≤ 1
  dial_flags : ∀ j ∈ c.dials, c.DialFlags j
  before_live : c.live = false →
    c.sends = [] ∧ c.flushes = [] ∧ c.flushTasks = [] ∧ c.coalesced = []
  live_pending : c.live = true → c.pendingData.toByteArray = []
  in_flight : c.flushes ≠ [] → c.coalesceFlushInFlight = true
  scheduled : c.flushTasks ≠ [] → c.coalesceScheduled = true ∧ c.coalesceFlushInFlight = false
  /-- While the drain is at work no flush has started. -/
  apart : (∃ j ∈ c.sends, j.drains = true) → ∀ j ∈ c.flushes, j.flushWaits = true
  stream : handedBytes c.trace ++ c.unsent = deliveredBytes c.trace
  flight : sendsInFlight c.trace = (c.jobs.map Job.sending).sum
  single : SingleFlight c.trace

/-- The invariant says nothing about a closed connection. -/
def UplinkInv (c : Core) : Prop := c.closed = false → UplinkOpen c

theorem uplinkInv_fresh : UplinkInv .fresh := by
  intro _
  refine ⟨?_, ?_, ?_, ?_, ?_, ?_, ?_, ?_, ?_, ?_, rfl, rfl, ?_⟩
  · exact Nat.zero_le _
  · exact Nat.zero_le _
  · exact Nat.zero_le _
  · exact Nat.zero_le _
  · intro j hj
    cases hj
  · exact fun _ => ⟨rfl, rfl, rfl, rfl⟩
  · exact fun h => by cases h
  · exact fun h => absurd rfl h
  · exact fun h => absurd rfl h
  · rintro ⟨j, hj, -⟩
    cases hj
  · intro pre d post h
    cases pre <;> cases h

variable {c c' : Core} {j : Job}

theorem dialFlags_not_live (h : c.DialFlags j) : c.live = false := by
  have hflag : c.directConnecting = true ∨ c.vlessConnecting = true := by
    unfold Core.DialFlags at h
    split at h
    · exact .inr h.1
    · exact .inr h.1
    · exact .inr h.1
    · exact .inl h.1
    · exact .inl h.1
    · exact .inl h.1
    · exact h
  rcases hflag with h | h <;> simp [Core.live, h]

theorem dialFlags_congr (h : c.DialFlags j)
    (hd : c'.directConnecting = c.directConnecting) (hv : c'.vlessConnecting = c.vlessConnecting)
    (hr : c'.directRelay = c.directRelay) : c'.DialFlags j := by
  unfold Core.DialFlags at h ⊢
  rw [hd, hv, hr]
  exact h

namespace UplinkOpen

variable {c : Core}

theorem dials_of_live (h : UplinkOpen c) (hl : c.live = true) : c.dials = [] := by
  rcases hd : c.dials with _ | ⟨j, rest⟩
  · rfl
  · have := dialFlags_not_live (h.dial_flags j (by simp [hd]))
    simp [this] at hl

theorem live_of_sends (h : UplinkOpen c) (hs : c.sends ≠ []) : c.live = true := by
  by_contra hl
  exact hs (h.before_live (by simpa using hl)).1

theorem live_of_flushes (h : UplinkOpen c) (hs : c.flushes ≠ []) : c.live = true := by
  by_contra hl
  exact hs (h.before_live (by simpa using hl)).2.1

theorem live_of_tasks (h : UplinkOpen c) (hs : c.flushTasks ≠ []) : c.live = true := by
  by_contra hl
  exact hs (h.before_live (by simpa using hl)).2.2.1

end UplinkOpen

/-! ## Jobs of one class -/

theorem isDial_only (h : j.isDial = true) :
    j.isSend = false ∧ j.isFlush = false ∧ j.isFlushTask = false := by
  cases j with
  | coroutine co => cases co <;> first | exact ⟨rfl, rfl, rfl⟩ | cases h
  | _ => first | exact ⟨rfl, rfl, rfl⟩ | cases h

theorem isSend_only (h : j.isSend = true) :
    j.isDial = false ∧ j.isFlush = false ∧ j.isFlushTask = false := by
  cases j with
  | coroutine co => cases co <;> first | exact ⟨rfl, rfl, rfl⟩ | cases h
  | _ => first | exact ⟨rfl, rfl, rfl⟩ | cases h

theorem isFlush_only (h : j.isFlush = true) :
    j.isDial = false ∧ j.isSend = false ∧ j.isFlushTask = false := by
  cases j with
  | coroutine co => cases co <;> first | exact ⟨rfl, rfl, rfl⟩ | cases h
  | _ => first | exact ⟨rfl, rfl, rfl⟩ | cases h

/-- A job inside a send is a dial, a drain at work, or a flush that has started. -/
theorem sending_eq_zero (hd : j.isDial = false)
    (hs : j.isSend = true → j.drains = false) (hf : j.isFlush = true → j.flushWaits = true) :
    j.sending = 0 := by
  cases j with
  | coroutine co =>
    cases co with
    | dialDirect | dialProxy | dialAbandoned => cases hd
    | connectSend => cases hs rfl
    | flush calling data sent =>
      cases calling with
      | false => rfl
      | true => cases hf rfl
    | receive => rfl
  | _ => rfl

/-- What is left of a drain that is over holds no bytes. -/
theorem unsent_of_not_drains (h : j.isSend = true) (hd : j.drains = false) :
    j.unsent = [] := by
  cases j with
  | abort held k => simpa [Job.drains, Job.unsent] using hd
  | coroutine co =>
    cases co with
    | connectSend => cases hd
    | _ => cases h
  | _ => cases h

variable {l new : List Job}

theorem filter_tail {p : Job → Bool} (hp : p j = true)
    (hle : ((j :: l).filter p).length ≤ 1) : l.filter p = [] := by
  rw [filter_cons_of_pos hp, length_cons] at hle
  exact eq_nil_of_length_eq_zero (by omega)

namespace UplinkOpen

variable {c : Core} {j : Job} {l : List Job}

theorem of_flush (h : UplinkOpen c) (hj : c.jobs = j :: l) (hf : j.isFlush = true) :
    c.live = true ∧ l.filter Job.isFlush = [] ∧ l.filter Job.isFlushTask = [] := by
  have hne : c.flushes ≠ [] := by simp [Core.flushes, hj, hf]
  have htasks : c.flushTasks = [] := by
    by_contra ht
    have h1 := (h.scheduled ht).2
    have h2 := h.in_flight hne
    simp [h1] at h2
  refine ⟨h.live_of_flushes hne, ?_, ?_⟩
  · exact filter_tail hf (by have := h.flushes_le; rwa [Core.flushes, hj] at this)
  · rw [Core.flushTasks, hj, filter_cons, (isFlush_only hf).2.2] at htasks
    exact htasks

theorem of_flushTask (h : UplinkOpen c) (hj : c.jobs = .flushCoalesceBuffer :: l) :
    c.live = true ∧ l.filter Job.isFlush = [] ∧ l.filter Job.isFlushTask = [] := by
  have hne : c.flushTasks ≠ [] := by simp [Core.flushTasks, hj, Job.isFlushTask]
  have hflushes : c.flushes = [] := by
    by_contra hf
    have h1 := (h.scheduled hne).2
    have h2 := h.in_flight hf
    simp [h1] at h2
  refine ⟨h.live_of_tasks hne, ?_, ?_⟩
  · rw [Core.flushes, hj] at hflushes
    exact hflushes
  · exact filter_tail rfl (by have := h.tasks_le; rwa [Core.flushTasks, hj] at this)

end UplinkOpen

/-! ## One turn of a coroutine -/

/-- The sends of one turn: none, one that starts, one that ends, or one that
ends and the next that starts; with the number in flight before and after. -/
inductive FlightStep : List Obs → Nat → Nat → Prop
  | none (k : Nat) : FlightStep [] k k
  | start (d : Bytes) : FlightStep [.sendStart d] 0 1
  | stop : FlightStep [.sendEnd] 1 0
  | next (d : Bytes) : FlightStep [.sendEnd, .sendStart d] 1 1

theorem flightStep_apply {l : List Obs} {a b : Nat} (h : FlightStep l a b)
    (hs : SingleFlight tr) (hf : sendsInFlight tr = a) :
    SingleFlight (tr ++ l) ∧ sendsInFlight (tr ++ l) = b := by
  have hend : sendsInFlight tr = 1 → SingleFlight (tr ++ [Obs.sendEnd]) ∧
      sendsInFlight (tr ++ [Obs.sendEnd]) = 0 := by
    intro hone
    refine ⟨singleFlight_snoc hs (by simp), ?_⟩
    rw [sendsInFlight_snoc, hone]
    rfl
  have hstart : ∀ t d, SingleFlight t → sendsInFlight t = 0 →
      SingleFlight (t ++ [Obs.sendStart d]) ∧ sendsInFlight (t ++ [Obs.sendStart d]) = 1 := by
    intro t d ht hzero
    refine ⟨singleFlight_snoc ht fun _ _ => hzero, ?_⟩
    rw [sendsInFlight_snoc, hzero]
    rfl
  cases h with
  | none => simpa using ⟨hs, hf⟩
  | start d => exact hstart tr d hs hf
  | stop => exact hend hf
  | next d =>
    obtain ⟨h1, h2⟩ := hend hf
    rw [show tr ++ [Obs.sendEnd, .sendStart d] = (tr ++ [Obs.sendEnd]) ++ [Obs.sendStart d] by simp]
    exact hstart _ d h1 h2

theorem flightStep_delivered {l : List Obs} {a b : Nat} (h : FlightStep l a b) :
    deliveredBytes l = [] := by
  cases h <;> rfl

section Turns

variable {c : Core} {j : Job} {l : List Job}

/-- The other jobs of the queue send nothing, so the turn of `j` is the whole flight. -/
theorem flight_alone (hi : UplinkOpen c) (hj : c.jobs = j :: l) {n : Nat}
    (hdials : l.filter Job.isDial = [])
    (hsends : ∀ o ∈ l, o.isSend = true → o.drains = false)
    (hflushes : ∀ o ∈ l, o.isFlush = true → o.flushWaits = true)
    (hfl : FlightStep tr j.sending n) :
    (l.map Job.sending).sum = 0 ∧ SingleFlight (c.trace ++ tr) ∧
      sendsInFlight (c.trace ++ tr) = n := by
  have hothers : (l.map Job.sending).sum = 0 := by
    refine sum_eq_zero fun k hk => ?_
    obtain ⟨o, ho, rfl⟩ := mem_map.mp hk
    exact sending_eq_zero (Bool.eq_false_iff.mpr (filter_eq_nil_iff.mp hdials o ho))
      (hsends o ho) (hflushes o ho)
  have hflight := hi.flight
  rw [hj, map_cons, sum_cons, hothers, Nat.add_zero] at hflight
  exact ⟨hothers, flightStep_apply hfl hi.single hflight⟩

theorem uplink_dial (hi : UplinkOpen c) (hj : c.jobs = j :: l) (hd : j.isDial = true)
    {j' : Job} (hd' : j'.isDial = true)
    (hflags : c.DialFlags j → c.DialFlags j')
    (hbytes : handedBytes tr ++ j'.unsent = j.unsent)
    (hfl : FlightStep tr j.sending j'.sending) :
    UplinkOpen { c with jobs := l ++ [j'], trace := c.trace ++ tr } := by
  have hc := isDial_only hd
  have hc' := isDial_only hd'
  have hdials : l.filter Job.isDial = [] :=
    filter_tail hd (by have := hi.dials_le; rwa [Core.dials, hj] at this)
  have hflag : c.DialFlags j := hi.dial_flags j (by simp [Core.dials, hj, hd])
  -- the connection is not live, so nothing else of the uplink is pending
  have hlive := dialFlags_not_live hflag
  obtain ⟨hsends, hflushes, htasks, hco⟩ := hi.before_live hlive
  simp only [Core.sends, Core.flushes, Core.flushTasks, hj, filter_cons, hc,
    Bool.false_eq_true, if_false] at hsends hflushes htasks
  obtain ⟨hothers, hsingle, hcount⟩ := flight_alone hi hj hdials
    (fun o ho h => absurd h (filter_eq_nil_iff.mp hsends o ho))
    (fun o ho h => absurd h (filter_eq_nil_iff.mp hflushes o ho)) hfl
  have hstream := hi.stream
  simp only [Core.unsent, Core.dials, Core.sends, Core.flushes, hj, filter_cons, hd, hc,
    hdials, hsends, hflushes, if_true, Bool.false_eq_true, if_false, flatMap_cons,
    flatMap_nil, append_nil] at hstream
  refine ⟨?_, ?_, ?_, ?_, ?_, fun _ => ⟨?_, ?_, ?_, hco⟩, ?_, ?_, ?_, ?_, ?_, ?_, hsingle⟩
  · simp [Core.dials, hdials, hd']
  · simp [Core.sends, hsends, hc']
  · simp [Core.flushes, hflushes, hc']
  · simp [Core.flushTasks, htasks, hc']
  · intro o ho
    simp only [Core.dials, filter_append, hdials, nil_append, filter_cons, hd',
      if_true, filter_nil, mem_singleton] at ho
    subst ho
    exact hflags hflag
  · simp [Core.sends, hsends, hc']
  · simp [Core.flushes, hflushes, hc']
  · simp [Core.flushTasks, htasks, hc']
  · exact hi.live_pending
  · intro h
    simp [Core.flushes, hflushes, hc'] at h
  · intro h
    simp [Core.flushTasks, htasks, hc'] at h
  · rintro ⟨o, ho, -⟩
    simp [Core.sends, hsends, hc'] at ho
  · simp only [Core.unsent, Core.dials, Core.sends, Core.flushes, Core.coalesced,
      filter_append, hdials, hsends, hflushes, filter_cons, hd', hc', if_true,
      Bool.false_eq_true, if_false, filter_nil, nil_append, flatMap_cons,
      flatMap_nil, append_nil, handedBytes_append, deliveredBytes_append,
      flightStep_delivered hfl]
    rw [← hstream, ← hbytes]
    simp [Core.coalesced]
  · simp only [map_append, sum_append, hothers, map_cons, map_nil,
      sum_cons, sum_nil, Nat.zero_add, Nat.add_zero]
    exact hcount

/-- The connect-time drain takes a turn. -/
theorem uplink_send (hi : UplinkOpen c) (hj : c.jobs = j :: l) (hs : j.isSend = true)
    (hdr : j.drains = true)
    (hnd : new.filter Job.isDial = []) (hnf : new.filter Job.isFlush = [])
    (hnt : new.filter Job.isFlushTask = []) (hns : (new.filter Job.isSend).length ≤ 1)
    (hbytes : handedBytes tr ++ (new.filter Job.isSend).flatMap Job.unsent = j.unsent)
    (hfl : FlightStep tr j.sending (new.map Job.sending).sum) :
    UplinkOpen { c with jobs := l ++ new, trace := c.trace ++ tr } := by
  have hc := isSend_only hs
  have hsends : l.filter Job.isSend = [] :=
    filter_tail hs (by have := hi.sends_le; rwa [Core.sends, hj] at this)
  have hmem : j ∈ c.sends := by simp [Core.sends, hj, hs]
  have hlive : c.live = true := hi.live_of_sends (ne_nil_of_mem hmem)
  have hdials : l.filter Job.isDial = [] := by
    simpa [Core.dials, hj, filter_cons, hc] using hi.dials_of_live hlive
  have hflushes : c.flushes = l.filter Job.isFlush := by
    simp [Core.flushes, hj, hc]
  have htasks : c.flushTasks = l.filter Job.isFlushTask := by
    simp [Core.flushTasks, hj, hc]
  have hwaits : ∀ o ∈ c.flushes, o.flushWaits = true := hi.apart ⟨j, hmem, hdr⟩
  -- every flush waits for its start, so the drain is the only one that sends
  obtain ⟨hothers, hsingle, hcount⟩ := flight_alone hi hj hdials
    (fun o ho h => absurd h (filter_eq_nil_iff.mp hsends o ho))
    (fun o ho h => hwaits o (by rw [hflushes]; exact mem_filter.mpr ⟨ho, h⟩)) hfl
  have hstream := hi.stream
  simp only [Core.unsent, Core.dials, Core.sends, hj, filter_cons, hs, hc, hdials, hsends,
    if_true, Bool.false_eq_true, if_false, flatMap_cons, flatMap_nil, append_nil,
    nil_append] at hstream
  have hflushes' : Core.flushes { c with jobs := l ++ new, trace := c.trace ++ tr } =
      c.flushes := by
    simp [Core.flushes, hnf, hj, hc]
  have htasks' : Core.flushTasks { c with jobs := l ++ new, trace := c.trace ++ tr } =
      c.flushTasks := by
    simp [Core.flushTasks, hnt, hj, hc]
  refine ⟨?_, ?_, ?_, ?_, ?_, ?_, ?_, ?_, ?_, ?_, ?_, ?_, hsingle⟩
  · simp [Core.dials, hdials, hnd]
  · simpa [Core.sends, hsends] using hns
  · rw [hflushes']
    exact hi.flushes_le
  · rw [htasks']
    exact hi.tasks_le
  · intro o ho
    simp [Core.dials, hdials, hnd] at ho
  · intro h
    exact absurd hlive (by simpa [Core.live] using h)
  · exact hi.live_pending
  · rw [hflushes']
    exact hi.in_flight
  · rw [htasks']
    exact hi.scheduled
  · intro _
    rw [hflushes']
    exact hwaits
  · simp only [Core.unsent, hflushes']
    simp only [Core.dials, Core.sends, Core.coalesced, filter_append, hdials, hsends, hnd,
      nil_append, flatMap_nil, handedBytes_append, deliveredBytes_append,
      flightStep_delivered hfl, append_nil]
    rw [← hstream, ← hbytes]
    simp [Core.coalesced, Core.flushes, hj, hc]
  · simp only [map_append, sum_append, hothers, Nat.zero_add]
    exact hcount

/-- A flush takes a turn, with no drain at work. -/
theorem uplink_flush (hi : UplinkOpen c) (hj : c.jobs = j :: l) (hf : j.isFlush = true)
    (hno : ∀ o ∈ c.sends, o.drains = false)
    (hnd : new.filter Job.isDial = []) (hns : new.filter Job.isSend = [])
    (hnt : new.filter Job.isFlushTask = []) (hnf : (new.filter Job.isFlush).length ≤ 1)
    (hbytes : handedBytes tr ++ (new.filter Job.isFlush).flatMap Job.unsent = j.unsent)
    (hfl : FlightStep tr j.sending (new.map Job.sending).sum) :
    UplinkOpen { c with jobs := l ++ new, trace := c.trace ++ tr } := by
  have hc := isFlush_only hf
  have hflushes : l.filter Job.isFlush = [] :=
    filter_tail hf (by have := hi.flushes_le; rwa [Core.flushes, hj] at this)
  have hne : c.flushes ≠ [] := by simp [Core.flushes, hj, hf]
  have hlive : c.live = true := hi.live_of_flushes hne
  have hdials : l.filter Job.isDial = [] := by
    simpa [Core.dials, hj, filter_cons, hc] using hi.dials_of_live hlive
  have hsends : c.sends = l.filter Job.isSend := by
    simp [Core.sends, hj, hc]
  -- what a finished drain left behind neither sends nor holds bytes
  have hunsent : (l.filter Job.isSend).flatMap Job.unsent = [] := by
    refine flatMap_eq_nil_iff.mpr fun o ho => ?_
    exact unsent_of_not_drains (mem_filter.mp ho).2 (hno o (by rw [hsends]; exact ho))
  obtain ⟨hothers, hsingle, hcount⟩ := flight_alone hi hj hdials
    (fun o ho h => hno o (by rw [hsends]; exact mem_filter.mpr ⟨ho, h⟩))
    (fun o ho h => absurd h (filter_eq_nil_iff.mp hflushes o ho)) hfl
  have hstream := hi.stream
  simp only [Core.unsent, Core.dials, Core.sends, Core.flushes, hj, filter_cons, hf, hc,
    hdials, hflushes, hunsent, if_true, Bool.false_eq_true, if_false, flatMap_cons,
    flatMap_nil, append_nil, nil_append] at hstream
  have hsends' : Core.sends { c with jobs := l ++ new, trace := c.trace ++ tr } = c.sends := by
    simp [Core.sends, hns, hj, hc]
  have htasks' : Core.flushTasks { c with jobs := l ++ new, trace := c.trace ++ tr } =
      c.flushTasks := by
    simp [Core.flushTasks, hnt, hj, hc]
  refine ⟨?_, ?_, ?_, ?_, ?_, ?_, ?_, ?_, ?_, ?_, ?_, ?_, hsingle⟩
  · simp [Core.dials, hdials, hnd]
  · rw [hsends']
    exact hi.sends_le
  · simpa [Core.flushes, hflushes] using hnf
  · rw [htasks']
    exact hi.tasks_le
  · intro o ho
    simp [Core.dials, hdials, hnd] at ho
  · intro h
    exact absurd hlive (by simpa [Core.live] using h)
  · exact hi.live_pending
  · exact fun _ => hi.in_flight hne
  · rw [htasks']
    exact hi.scheduled
  · rintro ⟨o, ho, hd⟩
    rw [hsends'] at ho
    simp [hno o ho] at hd
  · simp only [Core.unsent, Core.dials, Core.sends, Core.flushes, Core.coalesced,
      filter_append, hdials, hnd, hns, hflushes, hunsent, nil_append, append_nil,
      flatMap_nil, handedBytes_append, deliveredBytes_append, flightStep_delivered hfl]
    rw [← hstream, ← hbytes]
    simp [Core.coalesced]
  · simp only [map_append, sum_append, hothers, Nat.zero_add]
    exact hcount

theorem uplink_frame (hi : UplinkOpen c) (jobs : List Job) (tr : List Obs)
    (w : ByteArrayOutputStream) (b : Bool) (hk : ∀ o ∈ tr, o.kind ≠ .send)
    (hdel : deliveredBytes tr = [])
    (hd : jobs.filter Job.isDial = c.dials) (hs : jobs.filter Job.isSend = c.sends)
    (hf : jobs.filter Job.isFlush = c.flushes) (ht : jobs.filter Job.isFlushTask = c.flushTasks)
    (hsum : (jobs.map Job.sending).sum = (c.jobs.map Job.sending).sum) :
    UplinkOpen { c with
      jobs := jobs, trace := c.trace ++ tr, pendingWrite := w, receiveInFlight := b } := by
  obtain ⟨hsingle, hflight⟩ := singleFlight_append hi.single hk
  refine ⟨?_, ?_, ?_, ?_, ?_, ?_, hi.live_pending, ?_, ?_, ?_, ?_, ?_, hsingle⟩
  · simpa only [Core.dials, hd] using hi.dials_le
  · simpa only [Core.sends, hs] using hi.sends_le
  · simpa only [Core.flushes, hf] using hi.flushes_le
  · simpa only [Core.flushTasks, ht] using hi.tasks_le
  · exact fun j hj => dialFlags_congr (hi.dial_flags j (hd ▸ hj)) rfl rfl rfl
  · intro h
    have := hi.before_live (by simpa [Core.live] using h)
    exact ⟨hs.trans this.1, hf.trans this.2.1, ht.trans this.2.2.1, this.2.2.2⟩
  · intro h
    exact hi.in_flight (by simpa only [Core.flushes, hf] using h)
  · intro h
    exact hi.scheduled (by simpa only [Core.flushTasks, ht] using h)
  · intro h j hj
    exact hi.apart (by simpa only [Core.sends, hs] using h) j (hf ▸ hj)
  · have hstream := hi.stream
    simp only [Core.unsent, Core.dials, Core.sends, Core.flushes, hd, hs, hf, Core.coalesced,
      handedBytes_append, deliveredBytes_append, handedBytes_eq_nil hk, hdel,
      append_nil] at hstream ⊢
    exact hstream
  · rw [hflight, hi.flight, hsum]

end Turns

theorem no_drain_of_started (hi : UplinkOpen c) (hj : j ∈ c.flushes)
    (hst : j.flushWaits = false) : ∀ o ∈ c.sends, o.drains = false := by
  intro o ho
  by_contra hd
  have := hi.apart ⟨o, ho, by simpa using hd⟩ j hj
  simp [hst] at this

theorem flushChunk_append_drop (data : Bytes) (sent : Nat) :
    flushChunk data sent ++ data.drop (sent + (flushChunk data sent).length) = data.drop sent := by
  have htake : flushChunk data sent = (data.drop sent).take (flushChunk data sent).length := by
    unfold flushChunk
    dsimp only
    split
    · rename_i h
      rw [h.1]
      simp
    · rw [length_take, length_drop]
      congr 1
      omega
  have hdrop : data.drop (sent + (flushChunk data sent).length) =
      (data.drop sent).drop (flushChunk data sent).length := by
    rw [drop_drop]
  rw [hdrop]
  nth_rewrite 1 [htake]
  exact take_append_drop _ _

/-! ## The actions -/

theorem uplink_resume_dial {co : Coroutine} (hi : UplinkOpen c)
    (hj : c.jobs = .coroutine co :: l) (r : Outcome) (hd : (Job.coroutine co).isDial = true) :
    UplinkOpen { c with jobs := l ++ (co.resume r).2, trace := c.trace ++ (co.resume r).1 } := by
  cases co with
  | dialDirect calling d =>
    cases calling with
    | false => exact uplink_dial hi hj rfl rfl id rfl (.none 0)
    | true =>
      cases r with
      | returned _ => exact uplink_dial hi hj rfl rfl id rfl (.none 0)
      | threw => exact uplink_dial hi hj rfl rfl id rfl (.none 0)
      | cancelled => exact uplink_dial hi hj rfl rfl (fun h => .inl h.1) rfl (.none 0)
  | dialProxy calling hops d =>
    -- the turn before the call that carries `initialData`
    have hlast : ∀ b k, (b = false ∧ k = hops ∨ b = true ∧ hops = k + 1) →
        calling = b → UplinkOpen { c with
          jobs := l ++ [.coroutine (.dialProxy true k d)], trace := c.trace ++ finalHop k d } := by
      rintro b k hbk rfl
      cases k with
      | succ k =>
        refine uplink_dial hi hj rfl rfl id ?_ ?_
        · rcases hbk with ⟨rfl, rfl⟩ | ⟨rfl, rfl⟩ <;> rfl
        · rcases hbk with ⟨rfl, rfl⟩ | ⟨rfl, rfl⟩ <;> exact .none 0
      | zero =>
        cases d with
        | none =>
          refine uplink_dial hi hj rfl rfl id ?_ ?_
          · rcases hbk with ⟨rfl, rfl⟩ | ⟨rfl, rfl⟩ <;> rfl
          · rcases hbk with ⟨rfl, rfl⟩ | ⟨rfl, rfl⟩ <;> exact .none 0
        | some d =>
          refine uplink_dial hi hj rfl rfl id ?_ ?_
          · rcases hbk with ⟨rfl, rfl⟩ | ⟨rfl, rfl⟩ <;>
              simp [finalHop, handedBytes, Obs.handedPart, Job.unsent]
          · rcases hbk with ⟨rfl, rfl⟩ | ⟨rfl, rfl⟩ <;> exact .start d
    cases calling with
    | false => exact hlast false hops (.inl ⟨rfl, rfl⟩) rfl
    | true =>
      cases hops with
      | succ hops =>
        cases r with
        | returned _ => exact hlast true hops (.inr ⟨rfl, rfl⟩) rfl
        | threw => exact uplink_dial hi hj rfl rfl id rfl (.none 0)
        | cancelled => exact uplink_dial hi hj rfl rfl (fun h => .inr h.1) rfl (.none 0)
      | zero =>
        have hstop : FlightStep (if d.isSome then [Obs.sendEnd] else [])
            (Job.coroutine (.dialProxy true 0 d)).sending 0 := by
          cases d with
          | none => exact .none 0
          | some d => exact .stop
        have hnone : handedBytes (if d.isSome then [Obs.sendEnd] else []) = [] := by
          split <;> rfl
        cases r with
        | returned _ =>
          exact uplink_dial hi hj rfl rfl id ((append_nil _).trans hnone) hstop
        | threw => exact uplink_dial hi hj rfl rfl id ((append_nil _).trans hnone) hstop
        | cancelled =>
          exact uplink_dial hi hj rfl rfl (fun h => .inr h.1)
            ((append_nil _).trans hnone) hstop
  | dialAbandoned held k => exact uplink_dial hi hj rfl rfl id rfl (.none 0)
  | connectSend | flush | receive => cases hd

/-- The coroutine of the connect-time drain. -/
theorem uplink_resume_send {calling : Bool} {todo : List Bytes} {k : Nat} (hi : UplinkOpen c)
    (hj : c.jobs = .coroutine (.connectSend calling todo k) :: l) (r : Outcome)
    (hr : (Coroutine.connectSend calling todo k).sendCancelled r = false) :
    UplinkOpen { c with
      jobs := l ++ ((Coroutine.connectSend calling todo k).resume r).2
      trace := c.trace ++ ((Coroutine.connectSend calling todo k).resume r).1 } := by
  cases calling with
  | false =>
    cases todo with
    | nil => exact uplink_send hi hj rfl rfl rfl rfl rfl (Nat.zero_le 1) rfl (.none 0)
    | cons d todo =>
      refine uplink_send hi hj rfl rfl rfl rfl rfl (Nat.le_refl 1) ?_ (.start d)
      show (d ++ []) ++ (todo.flatten ++ []) = (d :: todo).flatten
      simp
  | true =>
    cases r with
    | returned _ =>
      cases htail : todo.tail with
      | nil =>
        simp only [Coroutine.resume, htail, connectSendFrom]
        refine uplink_send hi hj rfl rfl rfl rfl rfl (Nat.zero_le 1) ?_ .stop
        show [] = todo.tail.flatten
        simp [htail]
      | cons d rest =>
        simp only [Coroutine.resume, htail, connectSendFrom]
        refine uplink_send hi hj rfl rfl rfl rfl rfl (Nat.le_refl 1) ?_ (.next d)
        show (d ++ []) ++ (rest.flatten ++ []) = todo.tail.flatten
        simp [htail]
    | threw =>
      refine uplink_send hi hj rfl rfl rfl rfl rfl (Nat.le_refl 1) ?_ .stop
      show [] ++ (todo.tail.flatten ++ []) = todo.tail.flatten
      simp
    | cancelled => cases hr

theorem uplink_resume_flush {calling : Bool} {data : Bytes} {sent : Nat} (hi : UplinkOpen c)
    (hj : c.jobs = .coroutine (.flush calling data sent) :: l) (r : Outcome)
    (hr : (Coroutine.flush calling data sent).sendCancelled r = false)
    (hno : ∀ o ∈ c.sends, o.drains = false) :
    UplinkOpen { c with
      jobs := l ++ ((Coroutine.flush calling data sent).resume r).2
      trace := c.trace ++ ((Coroutine.flush calling data sent).resume r).1 } := by
  have hchunk := flushChunk_append_drop data
  cases calling with
  | false =>
    simp only [Coroutine.resume, flushFrom]
    split
    · refine uplink_flush hi hj rfl hno rfl rfl rfl (Nat.le_refl 1) ?_ (.start _)
      show (flushChunk data sent ++ []) ++
        (data.drop (sent + (flushChunk data sent).length) ++ []) = data.drop sent
      simpa using hchunk sent
    · rename_i hdone
      refine uplink_flush hi hj rfl hno rfl rfl rfl (Nat.le_refl 1) ?_ (.none 0)
      exact (drop_eq_nil_iff.mpr (not_lt.mp hdone)).symm
  | true =>
    cases r with
    | returned _ =>
      simp only [Coroutine.resume, flushFrom]
      generalize hnext : sent + (flushChunk data sent).length = next
      split
      · refine uplink_flush hi hj rfl hno rfl rfl rfl (Nat.le_refl 1) ?_ (.next _)
        show (flushChunk data next ++ []) ++
          (data.drop (next + (flushChunk data next).length) ++ []) =
            data.drop (sent + (flushChunk data sent).length)
        simpa [hnext] using hchunk next
      · rename_i hdone
        refine uplink_flush hi hj rfl hno rfl rfl rfl (Nat.le_refl 1) ?_ .stop
        show [] = data.drop (sent + (flushChunk data sent).length)
        exact (drop_eq_nil_iff.mpr (by omega)).symm
    | threw =>
      refine uplink_flush hi hj rfl hno rfl rfl rfl (Nat.le_refl 1) ?_ .stop
      show [] ++ (data.drop (sent + (flushChunk data sent).length) ++ []) =
        data.drop (sent + (flushChunk data sent).length)
      simp
    | cancelled => cases hr

/-- lwIP delivers while the remote side is not connected. -/
theorem uplink_deliverPending (hi : UplinkOpen c) (hl : c.live = false)
    (data : Bytes) :
    UplinkOpen { c with
      pendingData := c.pendingData.write data, trace := c.trace ++ [.delivered data] } := by
  obtain ⟨hsingle, hflight⟩ :=
    singleFlight_append hi.single (l := [.delivered data]) (by simp [Obs.kind])
  obtain ⟨hsends, hflushes, htasks, hco⟩ := hi.before_live hl
  refine ⟨hi.dials_le, hi.sends_le, hi.flushes_le, hi.tasks_le, ?_, hi.before_live, ?_,
    hi.in_flight, hi.scheduled, hi.apart, ?_, hflight.trans hi.flight, hsingle⟩
  · exact fun j hj => dialFlags_congr (hi.dial_flags j hj) rfl rfl rfl
  · intro h
    exact absurd h (by simpa [Core.live] using hl)
  · -- nothing is coalesced yet, so the new bytes are the last of the stream
    have hstream := hi.stream
    simp only [Core.unsent, hco, hsends, hflushes, flatMap_nil, append_nil] at hstream
    simp only [Core.unsent, Core.dials, Core.sends, Core.flushes, Core.coalesced,
      ByteArrayOutputStream.toByteArray_write, handedBytes_append, deliveredBytes_append]
    simp only [Core.dials, Core.sends, Core.flushes, Core.coalesced] at hstream hsends hflushes hco
    rw [hsends, hflushes, hco, ← hstream]
    simp [handedBytes, deliveredBytes, Obs.handedPart, Obs.deliveredPart]

/-- lwIP delivers to a connected remote side. -/
theorem uplink_deliverCoalesce (hi : UplinkOpen c) (hl : c.live = true)
    (data : Bytes) :
    UplinkOpen { c with
      coalesceBuffer := some ((c.coalesceBuffer.getD .empty).write data)
      trace := c.trace ++ [.delivered data] } := by
  obtain ⟨hsingle, hflight⟩ :=
    singleFlight_append hi.single (l := [.delivered data]) (by simp [Obs.kind])
  refine ⟨hi.dials_le, hi.sends_le, hi.flushes_le, hi.tasks_le, ?_, ?_, hi.live_pending,
    hi.in_flight, hi.scheduled, hi.apart, ?_, hflight.trans hi.flight, hsingle⟩
  · exact fun j hj => dialFlags_congr (hi.dial_flags j hj) rfl rfl rfl
  · intro h
    exact absurd hl (by simpa [Core.live] using h)
  · have hstream := hi.stream
    simp only [Core.unsent, Core.dials, Core.sends, Core.flushes, Core.coalesced, Option.getD_some,
      ByteArrayOutputStream.toByteArray_write, handedBytes_append, deliveredBytes_append]
      at hstream ⊢
    rw [← hstream]
    simp [handedBytes, deliveredBytes, Obs.handedPart, Obs.deliveredPart]

theorem uplink_dialStarts (hi : UplinkOpen c) (hidle : c.idle)
    (hd : j.isDial = true) (hflags : c'.DialFlags j) (hsend : j.sending = 0)
    (hj : c'.jobs = c.jobs ++ [j]) (htr : c'.trace = c.trace)
    (hco : c'.coalesceBuffer = c.coalesceBuffer)
    (hbytes : j.unsent ++ c'.pendingData.toByteArray = c.pendingData.toByteArray) :
    UplinkOpen c' := by
  have hlive := dialFlags_not_live hflags
  have hc := isDial_only hd
  obtain ⟨hsends, hflushes, htasks, hcoal⟩ := hi.before_live (idle.not_live hidle)
  have hdials : c.dials = [] := by
    rcases hds : c.dials with _ | ⟨o, rest⟩
    · rfl
    · have hflag : c.directConnecting = true ∨ c.vlessConnecting = true := by
        have := hi.dial_flags o (by simp [hds])
        unfold Core.DialFlags at this
        split at this <;> simp_all [Core.idle]
      rcases hflag with h | h <;> simp [hidle.2.2.1, hidle.2.2.2] at h
  have hcoal' : c'.coalesced = [] := by
    rw [← hcoal, Core.coalesced, Core.coalesced, hco]
  simp only [Core.dials, Core.sends, Core.flushes, Core.flushTasks] at hdials hsends hflushes htasks
  have hdials' : c'.dials = [j] := by simp [Core.dials, hj, hdials, hd]
  have hsends' : c'.sends = [] := by simp [Core.sends, hj, hsends, hc]
  have hflushes' : c'.flushes = [] := by simp [Core.flushes, hj, hflushes, hc]
  have htasks' : c'.flushTasks = [] := by simp [Core.flushTasks, hj, htasks, hc]
  refine ⟨by simp [hdials'], by simp [hsends'], by simp [hflushes'], by simp [htasks'], ?_,
    fun _ => ⟨hsends', hflushes', htasks', hcoal'⟩, ?_, by simp [hflushes'], by simp [htasks'],
    by simp [hsends'], ?_, ?_, htr ▸ hi.single⟩
  · intro o ho
    rw [hdials', mem_singleton] at ho
    exact ho ▸ hflags
  · intro h
    simp [hlive] at h
  · have hstream := hi.stream
    simp only [Core.unsent, Core.dials, Core.sends, Core.flushes, hdials, hsends, hflushes, hcoal,
      flatMap_nil, nil_append, append_nil] at hstream
    simp only [Core.unsent, hdials', hsends', hflushes', hcoal', htr, flatMap_cons,
      flatMap_nil, append_nil, hbytes]
    exact hstream
  · rw [htr, hi.flight, hj]
    simp [hsend]

/-- The remote side is connected: what was extracted and what is pending goes to
the connect-time drain. -/
theorem uplink_connected (hi : UplinkOpen c)
    (hj : c.jobs = j :: l) (hd : j.isDial = true) (hsend : j.sending = 0)
    (hj' : c'.jobs = l ++ new) (hlive : c'.live = true)
    (hpending : c'.pendingData.toByteArray = [])
    (hco : c'.coalesceBuffer = c.coalesceBuffer) (htr : c'.trace = c.trace ++ tr)
    (hk : ∀ o ∈ tr, o.kind ≠ .send) (hdel : deliveredBytes tr = [])
    (hnew : (∃ todo k, new = [.coroutine (.connectSend false todo k)] ∧
        j.unsent ++ c.pendingData.toByteArray = todo.flatten) ∨
      (new = [] ∧ j.unsent = [] ∧ c.pendingData.toByteArray = [])) : UplinkOpen c' := by
  have hc := isDial_only hd
  have hflags : c.DialFlags j := hi.dial_flags j (by simp [Core.dials, hj, hd])
  obtain ⟨hsends, hflushes, htasks, hcoal⟩ := hi.before_live (dialFlags_not_live hflags)
  have hdials : l.filter Job.isDial = [] :=
    filter_tail hd (by have := hi.dials_le; rwa [Core.dials, hj] at this)
  simp only [Core.sends, Core.flushes, Core.flushTasks, hj, filter_cons, hc,
    Bool.false_eq_true, if_false] at hsends hflushes htasks
  have hstream := hi.stream
  simp only [Core.unsent, Core.dials, Core.sends, Core.flushes, hj, filter_cons, hd, hc,
    hdials, hsends, hflushes, hcoal, if_true, Bool.false_eq_true, if_false, flatMap_cons,
    flatMap_nil, append_nil] at hstream
  have hcoal' : c'.coalesced = [] := by
    rw [← hcoal, Core.coalesced, Core.coalesced, hco]
  obtain ⟨hsingle, hflight⟩ := singleFlight_append hi.single hk
  have hcount : (c'.jobs.map Job.sending).sum = (c.jobs.map Job.sending).sum := by
    rcases hnew with ⟨todo, k, rfl, -⟩ | ⟨rfl, -⟩
    · have hzero : (Job.coroutine (.connectSend false todo k)).sending = 0 := rfl
      simp [hj', hj, hsend, hzero]
    · simp [hj', hj, hsend]
  have hdials' : c'.dials = [] := by
    rcases hnew with ⟨todo, k, rfl, -⟩ | ⟨rfl, -⟩
    · simp only [Core.dials, hj', filter_append, hdials]
      rfl
    · simpa [Core.dials, hj'] using hdials
  have hflushes' : c'.flushes = [] := by
    rcases hnew with ⟨todo, k, rfl, -⟩ | ⟨rfl, -⟩
    · simp only [Core.flushes, hj', filter_append, hflushes]
      rfl
    · simpa [Core.flushes, hj'] using hflushes
  have htasks' : c'.flushTasks = [] := by
    rcases hnew with ⟨todo, k, rfl, -⟩ | ⟨rfl, -⟩
    · simp only [Core.flushTasks, hj', filter_append, htasks]
      rfl
    · simpa [Core.flushTasks, hj'] using htasks
  have hsends' : c'.sends = new := by
    rcases hnew with ⟨todo, k, rfl, -⟩ | ⟨rfl, -⟩
    · simp only [Core.sends, hj', filter_append, hsends]
      rfl
    · simpa [Core.sends, hj'] using hsends
  refine ⟨by simp [hdials'], ?_, by simp [hflushes'], by simp [htasks'], by simp [hdials'], ?_,
    fun _ => hpending, by simp [hflushes'], by simp [htasks'], by simp [hflushes'], ?_, ?_,
    htr ▸ hsingle⟩
  · rw [hsends']
    rcases hnew with ⟨todo, k, rfl, -⟩ | ⟨rfl, -⟩ <;> simp
  · intro h
    simp [hlive] at h
  · have hunsent : new.flatMap Job.unsent = j.unsent ++ c.pendingData.toByteArray := by
      rcases hnew with ⟨todo, k, rfl, hbytes⟩ | ⟨rfl, h1, h2⟩
      · rw [hbytes]
        simp [Job.unsent]
      · simp [h1, h2]
    simp only [Core.unsent, hdials', hsends', hflushes', hcoal', hpending, htr, flatMap_nil,
      nil_append, append_nil, hunsent, handedBytes_append, deliveredBytes_append,
      handedBytes_eq_nil hk, hdel]
    exact hstream
  · rw [htr, hflight, hi.flight, hcount]

/-- A flush is launched with what was coalesced: from the posted task, or right
after the flush before it. -/
theorem uplink_flushLaunched (hi : UplinkOpen c)
    (hj : c.jobs = j :: l) (hlive : c.live = true) (hdial : j.isDial = false)
    (hsend : j.isSend = false) (hsending : j.sending = 0) (hunsent : j.unsent = [])
    (hflushes : l.filter Job.isFlush = []) (htasks : l.filter Job.isFlushTask = [])
    {buf : ByteArrayOutputStream} (hb : c.coalesceBuffer = some buf) :
    UplinkOpen { c with
      coalesceBuffer := none, coalesceScheduled := false, coalesceFlushInFlight := true
      jobs := l ++ [.coroutine (.flush false buf.toByteArray 0)] } := by
  have hdials : l.filter Job.isDial = [] := by
    simpa [Core.dials, hj, filter_cons, hdial] using hi.dials_of_live hlive
  have hpending := hi.live_pending hlive
  have hfl : c.flushes.flatMap Job.unsent = [] := by
    rw [Core.flushes, hj, filter_cons]
    split <;> simp [hflushes, hunsent]
  have hsends' : (l ++ [Job.coroutine (.flush false buf.toByteArray 0)]).filter Job.isSend =
      c.sends := by
    rw [Core.sends, hj, filter_cons, hsend, filter_append]
    exact append_nil _
  have hflushes' : (l ++ [Job.coroutine (.flush false buf.toByteArray 0)]).filter Job.isFlush =
      [.coroutine (.flush false buf.toByteArray 0)] := by
    rw [filter_append, hflushes]
    rfl
  have hdials' : (l ++ [Job.coroutine (.flush false buf.toByteArray 0)]).filter Job.isDial =
      [] := by
    rw [filter_append, hdials]
    rfl
  have htasks' : (l ++ [Job.coroutine (.flush false buf.toByteArray 0)]).filter Job.isFlushTask =
      [] := by
    rw [filter_append, htasks]
    rfl
  refine ⟨?_, ?_, ?_, ?_, ?_, ?_, fun _ => hpending, fun _ => rfl, ?_, ?_, ?_, ?_, hi.single⟩
  · simp [Core.dials, hdials']
  · simpa only [Core.sends, hsends'] using hi.sends_le
  · simp [Core.flushes, hflushes']
  · simp [Core.flushTasks, htasks']
  · intro o ho
    simp [Core.dials, hdials'] at ho
  · intro h
    exact absurd hlive (by simpa [Core.live] using h)
  · intro h
    simp [Core.flushTasks, htasks'] at h
  · intro _ o ho
    simp only [Core.flushes, hflushes', mem_singleton] at ho
    subst ho
    rfl
  · have hstream := hi.stream
    have hdialsc : c.dials = [] := hi.dials_of_live hlive
    simp only [Core.unsent, hdialsc, hfl, hpending, flatMap_nil, nil_append,
      append_nil, Core.coalesced, hb, Option.getD_some] at hstream
    simp only [Core.unsent, Core.dials, Core.sends, Core.flushes, hdials', hsends', hflushes',
      hpending, Core.coalesced, Option.getD_none, flatMap_cons, flatMap_nil,
      append_nil, nil_append, ByteArrayOutputStream.toByteArray_empty]
    exact hstream
  · have hzero : (Job.coroutine (.flush false buf.toByteArray 0)).sending = 0 := rfl
    rw [hi.flight, hj]
    simp [hsending, hzero]

/-- A flush, or its posted task, ends with nothing coalesced or goes on later. -/
theorem uplink_flushEnds (hi : UplinkOpen c)
    (hj : c.jobs = j :: l) (hlive : c.live = true) (hdial : j.isDial = false)
    (hsend : j.isSend = false) (hsending : j.sending = 0) (hunsent : j.unsent = [])
    (hflushes : l.filter Job.isFlush = []) (htasks : l.filter Job.isFlushTask = [])
    (hj' : c'.jobs = l) (htr : c'.trace = c.trace) (hpd : c'.pendingData = c.pendingData)
    (hlive' : c'.live = true) (hco : c'.coalesced = c.coalesced) : UplinkOpen c' := by
  have hdials : l.filter Job.isDial = [] := by
    simpa [Core.dials, hj, filter_cons, hdial] using hi.dials_of_live hlive
  have hfl : c.flushes.flatMap Job.unsent = [] := by
    rw [Core.flushes, hj, filter_cons]
    split <;> simp [hflushes, hunsent]
  have hsends' : c'.sends = c.sends := by
    rw [Core.sends, Core.sends, hj', hj, filter_cons, hsend]
    simp
  have hdials' : c'.dials = [] := by rw [Core.dials, hj', hdials]
  have hflushes' : c'.flushes = [] := by rw [Core.flushes, hj', hflushes]
  have htasks' : c'.flushTasks = [] := by rw [Core.flushTasks, hj', htasks]
  refine ⟨by simp [hdials'], hsends' ▸ hi.sends_le, by simp [hflushes'], by simp [htasks'],
    by simp [hdials'], ?_, ?_, by simp [hflushes'], by simp [htasks'], by simp [hflushes'], ?_, ?_,
    htr ▸ hi.single⟩
  · intro h
    simp [hlive'] at h
  · intro _
    rw [hpd]
    exact hi.live_pending hlive
  · have hstream := hi.stream
    have hdialsc : c.dials = [] := hi.dials_of_live hlive
    simp only [Core.unsent, hdialsc, hfl, flatMap_nil, nil_append, append_nil]
      at hstream
    simp only [Core.unsent, hdials', hsends', hflushes', hpd, hco, htr, flatMap_nil,
      nil_append, append_nil]
    exact hstream
  · rw [htr, hi.flight, hj, hj']
    simp [hsending]

/-- A flush task is posted for what was coalesced. -/
theorem uplink_schedule (hi : UplinkOpen c) (hl : c.live = true)
    (hf : c.coalesceFlushInFlight = false) (hs : c.coalesceScheduled = false) :
    UplinkOpen { c with
      coalesceScheduled := true, jobs := c.jobs ++ [.flushCoalesceBuffer] } := by
  have htasks : c.jobs.filter Job.isFlushTask = [] := by
    by_contra h
    have := (hi.scheduled h).1
    simp [hs] at this
  have hkeep : ∀ p : Job → Bool, p .flushCoalesceBuffer = false →
      (c.jobs ++ [Job.flushCoalesceBuffer]).filter p = c.jobs.filter p := by
    intro p hp
    simp [filter_append, hp]
  have hdials := hkeep Job.isDial rfl
  have hsends := hkeep Job.isSend rfl
  have hflushes := hkeep Job.isFlush rfl
  refine ⟨?_, ?_, ?_, ?_, ?_, ?_, hi.live_pending, ?_, fun _ => ⟨rfl, hf⟩, ?_, ?_, ?_, hi.single⟩
  · simpa only [Core.dials, hdials] using hi.dials_le
  · simpa only [Core.sends, hsends] using hi.sends_le
  · simpa only [Core.flushes, hflushes] using hi.flushes_le
  · rw [Core.flushTasks, filter_append, htasks]
    exact Nat.le_refl 1
  · intro j hj
    rw [Core.dials, hdials] at hj
    exact dialFlags_congr (hi.dial_flags j hj) rfl rfl rfl
  · intro h
    exact absurd hl (by simpa [Core.live] using h)
  · intro h
    exact hi.in_flight (by simpa only [Core.flushes, hflushes] using h)
  · intro h j hj
    rw [Core.flushes, hflushes] at hj
    exact hi.apart (by simpa only [Core.sends, hsends] using h) j hj
  · have hstream := hi.stream
    simp only [Core.unsent, Core.dials, Core.sends, Core.flushes, hdials, hsends, hflushes,
      Core.coalesced] at hstream ⊢
    exact hstream
  · rw [hi.flight]
    simp [Job.sending]

theorem uplink_coroutine {co : Coroutine} (hi : UplinkOpen c)
    (hj : c.jobs = .coroutine co :: l) (r : Outcome) (hr : co.sendCancelled r = false)
    (hF : co.startsFlush = true → NoDrain l) :
    UplinkOpen { c with jobs := l ++ (co.resume r).2, trace := c.trace ++ (co.resume r).1 } := by
  cases co with
  | dialDirect | dialProxy | dialAbandoned => exact uplink_resume_dial hi hj r rfl
  | connectSend => exact uplink_resume_send hi hj r hr
  | flush calling data sent =>
    refine uplink_resume_flush hi hj r hr ?_
    cases calling with
    | false =>
      -- the flush starts here: this is the one place that needs the condition
      intro o ho
      rw [Core.sends, hj] at ho
      obtain ⟨ho, hsend⟩ := mem_filter.mp ho
      rcases mem_cons.mp ho with rfl | ho
      · cases hsend
      · exact hF rfl o ho
    | true =>
      refine no_drain_of_started hi (j := .coroutine (.flush true data sent)) ?_ rfl
      rw [Core.flushes, hj]
      exact mem_cons_self
  | receive calling =>
    have hframe : ∀ j : Job, j.isDial = false → j.isSend = false → j.isFlush = false →
        j.isFlushTask = false → j.sending = 0 →
        UplinkOpen { c with jobs := l ++ [j], trace := c.trace ++ [] } := by
      intro j h1 h2 h3 h4 h5
      have hfilter : ∀ p : Job → Bool, p (.coroutine (.receive calling)) = false →
          p j = false → (l ++ [j]).filter p = c.jobs.filter p := by
        intro p hp hp'
        simp [hj, filter_append, hp, hp']
      refine uplink_frame hi _ _ _ _ (by simp) rfl (hfilter _ rfl h1) (hfilter _ rfl h2)
        (hfilter _ rfl h3) (hfilter _ rfl h4) ?_
      have hzero : (Job.coroutine (.receive calling)).sending = 0 := rfl
      simp [hj, h5, hzero]
    cases calling with
    | false => exact hframe _ rfl rfl rfl rfl rfl
    | true => exact hframe _ rfl rfl rfl rfl rfl

theorem uplink_frame_job (hi : UplinkOpen c) {jobs : List Job} (tr : List Obs)
    (w : ByteArrayOutputStream) (b : Bool) (hk : ∀ o ∈ tr, o.kind ≠ .send)
    (hdel : deliveredBytes tr = [])
    (hj : j.isDial = false ∧ j.isSend = false ∧ j.isFlush = false ∧ j.isFlushTask = false ∧
      j.sending = 0)
    (hjobs : c.jobs = j :: jobs ∨ jobs = c.jobs ++ [j]) :
    UplinkOpen { c with
      jobs := jobs, trace := c.trace ++ tr, pendingWrite := w, receiveInFlight := b } := by
  obtain ⟨hd, hs, hf, ht, hz⟩ := hj
  have hfilter : ∀ p : Job → Bool, p j = false → jobs.filter p = c.jobs.filter p := by
    intro p hp
    rcases hjobs with h | h <;> simp [h, filter_append, hp]
  refine uplink_frame hi jobs tr w b hk hdel (hfilter _ hd) (hfilter _ hs) (hfilter _ hf)
    (hfilter _ ht) ?_
  rcases hjobs with h | h <;> simp [h, hz]

theorem uplinkInv_action (h : Action NoDrain c c') (hi : UplinkInv c) :
    UplinkInv c' := by
  cases h with
  | pick hperm =>
    intro ho
    have ho := hi ho
    simpa using uplink_frame ho _ [] c.pendingWrite c.receiveInFlight (by simp) rfl
      (Lib.filter_eq_of_perm hperm ho.dials_le).symm
      (Lib.filter_eq_of_perm hperm ho.sends_le).symm
      (Lib.filter_eq_of_perm hperm ho.flushes_le).symm
      (Lib.filter_eq_of_perm hperm ho.tasks_le).symm
      (Lib.sum_map_perm hperm Job.sending).symm
  | afterClosed hc hc' | shut ho hc' =>
    intro h
    simp [hc'] at h
  | ret ho err =>
    intro _
    exact uplink_frame (hi ho) _ _ _ _ (by simp [Obs.kind]) rfl rfl rfl rfl rfl rfl
  | deliverPending ho hl data => exact fun _ => uplink_deliverPending (hi ho) hl data
  | deliverCoalesce ho hl data => exact fun _ => uplink_deliverCoalesce (hi ho) hl data
  | schedule ho hl hf hs => exact fun _ => uplink_schedule (hi ho) hl hf hs
  | dialDirect ho hidle d rest hd =>
    exact fun _ => uplink_dialStarts (j := .coroutine (.dialDirect false d)) (hi ho) hidle rfl
      ⟨rfl, hidle.2.2.2, rfl⟩ rfl rfl rfl rfl hd
  | dialProxy ho hidle hops d rest hd =>
    exact fun _ => uplink_dialStarts (j := .coroutine (.dialProxy false hops d)) (hi ho) hidle rfl
      ⟨rfl, hidle.2.2.1⟩ rfl rfl rfl rfl hd
  | @directConnected ho d _ hj rest hrest new hnew =>
    intro _
    have hopen := hi ho
    have hflags : c.DialFlags (.directConnected d) :=
      hopen.dial_flags _ (by rw [Core.dials, hj]; exact mem_cons_self)
    obtain ⟨-, hv, hr⟩ := hflags
    refine uplink_connected hopen hj rfl rfl rfl ?_ hrest rfl (append_nil _).symm (by simp)
      rfl ?_
    · simp [Core.live, hv, hr]
    · rcases hnew with ⟨todo, rfl, hbytes⟩ | ⟨rfl, rfl, hbytes⟩
      · exact .inl ⟨todo, _, rfl, hbytes⟩
      · exact .inr ⟨rfl, rfl, hbytes⟩
  | @proxyConnected ho k _ hj rest hrest new tr hnew =>
    intro _
    have hopen := hi ho
    have hflags : c.DialFlags (.proxyConnected k) :=
      hopen.dial_flags _ (by rw [Core.dials, hj]; exact mem_cons_self)
    obtain ⟨-, hdc⟩ := hflags
    refine uplink_connected hopen hj rfl rfl rfl ?_ hrest rfl rfl ?_ ?_ ?_
    · simp [Core.live, hdc]
    · rcases hnew with ⟨-, rfl⟩ | ⟨-, rfl, -⟩
      · simp
      · intro o h
        rcases ackObs_kind _ o h with h | rfl <;> simp_all [Obs.kind]
    · rcases hnew with ⟨-, rfl⟩ | ⟨-, rfl, -⟩
      · rfl
      · exact deliveredBytes_ackObs _
    · rcases hnew with ⟨rfl, -⟩ | ⟨rfl, -, hbytes⟩
      · exact .inl ⟨_, _, rfl, by simp [Job.unsent]⟩
      · exact .inr ⟨rfl, rfl, hbytes⟩
  | @flushTask ho l hj buf hb hne =>
    intro _
    obtain ⟨hlive, hfl, htasks⟩ := (hi ho).of_flushTask hj
    exact uplink_flushLaunched (hi ho) hj hlive rfl rfl rfl rfl hfl htasks hb
  | @flushTaskIdle ho l hj hb =>
    intro _
    obtain ⟨hlive, hfl, htasks⟩ := (hi ho).of_flushTask hj
    rcases hb with hb | ⟨hr, hv⟩
    · exact uplink_flushEnds (hi ho) hj hlive rfl rfl rfl rfl hfl htasks rfl rfl rfl hlive hb.symm
    · simp [Core.live, hr, hv] at hlive
  | @flushDone ho l hj hb =>
    intro _
    obtain ⟨hlive, hfl, htasks⟩ := (hi ho).of_flush hj rfl
    exact uplink_flushEnds (hi ho) hj hlive rfl rfl rfl rfl hfl htasks rfl rfl rfl hlive rfl
  | @flushAgain ho l hj buf hb hne =>
    intro _
    obtain ⟨hlive, hfl, htasks⟩ := (hi ho).of_flush hj rfl
    exact uplink_flushLaunched (hi ho) hj hlive rfl rfl rfl rfl hfl htasks hb
  | flushLost ho hj hb =>
    obtain ⟨hlive, -, -⟩ := (hi ho).of_flush hj rfl
    simp [Core.live, hb.1, hb.2] at hlive
  | flushCancelled ho hj =>
    intro _
    obtain ⟨hlive, hfl, htasks⟩ := (hi ho).of_flush hj rfl
    exact uplink_flushEnds (hi ho) hj hlive rfl rfl rfl rfl hfl htasks rfl rfl rfl hlive rfl
  | coroutine ho hj r hr hF => exact fun _ => uplink_coroutine (hi ho) hj r hr hF
  | @ack ho bytes l hj =>
    intro _
    refine uplink_frame_job (j := .ack bytes) (hi ho) _ _ _ ?_ (deliveredBytes_ackObs _)
      ⟨rfl, rfl, rfl, rfl, rfl⟩ (.inl hj)
    intro o h
    rcases ackObs_kind _ o h with h | rfl <;> simp_all [Obs.kind]
  | @received ho r l hj =>
    intro _
    have := uplink_frame_job (j := .received r) (hi ho) [] c.pendingWrite false (by simp) rfl
      ⟨rfl, rfl, rfl, rfl, rfl⟩ (.inl hj)
    simpa using this
  | drainRetry ho hj =>
    intro _
    have := uplink_frame_job (j := .drainRetry) (hi ho) [] c.pendingWrite c.receiveInFlight
      (by simp) rfl ⟨rfl, rfl, rfl, rfl, rfl⟩ (.inl hj)
    simpa using this
  | armReceive ho =>
    intro _
    have := uplink_frame_job (j := .coroutine (.receive false)) (hi ho) [] c.pendingWrite true
      (by simp) rfl ⟨rfl, rfl, rfl, rfl, rfl⟩ (.inr rfl)
    simpa using this
  | postRetry ho =>
    intro _
    have := uplink_frame_job (j := .drainRetry) (hi ho) [] c.pendingWrite c.receiveInFlight
      (by simp) rfl ⟨rfl, rfl, rfl, rfl, rfl⟩ (.inr rfl)
    simpa using this
  | upstream ho data =>
    intro _
    exact uplink_frame (hi ho) _ _ _ _ (by simp [Obs.kind]) rfl rfl rfl rfl rfl rfl
  | feed ho l rest hl hw =>
    intro _
    refine uplink_frame (hi ho) _ _ _ _ ?_ (deliveredBytes_eq_nil ?_) rfl rfl rfl rfl rfl
    · intro o h
      simp [hl o h]
    · intro o h
      simp [hl o h]

/-! ## Runs -/

/-- What the uplink of an open connection promises: the bytes handed upstream, in
call order, are the first of the delivered ones, and sends do not overlap. -/
structure UplinkStream (c : Core) : Prop where
  ordered : handedBytes c.trace <+: deliveredBytes c.trace
  single : SingleFlight c.trace

/-- **The uplink stream.** In every run in which a flush starts only when the
connect-time drain is over, and in every state of it in which the connection is
open: what was handed upstream followed by what is still held is, in order,
exactly what lwIP delivered; and no upstream send was started while an earlier
one was running. -/
theorem uplink_stream (env : Env σ) (p : Params σ) (es : List Event)
    (hes : Lib.RunAll (step env) (FlushStartsIn NoDrain) (init env p) es)
    (ho : (runFrom env p es).closed = false) :
    UplinkStream (runFrom env p es).toCore ∧
      handedBytes (runFrom env p es).trace ++ (runFrom env p es).unsent =
        deliveredBytes (runFrom env p es).trace := by
  have hinv : UplinkInv (runFrom env p es).toCore :=
    core_invariant_of uplinkInv_fresh (fun _ _ => uplinkInv_action) env p es hes
  have hopen := hinv ho
  exact ⟨⟨⟨_, hopen.stream⟩, hopen.single⟩, hopen.stream⟩

/-- A byte arrives before the relay connects; when it has, the drain sends it. -/
def drainSends : List Event :=
  [.recv (lwip 0 0) [1] false] ++ relayConnects ++ [returns 0]

/-- The drain ends, then a second byte is coalesced and flushed. -/
theorem uplink_stream_flush_after_drain :
    UplinkStream (runFrom plainEnv bypassed (drainSends ++
        [returns 1, .recv (lwip 0 0) [2] false, returns 2, returns 2])).toCore ∧
      handedBytes (runFrom plainEnv bypassed (drainSends ++
        [returns 1, .recv (lwip 0 0) [2] false, returns 2, returns 2])).trace = [1, 2] :=
  ⟨(uplink_stream plainEnv bypassed _ (by decide) (by decide)).1, by decide⟩

/-- The second byte is flushed while the drain's send is still running: two
upstream sends overlap on an open connection. -/
theorem flush_overtakes_drain :
    (runFrom plainEnv bypassed (drainSends ++
        [.recv (lwip 0 0) [2] false, returns 2, returns 2])).closed = false ∧
      ¬ UplinkStream (runFrom plainEnv bypassed (drainSends ++
        [.recv (lwip 0 0) [2] false, returns 2, returns 2])).toCore := by
  refine ⟨by decide, fun h => ?_⟩
  have hzero := h.single [.delivered [1], .ret 0, .sendStart [1], .delivered [2], .ret 0] [2] []
    (by decide)
  exact absurd hzero (by decide)

end Anywhere.Tcp
