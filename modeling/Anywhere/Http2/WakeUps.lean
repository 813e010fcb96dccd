import Anywhere.Lib.Gate
import Anywhere.Http2.Sending

/-!
# Anywhere — `GrpcConnection` and `XHttpClient`: waiting for the windows

A call that finds a window empty registers in a critical section of its own, and only
WINDOW_UPDATE resumes those that are registered. A window raised in between is missed, and so is
one that SETTINGS raises.

* `NoLostWakeUp` — no call is parked with both windows positive and no resume on its way.
* `Timely` — the steps that miss nothing.
* `guarded_step`, `no_lost_wake_up` — in a run of such steps no wake-up is lost.
* `wake_up_lost` — runs of the two clients that lose one.
-/

namespace Anywhere.Http2

open Lib List
open Naive (int32 parseWindowUpdate)

namespace Uplink

def streamWindow (s : Uplink) (i : Nat) : Int :=
  match (s.calls i).upload with
  | .active => s.h2PeerStreamSendWindow
  | .packet streamId window => s.effectiveStreamWindow streamId window

/-- Both windows of the call are positive. -/
def Ready (s : Uplink) (i : Nat) : Prop := 0 < s.h2PeerConnectionWindow ∧ 0 < s.streamWindow i

def Parked (s : Uplink) (i : Nat) : Prop := (s.calls i).point = .parked

/-- A resume of the call is on its way. -/
def Awaited (s : Uplink) (i : Nat) : Prop :=
  i ∈ s.resumed ∨ i ∈ s.refused ∨ (0 < s.drains ∧ i ∈ s.h2FlowResumptions)

def NoLostWakeUp (s : Uplink) : Prop := ∀ i, s.Parked i → s.Ready i → s.Awaited i

end Uplink

/-- The steps that miss no wake-up: nobody registers whose windows are positive by then, and
neither SETTINGS nor RST_STREAM leaves positive windows to one that is registered, unless a call
of `drainH2FlowResumptions` is still to come. -/
def Timely (client : Client) (s : Uplink) : Event → Prop
  | .awaitFlowResumption i =>
    (s.calls i).point = .blocked → s.h2StreamClosed = false → s.isConnected = true →
      s.Ready i → 0 < s.drains
  | .setting 0x04 value =>
    0 < s.h2PeerConnectionWindow →
      0 < int32 (s.h2PeerStreamSendWindow + int32 (value - s.h2PeerInitialWindowSize)) →
        ∀ i ∈ s.h2FlowResumptions, (s.calls i).upload = .active → 0 < s.drains
  | .rstStream streamId =>
    client ≠ .grpc → 1 < streamId → 0 < s.h2PeerConnectionWindow →
      ∀ i ∈ s.h2FlowResumptions, ∀ window, (s.calls i).upload = .packet streamId window →
        0 < window → 0 < s.drains
  | e => IdsLast s e

-- ----
-- The invariant

structure Uplink.Guarded (s : Uplink) : Prop where
  gate : Lib.Guarded s.Ready s.Parked s.h2FlowResumptions (s.resumed ++ s.refused) s.drains
  apart : ∀ i ∈ s.resumed, i ∉ s.refused

variable {s t : Uplink}

theorem Uplink.Guarded.noLostWakeUp (h : s.Guarded) : s.NoLostWakeUp := by
  intro i hparked hready
  rcases h.gate.awaited hparked hready with htaken | hdue
  · rcases mem_append.mp htaken with hresumed | hrefused
    · exact .inl hresumed
    · exact .inr (.inl hrefused)
  · exact .inr (.inr hdue)

/-- A step of one call that neither begins nor ends to wait, and raises no window of another. -/
structure Walks (i : Nat) (s t : Uplink) : Prop where
  others : ∀ j, j ≠ i → t.calls j = s.calls j
  before : ¬ s.Parked i
  after : ¬ t.Parked i
  registered : t.h2FlowResumptions = s.h2FlowResumptions
  resumed : t.resumed = s.resumed
  refused : t.refused = s.refused
  drains : t.drains = s.drains
  lowered : ∀ j, j ≠ i → t.Ready j → s.Ready j

theorem Uplink.Guarded.walks {i : Nat} (h : s.Guarded) (hwalks : Walks i s t) : t.Guarded := by
  have hapart : ∀ i ∈ t.resumed, i ∉ t.refused := by
    rw [hwalks.resumed, hwalks.refused]
    exact h.apart
  refine ⟨?_, hapart⟩
  rw [hwalks.registered, hwalks.resumed, hwalks.refused, hwalks.drains]
  refine h.gate.congr ?_ ?_
  · intro j
    by_cases hji : j = i
    · rw [hji]
      exact iff_of_false hwalks.after hwalks.before
    · rw [Uplink.Parked, Uplink.Parked, hwalks.others j hji]
  · intro _ j hj hready
    refine hwalks.lowered j ?_ hready
    rintro rfl
    exact hwalks.before ((h.gate.kept j).mpr (.inl hj))

namespace Uplink

variable {s : Uplink} {i : Nat}

theorem not_parked {point : Point} (h : (s.calls i).point = point) (hne : point ≠ .parked) :
    ¬ s.Parked i := by
  rw [Parked, h]
  exact hne

theorem streamWindow_setPoint (point : Point) (j : Nat) :
    (s.setPoint i point).streamWindow j = s.streamWindow j := by
  unfold streamWindow
  by_cases hji : j = i
  · rw [hji, setPoint_calls, Function.update_self]
    rfl
  · rw [setPoint_calls, Function.update_of_ne hji]
    rfl

theorem ready_setPoint (point : Point) (j : Nat) : (s.setPoint i point).Ready j ↔ s.Ready j := by
  rw [Ready, streamWindow_setPoint]
  rfl

theorem parked_setPoint_parked (j : Nat) : (s.setPoint i .parked).Parked j ↔ j = i ∨
    s.Parked j := by
  unfold Parked
  by_cases hji : j = i
  · rw [hji, setPoint_calls, Function.update_self]
    exact iff_of_true rfl (.inl rfl)
  · rw [setPoint_calls, Function.update_of_ne hji]
    exact ⟨.inr, fun hor => hor.resolve_left hji⟩

theorem parked_setPoint {point : Point} (hne : point ≠ .parked) (j : Nat) :
    (s.setPoint i point).Parked j ↔ j ≠ i ∧ s.Parked j := by
  unfold Parked
  by_cases hji : j = i
  · rw [hji, setPoint_calls, Function.update_self]
    exact iff_of_false hne fun hand => hand.1 rfl
  · rw [setPoint_calls, Function.update_of_ne hji]
    exact ⟨fun hparked => ⟨hji, hparked⟩, fun hand => hand.2⟩

end Uplink

variable {client : Client}

namespace Walks

variable {s t : Uplink} {i : Nat} {call : Call} {point : Point}

/-- The call moves on, and neither the windows that are shared nor those of others are raised. -/
theorem setCall (hcalls : t.calls = s.calls)
    (hregistered : t.h2FlowResumptions = s.h2FlowResumptions) (hresumed : t.resumed = s.resumed)
    (hrefused : t.refused = s.refused) (hdrains : t.drains = s.drains) (hbefore : ¬ s.Parked i)
    (hafter : call.point ≠ .parked)
    (hconnection : t.h2PeerConnectionWindow ≤ s.h2PeerConnectionWindow)
    (hactive : t.h2PeerStreamSendWindow ≤ s.h2PeerStreamSendWindow)
    (hpacket : ∀ j, j ≠ i → ∀ id window, (s.calls j).upload = .packet id window →
      t.h2PacketStreamWindows id = s.h2PacketStreamWindows id) : Walks i s (t.setCall i call) where
  others := by
    intro j hji
    rw [Uplink.setCall_calls, Function.update_of_ne hji, hcalls]
  before := hbefore
  after := by
    rw [Uplink.Parked, Uplink.setCall_calls, Function.update_self]
    exact hafter
  registered := hregistered
  resumed := hresumed
  refused := hrefused
  drains := hdrains
  lowered := by
    intro j hji hready
    have hcall : (t.setCall i call).calls j = s.calls j := by
      rw [Uplink.setCall_calls, Function.update_of_ne hji, hcalls]
    obtain ⟨hfirst, hsecond⟩ := hready
    refine ⟨lt_of_lt_of_le hfirst hconnection, lt_of_lt_of_le hsecond ?_⟩
    unfold Uplink.streamWindow
    rw [hcall]
    rcases hupload : (s.calls j).upload with _ | ⟨id, window⟩
    · exact hactive
    · show (t.h2PacketStreamWindows id).getD window ≤ (s.h2PacketStreamWindows id).getD window
      rw [hpacket j hji id window hupload]

theorem setPoint (hbefore : ¬ s.Parked i) (hafter : point ≠ .parked) :
    Walks i s (s.setPoint i point) :=
  setCall rfl rfl rfl rfl rfl hbefore hafter (le_refl _) (le_refl _) fun _ _ _ _ _ => rfl

theorem roundActive (client : Client) (hbefore : ¬ s.Parked i) :
    Walks i s (s.roundActive client i) := by
  unfold Uplink.roundActive
  split
  · exact setPoint hbefore nofun
  · dsimp only
    split
    · exact setPoint hbefore nofun
    · have hsent := dataFrames_remaining 0 client.activeStream s.h2MaxFrameSize (s.calls i).rest
        (min s.h2PeerConnectionWindow s.h2PeerStreamSendWindow)
      have hnonneg :=
        dataBytes_nonneg (dataFrames 0 client.activeStream s.h2MaxFrameSize (s.calls i).rest
          (min s.h2PeerConnectionWindow s.h2PeerStreamSendWindow)).1
      refine setCall rfl rfl rfl rfl rfl hbefore ?_ ?_ ?_ fun _ _ _ _ _ => rfl
      · dsimp only
        split <;> exact nofun
      · dsimp only
        omega
      · dsimp only
        omega

theorem roundPacket (hown : Own client s) (hbefore : ¬ s.Parked i) {streamId : Nat}
    {streamWindow : Int} (hpacket : (s.calls i).upload = .packet streamId streamWindow) :
    Walks i s (s.roundPacket i streamId streamWindow) := by
  -- the stream is that of no other call
  have hother : ∀ value j, j ≠ i → ∀ id window, (s.calls j).upload = .packet id window →
      Function.update s.h2PacketStreamWindows streamId value id = s.h2PacketStreamWindows id := by
    intro value j hji id window hj
    refine Function.update_of_ne ?_ _ _
    rintro rfl
    exact hji (hown.apart j i id (by rw [hj]; rfl) (by rw [hpacket]; rfl))
  unfold Uplink.roundPacket
  split
  · exact setPoint hbefore nofun
  · dsimp only
    split
    · exact setCall rfl rfl rfl rfl rfl hbefore nofun (le_refl _) (le_refl _) (hother _)
    · have hsent := dataFrames_remaining 0x01 streamId s.h2MaxFrameSize
        (s.calls i).rest
          (min s.h2PeerConnectionWindow (s.effectiveStreamWindow streamId streamWindow))
      have hnonneg := dataBytes_nonneg (dataFrames 0x01 streamId s.h2MaxFrameSize (s.calls i).rest
        (min s.h2PeerConnectionWindow (s.effectiveStreamWindow streamId streamWindow))).1
      refine setCall rfl rfl rfl rfl rfl hbefore ?_ ?_ (le_refl _) (hother _)
      · dsimp only
        split <;> exact nofun
      · dsimp only
        omega

theorem sendH2PacketUp (hbefore : ¬ s.Parked i) (data headerBlock : Bytes) :
    Walks i s (s.sendH2PacketUp i data headerBlock) := by
  unfold Uplink.sendH2PacketUp
  split
  · exact setPoint hbefore nofun
  · have hsent := dataFrames_remaining 0x01 s.h2NextPacketStreamId s.h2MaxFrameSize data
      (min s.h2PeerConnectionWindow s.h2PeerInitialWindowSize)
    have hnonneg := dataBytes_nonneg (dataFrames 0x01 s.h2NextPacketStreamId s.h2MaxFrameSize data
      (min s.h2PeerConnectionWindow s.h2PeerInitialWindowSize)).1
    refine setCall rfl rfl rfl rfl rfl hbefore nofun ?_ (le_refl _) fun _ _ _ _ _ => rfl
    dsimp only
    omega

theorem written (hbefore : ¬ s.Parked i) (succeeds : Bool) (next : Bytes) (upload : Upload) :
    Walks i s (s.written i succeeds next upload) := by
  unfold Uplink.written
  split
  · refine setCall rfl rfl rfl rfl rfl hbefore ?_ (le_refl _) (le_refl _) fun _ _ _ _ _ => rfl
    dsimp only
    split <;> exact nofun
  · exact setCall rfl rfl rfl rfl rfl hbefore nofun (le_refl _) (le_refl _) fun _ _ _ _ _ => rfl

end Walks

-- ----
-- Steps

section Steps

variable {s : Uplink} {i : Nat}

theorem guarded_register (h : s.Guarded) (hblocked : (s.calls i).point = .blocked)
    (htimely : s.h2StreamClosed = false → s.isConnected = true → s.Ready i → 0 < s.drains) :
    (s.register i).Guarded := by
  have hawake : ¬ s.Parked i := Uplink.not_parked hblocked nofun
  unfold Uplink.register
  split
  · exact h.walks (Walks.setPoint hawake nofun)
  · rename_i hopen
    rw [not_or, Bool.not_eq_true, not_not] at hopen
    refine ⟨h.gate.register hawake ?_ Uplink.parked_setPoint_parked ?_, h.apart⟩
    · exact fun hready => htimely hopen.1 hopen.2 ((Uplink.ready_setPoint _ _).mp hready)
    · exact fun j _ hready => (Uplink.ready_setPoint _ _).mp hready

theorem guarded_abandon (h : s.Guarded) :
    ({ s with
      h2FlowResumptions := s.h2FlowResumptions.filter (· ≠ i)
      resumed := s.resumed.filter (· ≠ i)
      refused := s.refused.filter (· ≠ i) }.setPoint i .failed).Guarded := by
  refine ⟨h.gate.leave (Uplink.parked_setPoint nofun) ?_ ?_ ?_, ?_⟩
  · intro j
    show j ∈ s.h2FlowResumptions.filter (· ≠ i) ↔ _
    rw [mem_filter, decide_eq_true_eq, and_comm]
  · intro j
    show j ∈ s.resumed.filter (· ≠ i) ++ s.refused.filter (· ≠ i) ↔ _
    rw [← filter_append, mem_filter, decide_eq_true_eq, and_comm]
  · exact fun j _ hready => (Uplink.ready_setPoint _ _).mp hready
  · exact fun j hj hj' => h.apart j (mem_filter.mp hj).1 (mem_filter.mp hj').1

theorem mem_filter_append {xs ys : List Nat} (hi : i ∉ ys) (j : Nat) :
    j ∈ xs.filter (· ≠ i) ++ ys ↔ j ≠ i ∧ j ∈ xs ++ ys := by
  rw [mem_append, mem_append, mem_filter, decide_eq_true_eq, and_or_left, and_comm (a := j ≠ i)]
  refine or_congr Iff.rfl ⟨fun hj => ⟨?_, hj⟩, fun hj => hj.2⟩
  rintro rfl
  exact hi hj

theorem guarded_resume (h : s.Guarded) (client : Client) : (step client s (.resume i)).Guarded := by
  dsimp only [step]
  split
  · split
    · rename_i hresumed
      refine ⟨h.gate.woken (mem_append_left _ hresumed) (Uplink.parked_setPoint nofun) ?_ ?_, ?_⟩
      · exact mem_filter_append (h.apart i hresumed)
      · exact fun j _ hready => (Uplink.ready_setPoint _ _).mp hready
      · exact fun j hj => h.apart j (mem_filter.mp hj).1
    · split
      · rename_i hresumed hrefused
        refine ⟨h.gate.woken (mem_append_right _ hrefused) (Uplink.parked_setPoint nofun) ?_ ?_, ?_⟩
        · intro j
          show j ∈ s.resumed ++ s.refused.filter (· ≠ i) ↔ _
          rw [mem_append, or_comm, ← mem_append, mem_filter_append hresumed, mem_append, or_comm,
            ← mem_append]
        · exact fun j _ hready => (Uplink.ready_setPoint _ _).mp hready
        · exact fun j hj hj' => h.apart j hj (mem_filter.mp hj').1
      · exact h
  · exact h

/-- All that are registered are taken out, whatever becomes of the windows. -/
theorem guarded_taken (h : s.Guarded) (hcalls : t.calls = s.calls)
    (hregistered : t.h2FlowResumptions = [])
    (htaken : (t.resumed = s.resumed ++ s.h2FlowResumptions ∧ t.refused = s.refused) ∨
      (t.resumed = s.resumed ∧ t.refused = s.refused ++ s.h2FlowResumptions)) : t.Guarded := by
  have hparked : ∀ j, t.Parked j ↔ s.Parked j := by
    intro j
    rw [Uplink.Parked, Uplink.Parked, hcalls]
  have hin : ∀ j ∈ s.h2FlowResumptions, j ∉ s.resumed ∧ j ∉ s.refused := by
    intro j hj
    have hnot := h.gate.apart j hj
    rwa [mem_append, not_or] at hnot
  rcases htaken with ⟨hresumed, hrefused⟩ | ⟨hresumed, hrefused⟩
  · refine ⟨?_, ?_⟩
    · rw [hregistered]
      refine h.gate.wake hparked ?_ _
      intro j
      rw [hresumed, hrefused]
      simp only [mem_append]
      tauto
    · intro j hj
      rw [hresumed, mem_append] at hj
      rw [hrefused]
      rcases hj with hj | hj
      · exact h.apart j hj
      · exact (hin j hj).2
  · refine ⟨?_, ?_⟩
    · rw [hregistered]
      refine h.gate.wake hparked ?_ _
      intro j
      rw [hresumed, hrefused]
      simp only [mem_append]
      tauto
    · intro j hj
      rw [hresumed] at hj
      rw [hrefused, mem_append, not_or]
      exact ⟨h.apart j hj, fun hj' => (hin j hj').1 hj⟩

/-- No call waits longer or shorter, and no window of one that is registered is raised. -/
theorem guarded_lowered (h : s.Guarded) (hcalls : t.calls = s.calls)
    (hregistered : t.h2FlowResumptions = s.h2FlowResumptions) (hresumed : t.resumed = s.resumed)
    (hrefused : t.refused = s.refused) (hdrains : t.drains = s.drains)
    (hready : s.drains = 0 → ∀ j ∈ s.h2FlowResumptions, t.Ready j → s.Ready j) : t.Guarded := by
  refine ⟨?_, ?_⟩
  · rw [hregistered, hresumed, hrefused, hdrains]
    refine h.gate.congr ?_ hready
    intro j
    rw [Uplink.Parked, Uplink.Parked, hcalls]
  · rw [hresumed, hrefused]
    exact h.apart

theorem guarded_windowUpdate (h : s.Guarded) (client : Client) (streamId : Nat) (payload : Bytes) :
    (step client s (.windowUpdate streamId payload)).Guarded := by
  dsimp only [step]
  split
  · unfold Uplink.handleWindowUpdate
    dsimp only
    split
    · exact guarded_taken h rfl rfl (.inl ⟨rfl, rfl⟩)
    · split <;> exact guarded_taken h rfl rfl (.inl ⟨rfl, rfl⟩)
  · -- the windows may rise, but the drain is still to come
    have hkept : (s.applyH2WindowUpdate streamId payload).calls = s.calls ∧
        (s.applyH2WindowUpdate streamId payload).h2FlowResumptions = s.h2FlowResumptions ∧
        (s.applyH2WindowUpdate streamId payload).resumed = s.resumed ∧
        (s.applyH2WindowUpdate streamId payload).refused = s.refused := by
      unfold Uplink.applyH2WindowUpdate
      split
      · exact ⟨rfl, rfl, rfl, rfl⟩
      · split
        · exact ⟨rfl, rfl, rfl, rfl⟩
        · split <;> exact ⟨rfl, rfl, rfl, rfl⟩
    obtain ⟨hcalls, hregistered, hresumed, hrefused⟩ := hkept
    refine ⟨?_, ?_⟩
    · dsimp only
      rw [hregistered, hresumed, hrefused]
      refine h.gate.raise ?_
      intro j
      rw [Uplink.Parked, Uplink.Parked, hcalls]
    · dsimp only
      rw [hresumed, hrefused]
      exact h.apart

theorem guarded_setting (h : s.Guarded) (id : Nat) {value : Int}
    (htimely : Timely client s (.setting id value)) : (s.setting id value).Guarded := by
  unfold Uplink.setting
  split
  · refine guarded_lowered h rfl rfl rfl rfl rfl ?_
    rintro hdrains j hj ⟨hfirst, hsecond⟩
    refine ⟨hfirst, ?_⟩
    unfold Uplink.streamWindow at hsecond ⊢
    rcases hupload : (s.calls j).upload with _ | ⟨id, window⟩
    · rw [hupload] at hsecond
      exact absurd (htimely hfirst hsecond j hj hupload) (by omega)
    · rw [hupload] at hsecond
      exact hsecond
  · exact guarded_lowered h rfl rfl rfl rfl rfl fun _ _ _ hready => hready
  · exact h

theorem guarded_rstStream (h : s.Guarded) {streamId : Nat}
    (htimely : Timely client s (.rstStream streamId)) : (s.rstStream client streamId).Guarded := by
  unfold Uplink.rstStream
  split
  · split
    · exact guarded_lowered h rfl rfl rfl rfl rfl fun _ _ _ hready => hready
    · exact h
  · split
    · exact guarded_lowered h rfl rfl rfl rfl rfl fun _ _ _ hready => hready
    · rename_i hid
      refine guarded_lowered h rfl rfl rfl rfl rfl ?_
      rintro hdrains j hj ⟨hfirst, hsecond⟩
      refine ⟨hfirst, ?_⟩
      unfold Uplink.streamWindow at hsecond ⊢
      rcases hupload : (s.calls j).upload with _ | ⟨id, window⟩
      · rw [hupload] at hsecond
        exact hsecond
      · rw [hupload] at hsecond
        change 0 < (Function.update s.h2PacketStreamWindows streamId none id).getD window at hsecond
        by_cases hsame : id = streamId
        · rw [hsame, Function.update_self] at hsecond
          rw [hsame] at hupload
          exact absurd (htimely nofun (by omega) hfirst j hj window hupload hsecond) (by omega)
        · rw [Function.update_of_ne hsame] at hsecond
          exact hsecond

end Steps

-- ----
-- Runs

theorem Timely.idsLast {e : Event} (h : Timely client s e) : IdsLast s e := by
  cases e with
  | sendPacket => exact h
  | _ => trivial

/-- **A step that misses nothing keeps the gate.** -/
theorem guarded_step (client : Client) {e : Event} (htimely : Timely client s e)
    (h : s.Guarded ∧ Own client s) : (step client s e).Guarded ∧ Own client (step client s e) := by
  refine ⟨?_, own_step client htimely.idsLast h.2⟩
  obtain ⟨hguarded, hown⟩ := h
  rcases e with ⟨i, data⟩ | ⟨i, data, headerBlock⟩ | i | i | ⟨i, succeeds⟩ | i | i |
    ⟨streamId, payload⟩ | _ |
    ⟨id, value⟩ | streamId | _ | _
  · dsimp only [step]
    split
    · rename_i hidle
      refine hguarded.walks
        (Walks.setCall rfl rfl rfl rfl rfl (Uplink.not_parked hidle.1 nofun) ?_ (le_refl _)
          (le_refl _) fun _ _ _ _ _ => rfl)
      dsimp only
      split <;> exact nofun
    · exact hguarded
  · dsimp only [step]
    split
    · rename_i hidle
      exact hguarded.walks (Walks.sendH2PacketUp (Uplink.not_parked hidle.1 nofun) data headerBlock)
    · exact hguarded
  · dsimp only [step]
    split
    · rename_i hloop
      have hawake : ¬ s.Parked i := Uplink.not_parked hloop.1 nofun
      split
      · exact hguarded.walks (Walks.roundActive client hawake)
      · rename_i hpacket
        exact hguarded.walks (Walks.roundPacket hown hawake hpacket)
    · exact hguarded
  · dsimp only [step]
    split
    · rename_i hblocked
      exact guarded_register hguarded hblocked (htimely hblocked)
    · exact hguarded
  · dsimp only [step]
    split
    · rename_i hwriting
      exact hguarded.walks (Walks.written (Uplink.not_parked hwriting nofun) succeeds _ _)
    · exact hguarded
  · dsimp only [step]
    split
    · exact guarded_abandon hguarded
    · exact hguarded
  · exact guarded_resume hguarded client
  · exact guarded_windowUpdate hguarded client streamId payload
  · dsimp only [step]
    split
    · exact guarded_taken hguarded rfl rfl (.inl ⟨rfl, rfl⟩)
    · exact hguarded
  · exact guarded_setting hguarded id htimely
  · exact guarded_rstStream hguarded htimely
  · exact guarded_lowered hguarded rfl rfl rfl rfl rfl fun _ _ _ hready => hready
  · exact guarded_taken hguarded rfl rfl (.inr ⟨rfl, rfl⟩)

theorem guarded_start : Uplink.Guarded {} where
  gate := Guarded.start fun _ => Uplink.not_parked rfl nofun
  apart := fun _ hi => absurd hi not_mem_nil

/-- **No wake-up is lost** in a run of steps that miss nothing. -/
theorem no_lost_wake_up (client : Client) {es : List Event}
    (htimely : RunAll (step client) (Timely client) {} es) :
    (run (step client) {} es).NoLostWakeUp := by
  have hstart : Uplink.Guarded {} ∧ Own client {} := ⟨guarded_start, Own.start⟩
  have hrun := run_invariant_of (fun _ _ => guarded_step client) htimely hstart
  exact hrun.1.noLostWakeUp

/-- A call waits, and WINDOW_UPDATE is for it. -/
theorem no_lost_wake_up_grpc :
    (run (step .grpc) {} [.setting 0x04 0, .send 0 [1], .round 0, .awaitFlowResumption 0,
      .windowUpdate 1 [0, 0, 0, 1]]).NoLostWakeUp := by
  refine no_lost_wake_up .grpc ⟨?_, trivial, trivial, ?_, trivial, trivial⟩
  · exact fun _ _ i hi => absurd hi not_mem_nil
  · exact fun _ _ _ hready => absurd hready.2 (by decide)

-- ----
-- Lost wake-ups

/-- SETTINGS opens the window again. -/
def settingsRaise : List Event :=
  [.setting 0x04 0, .send 0 [1], .round 0, .awaitFlowResumption 0, .setting 0x04 65535]

/-- WINDOW_UPDATE comes before the call registers. -/
def updateBetween (streamId : Nat) : List Event :=
  [.setting 0x04 0, .send 0 [1], .round 0, .windowUpdate streamId [0, 0, 0, 1],
    .drainH2FlowResumptions, .awaitFlowResumption 0]

theorem wake_up_lost :
    ¬ (run (step .grpc) {} settingsRaise).NoLostWakeUp ∧
      ¬ (run (step .grpc) {} (updateBetween 1)).NoLostWakeUp ∧
      ¬ (run (step (.xhttp .streamUp)) {} (updateBetween 3)).NoLostWakeUp := by
  refine ⟨fun h => ?_, fun h => ?_, fun h => ?_⟩
  all_goals
    specialize h 0 (by unfold Uplink.Parked; decide) ⟨by decide, by decide⟩
    unfold Uplink.Awaited at h
    revert h
    decide

end Anywhere.Http2
