import Anywhere.Naive.Session

/-!
# Anywhere — what the functions of `Http2Session` change

The functions that close a stream are one update of the stream, of the calls that await
its window and of the history. A function of one stream leaves the others alone.

* the lemmas behind it — what the update leaves alone.
-/

namespace Anywhere.Naive

open Lib

def Stream.shut (failTunnel : Bool) (st : Stream) : Stream :=
  { st.closeChannel with
    state := .closed
    tunnelReady :=
      if failTunnel = true ∧ st.state ≠ .tunnelOpen then st.tunnelReady.complete .failed
      else st.tunnelReady }

variable {k : Nat} {s : Session}

namespace Session

-- ----
-- Closing

theorem shut_of_closed (h : (s.stream k).state = .closed)
    (failTunnel : Bool) : s.shut failTunnel k = s := if_pos h

/-- What closes a stream is one update of it, of the calls that await its window and of the
history. -/
theorem shut_eq (h : (s.stream k).state ≠ .closed) (failTunnel : Bool) :
    s.shut failTunnel k =
      { s with
        stream := Function.update s.stream k ((s.stream k).shut failTunnel)
        senders := (s.cancelAwaiters k).senders
        history := s.history ++ [.closed k] } := by
  unfold shut markClosed
  rw [if_neg h, if_neg h]
  dsimp only
  split
  · rename_i hfail
    simp [modify, record, cancelAwaiters, completeAwaiter, Stream.shut,
      Stream.closeChannel, hfail.1, hfail.2]
  · rename_i hfail
    have hif : ¬ (failTunnel = true ∧ (s.stream k).state ≠ .tunnelOpen) := hfail
    simp [modify, record, cancelAwaiters, completeAwaiter, Stream.shut, Stream.closeChannel, hif]

theorem markClosed_of_closed (h : (s.stream k).state = .closed) :
    s.markClosed k = s := if_pos h

theorem markClosed_eq (h : (s.stream k).state ≠ .closed) :
    s.markClosed k =
      { s with
        stream := Function.update s.stream k { s.stream k with state := .closed }
        history := s.history ++ [.closed k] } := by
  rw [markClosed, if_neg h]
  rfl

-- ----
-- Giving a window back

/-- `acknowledgeConsumedData` counts, launches updates and counts on a stream: what each of these
keeps, it keeps. -/
theorem acknowledgeConsumedData_rule {R : Session → Session → Prop} (hrefl : ∀ s, R s s)
    (htrans : ∀ {s t u}, R s t → R t u → R s u)
    (hcount : ∀ s consumed, R s { s with connectionRecvConsumed := consumed })
    (hlaunch : ∀ s scope increment, R s (s.launch (.windowUpdate scope increment)))
    (hstream : ∀ (s : Session) j consumed, R s (s.modify j ({ · with recvConsumed := consumed })))
    (s : Session) (k bytes : Nat) : R s (s.acknowledgeConsumedData k bytes) := by
  unfold acknowledgeConsumedData
  split
  · exact hrefl s
  · dsimp only
    generalize hs' : (if naiveSessionMaxRecvWindow / 2 ≤ s.connectionRecvConsumed + bytes then _
      else _ : Session) = s'
    have hcounted : R s s' := by
      rw [← hs']
      split
      · exact htrans (hcount s 0) (hlaunch _ _ _)
      · exact hcount s _
    split
    · exact hcounted
    · split
      · exact htrans (htrans hcounted (hstream s' _ _)) (hlaunch _ _ _)
      · exact htrans hcounted (hstream s' _ _)

/-- `handleServerSettings` sets the initial window and adjusts the windows of the streams. -/
theorem handleServerSettings_rule {R : Session → Session → Prop} (hrefl : ∀ s, R s s)
    (htrans : ∀ {s t u}, R s t → R t u → R s u)
    (hinitial : ∀ s value, R s { s with serverInitialWindowSize := value })
    (hadjust : ∀ (s : Session) delta j, R s (s.adjustSendWindow delta j))
    (s : Session) (payload : Bytes) : R s (s.handleServerSettings payload) := by
  have hall : ∀ (js : List Nat) (delta : Int) (s : Session),
      R s (js.foldl (fun s j => s.adjustSendWindow delta j) s) := by
    intro js delta
    induction js with
    | nil => exact hrefl
    | cons j js ih => exact fun s => htrans (hadjust s delta j) (ih _)
  unfold handleServerSettings
  generalize parseSettings payload = settings
  induction settings generalizing s with
  | nil => exact hrefl s
  | cons setting settings ih =>
    refine htrans ?_ (ih _)
    dsimp only
    split
    · exact htrans (hinitial s setting.2) (hall _ _ _)
    · exact hrefl s

end Session

end Anywhere.Naive
