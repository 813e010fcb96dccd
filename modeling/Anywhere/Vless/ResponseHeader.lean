import Anywhere.WebSocket.Delivery

/-!
# Anywhere — the response header of VLESS over a bare transport

`VlessDirectConnection.receiveRaw` hands each read to `processResponseHeader`, which asks
for another one while there is nothing to return. The transport returns the stream in
chunks, and null behind them.

* `receiveRaw_strips` — the calls return the payload, none of them an empty array, and
  null only at the end.
-/

namespace Anywhere.Vless

open Lib WebSocket

-- ----
-- The model

/-- `VlessDirectConnection`: what its transport has yet to return, whether that has
returned null, and what is kept of the response header. -/
structure VlessDirectConnection where
  reads : List Bytes
  atEof : Bool := false
  header : ResponseHeader := {}

/-- `receiveRaw` on the reads of the transport; `processResponseHeader` calls it again for
more. -/
def receiveRawFrom : ResponseHeader → List Bytes → Option Bytes × VlessDirectConnection
  | header, [] => (none, { reads := [], atEof := true, header })
  | header, data :: reads =>
    if data = [] then (none, { reads, header })
    else
      match processResponseHeader header data with
      | (some output, header) => (some output, { reads, header })
      | (none, header) => receiveRawFrom header reads

namespace VlessDirectConnection

def receiveRaw (c : VlessDirectConnection) : Option Bytes × VlessDirectConnection :=
  receiveRawFrom c.header c.reads

/-- The results of `n` calls of `receiveRaw`, each with whether the transport has returned
null by then. -/
def receivesRaw : Nat → VlessDirectConnection → List (Option Bytes × Bool)
  | 0, _ => []
  | n + 1, c => (c.receiveRaw.1, c.receiveRaw.2.atEof) :: receivesRaw n c.receiveRaw.2

end VlessDirectConnection

/-- A response stream and the payload in it: behind a header with its addons, or all of it
when it begins with another version. -/
inductive Response : Bytes → Bytes → Prop
  | header (addonsLength : UInt8) (addons payload : Bytes)
      (h : addons.length = addonsLength.toNat) :
    Response (0x00 :: addonsLength :: addons ++ payload) payload
  | plain (version second : UInt8) (rest : Bytes) (h : version ≠ 0x00) :
    Response (version :: second :: rest) (version :: second :: rest)

-- ----
-- What the calls return

/-- One call: the first result that the reads hold, or null at the end. -/
theorem receiveRaw_results (header : ResponseHeader) (reads : List Bytes) :
    let c := (receiveRawFrom header reads).2
    rawResults header reads = [] ∧ (receiveRawFrom header reads).1 = none ∧ c.reads = [] ∧
      c.atEof = true ∨
      rawResults header reads = ((receiveRawFrom header reads).1, false) ::
        rawResults c.header c.reads ∧
        c.atEof = false := by
  induction reads generalizing header with
  | nil => exact .inl ⟨rfl, rfl, rfl, rfl⟩
  | cons data reads ih =>
    rw [receiveRawFrom, rawResults]
    by_cases hempty : data = []
    · rw [if_pos hempty, if_pos hempty]
      exact .inr ⟨rfl, rfl⟩
    · rw [if_neg hempty, if_neg hempty]
      rcases processResponseHeader header data with ⟨_ | output, header'⟩
      · exact ih header'
      · exact .inr ⟨rfl, rfl⟩

theorem receivesRaw_results (n : Nat) (c : VlessDirectConnection) :
    c.receivesRaw n = (rawResults c.header c.reads ++ List.replicate n (none, true)).take n := by
  induction n generalizing c with
  | zero => rfl
  | succ n ih =>
    rw [VlessDirectConnection.receivesRaw, ih]
    unfold VlessDirectConnection.receiveRaw
    rcases receiveRaw_results c.header c.reads with ⟨hresults, hnull, hreads, heof⟩ |
      ⟨hresults, heof⟩
    · rw [hresults, hnull, hreads, heof]
      simp [rawResults, List.replicate_succ]
    · rw [hresults, heof, List.cons_append, List.take_succ_cons, take_padded]

/-- **Stripping the response header does not depend on the chunks.** The calls of
`receiveRaw` return parts of the payload, in order and as a whole, and then null; none
returns null before the transport has, nor an empty array, which a caller would take for
the end as well. -/
theorem receiveRaw_strips {chunks : List Bytes} {payload : Bytes}
    (hstream : Response chunks.flatten payload) (hchunks : ∀ chunk ∈ chunks, chunk ≠ []) :
    ∃ results : List Bytes, (∀ result ∈ results, result ≠ []) ∧ results.flatten = payload ∧
      ∀ n, VlessDirectConnection.receivesRaw n { reads := chunks } =
        ((results.map fun result => (some result, false)) ++ List.replicate n
          (none, true)).take n := by
  obtain ⟨results, hparts, hflatten, hresults⟩ := @rawResults_of_ne_nil {} chunks rfl hchunks
  have hpayload : behindHeader {} chunks.flatten = payload := by
    generalize chunks.flatten = stream at hstream
    cases hstream with
    | header addonsLength addons payload h =>
      show (addons ++ payload).drop addonsLength.toNat = payload
      rw [← h, List.drop_left]
    | plain version second rest h => exact if_pos h
  refine ⟨results, hparts, hflatten.trans hpayload, fun n => ?_⟩
  rw [receivesRaw_results, hresults]

/-- A header of four bytes that is cut three times, one chunk of it with nothing behind. -/
theorem receiveRaw_strips_cut :
    ∃ results : List Bytes, (∀ result ∈ results, result ≠ []) ∧ results.flatten = [7, 8] ∧
      ∀ n, VlessDirectConnection.receivesRaw n { reads := [[0], [2, 5], [6], [7], [8]] } =
        ((results.map fun result => (some result, false)) ++ List.replicate n
          (none, true)).take n :=
  receiveRaw_strips (.header 2 [5, 6] [7, 8] rfl) (by decide)

end Anywhere.Vless
