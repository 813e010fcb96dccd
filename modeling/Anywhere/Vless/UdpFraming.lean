import Anywhere.Config
import Anywhere.Lib.Framing

/-!
# Anywhere — VLESS UDP framing

Datagrams travel with a length in front. `VlessUdpConnection` collects the chunks
of the stream in a buffer with a read offset and takes the complete datagrams off
it. When a chunk arrives at a buffer that was read to its end, `append` replaces
the buffer and keeps the offset, so the reader starts inside the new chunk. Only
`extract` moves the offset back, once it has passed 8192.

* `BadCut` — the chunk boundaries after which bytes are skipped.
* `udp_round_trip_iff` — the datagrams come back in exactly the other cuttings.
-/

namespace Anywhere.Vless

open Lib List

-- ----
-- The model

/-- `UdpFraming.frame`. -/
def frame (data : Bytes) : Bytes :=
  UInt8.ofNat (data.length / 256) :: UInt8.ofNat data.length :: data

structure UdpBufferState where
  buffer : Bytes := []
  offset : Nat := 0

namespace UdpBufferState

def append (s : UdpBufferState) (data : Bytes) : UdpBufferState :=
  if s.buffer = [] ∨ s.offset ≥ s.buffer.length then { s with buffer := data }
  else { buffer := s.buffer.drop s.offset ++ data, offset := 0 }

/-- The end of `extract`: the offset moves on, and the buffer is compacted. -/
def moveTo (s : UdpBufferState) (offset : Nat) : UdpBufferState :=
  if offset > 8192 then { buffer := s.buffer.drop offset, offset := 0 }
  else { s with offset := offset }

/-- `UdpFraming.extract`. -/
def extract (s : UdpBufferState) : Option (Bytes × UdpBufferState) :=
  let available := s.buffer.length - s.offset
  if available < 2 then none
  else
    let length := (s.buffer.getD s.offset 0).toNat * 256 + (s.buffer.getD (s.offset + 1) 0).toNat
    if available < 2 + length then none
    else
      let packetStart := s.offset + 2
      some ((s.buffer.drop packetStart).take length, s.moveTo (packetStart + length))

end UdpBufferState

/-- `VlessUdpConnection.receiveMore`: the result, and the state and the chunks that
are left; null when the inner connection has no more of them. -/
def receiveMore : UdpBufferState → List Bytes → Option Bytes × UdpBufferState × List Bytes
  | s, [] => (none, s, [])
  | s, data :: chunks =>
    match (s.append data).extract with
    | some (packet, s') => (some packet, s', chunks)
    | none => receiveMore (s.append data) chunks

/-- `VlessUdpConnection.receive`. -/
def receive (s : UdpBufferState) (chunks : List Bytes) :
    Option Bytes × UdpBufferState × List Bytes :=
  match s.extract with
  | some (packet, s') => (some packet, s', chunks)
  | none => receiveMore s chunks

/-- The results of that many calls of `receive`. -/
def receives : Nat → UdpBufferState → List Bytes → List (Option Bytes)
  | 0, _, _ => []
  | n + 1, s, chunks =>
    (receive s chunks).1 :: receives n (receive s chunks).2.1 (receive s chunks).2.2

-- ----
-- The framing

/-- One datagram off the front of a stream. -/
def nextPacket : Bytes → Option (Bytes × Bytes)
  | hi :: lo :: rest =>
    let length := hi.toNat * 256 + lo.toNat
    if rest.length < length then none else some (rest.take length, rest.drop length)
  | _ => none

theorem nextPacket_eq_some {xs p ys : Bytes} :
    nextPacket xs = some (p, ys) ↔ p.length ≤ 65535 ∧ xs = frame p ++ ys := by
  constructor
  · intro h
    match xs, h with
    | hi :: lo :: rest, h =>
      simp only [nextPacket] at h
      split at h
      · cases h
      · rename_i hlen
        rw [Option.some.injEq, Prod.mk.injEq] at h
        obtain ⟨rfl, rfl⟩ := h
        have hhi := UInt8.toNat_lt hi
        have hlo := UInt8.toNat_lt lo
        have hplen : (rest.take (hi.toNat * 256 + lo.toNat)).length = hi.toNat * 256 + lo.toNat :=
          length_take_of_le (by omega)
        have hbytes : UInt8.ofNat ((hi.toNat * 256 + lo.toNat) / 256) = hi ∧
            UInt8.ofNat (hi.toNat * 256 + lo.toNat) = lo := by
          rw [← UInt8.toNat_inj, ← UInt8.toNat_inj, UInt8.toNat_ofNat', UInt8.toNat_ofNat']
          omega
        refine ⟨by omega, ?_⟩
        rw [frame, hplen, hbytes.1, hbytes.2, cons_append, cons_append,
          take_append_drop]
  · rintro ⟨hlen, rfl⟩
    have hlength := bytes16_value (show p.length < 65536 by omega)
    simp only [frame, cons_append, nextPacket, hlength]
    rw [if_neg (by simp), take_left' rfl, drop_left' rfl]

@[simp] theorem length_frame (d : Bytes) : (frame d).length = 2 + d.length := by
  simp only [frame, length_cons]
  omega

def udpFraming : Framing UInt8 Bytes where
  next := nextPacket
  progress h := by
    obtain ⟨-, rfl⟩ := nextPacket_eq_some.1 h
    rw [length_append, length_frame]
    omega
  extend zs h := by
    obtain ⟨hlen, rfl⟩ := nextPacket_eq_some.1 h
    rw [append_assoc]
    exact nextPacket_eq_some.2 ⟨hlen, rfl⟩

-- ----
-- The buffer

namespace UdpBufferState

/-- What was received and not yet extracted. -/
def unread (s : UdpBufferState) : Bytes := s.buffer.drop s.offset

/-- The read offset after one more frame of `n` bytes. -/
def nextOffset (offset n : Nat) : Nat := if offset + n > 8192 then 0 else offset + n

theorem unread_moveTo (s : UdpBufferState) (offset : Nat) :
    (s.moveTo offset).unread = s.buffer.drop offset := by
  unfold moveTo unread
  split
  · rfl
  · rfl

theorem offset_moveTo (s : UdpBufferState) (o n : Nat) :
    (s.moveTo (o + n)).offset = nextOffset o n := by
  unfold moveTo nextOffset
  split
  · rfl
  · rfl

/-- `extract` takes one frame off the unread bytes. -/
theorem extract_eq (s : UdpBufferState) :
    s.extract = (nextPacket s.unread).map fun p =>
      (p.1, s.moveTo (s.offset + (2 + p.1.length))) := by
  have hlen : s.buffer.length - s.offset = s.unread.length := by
    rw [unread, length_drop]
  have hget : ∀ i, s.buffer.getD (s.offset + i) 0 = s.unread.getD i 0 := by
    intro i
    rw [List.getD_eq_getElem?_getD, List.getD_eq_getElem?_getD, unread, List.getElem?_drop]
  have hdrop : ∀ i, s.buffer.drop (s.offset + i) = s.unread.drop i := by
    intro i
    rw [unread, drop_drop]
  have hget0 := hget 0
  rw [Nat.add_zero] at hget0
  simp only [extract, hlen, hget0, hget 1, hdrop 2]
  match hu : s.unread with
  | [] => simp [nextPacket]
  | [_] => simp [nextPacket]
  | hi :: lo :: rest =>
    simp only [length_cons, getD_cons_zero, getD_cons_succ, drop_succ_cons,
      drop_zero, nextPacket]
    rw [if_neg (by omega)]
    by_cases hshort : rest.length < hi.toNat * 256 + lo.toNat
    · rw [if_pos (by omega), if_pos hshort]
      rfl
    · rw [if_neg (by omega), if_neg hshort, Option.map_some, length_take_of_le (by omega),
        Nat.add_assoc]

/-- A buffer that has something unread, or has not been read from. -/
def Ready (s : UdpBufferState) : Prop := s.offset = 0 ∨ s.offset < s.buffer.length

theorem append_ready {s : UdpBufferState} (h : s.Ready) (data : Bytes) :
    (s.append data).unread = s.unread ++ data ∧ (s.append data).offset = 0 := by
  unfold append
  split
  · rename_i hempty
    have hoffset : s.offset = 0 := by
      rcases h with h | h
      · exact h
      · rcases hempty with he | he
        · rw [he] at h
          exact absurd h (Nat.not_lt_zero _)
        · omega
    have hbuffer : s.buffer = [] := by
      rcases hempty with he | he
      · exact he
      · rw [hoffset] at he
        exact length_eq_zero_iff.mp (by omega)
    simp [unread, hoffset, hbuffer]
  · exact ⟨rfl, rfl⟩

/-- A buffer read to its end: the offset stays, whatever is appended. -/
theorem append_spent {s : UdpBufferState} (h : s.offset ≥ s.buffer.length) (data : Bytes) :
    s.append data = { s with buffer := data } := by
  unfold append
  rw [if_pos (.inr h)]

end UdpBufferState

-- ----
-- What is delivered

/-- Repeated calls of `receive` return these datagrams, and then null for good. -/
def Delivers (s : UdpBufferState) (chunks : List Bytes) (out : List Bytes) : Prop :=
  ∀ n, receives (out.length + n) s chunks = out.map some ++ List.replicate n none

section Delivers

variable {s : UdpBufferState} {chunks out : List Bytes}

theorem receives_congr {s' : UdpBufferState} {chunks' : List Bytes}
    (h : receive s chunks = receive s' chunks') (n : Nat) :
    receives n s chunks = receives n s' chunks' := by
  cases n with
  | zero => rfl
  | succ n => rw [receives, receives, h]

/-- The calls after a datagram that is already complete. -/
theorem delivers_cons {p : Bytes} {s' : UdpBufferState} (h : s.extract = some (p, s')) :
    Delivers s chunks (p :: out) ↔ Delivers s' chunks out := by
  have hreceive : receive s chunks = (some p, s', chunks) := by rw [receive, h]
  constructor
  · intro hd n
    have := hd n
    rw [length_cons, Nat.add_right_comm, receives, hreceive] at this
    exact (List.cons.inj this).2
  · intro hd n
    rw [length_cons, Nat.add_right_comm, receives, hreceive, map_cons, cons_append,
      ← hd n]

/-- With no datagram complete the next chunk is appended. -/
theorem delivers_chunk (h : s.extract = none) {data : Bytes} :
    Delivers s (data :: chunks) out ↔ Delivers (s.append data) chunks out := by
  have hreceive : receive s (data :: chunks) = receive (s.append data) chunks := by
    rw [receive, h]
    dsimp only
    rw [receiveMore, receive]
  exact forall_congr' fun n => by rw [receives_congr hreceive]

theorem delivers_nil (h : s.extract = none) : Delivers s [] [] := by
  intro n
  induction n with
  | zero => rfl
  | succ n ih =>
    have hreceive : receive s [] = (none, s, []) := by
      rw [receive, h]
      rfl
    rw [length_nil, Nat.zero_add] at ih ⊢
    rw [receives, hreceive, ih]
    rfl

theorem Delivers.unique {out' : List Bytes} (h : Delivers s chunks out)
    (h' : Delivers s chunks out') : out = out' := by
  have hcounts : ∀ {a b : List Bytes}, Delivers s chunks a → Delivers s chunks b →
      a.length ≤ b.length → a = b := by
    intro a b ha hb hle
    have heq := ha (b.length - a.length)
    have heq' := hb 0
    rw [Nat.add_sub_cancel' hle] at heq
    rw [Nat.add_zero, heq, replicate_zero, append_nil] at heq'
    -- the nulls behind the shorter list would be datagrams of the longer one
    cases hk : b.length - a.length with
    | zero =>
      rw [hk, replicate_zero, append_nil] at heq'
      exact map_injective_iff.mpr (Option.some_injective _) heq'
    | succ k =>
      have hmem : none ∈ b.map some := by
        rw [← heq', hk]
        simp
      simp at hmem
  rcases Nat.le_total out.length out'.length with hle | hle
  · exact hcounts h h' hle
  · exact (hcounts h' h hle).symm

/-- The complete datagrams come first; the reader is then stuck on the rest, at the
offset the datagrams moved it to. -/
theorem exists_drained (s : UdpBufferState) : ∃ s' : UdpBufferState,
    s'.extract = none ∧ s'.unread = udpFraming.rest s.unread ∧
    s'.offset = ((udpFraming.frames s.unread).map (2 + ·.length)).foldl
      UdpBufferState.nextOffset s.offset ∧
    ∀ chunks out, Delivers s chunks (udpFraming.frames s.unread ++ out) ↔
      Delivers s' chunks out := by
  induction hn : s.unread.length using Nat.strongRecOn generalizing s with
  | ind n ih =>
    cases hnext : nextPacket s.unread with
    | none =>
      have hextract : s.extract = none := by rw [s.extract_eq, hnext]; rfl
      rw [udpFraming.frames_none hnext, udpFraming.rest_none hnext]
      exact ⟨s, hextract, rfl, rfl, fun _ _ => Iff.rfl⟩
    | some r =>
      obtain ⟨p, ys⟩ := r
      have hextract : s.extract = some (p, s.moveTo (s.offset + (2 + p.length))) := by
        rw [s.extract_eq, hnext]
        rfl
      have hunread : (s.moveTo (s.offset + (2 + p.length))).unread = ys := by
        obtain ⟨-, hframe⟩ := nextPacket_eq_some.1 hnext
        rw [s.unread_moveTo, ← drop_drop, ← UdpBufferState.unread, hframe,
          drop_left' (length_frame p)]
      have hlt : ys.length < n := by
        have : ys.length < s.unread.length := udpFraming.progress hnext
        omega
      obtain ⟨s', hstuck, hrest, hoffset, hdelivers⟩ :=
        ih ys.length hlt (s.moveTo (s.offset + (2 + p.length))) (by rw [hunread])
      rw [hunread] at hrest hoffset hdelivers
      rw [s.offset_moveTo] at hoffset
      rw [udpFraming.frames_some hnext, udpFraming.rest_some hnext]
      refine ⟨s', hstuck, hrest, hoffset, fun chunks out => ?_⟩
      rw [cons_append, delivers_cons hextract, hdelivers]

def encoded (ds : List Bytes) : Bytes := ds.flatMap frame

theorem encoded_frames (xs : Bytes) :
    encoded (udpFraming.frames xs) ++ udpFraming.rest xs = xs := by
  induction hn : xs.length using Nat.strongRecOn generalizing xs with
  | ind n ih =>
    cases hnext : nextPacket xs with
    | none =>
      rw [udpFraming.frames_none hnext, udpFraming.rest_none hnext]
      rfl
    | some r =>
      obtain ⟨p, ys⟩ := r
      have hlt : ys.length < n := hn ▸ udpFraming.progress hnext
      obtain ⟨-, hframe⟩ := nextPacket_eq_some.1 hnext
      rw [udpFraming.frames_some hnext, udpFraming.rest_some hnext, encoded, flatMap_cons,
        append_assoc, hframe]
      exact congrArg (frame p ++ ·) (ih ys.length hlt ys rfl)

theorem exists_delivers (s : UdpBufferState) (chunks : List Bytes) :
    ∃ out, Delivers s chunks out ∧
      (encoded out).length ≤ s.unread.length + chunks.flatten.length := by
  induction chunks generalizing s with
  | nil =>
    obtain ⟨s', hstuck, -, -, hdelivers⟩ := exists_drained s
    refine ⟨udpFraming.frames s.unread ++ [], (hdelivers [] []).mpr (delivers_nil hstuck), ?_⟩
    have := congrArg List.length (encoded_frames s.unread)
    rw [length_append] at this
    rw [append_nil]
    omega
  | cons data chunks ih =>
    obtain ⟨s', hstuck, hrest, -, hdelivers⟩ := exists_drained s
    obtain ⟨out, hout, hlen⟩ := ih (s'.append data)
    refine ⟨udpFraming.frames s.unread ++ out,
      (hdelivers _ _).mpr ((delivers_chunk hstuck).mpr hout), ?_⟩
    have hbytes := congrArg List.length (encoded_frames s.unread)
    have happend : (s'.append data).unread.length ≤ s'.unread.length + data.length := by
      unfold UdpBufferState.append UdpBufferState.unread
      split
      · simp only [length_drop]
        omega
      · simp
    rw [length_append, ← hrest] at hbytes
    rw [encoded, flatMap_append, length_append, flatten_cons, length_append]
    rw [encoded] at hbytes hlen
    omega

/-- **Bytes are skipped** when a chunk arrives at a buffer that was read to its end
at an offset other than 0. -/
theorem delivers_spent (hspent : s.offset ≥ s.buffer.length) (hoffset : s.offset ≠ 0)
    (hextract : s.extract = none) (hmore : chunks.flatten ≠ []) :
    ∃ out, Delivers s chunks out ∧ (encoded out).length < chunks.flatten.length := by
  induction chunks generalizing s with
  | nil => exact absurd rfl hmore
  | cons data chunks ih =>
    have happend := UdpBufferState.append_spent hspent data
    cases data with
    | nil =>
      have hunread : (s.append []).unread = [] := by
        rw [happend]
        exact drop_nil
      have hstuck : (s.append []).extract = none := by
        rw [UdpBufferState.extract_eq, hunread]
        rfl
      obtain ⟨out, hout, hlen⟩ := ih (s := s.append []) (by rw [happend]; exact Nat.zero_le _)
        (by rw [happend]; exact hoffset) hstuck (by simpa using hmore)
      exact ⟨out, (delivers_chunk hextract).mpr hout, by simpa using hlen⟩
    | cons b bs =>
      obtain ⟨out, hout, hlen⟩ := exists_delivers (s.append (b :: bs)) chunks
      refine ⟨out, (delivers_chunk hextract).mpr hout, ?_⟩
      have hunread : (s.append (b :: bs)).unread.length < (b :: bs).length := by
        rw [happend]
        show ((b :: bs).drop s.offset).length < _
        rw [length_drop, length_cons]
        omega
      rw [flatten_cons, length_append]
      omega

end Delivers

-- ----
-- Where the chunks end

/-- The first `n` bytes of the stream of `done ++ rest` hold the datagrams `done`
and no further one. -/
def Reaches (n : Nat) (done rest : List Bytes) : Prop :=
  (encoded done).length ≤ n ∧
    ∀ d later, rest = d :: later → n < (encoded done).length + (frame d).length

/-- The offset a buffer is read to by datagrams that are extracted one after another
from its start; past 8192 it is back at 0. -/
def readOffset (ds : List Bytes) : Nat :=
  (ds.map (2 + ·.length)).foldl UdpBufferState.nextOffset 0

/-- A chunk, after `held` bytes and the chunks `before` it, ends exactly where a
datagram ends, more datagrams follow, and the datagrams it completes leave the
offset inside the buffer. -/
def BadCut (held : Nat) (ds chunks : List Bytes) : Prop :=
  ∃ before chunk after done completed later, chunks = before ++ chunk :: after ∧
    ds = done ++ (completed ++ later) ∧ later ≠ [] ∧
    Reaches (held + before.flatten.length) done (completed ++ later) ∧
    held + before.flatten.length + chunk.length = (encoded (done ++ completed)).length ∧
    readOffset completed ≠ 0

section Cuts

variable {n m held : Nat} {done rest done' rest' ds ds' : List Bytes}

theorem encoded_append (a b : List Bytes) : encoded (a ++ b) = encoded a ++ encoded b :=
  flatMap_append

theorem length_encoded_append (a b : List Bytes) :
    (encoded (a ++ b)).length = (encoded a).length + (encoded b).length := by
  rw [encoded_append, length_append]

theorem length_encoded_cons (d : Bytes) (ds : List Bytes) :
    (encoded (d :: ds)).length = (frame d).length + (encoded ds).length := by
  rw [encoded, flatMap_cons, length_append, encoded]

/-- More bytes hold more datagrams. -/
theorem Reaches.mono (h : Reaches n done rest) (h' : Reaches m done' rest') (hnm : n ≤ m)
    (heq : done ++ rest = done' ++ rest') : ∃ c, done' = done ++ c ∧ rest = c ++ rest' := by
  rcases append_eq_append_iff.mp heq with ⟨c, hdone, hrest⟩ | ⟨c, hdone, hrest⟩
  · exact ⟨c, hdone, hrest⟩
  · cases c with
    | nil => exact ⟨[], by simpa using hdone.symm, by simpa using hrest.symm⟩
    | cons d c =>
      -- the datagram `d` would be complete in fewer bytes than it needs
      have hlt := h'.2 d (c ++ rest) hrest
      have hle := h.1
      rw [hdone, length_encoded_append, length_encoded_cons] at hle
      omega

theorem Reaches.unique (h : Reaches n done rest) (h' : Reaches n done' rest')
    (heq : done ++ rest = done' ++ rest') : done = done' ∧ rest = rest' := by
  obtain ⟨c, hdone, hrest⟩ := h.mono h' (Nat.le_refl n) heq
  obtain ⟨c', hdone', -⟩ := h'.mono h (Nat.le_refl n) heq.symm
  have hlen := congrArg List.length hdone
  have hlen' := congrArg List.length hdone'
  rw [length_append] at hlen hlen'
  have hc : c = [] := length_eq_zero_iff.mp (by omega)
  subst hc
  exact ⟨by simpa using hdone.symm, by simpa using hrest⟩

theorem reaches_exact (later : List Bytes) : Reaches (encoded done).length done later := by
  refine ⟨Nat.le_refl _, fun d _ _ => ?_⟩
  rw [length_frame]
  omega

theorem badCut_cons {chunk : Bytes} {chunks : List Bytes} (hheld : Reaches held [] (done ++ rest))
    (hdone : Reaches (held + chunk.length) done rest) :
    BadCut held (done ++ rest) (chunk :: chunks) ↔
      (rest ≠ [] ∧ held + chunk.length = (encoded done).length ∧ readOffset done ≠ 0) ∨
      BadCut (held + chunk.length - (encoded done).length) rest chunks := by
  constructor
  · rintro ⟨before, c, after, first, completed, later, hchunks, hds, hlater, hreach, hend, hoffset⟩
    cases before with
    | nil =>
      rw [nil_append, List.cons.injEq] at hchunks
      obtain ⟨rfl, rfl⟩ := hchunks
      rw [flatten_nil, length_nil, Nat.add_zero] at hreach hend
      obtain ⟨rfl, -⟩ := hheld.unique hreach (by simpa using hds)
      rw [nil_append] at hds hend
      rw [hend] at hdone
      obtain ⟨rfl, rfl⟩ := hdone.unique (reaches_exact later) hds
      exact .inl ⟨hlater, hend, hoffset⟩
    | cons b before =>
      rw [cons_append, List.cons.injEq] at hchunks
      obtain ⟨rfl, rfl⟩ := hchunks
      rw [flatten_cons, length_append] at hreach hend
      obtain ⟨c', rfl, rfl⟩ := hdone.mono hreach (by omega) hds
      refine .inr ⟨before, c, after, c', completed, later, rfl, rfl, hlater, ?_, ?_, hoffset⟩
      · have h1 := hreach.1
        have h2 := hdone.1
        rw [length_encoded_append] at h1
        refine ⟨by omega, fun d t hd => ?_⟩
        have := hreach.2 d t hd
        rw [length_encoded_append] at this
        omega
      · have h2 := hdone.1
        rw [append_assoc, length_encoded_append] at hend
        omega
  · rintro (⟨hrest, hend, hoffset⟩ |
      ⟨before, c, after, first, completed, later, rfl, rfl, hlater, hreach, hend, hoffset⟩)
    · refine ⟨[], chunk, chunks, [], done, rest, rfl, rfl, hrest, ?_, ?_, hoffset⟩
      · simpa using hheld
      · simpa using hend
    · have h2 := hdone.1
      refine ⟨chunk :: before, c, after, done ++ first, completed, later, rfl, by simp, hlater,
        ?_, ?_, hoffset⟩
      · rw [flatten_cons, length_append]
        have h1 := hreach.1
        refine ⟨by rw [length_encoded_append]; omega, fun d t hd => ?_⟩
        have := hreach.2 d t hd
        rw [length_encoded_append]
        omega
      · rw [flatten_cons, length_append, append_assoc, length_encoded_append]
        omega

theorem not_badCut_nil : ¬ BadCut held ds [] := by
  rintro ⟨before, c, after, -, -, -, h, -⟩
  simp at h

theorem not_badCut_of_nil {chunks : List Bytes} : ¬ BadCut held [] chunks := by
  rintro ⟨before, c, after, first, completed, later, -, h, hlater, -⟩
  simp only [nil_eq, append_eq_nil_iff] at h
  exact hlater h.2.2

end Cuts

-- ----
-- The round trip

section RoundTrip

variable {ds : List Bytes}

theorem frames_encoded (hds : ∀ d ∈ ds, d.length ≤ 65535) :
    udpFraming.frames (encoded ds) = ds := by
  induction ds with
  | nil => exact udpFraming.frames_none udpFraming.next_nil
  | cons d ds ih =>
    have hnext : udpFraming.next (encoded (d :: ds)) = some (d, encoded ds) :=
      nextPacket_eq_some.2 ⟨hds d (by simp), rfl⟩
    rw [udpFraming.frames_some hnext, ih fun d' hd' => hds d' (by simp [hd'])]

/-- A reader that is stuck holds less than the next datagram. -/
theorem stuck_lt {u more : Bytes} (hds : ∀ d ∈ ds, d.length ≤ 65535) (hstuck : nextPacket u = none)
    (hbytes : u ++ more = encoded ds) {d : Bytes} {later : List Bytes} (hd : ds = d :: later) :
    u.length < (frame d).length := by
  by_contra hle
  subst hd
  rw [encoded, flatMap_cons] at hbytes
  obtain ⟨c, hu, -⟩ | ⟨c, hframe, -⟩ := append_eq_append_iff.mp hbytes.symm
  · have : nextPacket u = some (d, c) := nextPacket_eq_some.2 ⟨hds d (by simp), hu⟩
    rw [hstuck] at this
    cases this
  · have hlen := congrArg List.length hframe
    rw [length_append] at hlen
    have hc : c = [] := length_eq_zero_iff.mp (by omega)
    subst hc
    have : nextPacket u = some (d, []) :=
      nextPacket_eq_some.2 ⟨hds d (by simp), by simpa using hframe.symm⟩
    rw [hstuck] at this
    cases this

theorem stuck_nextPacket {s : UdpBufferState} (h : s.extract = none) :
    nextPacket s.unread = none := by
  rw [s.extract_eq, Option.map_eq_none_iff] at h
  exact h

theorem delivers_iff (chunks : List Bytes) (s : UdpBufferState) (hstuck : s.extract = none)
    (hready : s.Ready) (hds : ∀ d ∈ ds, d.length ≤ 65535)
    (hbytes : s.unread ++ chunks.flatten = encoded ds) :
    Delivers s chunks ds ↔ ¬ BadCut s.unread.length ds chunks := by
  induction chunks generalizing s ds with
  | nil =>
    have hnil : ds = [] := by
      cases ds with
      | nil => rfl
      | cons d ds =>
        have hlt := stuck_lt hds (stuck_nextPacket hstuck) hbytes rfl
        have hlen := congrArg List.length hbytes
        rw [flatten_nil, append_nil, length_encoded_cons] at hlen
        omega
    subst hnil
    exact ⟨fun _ => not_badCut_nil, fun _ => delivers_nil hstuck⟩
  | cons chunk chunks ih =>
    obtain ⟨hunread, hoffset⟩ := UdpBufferState.append_ready hready chunk
    obtain ⟨s', hstuck', hrest, hoffset', hdelivers⟩ := exists_drained (s.append chunk)
    rw [hunread] at hrest hoffset' hdelivers
    rw [hoffset] at hoffset'
    -- what the chunk completes, and what is left
    obtain ⟨ds', hsplit⟩ : ∃ ds', ds = udpFraming.frames (s.unread ++ chunk) ++ ds' := by
      have := frames_encoded hds
      rw [← hbytes, flatten_cons, ← append_assoc, udpFraming.frames_append] at this
      exact ⟨_, this.symm⟩
    have hsum := encoded_frames (s.unread ++ chunk)
    generalize udpFraming.frames (s.unread ++ chunk) = done at hsplit hoffset' hdelivers hsum
    subst hsplit
    have hds' : ∀ d ∈ ds', d.length ≤ 65535 := fun d hd => hds d (by simp [hd])
    have hbytes' : s'.unread ++ chunks.flatten = encoded ds' := by
      rw [flatten_cons, ← append_assoc, ← hsum, encoded_append, append_assoc,
        ← hrest] at hbytes
      exact append_cancel_left hbytes
    have hheld : Reaches s.unread.length [] (done ++ ds') :=
      ⟨Nat.zero_le _, fun d later hd => by
        rw [encoded, flatMap_nil, length_nil, Nat.zero_add]
        exact stuck_lt hds (stuck_nextPacket hstuck) hbytes hd⟩
    have hlen := congrArg List.length hsum
    rw [length_append, length_append, ← hrest] at hlen
    have hdone : Reaches (s.unread.length + chunk.length) done ds' := by
      refine ⟨by omega, fun d later hd => ?_⟩
      have := stuck_lt hds' (stuck_nextPacket hstuck') hbytes' hd
      omega
    have hheld' : s.unread.length + chunk.length - (encoded done).length = s'.unread.length := by
      omega
    rw [delivers_chunk hstuck, hdelivers, badCut_cons hheld hdone, hheld']
    by_cases hready' : s'.Ready
    · -- the buffer has something unread, or was compacted
      have hno : ¬ (ds' ≠ [] ∧ s.unread.length + chunk.length = (encoded done).length ∧
          readOffset done ≠ 0) := by
        rintro ⟨-, hend, hne⟩
        have hempty : s'.unread.length = 0 := by omega
        rcases hready' with h | h
        · exact hne (hoffset'.symm.trans h)
        · rw [UdpBufferState.unread, length_drop] at hempty
          omega
      rw [ih s' hstuck' hready' hds' hbytes', not_or]
      exact ⟨fun h => ⟨hno, h⟩, fun h => h.2⟩
    · -- the buffer was read to its end and the offset stays
      obtain ⟨hne, hge⟩ := not_or.mp hready'
      have hempty : s'.unread = [] := drop_of_length_le (Nat.not_lt.mp hge)
      rw [hempty, nil_append] at hbytes'
      by_cases hnil : ds' = []
      · subst hnil
        refine ⟨fun _ => not_or.mpr ⟨fun h => h.1 rfl, not_badCut_of_nil⟩, fun _ => ?_⟩
        obtain ⟨out, hout, hle⟩ := exists_delivers s' chunks
        rw [hempty, hbytes'] at hle
        have hout' : out = [] := by
          cases out with
          | nil => rfl
          | cons d out =>
            rw [length_encoded_cons, length_frame] at hle
            simp [encoded] at hle
        exact hout' ▸ hout
      · have hmore : chunks.flatten ≠ [] := by
          intro he
          obtain ⟨d, later, rfl⟩ := exists_cons_of_ne_nil hnil
          have := congrArg List.length hbytes'
          rw [he, length_encoded_cons, length_frame, length_nil] at this
          omega
        obtain ⟨out, hout, hlt⟩ := delivers_spent (Nat.not_lt.mp hge) hne hstuck' hmore
        refine ⟨fun h => ?_, fun h => absurd (.inl ⟨hnil, ?_, ?_⟩) h⟩
        · rw [hout.unique h, hbytes'] at hlt
          exact absurd hlt (Nat.lt_irrefl _)
        · rw [hempty, length_nil] at hlen
          omega
        · exact fun h => hne (hoffset'.trans h)

/-- **The round trip holds in exactly the cuttings without a bad cut.** -/
theorem udp_round_trip_iff (ds chunks : List Bytes) (hds : ∀ d ∈ ds, d.length ≤ 65535)
    (hchunks : chunks.flatten = ds.flatMap frame) :
    (∀ n, receives (ds.length + n) {} chunks = ds.map some ++ List.replicate n none) ↔
      ¬ BadCut 0 ds chunks :=
  delivers_iff chunks {} rfl (.inl rfl) hds hchunks

theorem udp_round_trip_of_two_chunks :
    (∀ d ∈ [[1], [2, 3]], d.length ≤ 65535) ∧
      [[0, 1, 1, 0], [2, 2, 3]].flatten = [[1], [2, 3]].flatMap frame ∧
      ((∀ n, receives (2 + n) {} [[0, 1, 1, 0], [2, 2, 3]] =
        [some [1], some [2, 3]] ++ List.replicate n none) ↔
        ¬ BadCut 0 [[1], [2, 3]] [[0, 1, 1, 0], [2, 2, 3]]) :=
  ⟨by decide, by decide,
    udp_round_trip_iff [[1], [2, 3]] [[0, 1, 1, 0], [2, 2, 3]] (by decide) (by decide)⟩

/-- Two datagrams, each in a chunk of its own: the second is lost. -/
theorem second_datagram_lost :
    [frame [1], frame [2]].flatten = [[1], [2]].flatMap frame ∧
      receives 2 {} [frame [1], frame [2]] = [some [1], none] := by
  decide

end RoundTrip

end Anywhere.Vless
