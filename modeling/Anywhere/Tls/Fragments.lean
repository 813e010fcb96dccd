import Anywhere.Tls.Hello

/-!
# Anywhere — fragments of an encrypted flight

A server cuts its handshake messages into fragments, one for each record. The clients take
messages out of each fragment alone, so that a message which goes on in the next record is
lost.

* `decode_whole` — when no fragment ends within a message, all messages are decoded,
  whatever the fragments.
* `whole_of_decoded` — when all messages are decoded, no fragment ends within one.
-/

namespace Anywhere.Tls

open List

variable {Cert Key : Type}

/-- The records carry the fragments, encrypted one after the other. -/
def Encrypts (cr : Crypto Cert Key) (keys : Key) : Nat → List (Record × Bytes) → Prop
  | _, [] => True
  | seqNum, (r, fragment) :: later =>
    r.WellFormed ∧ r.contentType = 0x17 ∧ fragment ≠ [] ∧
      decryptHandshakeRecord cr keys seqNum r.header r.payload = some fragment ∧
      Encrypts cr keys (seqNum + 1) later

def recordBytes (sealed : List (Record × Bytes)) : Bytes := sealed.flatMap (·.1.bytes)

/-- No fragment ends within a message. -/
def Whole (sealed : List (Record × Bytes)) : Prop := ∀ s ∈ sealed, messages.rest s.2 = []

def fragmentMessages (sealed : List (Record × Bytes)) : List HandshakeMessage :=
  sealed.flatMap (messages.frames ·.2)

theorem recordBytes_cons (r : Record) (fragment : Bytes) (later : List (Record × Bytes)) :
    recordBytes ((r, fragment) :: later) = r.bytes ++ recordBytes later := rfl

theorem fragmentMessages_cons (r : Record) (fragment : Bytes) (later : List (Record × Bytes)) :
    fragmentMessages ((r, fragment) :: later) =
      messages.frames fragment ++ fragmentMessages later := rfl

theorem frames_transcript (fragment : Bytes) :
    transcriptOf (messages.frames fragment) ++ messages.rest fragment = fragment :=
  Lib.Framing.frames_bytes (fun h => takeMessage_bytes h) fragment

variable {fragment : Bytes}

theorem length_message_le {m : HandshakeMessage}
    (h : m ∈ messages.frames fragment) : m.bytes.length ≤ fragment.length := by
  have hlength := congrArg List.length (frames_transcript fragment)
  obtain ⟨pre, post, hsplit⟩ := append_of_mem h
  rw [hsplit, transcriptOf_append, transcriptOf, transcriptOf, flatMap_cons] at hlength
  simp only [length_append] at hlength
  omega

theorem extractServerHello_record {fuel : Nat} {buffer : Bytes}
    (h : extractServerHello fuel buffer ≠ []) :
    ∃ r ∈ records.frames buffer, r.contentType = 0x16 ∧
      (extractServerHello fuel buffer).length ≤ r.payload.length := by
  induction fuel generalizing buffer with
  | zero => exact absurd rfl h
  | succ fuel ih =>
    rw [extractServerHello] at h ⊢
    split at h
    · exact absurd rfl h
    rename_i r rest htake
    have hframes : records.frames buffer = r :: records.frames rest := records.frames_some htake
    rw [hframes]
    split at h
    · rename_i htype
      rw [if_pos htype]
      split at h
      · -- the message is in this record
        rename_i m hm
        exact ⟨r, by simp, htype, length_message_le (List.mem_of_find?_eq_some hm)⟩
      · obtain ⟨o, ho, hother, hlength⟩ := ih h
        exact ⟨o, by simp [ho], hother, hlength⟩
    · rename_i htype
      rw [if_neg htype]
      obtain ⟨o, ho, hother, hlength⟩ := ih h
      exact ⟨o, by simp [ho], hother, hlength⟩

def Decoded.push (d : Decoded) (ms : List HandshakeMessage) : Decoded :=
  { d with transcript := d.transcript ++ transcriptOf ms, messages := d.messages ++ ms }

def Decoded.finish (d : Decoded) (ms : List HandshakeMessage) : Decoded :=
  { d.push ms with finished := true }

theorem Decoded.push_push (d : Decoded) (ms later : List HandshakeMessage) :
    (d.push ms).push later = d.push (ms ++ later) := by
  simp [push]

-- ----
-- A decoder

variable {d : Decoded} {ms : List HandshakeMessage} {r : Record} {sealed : List (Record × Bytes)}

section Decoder

variable (decodeMessage : Decoded → HandshakeMessage → Decoded × Bool) (cr : Crypto Cert Key)
  (keys : Key)

/-- A decoder of records from one of messages; both clients have one of this form. -/
def decodeWith (d : Decoded) (r : Record) : Decoded :=
  if r.contentType = 0x17 then
    match decryptHandshakeRecord cr keys d.seqNum r.header r.payload with
    | none => d
    | some decrypted =>
      (messages.drain (fun p m => decodeMessage p.1 m) Prod.snd
        ({ d with seqNum := d.seqNum + 1 }, false) decrypted).1.1
  else d

/-- The messages of a flight are taken one by one, and the last one ends it. -/
structure Takes (T0 : Bytes) (body : List HandshakeMessage) (fin : HandshakeMessage) : Prop where
  first : ∀ m ∈ body, ∀ d, d.finished = false → decodeMessage d m = (d.push [m], false)
  last : ∀ d, d.finished = false → d.transcript = T0 ++ transcriptOf body →
    decodeMessage d fin = (d.finish [fin], false)

variable {decodeMessage cr keys} {T0 : Bytes} {body : List HandshakeMessage}
    {fin : HandshakeMessage}

theorem Takes.foldl_first (h : Takes decodeMessage T0 body fin)
    (hms : ∀ m ∈ ms, m ∈ body) (hd : d.finished = false) :
    ms.foldl (fun p m => decodeMessage p.1 m) (d, false) = (d.push ms, false) := by
  induction ms generalizing d with
  | nil => simp [Decoded.push, transcriptOf]
  | cons m ms ih =>
    rw [foldl_cons]
    simp only [h.first m (hms m (by simp)) d hd]
    rw [ih (fun o ho => hms o (by simp [ho])) (d := d.push [m]) hd, Decoded.push_push]
    rfl

theorem Takes.foldl_last (h : Takes decodeMessage T0 body fin) {done todo : List HandshakeMessage}
    (hbody : body = done ++ todo) (hd : d.finished = false)
    (htranscript : d.transcript = T0 ++ transcriptOf done) :
    (todo ++ [fin]).foldl (fun p m => decodeMessage p.1 m) (d, false) =
      (d.finish (todo ++ [fin]), false) := by
  have htodo : ∀ m ∈ todo, m ∈ body := fun m hm => by rw [hbody]; simp [hm]
  have hall : (d.push todo).transcript = T0 ++ transcriptOf body := by
    rw [hbody, transcriptOf_append, ← append_assoc, ← htranscript]
    rfl
  rw [foldl_append, h.foldl_first htodo hd, foldl_cons, foldl_nil]
  simp only [h.last (d.push todo) hd hall]
  rw [Decoded.finish, Decoded.push_push]
  rfl

theorem decodeWith_all {f : Decoded}
    (htype : r.contentType = 0x17)
    (hdec : decryptHandshakeRecord cr keys d.seqNum r.header r.payload = some fragment)
    (hstop : ∀ hs gs, messages.frames fragment = hs ++ gs →
      (hs.foldl (fun p m => decodeMessage p.1 m) ({ d with seqNum := d.seqNum + 1 }, false)).2 =
      false)
    (hfold : (messages.frames fragment).foldl (fun p m => decodeMessage p.1 m)
      ({ d with seqNum := d.seqNum + 1 }, false) = (f, false)) :
    decodeWith decodeMessage cr keys d r = f := by
  have hdrain := messages.drain_whole (fun p m => decodeMessage p.1 m) Prod.snd hstop
  rw [decodeWith, if_pos htype, hdec]
  dsimp only
  rw [hdrain, hfold]

theorem frames_ne_nil (hne : fragment ≠ []) (hrest : messages.rest fragment = []) :
    messages.frames fragment ≠ [] := by
  intro hnil
  have hbytes := frames_transcript fragment
  rw [hnil, hrest] at hbytes
  exact hne hbytes.symm

theorem fragmentMessages_ne_nil {seqNum : Nat}
    (hne : sealed ≠ []) (hseal : Encrypts cr keys seqNum sealed) (hwhole : Whole sealed) :
    fragmentMessages sealed ≠ [] := by
  obtain ⟨⟨r, fragment⟩, later, rfl⟩ := exists_cons_of_ne_nil hne
  have hfirst := frames_ne_nil hseal.2.2.1 (hwhole (r, fragment) (by simp))
  rw [fragmentMessages_cons]
  simp [hfirst]

/-- **Whole fragments.** All messages are decoded, and what follows the last record stays. -/
theorem Takes.decode_whole (h : Takes decodeMessage T0 body fin) {done todo : List HandshakeMessage}
    (hbody : body = done ++ todo) (hd : d.finished = false)
    (htranscript : d.transcript = T0 ++ transcriptOf done)
    (hseal : Encrypts cr keys d.seqNum sealed) (hwhole : Whole sealed)
    (hms : fragmentMessages sealed = todo ++ [fin]) (zs : Bytes) :
    records.drain (decodeWith decodeMessage cr keys) Decoded.finished d (recordBytes sealed ++ zs) =
      (Decoded.finish { d with seqNum := d.seqNum + sealed.length } (todo ++ [fin]), zs) := by
  induction sealed generalizing d done todo with
  | nil => simp [fragmentMessages] at hms
  | cons s later ih =>
    obtain ⟨r, fragment⟩ := s
    obtain ⟨hr, htype, hne, hdec, hlaterSeal⟩ := hseal
    have hlaterWhole : Whole later := fun s hs => hwhole s (by simp [hs])
    have htake : records.next (r.bytes ++ (recordBytes later ++ zs)) =
        some (r, recordBytes later ++ zs) := hr.encodes _
    rw [fragmentMessages_cons] at hms
    rw [recordBytes_cons, append_assoc,
      records.drain_some (decodeWith decodeMessage cr keys) Decoded.finished hd htake]
    have htodo : ∀ m ∈ todo, m ∈ body := fun m hm => by rw [hbody]; simp [hm]
    by_cases hlast : later = []
    · -- the Finished is the last message of this record
      subst hlast
      have hframes : messages.frames fragment = todo ++
          [fin] := by simpa [fragmentMessages] using hms
      have hfold := h.foldl_last (d := { d with seqNum := d.seqNum + 1 }) hbody hd htranscript
      have hstop : ∀ hs gs, messages.frames fragment = hs ++ gs → (hs.foldl
          (fun p m => decodeMessage p.1 m) ({ d with seqNum := d.seqNum + 1 }, false)).2 =
          false := by
        intro hs gs hsplit
        rw [hframes] at hsplit
        rcases eq_nil_or_concat gs with rfl | ⟨gs, m, rfl⟩
        · rw [append_nil] at hsplit
          rw [← hsplit, hfold]
        · rw [concat_eq_append, ← append_assoc] at hsplit
          obtain ⟨hfront, -⟩ := append_inj' hsplit rfl
          rw [h.foldl_first (fun m hm => htodo m (by rw [hfront]; simp [hm]))
            (d := { d with seqNum := d.seqNum + 1 }) hd]
      rw [decodeWith_all htype hdec hstop (by rw [hframes, hfold]), records.drain_stop _ _ rfl]
      rfl
    · -- the messages of this record come before the Finished
      obtain ⟨front, m, hback⟩ := (eq_nil_or_concat (fragmentMessages later)).resolve_left
        (fragmentMessages_ne_nil hlast hlaterSeal hlaterWhole)
      rw [concat_eq_append] at hback
      rw [hback, ← append_assoc] at hms
      obtain ⟨hfront, hfin⟩ := append_inj' hms rfl
      have hin : ∀ m ∈ messages.frames fragment, m ∈ body :=
        fun m hm => htodo m (by rw [← hfront]; simp [hm])
      have hfold := h.foldl_first hin (d := { d with seqNum := d.seqNum + 1 }) hd
      have hstop : ∀ hs gs, messages.frames fragment = hs ++ gs → (hs.foldl
          (fun p m => decodeMessage p.1 m) ({ d with seqNum := d.seqNum + 1 }, false)).2 =
          false := by
        intro hs gs hsplit
        rw [h.foldl_first (fun m hm => hin m (by rw [hsplit]; simp [hm]))
          (d := { d with seqNum := d.seqNum + 1 }) hd]
      rw [decodeWith_all htype hdec hstop hfold,
        ih (d := Decoded.push { d with seqNum := d.seqNum + 1 } (messages.frames fragment))
          (by rw [hbody, ← hfront, append_assoc]) hd ?_ hlaterSeal hlaterWhole
          (by rw [hback, hfin])]
      · rw [← hfront, append_assoc, length_cons, Nat.add_comm later.length,
          ← Nat.add_assoc]
        simp [Decoded.finish, Decoded.push]
      · rw [transcriptOf_append, ← append_assoc, ← htranscript]
        rfl

end Decoder

theorem fragmentMessages_of_whole
    (hms : ∀ m ∈ ms, m.WellFormed) (hpieces : (sealed.map Prod.snd).flatten = transcriptOf ms)
    (hwhole : Whole sealed) : fragmentMessages sealed = ms := by
  have hrest : ∀ p ∈ sealed.map Prod.snd, messages.rest p = [] := by
    intro p hp
    obtain ⟨s, hs, rfl⟩ := mem_map.1 hp
    exact hwhole s hs
  have hframes := Lib.Framing.frames_flatten hrest
  have hall := (messages.frames_flatMap fun m hm => (hms m hm).encodes).1
  rw [hpieces, map_map] at hframes
  rw [fragmentMessages, flatMap_def]
  exact hframes.symm.trans hall

-- ----
-- Any fragments

variable {after : List Record}

section Handled

variable {decodeMessage : Decoded → HandshakeMessage → Decoded × Bool} {cr : Crypto Cert Key}
  {keys : Key}

/-- Every message is added, whatever else is done with it. -/
structure Adds (decodeMessage : Decoded → HandshakeMessage → Decoded × Bool) : Prop where
  seqNum : ∀ d m, (decodeMessage d m).1.seqNum = d.seqNum
  messages : ∀ d m, (decodeMessage d m).1.messages = d.messages ++ [m]

theorem Adds.foldl (h : Adds decodeMessage) (ms : List HandshakeMessage) (p : Decoded × Bool) :
    (ms.foldl (fun p m => decodeMessage p.1 m) p).1.seqNum = p.1.seqNum ∧
      (ms.foldl (fun p m => decodeMessage p.1 m) p).1.messages = p.1.messages ++ ms := by
  induction ms generalizing p with
  | nil => exact ⟨rfl, (append_nil _).symm⟩
  | cons m ms ih =>
    obtain ⟨hseq, hmessages⟩ := ih (decodeMessage p.1 m)
    rw [foldl_cons, hseq, hmessages, h.seqNum, h.messages, append_assoc]
    exact ⟨rfl, rfl⟩

/-- One record adds a first part of the messages of its fragment. -/
theorem Adds.decodeWith (h : Adds decodeMessage)
    (htype : r.contentType = 0x17)
    (hdec : decryptHandshakeRecord cr keys d.seqNum r.header r.payload = some fragment) :
    (Tls.decodeWith decodeMessage cr keys d r).seqNum = d.seqNum + 1 ∧
      ∃ hs gs, Tls.messages.frames fragment = hs ++ gs ∧
        (Tls.decodeWith decodeMessage cr keys d r).messages = d.messages ++ hs := by
  obtain ⟨hs, gs, hframes, hstate, -⟩ := Tls.messages.drain_frames
    (fun p m => decodeMessage p.1 m) Prod.snd ({ d with seqNum := d.seqNum + 1 }, false) fragment
  obtain ⟨hseq, hmessages⟩ := h.foldl hs ({ d with seqNum := d.seqNum + 1 }, false)
  rw [Tls.decodeWith, if_pos htype, hdec]
  dsimp only
  rw [hstate, hseq, hmessages]
  exact ⟨rfl, hs, gs, hframes, rfl⟩

/-- Records that cannot be decrypted change nothing. -/
theorem drain_other (hafter : ∀ r ∈ after, r.WellFormed ∧ ∀ n,
      decryptHandshakeRecord cr keys n r.header r.payload = none) (d : Decoded) :
    (records.drain (decodeWith decodeMessage cr keys) Decoded.finished d
      (after.flatMap Record.bytes)).1 = d := by
  obtain ⟨fs, gs, hframes, hstate, -⟩ := records.drain_frames (decodeWith decodeMessage cr keys)
    Decoded.finished d (after.flatMap Record.bytes)
  have hall := (records.frames_flatMap fun r hr => (hafter r hr).1.encodes).1
  rw [hall] at hframes
  have hfs : ∀ r ∈ fs, ∀ d, decodeWith decodeMessage cr keys d r = d := by
    intro r hr d
    unfold decodeWith
    rw [(hafter r (by rw [hframes]; simp [hr])).2]
    split <;> rfl
  rw [hstate]
  clear hstate hframes
  induction fs generalizing d with
  | nil => rfl
  | cons r fs ih =>
    rw [foldl_cons, hfs r (by simp)]
    exact ih d fun r hr => hfs r (by simp [hr])

/-- What is left of the fragments, each one alone. -/
def restLength (sealed : List (Record × Bytes)) : Nat :=
  (sealed.map fun s => (Tls.messages.rest s.2).length).sum

theorem restLength_cons (r : Record) (fragment : Bytes) (later : List (Record × Bytes)) :
    restLength ((r, fragment) :: later) = (Tls.messages.rest fragment).length +
      restLength later := by
  rw [restLength, map_cons, sum_cons]
  rfl

theorem restLength_le (sealed : List (Record × Bytes)) :
    restLength sealed ≤ (sealed.map Prod.snd).flatten.length := by
  induction sealed with
  | nil => exact Nat.le_refl 0
  | cons s later ih =>
    obtain ⟨r, fragment⟩ := s
    have hfragment := congrArg List.length (frames_transcript fragment)
    rw [length_append] at hfragment
    rw [restLength_cons, map_cons, flatten_cons, length_append]
    show _ ≤ fragment.length + _
    omega

theorem whole_of_restLength (h : restLength sealed = 0) :
    Whole sealed := by
  intro s hs
  rw [restLength, List.sum_eq_zero_iff_forall_eq_nat] at h
  exact eq_nil_of_length_eq_zero (h _ (mem_map_of_mem hs))

/-- **Any fragments.** The messages that are decoded have no more bytes than the fragments
without what is left of each. -/
theorem Adds.decode_length (h : Adds decodeMessage)
    (hseal : Encrypts cr keys d.seqNum sealed)
    (hafter : ∀ r ∈ after, r.WellFormed ∧ ∀ n,
      decryptHandshakeRecord cr keys n r.header r.payload = none) :
    ∃ ms, (records.drain (Tls.decodeWith decodeMessage cr keys) Decoded.finished d
        (recordBytes sealed ++ after.flatMap Record.bytes)).1.messages = d.messages ++ ms ∧
      (transcriptOf ms).length + restLength sealed ≤ (sealed.map Prod.snd).flatten.length := by
  induction sealed generalizing d with
  | nil =>
    refine ⟨[], ?_, Nat.le_refl 0⟩
    rw [recordBytes, flatMap_nil, nil_append, drain_other hafter, append_nil]
  | cons s later ih =>
    by_cases hd : d.finished = true
    · -- nothing is handled behind the Finished
      refine ⟨[], ?_, ?_⟩
      · rw [records.drain_stop _ _ hd, append_nil]
      · simpa [transcriptOf] using restLength_le (s :: later)
    obtain ⟨r, fragment⟩ := s
    obtain ⟨hr, htype, -, hdec, hlater⟩ := hseal
    have htake : records.next (r.bytes ++ (recordBytes later ++ after.flatMap Record.bytes)) =
        some (r, recordBytes later ++ after.flatMap Record.bytes) := hr.encodes _
    obtain ⟨hseq, hs, gs, hframes, hmessages⟩ := h.decodeWith htype hdec
    obtain ⟨ms, hrun, hlength⟩ := ih (by rw [hseq]; exact hlater)
    refine ⟨hs ++ ms, ?_, ?_⟩
    · rw [recordBytes_cons, append_assoc, records.drain_some _ _ (by simpa using hd) htake, hrun,
        hmessages, append_assoc]
    · have hfragment := congrArg List.length (frames_transcript fragment)
      rw [hframes, transcriptOf_append, length_append, length_append] at hfragment
      rw [restLength_cons, transcriptOf_append, length_append, map_cons,
        flatten_cons, length_append]
      show _ ≤ fragment.length + _
      omega

theorem Adds.whole_of_decoded (h : Adds decodeMessage)
    (hseal : Encrypts cr keys d.seqNum sealed)
    (hafter : ∀ r ∈ after, r.WellFormed ∧ ∀ n,
      decryptHandshakeRecord cr keys n r.header r.payload = none) (hpieces :
      (sealed.map Prod.snd).flatten = transcriptOf ms)
    (hms : (records.drain (Tls.decodeWith decodeMessage cr keys) Decoded.finished d
      (recordBytes sealed ++ after.flatMap Record.bytes)).1.messages = d.messages ++ ms) :
    Whole sealed := by
  obtain ⟨ms', hms', hlength⟩ := h.decode_length hseal hafter
  rw [hms] at hms'
  rw [← append_cancel_left hms', hpieces] at hlength
  exact whole_of_restLength (by omega)

end Handled

-- ----
-- A way to send a flight

/-- A way to send a flight of TLS 1.3: the fragments of the ServerHello in plaintext records,
the ChangeCipherSpec records behind them, the encrypted records with their fragments, what
the server sends next, and the reads of the transport. -/
structure Way13 where
  hello : List Bytes
  changeCipherSpec : List Record
  sealed : List (Record × Bytes)
  after : List Record
  reads : List Bytes

namespace Way13

/-- The records behind those of the ServerHello. -/
def later (w : Way13) : Bytes :=
  w.changeCipherSpec.flatMap Record.bytes ++
    (recordBytes w.sealed ++ w.after.flatMap Record.bytes)

def stream (w : Way13) : Bytes := (w.hello.map handshakeRecord).flatMap Record.bytes ++ w.later

def all (w : Way13) : List Record :=
  w.hello.map handshakeRecord ++ (w.changeCipherSpec ++ (w.sealed.map Prod.fst ++ w.after))

theorem stream_eq (w : Way13) : w.stream = w.all.flatMap Record.bytes := by
  simp [stream, later, all, recordBytes, flatMap_append, flatMap_map]

/-- No record ends within a message. The ServerHello is the only message of its records. -/
def Whole (w : Way13) : Prop := w.hello.length = 1 ∧ Tls.Whole w.sealed

/-- The way sends the ServerHello `hello` and the messages `ms` under the handshake keys. What
follows is not a plaintext handshake and not encrypted with these keys. -/
structure Sends (w : Way13) (cr : Crypto Cert Key) (keys : Key) (hello : Bytes)
    (ms : List HandshakeMessage) : Prop where
  hello_pieces : w.hello.flatten = hello
  hello_fits : ∀ fragment ∈ w.hello, fragment ≠ [] ∧ fragment.length < 65536
  changeCipherSpec : ∀ r ∈ w.changeCipherSpec, r.WellFormed ∧ r.contentType = 0x14
  encrypts : Encrypts cr keys 0 w.sealed
  pieces : (w.sealed.map Prod.snd).flatten = transcriptOf ms
  after : ∀ r ∈ w.after, r.WellFormed ∧ r.contentType ≠ 0x16 ∧
    ∀ n, decryptHandshakeRecord cr keys n r.header r.payload = none
  reads : w.reads.flatten = w.stream
  reads_ne : ∀ data ∈ w.reads, data ≠ []

end Way13

section Ways

variable {decodeMessage : Decoded → HandshakeMessage → Decoded × Bool} {cr : Crypto Cert Key}
  {keys : Key} {w : Way13} {hello T0 : Bytes} {body ms : List HandshakeMessage}
  {fin : HandshakeMessage}

theorem drain_skip {rs : List Record} (hrs : ∀ r ∈ rs, r.WellFormed ∧ r.contentType ≠ 0x17)
    (hd : d.finished = false) (zs : Bytes) :
    records.drain (decodeWith decodeMessage cr keys) Decoded.finished d
        (rs.flatMap Record.bytes ++ zs) =
      records.drain (decodeWith decodeMessage cr keys) Decoded.finished d zs := by
  induction rs with
  | nil => rfl
  | cons r rs ih =>
    obtain ⟨hr, htype⟩ := hrs r (by simp)
    have htake : records.next (r.bytes ++ (rs.flatMap Record.bytes ++ zs)) =
        some (r, rs.flatMap Record.bytes ++ zs) := hr.encodes _
    rw [flatMap_cons, append_assoc, records.drain_some _ _ hd htake, decodeWith,
      if_neg htype]
    exact ih fun o ho => hrs o (by simp [ho])

theorem Way13.Sends.drain_stream (h : w.Sends cr keys hello ms)
    (hd : d.finished = false) :
    records.drain (decodeWith decodeMessage cr keys) Decoded.finished d w.stream =
      records.drain (decodeWith decodeMessage cr keys) Decoded.finished d
        (recordBytes w.sealed ++ w.after.flatMap Record.bytes) := by
  rw [stream, drain_skip ?_ hd, later, drain_skip ?_ hd]
  · intro r hr
    obtain ⟨hrecord, htype⟩ := h.changeCipherSpec r hr
    exact ⟨hrecord, by rw [htype]; decide⟩
  · intro r hr
    obtain ⟨fragment, hfragment, rfl⟩ := mem_map.1 hr
    exact ⟨handshakeRecord_wellFormed (h.hello_fits fragment hfragment).2,
      show (0x16 : UInt8) ≠ 0x17 by decide⟩

theorem Way13.Sends.decode (h : w.Sends cr keys hello (body ++ [fin]))
    (htakes : Takes decodeMessage T0 body fin) (hms : ∀ m ∈ body ++ [fin], m.WellFormed)
    (hwhole : Tls.Whole w.sealed) :
    records.drain (decodeWith decodeMessage cr keys) Decoded.finished
    { transcript := T0 } w.stream =
      (⟨w.sealed.length, T0 ++ transcriptOf (body ++ [fin]), true, body ++ [fin]⟩,
        w.after.flatMap Record.bytes) := by
  have hmessages := fragmentMessages_of_whole hms h.pieces hwhole
  have hrun := htakes.decode_whole (d := { transcript := T0 }) (nil_append body).symm rfl
    (by simp [transcriptOf]) h.encrypts hwhole hmessages (w.after.flatMap Record.bytes)
  rw [h.drain_stream rfl, hrun]
  simp [Decoded.finish, Decoded.push]

theorem Way13.Sends.whole_of_decoded (h : w.Sends cr keys hello ms) (hadds : Adds decodeMessage)
    (hms : (records.drain (decodeWith decodeMessage cr keys) Decoded.finished
      { transcript := T0 } w.stream).1.messages = ms) : Tls.Whole w.sealed := by
  rw [h.drain_stream rfl] at hms
  exact hadds.whole_of_decoded h.encrypts (fun r hr => ⟨(h.after r hr).1, (h.after r hr).2.2⟩)
    h.pieces (by rw [hms, nil_append])

theorem Way13.Sends.first (h : w.Sends cr keys hello ms) (hne : hello ≠ []) :
    ∃ fragment rest zs, w.hello = fragment :: rest ∧ fragment.length < 65536 ∧
      fragment.head? = hello.head? ∧ w.stream = (handshakeRecord fragment).bytes ++ zs := by
  rcases hfragments : w.hello with _ | ⟨fragment, rest⟩
  · have hpieces := h.hello_pieces
    rw [hfragments] at hpieces
    exact absurd hpieces.symm hne
  · obtain ⟨hfragment, hfits⟩ := h.hello_fits fragment (by simp [hfragments])
    refine ⟨fragment, rest, (rest.map handshakeRecord).flatMap Record.bytes ++ w.later, rfl, hfits,
      ?_, ?_⟩
    · rw [← h.hello_pieces, hfragments, flatten_cons, List.head?_append]
      obtain ⟨b, bs, rfl⟩ := exists_cons_of_ne_nil hfragment
      rfl
    · rw [stream, hfragments, map_cons, flatMap_cons, append_assoc]

theorem length_le_flatten {pieces : List Bytes} (h : ∀ p ∈ pieces, p ≠ []) :
    pieces.length ≤ pieces.flatten.length := by
  induction pieces with
  | nil => exact Nat.le_refl 0
  | cons p pieces ih =>
    have hp : 0 < p.length := length_pos_iff.2 (h p (by simp))
    have hlater := ih fun q hq => h q (by simp [hq])
    rw [length_cons, flatten_cons, length_append]
    omega

/-- In more than one record, every fragment is shorter than the ServerHello. -/
theorem Way13.Sends.fragment_lt (h : w.Sends cr keys hello ms) (hmore : w.hello.length ≠ 1) :
    ∀ fragment ∈ w.hello, fragment.length < hello.length := by
  intro fragment hfragment
  obtain ⟨front, back, hsplit⟩ := append_of_mem hfragment
  have hfront : front.length ≤ front.flatten.length :=
    length_le_flatten fun p hp => (h.hello_fits p (by rw [hsplit]; simp [hp])).1
  have hback : back.length ≤ back.flatten.length :=
    length_le_flatten fun p hp => (h.hello_fits p (by rw [hsplit]; simp [hp])).1
  rw [hsplit, length_append, length_cons] at hmore
  rw [← h.hello_pieces, hsplit, flatten_append, flatten_cons, length_append,
    length_append]
  omega

theorem Way13.Sends.hello_eq (h : w.Sends cr keys hello ms) (hone : w.hello.length = 1) :
    w.hello = [hello] := by
  obtain ⟨fragment, hfragment⟩ := length_eq_one_iff.1 hone
  have hpieces := h.hello_pieces
  rw [hfragment, flatten_singleton] at hpieces
  rw [hfragment, hpieces]

theorem Encrypts.record {seqNum : Nat}
    (h : Encrypts cr keys seqNum sealed) :
    ∀ s ∈ sealed, s.1.WellFormed ∧ s.1.contentType = 0x17 := by
  induction sealed generalizing seqNum with
  | nil => simp
  | cons s later ih =>
    obtain ⟨hrecord, htype, -, -, hlater⟩ := h
    intro o ho
    rcases mem_cons.1 ho with rfl | ho
    · exact ⟨hrecord, htype⟩
    · exact ih hlater o ho

theorem Way13.Sends.record (h : w.Sends cr keys hello ms) (hr : r ∈ w.all) :
    r.WellFormed ∧ (r.contentType = 0x16 → ∃ fragment ∈ w.hello, r = handshakeRecord fragment) := by
  simp only [all, mem_append, mem_map] at hr
  rcases hr with ⟨fragment, hfragment, rfl⟩ | hr | ⟨s, hs, rfl⟩ | hr
  · exact ⟨handshakeRecord_wellFormed (h.hello_fits fragment hfragment).2,
      fun _ => ⟨fragment, hfragment, rfl⟩⟩
  · refine ⟨(h.changeCipherSpec r hr).1, fun htype => ?_⟩
    rw [(h.changeCipherSpec r hr).2] at htype
    exact absurd htype (by decide)
  · refine ⟨(h.encrypts.record s hs).1, fun htype => ?_⟩
    rw [(h.encrypts.record s hs).2] at htype
    exact absurd htype (by decide)
  · exact ⟨(h.after r hr).1, fun htype => absurd htype (h.after r hr).2.1⟩

/-- When the whole ServerHello is extracted from what was read, it came in one record. -/
theorem Way13.Sends.hello_of_extracted (h : w.Sends cr keys hello ms) (hne : hello ≠ [])
    {front back : List Bytes} (hreads : w.reads = front ++ back)
    (hextract : extractServerHelloMessage front.flatten = hello) : w.hello.length = 1 := by
  by_contra hmore
  obtain ⟨r, hr, htype, hlength⟩ := extractServerHello_record
    (show extractServerHello _ front.flatten ≠
      [] by rw [← extractServerHelloMessage, hextract]; exact hne)
  have hin : r ∈ records.frames w.stream := by
    rw [← h.reads, hreads, flatten_append, records.frames_append]
    simp [hr]
  rw [w.stream_eq, (records.frames_flatMap fun o ho => (h.record ho).1.encodes).1] at hin
  obtain ⟨fragment, hfragment, rfl⟩ := (h.record hin).2 htype
  have hlt := h.fragment_lt hmore fragment hfragment
  rw [← extractServerHelloMessage, hextract] at hlength
  exact absurd hlength (Nat.not_le.2 hlt)

end Ways

end Anywhere.Tls
