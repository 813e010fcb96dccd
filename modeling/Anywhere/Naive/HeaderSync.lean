import Anywhere.Lib.Machine
import Anywhere.Naive.Hpack

/-!
# Anywhere — the header blocks of a session

All streams of a session share one HPACK decoder. `routeFrame` looks the stream of a HEADERS frame
up before it decodes the block, so the block of a stream that has left the table is skipped, and
what it inserts is missing from the decoder's table.

* `Connection` — the session and its decoder, beside the encoder of the server.
* `Heard` — a frame whose block the decoder may skip, or reads as it was written.
* `headers_in_step` — in a run of such frames every stream is given the headers of its server.
* `skipped_block_out_of_step` — a block on a closed stream, and the next one on another stream.
-/

namespace Anywhere.Naive

open Lib HpackDecoder List

-- ----
-- HEADERS frames

/-- A HEADERS frame of the server: what stands around the block, and how many of its octets are left
for CONTINUATION frames. -/
structure HeadersFrame where
  streamID : Nat
  flags : Nat
  padLength : Option UInt8 := none
  priority : Option Bytes := none
  continued : Nat := 0
  block : List Hpack.Representation

def HeadersFrame.payload (f : HeadersFrame) : Bytes :=
  f.padLength.toList ++ f.priority.getD [] ++
    (Hpack.blockBytes f.block).take ((Hpack.blockBytes f.block).length - f.continued) ++
    List.replicate (f.padLength.getD 0).toNat 0

def HeadersFrame.frame (f : HeadersFrame) : Http2Frame := ⟨.headers, f.flags, f.streamID, f.payload⟩

/-- Nothing but the whole block. -/
def HeadersFrame.Plain (f : HeadersFrame) : Prop :=
  f.padLength = none ∧ f.priority = none ∧ f.continued = 0

theorem HeadersFrame.payload_of_plain {f : HeadersFrame} (h : f.Plain) :
    f.payload = Hpack.blockBytes f.block := by
  obtain ⟨hpad, hpriority, hcontinued⟩ := h
  simp [payload, hpad, hpriority, hcontinued]

-- ----
-- The session with its decoder

/-- What the decoder made of a block for a stream, and what the server had encoded. -/
structure Delivery where
  stream : Nat
  result : Except Stop Headers
  encoded : List Hpack.Field

/-- `Http2Session` with its `hpackDecoder`, and the table of the server's encoder. A session that is
closed decodes nothing more, so `reset` is left out. -/
structure Connection where
  session : Session := {}
  dynamicTable : Headers := []
  serverTable : Hpack.Table := ⟨[], 4096⟩
  delivered : List Delivery := []

/-- A step: one of the session, or a HEADERS frame. -/
inductive Input where
  | event (e : Event)
  | headers (f : HeadersFrame)

/-- The stream a HEADERS frame is routed to. -/
def target (s : Session) (streamID : Nat) : Option Nat :=
  if s.handshake = .over ∧ s.state = .ready ∧ s.transport = true ∧ streamID ≠ 0 then
    s.lookup streamID else none

/-- The read loop on a HEADERS frame, with what `decode` returns or throws. -/
def routeHeaders (f : Http2Frame) (result : Except Stop Headers) (s : Session) : Session :=
  match result with
  | .ok headers => step s (.frame f (some headers))
  | .error .null => step s (.frame f none)
  | .error .illegalArgument => step s .readError

/-- The server encodes a block, and the client receives it. -/
def receiveHeaders (f : HeadersFrame) (c : Connection) : Connection :=
  match Hpack.applyBlock headerTableSize c.serverTable f.block with
  | none => c
  | some (fields, serverTable) =>
    match target c.session f.streamID with
    | none => { c with session := step c.session (.frame f.frame none), serverTable }
    | some k =>
      { session := routeHeaders f.frame (decode c.dynamicTable f.payload).2 c.session
        dynamicTable := (decode c.dynamicTable f.payload).1
        serverTable
        delivered := c.delivered ++ [⟨k, (decode c.dynamicTable f.payload).2, fields⟩] }

def next (c : Connection) : Input → Connection
  | .event e => { c with session := step c.session e }
  | .headers f => receiveHeaders f c

-- ----
-- Servers

def carriesHeaders : Event → Bool
  | .frame f _ => f.type = .headers
  | _ => false

/-- A step a compliant server may cause: its HEADERS frames carry what its encoder writes. -/
def Compliant (c : Connection) : Input → Prop
  | .event e => carriesHeaders e = false
  | .headers f =>
    (Hpack.applyBlock headerTableSize c.serverTable f.block).isSome = true ∧
      (Hpack.blockBytes f.block).length < 0x80000000

instance (c : Connection) : (i : Input) → Decidable (Compliant c i)
  | .event e => inferInstanceAs (Decidable (carriesHeaders e = false))
  | .headers _ => inferInstanceAs (Decidable (_ ∧ _))

def Inserts : Hpack.Representation → Prop
  | .literal .incremental _ _ => True
  | _ => False

/-- A frame of a stream that is not in the table inserts nothing, and one of a stream that is there
is the block itself. -/
def Heard (c : Connection) : Input → Prop
  | .event _ => True
  | .headers f =>
    (target c.session f.streamID = none → ∀ rep ∈ f.block, ¬ Inserts rep) ∧
      (target c.session f.streamID ≠ none → f.Plain)

/-- Every stream was given what the server encoded. -/
def Faithful (c : Connection) : Prop := ∀ d ∈ c.delivered, d.result = .ok (d.encoded.map text)

instance (c : Connection) : Decidable (Faithful c) :=
  inferInstanceAs (Decidable (∀ d ∈ c.delivered, d.result = .ok (d.encoded.map text)))

-- ----
-- Runs

variable {t t' : Hpack.Table} {dynamicTable : Headers} {fields : List Hpack.Field}

theorem mirrors_quiet {rep : Hpack.Representation} (h : Mirrors t dynamicTable) (ht : Allowed t)
    (happly : rep.apply headerTableSize t = some (fields, t')) (hquiet : ¬ Inserts rep) :
    Mirrors t' dynamicTable ∧ Allowed t' := by
  rcases rep with index | ⟨indexing, name, value⟩ | maxSize
  · obtain ⟨f, -, heq⟩ := Option.map_eq_some_iff.mp happly
    obtain ⟨-, rfl⟩ := Prod.mk.injEq .. ▸ heq
    exact ⟨h, ht⟩
  · obtain ⟨octets, -, heq⟩ := Option.map_eq_some_iff.mp happly
    obtain ⟨-, rfl⟩ := Prod.mk.injEq .. ▸ heq
    have hindexing : indexing ≠ .incremental := by
      rintro rfl
      exact hquiet trivial
    rw [if_neg hindexing]
    exact ⟨h, ht⟩
  · rw [Hpack.Representation.apply] at happly
    split at happly
    · rename_i hmax
      obtain ⟨-, rfl⟩ := Prod.mk.injEq .. ▸ Option.some.inj happly
      exact ⟨mirrors_resize h maxSize, Hpack.Table.fits_resize _ t, hmax⟩
    · cases happly

/-- **A block that inserts nothing may be skipped.** -/
theorem mirrors_skip {block : List Hpack.Representation} (h : Mirrors t dynamicTable)
    (ht : Allowed t) (happly : Hpack.applyBlock headerTableSize t block = some (fields, t'))
    (hquiet : ∀ rep ∈ block, ¬ Inserts rep) : Mirrors t' dynamicTable ∧ Allowed t' := by
  induction block generalizing t fields with
  | nil =>
    obtain ⟨-, rfl⟩ := Prod.mk.injEq .. ▸ Option.some.inj happly
    exact ⟨h, ht⟩
  | cons rep block ih =>
    rw [Hpack.applyBlock] at happly
    rcases hrep : rep.apply headerTableSize t with _ | ⟨added, t₁⟩
    · rw [hrep] at happly
      cases happly
    · rw [hrep] at happly
      obtain ⟨later, hlater, heq⟩ := Option.map_eq_some_iff.mp happly
      obtain ⟨-, rfl⟩ := Prod.mk.injEq .. ▸ heq
      obtain ⟨h₁, ht₁⟩ := mirrors_quiet h ht hrep (hquiet rep mem_cons_self)
      exact ih h₁ ht₁ hlater fun r hr => hquiet r (mem_cons_of_mem _ hr)

/-- The invariant: the tables are in step, and so is all that was delivered. -/
structure InSync (c : Connection) : Prop where
  mirrors : Mirrors c.serverTable c.dynamicTable
  allowed : Allowed c.serverTable
  faithful : Faithful c

theorem inSync_next {c : Connection} {i : Input} (hi : Compliant c i ∧ Heard c i) (h : InSync c) :
    InSync (next c i) := by
  rcases i with e | f
  · exact ⟨h.mirrors, h.allowed, h.faithful⟩
  · obtain ⟨⟨-, hsize⟩, hskipped, hplain⟩ := hi
    show InSync (receiveHeaders f c)
    unfold receiveHeaders
    split
    · exact h
    · rename_i fields serverTable happly
      split
      · rename_i hnone
        obtain ⟨hmirrors, hallowed⟩ := mirrors_skip h.mirrors h.allowed happly (hskipped hnone)
        exact ⟨hmirrors, hallowed, h.faithful⟩
      · rename_i k hsome
        have hpayload :=
          HeadersFrame.payload_of_plain (hplain (by rw [hsome]; exact Option.some_ne_none k))
        obtain ⟨hresult, hmirrors, hallowed⟩ := decode_bytes h.mirrors h.allowed happly hsize
        rw [hpayload]
        refine ⟨hmirrors, hallowed, fun d hd => ?_⟩
        rcases mem_append.mp hd with hbefore | hnow
        · exact h.faithful d hbefore
        · rw [mem_singleton.mp hnow]
          exact hresult

/-- **In step.** In every run of a compliant server, as long as the blocks on streams out of the
table insert nothing and the others come without padding, priority and continuation, the headers
given to each stream are those the server encoded. -/
theorem headers_in_step {inputs : List Input}
    (h : RunAll next (fun c i => Compliant c i ∧ Heard c i) {} inputs) :
    Faithful (run next {} inputs) := by
  have hstart : InSync {} :=
    ⟨ nil_prefix, ⟨Nat.zero_le _, by decide⟩, fun d hd => absurd hd not_mem_nil⟩
  exact (run_invariant_of (I := InSync) (fun _ _ => inSync_next) h hstart).faithful

/-- Two tunnels are opened, and the application closes the first. -/
def oneClosed : List Input :=
  (opening ++ ([.acquireStream, .openTunnel 1, .write true, .close 0] : List Event)).map .event

/-- A response with a header field that the server adds to its table, and one that refers to it. -/
def insertingBlock : List Hpack.Representation :=
  [.indexed 8, .literal .incremental (.literal (.raw (Hpack.ascii "padding")))
    (.raw (Hpack.ascii "0"))]

def referringBlock : List Hpack.Representation := [.indexed 8, .indexed 62]

/-- The late response on the closed stream inserts nothing. -/
theorem headers_in_step_after_close :
    (run next {} (oneClosed ++ [.headers ⟨1, 4, none, none, 0, [.indexed 8]⟩,
        .headers ⟨3, 4, none, none, 0, insertingBlock⟩])).delivered.length = 1 ∧
      Faithful (run next {} (oneClosed ++ [.headers ⟨1, 4, none, none, 0, [.indexed 8]⟩,
        .headers ⟨3, 4, none, none, 0, insertingBlock⟩])) := by
  refine ⟨by decide, headers_in_step ?_⟩
  have hsilent : RunAll next (fun c i => Compliant c i ∧ Heard c i) {} oneClosed := by
    exact ⟨⟨rfl, trivial⟩, ⟨rfl, trivial⟩, ⟨rfl, trivial⟩, ⟨rfl, trivial⟩, ⟨rfl, trivial⟩,
      ⟨rfl, trivial⟩, ⟨rfl, trivial⟩, ⟨rfl, trivial⟩, ⟨rfl, trivial⟩, ⟨rfl, trivial⟩, trivial⟩
  have hgone : target (run next {} oneClosed).session 1 = none := by decide
  refine runAll_append.mpr ⟨hsilent, ⟨by decide, fun _ rep hrep => ?_, fun h => absurd hgone h⟩,
    ⟨by decide, fun hnone => ?_, fun _ => ⟨rfl, rfl, rfl⟩⟩, trivial⟩
  · rw [mem_singleton.mp hrep]
    exact id
  · exact absurd hnone (by decide)

/-- The late response on the closed stream is not decoded: the response on the other one is then
not understood, though the server had sent a 200. -/
theorem skipped_block_out_of_step :
    RunAll next Compliant {} (oneClosed ++ [.headers ⟨1, 4, none, none, 0, insertingBlock⟩,
        .headers ⟨3, 4, none, none, 0, referringBlock⟩]) ∧
      ¬ Faithful (run next {} (oneClosed ++ [.headers ⟨1, 4, none, none, 0, insertingBlock⟩,
        .headers ⟨3, 4, none, none, 0, referringBlock⟩])) :=
  ⟨by decide, by decide⟩

end Anywhere.Naive
