import Anywhere.Config

/-!
# Anywhere — the Vision flow of `VlessVision.kt`

The state of a Vision connection is kept in three parts, one for each group of
fields of `VisionTrafficState`: what the filter has found out about the tunnelled
traffic, the counters of the reader, and the flags of the writer. The random
numbers of a frame are an argument (`Outcome`), and where the random source throws
the functions return none.
-/

namespace Anywhere.Vless

inductive VisionCommand where
  | paddingContinue
  | paddingEnd
  | paddingDirect
  deriving DecidableEq, Repr

def VisionCommand.value : VisionCommand → UInt8
  | .paddingContinue => 0x00
  | .paddingEnd => 0x01
  | .paddingDirect => 0x02

-- ----
-- The state

/-- What the filter knows of the tunnelled traffic. -/
structure Filter where
  numberOfPacketsToFilter : Int := 8
  enableXtls : Bool := false
  isTLS12orAbove : Bool := false
  isTLS : Bool := false
  cipher : Nat := 0
  remainingServerHello : Int := -1
  deriving DecidableEq

/-- What is left of the frame the reader is in. -/
structure Counters where
  remainingCommand : Int := -1
  remainingContent : Int := -1
  remainingPadding : Int := -1
  currentCommand : Nat := 0
  deriving DecidableEq

structure VisionTrafficState where
  userUUID : Bytes
  testseed : List Int := [900, 500, 900, 256]
  filter : Filter := {}
  writerIsPadding : Bool := true
  writerDirectCopy : Bool := false
  readerWithinPaddingBuffers : Bool := true
  readerDirectCopy : Bool := false
  counters : Counters := {}
  writeOnceUserUUID : Option Bytes

/-- The constructor; a seed with fewer than four numbers is replaced. -/
def VisionTrafficState.new (userUUID : Bytes) (testseed : List Int := [900, 500, 900, 256]) :
    VisionTrafficState :=
  { userUUID := userUUID
    testseed := if testseed.length ≥ 4 then testseed else [900, 500, 900, 256]
    writeOnceUserUUID := some userUUID }

-- ----
-- The filter

def tls13CipherSuites : List Nat := [0x1301, 0x1302, 0x1303, 0x1304]

def tls13SupportedVersions : Bytes := [0x00, 0x2b, 0x00, 0x02, 0x03, 0x04]

/-- `containsSubarray(data, 0, toIndex, sub)`. -/
def containsSubarray (data : Bytes) (toIndex : Nat) (sub : Bytes) : Bool :=
  if sub = [] then true
  else
    let limit := min toIndex data.length
    (List.range (limit + 1 - sub.length)).any fun i => sub.isPrefixOf (data.drop i)

def startsServerHello (data : Bytes) : Bool :=
  data.getD 0 0 == 0x16 && data.getD 1 0 == 0x03 && data.getD 2 0 == 0x03 && data.getD 5 0 == 0x02

def startsClientHello (data : Bytes) : Bool :=
  data.getD 0 0 == 0x16 && data.getD 1 0 == 0x03 && data.getD 5 0 == 0x01

/-- The fields a hello at the start of the packet sets. -/
def Filter.hello (f : Filter) (data : Bytes) : Filter :=
  if startsServerHello data then
    let f := { f with
      remainingServerHello := ((data.getD 3 0).toNat * 256 + (data.getD 4 0).toNat + 5 : Nat)
      isTLS12orAbove := true
      isTLS := true }
    if data.length ≥ 79 ∧ f.remainingServerHello ≥ 79 then
      let cipherOffset := 43 + (data.getD 43 0).toNat + 1
      if data.length > cipherOffset + 2 then
        { f with
          cipher := (data.getD cipherOffset 0).toNat * 256 +
          (data.getD (cipherOffset + 1) 0).toNat }
      else f
    else f
  else if startsClientHello data then { f with isTLS := true }
  else f

/-- The part of a ServerHello that is in the packet. -/
def Filter.body (f : Filter) (data : Bytes) : Filter :=
  if f.remainingServerHello > 0 then
    let limit := min f.remainingServerHello.toNat data.length
    let f := { f with remainingServerHello := f.remainingServerHello - data.length }
    if containsSubarray data limit tls13SupportedVersions then
      { f with
        enableXtls := if f.cipher ∈ tls13CipherSuites then true else f.enableXtls
        numberOfPacketsToFilter := 0 }
    else if f.remainingServerHello ≤ 0 then { f with numberOfPacketsToFilter := 0 }
    else f
  else f

def visionFilterTLS (data : Bytes) (f : Filter) : Filter :=
  if f.numberOfPacketsToFilter ≤ 0 then f
  else
    let f := { f with numberOfPacketsToFilter := f.numberOfPacketsToFilter - 1 }
    if data.length < 6 then f else (f.hello data).body data

def visionDetectClientHello (data : Bytes) (f : Filter) : Filter :=
  if data.length < 6 then f
  else if startsClientHello data then { f with isTLS := true }
  else f

-- ----
-- Unpadding

namespace Counters

/-- No frame was begun, or the last one has ended. -/
def Idle (c : Counters) : Prop :=
  c.remainingCommand = -1 ∧ c.remainingContent = -1 ∧ c.remainingPadding = -1

instance (c : Counters) : Decidable c.Idle :=
  inferInstanceAs (Decidable (_ ∧ _ ∧ _))

/-- Nothing is left of the frame. -/
def Spent (c : Counters) : Prop :=
  c.remainingCommand ≤ 0 ∧ c.remainingContent ≤ 0 ∧ c.remainingPadding ≤ 0

instance (c : Counters) : Decidable c.Spent :=
  inferInstanceAs (Decidable (_ ∧ _ ∧ _))

def header (c : Counters) (byte : UInt8) : Counters :=
  let c' :=
    if c.remainingCommand = 5 then { c with currentCommand := byte.toNat }
    else if c.remainingCommand = 4 then { c with remainingContent := (byte.toNat * 256 : Nat) }
    else if c.remainingCommand = 3 then
      { c with remainingContent := c.remainingContent + byte.toNat }
    else if c.remainingCommand = 2 then { c with remainingPadding := (byte.toNat * 256 : Nat) }
    else if c.remainingCommand = 1 then
      { c with remainingPadding := c.remainingPadding + byte.toNat }
    else c
  { c' with remainingCommand := c.remainingCommand - 1 }

/-- The reader is outside any frame. -/
def idle (c : Counters) : Counters :=
  { c with remainingCommand := -1, remainingContent := -1, remainingPadding := -1 }

end Counters

/-- What one turn of the loop of `visionUnpadding` takes: the counters, the content,
and the data left. -/
def unpadTurn (c : Counters) (b : UInt8) (bs : Bytes) : Counters × Bytes × Bytes :=
  if c.remainingCommand > 0 then (c.header b, [], bs)
  else if c.remainingContent > 0 then
    let toRead := min c.remainingContent.toNat (b :: bs).length
    ({ c with remainingContent := c.remainingContent - toRead }, (b :: bs).take toRead,
      (b :: bs).drop toRead)
  else if c.remainingPadding > 0 then
    let toSkip := min c.remainingPadding.toNat (b :: bs).length
    ({ c with remainingPadding := c.remainingPadding - toSkip }, [], (b :: bs).drop toSkip)
  else (c, [], b :: bs)

/-- The loop of `visionUnpadding`. A turn that takes nothing is followed by one that
does, so twice the length is fuel enough. -/
def unpadLoop : Nat → Counters → Bytes → Counters × Bytes
  | 0, c, _ => (c, [])
  | _ + 1, c, [] => (c, [])
  | fuel + 1, c, b :: bs =>
    let turn := unpadTurn c b bs
    if turn.1.Spent then
      if turn.1.currentCommand = 0 then
        let rest := unpadLoop fuel { turn.1 with remainingCommand := 5 } turn.2.2
        (rest.1, turn.2.1 ++ rest.2)
      else (turn.1.idle, turn.2.1 ++ turn.2.2)
    else
      let rest := unpadLoop fuel turn.1 turn.2.2
      (rest.1, turn.2.1 ++ rest.2)

def visionUnpadding (userUUID : Bytes) (data : Bytes) (c : Counters) : Counters × Bytes :=
  if c.Idle then
    if data.length ≥ 21 ∧ userUUID.isPrefixOf data then
      unpadLoop (2 * (data.drop 16).length) { c with remainingCommand := 5 } (data.drop 16)
    else (c, data)
  else unpadLoop (2 * data.length) c data

/-- `VlessVisionConnection.processReceiveData`. -/
def processReceiveData (s : VisionTrafficState) (data : Bytes) : VisionTrafficState × Bytes :=
  let s :=
    if s.filter.numberOfPacketsToFilter > 0 then { s with filter := visionFilterTLS data s.filter }
    else s
  if s.readerDirectCopy then (s, data)
  else if s.readerWithinPaddingBuffers ∨ s.filter.numberOfPacketsToFilter > 0 then
    let unpadded := visionUnpadding s.userUUID data s.counters
    let c := unpadded.1
    let s := { s with counters := c }
    if c.remainingContent > 0 ∨ c.remainingPadding > 0 ∨ c.currentCommand = 0 then
      ({ s with readerWithinPaddingBuffers := true }, unpadded.2)
    else if c.currentCommand = 1 then
      ({ s with readerWithinPaddingBuffers := false }, unpadded.2)
    else if c.currentCommand = 2 then
      ({ s with readerWithinPaddingBuffers := false, readerDirectCopy := true }, unpadded.2)
    else (s, unpadded.2)
  else (s, data)

-- ----
-- Padding

/-- The random numbers of one frame. -/
structure Outcome where
  /-- The number drawn, before it is brought into the range. -/
  drawn : Nat
  /-- The padding bytes. -/
  byte : Nat → UInt8

/-- `secureRandom.nextInt(bound)`; it throws for a bound that is not positive. -/
def nextInt (outcome : Outcome) (bound : Int) : Option Int :=
  if bound ≤ 0 then none else some (outcome.drawn % bound)

/-- The length of the padding of a frame; sums are 32-bit numbers. -/
def paddingLength (seed : List Int) (contentLen : Nat) (longPadding : Bool) (outcome : Outcome) :
    Option Nat :=
  let drawn :=
    if (contentLen : Int) < seed.getD 0 0 ∧ longPadding then
      (nextInt outcome (seed.getD 1 0)).map fun n =>
        (n + seed.getD 2 0 - contentLen).bmod (2 ^ 32)
    else nextInt outcome (seed.getD 3 0)
  let maxPadding : Int := 8192 - 21 - contentLen
  drawn.map fun n => (max (min n maxPadding) 0).toNat

def frameBytes (command : UInt8) (content padding : Bytes) : Bytes :=
  [command, UInt8.ofNat (content.length / 256), UInt8.ofNat content.length,
    UInt8.ofNat (padding.length / 256), UInt8.ofNat padding.length] ++ content ++ padding

/-- `visionPadding`; `data` is empty where the source has null. -/
def visionPadding (data : Bytes) (command : VisionCommand) (s : VisionTrafficState)
    (longPadding : Bool) (outcome : Outcome) : Option (VisionTrafficState × Bytes) :=
  (paddingLength s.testseed data.length longPadding outcome).map fun paddingLen =>
    ({ s with writeOnceUserUUID := none },
      s.writeOnceUserUUID.getD [] ++
        frameBytes command.value data ((List.range paddingLen).map outcome.byte))

def reshapeThreshold : Nat := 8192 - 21

/-- Where `reshapeData` splits: at the last application-data record that starts in
the range, else in the middle. -/
def splitIndex (data : Bytes) : Nat :=
  ((List.range (data.length - 2)).reverse.find? fun i =>
    data.getD i 0 == 0x17 && data.getD (i + 1) 0 == 0x03 && data.getD (i + 2) 0 == 0x03 &&
      21 ≤ i && i ≤ reshapeThreshold).getD (data.length / 2)

theorem splitIndex_bounds {data : Bytes} (h : ¬ data.length < reshapeThreshold) :
    0 < splitIndex data ∧ splitIndex data < data.length := by
  have hsize : reshapeThreshold = 8171 := rfl
  unfold splitIndex
  cases hfind : (List.range (data.length - 2)).reverse.find? _ with
  | none =>
    rw [Option.getD_none]
    omega
  | some i =>
    have hmem := List.mem_of_find?_eq_some hfind
    have hcond := List.find?_some hfind
    rw [List.mem_reverse, List.mem_range] at hmem
    simp only [Bool.and_eq_true, decide_eq_true_eq] at hcond
    rw [Option.getD_some]
    omega

def reshapeData (data : Bytes) : List Bytes :=
  if _h : data.length < reshapeThreshold then [data]
  else
    reshapeData (data.take (splitIndex data)) ++ reshapeData (data.drop (splitIndex data))
termination_by data.length
decreasing_by
  · have := splitIndex_bounds _h
    rw [List.length_take]
    omega
  · have := splitIndex_bounds _h
    rw [List.length_drop]
    omega

/-- The loop of `isCompleteTlsRecord`, over the records behind an offset. -/
def completeRecords : Nat → Bytes → Bool
  | _, [] => true
  | 0, _ => false
  | fuel + 1, t :: v :: w :: hi :: lo :: rest =>
    if t ≠ 0x17 ∨ v ≠ 0x03 ∨ w ≠ 0x03 then false
    else
      let recordLen := hi.toNat * 256 + lo.toNat
      if rest.length < recordLen then false else completeRecords fuel (rest.drop recordLen)
  | _ + 1, _ => false

def isCompleteTlsRecord (data : Bytes) : Bool :=
  if data.length < 5 then false else completeRecords data.length data

-- ----
-- Sending

/-- The loops of `processSendData` over the chunks: every frame with one command and
one choice of padding, the last one with another. -/
def padChunks (rest last : VisionCommand) (restLong lastLong : Bool) :
    List Bytes → VisionTrafficState → (Nat → Outcome) → Option (VisionTrafficState × Bytes)
  | [], s, _ => some (s, [])
  | [chunk], s, outcomes => visionPadding chunk last s lastLong (outcomes 0)
  | chunk :: next :: chunks, s, outcomes =>
    (visionPadding chunk rest s restLong (outcomes 0)).bind fun padded =>
      (padChunks rest last restLong lastLong (next :: chunks) padded.1 (outcomes <| · + 1)).map
        fun others => (others.1, padded.2 ++ others.2)

/-- `VlessVisionConnection.processSendData`. -/
def processSendData (s : VisionTrafficState) (data : Bytes) (outcomes : Nat → Outcome) :
    Option (VisionTrafficState × Bytes) :=
  let s :=
    if s.filter.isTLS then s else { s with filter := visionDetectClientHello data s.filter }
  if s.writerDirectCopy then some (s, data)
  else if !s.writerIsPadding then some (s, data)
  else
    let longPadding := s.filter.isTLS
    let chunks := reshapeData data
    if s.filter.isTLS ∧ data.length ≥ 6 ∧ data.getD 0 0 = 0x17 ∧ data.getD 1 0 = 0x03 ∧
        data.getD 2 0 = 0x03 ∧ isCompleteTlsRecord data then
      let command : VisionCommand := if s.filter.enableXtls then .paddingDirect else .paddingEnd
      (padChunks .paddingContinue command true false chunks s outcomes).map fun padded =>
        ({ padded.1 with
            writerDirectCopy := if s.filter.enableXtls then true else s.writerDirectCopy
            writerIsPadding := false }, padded.2)
    else if !s.filter.isTLS12orAbove ∧ s.filter.numberOfPacketsToFilter ≤ 1 then
      padChunks .paddingContinue .paddingEnd longPadding longPadding chunks
        { s with writerIsPadding := false } outcomes
    else padChunks .paddingContinue .paddingContinue longPadding longPadding chunks s outcomes

/-- Where the bytes of a write go. -/
inductive Path where
  | inner
  | direct

/-- `VlessVisionConnection.sendRaw`: the path is chosen before the data is
processed. -/
def sendRaw (s : VisionTrafficState) (data : Bytes) (outcomes : Nat → Outcome) :
    Option (VisionTrafficState × Path × Bytes) :=
  (processSendData s data outcomes).map fun sent =>
    (sent.1, if s.writerDirectCopy then .direct else .inner, sent.2)

/-- `VlessVisionConnection.sendEmptyPadding`. -/
def sendEmptyPadding (s : VisionTrafficState) (outcome : Outcome) :
    Option (VisionTrafficState × Bytes) :=
  visionPadding [] .paddingContinue s true outcome

end Anywhere.Vless
