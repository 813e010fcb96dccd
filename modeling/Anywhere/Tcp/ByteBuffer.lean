import Anywhere.Config

/-!
# Anywhere — the growable byte buffer of `LwipTcpConnection.kt`

`ByteArrayOutputStream` is a backing array and a count. Bytes behind the count
are stale: `reset` and `consume` leave them in the array, and a later `write`
overwrites them. The readers hand out `backingArray()` with an explicit count,
so what the buffer *holds* is the first `count` bytes (`toByteArray`), and the
lemmas of this module say what each operation does to that.

Kotlin's `Int` sizes are natural numbers here: the buffers are capped at
`tcpMaxPendingDataSize`, or receive one upstream chunk past `drainLowWaterMark`,
far below `2^31`.
-/

namespace Anywhere.Tcp

open List

/-- `ByteArrayOutputStream`: the backing array, and how much of it is in use. -/
structure ByteArrayOutputStream where
  buf : Bytes
  count : Nat
  count_le : count ≤ buf.length

namespace ByteArrayOutputStream

def shrinkThreshold : Nat := 8192

/-- A fresh buffer: `ByteArray(256)`, count 0. -/
def empty : ByteArrayOutputStream :=
  ⟨List.replicate 256 0, 0, Nat.zero_le _⟩

def size (b : ByteArrayOutputStream) : Nat := b.count

def toByteArray (b : ByteArrayOutputStream) : Bytes := b.buf.take b.count

/-- Direct access to the backing array, valid up to `size` bytes. -/
def backingArray (b : ByteArrayOutputStream) : Bytes := b.buf

/-- The backing array after `ensureCapacity(minCapacity)`; `copyOf` pads with
zeros. -/
def ensureCapacity (b : ByteArrayOutputStream) (minCapacity : Nat) : Bytes :=
  if minCapacity > b.buf.length then
    let newSize := max (b.buf.length * 2) minCapacity
    b.buf ++ List.replicate (newSize - b.buf.length) 0
  else b.buf

theorem length_ensureCapacity (b : ByteArrayOutputStream) (n : Nat) :
    n ≤ (b.ensureCapacity n).length ∧ b.buf.length ≤ (b.ensureCapacity n).length := by
  unfold ensureCapacity
  split
  · simp only [length_append, length_replicate]
    omega
  · omega

theorem take_ensureCapacity (b : ByteArrayOutputStream) (n : Nat) :
    (b.ensureCapacity n).take b.count = b.toByteArray := by
  unfold ensureCapacity toByteArray
  split
  · rw [take_append_of_le_length b.count_le]
  · rfl

/-- `write(data)`: grow, then `System.arraycopy(data, 0, buf, count, data.size)`. -/
def write (b : ByteArrayOutputStream) (data : Bytes) : ByteArrayOutputStream where
  buf := (b.ensureCapacity (b.count + data.length)).take b.count ++ data ++
    (b.ensureCapacity (b.count + data.length)).drop (b.count + data.length)
  count := b.count + data.length
  count_le := by
    have h := (b.length_ensureCapacity (b.count + data.length)).1
    simp only [length_append, length_take, length_drop]
    omega

/-- `reset()`: count 0; a backing array that grew past the threshold is
replaced by a small one. -/
def reset (b : ByteArrayOutputStream) : ByteArrayOutputStream :=
  if b.buf.length > shrinkThreshold then empty else ⟨b.buf, 0, Nat.zero_le _⟩

/-- `consume(n)`: drops the first `n` bytes, shifting the rest to the front
(`System.arraycopy(buf, n, buf, 0, count - n)`). -/
def consume (b : ByteArrayOutputStream) (n : Nat) : ByteArrayOutputStream :=
  if h : n ≥ b.count then ⟨b.buf, 0, Nat.zero_le _⟩
  else
    { buf := (b.buf.drop n).take (b.count - n) ++ b.buf.drop (b.count - n)
      count := b.count - n
      count_le := by
        have := b.count_le
        simp only [length_append, length_take, length_drop]
        omega }

/-! ## What the operations do to the bytes held -/

@[simp] theorem size_eq (b : ByteArrayOutputStream) : b.size = b.toByteArray.length := by
  simp [size, toByteArray, b.count_le]

/-- The valid part of the backing array is what the buffer holds. -/
theorem take_backingArray (b : ByteArrayOutputStream) :
    b.backingArray.take b.toByteArray.length = b.toByteArray := by
  rw [← size_eq]
  rfl

@[simp] theorem toByteArray_empty : empty.toByteArray = [] := rfl

@[simp] theorem toByteArray_write (b : ByteArrayOutputStream) (data : Bytes) :
    (b.write data).toByteArray = b.toByteArray ++ data := by
  have hlen : ((b.ensureCapacity (b.count + data.length)).take b.count ++ data).length =
      b.count + data.length := by
    have h := (b.length_ensureCapacity (b.count + data.length)).1
    simp only [length_append, length_take]
    omega
  show List.take (b.count + data.length) (_ ++ _) = _
  rw [take_append_of_le_length (by omega), take_of_length_le (by omega),
    take_ensureCapacity]

@[simp] theorem toByteArray_reset (b : ByteArrayOutputStream) : b.reset.toByteArray = [] := by
  unfold reset
  split
  · rfl
  · simp [toByteArray]

@[simp] theorem toByteArray_consume (b : ByteArrayOutputStream) (n : Nat) :
    (b.consume n).toByteArray = b.toByteArray.drop n := by
  unfold consume
  split
  · rename_i h
    have hdrop : b.toByteArray.drop n = [] := by
      rw [drop_eq_nil_iff, ← size_eq]
      exact h
    rw [hdrop]
    simp [toByteArray]
  · rename_i h
    have hcl := b.count_le
    have hlen : ((b.buf.drop n).take (b.count - n)).length = b.count - n := by
      simp only [length_take, length_drop]
      omega
    show List.take (b.count - n) (_ ++ _) = _
    rw [take_append_of_le_length (by omega), take_of_length_le (by omega),
      toByteArray, drop_take]

end ByteArrayOutputStream

end Anywhere.Tcp
