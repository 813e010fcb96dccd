import Mathlib.Data.List.Basic

/-!
# Reads of an array

A read outside an array, or a copy, is an error of its own, so that a function that makes none
can be told from one that does.
-/

namespace Anywhere.Lib

/-- `ArrayIndexOutOfBoundsException`. -/
inductive OutOfBounds
  | outOfBounds
  deriving DecidableEq

def readByte (data : List UInt8) (i : Nat) : Except OutOfBounds UInt8 :=
  match data[i]? with
  | some b => .ok b
  | none => .error .outOfBounds

/-- A copy of `n` bytes. -/
def readBytes (data : List UInt8) (i n : Nat) : Except OutOfBounds (List UInt8) :=
  if i + n ≤ data.length then .ok ((data.drop i).take n) else .error .outOfBounds

/-- Two bytes, most significant first. -/
def readWord (data : List UInt8) (i : Nat) : Except OutOfBounds Nat := do
  let hi ← readByte data i
  let lo ← readByte data (i + 1)
  .ok (hi.toNat * 256 + lo.toNat)

/-- `System.arraycopy`: the other array with this part of `src` in it. -/
def arraycopy (src : List UInt8) (srcPos : Nat) (dst : List UInt8) (dstPos length : Nat) :
    Except OutOfBounds (List UInt8) :=
  if srcPos + length ≤ src.length ∧ dstPos + length ≤ dst.length then
    .ok (dst.take dstPos ++ (src.drop srcPos).take length ++ dst.drop (dstPos + length))
  else .error .outOfBounds

variable {data : List UInt8} {i n : Nat}

/-- What comes behind a read that succeeds. -/
@[simp] theorem bind_ok {ε α β : Type} (a : α) (f : α → Except ε β) :
    (Except.ok a >>= f) = f a := rfl

/-- What comes behind a result. -/
theorem bind_eq_ok {ε α β : Type} {x : Except ε α} {f : α → Except ε β} {b : β} :
    (x >>= f) = .ok b ↔ ∃ a, x = .ok a ∧ f a = .ok b := by
  cases x with
  | error e => exact ⟨nofun, nofun⟩
  | ok a => exact ⟨fun h => ⟨a, rfl, h⟩, fun ⟨_, h, hf⟩ => by cases h; exact hf⟩

/-- A read inside the array. -/
theorem readByte_eq (h : i < data.length) : readByte data i = .ok data[i] := by
  rw [readByte, List.getElem?_eq_getElem h]

/-- A read of several bytes inside the array. -/
theorem readBytes_eq (h : i + n ≤ data.length) :
    readBytes data i n = .ok ((data.drop i).take n) := if_pos h

/-- A copy that fits. -/
theorem arraycopy_all {src dst : List UInt8} {dstPos : Nat} (h : dstPos + src.length ≤ dst.length) :
    arraycopy src 0 dst dstPos src.length =
      .ok (dst.take dstPos ++ src ++ dst.drop (dstPos + src.length)) := by
  rw [arraycopy, if_pos ⟨by omega, h⟩, List.drop_zero, List.take_length]

/-- Two bytes that stand behind some others. -/
theorem readWord_append (front behind : List UInt8) (hi lo : UInt8) :
    readWord (front ++ hi :: lo :: behind) front.length = .ok (hi.toNat * 256 + lo.toNat) := by
  have hhi : (front ++ hi :: lo :: behind)[front.length]? = some hi := by
    rw [List.getElem?_append_right (Nat.le_refl _), Nat.sub_self, List.getElem?_cons_zero]
  have hlo : (front ++ hi :: lo :: behind)[front.length + 1]? = some lo := by
    rw [List.getElem?_append_right (Nat.le_succ _), Nat.succ_sub (Nat.le_refl _), Nat.sub_self,
      List.getElem?_cons_succ, List.getElem?_cons_zero]
  rw [readWord, readByte, readByte, hhi, hlo]
  rfl

theorem readWord_eq (h : i + 1 < data.length) :
    readWord data i = .ok (data[i].toNat * 256 + data[i + 1].toNat) := by
  rw [readWord, readByte_eq (by omega), readByte_eq h]
  rfl

end Anywhere.Lib
