import Mathlib.Data.List.Forall2
import Mathlib.Tactic.Linarith

/-!
# Formats

A format is the set of the byte strings it admits. Formats are put together from
fixed strings, sequences, repetitions and vectors, whose length field counts the bytes
of what follows it; a vector admits only contents whose length fits into the field.
-/

namespace Anywhere.Lib

open List

abbrev Format := List UInt8 → Prop

/-- A number in this many bytes, most significant first. -/
def lengthField : Nat → Nat → List UInt8
  | 0, _ => []
  | width + 1, n => lengthField width (n / 256) ++ [UInt8.ofNat n]

@[simp] theorem length_lengthField (width n : Nat) : (lengthField width n).length = width := by
  induction width generalizing n with
  | zero => rfl
  | succ width ih => rw [lengthField, length_append, ih, length_singleton]

namespace Format

def Is (bytes : List UInt8) : Format := fun wire => wire = bytes

def Exactly (n : Nat) : Format := fun wire => wire.length = n

def Any : Format := fun _ => True

def Seq (p q : Format) : Format := fun wire => ∃ a b, wire = a ++ b ∧ p a ∧ q b

/-- A length field of this many bytes, and as many bytes as it counts, of this format. -/
def Vec (width : Nat) (p : Format) : Format := fun wire =>
  ∃ body, body.length < 256 ^ width ∧ wire = lengthField width body.length ++ body ∧ p body

def Each {α : Type*} (l : List α) (p : α → Format) : Format := fun wire =>
  ∃ parts, wire = parts.flatten ∧ List.Forall₂ p l parts

def Many (p : Format) : Format := fun wire =>
  ∃ parts : List (List UInt8), wire = parts.flatten ∧ ∀ part ∈ parts, p part

variable {p q : Format} {a b : List UInt8} {width : Nat} {α β : Type*}

/-- A sequence, from its parts. -/
theorem seq_intro (ha : p a) (hb : q b) : Seq p q (a ++ b) := ⟨a, b, rfl, ha, hb⟩

/-- A vector, from its contents. -/
theorem vec_intro (hfits : a.length < 256 ^ width) (ha : p a) :
    Vec width p (lengthField width a.length ++ a) :=
  ⟨a, hfits, rfl, ha⟩

theorem each_nil {f : α → Format} : Each [] f [] := ⟨[], rfl, .nil⟩

theorem each_cons {f : α → Format} {x : α} {l : List α} (ha : f x a) (hb : Each l f b) :
    Each (x :: l) f (a ++ b) := by
  obtain ⟨parts, rfl, hparts⟩ := hb
  exact ⟨a :: parts, rfl, .cons ha hparts⟩

/-- A repetition, from its items. -/
theorem each_map {f : α → Format} {g : α → List UInt8} {l : List α} (h : ∀ x ∈ l, f x (g x)) :
    Each l f (l.flatMap g) := by
  induction l with
  | nil => exact each_nil
  | cons x l ih => exact each_cons (h x (by simp)) (ih fun y hy => h y (by simp [hy]))

theorem many_flatMap {g : α → List UInt8} {l : List α} (h : ∀ x ∈ l, p (g x)) :
    Many p (l.flatMap g) := by
  refine ⟨l.map g, flatMap_def, fun part hpart => ?_⟩
  obtain ⟨x, hx, rfl⟩ := mem_map.mp hpart
  exact h x hx

/-- Sequences associate. -/
theorem seq_assoc {r : Format} {wire : List UInt8} :
    Seq (Seq p q) r wire ↔ Seq p (Seq q r) wire := by
  constructor
  · rintro ⟨_, c, rfl, ⟨a, b, rfl, ha, hb⟩, hc⟩
    exact ⟨a, b ++ c, append_assoc a b c, ha, seq_intro hb hc⟩
  · rintro ⟨a, _, rfl, ha, ⟨b, c, rfl, hb, hc⟩⟩
    exact ⟨a ++ b, c, (append_assoc a b c).symm, seq_intro ha hb, hc⟩

/-- A string of which the first byte is known. -/
theorem seq_is_cons {x y : UInt8} {wire : List UInt8} :
    Seq (Is [x]) q (y :: wire) ↔ y = x ∧ q wire := by
  constructor
  · rintro ⟨_, rest, heq, rfl, hrest⟩
    obtain ⟨rfl, rfl⟩ := List.cons.inj heq
    exact ⟨rfl, hrest⟩
  · rintro ⟨rfl, hrest⟩
    exact ⟨[y], wire, rfl, rfl, hrest⟩

/-- Repetitions either end here or begin with one more. -/
theorem seq_many_iff {wire : List UInt8} :
    Seq (Many p) q wire ↔ q wire ∨ Seq p (Seq (Many p) q) wire := by
  constructor
  · rintro ⟨_, rest, rfl, ⟨parts, rfl, hparts⟩, hrest⟩
    cases parts with
    | nil => exact .inl hrest
    | cons part parts =>
      obtain ⟨hpart, hparts⟩ := forall_mem_cons.mp hparts
      refine .inr ⟨part, parts.flatten ++ rest, ?_, hpart, seq_intro ⟨parts, rfl, hparts⟩ hrest⟩
      rw [flatten_cons, append_assoc]
  · rintro (hrest | ⟨part, _, rfl, hpart, ⟨_, rest, rfl, ⟨parts, rfl, hparts⟩, hrest⟩⟩)
    · exact ⟨[], wire, rfl, ⟨[], rfl, forall_mem_nil _⟩, hrest⟩
    · refine ⟨part ++ parts.flatten, rest, (append_assoc _ _ _).symm,
        ⟨part :: parts, flatten_cons.symm, ?_⟩, hrest⟩
      exact forall_mem_cons.mpr ⟨hpart, hparts⟩

theorem many_one (ha : p a) : Many p a := ⟨[a], by simp, by simpa using ha⟩

end Format

end Anywhere.Lib
