import Mathlib.Data.List.Basic

/-!
# Computations that write and may throw

What a computation has written is kept when it throws, and what a later step writes
comes behind it. `Meets P past m Q` says that `m`, run after `past` was written, makes
only writes that `P` allows given everything written before them, and that what it
returns meets `Q`. The rules follow the ways computations are put together: returning,
throwing, writing, one after another (`Meets.bind`), a loop over a list
(`Meets.foldlM`), and attempts that are repeated when they throw (`Meets.attempts`).
-/

namespace Anywhere.Lib

open List

/-- What a computation has written when it ends, and how it ends. -/
structure Effects (ω ε α : Type) where
  written : List ω
  result : Except ε α

variable {ω ε α β : Type}

namespace Effects

def throw (e : ε) : Effects ω ε α := ⟨[], .error e⟩

def write (w : ω) : Effects ω ε Unit := ⟨[w], .ok ()⟩

/-- A step that writes nothing and throws when it is told to. -/
def check : Option ε → Effects ω ε Unit
  | none => ⟨[], .ok ()⟩
  | some e => throw e

instance : Monad (Effects ω ε) where
  pure a := ⟨[], .ok a⟩
  bind m f :=
    match m.result with
    | .ok a => ⟨m.written ++ (f a).written, (f a).result⟩
    | .error e => ⟨m.written, .error e⟩

/-- Attempts are made in order until one returns. One that throws a fatal error is the
last one; when all have thrown, so does the loop, with the last error. -/
def attempts (fatal : ε → Bool) (body : Nat → Effects ω ε α) : List Nat → ε → Effects ω ε α
  | [], lastError => throw lastError
  | attempt :: later, _ =>
    match (body attempt).result with
    | .ok a => ⟨(body attempt).written, .ok a⟩
    | .error e =>
      if fatal e then ⟨(body attempt).written, .error e⟩
      else
        ⟨(body attempt).written ++ (attempts fatal body later e).written,
          (attempts fatal body later e).result⟩

end Effects

/-- Every write is allowed, given what was written before it. -/
def Allowed (P : List ω → ω → Prop) : List ω → List ω → Prop
  | _, [] => True
  | past, w :: ws => P past w ∧ Allowed P (past ++ [w]) ws

theorem allowed_append {P : List ω → ω → Prop} {past ws ws' : List ω} :
    Allowed P past (ws ++ ws') ↔ Allowed P past ws ∧ Allowed P (past ++ ws) ws' := by
  induction ws generalizing past with
  | nil => simp [Allowed]
  | cons w ws ih =>
    rw [cons_append, Allowed, Allowed, ih, and_assoc, append_assoc, singleton_append]

/-- The writes of `m` are allowed after `past`, and what it returns meets `Q`. -/
structure Meets (P : List ω → ω → Prop) (past : List ω) (m : Effects ω ε α)
    (Q : List ω → α → Prop) : Prop where
  allowed : Allowed P past m.written
  returned : ∀ a, m.result = .ok a → Q (past ++ m.written) a

variable {Q : List ω → α → Prop}

namespace Meets

variable {P : List ω → ω → Prop} {past : List ω}

theorem pure {a : α} (h : Q past a) :
    Meets P past (Pure.pure a : Effects ω ε α) Q where
  allowed := trivial
  returned := by
    intro b hb
    cases hb
    exact (append_nil past).symm ▸ h

theorem throw (e : ε) : Meets P past (Effects.throw e) Q where
  allowed := trivial
  returned := by
    intro a ha
    cases ha

theorem write {Q : List ω → Unit → Prop} {w : ω} (hw : P past w) (h : Q (past ++ [w]) ()) :
    Meets P past (Effects.write w : Effects ω ε Unit) Q where
  allowed := ⟨hw, trivial⟩
  returned := fun _ _ => h

theorem bind {R : List ω → β → Prop} {m : Effects ω ε α}
    {f : α → Effects ω ε β} (hm : Meets P past m Q)
    (hf : ∀ now a, Q now a → Meets P now (f a) R) : Meets P past (m >>= f) R := by
  show Meets P past (match m.result with
    | .ok a => ⟨m.written ++ (f a).written, (f a).result⟩
    | .error e => ⟨m.written, .error e⟩) R
  cases hresult : m.result with
  | error e => exact ⟨hm.allowed, fun _ ha => by cases ha⟩
  | ok a =>
    have hnext := hf _ a (hm.returned a hresult)
    refine ⟨allowed_append.2 ⟨hm.allowed, hnext.allowed⟩, ?_⟩
    intro b hb
    rw [← append_assoc]
    exact hnext.returned b hb

theorem check {R : List ω → β → Prop} {f : Unit → Effects ω ε β} {e : Option ε}
    (hf : Meets P past (f ()) R) : Meets P past (Effects.check e >>= f) R := by
  cases e with
  | none => exact hf
  | some e => exact Meets.throw e

theorem mono {R : List ω → α → Prop} {m : Effects ω ε α} (hm : Meets P past m Q)
    (h : ∀ now a, past <+: now → Q now a → R now a) : Meets P past m R :=
  ⟨hm.allowed, fun a ha => h _ a (prefix_append past m.written) (hm.returned a ha)⟩

theorem foldlM {f : α → β → Effects ω ε α} {bs : List β}
    (hf : ∀ now a, ∀ b ∈ bs, Q now a → Meets P now (f a b) Q) {a : α} (h : Q past a) :
    Meets P past (bs.foldlM f a) Q := by
  induction bs generalizing a past with
  | nil => exact Meets.pure h
  | cons b bs ih =>
    rw [foldlM_cons]
    exact (hf past a b mem_cons_self h).bind fun now a' h' =>
      ih (fun now a b hb => hf now a b (mem_cons_of_mem _ hb)) h'

/-- **Attempts.** What an attempt that threw has written stays written. -/
theorem attempts {fatal : ε → Bool} {body : Nat → Effects ω ε α}
    (hbody : ∀ now i, Meets P now (body i) Q) (order : List Nat) (lastError : ε) :
    Meets P past (Effects.attempts fatal body order lastError) Q := by
  induction order generalizing past lastError with
  | nil => exact Meets.throw lastError
  | cons attempt later ih =>
    have hnow := hbody past attempt
    rw [Effects.attempts]
    cases hresult : (body attempt).result with
    | ok a => exact ⟨hnow.allowed, fun b hb => hnow.returned b (hresult.trans hb)⟩
    | error e =>
      by_cases hfatal : fatal e = true
      · simp only [hfatal, if_true]
        exact ⟨hnow.allowed, fun b hb => by cases hb⟩
      · simp only [hfatal, Bool.false_eq_true, if_false]
        have hlater := @ih (past ++ (body attempt).written) e
        refine ⟨allowed_append.2 ⟨hnow.allowed, hlater.allowed⟩, ?_⟩
        intro b hb
        rw [← append_assoc]
        exact hlater.returned b hb

end Meets

end Anywhere.Lib
