import WindowSurvey.Proofs.Decimal.Root
/-!
# Machine arithmetic that stops

A machine has words of 32 and of 64 bits and buffers of fixed length. Here every operation that it cannot carry out
stops the program: a result that its type cannot hold, a place outside a buffer, a narrowing that changes a number. A
program that ends has met none of these.

## Main definitions

* `Trap`, `Checked` — what a program stops at, and a program that may stop
* `Checked.word32`, `Checked.size`, `Checked.minus`, `Checked.int32` — results that must fit
* `Checked.narrow32`, `Checked.byte`, `Checked.byteOfFloat` — narrowing
* `Checked.read`, `Checked.write` — access to a buffer

## Main statements

* `Checked.foldlM_range'` — a loop ends, and keeps what each of its rounds keeps
-/

namespace WindowSurvey

/-- What a program stops at. -/
inductive Trap where
  /-- A place outside a buffer. -/
  | index
  /-- A number that the type of the result cannot hold. -/
  | overflow
  /-- A number that a narrower type cannot hold. -/
  | narrowing
  deriving DecidableEq, Repr

/-- A program that may stop. -/
abbrev Checked (α : Type) := Except Trap α

namespace Checked

variable {α β : Type} {m n : Nat}

/-! ## Operations -/

/-- A sum or product in words of 32 bits. -/
def word32 (n : Nat) : Checked Nat := if n < 2 ^ 32 then .ok n else .error .overflow

/-- A sum or product in words of 64 bits, as which places and lengths are counted. -/
def size (n : Nat) : Checked Nat := if n < 2 ^ 64 then .ok n else .error .overflow

/-- A difference of numbers without sign. -/
def minus (m n : Nat) : Checked Nat := if n ≤ m then .ok (m - n) else .error .overflow

/-- A result in words of 32 bits with sign. -/
def int32 (n : Int) : Checked Int := if -2 ^ 31 ≤ n ∧ n < 2 ^ 31 then .ok n else .error .overflow

/-- A word of 64 bits as one of 32. -/
def narrow32 (n : Nat) : Checked Nat := if n < 2 ^ 32 then .ok n else .error .narrowing

/-- A number as a byte. -/
def byte (n : Nat) : Checked UInt8 := if n < 256 then .ok (UInt8.ofNat n) else .error .narrowing

/-- A double as a byte, without its fraction. -/
def byteOfFloat (x : Float) : Checked UInt8 := if 0.0 ≤ x ∧ x ≤ 255.0 then .ok x.toUInt8 else .error .narrowing

/-- The entry at a place. -/
def read (a : Array α) (i : Nat) : Checked α :=
  match a[i]? with
  | some v => .ok v
  | none => .error .index

/-- Change the entry at a place. -/
def write (a : Array α) (i : Nat) (v : α) : Checked (Array α) :=
  if i < a.size then .ok (a.setIfInBounds i v) else .error .index

/-! ## Operations that are carried out -/

theorem ok_bind (a : α) (f : α → Checked β) : (Except.ok a >>= f) = f a := rfl

theorem mul_lt_of_words (hm : m < 2 ^ 32) (hn : n < 2 ^ 32) : m * n < 2 ^ 64 :=
  calc m * n < 2 ^ 32 * 2 ^ 32 := Nat.mul_lt_mul'' hm hn
    _ = 2 ^ 64 := by norm_num

theorem word32_eq (h : n < 2 ^ 32) : word32 n = .ok n := if_pos h

theorem size_eq (h : n < 2 ^ 64) : size n = .ok n := if_pos h

theorem minus_eq (h : n ≤ m) : minus m n = .ok (m - n) := if_pos h

theorem int32_eq {n : Int} (h : -2 ^ 31 ≤ n ∧ n < 2 ^ 31) : int32 n = .ok n := if_pos h

theorem narrow32_eq (h : n < 2 ^ 32) : narrow32 n = .ok n := if_pos h

theorem byte_eq (h : n < 256) : byte n = .ok (UInt8.ofNat n) := if_pos h

theorem read_eq {a : Array α} {i : Nat} {v : α} (h : a[i]? = some v) : read a i = .ok v := by
  rw [read, h]

theorem write_eq {a : Array α} {i : Nat} {v : α} (h : i < a.size) : write a i v = .ok (a.setIfInBounds i v) := if_pos h

open Binary64 in
/-- The root of a small number, cut off at the greatest byte, is in the range of bytes. -/
theorem byteOfFloat_lesser_sqrt (h : n < 2 ^ 31) :
    byteOfFloat (lesser (Float.ofNat n).sqrt 255) = .ok (UInt8.ofNat (min (Nat.sqrt n) 255)) := by
  obtain ⟨hu, hvalue⟩ := word_ofNat (n := n) (h.trans (by norm_num))
  have hroot : word (Float.ofNat n).sqrt ≤ topWord := (magnitude_sqrt h hu hvalue).1.le
  have hzero : word 0.0 = 0 := by decide +kernel
  have htop : word 255.0 = word 255 := by decide +kernel
  have htop' : word 255 ≤ topWord := by decide +kernel
  have hlesser : word (lesser (Float.ofNat n).sqrt 255) ≤ word 255 := by
    rw [lesser_eq hroot htop']
    split <;> omega
  have hlow : 0.0 ≤ lesser (Float.ofNat n).sqrt 255 := by
    rw [le_iff_word_le (by omega) (by omega), hzero]
    exact Nat.zero_le _
  have hhigh : lesser (Float.ofNat n).sqrt 255 ≤ 255.0 := by
    rw [le_iff_word_le (by omega) (by omega), htop]
    exact hlesser
  rw [byteOfFloat, if_pos ⟨hlow, hhigh⟩, toUInt8_lesser_sqrt h]

/-! ## Loops -/

/-- What holds before a loop and is kept by each of its rounds holds after it. -/
theorem foldlM_range' {f : β → Nat → Checked β} (I : Nat → β → Prop) (start count : Nat) {b : β}
    (hround : ∀ i b, start ≤ i → i < start + count → I i b → ∃ b', f b i = .ok b' ∧ I (i + 1) b') (hb : I start b) :
    ∃ b', (List.range' start count).foldlM f b = .ok b' ∧ I (start + count) b' := by
  induction count generalizing start b with
  | zero => exact ⟨b, rfl, hb⟩
  | succ count ih =>
    obtain ⟨b', hb', hI⟩ := hround start b (Nat.le_refl _) (by omega) hb
    have hrest (i : Nat) (b : β) (hi : start + 1 ≤ i) (hlt : i < start + 1 + count) :
        I i b → ∃ b', f b i = .ok b' ∧ I (i + 1) b' := hround i b (by omega) (by omega)
    obtain ⟨c, hc, hIc⟩ := ih (start + 1) hrest hI
    refine ⟨c, ?_, by rwa [Nat.add_right_comm, Nat.add_assoc] at hIc⟩
    rw [List.range'_succ, List.foldlM_cons, hb', ok_bind, hc]

/-- A loop whose rounds do what a function does, as long as an invariant holds, folds the function. -/
theorem foldlM_eq_foldl {f : β → α → Checked β} (g : β → α → β) (I : β → Prop) (as : List α) {b : β}
    (hround : ∀ b, ∀ a ∈ as, I b → f b a = .ok (g b a) ∧ I (g b a)) (hb : I b) :
    as.foldlM f b = .ok (as.foldl g b) ∧ I (as.foldl g b) := by
  induction as generalizing b with
  | nil => exact ⟨rfl, hb⟩
  | cons a as ih =>
    obtain ⟨ha, hI⟩ := hround b a List.mem_cons_self hb
    rw [List.foldlM_cons, ha, ok_bind, List.foldl_cons]
    exact ih (fun b a' h => hround b a' (List.mem_cons_of_mem _ h)) hI

/-- What is done to every entry of a list without a stop is a map. -/
theorem mapM_eq_map {f : α → Checked β} {g : α → β} {as : List α} (h : ∀ a ∈ as, f a = .ok (g a)) :
    as.mapM f = .ok (as.map g) := by
  induction as with
  | nil => rfl
  | cons a as ih =>
    rw [List.mapM_cons, h a List.mem_cons_self, ok_bind, ih fun a' h' => h a' (List.mem_cons_of_mem _ h'), ok_bind]
    rfl

end Checked

end WindowSurvey
