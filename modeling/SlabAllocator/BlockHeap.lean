/-
What an allocator is for: a heap of blocks, and what is known of their bytes.

A block is a range of addresses. A `Heap` is a list of blocks that do not overlap,
together with the bytes that are known, each in some block; both are fields, so
there is no heap whose blocks overlap and none that knows a byte of no block. A new
block may be anywhere clear of the others, and nothing is known of its bytes. A
block that is resized may move, also onto itself, and takes its first bytes along.
Nothing here says how blocks are found, what is next to them, or what the bytes are
whose value nobody knows; that is what an implementation is free to choose.

The rule says what a client may rely on: a known byte stays known, at the place its
block takes it to, until it is written or its block is released or too small for it
(`Step.carries`, and `known_of_run` over runs).
-/
import SlabAllocator.Runs
import Mathlib.Data.List.Pairwise
import Mathlib.Data.Nat.Basic

set_option autoImplicit false

open Runs

namespace BlockHeap

variable {β : Type*}

/-! ## Blocks -/

/-- The address `a` is in the block `c`, a start and a length. -/
def Holds (c : ℕ × ℕ) (a : ℕ) : Prop := c.1 ≤ a ∧ a < c.1 + c.2

instance (c : ℕ × ℕ) (a : ℕ) : Decidable (Holds c a) := inferInstanceAs (Decidable (_ ∧ _))

/-- The blocks `c` and `d` do not overlap. -/
def Apart (c d : ℕ × ℕ) : Prop := c.1 + c.2 ≤ d.1 ∨ d.1 + d.2 ≤ c.1

theorem Apart.symm {c d : ℕ × ℕ} (h : Apart c d) : Apart d c := Or.symm h

theorem Apart.not_holds {c d : ℕ × ℕ} {a : ℕ} (h : Apart c d) (hc : Holds c a) : ¬ Holds d a := by
  unfold Apart Holds at *
  omega

theorem ne_of_holds {c d : ℕ × ℕ} {a : ℕ} (hd : Holds d a) (hc : ¬ Holds c a) : d ≠ c := by
  rintro rfl
  exact hc hd

/-! ## Heaps -/

/-- Blocks that do not overlap, and what is known of their bytes. -/
structure Heap (β : Type*) where
  blocks : List (ℕ × ℕ)
  known : ℕ → Option β
  apart : blocks.Pairwise Apart
  held : ∀ a, known a ≠ none → ∃ c ∈ blocks, Holds c a

namespace Heap

/-- The heap without blocks. -/
def empty : Heap β := ⟨[], fun _ => none, .nil, fun _ h => absurd rfl h⟩

/-- A new block. -/
def alloc (h : Heap β) (c : ℕ × ℕ) (hc : ∀ d ∈ h.blocks, Apart c d) : Heap β where
  blocks := c :: h.blocks
  known a := if Holds c a then none else h.known a
  apart := List.pairwise_cons.mpr ⟨hc, h.apart⟩
  held a ha := by
    by_cases hca : Holds c a
    · exact ⟨c, List.mem_cons_self, hca⟩
    · rw [if_neg hca] at ha
      obtain ⟨d, hd, hda⟩ := h.held a ha
      exact ⟨d, List.mem_cons_of_mem c hd, hda⟩

/-- The release of a block. -/
def free (h : Heap β) (c : ℕ × ℕ) : Heap β where
  blocks := h.blocks.erase c
  known a := if Holds c a then none else h.known a
  apart := h.apart.sublist List.erase_sublist
  held a ha := by
    by_cases hca : Holds c a
    · rw [if_pos hca] at ha
      exact absurd rfl ha
    · rw [if_neg hca] at ha
      obtain ⟨d, hd, hda⟩ := h.held a ha
      exact ⟨d, (List.mem_erase_of_ne (ne_of_holds hda hca)).mpr hd, hda⟩

/-- The block `c` becomes the block `d`: the bytes both have move along. -/
def resize (h : Heap β) (c d : ℕ × ℕ) (hd : ∀ e ∈ h.blocks.erase c, Apart d e) : Heap β where
  blocks := d :: h.blocks.erase c
  known a :=
    if Holds d a then
      if a - d.1 < c.2 then h.known (c.1 + (a - d.1)) else none
    else if Holds c a then none else h.known a
  apart := List.pairwise_cons.mpr ⟨hd, h.apart.sublist List.erase_sublist⟩
  held a ha := by
    by_cases hda : Holds d a
    · exact ⟨d, List.mem_cons_self, hda⟩
    · rw [if_neg hda] at ha
      by_cases hca : Holds c a
      · rw [if_pos hca] at ha
        exact absurd rfl ha
      · rw [if_neg hca] at ha
        obtain ⟨e, he, hea⟩ := h.held a ha
        exact ⟨e, List.mem_cons_of_mem d
          ((List.mem_erase_of_ne (ne_of_holds hea hca)).mpr he), hea⟩

/-- A byte written in a block. -/
def write (h : Heap β) (a : ℕ) (x : β) (ha : ∃ c ∈ h.blocks, Holds c a) : Heap β where
  blocks := h.blocks
  known b := if b = a then some x else h.known b
  apart := h.apart
  held b hb := by
    by_cases hba : b = a
    · exact hba ▸ ha
    · rw [if_neg hba] at hb
      exact h.held b hb

end Heap

/-! ## What a client does -/

/-- The calls of a client, and its writes. -/
inductive Op (β : Type*)
  | alloc (c : ℕ × ℕ)
  | free (c : ℕ × ℕ)
  | resize (c d : ℕ × ℕ)
  | write (a : ℕ) (x : β)

/-- One step of a client. -/
inductive Step : Heap β → Op β → Heap β → Prop
  | alloc {h : Heap β} {c : ℕ × ℕ} (hc : ∀ d ∈ h.blocks, Apart c d) :
      Step h (.alloc c) (h.alloc c hc)
  | free {h : Heap β} {c : ℕ × ℕ} (hc : c ∈ h.blocks) : Step h (.free c) (h.free c)
  | resize {h : Heap β} {c d : ℕ × ℕ} (hc : c ∈ h.blocks)
      (hd : ∀ e ∈ h.blocks.erase c, Apart d e) : Step h (.resize c d) (h.resize c d hd)
  | write {h : Heap β} {a : ℕ} {x : β} (ha : ∃ c ∈ h.blocks, Holds c a) :
      Step h (.write a x) (h.write a x ha)

/-- Where the byte at `a` is after the step, if it is known still: a block that is resized
takes it along, and it is lost if it is written, if its block is released, or if the block has
become too small for it. -/
def Op.carry : Op β → ℕ → Option ℕ
  | .alloc _, a => some a
  | .free c, a => if Holds c a then none else some a
  | .resize c d, a =>
      if Holds c a then
        if a - c.1 < d.2 then some (d.1 + (a - c.1)) else none
      else some a
  | .write b _, a => if b = a then none else some a

/-- Where it is after several steps, the latest first. -/
def carry : List (Op β) → ℕ → Option ℕ
  | [], a => some a
  | op :: ops, a => (carry ops a).bind op.carry

section Rules

variable {h h' h₀ : Heap β} {op : Op β} {t : List (Heap β × Op β)} {a a' : ℕ} {x : β}

/-- **One step** carries what is known. -/
theorem Step.carries (hs : Step h op h') (hx : h.known a = some x) (hc : op.carry a = some a') :
    h'.known a' = some x := by
  have hheld : ∃ c ∈ h.blocks, Holds c a := h.held a (by rw [hx]; simp)
  cases hs with
  | alloc hnew =>
      -- the new block is clear of the one the byte is in
      obtain ⟨d, hd, hda⟩ := hheld
      obtain rfl : a = a' := Option.some.inj hc
      exact (if_neg ((hnew d hd).symm.not_holds hda)).trans hx
  | @free c _ =>
      by_cases hca : Holds c a
      · rw [Op.carry, if_pos hca] at hc
        cases hc
      · rw [Op.carry, if_neg hca] at hc
        obtain rfl : a = a' := Option.some.inj hc
        exact (if_neg hca).trans hx
  | @resize c d _ hd =>
      by_cases hca : Holds c a
      · rw [Op.carry, if_pos hca] at hc
        by_cases hlt : a - c.1 < d.2
        · rw [if_pos hlt] at hc
          obtain rfl : d.1 + (a - c.1) = a' := Option.some.inj hc
          unfold Holds at hca
          have hhold : Holds d (d.1 + (a - c.1)) := ⟨Nat.le_add_right _ _, by omega⟩
          refine (if_pos hhold).trans ?_
          rw [Nat.add_sub_cancel_left, if_pos (by omega), Nat.add_sub_of_le hca.1, hx]
        · rw [if_neg hlt] at hc
          cases hc
      -- the byte stays, in a block that is neither the old one nor the new one
      · rw [Op.carry, if_neg hca] at hc
        obtain rfl : a = a' := Option.some.inj hc
        obtain ⟨e, he, hea⟩ := hheld
        have hec := (List.mem_erase_of_ne (ne_of_holds hea hca)).mpr he
        exact ((if_neg ((hd e hec).symm.not_holds hea)).trans (if_neg hca)).trans hx
  | @write b _ _ =>
      by_cases hb : b = a
      · rw [Op.carry, if_pos hb] at hc
        cases hc
      · rw [Op.carry, if_neg hb] at hc
        obtain rfl : a = a' := Option.some.inj hc
        exact (if_neg fun he => hb he.symm).trans hx

/-- A byte just written is known. -/
theorem Step.written (hs : Step h (.write a x) h') : h'.known a = some x := by
  cases hs with
  | write _ => exact if_pos rfl

/-- **What a client may rely on**, over runs: what is known is known where it was carried. -/
theorem known_of_run (hrun : Run Step h₀ t h) (hx : h₀.known a = some x) :
    ∀ {a'}, carry (t.map Prod.snd) a = some a' → h.known a' = some x := by
  induction hrun with
  | start =>
      intro a' hc
      exact (Option.some.inj hc) ▸ hx
  | next _ hs ih =>
      intro a' hc
      obtain ⟨a₁, h₁, h₂⟩ := Option.bind_eq_some_iff.mp hc
      exact hs.carries (ih h₁) h₂

end Rules

end BlockHeap
