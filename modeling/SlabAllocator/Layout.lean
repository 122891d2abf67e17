/-
The arithmetic of a slab page: how many buffers it has, where they are, and how
an address leads back to its page and its buffer.

`num_buffers` divides the 4032 bytes behind the header by the product of the two
per-slot costs, and the buffers start `num_buffers` bytes behind the start of
the entry array. A `Shape` is a size together with its capacity and the fact
that the one was computed from the other, so nothing below carries a bound on a
size around; the bounds are consequences.
-/
import SlabAllocator.Slab
import Mathlib.Data.Nat.Bitwise
import Mathlib.Tactic.Linarith

set_option autoImplicit false

namespace SlabAllocator

/-! ## The page of an address -/

/-- Clearing the twelve low bits is rounding down to a page. -/
theorem get_page_pointer_eq {ptr : ℕ} (h : ptr < 2 ^ 64) : get_page_pointer ptr = pageOf ptr := by
  have hmask : size_t_of_int (-4096) = 2 ^ 12 * (2 ^ 52 - 1) := by decide
  have hpage : pageOf ptr = 2 ^ 12 * (ptr / 2 ^ 12) := by
    unfold pageOf SLAB_PAGE_SIZE
    omega
  rw [get_page_pointer, hmask, hpage]
  refine Nat.eq_of_testBit_eq fun i => ?_
  rw [Nat.testBit_and, Nat.testBit_two_pow_mul, Nat.testBit_two_pow_mul,
    Nat.testBit_two_pow_sub_one, Nat.testBit_div_two_pow]
  rcases Nat.lt_or_ge i 12 with hi | hi
  · simp [Nat.not_le.mpr hi]
  · rw [Nat.sub_add_cancel hi]
    rcases Nat.lt_or_ge i 64 with h64 | h64
    · simp [hi, show i - 12 < 52 by omega]
    · have hbit : ptr.testBit i = false :=
        Nat.testBit_lt_two_pow (lt_of_lt_of_le h (Nat.pow_le_pow_right (by norm_num) h64))
      simp [hbit]

/-! ## Shapes -/

/-- A slot size and the capacity `prepare_slab_header` computes for it. -/
structure Shape where
  size : ℕ
  cap : ℕ
  cap_eq : cap = 4032 / (5 * size)
  cap_pos : 1 ≤ cap

namespace Shape

variable (g : Shape)

theorem size_pos : 1 ≤ g.size := by
  rcases Nat.eq_zero_or_pos g.size with h | h
  · have hc := g.cap_pos
    rw [g.cap_eq, h] at hc
    simp at hc
  · exact h

/-- What the division guarantees. -/
theorem budget : 5 * g.size * g.cap ≤ 4032 := by
  rw [g.cap_eq]
  exact Nat.mul_div_le _ _

theorem size_le : g.size ≤ 806 := by
  have h1 := g.budget
  have h2 := Nat.mul_le_mul_left (5 * g.size) g.cap_pos
  omega

theorem cap_le : g.cap ≤ 806 := by
  have h1 := g.budget
  have h2 := Nat.mul_le_mul_right g.cap (Nat.mul_le_mul_left 5 g.size_pos)
  omega

/-- The buffers together take no more than a fifth of the page. -/
theorem slots_le : g.size * g.cap ≤ 806 := by
  have h := g.budget
  rw [Nat.mul_assoc] at h
  omega

/-- Every entry of the array is inside the page. -/
theorem entry_fits {i : ℕ} (h : i < g.cap) : 69 + 5 * i ≤ 4096 := by
  have := g.cap_le
  omega

/-- The address of buffer `i` of the slab at `base`. -/
def slot (base i : ℕ) : ℕ := base + 64 + g.cap + g.size * i

/-- A buffer ends where the next one starts, and the last one inside the page. -/
theorem slot_end_le {b i : ℕ} (h : i < g.cap) :
    g.slot b i + g.size ≤ b + 64 + g.cap + 806 := by
  have h1 : g.size * (i + 1) ≤ g.size * g.cap := Nat.mul_le_mul_left _ h
  have h2 := g.slots_le
  rw [Nat.mul_add, Nat.mul_one] at h1
  unfold slot
  omega

theorem slot_in_page {b i : ℕ} (h : i < g.cap) : g.slot b i + g.size ≤ b + 4096 := by
  have h1 := g.slot_end_le (b := b) h
  have h2 := g.cap_le
  omega

theorem slot_ge {b i : ℕ} : b + 65 ≤ g.slot b i := by
  have := g.cap_pos
  unfold slot
  omega

/-- Buffers of one slab are in the order of their indices and do not overlap. -/
theorem slot_lt {b i j : ℕ} (h : i < j) : g.slot b i + g.size ≤ g.slot b j := by
  have h1 : g.size * (i + 1) ≤ g.size * j := Nat.mul_le_mul_left _ h
  rw [Nat.mul_add, Nat.mul_one] at h1
  unfold slot
  omega

theorem slot_disjoint {b i j : ℕ} (h : i ≠ j) :
    g.slot b i + g.size ≤ g.slot b j ∨ g.slot b j + g.size ≤ g.slot b i := by
  rcases Nat.lt_or_gt_of_ne h with h | h
  · exact .inl (g.slot_lt h)
  · exact .inr (g.slot_lt h)

theorem slot_inj {b i j : ℕ} (h : g.slot b i = g.slot b j) : i = j := by
  by_contra hne
  have h1 := g.slot_disjoint (b := b) hne
  have h2 := g.size_pos
  omega

/-- Every address of a buffer leads back to its page. -/
theorem pageOf_slot {b i k : ℕ} (hb : b % 4096 = 0) (hi : i < g.cap) (hk : k < g.size) :
    pageOf (g.slot b i + k) = b := by
  have h1 := g.slot_in_page (b := b) hi
  have h2 := g.slot_ge (b := b) (i := i)
  exact pageOf_eq hb (by omega) (by omega)

/-- Every address of a buffer leads back to its index. -/
theorem index_of_slot {b i k : ℕ} (hk : k < g.size) :
    (g.slot b i + k - (b + 64 + g.cap)) / g.size = i := by
  have h : g.slot b i + k - (b + 64 + g.cap) = k + g.size * i := by
    unfold slot
    omega
  rw [h, Nat.add_mul_div_left _ _ g.size_pos, Nat.div_eq_of_lt hk, Nat.zero_add]

/-- Distinct pages have disjoint buffers, so an address names one buffer of one slab. -/
theorem slot_page_inj {b b' i j : ℕ} (hb : b % 4096 = 0) (hb' : b' % 4096 = 0) (hi : i < g.cap)
    (hj : j < g.cap) (h : g.slot b i = g.slot b' j) : b = b' ∧ i = j := by
  have h1 := g.pageOf_slot hb hi g.size_pos
  have h2 := g.pageOf_slot hb' hj g.size_pos
  rw [h, h2] at h1
  subst h1
  exact ⟨rfl, g.slot_inj h⟩

end Shape

/-! ## The shape `prepare_slab_header` computes -/

theorem slot_cost_eq {size : Int32} (h : 1 ≤ num_buffers size) :
    slot_cost size = 5 * size_t_of_int size.toInt := by
  have hlo := size.le_toInt
  have hhi := size.toInt_lt
  have hle : slot_cost size ≤ 4032 := by
    by_contra hgt
    rw [num_buffers, sizeof_mem_slab, SLAB_PAGE_SIZE, Nat.div_eq_of_lt (by omega)] at h
    omega
  unfold slot_cost size_t_of_int sizeof_bufctl at hle ⊢
  -- a negative size wraps to a cost far beyond the page
  rcases lt_or_ge size.toInt 0 with hneg | hpos
  · obtain ⟨k, hk⟩ : ∃ k : ℕ, size.toInt = -k := ⟨(-size.toInt).toNat, by omega⟩
    have hwrap : (size.toInt % 2 ^ 64).toNat * 5 = 4 * 2 ^ 64 + (2 ^ 64 - 5 * k) := by omega
    rw [hwrap, Nat.add_mod, Nat.mul_mod_left, Nat.zero_add, Nat.mod_mod,
      Nat.mod_eq_of_lt (by omega)] at hle
    omega
  · have hsame : (size.toInt % 2 ^ 64).toNat = size.toInt.toNat := by omega
    rw [hsame]
    omega

/-- The shape of the slabs of a size for which at least one buffer fits. -/
def Shape.of (size : Int32) (h : 1 ≤ num_buffers size) : Shape where
  size := size_t_of_int size.toInt
  cap := num_buffers size
  cap_eq := by rw [num_buffers, slot_cost_eq h, sizeof_mem_slab, SLAB_PAGE_SIZE]
  cap_pos := h

theorem slot_cost_ne_zero {size : Int32} (h : 1 ≤ num_buffers size) : slot_cost size ≠ 0 := by
  have h1 := (Shape.of size h).size_pos
  rw [slot_cost_eq h]
  change 1 ≤ size_t_of_int size.toInt at h1
  omega

end SlabAllocator
