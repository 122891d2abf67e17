/-
The arithmetic of a slab page, as laws about what `prepare_slab_header` computes.

The addresses come out right. `max_refs` and `allocable_buffer` depend on each
other through a division, but the buffers are together so small that every one
of them ends inside the page, and the three formulas that lead back from an
address (the page, the index, the truncation to 16 bits) invert the one that
produced it. This needs the three header fields only, so it holds in every later
state that still has them.

The capacity does not come out right. The division is by the product of the two
costs of a slot where the layout needs their sum: for one byte it promises more
slots than fit, and for every other size fewer.
-/
import SlabAllocator.SlabRuns
import Mathlib.Tactic.Ring

set_option autoImplicit false

namespace SlabAllocator

/-! ## Addresses -/

/-- Slot `i` of `slab` is where it should be, and each of its addresses leads back to the
slab and to `i`. -/
structure SlotSound (w : World) (slab i : ℕ) : Prop where
  address : ptr_add (w.field slab .allocable_buffer) (w.field slab .size * i) = w.slotPtr slab i
  after_header : slab + sizeof_mem_slab ≤ w.slotPtr slab i
  in_page : w.slotPtr slab i + w.field slab .size ≤ slab + SLAB_PAGE_SIZE
  page : ∀ k < w.field slab .size, get_page_pointer (w.slotPtr slab i + k) = slab
    ∧ is_ptr_in_page slab (w.slotPtr slab i + k) = true
  index : ∀ k < w.field slab .size,
    get_buffer_index_from_ptr slab (w.slotPtr slab i + k) w = .ok (i, w)
  exists_index : i ≠ NON_EXISTANT
  apart : ∀ j < w.field slab .max_refs, j ≠ i →
    w.slotPtr slab i + w.field slab .size ≤ w.slotPtr slab j
      ∨ w.slotPtr slab j + w.field slab .size ≤ w.slotPtr slab i

/-- A page with the header fields of a shape has its slots where the shape says. -/
theorem Shape.sound {w : World} {g : Shape} {slab i : ℕ} (hp : w.Page slab)
    (hhigh : slab + 4096 ≤ 2 ^ 64) (hsize : w.field slab .size = g.size)
    (hmax : w.field slab .max_refs = g.cap)
    (hbuf : w.field slab .allocable_buffer = slab + 64 + g.cap) (hi : i < g.cap) :
    SlotSound w slab i := by
  have hptr : ∀ j, w.slotPtr slab j = g.slot slab j := by
    intro j
    rw [World.slotPtr, hsize, hbuf]
    rfl
  have hin := g.slot_in_page (b := slab) hi
  have hge := g.slot_ge (b := slab) (i := i)
  have hcap := g.cap_le
  have hpage : ∀ k < g.size, get_page_pointer (g.slot slab i + k) = slab := by
    intro k hk
    rw [get_page_pointer_eq (by omega)]
    exact g.pageOf_slot hp.2 hi hk
  refine ⟨?_, ?_, ?_, fun k hk => ?_, fun k hk => ?_, ?_, fun j hj hne => ?_⟩
  · rw [hptr, hbuf, hsize, ptr_add_eq]
    · rfl
    · have hlt := g.size_pos
      unfold Shape.slot at hin
      omega
  · rw [hptr]
    unfold sizeof_mem_slab
    omega
  · rw [hptr, hsize]
    exact hin
  · rw [hsize] at hk
    rw [hptr]
    exact ⟨hpage k hk, decide_eq_true (hpage k hk)⟩
  · rw [hsize] at hk
    rw [hptr]
    exact get_buffer_index_from_ptr_spec hp hhigh hsize hbuf hi hk
  · unfold NON_EXISTANT
    omega
  · rw [hptr, hptr, hsize]
    exact g.slot_disjoint hne.symm

/-- **Addresses are sound and invertible.** On a page that `prepare_slab_header` made, in
every state that still has the three header fields it computed, every slot is where it should
be and is found from each of its addresses. -/
theorem slot_addressing_sound {size alignment : Int32} {slab : ℕ} {w₀ w₁ w : World}
    (hn : 1 ≤ num_buffers size) (hpage : w₀.Page slab) (hlow : slab ≠ NULL)
    (hhigh : slab + SLAB_PAGE_SIZE ≤ 2 ^ 64)
    (hprep : prepare_slab_header slab size alignment w₀ = .ok ((), w₁)) (hp : w.Page slab)
    (hsame : ∀ f ∈ [SlabField.size, .max_refs, .allocable_buffer],
      w.field slab f = w₁.field slab f) :
    w.field slab .max_refs = num_buffers size
      ∧ ∀ i < w.field slab .max_refs, SlotSound w slab i := by
  have hge : 4096 ≤ slab := by
    have hal := hpage.2
    unfold NULL at hlow
    omega
  obtain ⟨w', hrun, hrep, -⟩ := prepare_slab_header_spec alignment hn hpage hge hhigh
  rw [hprep] at hrun
  cases hrun
  have hmax : w.field slab .max_refs = (Shape.of size hn).cap :=
    (hsame _ (by simp)).trans hrep.max_refs
  refine ⟨hmax, fun i hi => Shape.sound hp hhigh ((hsame _ (by simp)).trans hrep.size) hmax
    ((hsame _ (by simp)).trans hrep.allocable_buffer) ?_⟩
  rw [← hmax]
  exact hi

/-- A process with one page. -/
theorem page_4096 : (⟨fun _ => 0, [4096], [], []⟩ : World).Page 4096 := ⟨by decide, by decide⟩

/-- The law for the ten slots of 80 bytes of a new slab. -/
theorem slot_addressing_sound_80 : ∃ w, w.field 4096 .max_refs = 10 ∧ SlotSound w 4096 9 := by
  obtain ⟨w, hprep, hrep, -⟩ := prepare_slab_header_spec 0
    (show 1 ≤ num_buffers 80 by decide) page_4096 (by decide) (by decide)
  obtain ⟨hmax, hall⟩ := slot_addressing_sound (by decide) page_4096 (by decide) (by decide) hprep
    hrep.page fun _ _ => rfl
  exact ⟨w, hmax, hall 9 (by rw [hmax]; decide)⟩

/-! ## Capacity -/

/-- The documented layout fits on a page: a header, `n` entries and `n` buffers. -/
def LayoutFits (size n : ℕ) : Prop :=
  sizeof_mem_slab + n * (sizeof_bufctl + size) ≤ SLAB_PAGE_SIZE

instance (size n : ℕ) : Decidable (LayoutFits size n) := inferInstanceAs (Decidable (_ ≤ _))

/-- `n` slots of `size` bytes fit and one more does not. -/
def ExactCapacity (size n : ℕ) : Prop := LayoutFits size n ∧ ¬ LayoutFits size (n + 1)

/-- `max_refs` is the result of the division, whatever else happened to the page. -/
theorem prepare_slab_header_max_refs {slab : ℕ} {size alignment : Int32} {w w' : World}
    (h : prepare_slab_header slab size alignment w = .ok ((), w')) :
    w'.field slab .max_refs = num_buffers size := by
  have hle : num_buffers size < 256 ^ 4 := lt_of_le_of_lt (Nat.div_le_self _ _) (by decide)
  unfold prepare_slab_header at h
  -- seven stores into the header, then the division
  iterate 7 obtain ⟨-, w, -, h⟩ := bind_eq_ok h
  rw [ite_run] at h
  split at h
  · cases h
  · -- the read of `freelist_buffer`, the loop, the two ends and the two end marks
    iterate 8 obtain ⟨_, w, -, h⟩ := bind_eq_ok h
    replace h := slab_get_inv (slab_set_inv h)
    rw [slab_set_eq_ok h, field_setField_ne (by decide), field_setField_same]
    exact Nat.mod_eq_of_lt hle

/-- What the division promises for a size that fits. -/
theorem num_buffers_eq {size : Int32} {n : ℕ} (hn : size.toInt = n) :
    num_buffers size = 4032 / (n * 5) := by
  have hlt := size.toInt_lt
  have hcost : slot_cost size = n * 5 := by
    rw [slot_cost, hn, size_t_of_int_natCast (by omega), sizeof_bufctl, Nat.mod_eq_of_lt (by omega)]
  rw [num_buffers, hcost, SLAB_PAGE_SIZE, sizeof_mem_slab]

/-- The product of the costs is more than the sum, for two bytes and more: there is room for
another slot. -/
theorem layoutFits_succ {n : ℕ} (h2 : 2 ≤ n) (hfit : LayoutFits n 1) :
    LayoutFits n (4032 / (n * 5) + 1) := by
  unfold LayoutFits sizeof_mem_slab sizeof_bufctl SLAB_PAGE_SIZE at *
  obtain ⟨k, hk⟩ : ∃ k, k = 4032 / (n * 5) := ⟨_, rfl⟩
  have hmul : n * 5 * k ≤ 4032 := hk ▸ Nat.mul_div_le 4032 (n * 5)
  rw [← hk]
  rcases Nat.eq_zero_or_pos k with hk0 | hkpos
  · rw [hk0]
    omega
  -- the promise times the product bounds the promise times the sum
  · have h1 : n * 5 * 1 ≤ n * 5 * k := Nat.mul_le_mul_left _ hkpos
    have h3 : 2 * 5 * k ≤ n * 5 * k := Nat.mul_le_mul_right k (Nat.mul_le_mul_right 5 h2)
    have h4 : (k + 1) * (5 + n) = 5 * k + n * k + 5 + n := by ring
    have h5 : n * 5 * k = 5 * (n * k) := by ring
    omega

/-- **The capacity is never exact.** For one byte more slots are promised than the page has
room for; for every other size that fits, one more would have fitted. -/
theorem capacity_never_exact {size : Int32} {n : ℕ} (hn : size.toInt = n) (h1 : 1 ≤ n)
    (hfit : LayoutFits n 1) :
    (∀ slab alignment w w', prepare_slab_header slab size alignment w = .ok ((), w') →
      ¬ ExactCapacity n (w'.field slab .max_refs))
    ∧ ¬ ExactCapacity n (num_buffers size)
    ∧ (LayoutFits n (num_buffers size) ↔ n ≠ 1)
    ∧ (LayoutFits n (num_buffers size + 1) ↔ n ≠ 1) := by
  have hone : n ≠ 1 → LayoutFits n (num_buffers size + 1) := by
    intro hne
    rw [num_buffers_eq hn]
    exact layoutFits_succ (by omega) hfit
  have hover : n = 1 → ¬ LayoutFits n (num_buffers size) := by
    intro he
    rw [num_buffers_eq hn, he]
    decide
  have hmono : ∀ k, LayoutFits n (k + 1) → LayoutFits n k := by
    intro k hk
    unfold LayoutFits at *
    have := Nat.mul_le_mul_right (sizeof_bufctl + n) (Nat.le_add_right k 1)
    omega
  have hnever : ¬ ExactCapacity n (num_buffers size) := by
    rintro ⟨hin, hout⟩
    by_cases he : n = 1
    · exact hover he hin
    · exact hout (hone he)
  refine ⟨fun slab alignment w w' hrun => ?_, hnever, ⟨fun h he => hover he h,
    fun hne => hmono _ (hone hne)⟩, ⟨fun h he => hover he (hmono _ h), hone⟩⟩
  rw [prepare_slab_header_max_refs hrun]
  exact hnever

/-- The law for 8 bytes: 100 slots where 310 fit. -/
theorem capacity_never_exact_8 : num_buffers 8 = 100 ∧ ¬ ExactCapacity 8 (num_buffers 8)
    ∧ ExactCapacity 8 310 :=
  ⟨by decide, (@capacity_never_exact 8 8 (by decide) (by decide) (by decide)).2.1,
    by decide, by decide⟩

/-- For one byte 806 slots are promised where 672 fit, for 8 bytes 100 where 310 fit. -/
theorem not_exactCapacity_1_8 :
    ¬ ExactCapacity 1 (num_buffers 1) ∧ ¬ ExactCapacity 8 (num_buffers 8) := by
  constructor
  · rintro ⟨hin, -⟩
    revert hin
    decide
  · rintro ⟨-, hout⟩
    exact hout (by decide)

end SlabAllocator
