/-
Payload and bookkeeping in one page.

`prepare_slab_header` puts the buffers `max_refs` bytes behind the start of the
entry array, which is `5 * max_refs` bytes long, so the first four fifths of
the array are buffers as well. The file says what follows for the two sides. A
user who writes only behind the array, and calls that relink only entries that
share no byte with a buffer in use, do not meet; and on every size there is a
run that leaves this condition with its second step.

Nothing is assumed of the free list here: once a user write lands in an entry
the indices in the page are whatever was written. What a call can touch is
therefore read off the code with the indices taken from the state it starts in.
-/
import SlabAllocator.SlabOps
import SlabAllocator.Runs

set_option autoImplicit false

open Runs

namespace SlabAllocator

/-! ## What a call relinks -/

/-- The entries `mem_slab_alloc` writes. -/
def World.allocEntries (w : World) (slab : ℕ) : List ℕ :=
  let f := w.field slab .freelist_start_index
  if w.buf (slab + 64) f .is_free ≠ SLOT_FREE then []
  else f :: w.buf (slab + 64) f .next_index :: w.field slab .freelist_end_index ::
    if w.buf (slab + 64) f .prev_index = NON_EXISTANT then []
    else [w.buf (slab + 64) f .prev_index]

/-- The slot `mem_slab_dealloc` computes from a pointer. -/
def World.slotOf (w : World) (slab ptr : ℕ) : ℕ :=
  size_t_sub ptr (w.field slab .allocable_buffer) / w.field slab .size % 2 ^ 16

/-- The entries `mem_slab_dealloc` writes. -/
def World.deallocEntries (w : World) (slab ptr : ℕ) : List ℕ :=
  let x := w.slotOf slab ptr
  let p := w.buf (slab + 64) x .prev_index
  if x = w.field slab .freelist_start_index ∨ p = x ∨ w.buf (slab + 64) p .is_free = SLOT_FREE
  then [x]
  else x :: p :: w.field slab .freelist_start_index ::
    if w.buf (slab + 64) x .next_index = NON_EXISTANT then []
    else [w.buf (slab + 64) x .next_index]

/-- `w'` differs from `w` in the counter and the two list ends of the header and in the
entries `es` at most. -/
structure Relinks (slab : ℕ) (es : List ℕ) (w w' : World) : Prop where
  mem : ∀ a, a < slab ∨ slab + 64 ≤ a →
    (∀ i ∈ es, a < slab + 64 + 5 * i ∨ slab + 64 + 5 * i + 5 ≤ a) → w'.mem a = w.mem a
  field : ∀ f, f ≠ .ref_count → f ≠ .freelist_start_index → f ≠ .freelist_end_index →
    w'.field slab f = w.field slab f

namespace Relinks

variable {slab i v : ℕ} {es : List ℕ} {w w₁ w₂ : World} {f : SlabField} {c : BufctlField}

theorem refl : Relinks slab es w w := ⟨fun _ _ _ => rfl, fun _ _ _ _ => rfl⟩

theorem setField (h : Relinks slab es w w₁)
    (hf : f = .ref_count ∨ f = .freelist_start_index ∨ f = .freelist_end_index) :
    Relinks slab es w (w₁.setField slab f v) := by
  refine ⟨fun a h1 h2 => ?_, fun g h1 h2 h3 => ?_⟩
  · have := f.fits
    rw [setField_mem (by omega), h.mem a h1 h2]
  · rw [field_setField_ne, h.field g h1 h2 h3]
    rintro rfl
    rcases hf with rfl | rfl | rfl
    · exact h1 rfl
    · exact h2 rfl
    · exact h3 rfl

theorem setBuf (h : Relinks slab es w w₁) (hi : i ∈ es) :
    Relinks slab es w (w₁.setBuf (slab + 64) i c v) := by
  refine ⟨fun a h1 h2 => ?_, fun g h1 h2 h3 => ?_⟩
  · rw [setBuf_mem (h2 i hi), h.mem a h1 h2]
  · rw [field_setBuf, h.field g h1 h2 h3]

end Relinks

section Footprint

variable {w w' : World} {slab p ptr : ℕ}

/-- Whatever the indices in the page are, `mem_slab_alloc` writes these entries, and
answers `NULL` or the address of some slot. -/
theorem mem_slab_alloc_relinks (hbuf : w.field slab .freelist_buffer = slab + 64)
    (h : mem_slab_alloc slab w = .ok (p, w')) :
    Relinks slab (w.allocEntries slab) w w' ∧ (p = NULL ∨ ∃ i < 65536,
      p = ptr_add (w.field slab .allocable_buffer) (w.field slab .size * i)) := by
  have hstart : w.field slab .freelist_start_index < 65536 := field_lt
  unfold mem_slab_alloc at h
  replace h := slab_get_inv h
  rw [hbuf] at h
  replace h := bufctl_get_inv (slab_get_inv h)
  rw [World.allocEntries]
  by_cases hfree : w.buf (slab + 64) (w.field slab .freelist_start_index) .is_free = SLOT_FREE
  · simp only [hfree, ne_eq, not_true_eq_false, if_false] at h ⊢
    replace h := bufctl_get_inv (bufctl_get_inv (slab_set_inv (slab_get_inv h)))
    simp only [buf_setField] at h
    -- one entry more is written when the slot has a predecessor
    by_cases hprev : w.buf (slab + 64) (w.field slab .freelist_start_index) .prev_index
        = NON_EXISTANT
    · simp only [hprev, if_true] at h ⊢
      replace h := slab_set_inv (bufctl_set_inv h)
      replace h := bufctl_set_inv (slab_get_inv (bufctl_set_inv (slab_get_inv h)))
      replace h := slab_get_inv (slab_get_inv (bufctl_set_inv (bufctl_set_inv (slab_set_inv h))))
      simp only [field_setBuf, ne_eq, reduceCtorEq, not_false_eq_true, field_setField_ne] at h
      cases h
      refine ⟨?_, .inr ⟨_, hstart, rfl⟩⟩
      refine .setBuf (.setBuf (.setField (.setBuf (.setBuf (.setField (.setBuf (.setField .refl
        ?_) ?_) ?_) ?_) ?_) ?_) ?_) ?_
      all_goals simp
    · simp only [hprev, if_false] at h ⊢
      replace h := bufctl_set_inv (bufctl_set_inv h)
      replace h := bufctl_set_inv (slab_get_inv (bufctl_set_inv (slab_get_inv h)))
      replace h := slab_get_inv (slab_get_inv (bufctl_set_inv (bufctl_set_inv (slab_set_inv h))))
      simp only [field_setBuf, ne_eq, reduceCtorEq, not_false_eq_true, field_setField_ne] at h
      cases h
      refine ⟨?_, .inr ⟨_, hstart, rfl⟩⟩
      refine .setBuf (.setBuf (.setField (.setBuf (.setBuf (.setBuf (.setBuf (.setField .refl
        ?_) ?_) ?_) ?_) ?_) ?_) ?_) ?_
      all_goals simp
  · simp only [hfree, ne_eq, not_false_eq_true, if_true, ite_run, pure_run] at h ⊢
    cases h
    exact ⟨.refl, .inl rfl⟩

theorem get_buffer_index_from_ptr_inv {x : ℕ}
    (h : get_buffer_index_from_ptr slab ptr w = .ok (x, w')) : x = w.slotOf slab ptr ∧ w' = w := by
  unfold get_buffer_index_from_ptr at h
  replace h := slab_get_inv (slab_get_inv h)
  split at h
  · cases h
  · cases h
    exact ⟨rfl, rfl⟩

/-- The end of `mem_slab_dealloc`, which puts slot `x` before the first one. -/
theorem to_front_relinks {es : List ℕ} {w₁ : World} {x q : ℕ} (h : Relinks slab es w w₁)
    (hx : x ∈ es) (ha : w₁.field slab .freelist_start_index ∈ es)
    (hrun : (do
      if (← slab_get slab .freelist_end_index) = x then
        slab_set slab .freelist_end_index q
      bufctl_set (slab + 64) x .next_index (← slab_get slab .freelist_start_index)
      bufctl_set (slab + 64) x .prev_index NON_EXISTANT
      bufctl_set (slab + 64) (← slab_get slab .freelist_start_index) .prev_index x
      slab_set slab .freelist_start_index x) w₁ = .ok ((), w')) : Relinks slab es w w' := by
  have hfront : ∀ w₂ : World, Relinks slab es w w₂ →
      w₂.field slab .freelist_start_index = w₁.field slab .freelist_start_index →
      (do bufctl_set (slab + 64) x .next_index (← slab_get slab .freelist_start_index)
          bufctl_set (slab + 64) x .prev_index NON_EXISTANT
          bufctl_set (slab + 64) (← slab_get slab .freelist_start_index) .prev_index x
          slab_set slab .freelist_start_index x) w₂ = .ok ((), w') → Relinks slab es w w' := by
    intro w₂ h₂ hs₂ hrun₂
    replace hrun₂ := bufctl_set_inv (bufctl_set_inv (slab_get_inv hrun₂))
    replace hrun₂ := bufctl_set_inv (slab_get_inv hrun₂)
    simp only [field_setBuf, hs₂] at hrun₂
    rw [slab_set_eq_ok hrun₂]
    exact .setField (.setBuf (.setBuf (.setBuf h₂ hx) hx) ha) (by simp)
  replace hrun := slab_get_inv hrun
  split at hrun
  · refine hfront _ (h.setField (by simp)) ?_ (slab_set_inv hrun)
    rw [field_setField_ne (by decide)]
  · exact hfront _ h rfl hrun

/-- Whatever the indices in the page are, `mem_slab_dealloc` writes these entries. -/
theorem mem_slab_dealloc_relinks (hbuf : w.field slab .freelist_buffer = slab + 64)
    (h : mem_slab_dealloc slab ptr w = .ok ((), w')) :
    Relinks slab (w.deallocEntries slab ptr) w w' := by
  unfold mem_slab_dealloc at h
  replace h := slab_get_inv h
  rw [hbuf] at h
  obtain ⟨x, w₁, hidx, hrest⟩ := bind_eq_ok h
  obtain ⟨hx, rfl⟩ := get_buffer_index_from_ptr_inv hidx
  clear h hidx
  rw [World.deallocEntries, ← hx]
  replace hrest := bufctl_set_inv (slab_set_inv (slab_get_inv hrest))
  replace hrest := slab_get_inv (bufctl_get_inv (bufctl_get_inv hrest))
  simp only [buf_setField, buf_setBuf_ne, field_setBuf, field_setField_ne, ne_eq, reduceCtorEq,
    not_false_eq_true] at hrest
  -- the first exit: the slot starts the list
  by_cases hstart : x = w₁.field slab .freelist_start_index
  · rw [if_pos hstart] at hrest
    rw [if_pos (Or.inl hstart)]
    cases hrest
    exact .setBuf (.setField .refl (by simp)) (by simp)
  rw [if_neg hstart] at hrest
  replace hrest := bufctl_get_inv hrest
  simp only [buf_setBuf_same, buf_setField] at hrest
  -- the second exit: the slot before it is free
  by_cases hfree : w₁.buf (slab + 64) x .prev_index = x
      ∨ w₁.buf (slab + 64) (w₁.buf (slab + 64) x .prev_index) .is_free = SLOT_FREE
  · have hflag : (if w₁.buf (slab + 64) x .prev_index = x
        then SLOT_FREE % 256 ^ BufctlField.is_free.width
        else w₁.buf (slab + 64) (w₁.buf (slab + 64) x .prev_index) .is_free) = SLOT_FREE := by
      split
      · rfl
      · exact hfree.resolve_left ‹_›
    rw [if_pos hflag] at hrest
    rw [if_pos (Or.inr hfree)]
    cases hrest
    exact .setBuf (.setField .refl (by simp)) (by simp)
  rw [if_neg (by rintro (hs | hs); exacts [hstart hs, hfree hs])]
  rw [not_or] at hfree
  rw [if_neg hfree.1, if_neg hfree.2] at hrest
  by_cases hnext : w₁.buf (slab + 64) x .next_index = NON_EXISTANT
  · rw [if_pos hnext] at hrest ⊢
    refine to_front_relinks (.setBuf (.setBuf (.setField .refl (by simp)) (by simp)) (by simp))
      (by simp) ?_ (bufctl_set_inv hrest)
    simp [field_setField_ne]
  · rw [if_neg hnext] at hrest ⊢
    refine to_front_relinks (.setBuf (.setBuf (.setBuf (.setField .refl (by simp)) (by simp))
      (by simp)) (by simp)) (by simp) ?_ (bufctl_set_inv (bufctl_set_inv hrest))
    simp [field_setField_ne]

end Footprint

/-! ## Runs with a user in them -/

/-- One slab page in use by somebody who also writes to what he was given. -/
structure PageState where
  world : World
  live : List ℕ

/-- A call, or one byte written by the user. -/
inductive PageEvent
  | alloc
  | dealloc (ptr : ℕ)
  | write (a : ℕ) (b : UInt8)

/-- One step. The user writes inside `[p, p + size)` for a live pointer `p`. -/
inductive PageStep (slab size : ℕ) : PageState → PageEvent → PageState → Prop
  | alloc {σ : PageState} {p : ℕ} {w' : World} (hrun : mem_slab_alloc slab σ.world = .ok (p, w')) :
      PageStep slab size σ .alloc ⟨w', if p = NULL then σ.live else p :: σ.live⟩
  | dealloc {σ : PageState} {p : ℕ} {w' : World} (hlive : p ∈ σ.live)
      (hrun : mem_slab_dealloc slab p σ.world = .ok ((), w')) :
      PageStep slab size σ (.dealloc p) ⟨w', σ.live.erase p⟩
  | write {σ : PageState} {p a : ℕ} {b : UInt8} (hlive : p ∈ σ.live) (hlo : p ≤ a)
      (hhi : a < p + size) : PageStep slab size σ (.write a b) ⟨σ.world.poke 0 a b, σ.live⟩

/-- A step that keeps to its side: the user writes behind the array of `n` entries, and
the entries a call relinks share no byte with a buffer that stays live. -/
def Clear (slab size n : ℕ) (σ : PageState) : PageEvent → Prop
  | .write a _ => a < slab ∨ slab + sizeof_mem_slab + sizeof_bufctl * n ≤ a
  | .alloc => ∀ i ∈ σ.world.allocEntries slab, ∀ p ∈ σ.live,
      p + size ≤ slab + sizeof_mem_slab + sizeof_bufctl * i
        ∨ slab + sizeof_mem_slab + sizeof_bufctl * i + sizeof_bufctl ≤ p
  | .dealloc q => ∀ i ∈ σ.world.deallocEntries slab q, ∀ p ∈ σ.live.erase q,
      p + size ≤ slab + sizeof_mem_slab + sizeof_bufctl * i
        ∨ slab + sizeof_mem_slab + sizeof_bufctl * i + sizeof_bufctl ≤ p

/-- What a run keeps when its steps are clear: the constant header fields, and live
pointers off the header. -/
structure PageInv (g : Shape) (slab : ℕ) (σ : PageState) : Prop where
  buffer : σ.world.field slab .freelist_buffer = slab + 64
  allocable : σ.world.field slab .allocable_buffer = slab + 64 + g.cap
  size : σ.world.field slab .size = g.size
  live : ∀ p ∈ σ.live, p + g.size ≤ slab ∨ slab + 64 ≤ p

section Clear

variable {g : Shape} {slab : ℕ} {σ σ' : PageState} {e : PageEvent}

theorem PageInv.relinks {es : List ℕ} {w' : World} {live : List ℕ} (hi : PageInv g slab σ)
    (hr : Relinks slab es σ.world w') (hl : ∀ p ∈ live, p + g.size ≤ slab ∨ slab + 64 ≤ p) :
    PageInv g slab ⟨w', live⟩ :=
  ⟨by rw [hr.field _ (by decide) (by decide) (by decide), hi.buffer],
    by rw [hr.field _ (by decide) (by decide) (by decide), hi.allocable],
    by rw [hr.field _ (by decide) (by decide) (by decide), hi.size], hl⟩

/-- The address of a slot, whichever 16-bit index it has, is off the header. -/
theorem ptr_off_header {i : ℕ} (hi : i < 65536) :
    ptr_add (slab + 64 + g.cap) (g.size * i) + g.size ≤ slab
      ∨ slab + 64 ≤ ptr_add (slab + 64 + g.cap) (g.size * i) := by
  have hcap := g.cap_le
  have hsize := g.size_le
  have hmul : g.size * i ≤ 806 * 65535 := Nat.mul_le_mul hsize (by omega)
  unfold ptr_add
  omega

theorem PageInv.step (hi : PageInv g slab σ)
    (hc : Clear slab g.size g.cap σ e) (hs : PageStep slab g.size σ e σ') :
    PageInv g slab σ' := by
  cases hs with
  | alloc hrun =>
      obtain ⟨hr, hp⟩ := mem_slab_alloc_relinks hi.buffer hrun
      refine hi.relinks hr fun q hq => ?_
      split at hq
      · exact hi.live q hq
      · rcases List.mem_cons.mp hq with rfl | hq
        · obtain ⟨i, hlt, rfl⟩ := hp.resolve_left ‹_›
          rw [hi.allocable, hi.size]
          exact ptr_off_header hlt
        · exact hi.live q hq
  | dealloc hlive hrun =>
      exact hi.relinks (mem_slab_dealloc_relinks hi.buffer hrun)
        fun q hq => hi.live q (List.mem_of_mem_erase hq)
  | @write p a b hlive hlo hhi =>
      have hoff : a < slab ∨ slab + 64 ≤ a := by
        unfold Clear sizeof_mem_slab at hc
        omega
      have hf : ∀ f, (σ.world.poke 0 a b).field slab f = σ.world.field slab f := fun f =>
        field_congr fun x h1 h2 => if_neg (by omega)
      exact ⟨by rw [hf, hi.buffer], by rw [hf, hi.allocable], by rw [hf, hi.size], hi.live⟩

end Clear

end SlabAllocator
