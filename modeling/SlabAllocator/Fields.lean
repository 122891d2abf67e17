/-
The two structures a slab page holds, `struct mem_slab` and the packed
`struct slab_bufctl`, as fields of byte memory.

A field is an offset and a width, and reading or writing it is a load or a
store there. What the rest of the development needs from a field is settled
here once: that the access does not fault while the page is mapped, that a
field reads back what was written to it, and that a write to one field, one
array entry or one page is not seen by another. The layouts enter these proofs
as numbers only; past this file nobody computes an offset again.
-/
import SlabAllocator.Machine

set_option autoImplicit false

open ByteMem

namespace SlabAllocator

/-! ## The layouts -/

/-- The fields of `struct mem_slab`. -/
inductive SlabField
  | slab_magic | size | alignment | ref_count | max_refs | freelist_start_index
  | freelist_end_index | freelist_buffer | allocable_buffer | next | prev
  deriving DecidableEq, Repr

/-- Where a field of `struct mem_slab` starts. -/
def SlabField.offset : SlabField → ℕ
  | .slab_magic => 0
  | .size => 8
  | .alignment => 16
  | .ref_count => 20
  | .max_refs => 24
  | .freelist_start_index => 28
  | .freelist_end_index => 30
  | .freelist_buffer => 32
  | .allocable_buffer => 40
  | .next => 48
  | .prev => 56

/-- The bytes of a field of `struct mem_slab`: `uint64_t`, `size_t` and pointers
have eight, `int` four, `uint16_t` two. -/
def SlabField.width : SlabField → ℕ
  | .slab_magic | .size | .freelist_buffer | .allocable_buffer | .next | .prev => 8
  | .alignment | .ref_count | .max_refs => 4
  | .freelist_start_index | .freelist_end_index => 2

/-- `sizeof(struct mem_slab)`. -/
def sizeof_mem_slab : ℕ := 64

/-- The fields of `struct slab_bufctl`. -/
inductive BufctlField
  | next_index | prev_index | is_free
  deriving DecidableEq, Repr

/-- Where a field of `struct slab_bufctl` starts. -/
def BufctlField.offset : BufctlField → ℕ
  | .next_index => 0
  | .prev_index => 2
  | .is_free => 4

/-- The bytes of a field of `struct slab_bufctl`. -/
def BufctlField.width : BufctlField → ℕ
  | .next_index | .prev_index => 2
  | .is_free => 1

/-- `sizeof(struct slab_bufctl)`; the structure is packed. -/
def sizeof_bufctl : ℕ := 5

/-- `slab->f`. -/
def slab_get (slab : ℕ) (f : SlabField) : M ℕ := load (slab + f.offset) f.width

/-- `slab->f = v`. -/
def slab_set (slab : ℕ) (f : SlabField) (v : ℕ) : M Unit := store (slab + f.offset) f.width v

/-- `array[i].f`. -/
def bufctl_get (array i : ℕ) (f : BufctlField) : M ℕ :=
  load (array + sizeof_bufctl * i + f.offset) f.width

/-- `array[i].f = v`. -/
def bufctl_set (array i : ℕ) (f : BufctlField) (v : ℕ) : M Unit :=
  store (array + sizeof_bufctl * i + f.offset) f.width v

/-- What `slab->f` reads in `w`. -/
def World.field (w : World) (slab : ℕ) (f : SlabField) : ℕ :=
  loadLE w.mem (slab + f.offset) f.width

/-- `w` after `slab->f = v`. -/
def World.setField (w : World) (slab : ℕ) (f : SlabField) (v : ℕ) : World :=
  w.store (slab + f.offset) f.width v

/-- What `array[i].f` reads in `w`. -/
def World.buf (w : World) (array i : ℕ) (f : BufctlField) : ℕ :=
  loadLE w.mem (array + sizeof_bufctl * i + f.offset) f.width

/-- `w` after `array[i].f = v`. -/
def World.setBuf (w : World) (array i : ℕ) (f : BufctlField) (v : ℕ) : World :=
  w.store (array + sizeof_bufctl * i + f.offset) f.width v

/-! ## The numbers of the layouts -/

theorem SlabField.fits (f : SlabField) : f.offset + f.width ≤ 64 := by
  cases f <;> decide

theorem SlabField.disjoint {f g : SlabField} (h : f ≠ g) :
    f.offset + f.width ≤ g.offset ∨ g.offset + g.width ≤ f.offset := by
  revert h
  cases f <;> cases g <;> decide

theorem BufctlField.fits (f : BufctlField) : f.offset + f.width ≤ 5 := by
  cases f <;> decide

theorem BufctlField.disjoint {f g : BufctlField} (h : f ≠ g) :
    f.offset + f.width ≤ g.offset ∨ g.offset + g.width ≤ f.offset := by
  revert h
  cases f <;> cases g <;> decide

/-! ## Accesses to a mapped page do not fault -/

/-- The page at `slab` is mapped. -/
def World.Page (w : World) (slab : ℕ) : Prop := slab ∈ w.mapped ∧ slab % 4096 = 0

/-- The entry `array[i]` is accessible. -/
def World.Entry (w : World) (array i : ℕ) : Prop :=
  ∀ b, array + 5 * i ≤ b → b < array + 5 * i + 5 → w.Accessible b

/-- A page base is the page of each of its addresses. -/
theorem pageOf_eq {slab a : ℕ} (h : slab % 4096 = 0) (h1 : slab ≤ a) (h2 : a < slab + 4096) :
    pageOf a = slab := by
  unfold pageOf SLAB_PAGE_SIZE
  omega

section Access

variable {w : World} {slab : ℕ}

theorem World.Page.accessible (h : w.Page slab) {a : ℕ} (h1 : slab ≤ a) (h2 : a < slab + 4096) :
    w.Accessible a :=
  Or.inl (by rw [pageOf_eq h.2 h1 h2]; exact h.1)

theorem slab_get_ok (h : w.Page slab) (f : SlabField) :
    slab_get slab f w = .ok (w.field slab f, w) :=
  load_ok fun b h1 h2 => h.accessible (by omega) (by have := f.fits; omega)

theorem slab_set_ok (h : w.Page slab) (f : SlabField) (v : ℕ) :
    slab_set slab f v w = .ok ((), w.setField slab f v) :=
  store_ok fun b h1 h2 => h.accessible (by omega) (by have := f.fits; omega)

/-- The entries of a slab that end in its page are accessible. -/
theorem World.Page.entry (h : w.Page slab) {i : ℕ} (hi : 69 + 5 * i ≤ 4096) :
    w.Entry (slab + 64) i := fun _ h1 h2 => h.accessible (by omega) (by omega)

variable {array i : ℕ}

theorem bufctl_get_ok (h : w.Entry array i) (f : BufctlField) :
    bufctl_get array i f w = .ok (w.buf array i f, w) := by
  refine load_ok fun b h1 h2 => h b ?_ ?_
  all_goals
    have := f.fits
    unfold sizeof_bufctl at h1 h2
    omega

theorem bufctl_set_ok (h : w.Entry array i) (f : BufctlField) (v : ℕ) :
    bufctl_set array i f v w = .ok ((), w.setBuf array i f v) := by
  refine store_ok fun b h1 h2 => h b ?_ ?_
  all_goals
    have := f.fits
    unfold sizeof_bufctl at h1 h2
    omega

variable {α : Type}

theorem slab_get_bind (h : w.Page slab) (f : SlabField) (k : ℕ → M α) :
    (slab_get slab f >>= k) w = k (w.field slab f) w := bind_ok (slab_get_ok h f)

theorem slab_set_bind (h : w.Page slab) (f : SlabField) (v : ℕ) (k : Unit → M α) :
    (slab_set slab f v >>= k) w = k () (w.setField slab f v) := bind_ok (slab_set_ok h f v)

theorem bufctl_get_bind (h : w.Entry array i) (f : BufctlField) (k : ℕ → M α) :
    (bufctl_get array i f >>= k) w = k (w.buf array i f) w := bind_ok (bufctl_get_ok h f)

theorem bufctl_set_bind (h : w.Entry array i) (f : BufctlField) (v : ℕ) (k : Unit → M α) :
    (bufctl_set array i f v >>= k) w = k () (w.setBuf array i f v) := bind_ok (bufctl_set_ok h f v)

/-! What an access that succeeded did. -/

theorem load_bind_inv {a n : ℕ} {k : ℕ → M α} {r : α × World}
    (h : (load a n >>= k) w = .ok r) : k (loadLE w.mem a n) w = .ok r := by
  obtain ⟨v, w₁, hl, hk⟩ := bind_eq_ok h
  unfold load at hl
  split at hl
  · cases hl
    exact hk
  · cases hl

theorem store_bind_inv {a n v : ℕ} {k : Unit → M α} {r : α × World}
    (h : (store a n v >>= k) w = .ok r) : k () (w.store a n v) = .ok r := by
  obtain ⟨u, w₁, hs, hk⟩ := bind_eq_ok h
  unfold store at hs
  split at hs
  · cases hs
    exact hk
  · cases hs

variable {v : ℕ} {f : SlabField} {c : BufctlField} {r : α × World}

theorem slab_get_inv {k : ℕ → M α} (h : (slab_get slab f >>= k) w = .ok r) :
    k (w.field slab f) w = .ok r := load_bind_inv h

theorem slab_set_inv {k : Unit → M α} (h : (slab_set slab f v >>= k) w = .ok r) :
    k () (w.setField slab f v) = .ok r := store_bind_inv h

theorem slab_set_eq_ok {w' : World} (h : slab_set slab f v w = .ok ((), w')) :
    w' = w.setField slab f v := by
  unfold slab_set store at h
  split at h
  · cases h
    rfl
  · cases h

theorem bufctl_get_inv {k : ℕ → M α} (h : (bufctl_get array i c >>= k) w = .ok r) :
    k (w.buf array i c) w = .ok r := load_bind_inv h

theorem bufctl_set_inv {k : Unit → M α} (h : (bufctl_set array i c v >>= k) w = .ok r) :
    k () (w.setBuf array i c v) = .ok r := store_bind_inv h

end Access

/-! ## Stores leave the rest of the world alone -/

section Frame

variable {w : World} {slab array i v a : ℕ} {f : SlabField} {g : BufctlField}

@[simp] theorem setField_mapped : (w.setField slab f v).mapped = w.mapped := rfl
@[simp] theorem setField_heap : (w.setField slab f v).heap = w.heap := rfl
@[simp] theorem setField_calls : (w.setField slab f v).calls = w.calls := rfl
@[simp] theorem setBuf_mapped : (w.setBuf array i g v).mapped = w.mapped := rfl
@[simp] theorem setBuf_heap : (w.setBuf array i g v).heap = w.heap := rfl
@[simp] theorem setBuf_calls : (w.setBuf array i g v).calls = w.calls := rfl

@[simp] theorem page_setField {p : ℕ} : (w.setField slab f v).Page p ↔ w.Page p := Iff.rfl
@[simp] theorem page_setBuf {p : ℕ} : (w.setBuf array i g v).Page p ↔ w.Page p := Iff.rfl
@[simp] theorem entry_setField {arr j : ℕ} : (w.setField slab f v).Entry arr j ↔ w.Entry arr j :=
  Iff.rfl
@[simp] theorem entry_setBuf {arr j : ℕ} : (w.setBuf array i g v).Entry arr j ↔ w.Entry arr j :=
  Iff.rfl

theorem setField_mem (h : a < slab + f.offset ∨ slab + f.offset + f.width ≤ a) :
    (w.setField slab f v).mem a = w.mem a :=
  storeLE_apply_of_not_mem w.mem h

theorem setBuf_mem (h : a < array + 5 * i ∨ array + 5 * i + 5 ≤ a) :
    (w.setBuf array i g v).mem a = w.mem a := by
  refine storeLE_apply_of_not_mem w.mem ?_
  have := g.fits
  unfold sizeof_bufctl
  omega

end Frame

/-! ## Fields and entries read back -/

section ReadBack

variable {w : World} {slab array i j v : ℕ} {f g : SlabField} {b c : BufctlField}

theorem field_setField_same :
    (w.setField slab f v).field slab f = v % 256 ^ f.width :=
  loadLE_storeLE_same _ _ _ _

theorem field_setField_ne (h : f ≠ g) : (w.setField slab g v).field slab f = w.field slab f := by
  refine loadLE_storeLE_of_disjoint _ ?_
  have := SlabField.disjoint h
  omega

@[simp] theorem field_setBuf : (w.setBuf (slab + 64) i b v).field slab f = w.field slab f := by
  refine loadLE_storeLE_of_disjoint _ ?_
  have := f.fits
  omega

@[simp] theorem buf_setField :
    (w.setField slab f v).buf (slab + 64) i b = w.buf (slab + 64) i b := by
  refine loadLE_storeLE_of_disjoint _ ?_
  have := f.fits
  omega

theorem buf_setBuf_same : (w.setBuf array i b v).buf array j b
    = if j = i then v % 256 ^ b.width else w.buf array j b := by
  split
  · rename_i hji
    subst hji
    exact loadLE_storeLE_same _ _ _ _
  · refine loadLE_storeLE_of_disjoint _ ?_
    have := b.fits
    unfold sizeof_bufctl
    omega

theorem buf_setBuf_ne (h : b ≠ c) : (w.setBuf array i c v).buf array j b = w.buf array j b := by
  refine loadLE_storeLE_of_disjoint _ ?_
  have := BufctlField.disjoint h
  have := b.fits
  have := c.fits
  unfold sizeof_bufctl
  omega

/-- A field depends on the bytes of its header only. -/
theorem field_congr {w' : World} (h : ∀ a, slab ≤ a → a < slab + 64 → w'.mem a = w.mem a) :
    w'.field slab f = w.field slab f := by
  refine loadLE_congr _ fun x h1 h2 => h x (by omega) ?_
  have := f.fits
  omega

/-- The links are the last two fields; the others do not depend on their bytes. -/
theorem field_congr_unlinked {w' : World} (h1 : f ≠ .next) (h2 : f ≠ .prev)
    (h : ∀ a, slab ≤ a → a < slab + 48 → w'.mem a = w.mem a) :
    w'.field slab f = w.field slab f := by
  refine loadLE_congr _ fun x h3 h4 => h x (by omega) ?_
  revert h1 h2 h4
  cases f <;> simp [SlabField.offset, SlabField.width] <;> omega

/-- Headers of different pages do not share bytes. -/
theorem field_setField_slab {slab' : ℕ} (hs : slab % 4096 = 0) (hs' : slab' % 4096 = 0) :
    (w.setField slab' f v).field slab g
      = if slab = slab' ∧ g = f then v % 256 ^ f.width else w.field slab g := by
  have h1 := f.fits
  have h2 := g.fits
  by_cases hss : slab = slab'
  · subst hss
    by_cases hgf : g = f
    · subst hgf
      rw [if_pos ⟨rfl, rfl⟩, field_setField_same]
    · rw [if_neg fun h => hgf h.2, field_setField_ne hgf]
  · rw [if_neg fun h => hss h.1]
    exact loadLE_storeLE_of_disjoint _ (by omega)

/-- An entry depends on its own five bytes only. -/
theorem buf_congr {w' : World}
    (h : ∀ a, array + 5 * i ≤ a → a < array + 5 * i + 5 → w'.mem a = w.mem a) :
    w'.buf array i b = w.buf array i b := by
  refine loadLE_congr _ fun x h1 h2 => h x ?_ ?_
  all_goals
    have := b.fits
    unfold sizeof_bufctl at h1 h2
    omega

theorem field_lt : w.field slab f < 256 ^ f.width := loadLE_lt _ _ _

end ReadBack

end SlabAllocator
