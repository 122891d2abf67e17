/-
The index-linked free list of one slab, and the two sequences it stands for.

`Slots n` is what the list means: the free slots, in the order they will be
handed out, followed by the busy ones. The list in the page is the
concatenation of the two, so an allocation is a rotation of its first slot to
the back, and `mem_slab_dealloc` leaves the list alone in the two cases where
the freed slot is already where the free ones end.

`Rep` says that the page at `base` holds a given `Slots`. The three theorems
that matter are that `prepare_slab_header` establishes it, and that
`mem_slab_alloc` and `mem_slab_dealloc` carry it from one `Slots` to the next;
each also says which bytes it leaves alone, which is what the layers above need
to keep the other slabs.
-/
import SlabAllocator.DoublyLinked
import SlabAllocator.Layout

set_option autoImplicit false

open DoublyLinked

namespace SlabAllocator

/-! ## The two sequences -/

/-- The slots of a slab with `n` of them: the free ones in the order they will be
handed out, then the busy ones. -/
structure Slots (n : ℕ) where
  free : List ℕ
  busy : List ℕ
  perm : (free ++ busy).Perm (List.range n)

namespace Slots

variable {n : ℕ}

/-- A fresh slab: every slot free, in index order. -/
def init (n : ℕ) : Slots n := ⟨List.range n, [], by simp⟩

/-- The slots in the order of the list in the page. -/
def order (s : Slots n) : List ℕ := s.free ++ s.busy

/-- Handing out a slot. -/
def alloc (s : Slots n) : Option (ℕ × Slots n) :=
  match h : s.free with
  | [] => none
  | f :: F => some (f, ⟨F, s.busy ++ [f], by
      have hp := s.perm
      rw [h, List.cons_append] at hp
      rw [← List.append_assoc]
      exact (List.perm_append_singleton f (F ++ s.busy)).trans hp⟩)

/-- Taking back slot `x`. The first busy slot follows the last free one and stays
there; any other goes to the front. -/
def dealloc (s : Slots n) (x : ℕ) : Slots n :=
  if hx : x ∈ s.busy then
    if hh : s.busy.head? = some x then
      ⟨s.free ++ [x], s.busy.tail, by
        have hb : x :: s.busy.tail = s.busy := List.cons_head?_tail hh
        rw [List.append_assoc, List.singleton_append, hb]
        exact s.perm⟩
    else
      ⟨x :: s.free, s.busy.erase x, by
        have hb : (x :: s.busy.erase x).Perm s.busy := (List.perm_cons_erase hx).symm
        rw [List.cons_append]
        exact (List.perm_middle.symm.trans (hb.append_left s.free)).trans s.perm⟩
  else s

@[simp] theorem init_free (n : ℕ) : (init n).free = List.range n := rfl

@[simp] theorem init_busy (n : ℕ) : (init n).busy = [] := rfl

@[simp] theorem init_order (n : ℕ) : (init n).order = List.range n := List.append_nil _

theorem alloc_nil {s : Slots n} (h : s.free = []) : s.alloc = none := by
  unfold alloc
  split
  · rfl
  · rename_i heq
    rw [h] at heq
    cases heq

theorem alloc_cons {s : Slots n} {f : ℕ} {F : List ℕ} (h : s.free = f :: F) :
    ∃ s', s.alloc = some (f, s') ∧ s'.free = F ∧ s'.busy = s.busy ++ [f] := by
  unfold alloc
  split
  · rename_i heq
    rw [h] at heq
    cases heq
  · rename_i f' F' heq
    rw [h] at heq
    cases heq
    exact ⟨_, rfl, rfl, rfl⟩

/-- What an allocation that succeeds did. -/
theorem alloc_some {s s' : Slots n} {f : ℕ} (h : s.alloc = some (f, s')) :
    s.free = f :: s'.free ∧ s'.busy = s.busy ++ [f] := by
  rcases hf : s.free with _ | ⟨a, F⟩
  · rw [alloc_nil hf] at h
    cases h
  · obtain ⟨t, ht, hfree, hbusy⟩ := alloc_cons hf
    rw [ht] at h
    cases h
    exact ⟨by rw [hfree], hbusy⟩

theorem alloc_eq_none {s : Slots n} : s.alloc = none ↔ s.free = [] := by
  refine ⟨fun h => ?_, alloc_nil⟩
  rcases hf : s.free with _ | ⟨a, F⟩
  · rfl
  · obtain ⟨t, ht, -⟩ := alloc_cons hf
    rw [h] at ht
    cases ht

theorem dealloc_head {s : Slots n} {x : ℕ} {B : List ℕ} (h : s.busy = x :: B) :
    (s.dealloc x).free = s.free ++ [x] ∧ (s.dealloc x).busy = B := by
  unfold dealloc
  rw [dif_pos (by simp [h]), dif_pos (by simp [h])]
  exact ⟨rfl, by simp [h]⟩

theorem dealloc_other {s : Slots n} {x : ℕ} (hx : x ∈ s.busy) (h : s.busy.head? ≠ some x) :
    (s.dealloc x).free = x :: s.free ∧ (s.dealloc x).busy = s.busy.erase x := by
  unfold dealloc
  rw [dif_pos hx, dif_neg h]
  exact ⟨rfl, rfl⟩

theorem nodup (s : Slots n) : s.order.Nodup := s.perm.nodup_iff.mpr List.nodup_range

theorem mem_order {s : Slots n} {i : ℕ} : i ∈ s.order ↔ i < n := by
  rw [order, s.perm.mem_iff, List.mem_range]

theorem busy_lt {s : Slots n} {i : ℕ} (h : i ∈ s.busy) : i < n :=
  mem_order.mp (List.mem_append_right _ h)

theorem free_lt {s : Slots n} {i : ℕ} (h : i ∈ s.free) : i < n :=
  mem_order.mp (List.mem_append_left _ h)

theorem length_order (s : Slots n) : s.free.length + s.busy.length = n := by
  have h := s.perm.length_eq
  rwa [List.length_append, List.length_range] at h

/-- With two slots or more the first free one is not alone in the list. -/
theorem rest_ne_nil {s : Slots n} {f : ℕ} {F : List ℕ} (h : s.free = f :: F) (h2 : 2 ≤ n) :
    F ++ s.busy ≠ [] := by
  intro he
  have hl := s.length_order
  rw [h, List.length_cons] at hl
  rw [← List.length_eq_zero_iff, List.length_append] at he
  omega

theorem not_mem_busy {s : Slots n} {i : ℕ} (h : i ∈ s.free) : i ∉ s.busy :=
  fun hb => (List.nodup_append.mp s.nodup).2.2 i h i hb rfl

/-- A slab is full when as many slots are busy as there are. -/
theorem busy_length_eq {s : Slots n} : s.busy.length = n ↔ s.free = [] := by
  have h := s.length_order
  rw [← List.length_eq_zero_iff]
  omega

/-- The busy slots after a release are the others. -/
theorem dealloc_perm {s : Slots n} {x : ℕ} (hx : x ∈ s.busy) :
    s.busy.Perm (x :: (s.dealloc x).busy) := by
  by_cases hh : s.busy.head? = some x
  · have hb : x :: s.busy.tail = s.busy := List.cons_head?_tail hh
    rw [(dealloc_head hb.symm).2, hb]
  · rw [(dealloc_other hx hh).2]
    exact List.perm_cons_erase hx

end Slots

/-! ## Worlds that differ in a range only -/

/-- `w'` differs from `w` in the bytes of `[lo, hi)` at most. -/
structure Within (lo hi : ℕ) (w w' : World) : Prop where
  mem : ∀ a, a < lo ∨ hi ≤ a → w'.mem a = w.mem a
  mapped : w'.mapped = w.mapped
  heap : w'.heap = w.heap
  calls : w'.calls = w.calls

namespace Within

variable {lo hi lo' hi' : ℕ} {w w₁ w₂ : World}

theorem refl : Within lo hi w w := ⟨fun _ _ => rfl, rfl, rfl, rfl⟩

theorem trans (h : Within lo hi w w₁) (h' : Within lo hi w₁ w₂) : Within lo hi w w₂ :=
  ⟨fun a ha => (h'.mem a ha).trans (h.mem a ha), h'.mapped.trans h.mapped, h'.heap.trans h.heap,
    h'.calls.trans h.calls⟩

theorem mono (h : Within lo hi w w₁) (h1 : lo' ≤ lo) (h2 : hi ≤ hi') : Within lo' hi' w w₁ :=
  ⟨fun a ha => h.mem a (by omega), h.mapped, h.heap, h.calls⟩

theorem setField {slab v : ℕ} {f : SlabField} (h1 : lo ≤ slab) (h2 : slab + 64 ≤ hi) :
    Within lo hi w (w.setField slab f v) := by
  refine ⟨fun a ha => setField_mem ?_, rfl, rfl, rfl⟩
  have := f.fits
  omega

theorem setBuf {array i v : ℕ} {f : BufctlField} (h1 : lo ≤ array + 5 * i)
    (h2 : array + 5 * i + 5 ≤ hi) : Within lo hi w (w.setBuf array i f v) :=
  ⟨fun _ ha => setBuf_mem (by omega), rfl, rfl, rfl⟩

end Within

/-! ## What the page holds -/

/-- The page at `base` is a slab of shape `g` whose slots are `s`. -/
structure Rep (w : World) (g : Shape) (base : ℕ) (s : Slots g.cap) : Prop where
  page : w.Page base
  low : 4096 ≤ base
  high : base + 4096 ≤ 2 ^ 64
  slab_magic : w.field base .slab_magic = SLAB_MAGIC_NUMBER
  size : w.field base .size = g.size
  ref_count : w.field base .ref_count = s.busy.length
  max_refs : w.field base .max_refs = g.cap
  freelist_buffer : w.field base .freelist_buffer = base + 64
  allocable_buffer : w.field base .allocable_buffer = base + 64 + g.cap
  start : w.field base .freelist_start_index = s.order.headD NON_EXISTANT
  stop : w.field base .freelist_end_index = s.order.getLastD NON_EXISTANT
  links : Links (w.buf (base + 64) · .next_index) (w.buf (base + 64) · .prev_index)
    NON_EXISTANT s.order NON_EXISTANT
  free : ∀ i ∈ s.free, w.buf (base + 64) i .is_free = SLOT_FREE
  busy : ∀ i ∈ s.busy, w.buf (base + 64) i .is_free = SLOT_BUSY

namespace Rep

variable {w w' : World} {g : Shape} {base : ℕ} {s : Slots g.cap}

/-- A slab is known by the bytes of its header, the links apart, and of its entries. -/
theorem congr (h : Rep w g base s) (hp : w'.Page base)
    (hmem : ∀ a, base ≤ a → a < base + 64 + 5 * g.cap → a < base + 48 ∨ base + 64 ≤ a →
      w'.mem a = w.mem a) : Rep w' g base s := by
  have hf : ∀ f, f ≠ .next → f ≠ .prev → w'.field base f = w.field base f := fun f h1 h2 =>
    field_congr_unlinked h1 h2 fun a h3 h4 => hmem a h3 (by omega) (.inl h4)
  have hb : ∀ i ∈ s.order, ∀ f, w'.buf (base + 64) i f = w.buf (base + 64) i f := by
    intro i hi f
    have := Slots.mem_order.mp hi
    exact buf_congr fun a h1 h2 => hmem a (by omega) (by omega) (.inr (by omega))
  refine ⟨hp, h.low, h.high, ?_, ?_, ?_, ?_, ?_, ?_, ?_, ?_, ?_, ?_, ?_⟩
  · rw [hf _ (by decide) (by decide), h.slab_magic]
  · rw [hf _ (by decide) (by decide), h.size]
  · rw [hf _ (by decide) (by decide), h.ref_count]
  · rw [hf _ (by decide) (by decide), h.max_refs]
  · rw [hf _ (by decide) (by decide), h.freelist_buffer]
  · rw [hf _ (by decide) (by decide), h.allocable_buffer]
  · rw [hf _ (by decide) (by decide), h.start]
  · rw [hf _ (by decide) (by decide), h.stop]
  · exact h.links.congr (fun y hy => hb y hy _) (fun y hy => hb y hy _)
  · intro i hi
    rw [hb i (List.mem_append_left _ hi), h.free i hi]
  · intro i hi
    rw [hb i (List.mem_append_right _ hi), h.busy i hi]

/-- The entries of the slots are accessible. -/
theorem entry (h : Rep w g base s) {i : ℕ} (hi : i < g.cap) : w.Entry (base + 64) i :=
  h.page.entry (g.entry_fits hi)

/-- The two tests for a full slab agree. -/
theorem full_iff (h : Rep w g base s) :
    w.field base .ref_count = w.field base .max_refs ↔ s.free = [] := by
  rw [h.ref_count, h.max_refs, Slots.busy_length_eq]

/-- No slot index is the end mark. -/
theorem nonExistant_not_mem : NON_EXISTANT ∉ s.order := by
  intro h
  have h1 := Slots.mem_order.mp h
  have h2 := g.cap_le
  unfold NON_EXISTANT at h1
  omega

theorem slot_lt (h : Rep w g base s) {i : ℕ} (hi : i < g.cap) :
    g.slot base i + g.size ≤ 2 ^ 64 := by
  have h1 := g.slot_in_page (b := base) hi
  have h2 := h.high
  omega

/-- A slot is on the page of its slab. -/
theorem page_of_slot (h : Rep w g base s) {i : ℕ} (hi : i < g.cap) :
    get_page_pointer (g.slot base i) = base := by
  have h1 := h.slot_lt hi
  have h2 := g.size_pos
  rw [get_page_pointer_eq (by omega)]
  exact g.pageOf_slot (k := 0) h.page.2 hi g.size_pos

end Rep

end SlabAllocator
