/-
Releasing a slot that is free already.

`mem_slab_dealloc` looks at the flag of the slot in an assertion only. The free
slots are the front of the list, so a free slot is the first one or follows a
free one, and the call returns early on either: it leaves the list alone and
has only taken one off `ref_count`. From there on the slab counts one object
less than it holds (`Miscounted`).

What follows depends on what else the slab holds. With one object the count is
zero, and the pool may unmap the page with the object on it. With any other
number the slab is never full to the pool, which tests the count, and is full
to `mem_slab_alloc`, which tests the flag: once its free slots are handed out
the pool answers `NULL` to every request, however many slabs have room.
-/
import SlabAllocator.PoolRuns
import SlabAllocator.SlabRuns
import SlabAllocator.CheckedRuns

set_option autoImplicit false

open ByteMem DoublyLinked Runs

namespace SlabAllocator

/-! ## A slab with a wrong count -/

section Slab

variable {w w' : World} {g : Shape} {base x k c : ℕ} {s s' : Slots g.cap}

/-- A slab is known by the fields of its header, the links apart, and of its entries. -/
theorem Rep.congr_fields (h : Rep w g base s) (hp : w'.Page base)
    (hf : ∀ f, f ≠ .next → f ≠ .prev → w'.field base f = w.field base f)
    (hb : ∀ i < g.cap, ∀ f, w'.buf (base + 64) i f = w.buf (base + 64) i f) :
    Rep w' g base s := by
  have hord : ∀ i ∈ s.order, ∀ f, w'.buf (base + 64) i f = w.buf (base + 64) i f :=
    fun i hi => hb i (Slots.mem_order.mp hi)
  refine ⟨hp, h.low, h.high, ?_, ?_, ?_, ?_, ?_, ?_, ?_, ?_, ?_, ?_, ?_⟩
  · rw [hf _ (by decide) (by decide), h.slab_magic]
  · rw [hf _ (by decide) (by decide), h.size]
  · rw [hf _ (by decide) (by decide), h.ref_count]
  · rw [hf _ (by decide) (by decide), h.max_refs]
  · rw [hf _ (by decide) (by decide), h.freelist_buffer]
  · rw [hf _ (by decide) (by decide), h.allocable_buffer]
  · rw [hf _ (by decide) (by decide), h.start]
  · rw [hf _ (by decide) (by decide), h.stop]
  · exact h.links.congr (fun y hy => hord y hy _) (fun y hy => hord y hy _)
  · intro i hi
    rw [hb i (Slots.free_lt hi), h.free i hi]
  · intro i hi
    rw [hb i (Slots.busy_lt hi), h.busy i hi]

/-- The page at `base` is a slab but for its count, which is one less than it should be, in
32 bits. -/
structure Miscounted (w : World) (g : Shape) (base : ℕ) (s : Slots g.cap) : Prop where
  rep : Rep (w.setField base .ref_count s.busy.length) g base s
  count : w.field base .ref_count = (s.busy.length + (2 ^ 32 - 1)) % 2 ^ 32

/-- The indices `mem_slab_alloc` reads on a slab with room. -/
theorem Rep.alloc_reads {f : ℕ} (h : Rep w g base s) (h2 : 2 ≤ g.cap)
    (ha : s.alloc = some (f, s')) :
    ∃ b e, f < g.cap ∧ b < g.cap ∧ e < g.cap ∧ w.field base .freelist_start_index = f
      ∧ w.field base .freelist_end_index = e ∧ w.buf (base + 64) f .is_free = SLOT_FREE
      ∧ w.buf (base + 64) f .next_index = b ∧ w.buf (base + 64) f .prev_index = NON_EXISTANT := by
  obtain ⟨hfree, -⟩ := Slots.alloc_some ha
  have hord : s.order = f :: (s'.free ++ s.busy) := by rw [Slots.order, hfree, List.cons_append]
  have hlt : ∀ i ∈ s.order, i < g.cap := fun i hi => Slots.mem_order.mp hi
  have hne : s'.free ++ s.busy ≠ [] := Slots.rest_ne_nil hfree h2
  have hlinks := h.links
  rw [hord, links_cons] at hlinks
  refine ⟨_, _, ?_, ?_, ?_, ?_, rfl, h.free f (by simp [hfree]), hlinks.2.1, hlinks.1⟩
  · exact hlt f (by simp [hord])
  · exact hlt _ (by rw [hord]; exact List.mem_cons_of_mem _ (headD_mem hne))
  · rw [h.stop]
    exact hlt _ (getLastD_mem s.order_ne_nil)
  · rw [h.start, hord, List.headD_cons]

/-- `mem_slab_alloc` does not look at the count: it hands out the first free slot, and the
count stays one behind. -/
theorem mem_slab_alloc_miscounted {f : ℕ} (h : Miscounted w g base s) (h2 : 2 ≤ g.cap)
    (ha : s.alloc = some (f, s')) :
    ∃ w', mem_slab_alloc base w = .ok (g.slot base f, w') ∧ Miscounted w' g base s'
      ∧ Within base (base + 64 + 5 * g.cap) w w'
      ∧ w'.field base .next = w.field base .next ∧ w'.field base .prev = w.field base .prev := by
  have hcap := g.cap_le
  obtain ⟨b, e, hf, hb, he, hstart, hstop, hflag, hnext, hprev⟩ := h.rep.alloc_reads h2 ha
  obtain ⟨w₂, hrun₂, hrep₂, -⟩ := mem_slab_alloc_spec h.rep h2 ha
  have hsl := h.rep.slot_lt hf
  have hsz := g.size_pos
  have hbuf := h.rep.freelist_buffer
  have hallo := h.rep.allocable_buffer
  have hsize := h.rep.size
  rw [mem_slab_alloc_run h.rep.page hbuf hstart hstop hflag hnext hprev (h.rep.entry hf)
    (h.rep.entry hb) (h.rep.entry he), Except.ok.injEq, Prod.mk.injEq] at hrun₂
  obtain ⟨-, rfl⟩ := hrun₂
  -- the same reads in the world as it is
  rw [field_setField_ne (by decide)] at hstart hstop hbuf hallo hsize
  rw [buf_setField] at hflag hnext hprev
  refine ⟨w.handOut base f b e, ?_, ⟨?_, ?_⟩, within_handOut hf hb he,
    field_handOut (by decide) (by decide) (by decide),
    field_handOut (by decide) (by decide) (by decide)⟩
  · have hp : w.Page base := h.rep.page
    have hent : ∀ i < g.cap, w.Entry (base + 64) i := fun i hi => hp.entry (g.entry_fits hi)
    rw [mem_slab_alloc_run hp hbuf hstart hstop hflag hnext hprev (hent f hf) (hent b hb)
      (hent e he), hallo, hsize, ptr_add_eq]
    · rfl
    · unfold Shape.slot at hsl
      omega
  · have hp : ((w.handOut base f b e).setField base .ref_count s'.busy.length).Page base :=
      ⟨h.rep.page.1, h.rep.page.2⟩
    refine hrep₂.congr_fields hp (fun c h1 h2 => ?_) fun i hi c => ?_
    · by_cases hc : c = .ref_count
      · subst hc
        have hlen := s'.length_order
        rw [field_setField_same, hrep₂.ref_count]
        exact Nat.mod_eq_of_lt (by simp only [SlabField.width]; omega)
      rw [field_setField_ne hc]
      by_cases hstart : c = .freelist_start_index
      · rw [hstart, start_handOut (by omega), start_handOut (by omega)]
      by_cases hstop : c = .freelist_end_index
      · rw [hstop, stop_handOut (by omega), stop_handOut (by omega)]
      · rw [field_handOut hc hstart hstop, field_handOut hc hstart hstop, field_setField_ne hc]
    · rw [buf_setField]
      cases c with
      | next_index => rw [next_handOut (by omega), next_handOut (by omega), buf_setField]
      | prev_index => rw [prev_handOut (by omega), prev_handOut (by omega), buf_setField]
      | is_free => rw [free_handOut, free_handOut, buf_setField]
  · have hbusy := (Slots.alloc_some ha).2
    rw [count_handOut, h.count, hbusy, List.length_append, List.length_singleton]
    omega

end Slab

/-! ## A pool whose first slab counts one object too few -/

/-- The pool `pool` has the slabs `x :: rest`, and the count of `x` is one behind. -/
structure MiscountedFirst (w : World) (g : Shape) (pool : slab_pool) (x : PoolSlab g.cap)
    (rest : List (PoolSlab g.cap)) : Prop where
  list : SlabList (w.setField x.base .ref_count x.slots.busy.length) g pool.list_start
    pool.list_end (x :: rest)
  count : w.field x.base .ref_count = (x.slots.busy.length + (2 ^ 32 - 1)) % 2 ^ 32

section Pool

variable {w : World} {g : Shape} {pool : slab_pool} {x : PoolSlab g.cap}
  {rest : List (PoolSlab g.cap)} {f : ℕ} {s' : Slots g.cap}

theorem MiscountedFirst.slab (h : MiscountedFirst w g pool x rest) :
    Miscounted w g x.base x.slots := ⟨h.list.slabs x List.mem_cons_self, h.count⟩

/-- To the pool such a slab is never full. -/
theorem MiscountedFirst.is_full (h : MiscountedFirst w g pool x rest) :
    SlabAllocator.is_full pool.list_start w = .ok (false, w) := by
  have hr := h.slab.rep
  have hp : w.Page x.base := hr.page
  have hcap := g.cap_le
  have hpos := g.cap_pos
  have hlen := x.slots.length_order
  have hmax := hr.max_refs
  rw [field_setField_ne (by decide)] at hmax
  have hne : ¬ (x.slots.busy.length + (2 ^ 32 - 1)) % 2 ^ 32 = g.cap := by omega
  unfold SlabAllocator.is_full
  rw [h.list.head, slab_get_bind hp, slab_get_bind hp, h.count, hmax, pure_run,
    decide_eq_false hne]

/-- While it has a free slot it serves. -/
theorem MiscountedFirst.serve (h : MiscountedFirst w g pool x rest) (h2 : 2 ≤ g.cap) (os : Os)
    (ha : x.slots.alloc = some (f, s')) :
    ∃ pool' w', slab_pool_allocate os pool w = .ok ((pool', g.slot x.base f), w')
      ∧ MiscountedFirst w' g pool' ⟨x.base, s'⟩ rest ∧ w'.mapped = w.mapped
      ∧ w'.calls = w.calls := by
  have hcap := g.cap_le
  obtain ⟨w', hrun, hmis, hw, hn, hp⟩ := mem_slab_alloc_miscounted h.slab h2 ha
  refine ⟨{ pool with data :=
      { pool.data with allocation_count := pool.data.allocation_count + 1 } }, w', ?_,
    ⟨h.list.update (l := []) ⟨fun a hout => ?_, hw.mapped, hw.heap, hw.calls⟩ hmis.rep ?_ ?_,
      hmis.count⟩, hw.mapped, hw.calls⟩
  · unfold slab_pool_allocate
    rw [bind_ok h.is_full]
    simp only [Bool.not_false, if_true]
    rw [h.list.head, bind_ok hrun, pure_run]
  · rw [setField_mem, setField_mem, hw.mem a hout]
    all_goals
      simp only [SlabField.offset, SlabField.width]
      omega
  · rw [field_setField_ne (by decide), field_setField_ne (by decide), hn]
  · rw [field_setField_ne (by decide), field_setField_ne (by decide), hp]

/-- When it has none the answer is `NULL`, whatever the other slabs are. -/
theorem MiscountedFirst.starve (h : MiscountedFirst w g pool x rest) (os : Os)
    (ha : x.slots.free = []) :
    ∃ pool', slab_pool_allocate os pool w = .ok ((pool', NULL), w)
      ∧ MiscountedFirst w g pool' x rest := by
  have hr := h.slab.rep
  have hp : w.Page x.base := hr.page
  have hmem : x.slots.order.headD NON_EXISTANT ∈ x.slots.order := headD_mem x.slots.order_ne_nil
  have hbusy : x.slots.order.headD NON_EXISTANT ∈ x.slots.busy := by
    rw [Slots.order, ha, List.nil_append] at hmem ⊢
    exact hmem
  have hstart := hr.start
  have hbuf := hr.freelist_buffer
  have hflag := hr.busy _ hbusy
  rw [field_setField_ne (by decide)] at hstart hbuf
  rw [buf_setField] at hflag
  refine ⟨{ pool with data :=
      { pool.data with allocation_count := pool.data.allocation_count + 1 } }, ?_, h.list,
    h.count⟩
  unfold slab_pool_allocate
  rw [bind_ok h.is_full]
  simp only [Bool.not_false, if_true]
  rw [h.list.head, bind_ok (mem_slab_alloc_busy hp hbuf hstart
    (hp.entry (g.entry_fits (Slots.busy_lt hbusy))) (by rw [hflag]; decide)), pure_run]

end Pool

/-- `n` allocations in a row, and what they answer. -/
def allocate_times (os : ℕ → Os) : ℕ → slab_pool → M (slab_pool × List ℕ)
  | 0, pool => pure (pool, [])
  | n + 1, pool => do
      let r ← allocate_times os n pool
      let r' ← slab_pool_allocate (os n) r.1
      return (r'.1, r.2 ++ [r'.2])

/-- **Starvation.** The first slab hands out its free slots in order, and then every answer is
`NULL`; the kernel is not asked. -/
theorem MiscountedFirst.allocate_times {w : World} {g : Shape} {pool : slab_pool}
    {x : PoolSlab g.cap} {rest : List (PoolSlab g.cap)} (h : MiscountedFirst w g pool x rest)
    (h2 : 2 ≤ g.cap) (os : ℕ → Os) (n : ℕ) :
    ∃ pool' w' s', SlabAllocator.allocate_times os n pool w
        = .ok ((pool', (x.slots.free.take n).map (g.slot x.base)
          ++ List.replicate (n - x.slots.free.length) NULL), w')
      ∧ MiscountedFirst w' g pool' ⟨x.base, s'⟩ rest ∧ s'.free = x.slots.free.drop n
      ∧ w'.mapped = w.mapped ∧ w'.calls = w.calls := by
  induction n with
  | zero => exact ⟨pool, w, x.slots, by simp [SlabAllocator.allocate_times], h, rfl, rfl, rfl⟩
  | succ n ih =>
      obtain ⟨pool₁, w₁, s₁, hrun₁, h₁, hfree₁, hm₁, hc₁⟩ := ih
      rw [SlabAllocator.allocate_times, bind_ok hrun₁]
      rcases Nat.lt_or_ge n x.slots.free.length with hn | hn
      -- a slot is left, the one at place `n`
      · rw [List.drop_eq_getElem_cons hn] at hfree₁
        obtain ⟨s₂, ha, hfree₂, -⟩ := Slots.alloc_cons hfree₁
        obtain ⟨pool₂, w₂, hrun₂, h₂, hm₂, hc₂⟩ := h₁.serve h2 (os n) ha
        refine ⟨pool₂, w₂, s₂, ?_, h₂, hfree₂, hm₂.trans hm₁, hc₂.trans hc₁⟩
        rw [bind_ok hrun₂, pure_run, Nat.sub_eq_zero_of_le hn, Nat.sub_eq_zero_of_le hn.le,
          List.take_succ_eq_append_getElem hn]
        simp only [List.map_append, List.map_cons, List.map_nil, List.replicate_zero,
          List.append_nil]
      · rw [List.drop_eq_nil_of_le hn] at hfree₁
        obtain ⟨pool₂, hrun₂, h₂⟩ := h₁.starve (os n) hfree₁
        refine ⟨pool₂, w₁, s₁, ?_, h₂, ?_, hm₁, hc₁⟩
        · rw [bind_ok hrun₂, pure_run, List.take_of_length_le hn, List.take_of_length_le (by omega),
            Nat.succ_sub hn, List.replicate_succ', List.append_assoc]
        · rw [hfree₁, List.drop_eq_nil_of_le (by omega)]

/-! ## Releasing a free slot of a pool -/

section Release

variable {w : World} {g : Shape} {size i k : ℕ} {pool : slab_pool} {l r : List (PoolSlab g.cap)}
  {x : PoolSlab g.cap}

/-- The first slab of a chain is lonely when it is the only one. -/
theorem Chain.is_lonely {b : ℕ} {bs : List ℕ} (h : Chain w (b :: bs)) :
    SlabAllocator.is_lonely b w = .ok (decide (bs = []), w) := by
  have hp := h.page b List.mem_cons_self
  obtain ⟨hprev, hnext, -⟩ := links_cons.mp h.links
  unfold SlabAllocator.is_lonely
  rw [slab_get_bind hp, hnext]
  rcases bs with _ | ⟨c, bs⟩
  · rw [List.headD_nil, if_pos rfl, slab_get_bind hp, hprev]
    rfl
  · have hc : c ≠ NULL := h.ne_null (by simp)
    rw [List.headD_cons, if_neg hc]
    rfl

end Release

/-! ## What the assertions say -/

end SlabAllocator
