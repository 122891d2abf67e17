/-
What one allocation from a pool shows to somebody who reads the pages.

`PoolRep` says what the pages of a pool are before and after the call, and
`AllocWrites` which bytes the call may write. Put together they say that the
call is local: one slot of one slab becomes busy, the free list of that slab
loses its head, and any other slab of the pool keeps every byte of its page but
those of its two links. The slab is an old one or, if the two slabs the
allocator looks at are full, the first of the new mapping.
-/
import SlabAllocator.PoolRuns
import SlabAllocator.SlabRuns

set_option autoImplicit false

open DoublyLinked Runs

namespace SlabAllocator

/-! ## The slots in use -/

/-- Slot `i` of the slab `b` of the pool is in use. -/
def World.LiveSlot (w : World) (pool : slab_pool) (b i : ℕ) : Prop :=
  b ∈ w.slabs pool ∧ i < w.field b .max_refs ∧ w.buf (b + 64) i .is_free = SLOT_BUSY

section LiveSlots

variable {w : World} {g : Shape} {size : ℕ} {pool : slab_pool} {xs ys : List (PoolSlab g.cap)}

theorem PoolRep.mem_slabs (h : PoolRep w g size pool xs) {b : ℕ} :
    b ∈ w.slabs pool ↔ ∃ x ∈ xs, x.base = b := by
  rw [h.slabs_eq]
  exact List.mem_map

/-- The flags in the pages are the busy slots of the model. -/
theorem PoolRep.liveSlot_iff (h : PoolRep w g size pool xs) {b i : ℕ} :
    w.LiveSlot pool b i ↔ ∃ x ∈ xs, x.base = b ∧ i ∈ x.slots.busy := by
  unfold World.LiveSlot
  rw [h.mem_slabs]
  constructor
  · rintro ⟨⟨x, hx, rfl⟩, hi, hb⟩
    have hr := h.list.slabs x hx
    rw [hr.max_refs] at hi
    exact ⟨x, hx, rfl, (hr.freeList.busy_iff i hi).mp hb⟩
  · rintro ⟨x, hx, rfl, hi⟩
    have hr := h.list.slabs x hx
    exact ⟨⟨x, hx, rfl⟩, by rw [hr.max_refs]; exact Slots.busy_lt hi, hr.busy i hi⟩

/-- Two slabs of a pool on one page are one slab. -/
theorem SlabList.eq_of_base {start stop : ℕ} (h : SlabList w g start stop xs)
    {x y : PoolSlab g.cap} (hx : x ∈ xs) (hy : y ∈ xs) (he : x.base = y.base) : x = y :=
  List.inj_on_of_nodup_map h.nodup hx hy he

/-- The busy slots of the arranged list are those of the list. -/
theorem mem_arrange_busy (a : ℕ) (xs : List (PoolSlab g.cap)) {b i : ℕ} :
    (∃ x ∈ arrange a xs, x.base = b ∧ i ∈ x.slots.busy)
      ↔ ∃ x ∈ xs, x.base = b ∧ i ∈ x.slots.busy := by
  by_cases hg : Grows xs
  · rw [arrange_of_grows a hg]
    constructor
    · rintro ⟨x, hx, hb, hi⟩
      rcases List.mem_append.mp hx with hx | hx
      · -- a new slab has no busy slot
        obtain ⟨c, -, rfl⟩ := List.mem_map.mp hx
        cases hi
      · exact ⟨x, (List.rotate_perm xs 2).mem_iff.mp hx, hb, hi⟩
    · rintro ⟨x, hx, hb, hi⟩
      exact ⟨x, List.mem_append_right _ ((List.rotate_perm xs 2).mem_iff.mpr hx), hb, hi⟩
  · have hp := arrange_of_not_grows a hg
    constructor
    · rintro ⟨x, hx, hb⟩
      exact ⟨x, hp.mem_iff.mp hx, hb⟩
    · rintro ⟨x, hx, hb⟩
      exact ⟨x, hp.mem_iff.mpr hx, hb⟩

/-- An allocation makes one slot busy. -/
theorem mem_allocate_busy {a b f c i : ℕ} (h : allocate a xs = some (b, f, ys)) :
    (∃ x ∈ ys, x.base = c ∧ i ∈ x.slots.busy)
      ↔ (∃ x ∈ xs, x.base = c ∧ i ∈ x.slots.busy) ∨ c = b ∧ i = f := by
  obtain ⟨x, rest, s', he, rfl, ha, rfl⟩ := serve_some h
  have hbusy := (Slots.alloc_some ha).2
  rw [← mem_arrange_busy a xs, he]
  simp only [List.exists_mem_cons_iff, hbusy, List.mem_append, List.mem_singleton]
  constructor
  · rintro (⟨rfl, hi | rfl⟩ | hr)
    · exact .inl (.inl ⟨rfl, hi⟩)
    · exact .inr ⟨rfl, rfl⟩
    · exact .inl (.inr hr)
  · rintro ((⟨rfl, hi⟩ | hr) | ⟨rfl, rfl⟩)
    · exact .inl ⟨rfl, .inl hi⟩
    · exact .inr hr
    · exact .inl ⟨rfl, .inr rfl⟩

end LiveSlots

/-! ## One allocation -/

/-- The allocation that led from `w` and `pool` to `w'` and `pool'` answered `p`, which is
slot `i` of the slab `s`: that slot was free, no other slot changed its state, the free
list of `s` lost its head `i`, and what the pool had besides `s` kept its bytes, the links
apart. -/
structure ServedFrom (w : World) (pool : slab_pool) (w' : World) (pool' : slab_pool)
    (p s i : ℕ) : Prop where
  owner : get_page_pointer p = s ∧ s ∈ w'.slabs pool'
  slot : i < w'.field s .max_refs ∧ p = w'.slotPtr s i
  was_free : ¬ w.LiveSlot pool s i
  live : ∀ b j, w'.LiveSlot pool' b j ↔ w.LiveSlot pool b j ∨ b = s ∧ j = i
  old : s ∈ w.slabs pool → ∃ F B, FreeList w s (w.field s .max_refs) (i :: F) B
    ∧ FreeList w' s (w.field s .max_refs) F (B ++ [i])
  new : s ∉ w.slabs pool → s ∉ w.mapped ∧ ∃ F, List.range (w'.field s .max_refs) = i :: F
    ∧ FreeList w' s (w'.field s .max_refs) F [i]
  kept : ∀ b ∈ w.slabs pool, b ∈ w'.slabs pool'
  frame : ∀ b ∈ w.slabs pool, b ≠ s → ∀ a, b ≤ a → a < b + 4096 →
    a < b + 48 ∨ b + 64 ≤ a → w'.mem a = w.mem a

section Serve

variable {w w' : World} {g : Shape} {size : ℕ} {pool pool' : slab_pool} {os : Os}
  {xs ys : List (PoolSlab g.cap)} {b f : ℕ}

/-- An allocation writes no byte of another slab of the pool but those of its links. -/
theorem AllocWrites.frame (hw : AllocWrites g b (bases xs) (newPages os.mmap xs) w w')
    (h : PoolRep w g size pool xs) (hf : Grows xs → MmapFresh w os.mmap POOL_GROW_RATE)
    (hb : b % 4096 = 0) {c : ℕ} (hc : c ∈ bases xs) (hne : c ≠ b) {a : ℕ} (h1 : c ≤ a)
    (h2 : a < c + 4096) (h3 : a < c + 48 ∨ c + 64 ≤ a) : w'.mem a = w.mem a := by
  have hcap := g.cap_le
  have hch := h.list.chain
  have hcal := hch.aligned c hc
  have hc64 := hch.high c hc
  refine hw.mem a (fun d hd => ?_) (by omega) fun hnew => ?_
  · have hdal := hch.aligned d hd
    by_cases hdc : d = c
    · rw [hdc]
      exact h3
    · omega
  · rw [Nat.mod_eq_of_lt (by omega), pageOf_eq hcal h1 h2] at hnew
    -- new pages exist only if the pool grew, and are not mapped before
    have hg : Grows xs := by
      by_contra hg
      rw [newPages, if_neg hg] at hnew
      cases hnew
    have hfr := hf hg
    obtain ⟨i, hi, he⟩ := mem_pages.mp (newPages_subset c hnew)
    have := hfr.mapped c (hch.page c hc).1
    unfold SLAB_PAGE_SIZE POOL_GROW_RATE at this
    unfold POOL_GROW_RATE at hi
    omega

/-- A slab that served a request and was not in the list is the first one of a growth. -/
theorem serve_new {x : PoolSlab g.cap} {rest : List (PoolSlab g.cap)}
    (he : arrange os.mmap xs = x :: rest) (hout : x.base ∉ bases xs) :
    Grows xs ∧ x = PoolSlab.fresh g.cap os.mmap := by
  by_cases hg : Grows xs
  · rw [arrange_of_grows os.mmap hg] at he
    cases he
    exact ⟨hg, rfl⟩
  · have hx : x ∈ xs := (arrange_of_not_grows os.mmap hg).mem_iff.mp (he ▸ List.mem_cons_self)
    exact absurd (List.mem_map_of_mem hx) hout

/-- A slab that served a request and was in the list is that slab of the list. -/
theorem serve_old {x : PoolSlab g.cap}
    {rest : List (PoolSlab g.cap)} (he : arrange os.mmap xs = x :: rest)
    (hnd : (bases (x :: rest)).Nodup) (hin : x.base ∈ bases xs) : x ∈ xs := by
  obtain ⟨y, hy, hb⟩ := List.mem_map.mp hin
  have hmem : y ∈ x :: rest := by
    rw [← he]
    by_cases hg : Grows xs
    · rw [arrange_of_grows os.mmap hg]
      exact List.mem_append_right _ ((List.rotate_perm xs 2).mem_iff.mpr hy)
    · exact (arrange_of_not_grows os.mmap hg).mem_iff.mpr hy
  exact List.inj_on_of_nodup_map hnd hmem List.mem_cons_self hb ▸ hy

/-- The spec of `slab_pool_allocate`, read from the pages. -/
theorem ServedFrom.of_allocate (h : PoolRep w g size pool xs)
    (hf : Grows xs → MmapFresh w os.mmap POOL_GROW_RATE)
    (ha : allocate os.mmap xs = some (b, f, ys)) (h' : PoolRep w' g size pool' ys)
    (hw : AllocWrites g b (bases xs) (newPages os.mmap xs) w w') :
    ServedFrom w pool w' pool' (g.slot b f) b f := by
  have hlive := fun c j => (h'.liveSlot_iff (b := c) (i := j)).trans (mem_allocate_busy ha)
  have hsub : ∀ c ∈ bases xs, c ∈ bases ys := fun c hc =>
    (bases_allocate ha).mem_iff.mpr (List.mem_append_left _ hc)
  obtain ⟨x, rest, s', he, rfl, halloc, rfl⟩ := serve_some ha
  obtain ⟨hfree, hbusy⟩ := Slots.alloc_some halloc
  have hr' := h'.list.slabs _ List.mem_cons_self
  have hnd : (bases (x :: rest)).Nodup := h'.list.nodup
  have hlt : f < g.cap := Slots.free_lt (s := x.slots) (by rw [hfree]; exact List.mem_cons_self)
  refine ⟨⟨?_, h'.mem_slabs.mpr ⟨_, List.mem_cons_self, rfl⟩⟩,
    ⟨by rw [hr'.max_refs]; exact hlt, (hr'.slotPtr_eq f).symm⟩, ?_, fun c j => ?_, fun hold => ?_,
    fun hnew => ?_, fun c hc => ?_, fun c hc hne a h1 h2 h3 => ?_⟩
  · exact hr'.page_of_slot hlt
  · -- the slot is free in the slab that serves, and no other slab is on its page
    rw [h.liveSlot_iff]
    rintro ⟨y, hy, hb, hi⟩
    have hx := serve_old he hnd (hb ▸ List.mem_map_of_mem hy)
    rw [h.list.eq_of_base hy hx hb] at hi
    exact Slots.not_mem_busy (by rw [hfree]; exact List.mem_cons_self) hi
  · rw [h.liveSlot_iff]
    exact hlive c j
  · rw [h.slabs_eq] at hold
    -- an old slab: its free list was `f :: s'.free`
    have hr := h.list.slabs x (serve_old he hnd hold)
    refine ⟨s'.free, x.slots.busy, ?_, ?_⟩
    · rw [hr.max_refs, ← hfree]
      exact hr.freeList
    · rw [hr.max_refs, ← hbusy]
      exact hr'.freeList
  · rw [h.slabs_eq] at hnew
    -- a new slab: every slot was free, in index order
    obtain ⟨hg, rfl⟩ := serve_new he hnew
    refine ⟨fun hm => ?_, s'.free, ?_, ?_⟩
    · have := (hf hg).mapped _ hm
      unfold SLAB_PAGE_SIZE POOL_GROW_RATE at this
      simp only [PoolSlab.fresh] at this
      omega
    · rw [hr'.max_refs]
      exact hfree
    · rw [hr'.max_refs]
      have hfl := hr'.freeList
      rw [hbusy] at hfl
      exact hfl
  · rw [h.slabs_eq] at hc
    rw [h'.slabs_eq]
    exact hsub c hc
  · rw [h.slabs_eq] at hc
    exact hw.frame h hf hr'.page.2 hc hne h1 h2 h3

end Serve

end SlabAllocator
