/-
What `smalloc`, `sfree` and `srealloc` do to the allocator in use, one theorem for
each path through each of them.

Every theorem has the same parts: the call succeeds with the given answer, the
invariant holds of the buffers the program holds afterwards, and the bytes the
call keeps. The paths through `srealloc` are built from the others. Its copy is
the one store that could go anywhere, so the theorem about it takes from its
caller that the copy lands off the books.
-/
import SlabAllocator.Buffers

set_option autoImplicit false

open ByteMem

namespace SlabAllocator

/-! ## `smalloc` -/

section Smalloc

variable {w₀ : World} {σ : ApiState} {vs l r : List PoolView} {v : PoolView} {os : Os} {n : ℕ}

/-- **`smalloc`** from a pool. -/
theorem AllocInv.smalloc_slab (h : AllocInv w₀ σ (l ++ v :: r))
    (hl : ∀ u ∈ l, u.shape.size < n) (hn : n ≤ v.shape.size)
    (hfind : σ.pools.find? (fun pool => n ≤ pool.allocation_size) = some v.pool)
    (hf : MmapFresh σ.world os.mmap POOL_GROW_RATE) :
    ∃ b f ys pool' w',
      smalloc os σ.pools n σ.world
        = .ok (((l ++ ⟨v.shape, pool', ys⟩ :: r).map PoolView.pool, v.shape.slot b f), w')
      ∧ SlabAllocator.allocate os.mmap v.slabs = some (b, f, ys)
      ∧ w'.originOf σ.pools (v.shape.slot b f) n = .slab v.shape.size
      ∧ AllocInv w₀ ⟨w', (l ++ ⟨v.shape, pool', ys⟩ :: r).map PoolView.pool,
          ⟨v.shape.slot b f, n, .slab v.shape.size⟩ :: σ.live⟩ (l ++ ⟨v.shape, pool', ys⟩ :: r)
      ∧ Keeps σ.world.heap (l ++ v :: r) σ.world w' ∧ NoCopy σ.world w'
      ∧ w'.heap = σ.world.heap ∧ w'.mapped = σ.world.mapped ++ newPages os.mmap v.slabs
      ∧ slab_pool_allocate os v.pool σ.world = .ok ((pool', v.shape.slot b f), w') := by
  obtain ⟨b, f, ys, pool', w', hrun, ha, hviews, hw, hm, hc⟩ := h.views.allocate hf
  have hv : v ∈ l ++ v :: r := by simp
  have hsize := h.allocation_size hv
  have hnew : ∀ p ∈ newPages os.mmap v.slabs, ∃ i < 10, p = os.mmap + i * 4096 := by
    intro p hp
    unfold newPages at hp
    split at hp
    · exact mem_pages.mp hp
    · simp at hp
  have hal := hf.aligned
  have hold := hf.mapped
  have hchunks := hf.heap
  unfold SLAB_PAGE_SIZE at hal
  unfold SLAB_PAGE_SIZE POOL_GROW_RATE at hold hchunks
  -- the chunks are those of before, and a fresh page has none
  have hheap : HeapOk w' := by
    refine ⟨hw.heap ▸ h.heap.chunk, hw.heap ▸ h.heap.apart, fun q hq c hcm => ?_⟩
    rw [hw.heap] at hcm
    rw [hm] at hq
    rcases List.mem_append.mp hq with hq | hq
    · exact h.heap.pages q hq c hcm
    · obtain ⟨i, hi, rfl⟩ := hnew q hq
      have := hchunks c hcm
      unfold SLAB_PAGE_SIZE
      omega
  -- the new object is not an object of before, and not a chunk
  have hbusy : ((l ++ ⟨v.shape, pool', ys⟩ :: r).flatMap PoolView.busy).Perm
      (v.shape.slot b f :: (l ++ v :: r).flatMap PoolView.busy) := by
    refine (flatMap_split PoolView.busy l r ⟨v.shape, pool', ys⟩).trans ?_
    refine ((busyPtrs_allocate ha).append_right _).trans ?_
    exact ((flatMap_split PoolView.busy l r v).symm).cons _
  have hv' : v.shape.slot b f ∈ PoolView.busy ⟨v.shape, pool', ys⟩ :=
    (busyPtrs_allocate ha).symm.mem_iff.mp List.mem_cons_self
  obtain ⟨m, x, k, i, -, hi, hslot, hx, hrep, -⟩ := hviews.object
    (v := ⟨v.shape, pool', ys⟩) (by simp) hv'
  have hnochunk : ∀ c ∈ w'.heap, c.1 ≠ v.shape.slot b f := by
    intro c hcm he
    have h1 := hheap.pages x.base hrep.page.1 c hcm
    have h2 := hheap.chunk c hcm
    have h3 := v.shape.slot_ge (b := x.base) (i := i)
    have h4 := v.shape.slot_in_page (b := x.base) (Slots.busy_lt hi)
    have h5 := v.shape.size_pos
    unfold SLAB_PAGE_SIZE at h1
    simp only at hslot
    omega
  refine ⟨b, f, ys, pool', w', ?_, ha, ?_, ⟨rfl, hviews, hheap, ?_⟩, ?_, ?_, hw.heap, hm,
    hrun⟩
  · rw [h.pools, List.map_append, List.map_cons, List.map_append, List.map_cons]
    refine smalloc_pool (fun u hu => ?_) (by rw [hsize]; exact hn) hrun
    obtain ⟨y, hy, rfl⟩ := List.mem_map.mp hu
    rw [h.allocation_size (by simp [hy])]
    exact hl y hy
  · rw [World.originOf, World.chunk_eq_none.mpr hnochunk, hfind, ← hsize]
    rfl
  -- a buffer already out is a chunk or a busy slot, and the new slot is neither
  · have hnotlive : v.shape.slot b f ∉ σ.live.map Buffer.ptr := by
      intro hmem
      obtain ⟨c, hc, he⟩ := List.mem_map.mp hmem
      rcases ho : c.origin with _ | s
      · exact hnochunk _ (hw.heap ▸ h.live.system c hc ho) he
      · obtain ⟨-, u, hu, -, hp⟩ := h.live.slab c hc s ho
        have hnd := hbusy.nodup_iff.mp hviews.nodup_busy
        exact (List.nodup_cons.mp hnd).1 (he ▸ List.mem_flatMap.mpr ⟨u, hu, hp⟩)
    refine ⟨List.nodup_cons.mpr ⟨hnotlive, h.live.nodup⟩, fun c hc s hs => ?_, fun c hc ho => ?_,
      fun p hp => ?_⟩
    · rcases List.mem_cons.mp hc with rfl | hc
      · cases hs
        exact ⟨hn, ⟨v.shape, pool', ys⟩, by simp, rfl, hv'⟩
      · obtain ⟨hle, u, hu, hus, hp⟩ := h.live.slab c hc s hs
        rcases List.mem_cons.mp (List.perm_middle.mem_iff.mp hu) with rfl | hu
        · exact ⟨hle, ⟨u.shape, pool', ys⟩, by simp, hus,
            (busyPtrs_allocate ha).symm.mem_iff.mp (List.mem_cons_of_mem _ hp)⟩
        · refine ⟨hle, u, List.perm_middle.symm.mem_iff.mp (List.mem_cons_of_mem _ hu), hus, hp⟩
    · rcases List.mem_cons.mp hc with rfl | hc
      · cases ho
      · exact hw.heap ▸ h.live.system c hc ho
    · rcases List.mem_cons.mp (hbusy.mem_iff.mp hp) with rfl | hp
      · exact ⟨_, List.mem_cons_self, rfl⟩
      · obtain ⟨c, hc, he⟩ := h.live.busy p hp
        exact ⟨c, List.mem_cons_of_mem _ hc, he⟩
  · intro a ho hoff
    -- the bytes on the books change only in the new pages, which nobody owned
    refine hw.mem a (hoff v hv) fun hp => ?_
    obtain ⟨i, hi, he⟩ := hnew _ hp
    rcases ho with ho | ⟨c, hcm, h1, h2⟩
    · have := hold _ ho
      omega
    · have := hchunks c hcm
      have hpage : pageOf (a % 2 ^ 64) ≤ a % 2 ^ 64
          ∧ a % 2 ^ 64 < pageOf (a % 2 ^ 64) + 4096 := by
        unfold pageOf SLAB_PAGE_SIZE
        omega
      omega
  · split at hc
    · exact .one hc (by simp)
    · exact .refl hc

/-- **`smalloc`** from the system allocator. -/
theorem AllocInv.smalloc_heap {vs : List PoolView} (h : AllocInv w₀ σ vs) (os : Os)
    (hall : ∀ v ∈ vs, v.shape.size < n) (hf : MallocFresh σ.world σ.world.heap os.malloc n) :
    ∃ w', smalloc os σ.pools n σ.world = .ok ((σ.pools, os.malloc), w')
      ∧ w'.originOf σ.pools os.malloc n = .system
      ∧ HeapCall σ.world w' ((os.malloc, n) :: σ.world.heap)
      ∧ Keeps σ.world.heap vs σ.world w' ∧ NoCopy σ.world w'
      ∧ malloc os n σ.world = .ok (os.malloc, w') := by
  have hlow := hf.low
  have hne : os.malloc ≠ NULL := by
    unfold SLAB_PAGE_SIZE at hlow
    unfold NULL
    omega
  have hrun : malloc os n σ.world = .ok (os.malloc, { σ.world with
      mem := σ.world.settle os σ.world.heap
      heap := (os.malloc, n) :: σ.world.heap
      calls := .malloc n os.malloc :: σ.world.calls }) := by
    rw [malloc, if_neg hne]
  refine ⟨_, smalloc_system (fun u hu => ?_) hrun, ?_, ⟨rfl, rfl, fun a ha hp => ?_⟩,
    fun a ha _ => settle_owned ha, .one rfl (by simp), hrun⟩
  · rw [h.pools] at hu
    obtain ⟨v, hv, rfl⟩ := List.mem_map.mp hu
    rw [h.allocation_size hv]
    exact hall v hv
  · unfold World.originOf World.chunk
    rw [List.find?_cons_of_pos (by simp)]
    rfl
  · exact settle_page ha hp

end Smalloc

/-! ## `sfree` -/

section Sfree

variable {w₀ : World} {σ : ApiState} {vs : List PoolView} {b : Buffer} {os : Os}

/-- The header at the start of an accessible page can be read, whatever is there. -/
theorem slab_get_accessible {w : World} {s : ℕ} (hs : s % 4096 = 0) (h : w.Accessible s)
    (f : SlabField) : slab_get s f w = .ok (w.field s f, w) := by
  refine load_ok fun a h1 h2 => h.of_page ?_
  have := f.fits
  rw [pageOf_eq hs (by omega) (by omega), pageOf_eq hs (le_refl s) (by omega)]

/-- The page of a buffer: aligned, and accessible. -/
theorem AllocInv.page (h : AllocInv w₀ σ vs) (hb : b ∈ σ.live) :
    get_page_pointer b.ptr % 4096 = 0 ∧ σ.world.Accessible (get_page_pointer b.ptr) := by
  have hbound := h.bounds hb
  have ho := h.owned hb (le_refl _) (by omega)
  rw [get_page_pointer_eq (by omega)]
  refine ⟨?_, ho.accessible.of_page ?_⟩
  · unfold pageOf SLAB_PAGE_SIZE
    omega
  · unfold pageOf SLAB_PAGE_SIZE
    omega

/-- The header of a buffer's slab. -/
theorem AllocInv.header (h : AllocInv w₀ σ vs) (hb : b ∈ σ.live) {c : ℕ}
    (ho : b.origin = .slab c) :
    σ.world.field (get_page_pointer b.ptr) .slab_magic = SLAB_MAGIC_NUMBER
      ∧ σ.world.field (get_page_pointer b.ptr) .size = c := by
  obtain ⟨-, v, hv, hc, hp⟩ := h.live.slab b hb c ho
  obtain ⟨m, x, k, i, -, -, -, -, hr, hpage⟩ := h.views.object hv hp
  rw [hpage]
  exact ⟨hr.slab_magic, by rw [hr.size, hc]⟩

/-- Which path `sfree` takes is up to the first word of the page. -/
theorem AllocInv.sfree_eq (h : AllocInv w₀ σ vs) (hb : b ∈ σ.live) (os : Os) :
    sfree os σ.pools b.ptr σ.world
      = if σ.world.field (get_page_pointer b.ptr) .slab_magic ≠ SLAB_MAGIC_NUMBER then
          (do
            free os b.ptr
            return σ.pools) σ.world
        else
          sfree_loop (σ.world.field (get_page_pointer b.ptr) .size) b.ptr σ.pools σ.world := by
  obtain ⟨hal, hacc⟩ := h.page hb
  unfold sfree
  rw [bind_ok (slab_get_accessible hal hacc _), ite_run, bind_ok (slab_get_accessible hal hacc _)]

/-- **`sfree`** of an object. -/
theorem AllocInv.sfree_slab (h : AllocInv w₀ σ vs) (hb : b ∈ σ.live) {c : ℕ}
    (ho : b.origin = .slab c) :
    ∃ l v r pool' ys w', vs = l ++ v :: r ∧ v.shape.size = c ∧ b.ptr ∈ v.busy
      ∧ slab_pool_deallocate v.pool b.ptr σ.world = .ok (pool', w')
      ∧ (∀ os, sfree os σ.pools b.ptr σ.world
          = .ok ((l ++ ⟨v.shape, pool', ys⟩ :: r).map PoolView.pool, w'))
      ∧ AllocInv w₀ ⟨w', (l ++ ⟨v.shape, pool', ys⟩ :: r).map PoolView.pool, σ.live.erase b⟩
          (l ++ ⟨v.shape, pool', ys⟩ :: r)
      ∧ Keeps σ.world.heap vs σ.world w' ∧ NoCopy σ.world w' ∧ w'.heap = σ.world.heap
      ∧ (∀ q ∈ w'.mapped, q ∈ σ.world.mapped)
      ∧ ∃ (m k : List (PoolSlab v.shape.cap)) (x : PoolSlab v.shape.cap) (i : ℕ),
          v.slabs = m ++ x :: k ∧ i ∈ x.slots.busy ∧ b.ptr = v.shape.slot x.base i
          ∧ ys = SlabAllocator.deallocate x.base i v.slabs := by
  obtain ⟨hle, v, hv, hc, hp⟩ := h.live.slab b hb c ho
  obtain ⟨l, r, rfl⟩ := List.append_of_mem hv
  obtain ⟨m, x, k, i, pool', w', hxs, hi, hptr, hrun, hviews, hw, hm, hcalls⟩ :=
    h.views.deallocate hp
  obtain ⟨hmagic, hsize⟩ := h.header hb ho
  have hbusy : v.busy.Perm (b.ptr :: PoolView.busy
      ⟨v.shape, pool', SlabAllocator.deallocate x.base i v.slabs⟩) := by
    have hnd := (h.views.reps v hv).list.nodup
    unfold PoolView.busy
    simp only [hptr]
    rw [hxs] at hnd ⊢
    exact busyPtrs_deallocate hnd hi
  have hsub : ∀ q ∈ w'.mapped, q ∈ σ.world.mapped := by
    intro q hq
    rw [hm] at hq
    split at hq
    · exact List.mem_of_mem_erase hq
    · exact hq
  refine ⟨l, v, r, pool', _, w', rfl, hc, hp, hrun, fun os => ?_, ⟨rfl, hviews, ?_, ?_⟩, ?_, ?_,
    hw.heap, hsub, m, k, x, i, hxs, hi, hptr, rfl⟩
  · rw [h.sfree_eq hb, if_neg (not_not.mpr hmagic), hsize, h.pools, List.map_append, List.map_cons,
      List.map_append, List.map_cons]
    have hdist := h.views.distinct
    rw [List.map_append, List.map_cons, List.nodup_append] at hdist
    refine sfree_loop_pool (fun u hu => ?_) (by rw [h.allocation_size hv, hc]) hrun
    obtain ⟨y, hy, rfl⟩ := List.mem_map.mp hu
    rw [h.allocation_size (by simp [hy]), ← hc]
    exact hdist.2.2 _ (List.mem_map_of_mem hy) _ List.mem_cons_self
  · refine ⟨hw.heap ▸ h.heap.chunk, hw.heap ▸ h.heap.apart, fun q hq d hd => ?_⟩
    rw [hw.heap] at hd
    exact h.heap.pages q (hsub q hq) d hd
  · have hother : ∀ u ∈ l ++ v :: r, u = v ∨ u ∈ l ++ r := fun u hu =>
      List.mem_cons.mp (List.perm_middle.mem_iff.mp hu)
    have hall := (flatMap_split PoolView.busy l r v).trans (hbusy.append_right _)
    have hsplit' := flatMap_split PoolView.busy l r
      ⟨v.shape, pool', SlabAllocator.deallocate x.base i v.slabs⟩
    refine ⟨h.live.nodup.sublist (List.erase_sublist.map _), fun d hd s hs => ?_,
      fun d hd hdo => hw.heap ▸ h.live.system d (List.mem_of_mem_erase hd) hdo, fun p hpm => ?_⟩
    -- another object of the same pool stays busy; the other pools are as they were
    · obtain ⟨hdle, u, hu, hus, hdp⟩ := h.live.slab d (List.mem_of_mem_erase hd) s hs
      rcases hother u hu with rfl | hu
      · refine ⟨hdle, ⟨u.shape, pool', SlabAllocator.deallocate x.base i u.slabs⟩, by simp, hus, ?_⟩
        exact (List.mem_cons.mp (hbusy.mem_iff.mp hdp)).resolve_left (h.live.ptr_ne hb hd)
      · exact ⟨hdle, u, List.perm_middle.symm.mem_iff.mp (List.mem_cons_of_mem _ hu), hus, hdp⟩
    · have hmem := hall.symm.mem_iff.mp (List.mem_cons_of_mem b.ptr (hsplit'.mem_iff.mp hpm))
      obtain ⟨d, hd, he⟩ := h.live.busy p hmem
      refine ⟨d, (List.mem_erase_of_ne ?_).mpr hd, he⟩
      rintro rfl
      have hnd := hall.nodup_iff.mp h.views.nodup_busy
      rw [List.cons_append, List.nodup_cons] at hnd
      refine hnd.1 ?_
      rw [he]
      exact hsplit'.mem_iff.mp hpm
  · exact fun a _ hoff => hw.mem a (hoff v hv) (by simp)
  · split at hcalls
    · exact .one hcalls (by simp)
    · exact .refl hcalls

/-- **`sfree`** of a chunk, in a page that does not start like a slab. -/
theorem AllocInv.sfree_heap (h : AllocInv w₀ σ vs) (hb : b ∈ σ.live) (ho : b.origin = .system)
    (hmagic : σ.world.field (get_page_pointer b.ptr) .slab_magic ≠ SLAB_MAGIC_NUMBER) (os : Os) :
    ∃ w', sfree os σ.pools b.ptr σ.world = .ok (σ.pools, w')
      ∧ HeapCall σ.world w' (σ.world.heap.erase (b.ptr, b.size))
      ∧ Keeps (σ.world.heap.erase (b.ptr, b.size)) vs σ.world w' ∧ NoCopy σ.world w' := by
  have hchunk := h.heap.chunk_eq (h.live.system b hb ho)
  refine ⟨{ σ.world with
      mem := σ.world.settle os (σ.world.heap.erase (b.ptr, b.size))
      heap := σ.world.heap.erase (b.ptr, b.size)
      calls := .free b.ptr :: σ.world.calls }, ?_, ⟨rfl, rfl, fun a ha hp => settle_page ha hp⟩,
    fun a ha _ => settle_owned ha, .one (c := .free b.ptr) rfl (by simp)⟩
  rw [h.sfree_eq hb, if_pos hmagic, bind_run, free, hchunk]
  rfl

end Sfree

/-! ## `srealloc` -/

/-- From `w` to `w'` the only `memcpy` was of `n` bytes from `src` to `dst`. -/
def CopyOnly (dst src n : ℕ) (w w' : World) : Prop :=
  ∃ cs, w'.calls = cs ++ w.calls ∧ ∀ c ∈ cs, ∀ d s k, c = .memcpy d s k → d = dst ∧ s = src ∧ k = n

theorem NoCopy.copyOnly {w w' : World} (h : NoCopy w w') (dst src n : ℕ) :
    CopyOnly dst src n w w' := by
  obtain ⟨cs, hc, hn⟩ := h
  exact ⟨cs, hc, fun c hcm d s k he => absurd he (hn c hcm d s k)⟩

theorem CopyOnly.trans {w w₁ w₂ : World} {dst src n : ℕ} (h : CopyOnly dst src n w w₁)
    (h' : CopyOnly dst src n w₁ w₂) : CopyOnly dst src n w w₂ := by
  obtain ⟨cs, hc, hn⟩ := h
  obtain ⟨ds, hd, hm⟩ := h'
  exact ⟨ds ++ cs, by rw [hd, hc, List.append_assoc],
    fun c hcm => (List.mem_append.mp hcm).elim (hm c) (hn c)⟩

section Srealloc

variable {w₀ : World} {σ : ApiState} {vs : List PoolView} {b : Buffer} {os : Os} {c n shift : ℕ}

/-- Which path `srealloc` takes is up to the first word of the page as well. -/
theorem AllocInv.srealloc_eq (h : AllocInv w₀ σ vs) (hb : b ∈ σ.live) (os : Os) (shift n : ℕ) :
    srealloc os shift σ.pools b.ptr n σ.world
      = if σ.world.field (get_page_pointer b.ptr) .slab_magic ≠ SLAB_MAGIC_NUMBER then
          (do
            let result ← realloc os shift b.ptr n
            return (σ.pools, result)) σ.world
        else if n < σ.world.field (get_page_pointer b.ptr) .size then
          .ok ((σ.pools, b.ptr), σ.world)
        else
          (do
            let r ← smalloc os σ.pools n
            memcpy shift r.2 b.ptr (σ.world.field (get_page_pointer b.ptr) .size)
            let pools ← sfree os r.1 b.ptr
            return (pools, r.2)) σ.world := by
  obtain ⟨hal, hacc⟩ := h.page hb
  have hbound := h.bounds hb
  have hne : b.ptr ≠ NULL := by
    unfold NULL
    omega
  unfold srealloc
  rw [if_neg hne]
  simp only [bind_ok (slab_get_accessible hal hacc _), ite_run, pure_run]

/-- **`srealloc`** of an object to less than its slot: nothing happens. -/
theorem AllocInv.srealloc_in_place (h : AllocInv w₀ σ vs) (os : Os) (shift : ℕ) (hb : b ∈ σ.live)
    (ho : b.origin = .slab c) (hn : n < c) :
    srealloc os shift σ.pools b.ptr n σ.world = .ok ((σ.pools, b.ptr), σ.world)
      ∧ AllocInv w₀ ⟨σ.world, σ.pools, ⟨b.ptr, n, .slab c⟩ :: σ.live.erase b⟩ vs := by
  obtain ⟨hmagic, hsize⟩ := h.header hb ho
  refine ⟨by rw [h.srealloc_eq hb, if_neg (not_not.mpr hmagic), hsize, if_pos hn],
    ⟨h.pools, h.views, h.heap, ⟨?_, fun d hd s hs => ?_, fun d hd hdo => ?_, fun p hp => ?_⟩⟩⟩
  · have := ((List.perm_cons_erase hb).map Buffer.ptr).nodup_iff.mp h.live.nodup
    exact this
  · rcases List.mem_cons.mp hd with rfl | hd
    · cases hs
      exact ⟨by simp only; omega, (h.live.slab b hb c ho).2⟩
    · exact h.live.slab d (List.mem_of_mem_erase hd) s hs
  · rcases List.mem_cons.mp hd with rfl | hd
    · cases hdo
    · exact h.live.system d (List.mem_of_mem_erase hd) hdo
  · obtain ⟨d, hd, he⟩ := h.live.busy p hp
    rcases List.mem_cons.mp ((List.perm_cons_erase hb).mem_iff.mp hd) with rfl | hd
    · exact ⟨_, List.mem_cons_self, he⟩
    · exact ⟨d, List.mem_cons_of_mem _ hd, he⟩

/-- **`srealloc`** of a chunk, in a page that does not start like a slab. -/
theorem AllocInv.srealloc_heap (h : AllocInv w₀ σ vs) (hb : b ∈ σ.live) (ho : b.origin = .system)
    (hmagic : σ.world.field (get_page_pointer b.ptr) .slab_magic ≠ SLAB_MAGIC_NUMBER)
    (hn : 1 ≤ n) (hshift : shift = 0 ∨ 2 ^ 64 ≤ shift)
    (hf : MallocFresh σ.world (σ.world.heap.erase (b.ptr, b.size)) os.malloc n) :
    ∃ w', srealloc os shift σ.pools b.ptr n σ.world = .ok ((σ.pools, os.malloc), w')
      ∧ w'.originOf σ.pools os.malloc n = .system
      ∧ AllocInv w₀ ⟨w', σ.pools, ⟨os.malloc, n, .system⟩ :: σ.live.erase b⟩ vs
      ∧ (∀ a, σ.world.Owned (σ.world.heap.erase (b.ptr, b.size)) (a % 2 ^ 64) →
          a < os.malloc + shift ∨ os.malloc + shift + n ≤ a → w'.mem a = σ.world.mem a)
      ∧ (∀ k < min b.size n, w'.byte shift (os.malloc + k) = σ.world.byte shift (b.ptr + k))
      ∧ NoCopy σ.world w'
      ∧ w'.heap = (os.malloc, n) :: σ.world.heap.erase (b.ptr, b.size) := by
  have hchunk := h.heap.chunk_eq (h.live.system b hb ho)
  have hlow := hf.low
  have hpages := hf.mapped
  unfold SLAB_PAGE_SIZE at hlow hpages
  have hne : os.malloc ≠ NULL := by
    unfold NULL
    omega
  obtain ⟨w', hw'⟩ : ∃ w' : World, w' = { σ.world with
      mem := fun l =>
        if os.malloc + shift ≤ l ∧ l < os.malloc + shift + min b.size n
        then σ.world.mem (b.ptr + shift + (l - (os.malloc + shift)))
        else σ.world.settle os (σ.world.heap.erase (b.ptr, b.size)) l
      heap := (os.malloc, n) :: σ.world.heap.erase (b.ptr, b.size)
      calls := .realloc b.ptr n os.malloc :: σ.world.calls } := ⟨_, rfl⟩
  have hrun : realloc os shift b.ptr n σ.world = .ok (os.malloc, w') := by
    rw [realloc, hchunk, hw']
    simp only [hne, if_false]
  -- first the old chunk goes, then the new one comes
  have hdrop : AllocInv w₀ ⟨{ σ.world with heap := σ.world.heap.erase (b.ptr, b.size) }, σ.pools,
      σ.live.erase b⟩ vs := h.drop_chunk hb ho ⟨rfl, rfl, fun _ _ _ => rfl⟩
  -- the copy of the contents goes to the new chunk, off every slab page
  have hadd : AllocInv w₀ ⟨w', σ.pools, ⟨os.malloc, n, .system⟩ :: σ.live.erase b⟩ vs := by
    refine hdrop.add_chunk hn ⟨hf.low, hf.high, hf.mapped, hf.heap⟩
      ⟨by rw [hw'], by rw [hw'], fun a ha hp => ?_⟩
    have hout : ¬ (os.malloc + shift ≤ a ∧ a < os.malloc + shift + min b.size n) := by
      have := hpages _ hp
      have hpage : pageOf a ≤ a ∧ a < pageOf a + 4096 := by
        unfold pageOf SLAB_PAGE_SIZE
        omega
      omega
    rw [hw']
    simp only [hout, if_false]
    exact settle_page ha hp
  refine ⟨w', ?_, ?_, hadd, fun a ha hout => ?_, fun k hk => ?_,
    .one (c := .realloc b.ptr n os.malloc) (by rw [hw']) (by simp), by rw [hw']⟩
  · rw [h.srealloc_eq hb, if_pos hmagic, bind_ok hrun]
    rfl
  · have hm := hadd.heap.chunk_eq (p := os.malloc) (n := n) (by rw [hw']; exact List.mem_cons_self)
    simp only at hm
    rw [World.originOf, hm]
    rfl
  · rw [hw']
    simp only [show ¬ (os.malloc + shift ≤ a ∧ a < os.malloc + shift + min b.size n) by omega,
      if_false]
    exact settle_owned ha
  · unfold World.byte
    rw [hw']
    simp only [show os.malloc + shift ≤ os.malloc + k + shift
      ∧ os.malloc + k + shift < os.malloc + shift + min b.size n by omega, and_self, if_true]
    congr 1
    omega

/-- **`srealloc`** of an object to its slot's size or more: `smalloc`, a copy of the whole
slot, and `sfree`. The copy must land off the books. -/
theorem AllocInv.srealloc_moved {vs₁ : List PoolView} {pools₁ : List slab_pool} {w₁ : World}
    {q : Buffer} (h : AllocInv w₀ σ vs) (hb : b ∈ σ.live) (ho : b.origin = .slab c) (hn : c ≤ n)
    (hsm : smalloc os σ.pools n σ.world = .ok ((pools₁, q.ptr), w₁))
    (h₁ : AllocInv w₀ ⟨w₁, pools₁, q :: σ.live⟩ vs₁) (hq : n ≤ q.usable)
    (hoff : ∀ a, q.ptr + shift ≤ a → a < q.ptr + shift + c → PoolView.Off vs₁ a) :
    ∃ l v r pool' ys w', vs₁ = l ++ v :: r
      ∧ srealloc os shift σ.pools b.ptr n σ.world
          = .ok (((l ++ ⟨v.shape, pool', ys⟩ :: r).map PoolView.pool, q.ptr), w')
      ∧ AllocInv w₀ ⟨w', (l ++ ⟨v.shape, pool', ys⟩ :: r).map PoolView.pool, q :: σ.live.erase b⟩
          (l ++ ⟨v.shape, pool', ys⟩ :: r)
      ∧ (∀ a, w₁.Owned w₁.heap (a % 2 ^ 64) → PoolView.Off vs₁ a →
          w'.mem a = copyBytes w₁.mem (q.ptr + shift) (b.ptr + shift) c a)
      ∧ CopyOnly q.ptr b.ptr c w₁ w' ∧ w'.heap = w₁.heap := by
  obtain ⟨hmagic, hsize⟩ := h.header hb ho
  have hb₁ : b ∈ q :: σ.live := List.mem_cons_of_mem q hb
  have hbu : b.usable = c := by rw [Buffer.usable, ho]
  obtain ⟨w₂, hw₂⟩ : ∃ w₂ : World, w₂ = { w₁ with
      mem := copyBytes w₁.mem (q.ptr + shift) (b.ptr + shift) c
      calls := .memcpy q.ptr b.ptr c :: w₁.calls } := ⟨_, rfl⟩
  have hcopy : memcpy shift q.ptr b.ptr c w₁ = .ok ((), w₂) := by
    have hsrc : w₁.firstBad b.ptr c = none :=
      World.firstBad_owned fun a h1 h2 => h₁.owned hb₁ h1 (by omega)
    have hdst : w₁.firstBad q.ptr c = none :=
      World.firstBad_owned fun a h1 h2 => h₁.owned List.mem_cons_self h1 (by omega)
    rw [memcpy, hsrc, hdst, hw₂]
  -- the copy lands off the books, so the invariant does not see it
  have h₂ : AllocInv w₀ ⟨w₂, pools₁, q :: σ.live⟩ vs₁ := by
    refine h₁.congr (by rw [hw₂]) (by rw [hw₂]) fun a ha => ?_
    have hout : a < q.ptr + shift ∨ q.ptr + shift + c ≤ a := by
      by_contra hin
      exact ha (hoff a (by omega) (by omega))
    rw [hw₂]
    exact copyBytes_apply_of_not_mem _ hout
  obtain ⟨l, v, r, pool', ys, w', hvs, -, -, -, hrun, h₃, hkeep, hno, hheap, -⟩ :=
    h₂.sfree_slab hb₁ ho
  have hne : q ≠ b := by
    rintro rfl
    have := h₁.live.nodup
    rw [List.map_cons, List.nodup_cons] at this
    exact this.1 (List.mem_map_of_mem hb)
  have herase : (q :: σ.live).erase b = q :: σ.live.erase b :=
    List.erase_cons_tail (by simpa using hne)
  rw [herase] at h₃
  refine ⟨l, v, r, pool', ys, w', hvs, ?_, h₃, fun a ha hoff' => ?_, ?_, by rw [hheap, hw₂]⟩
  · rw [h.srealloc_eq hb, if_neg (not_not.mpr hmagic), hsize, if_neg (by omega), bind_ok hsm,
      bind_ok hcopy, bind_ok (hrun os)]
    rfl
  · have howned : w₂.Owned w₂.heap (a % 2 ^ 64) := by
      rw [hw₂]
      exact ha
    rw [hkeep a howned hoff', hw₂]
  · refine CopyOnly.trans ⟨[.memcpy q.ptr b.ptr c], by rw [hw₂]; rfl, ?_⟩ (hno.copyOnly _ _ _)
    intro x hx d s k he
    rw [List.mem_singleton.mp hx] at he
    cases he
    exact ⟨rfl, rfl, rfl⟩

end Srealloc

end SlabAllocator
