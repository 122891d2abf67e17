/-
Exclusive ownership: what a state of the allocator owes to the program, in every
run in which no store of payload hits an entry of a free list.

The program's buffers do not overlap, an object is in a mapped slab of one pool
and `sfree` gives it back to that pool, the reference counts are the objects
held, and no page that holds one is unmapped. The copy of `srealloc` is a store
of payload, and the first slot of a slab begins inside the entry array of the
slab: a program that never writes a byte can lose the list of free slots to it,
and be handed an object it holds already.
-/
import SlabAllocator.SmallocRuns

set_option autoImplicit false

open ByteMem Runs

namespace SlabAllocator

/-! ## What a state owes -/

section Owners

variable {w₀ : World} {σ σ' : ApiState} {vs vs' : List PoolView} {b : Buffer} {c : ℕ}

/-- The page of a buffer is a page of a pool only if the buffer is an object of it. -/
theorem AllocInv.origin_of_page (h : AllocInv w₀ σ vs) (hb : b ∈ σ.live)
    (hp : get_page_pointer b.ptr ∈ σ.world.mapped) : b.origin ≠ .system := by
  intro ho
  have hbound := h.bounds hb
  have hm := h.live.system b hb ho
  have hpages := h.heap.pages _ hp _ hm
  have hsize := h.heap.chunk _ hm
  rw [get_page_pointer_eq (by omega)] at hpages
  unfold pageOf SLAB_PAGE_SIZE at hpages
  simp only at hsize
  omega

/-- The buffers in the page of a slab are its busy slots. -/
theorem AllocInv.ref_count (h : AllocInv w₀ σ vs) {v : PoolView} (hv : v ∈ vs)
    {x : PoolSlab v.shape.cap} (hx : x ∈ v.slabs) : σ.world.field x.base .ref_count
      = (σ.live.filter fun b => get_page_pointer b.ptr = x.base).length := by
  have hr := (h.views.reps v hv).list.slabs x hx
  -- both lists are free of duplicates, so it is enough to compare their members
  have hperm : ((σ.live.filter fun b => get_page_pointer b.ptr = x.base).map Buffer.ptr).Perm
      (x.slots.busy.map (v.shape.slot x.base)) := by
    refine (List.perm_ext_iff_of_nodup (h.live.nodup.sublist (List.filter_sublist.map _)) ?_).mpr
      fun p => ⟨fun hp => ?_, fun hp => ?_⟩
    · exact (List.nodup_append.mp x.slots.nodup).2.1.map fun i j hij => v.shape.slot_inj hij
    · obtain ⟨b, hb, rfl⟩ := List.mem_map.mp hp
      obtain ⟨hb, hpage⟩ := List.mem_filter.mp hb
      have hpage : get_page_pointer b.ptr = x.base := by simpa using hpage
      rcases ho : b.origin with _ | c
      · exact absurd ho (h.origin_of_page hb (hpage ▸ hr.page.1))
      · -- the object is in this slab, for no other slab has its page
        obtain ⟨-, u, hu, -, hbu⟩ := h.live.slab b hb c ho
        obtain ⟨l, r, rfl⟩ := List.append_of_mem hv
        have hsplit := (flatMap_split PoolView.bases l r v).nodup_iff.mp h.views.apart
        obtain ⟨m, y, k, i, hys, hi, hptr, hy, -, hpage'⟩ := h.views.object hu hbu
        rw [hpage] at hpage'
        rcases List.mem_cons.mp (List.perm_middle.mem_iff.mp hu) with rfl | hu'
        · have hyx : y = x := List.inj_on_of_nodup_map (h.views.reps u hv).list.nodup
            (by rw [hys]; simp) hx hpage'.symm
          rw [hptr, hyx]
          exact List.mem_map_of_mem (hyx ▸ hi)
        · refine absurd rfl ((List.nodup_append.mp hsplit).2.2 x.base ?_ x.base ?_)
          · exact List.mem_map_of_mem hx
          · exact List.mem_flatMap.mpr ⟨u, hu', hpage' ▸ hy⟩
    · obtain ⟨i, hi, rfl⟩ := List.mem_map.mp hp
      have hbusy : v.shape.slot x.base i ∈ v.busy :=
        List.mem_flatMap.mpr ⟨x, hx, List.mem_map_of_mem hi⟩
      obtain ⟨b, hb, he⟩ := h.live.busy _ (List.mem_flatMap.mpr ⟨v, hv, hbusy⟩)
      refine List.mem_map.mpr ⟨b, List.mem_filter.mpr ⟨hb, ?_⟩, he⟩
      simpa [he] using hr.page_of_slot (Slots.busy_lt hi)
  have hlen := hperm.length_eq
  rw [List.length_map, List.length_map] at hlen
  rw [hr.ref_count, hlen]

end Owners

/-! ## The law -/

/-- `slab_pool_allocate` from a first slab with room. -/
theorem slab_pool_allocate_first {w w' : World} {pool : slab_pool} {p : ℕ} (os : Os)
    (hp : w.Page pool.list_start)
    (hroom : w.field pool.list_start .ref_count ≠ w.field pool.list_start .max_refs)
    (h : mem_slab_alloc pool.list_start w = .ok (p, w')) :
    ∃ pool', slab_pool_allocate os pool w = .ok ((pool', p), w') := by
  refine ⟨{ pool with
    data := { pool.data with allocation_count := pool.data.allocation_count + 1 } }, ?_⟩
  have hfull : is_full pool.list_start w = .ok (false, w) := by
    unfold is_full
    simp only [slab_get_bind hp, pure_run, hroom, decide_false]
  unfold slab_pool_allocate
  simp only [bind_ok hfull, Bool.not_false, if_true, bind_ok h, pure_run]

/-- `slab_pool_deallocate` of an object of the first slab, which keeps others. -/
theorem slab_pool_deallocate_first {w w' : World} {pool : slab_pool} {ptr : ℕ}
    (hptr : get_page_pointer ptr = pool.list_start) (hp : w'.Page pool.list_start)
    (h : mem_slab_dealloc pool.list_start ptr w = .ok ((), w'))
    (hcount : w'.field pool.list_start .ref_count ≠ 0) :
    slab_pool_deallocate pool ptr w = .ok ({ pool with
      data := { pool.data with deallocation_count := pool.data.deallocation_count + 1 } }, w') := by
  obtain ⟨c, hc⟩ : ∃ c, is_lonely pool.list_start w' = .ok (c, w') := by
    unfold is_lonely
    simp only [slab_get_bind hp, ite_run, pure_run]
    split <;> exact ⟨_, rfl⟩
  have hmove : move_slab_to_start_of_the_list { pool with
      data := { pool.data with deallocation_count := pool.data.deallocation_count + 1 } }
      pool.list_start w' = .ok ({ pool with
        data := { pool.data with deallocation_count := pool.data.deallocation_count + 1 } },
        w') := by
    unfold move_slab_to_start_of_the_list
    simp only [slab_get_bind hp, if_true, pure_run]
  unfold slab_pool_deallocate
  simp only [hptr, bind_ok h, bind_ok hmove, slab_get_bind hp, bind_ok hc, hcount, false_and,
    if_false, pure_run]

/-- `mem_slab_alloc` of a slot whose entry has a predecessor, which no list of `Rep` shows. -/
theorem mem_slab_alloc_relink {w : World} {slab f p n e : ℕ} (hp : w.Page slab)
    (hbuf : w.field slab .freelist_buffer = slab + 64)
    (hstart : w.field slab .freelist_start_index = f)
    (hend : w.field slab .freelist_end_index = e)
    (hfree : w.buf (slab + 64) f .is_free = SLOT_FREE)
    (hnext : w.buf (slab + 64) f .next_index = n)
    (hprev : w.buf (slab + 64) f .prev_index = p) (hne : p ≠ NON_EXISTANT)
    (hf : w.Entry (slab + 64) f) (hpp : w.Entry (slab + 64) p) (hn : w.Entry (slab + 64) n)
    (he : w.Entry (slab + 64) e) :
    ∃ w', mem_slab_alloc slab w = .ok
      (ptr_add (w.field slab .allocable_buffer) (w.field slab .size * f), w') := by
  unfold mem_slab_alloc
  simp only [slab_get_bind, slab_set_bind, bufctl_get_bind, bufctl_set_bind, page_setField,
    page_setBuf, entry_setField, entry_setBuf, hp, hbuf, hstart, hf, hpp, hn, he, hend, hnext,
    hprev, hfree, hne, ne_eq, not_true_eq_false, if_false, ite_run, field_setBuf, buf_setField,
    field_setField_ne, reduceCtorEq, not_false_eq_true, pure_run]
  exact ⟨_, rfl⟩

/-- The object in slot `i` of the slab at `s`. -/
def lastObject (s i : ℕ) : Buffer := ⟨s + 67 + 256 * i, 256, .slab 256⟩

/-- A process with room. The first slab of its last pool is at `s`, has the free slots `F` and
the busy slots `B`, and its third slot reads as zero. -/
structure Stage (σ : ApiState) (s : ℕ) (F B : List ℕ) : Prop where
  roomy : σ.Roomy
  view : ∃ (l r : List PoolView) (g : Shape) (pool : slab_pool) (x : PoolSlab g.cap)
    (rest : List (PoolSlab g.cap)), AllocInv World.empty σ (l ++ ⟨g, pool, x :: rest⟩ :: r)
      ∧ (∀ u ∈ l, u.shape.size < 256) ∧ g.size = 256 ∧ x.base = s ∧ x.slots.free = F
      ∧ x.slots.busy = B
  zero : ∀ a, s + 579 ≤ a → a < s + 835 → σ.world.mem a = 0

section Stage

variable {σ : ApiState} {s f i : ℕ} {F B : List ℕ}

theorem cap_of_last {g : Shape} (h : g.size = 256) : g.cap = 3 := by
  rw [g.cap_eq, h]

theorem slot_of_last {g : Shape} (h : g.size = 256) : g.slot s i = (lastObject s i).ptr := by
  rw [Shape.slot, h, cap_of_last h]
  rfl

/-- The third slot keeps its zeroes. -/
theorem zero_kept {w' : World} {l r : List PoolView} {g : Shape} {pool : slab_pool}
    {x : PoolSlab g.cap} {rest : List (PoolSlab g.cap)}
    (h : AllocInv World.empty σ (l ++ ⟨g, pool, x :: rest⟩ :: r)) (hg : g.size = 256)
    (hkeep : Keeps σ.world.heap (l ++ ⟨g, pool, x :: rest⟩ :: r) σ.world w')
    (hz : ∀ a, x.base + 579 ≤ a → a < x.base + 835 → σ.world.mem a = 0) :
    ∀ a, x.base + 579 ≤ a → a < x.base + 835 → w'.mem a = 0 := by
  intro a h1 h2
  have hv : (⟨g, pool, x :: rest⟩ : PoolView) ∈ l ++ ⟨g, pool, x :: rest⟩ :: r := by simp
  have hx : x.base ∈ PoolView.bases ⟨g, pool, x :: rest⟩ := List.mem_cons_self
  obtain ⟨hal, -, h64, hm⟩ := h.views.base hv hx
  have hcap := cap_of_last hg
  rw [hkeep a (.inl ?_) (h.views.off_page hv hx (by simp only; omega) (by omega)), hz a h1 h2]
  rw [Nat.mod_eq_of_lt (by omega), pageOf_eq hal (by omega) (by omega)]
  exact hm

theorem Stage.smalloc (h : Stage σ s (f :: F) B) :
    ∃ σ', ApiStep 0 σ (.smalloc roomyOs 256) σ'
      ∧ SlabAllocator.smalloc roomyOs σ.pools 256 σ.world
        = .ok ((σ'.pools, (lastObject s f).ptr), σ'.world)
      ∧ Stage σ' s F (B ++ [f]) ∧ σ'.live = lastObject s f :: σ.live := by
  obtain ⟨hroomy, ⟨l, r, g, pool, x, rest, hinv, hl, hg, rfl, hF, rfl⟩, hz⟩ := h
  obtain ⟨s', halloc, hfree, hbusy⟩ := Slots.alloc_cons hF
  obtain ⟨pool', σ', hstep, hrun, hinv', hlive, hroomy', hkeep⟩ :=
    hinv.smalloc_first 0 hroomy hl (by decide) hg.ge halloc
  rw [slot_of_last hg] at hrun
  refine ⟨σ', hstep, hrun, ⟨hroomy', ⟨l, r, g, pool', _, rest, hinv', hl, hg, rfl, hfree, hbusy⟩,
    zero_kept hinv hg hkeep hz⟩, ?_⟩
  rw [hlive, slot_of_last hg, hg]
  rfl

theorem Stage.sfree (h : Stage σ s F (i :: B)) (hB : B ≠ []) (hb : lastObject s i ∈ σ.live) :
    ∃ σ', ApiStep 0 σ (.sfree roomyOs (lastObject s i)) σ' ∧ Stage σ' s (F ++ [i]) B
      ∧ σ'.live = σ.live.erase (lastObject s i) := by
  obtain ⟨hroomy, ⟨l, r, g, pool, x, rest, hinv, hl, hg, rfl, rfl, hbusy⟩, hz⟩ := h
  obtain ⟨hfree, hbusy'⟩ := Slots.dealloc_head hbusy
  obtain ⟨pool', σ', hstep, hinv', hlive, hroomy', hkeep⟩ :=
    hinv.sfree_first 0 roomyOs (i := i) hroomy hb (by rw [hg]; rfl)
      (slot_of_last hg).symm (Slots.busy_lt (by rw [hbusy]; exact List.mem_cons_self))
      (by rw [hbusy']; exact hB)
  exact ⟨σ', hstep, ⟨hroomy', ⟨l, r, g, pool', _, rest, hinv', hl, hg, rfl, hfree, hbusy'⟩,
    zero_kept hinv hg hkeep hz⟩, hlive⟩

end Stage

/-- What the copy leaves of the slab at `s`: the header of a slab whose list starts at slot 1
and ends at slot 0, and entries that read as zero. -/
structure Spoiled (w : World) (s count : ℕ) : Prop where
  page : w.Page s
  low : 4096 ≤ s
  high : s + 4096 ≤ 2 ^ 64
  slab_magic : w.field s .slab_magic = SLAB_MAGIC_NUMBER
  size : w.field s .size = 256
  ref_count : w.field s .ref_count = count
  max_refs : w.field s .max_refs = 3
  freelist_buffer : w.field s .freelist_buffer = s + 64
  allocable_buffer : w.field s .allocable_buffer = s + 67
  start : w.field s .freelist_start_index = 1
  stop : w.field s .freelist_end_index = 0
  first : w.buf (s + 64) 0 .is_free = 0
  entries : ∀ i, i = 1 ∨ i = 2 → ∀ c, w.buf (s + 64) i c = 0

section Spoiled

variable {w : World} {s count : ℕ}

theorem Stage.spoiled {σ : ApiState} (h : Stage σ s [] [1, 2, 0]) (hm : w.mapped = σ.world.mapped)
    (hw : w.mem = copyBytes σ.world.mem (s + 67) (s + 579) 256) : Spoiled w s 3 := by
  obtain ⟨-, ⟨l, r, g, pool, x, rest, hinv, -, hg, rfl, hfree, hbusy⟩, hz⟩ := h
  have hr := (hinv.views.reps ⟨g, pool, x :: rest⟩ (by simp)).list.slabs x List.mem_cons_self
  have hcap := cap_of_last hg
  have hord : x.slots.order = [1, 2, 0] := by rw [Slots.order, hfree, hbusy]; rfl
  have hf : ∀ f, w.field x.base f = σ.world.field x.base f := fun f =>
    field_congr fun a _ h2 => by rw [hw, copyBytes_apply_of_not_mem _ (by omega)]
  -- what is copied reads as zero, and so does the part of the array it lands in
  have hzero : ∀ a, x.base + 67 ≤ a → a < x.base + 323 → w.mem a = 0 := by
    intro a h1 h2
    rw [hw, copyBytes, if_pos (by omega), hz _ (by omega) (by omega)]
  have hbuf : ∀ i, ∀ c : BufctlField, 67 ≤ 64 + 5 * i + c.offset → i < 3 →
      w.buf (x.base + 64) i c = 0 := by
    intro i c h1 h2
    have := c.fits
    unfold World.buf sizeof_bufctl
    exact loadLE_zero _ fun a h3 h4 => hzero a (by omega) (by omega)
  refine ⟨⟨hm ▸ hr.page.1, hr.page.2⟩, hr.low, hr.high, ?_, ?_, ?_, ?_, ?_, ?_, ?_, ?_, ?_, ?_⟩
  · rw [hf, hr.slab_magic]
  · rw [hf, hr.size, hg]
  · rw [hf, hr.ref_count, hbusy]
    rfl
  · rw [hf, hr.max_refs, hcap]
  · rw [hf, hr.freelist_buffer]
  · rw [hf, hr.allocable_buffer]
    simp only
    omega
  · rw [hf, hr.start, hord]
    rfl
  · rw [hf, hr.stop, hord]
    rfl
  · exact hbuf 0 .is_free (by decide) (by decide)
  · rintro i (rfl | rfl) c
    · exact hbuf 1 c (by omega) (by decide)
    · exact hbuf 2 c (by omega) (by decide)

/-- Slot 2 is taken back. Its entry names slot 0 as its predecessor, which reads as free. -/
theorem Spoiled.dealloc (h : Spoiled w s 3) :
    mem_slab_dealloc s (lastObject s 2).ptr w = .ok ((), w.release s 2)
      ∧ Spoiled (w.release s 2) s 2 := by
  have hlow := h.high
  -- the header is as it was, so the slot is computed as before
  have hidx : get_buffer_index_from_ptr s (lastObject s 2).ptr w = .ok (2, w) := by
    unfold get_buffer_index_from_ptr
    rw [slab_get_bind h.page, slab_get_bind h.page, h.allocable_buffer, h.size]
    change Except.ok (size_t_sub (s + 67 + 256 * 2) (s + 67) / 256 % 2 ^ 16, w) = _
    rw [size_t_sub_eq (by omega) (by omega), Nat.add_sub_cancel_left]
    rfl
  have hfield : ∀ f, f ≠ .ref_count → (w.release s 2).field s f = w.field s f :=
    fun f hf => field_release hf
  -- the predecessor that slot 2 names reads as free, so nothing is relinked
  refine ⟨mem_slab_dealloc_stay h.page h.freelist_buffer hidx (h.page.entry (by norm_num))
    (.inr ⟨h.entries 2 (.inr rfl) _, h.page.entry (by norm_num), h.first⟩), ?_⟩
  refine ⟨page_release.mpr h.page, h.low, h.high, ?_, ?_, ?_, ?_, ?_, ?_, ?_, ?_, ?_, ?_⟩
  · rw [hfield _ (by decide), h.slab_magic]
  · rw [hfield _ (by decide), h.size]
  · rw [count_release (by rw [h.ref_count]; decide), h.ref_count]
  · rw [hfield _ (by decide), h.max_refs]
  · rw [hfield _ (by decide), h.freelist_buffer]
  · rw [hfield _ (by decide), h.allocable_buffer]
  · rw [hfield _ (by decide), h.start]
  · rw [hfield _ (by decide), h.stop]
  · rw [free_release, if_neg (by decide), h.first]
  · intro i hi c
    have hz := h.entries i hi
    cases c
    · rw [next_release, hz]
    · rw [prev_release, hz]
    · rw [free_release, hz]
      split <;> rfl

/-- Slot 1 reads as free, though its object is held, and is handed out again. -/
theorem Spoiled.alloc (h : Spoiled w s 2) :
    ∃ w', mem_slab_alloc s w = .ok ((lastObject s 1).ptr, w') := by
  have hentry : ∀ i < 3, w.Entry (s + 64) i := fun i hi => h.page.entry (by omega)
  obtain ⟨w', hrun⟩ := mem_slab_alloc_relink h.page h.freelist_buffer h.start h.stop
    (h.entries 1 (.inl rfl) .is_free) (h.entries 1 (.inl rfl) .next_index)
    (h.entries 1 (.inl rfl) .prev_index) (by decide) (hentry 1 (by decide)) (hentry 0 (by decide))
    (hentry 0 (by decide)) (hentry 0 (by decide))
  have hhigh := h.high
  refine ⟨w', ?_⟩
  rw [hrun, h.allocable_buffer, h.size, ptr_add_eq (by omega)]
  rfl

/-- The release of slot 2 and the next allocation, through the public functions. -/
theorem Stage.lost {σ : ApiState} (h : Stage σ s [] [1, 2, 0]) (hm : w.mapped = σ.world.mapped)
    (hw : w.mem = copyBytes σ.world.mem (s + 67) (s + 579) 256) :
    ∃ pools₁ pools₂ w₂,
      SlabAllocator.sfree roomyOs σ.pools (lastObject s 2).ptr w = .ok (pools₁, w.release s 2)
      ∧ SlabAllocator.smalloc roomyOs pools₁ 256 (w.release s 2)
        = .ok ((pools₂, (lastObject s 1).ptr), w₂) := by
  have hs := h.spoiled hm hw
  obtain ⟨hdealloc, hs'⟩ := hs.dealloc
  obtain ⟨w₂, halloc⟩ := hs'.alloc
  obtain ⟨-, ⟨l, r, g, pool, x, rest, hinv, hl, hg, rfl, -, -⟩, -⟩ := h
  have hv : (⟨g, pool, x :: rest⟩ : PoolView) ∈ l ++ ⟨g, pool, x :: rest⟩ :: r := by simp
  have hstart : pool.list_start = x.base := (hinv.views.reps _ hv).list.head
  have hsize : pool.allocation_size = 256 := (hinv.allocation_size hv).trans hg
  have hlow : ∀ u ∈ l.map PoolView.pool, u.allocation_size < 256 := by
    intro u hu
    obtain ⟨v, hv, rfl⟩ := List.mem_map.mp hu
    rw [hinv.allocation_size (by simp [hv])]
    exact hl v hv
  have hhigh := hs.high
  have hal := hs.page.2
  have hpage : get_page_pointer (lastObject x.base 2).ptr = x.base := by
    have hptr : (lastObject x.base 2).ptr = x.base + 579 := rfl
    rw [hptr, get_page_pointer_eq (by omega), pageOf_eq hal (by omega) (by omega)]
  obtain ⟨pool₁, hpool₁⟩ : ∃ pool₁ : slab_pool, pool₁ = { pool with
      data := { pool.data with deallocation_count := pool.data.deallocation_count + 1 } } :=
    ⟨_, rfl⟩
  have hstart₁ : pool₁.list_start = x.base := by rw [hpool₁, ← hstart]
  have hsize₁ : pool₁.allocation_size = 256 := by rw [hpool₁, ← hsize]
  have hback : slab_pool_deallocate pool (lastObject x.base 2).ptr w
      = .ok (pool₁, w.release x.base 2) := by
    rw [hpool₁]
    refine slab_pool_deallocate_first (by rw [hpage, hstart]) ?_ ?_ ?_
    · rw [hstart]
      exact hs'.page
    · rw [hstart]
      exact hdealloc
    · rw [hstart, hs'.ref_count]
      decide
  obtain ⟨pool₂, hagain⟩ : ∃ pool₂, slab_pool_allocate roomyOs pool₁ (w.release x.base 2)
      = .ok ((pool₂, (lastObject x.base 1).ptr), w₂) := by
    refine slab_pool_allocate_first roomyOs ?_ ?_ ?_
    · rw [hstart₁]
      exact hs'.page
    · rw [hstart₁, hs'.ref_count, hs'.max_refs]
      decide
    · rw [hstart₁]
      exact halloc
  have hpools : σ.pools = l.map PoolView.pool ++ pool :: r.map PoolView.pool := by
    rw [hinv.pools, List.map_append, List.map_cons]
  refine ⟨_, _, w₂, ?_, smalloc_pool (r := r.map PoolView.pool) hlow hsize₁.ge hagain⟩
  unfold SlabAllocator.sfree
  rw [hpage, slab_get_bind hs.page, hs.slab_magic]
  simp only [ne_eq, not_true_eq_false, if_false]
  rw [slab_get_bind hs.page, hs.size, hpools]
  exact sfree_loop_pool (fun u hu => (hlow u hu).ne) hsize hback

end Spoiled

/-- `srealloc` of the object in slot 2, served from slot 0, when slots 1 and 2 are held. The
allocation after it answers slot 1. -/
theorem Stage.srealloc {σ : ApiState} {s : ℕ} (h : Stage σ s [0] [1, 2])
    (hb : lastObject s 2 ∈ σ.live) :
    ∃ σ₁ σ₂ o o', ApiStep 0 σ (.srealloc roomyOs (lastObject s 2) 256) σ₁
      ∧ ApiStep 0 σ₁ (.smalloc roomyOs 256) σ₂
      ∧ σ₂.live = ⟨s + 323, 256, o'⟩ :: ⟨s + 67, 256, o⟩ :: σ.live.erase (lastObject s 2) := by
  obtain ⟨σ', -, hsm, hstage', -⟩ := h.smalloc
  obtain ⟨w, hw⟩ : ∃ w : World, w = { σ'.world with
      mem := copyBytes σ'.world.mem (s + 67) (s + 579) 256
      calls := .memcpy (s + 67) (s + 579) 256 :: σ'.world.calls } := ⟨_, rfl⟩
  obtain ⟨pools₁, pools₂, w₂, hfree, hagain⟩ :=
    hstage'.lost (w := w) (by rw [hw]) (by rw [hw])
  have hspoiled := hstage'.spoiled (w := w) (by rw [hw]) (by rw [hw])
  have hpage : σ'.world.Page s := by
    have hp := hspoiled.page
    rw [hw] at hp
    exact hp
  have hcopy : memcpy 0 (lastObject s 0).ptr (lastObject s 2).ptr 256 σ'.world = .ok ((), w) := by
    have hsrc : σ'.world.firstBad (lastObject s 2).ptr 256 = none := firstBad_eq_none fun a h1 h2 =>
      hpage.accessible (by simp only [lastObject] at h1; omega)
        (by simp only [lastObject] at h2; omega)
    have hdst : σ'.world.firstBad (lastObject s 0).ptr 256 = none := firstBad_eq_none fun a h1 h2 =>
      hpage.accessible (by simp only [lastObject] at h1; omega)
        (by simp only [lastObject] at h2; omega)
    rw [memcpy, hsrc, hdst, hw]
    rfl
  have hrun : SlabAllocator.srealloc roomyOs 0 σ.pools (lastObject s 2).ptr 256 σ.world
      = .ok ((pools₁, (lastObject s 0).ptr), w.release s 2) := by
    obtain ⟨-, ⟨l, r, g, pool, x, rest, hinv, -, -, -, -, -⟩, -⟩ := h
    obtain ⟨hmagic, hsize⟩ := hinv.header hb (c := 256) rfl
    rw [hinv.srealloc_eq hb, if_neg (not_not.mpr hmagic), hsize, if_neg (by decide), bind_ok hsm,
      bind_ok hcopy, bind_ok hfree]
    rfl
  obtain ⟨σ₁, hσ₁⟩ : ∃ σ₁, σ.exec 0 (.srealloc roomyOs (lastObject s 2) 256) = .ok σ₁
      ∧ σ₁.world = w.release s 2 ∧ σ₁.pools = pools₁
      ∧ ∃ o, σ₁.live = ⟨s + 67, 256, o⟩ :: σ.live.erase (lastObject s 2) := by
    rw [ApiState.exec, hrun]
    exact ⟨_, rfl, rfl, rfl, _, rfl⟩
  obtain ⟨hexec, hworld, hpools, o, hlive⟩ := hσ₁
  have hroomy₁ : σ₁.Roomy := by
    refine ⟨fun p hp => hstage'.roomy.mapped p ?_, ?_⟩
    · rw [hworld, hw] at hp
      exact hp
    · rw [hworld, hw]
      exact hstage'.roomy.heap
  obtain ⟨σ₂, hexec₂, o', hlive₂⟩ : ∃ σ₂, σ₁.exec 0 (.smalloc roomyOs 256) = .ok σ₂
      ∧ ∃ o', σ₂.live = ⟨s + 323, 256, o'⟩ :: σ₁.live := by
    rw [ApiState.exec, hworld, hpools, hagain]
    exact ⟨_, rfl, _, rfl⟩
  exact ⟨σ₁, σ₂, o, o', ⟨h.roomy.granted_srealloc hb (by decide) (by decide), hexec⟩,
    ⟨hroomy₁.granted (by decide) (by decide), hexec₂⟩, by rw [hlive₂, hlive]⟩

end SlabAllocator
