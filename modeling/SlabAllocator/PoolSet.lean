/-
The array `pools`: several pools, of different sizes, in one process.

A pool is seen together with the shape of its slabs and the slabs it stands for
(`PoolView`), and `Pools` says that the views share the process: each of them is
in memory, no page belongs to two of them, and together they are what is mapped
beyond what was mapped before. A call touches one pool; what it writes are the
headers and entries of that pool's slabs and pages that belonged to nobody, so
the other views stay as they are. That is `Pools.update`, and the loops of
`smalloc`, `sfree` and `smalloc_initialize` are instances.
-/
import SlabAllocator.Smalloc
import SlabAllocator.PoolRuns

set_option autoImplicit false

open DoublyLinked

namespace SlabAllocator

/-! ## What a pool depends on -/

/-- A pool is known by the headers and the entries of its slabs. -/
theorem PoolRep.congr {w w' : World} {g : Shape} {size : ℕ} {pool : slab_pool}
    {xs : List (PoolSlab g.cap)} (h : PoolRep w g size pool xs)
    (hpage : ∀ b ∈ bases xs, b ∈ w'.mapped)
    (hmem : ∀ b ∈ bases xs, ∀ a, b ≤ a → a < b + 64 + 5 * g.cap → w'.mem a = w.mem a) :
    PoolRep w' g size pool xs := by
  have hch := h.list.chain
  have hf : ∀ b ∈ bases xs, ∀ f, w'.field b f = w.field b f := fun b hb f =>
    field_congr fun a h1 h2 => hmem b hb a h1 (by omega)
  have hpages : ∀ b ∈ bases xs, w'.Page b := fun b hb => ⟨hpage b hb, hch.aligned b hb⟩
  refine ⟨⟨⟨hpages, hch.low, hch.high, hch.nodup,
    hch.links.congr (fun b hb => hf b hb _) (fun b hb => hf b hb _)⟩, fun x hx => ?_,
    h.list.nonempty, h.list.start, h.list.stop⟩, h.shape, h.allocation_size, h.params, h.length,
    h.objects⟩
  have hb : x.base ∈ bases xs := List.mem_map_of_mem hx
  exact (h.list.slabs x hx).congr (hpages _ hb) fun a h1 h2 _ => hmem _ hb a h1 h2

/-- What one element contributes to a `flatMap` can be put first. -/
theorem flatMap_split {α β : Type} (f : α → List β) (l r : List α) (v : α) :
    ((l ++ v :: r).flatMap f).Perm (f v ++ (l ++ r).flatMap f) := by
  rw [List.flatMap_append, List.flatMap_append, List.flatMap_cons, ← List.append_assoc,
    ← List.append_assoc]
  exact List.perm_append_comm.append_right _

/-! ## Views -/

/-- A pool, the shape of its slabs, and the slabs it stands for. -/
structure PoolView where
  shape : Shape
  pool : slab_pool
  slabs : List (PoolSlab shape.cap)

namespace PoolView

/-- The pages of the pool. -/
def bases (v : PoolView) : List ℕ := SlabAllocator.bases v.slabs

/-- The addresses of the objects in the pool. -/
def busy (v : PoolView) : List ℕ := busyPtrs v.shape v.slabs

/-- `a` is in no header and no entry array of the pools. -/
def Off (vs : List PoolView) (a : ℕ) : Prop := ∀ v ∈ vs, OffBooks v.shape.cap v.bases a

end PoolView

/-- The views are in memory, on pages of their own, beside the pages `foreign`. -/
structure Pools (w : World) (foreign : List ℕ) (vs : List PoolView) : Prop where
  reps : ∀ v ∈ vs, PoolRep w v.shape v.shape.size v.pool v.slabs
  room : ∀ v ∈ vs, 2 ≤ v.shape.cap
  distinct : (vs.map fun v => v.shape.size).Nodup
  apart : (vs.flatMap PoolView.bases).Nodup
  mapped : w.mapped.Perm (foreign ++ vs.flatMap PoolView.bases)

namespace Pools

variable {w w' : World} {foreign : List ℕ} {vs l r : List PoolView} {v : PoolView} {b a : ℕ}

theorem base (h : Pools w foreign vs) (hv : v ∈ vs) (hb : b ∈ v.bases) :
    b % 4096 = 0 ∧ 4096 ≤ b ∧ b + 4096 ≤ 2 ^ 64 ∧ b ∈ w.mapped := by
  have hch := (h.reps v hv).list.chain
  exact ⟨hch.aligned b hb, hch.low b hb, hch.high b hb, (hch.page b hb).1⟩

/-- The pools survive what is written elsewhere. -/
theorem congr (h : Pools w foreign vs) (hm : w'.mapped = w.mapped)
    (hmem : ∀ v ∈ vs, ∀ b ∈ v.bases, ∀ a, b ≤ a → a < b + 64 + 5 * v.shape.cap →
      w'.mem a = w.mem a) : Pools w' foreign vs := by
  refine ⟨fun v hv => (h.reps v hv).congr (fun b hb => ?_) (hmem v hv), h.room, h.distinct,
    h.apart, hm ▸ h.mapped⟩
  rw [hm]
  exact (h.base hv hb).2.2.2

/-- What a call on one pool does to all of them. It maps the pages `new`, which belonged to
nobody, or returns the pages `gone`. -/
theorem update (new gone : List ℕ) {pool' : slab_pool} {ys : List (PoolSlab v.shape.cap)}
    (h : Pools w foreign (l ++ v :: r)) (hrep : PoolRep w' v.shape v.shape.size pool' ys)
    (hw : PoolWrites v.shape v.bases new w w')
    (hbases : (v.bases ++ new).Perm (gone ++ SlabAllocator.bases ys)) (hnew : new.Nodup)
    (hfresh : ∀ p ∈ new, p ∉ w.mapped)
    (hmapped : (w.mapped ++ new).Perm (gone ++ w'.mapped)) :
    Pools w' foreign (l ++ ⟨v.shape, pool', ys⟩ :: r) := by
  have hother : ∀ u ∈ l ++ r, u ∈ l ++ v :: r := fun u hu =>
    (List.mem_append.mp hu).elim (List.mem_append_left _)
      fun hu => List.mem_append_right _ (List.mem_cons_of_mem v hu)
  have hsplit := flatMap_split PoolView.bases l r v
  have hsplit' := flatMap_split PoolView.bases l r ⟨v.shape, pool', ys⟩
  have hapart := hsplit.nodup_iff.mp h.apart
  have hdisj : ∀ u ∈ l ++ r, ∀ b ∈ u.bases, b ∉ v.bases := fun u hu b hb hv =>
    (List.nodup_append.mp hapart).2.2 b hv b (List.mem_flatMap.mpr ⟨u, hu, hb⟩) rfl
  -- the pages after the call: those of the other pools, and those of this one
  have hall : (w.mapped ++ new).Perm
      (gone ++ (foreign ++ (SlabAllocator.bases ys ++ (l ++ r).flatMap PoolView.bases))) := by
    have h1 := (h.mapped.trans (hsplit.append_left foreign)).append_right new
    refine h1.trans ?_
    have h2 := hbases.append_right ((l ++ r).flatMap PoolView.bases)
    have h3 : (foreign ++ (v.bases ++ (l ++ r).flatMap PoolView.bases) ++ new).Perm
        (foreign ++ (v.bases ++ new ++ (l ++ r).flatMap PoolView.bases)) := by
      rw [List.append_assoc, List.append_assoc, List.append_assoc]
      exact (List.perm_append_comm.append_left _).append_left _
    refine h3.trans ((h2.append_left foreign).trans ?_)
    rw [List.append_assoc gone]
    exact List.perm_append_comm_assoc _ _ _
  have hmapped' : w'.mapped.Perm
      (foreign ++ (SlabAllocator.bases ys ++ (l ++ r).flatMap PoolView.bases)) :=
    (List.perm_append_left_iff gone).mp (hmapped.symm.trans hall)
  have hnd : (SlabAllocator.bases ys ++ (l ++ r).flatMap PoolView.bases).Nodup := by
    have h1 : (v.bases ++ new ++ (l ++ r).flatMap PoolView.bases).Nodup := by
      have h2 : (new ++ (v.bases ++ (l ++ r).flatMap PoolView.bases)).Nodup := by
        refine List.nodup_append.mpr ⟨hnew, hapart, fun p hp q hq hpq => hfresh p hp ?_⟩
        rw [hpq]
        exact h.mapped.mem_iff.mpr (List.mem_append_right _ (hsplit.mem_iff.mpr hq))
      rw [← List.append_assoc] at h2
      exact (List.perm_append_comm.append_right _).nodup_iff.mp h2
    have h3 := (hbases.append_right ((l ++ r).flatMap PoolView.bases)).nodup_iff.mp h1
    rw [List.append_assoc] at h3
    exact (List.nodup_append.mp h3).2.1
  -- another pool has none of the pages written to
  have hview : ∀ u, u ∈ l ++ ⟨v.shape, pool', ys⟩ :: r → u = ⟨v.shape, pool', ys⟩ ∨ u ∈ l ++ r :=
    fun u hu => List.mem_cons.mp (List.perm_middle.mem_iff.mp hu)
  refine ⟨fun u hu => ?_, fun u hu => ?_, ?_, hsplit'.nodup_iff.mpr hnd,
    hmapped'.trans (hsplit'.symm.append_left _)⟩
  · rcases hview u hu with rfl | hu'
    · exact hrep
    · refine (h.reps u (hother u hu')).congr (fun b hb => ?_) fun b hb a h1 h2 => ?_
      · exact hmapped'.mem_iff.mpr (List.mem_append_right _ (List.mem_append_right _
          (List.mem_flatMap.mpr ⟨u, hu', hb⟩)))
      · have hcap := u.shape.cap_le
        have hcap' := v.shape.cap_le
        obtain ⟨hal, hlo, hhi, hbm⟩ := h.base (hother u hu') hb
        refine hw.mem a (fun c hc => ?_) fun hp => ?_
        · have hcal := (h.base (v := v) (by simp) hc).1
          have hbc : b ≠ c := fun he => hdisj u hu' b hb (he ▸ hc)
          omega
        · rw [Nat.mod_eq_of_lt (by omega), pageOf_eq hal h1 (by omega)] at hp
          exact hfresh b hp hbm
  · rcases hview u hu with rfl | hu'
    · exact h.room v (by simp)
    · exact h.room u (hother u hu')
  · have := h.distinct
    rw [List.map_append, List.map_cons] at this ⊢
    exact this

/-- One of the pools hands out an object. -/
theorem allocate {os : Os} (h : Pools w foreign (l ++ v :: r))
    (hf : MmapFresh w os.mmap POOL_GROW_RATE) :
    ∃ b f ys pool' w', slab_pool_allocate os v.pool w = .ok ((pool', v.shape.slot b f), w')
      ∧ SlabAllocator.allocate os.mmap v.slabs = some (b, f, ys)
      ∧ Pools w' foreign (l ++ ⟨v.shape, pool', ys⟩ :: r)
      ∧ PoolWrites v.shape v.bases (newPages os.mmap v.slabs) w w'
      ∧ w'.mapped = w.mapped ++ newPages os.mmap v.slabs
      ∧ w'.calls = if Grows v.slabs
          then .mmap (SLAB_PAGE_SIZE * POOL_GROW_RATE) os.mmap :: w.calls else w.calls := by
  obtain ⟨b, f, ys, pool', w', hrun, ha, hrep, hw, hm, hc⟩ :=
    slab_pool_allocate_spec (h.reps v (by simp)) (h.room v (by simp)) fun _ => hf
  have hw := hw.of_allocate ha hf
  refine ⟨b, f, ys, pool', w', hrun, ha, h.update _ [] hrep hw ?_ ?_ ?_ ?_, hw, hm, hc⟩
  · exact (bases_allocate ha).symm
  · unfold newPages
    split
    · exact nodup_pages
    · exact List.nodup_nil
  · intro p hp hpm
    obtain ⟨i, hi, he⟩ := mem_pages.mp (newPages_subset p hp)
    have := hf.mapped p hpm
    unfold SLAB_PAGE_SIZE POOL_GROW_RATE at this
    unfold POOL_GROW_RATE at hi
    omega
  · rw [hm]
    exact .refl _

/-- One of the pools takes an object back. -/
theorem deallocate {p : ℕ} (h : Pools w foreign (l ++ v :: r)) (hp : p ∈ v.busy) :
    ∃ m x k i pool' w', v.slabs = m ++ x :: k ∧ i ∈ x.slots.busy ∧ p = v.shape.slot x.base i
      ∧ slab_pool_deallocate v.pool p w = .ok (pool', w')
      ∧ Pools w' foreign (l ++ ⟨v.shape, pool', SlabAllocator.deallocate x.base i v.slabs⟩ :: r)
      ∧ PoolWrites v.shape v.bases [] w w'
      ∧ w'.mapped = (if Drops x (m ++ k) i then w.mapped.erase x.base else w.mapped)
      ∧ w'.calls = if Drops x (m ++ k) i then .munmap x.base SLAB_PAGE_SIZE :: w.calls
          else w.calls := by
  obtain ⟨g, pool, xs⟩ := v
  have hrep : PoolRep w g g.size pool xs := h.reps ⟨g, pool, xs⟩ (by simp)
  obtain ⟨m, x, k, i, rfl, hi, rfl⟩ := mem_busyPtrs (show p ∈ busyPtrs g xs from hp)
  obtain ⟨pool', w', hrun, hrep', hw, hkeep, hdrop⟩ := slab_pool_deallocate_spec hrep hi
  have hmid : (SlabAllocator.bases (m ++ x :: k)).Perm
      ([x.base] ++ SlabAllocator.bases (m ++ k)) := List.perm_middle.map PoolSlab.base
  have h' : Pools w foreign (l ++ ⟨g, pool, m ++ x :: k⟩ :: r) := h
  refine ⟨m, x, k, i, pool', w', rfl, hi, rfl, hrun, ?_, hw, ?_, ?_⟩
  · by_cases hd : Drops x (m ++ k) i
    · refine h'.update [] [x.base] hrep' hw ?_
        List.nodup_nil (by simp) ?_
      · rw [List.append_nil, deallocate_eq hrep.list.nodup, if_pos hd]
        exact hmid
      · rw [List.append_nil, (hdrop hd).1]
        exact List.perm_cons_erase (hrep.list.slabs x (by simp)).page.1
    · refine h'.update [] [] hrep' hw ?_
        List.nodup_nil (by simp) ?_
      · rw [List.append_nil, deallocate_eq hrep.list.nodup, if_neg hd]
        exact hmid
      · rw [List.append_nil, (hkeep hd).1]
        exact .refl _
  · split
    · exact (hdrop ‹_›).1
    · exact (hkeep ‹_›).1
  · split
    · exact (hdrop ‹_›).2
    · exact (hkeep ‹_›).2

end Pools

/-! ## The loops over the array -/

section Loops

variable {w w' : World} {os : Os} {l r pools : List slab_pool} {pool pool' : slab_pool}
  {n p : ℕ}

/-- `smalloc` stops at the first pool whose slots are large enough. -/
theorem smalloc_pool (hl : ∀ u ∈ l, u.allocation_size < n) (hn : n ≤ pool.allocation_size)
    (h : slab_pool_allocate os pool w = .ok ((pool', p), w')) :
    smalloc os (l ++ pool :: r) n w = .ok ((l ++ pool' :: r, p), w') := by
  induction l with
  | nil =>
      rw [List.nil_append, smalloc, if_pos hn, bind_ok h]
      rfl
  | cons u l ih =>
      have hu := hl u List.mem_cons_self
      rw [List.cons_append, smalloc, if_neg (by omega),
        bind_ok (ih fun y hy => hl y (List.mem_cons_of_mem u hy))]
      rfl

/-- `smalloc` goes to the system allocator when no pool is large enough. -/
theorem smalloc_system (hall : ∀ u ∈ pools, u.allocation_size < n)
    (h : malloc os n w = .ok (p, w')) : smalloc os pools n w = .ok ((pools, p), w') := by
  induction pools with
  | nil =>
      rw [smalloc, bind_ok h]
      rfl
  | cons u l ih =>
      have hu := hall u List.mem_cons_self
      rw [smalloc, if_neg (by omega), bind_ok (ih fun y hy => hall y (List.mem_cons_of_mem u hy))]
      rfl

/-- `sfree` stops at the pool of the slab's size. -/
theorem sfree_loop_pool (hl : ∀ u ∈ l, u.allocation_size ≠ n) (hn : pool.allocation_size = n)
    (h : slab_pool_deallocate pool p w = .ok (pool', w')) :
    sfree_loop n p (l ++ pool :: r) w = .ok (l ++ pool' :: r, w') := by
  induction l with
  | nil =>
      rw [List.nil_append, sfree_loop, if_pos hn, bind_ok h]
      rfl
  | cons u l ih =>
      rw [List.cons_append, sfree_loop, if_neg (hl u List.mem_cons_self),
        bind_ok (ih fun y hy => hl y (List.mem_cons_of_mem u hy))]
      rfl

end Loops

/-! ## Creating the pools -/

/-- The kernel's answers to `k` mappings, from the `i`-th on: each is free in `w`, and they
do not overlap. -/
structure InitFresh (w : World) (os : ℕ → Os) (i k : ℕ) : Prop where
  fresh : ∀ j, i ≤ j → j < i + k → MmapFresh w (os j).mmap POOL_START_SIZE
  apart : ∀ j j', i ≤ j → j < j' → j' < i + k →
    (os j).mmap + POOL_START_SIZE * SLAB_PAGE_SIZE ≤ (os j').mmap
      ∨ (os j').mmap + POOL_START_SIZE * SLAB_PAGE_SIZE ≤ (os j).mmap

/-- The pages of those mappings. -/
def initPages (os : ℕ → Os) (i k : ℕ) : List ℕ :=
  (List.range' i k).flatMap fun j => pages (os j).mmap POOL_START_SIZE

/-- After the first mapping the others are still free. -/
theorem InitFresh.tail {w w' : World} {os : ℕ → Os} {i k : ℕ} (h : InitFresh w os i (k + 1))
    (hm : w'.mapped = w.mapped ++ pages (os i).mmap POOL_START_SIZE) (hh : w'.heap = w.heap) :
    InitFresh w' os (i + 1) k := by
  refine ⟨fun j h1 h2 => ?_, fun j j' h1 h2 h3 => h.apart j j' (by omega) h2 (by omega)⟩
  have hf := h.fresh j (by omega) (by omega)
  refine ⟨hf.aligned, hf.low, hf.high, fun p hp => ?_, hh ▸ hf.heap⟩
  rw [hm] at hp
  rcases List.mem_append.mp hp with hp | hp
  · exact hf.mapped p hp
  · obtain ⟨n, hn, rfl⟩ := mem_pages.mp hp
    have := h.apart i j (le_refl i) (by omega) (by omega)
    unfold POOL_START_SIZE SLAB_PAGE_SIZE at *
    omega

/-- A size that fits its shape. -/
theorem size_of_shape {size : ℕ} (hs : size < 2 ^ 31) (hn : 1 ≤ num_buffers (int_of_size_t size)) :
    (Shape.of (int_of_size_t size) hn).size = size := by
  change size_t_of_int (int_of_size_t size).toInt = size
  rw [int_of_size_t_of_lt hs, size_t_of_int_natCast (by omega)]

/-- A pool just created, on the pages of its mapping. -/
structure PoolView.New (w : World) (v : PoolView) : Prop where
  rep : PoolRep w v.shape v.shape.size v.pool v.slabs
  room : 2 ≤ v.shape.cap
  slabs : ∃ a, v.slabs = (pages a POOL_START_SIZE).map (PoolSlab.fresh _)
  zero : ∀ b ∈ v.bases, ∀ a, b + 64 + 5 * v.shape.cap ≤ a → a < b + 4096 → w.mem a = 0

theorem PoolView.New.busy {w : World} {v : PoolView} (h : v.New w) : v.busy = [] := by
  obtain ⟨a, ha⟩ := h.slabs
  have hb : busyPtrs v.shape ((pages a POOL_START_SIZE).map (PoolSlab.fresh _) ++ [])
      = busyPtrs v.shape [] := busyPtrs_fresh
  rw [List.append_nil, ← ha] at hb
  exact hb

/-- The loop of `smalloc_initialize`. -/
theorem create_pools_spec {os : ℕ → Os} {sizes : List ℕ} : ∀ {i : ℕ} {w : World},
    (∀ s ∈ sizes, s < 2 ^ 31 ∧ 2 ≤ num_buffers (int_of_size_t s)) →
    InitFresh w os i sizes.length →
    ∃ (vs : List PoolView) (w' : World),
      create_pools os i sizes w = .ok (vs.map PoolView.pool, w')
      ∧ vs.map (fun v => v.shape.size) = sizes ∧ (∀ v ∈ vs, v.New w')
      ∧ vs.flatMap PoolView.bases = initPages os i sizes.length
      ∧ w'.mapped = w.mapped ++ initPages os i sizes.length ∧ w'.heap = w.heap
      ∧ ∀ a, pageOf (a % 2 ^ 64) ∉ initPages os i sizes.length → w'.mem a = w.mem a := by
  induction sizes with
  | nil =>
      intro i w _ _
      exact ⟨[], w, rfl, rfl, by simp, rfl, (List.append_nil _).symm, rfl, fun _ _ => rfl⟩
  | cons size sizes ih =>
      intro i w hsizes hf
      obtain ⟨hlt, h2⟩ := hsizes size List.mem_cons_self
      have hn : 1 ≤ num_buffers (int_of_size_t size) := by omega
      have hfirst := hf.fresh i (le_refl i) (by rw [List.length_cons]; omega)
      obtain ⟨pool, w₁, hrun, hrep, hw, hm, -, hz⟩ := slab_pool_create_spec hn hfirst
      have hshape := size_of_shape hlt hn
      -- the induction is on the sizes, with the remaining answers still free after this mapping
      have hf₁ := InitFresh.tail (k := sizes.length) hf hm hw.heap
      obtain ⟨vs, w', hrun', hmap, hnew, hbases, hm', hh', hmem⟩ :=
        ih (fun s hs => hsizes s (List.mem_cons_of_mem size hs)) hf₁
      have hpages : initPages os i (sizes.length + 1)
          = pages (os i).mmap POOL_START_SIZE ++ initPages os (i + 1) sizes.length := by
        rw [initPages, List.range'_succ, List.flatMap_cons]
        rfl
      -- what the later pools write is on later pages
      have hkeep : ∀ b ∈ pages (os i).mmap POOL_START_SIZE, ∀ a, b ≤ a → a < b + 4096 →
          w'.mem a = w₁.mem a := by
        intro b hb a h1 h2
        obtain ⟨n, hn', rfl⟩ := mem_pages.mp hb
        have hal := hfirst.aligned
        have hhi := hfirst.high
        unfold SLAB_PAGE_SIZE at hal hhi
        unfold POOL_START_SIZE at hn' hhi
        refine hmem a fun hp => ?_
        rw [Nat.mod_eq_of_lt (by omega), pageOf_eq (by omega) h1 h2, initPages,
          List.mem_flatMap] at hp
        obtain ⟨j, hj, hp⟩ := hp
        obtain ⟨m, hm'', he⟩ := mem_pages.mp hp
        have hjr := List.mem_range'_1.mp hj
        have := hf.apart i j (le_refl i) (by omega) (by rw [List.length_cons]; omega)
        unfold POOL_START_SIZE SLAB_PAGE_SIZE at *
        omega
      refine ⟨⟨Shape.of (int_of_size_t size) hn, pool,
        (pages (os i).mmap POOL_START_SIZE).map (PoolSlab.fresh _)⟩ :: vs, w', ?_, ?_, ?_, ?_, ?_,
        ?_, ?_⟩
      · rw [create_pools, bind_ok hrun, bind_ok hrun']
        rfl
      · rw [List.map_cons, hmap]
        exact congrArg (· :: sizes) hshape
      · intro v hv
        rcases List.mem_cons.mp hv with rfl | hv
        · refine ⟨?_, h2, ⟨_, rfl⟩, fun b hb a h1 h2 => ?_⟩
          · simp only [hshape]
            refine hrep.congr (fun b hb => ?_) fun b hb a h1 h2 => ?_
            · rw [hm', hm]
              rw [bases_fresh] at hb
              exact List.mem_append_left _ (List.mem_append_right _ hb)
            · have := (Shape.of (int_of_size_t size) hn).cap_le
              rw [bases_fresh] at hb
              exact hkeep b hb a h1 (by omega)
          · have hb' : b ∈ pages (os i).mmap POOL_START_SIZE := by
              rwa [PoolView.bases, bases_fresh] at hb
            rw [hkeep b hb' a (by omega) h2]
            exact hz b hb' a h1 h2
        · exact hnew v hv
      · rw [List.flatMap_cons, hbases, List.length_cons, hpages]
        exact congrArg (· ++ _) bases_fresh
      · rw [hm', hm, List.length_cons, hpages, List.append_assoc]
      · rw [hh', hw.heap]
      · intro a ha
        rw [List.length_cons, hpages, List.mem_append, not_or] at ha
        rw [hmem a ha.2, hw.mem a (by simp) ha.1]

/-- The mappings do not share pages. -/
theorem InitFresh.nodup {w : World} {os : ℕ → Os} {i k : ℕ} (h : InitFresh w os i k) :
    (initPages os i k).Nodup := by
  refine List.nodup_flatMap.mpr ⟨fun _ _ => nodup_pages, ?_⟩
  refine List.Pairwise.imp_of_mem ?_ List.pairwise_lt_range'
  intro j j' hj hj' hlt p hp hp'
  obtain ⟨n, hn, rfl⟩ := mem_pages.mp hp
  obtain ⟨m, hm, he⟩ := mem_pages.mp hp'
  have hjr := List.mem_range'_1.mp hj
  have hjr' := List.mem_range'_1.mp hj'
  have := h.apart j j' hjr.1 hlt hjr'.2
  unfold POOL_START_SIZE SLAB_PAGE_SIZE at *
  omega

/-- **`smalloc_initialize`**: one new pool for each cache size. -/
theorem smalloc_initialize_spec {os : ℕ → Os} {w : World}
    (h : InitFresh w os 0 cache_sizes.length) :
    ∃ (vs : List PoolView) (w' : World),
      smalloc_initialize os w = .ok (vs.map PoolView.pool, w')
      ∧ vs.map (fun v => v.shape.size) = cache_sizes ∧ Pools w' w.mapped vs
      ∧ (∀ v ∈ vs, v.New w') ∧ vs.flatMap PoolView.bases = initPages os 0 cache_sizes.length
      ∧ w'.heap = w.heap
      ∧ ∀ a, pageOf (a % 2 ^ 64) ∉ initPages os 0 cache_sizes.length → w'.mem a = w.mem a := by
  obtain ⟨vs, w', hrun, hsizes, hnew, hbases, hm, hh, hmem⟩ := create_pools_spec (by decide) h
  refine ⟨vs, w', hrun, hsizes, ⟨fun v hv => (hnew v hv).rep, fun v hv => (hnew v hv).room, ?_,
    by rw [hbases]; exact h.nodup, by rw [hm, hbases]⟩, hnew, hbases, hh, hmem⟩
  rw [hsizes]
  decide

end SlabAllocator
