/-
Runs of one pool: `slab_pool_create`, then any order of allocations and releases
of live pointers.

`PoolInv` ties the process to a list of slabs of the model: the list is what is
in memory, its busy slots are the live pointers, and its pages are what the pool
has mapped and not unmapped. Each of the two calls has a step lemma that carries
it along the operation of the model, so a law about runs is a law about the
model, read back through the state. The laws are stated on what a state shows
(`World.slabs`, the fields of the slabs, the counters), never on the model.
-/
import SlabAllocator.PoolOps
import SlabAllocator.Runs

set_option autoImplicit false

open DoublyLinked Runs

namespace SlabAllocator

/-! ## States and steps -/

/-- A pool in use: the process, the pool, and the pointers handed out and not yet
returned. -/
structure PoolState where
  world : World
  pool : slab_pool
  live : List ℕ

/-- The calls of a run. The kernel's answer comes with the call. -/
inductive PoolEvent
  | allocate (os : Os)
  | deallocate (ptr : ℕ)

/-- One call, in a process whose kernel has memory to give. -/
inductive PoolStep : PoolState → PoolEvent → PoolState → Prop
  | allocate {σ : PoolState} {os : Os} {pool : slab_pool} {p : ℕ} {w' : World}
      (hfresh : MmapFresh σ.world os.mmap POOL_GROW_RATE)
      (hrun : slab_pool_allocate os σ.pool σ.world = .ok ((pool, p), w')) :
      PoolStep σ (.allocate os) ⟨w', pool, p :: σ.live⟩
  | deallocate {σ : PoolState} {pool : slab_pool} {p : ℕ} {w' : World} (hlive : p ∈ σ.live)
      (hrun : slab_pool_deallocate σ.pool p σ.world = .ok (pool, w')) :
      PoolStep σ (.deallocate p) ⟨w', pool, σ.live.erase p⟩

/-- A pool of the given allocation size, just created in the process `w₀`. -/
structure Opened (size : ℕ) (w₀ : World) (σ : PoolState) (os : Os) : Prop where
  fresh : MmapFresh w₀ os.mmap POOL_START_SIZE
  run : slab_pool_create os size w₀ = .ok (σ.pool, σ.world)
  live : σ.live = []

/-- A run of a pool from its creation in `w₀` to `σ`. -/
def PoolRun (size : ℕ) (w₀ : World) (t : List (PoolState × PoolEvent)) (σ : PoolState) : Prop :=
  ∃ σ₀ os, Opened size w₀ σ₀ os ∧ Run PoolStep σ₀ t σ

/-! ## What a state shows -/

/-- The slabs met by following `next` from `list_start`. A chain of mapped pages has no
more slabs than there are pages, so the walk ended at `NULL`. -/
def World.slabs (w : World) (pool : slab_pool) : List ℕ :=
  walk (w.field · .next) NULL (w.mapped.length + 1) pool.list_start

/-- `slab->ref_count == slab->max_refs`. -/
def World.SlabFull (w : World) (slab : ℕ) : Prop :=
  w.field slab .ref_count = w.field slab .max_refs

/-- The first slab and the one after it, if there is one, are full: the next allocation
grows the pool. -/
def PoolState.NeedsGrowth (σ : PoolState) : Prop :=
  σ.world.SlabFull σ.pool.list_start
    ∧ (σ.world.field σ.pool.list_start .next ≠ NULL →
      σ.world.SlabFull (σ.world.field σ.pool.list_start .next))

/-- The links of a pool's list, read from memory: no slab comes twice, the walk ends at
`list_end`, and the walk back from there is the reverse. -/
structure World.WellLinked (w : World) (pool : slab_pool) : Prop where
  nonempty : w.slabs pool ≠ []
  nodup : (w.slabs pool).Nodup
  stop : (w.slabs pool).getLast? = some pool.list_end
  next_stop : w.field pool.list_end .next = NULL
  prev_start : w.field pool.list_start .prev = NULL
  backward : walk (w.field · .prev) NULL (w.mapped.length + 1) pool.list_end
    = (w.slabs pool).reverse

/-! ## The invariant -/

/-- The addresses of the busy slots of a list of slabs. -/
def busyPtrs (g : Shape) (xs : List (PoolSlab g.cap)) : List ℕ :=
  xs.flatMap fun x => x.slots.busy.map (g.slot x.base)

/-- The slabs `xs` are what the pool has: in memory, in use and mapped. -/
structure PoolInv (w₀ : World) (g : Shape) (size : ℕ) (σ : PoolState)
    (xs : List (PoolSlab g.cap)) : Prop where
  rep : PoolRep σ.world g size σ.pool xs
  live : σ.live.Perm (busyPtrs g xs)
  mapped : σ.world.mapped.Perm (w₀.mapped ++ bases xs)
  heap : σ.world.heap = w₀.heap

section Pointers

variable {g : Shape} {xs ys l r : List (PoolSlab g.cap)} {x : PoolSlab g.cap} {a b f i k : ℕ}

theorem busyPtrs_perm (h : xs.Perm ys) : (busyPtrs g xs).Perm (busyPtrs g ys) :=
  h.flatMap_right _

theorem busyPtrs_fresh : busyPtrs g ((pages a k).map (PoolSlab.fresh g.cap) ++ xs)
    = busyPtrs g xs := by
  rw [busyPtrs, List.flatMap_append, List.flatMap_map]
  simp [PoolSlab.fresh, busyPtrs]

theorem busyPtrs_serve (h : serve xs = some (b, f, ys)) :
    (busyPtrs g ys).Perm (g.slot b f :: busyPtrs g xs) := by
  obtain ⟨x, rest, s', rfl, rfl, ha, rfl⟩ := serve_some h
  have hb := (Slots.alloc_some ha).2
  simp only [busyPtrs, List.flatMap_cons, hb, List.map_append, List.map_singleton]
  rw [List.append_assoc]
  exact List.perm_middle

theorem busyPtrs_arrange (a : ℕ) (xs : List (PoolSlab g.cap)) :
    (busyPtrs g (arrange a xs)).Perm (busyPtrs g xs) := by
  by_cases hg : Grows xs
  · rw [arrange_of_grows a hg, busyPtrs_fresh]
    exact busyPtrs_perm (List.rotate_perm xs 2)
  · exact busyPtrs_perm (arrange_of_not_grows a hg)

/-- The objects after an allocation. -/
theorem busyPtrs_allocate (h : allocate a xs = some (b, f, ys)) :
    (busyPtrs g ys).Perm (g.slot b f :: busyPtrs g xs) :=
  (busyPtrs_serve h).trans ((busyPtrs_arrange a xs).cons _)

theorem busyPtrs_dealloc (hi : i ∈ x.slots.busy) : (busyPtrs g (l ++ x :: r)).Perm
    (g.slot x.base i :: busyPtrs g (⟨x.base, x.slots.dealloc i⟩ :: (l ++ r))) := by
  refine (busyPtrs_perm List.perm_middle).trans ?_
  have hp := ((Slots.dealloc_perm hi).map (g.slot x.base)).append_right (busyPtrs g (l ++ r))
  simpa only [busyPtrs, List.flatMap_cons, List.map_cons, List.cons_append] using hp

theorem busyPtrs_deallocate (hnd : (bases (l ++ x :: r)).Nodup) (hi : i ∈ x.slots.busy) :
    (busyPtrs g (l ++ x :: r)).Perm
      (g.slot x.base i :: busyPtrs g (deallocate x.base i (l ++ x :: r))) := by
  refine (busyPtrs_dealloc hi).trans (List.Perm.cons _ ?_)
  rw [deallocate_eq hnd]
  split
  · rename_i hd
    simp [busyPtrs, hd.1]
  · exact .refl _

/-- A pointer handed out names its slab and its slot. -/
theorem mem_busyPtrs {p : ℕ} (h : p ∈ busyPtrs g xs) :
    ∃ l x r i, xs = l ++ x :: r ∧ i ∈ x.slots.busy ∧ p = g.slot x.base i := by
  obtain ⟨x, hx, hp⟩ := List.mem_flatMap.mp h
  obtain ⟨i, hi, rfl⟩ := List.mem_map.mp hp
  obtain ⟨l, r, rfl⟩ := List.append_of_mem hx
  exact ⟨l, x, r, i, rfl, hi, rfl⟩

/-- The objects of a list of slabs have different addresses. -/
theorem SlabList.nodup_busyPtrs {w : World} {g : Shape} {start stop : ℕ}
    {xs : List (PoolSlab g.cap)} (h : SlabList w g start stop xs) : (busyPtrs g xs).Nodup := by
  have hnd := h.nodup
  have hal : ∀ x ∈ xs, x.base % 4096 = 0 := fun x hx => (h.slabs x hx).page.2
  clear h
  induction xs with
  | nil => exact List.nodup_nil
  | cons x xs ih =>
      rw [bases, List.map_cons, List.nodup_cons] at hnd
      rw [busyPtrs, List.flatMap_cons]
      refine List.nodup_append.mpr ⟨?_, ih hnd.2 fun y hy => hal y (List.mem_cons_of_mem x hy), ?_⟩
      · exact (List.nodup_append.mp x.slots.nodup).2.1.map fun i j hij => g.slot_inj hij
      · intro p hp q hq hpq
        obtain ⟨i, hi, rfl⟩ := List.mem_map.mp hp
        obtain ⟨y, hy, hq⟩ := List.mem_flatMap.mp hq
        obtain ⟨j, hj, rfl⟩ := List.mem_map.mp hq
        have hb := (g.slot_page_inj (hal x List.mem_cons_self)
          (hal y (List.mem_cons_of_mem x hy)) (Slots.busy_lt hi) (Slots.busy_lt hj) hpq).1
        exact hnd.1 (hb ▸ List.mem_map_of_mem hy)

end Pointers

section Steps

variable {w₀ : World} {g : Shape} {size : ℕ} {σ : PoolState} {xs : List (PoolSlab g.cap)}

/-- **One allocation.** It succeeds, follows the model and keeps the invariant; the
kernel is called exactly when the model grows. -/
theorem PoolInv.allocate (h : PoolInv w₀ g size σ xs) (h2 : 2 ≤ g.cap) (os : Os)
    (hf : Grows xs → MmapFresh σ.world os.mmap POOL_GROW_RATE) :
    ∃ b f ys pool' w', slab_pool_allocate os σ.pool σ.world = .ok ((pool', g.slot b f), w')
      ∧ SlabAllocator.allocate os.mmap xs = some (b, f, ys)
      ∧ PoolInv w₀ g size ⟨w', pool', g.slot b f :: σ.live⟩ ys
      ∧ w'.calls = if Grows xs
          then .mmap (SLAB_PAGE_SIZE * POOL_GROW_RATE) os.mmap :: σ.world.calls
          else σ.world.calls := by
  obtain ⟨b, f, ys, pool', w', hrun, ha, hrep, hw, hm, hc⟩ := slab_pool_allocate_spec h.rep h2 hf
  have hlive : (g.slot b f :: σ.live).Perm (busyPtrs g ys) :=
    (h.live.cons _).trans (busyPtrs_allocate ha).symm
  refine ⟨b, f, ys, pool', w', hrun, ha, ⟨hrep, hlive, ?_, hw.heap.trans h.heap⟩, hc⟩
  simp only [hm]
  refine (h.mapped.append_right _).trans ?_
  rw [List.append_assoc]
  exact (bases_allocate ha).symm.append_left _

/-- **One release** of a live pointer. It succeeds, follows the model and keeps the
invariant; the page is unmapped exactly when the model drops the slab. -/
theorem PoolInv.deallocate (h : PoolInv w₀ g size σ xs) {p : ℕ} (hp : p ∈ σ.live) :
    ∃ l x r i pool' w', xs = l ++ x :: r ∧ i ∈ x.slots.busy ∧ p = g.slot x.base i
      ∧ slab_pool_deallocate σ.pool p σ.world = .ok (pool', w')
      ∧ PoolInv w₀ g size ⟨w', pool', σ.live.erase p⟩ (SlabAllocator.deallocate x.base i xs)
      ∧ w'.mapped = if Drops x (l ++ r) i then σ.world.mapped.erase x.base
          else σ.world.mapped := by
  obtain ⟨l, x, r, i, rfl, hi, rfl⟩ := mem_busyPtrs (h.live.mem_iff.mp hp)
  obtain ⟨pool', w', hrun, hrep, hw, hkeep, hdrop⟩ := slab_pool_deallocate_spec h.rep hi
  have hnd := h.rep.list.nodup
  have hlive := (h.live.trans (busyPtrs_deallocate hnd hi)).erase (g.slot x.base i)
  rw [List.erase_cons_head] at hlive
  have hmid : (bases (l ++ x :: r)).Perm (x.base :: bases (l ++ r)) :=
    List.perm_middle.map PoolSlab.base
  refine ⟨l, x, r, i, pool', w', rfl, hi, rfl, hrun, ⟨hrep, hlive, ?_, hw.heap.trans h.heap⟩, ?_⟩
  · rw [deallocate_eq hnd]
    by_cases hd : Drops x (l ++ r) i
    · rw [if_pos hd]
      simp only [(hdrop hd).1]
      have hperm := (h.mapped.trans ((hmid.append_left _).trans List.perm_middle)).erase x.base
      rwa [List.erase_cons_head] at hperm
    · rw [if_neg hd]
      simp only [(hkeep hd).1]
      exact h.mapped.trans (hmid.append_left _)
  · split
    · rename_i hd
      exact (hdrop hd).1
    · rename_i hd
      exact (hkeep hd).1

end Steps

/-! ## Reading a state -/

section Reading

variable {w : World} {g : Shape} {size : ℕ} {pool : slab_pool} {xs : List (PoolSlab g.cap)}

theorem bases_ne_nil (h : xs ≠ []) : bases xs ≠ [] := fun he => h (List.map_eq_nil_iff.mp he)

theorem Chain.length_le {bs : List ℕ} (h : Chain w bs) : bs.length ≤ w.mapped.length :=
  (h.nodup.subperm fun b hb => (h.page b hb).1).length_le

theorem Chain.null_not_mem {bs : List ℕ} (h : Chain w bs) : NULL ∉ bs :=
  fun hm => h.ne_null hm rfl

/-- The walk from the first slab of a chain finds the chain. -/
theorem Chain.slabs_eq {bs : List ℕ} (h : Chain w bs) (hs : pool.list_start = bs.headD NULL) :
    w.slabs pool = bs := by
  rw [World.slabs, hs]
  exact h.links.walk_eq h.null_not_mem (Nat.le_succ_of_le h.length_le)

/-- The walk finds the slabs of the model. -/
theorem PoolRep.slabs_eq (h : PoolRep w g size pool xs) : w.slabs pool = bases xs :=
  h.list.chain.slabs_eq h.list.start

theorem PoolRep.wellLinked (h : PoolRep w g size pool xs) : w.WellLinked pool := by
  have hne := bases_ne_nil h.list.nonempty
  have hch := h.list.chain
  have hlast : (bases xs).reverse.headD NULL = pool.list_end := by
    rw [h.list.stop]
    obtain ⟨l, a, he⟩ := (List.eq_nil_or_concat' _).resolve_left hne
    rw [he, List.reverse_concat, List.headD_cons, List.getLastD_concat]
  refine ⟨by rw [h.slabs_eq]; exact hne, by rw [h.slabs_eq]; exact hch.nodup, ?_, ?_, ?_, ?_⟩
  · rw [h.slabs_eq, h.list.stop]
    obtain ⟨l, a, he⟩ := (List.eq_nil_or_concat' _).resolve_left hne
    rw [he, List.getLast?_concat, List.getLastD_concat]
  · rw [h.list.stop]
    exact hch.links.next_last hne NULL
  · rw [h.list.start]
    exact hch.links.prev_head hne NULL
  · rw [h.slabs_eq, ← hlast]
    refine hch.links.reverse.walk_eq (fun hm => hch.null_not_mem (List.mem_reverse.mp hm)) ?_
    rw [List.length_reverse]
    exact Nat.le_succ_of_le hch.length_le

theorem PoolRep.slabFull_iff (h : PoolRep w g size pool xs) {x : PoolSlab g.cap} (hx : x ∈ xs) :
    w.SlabFull x.base ↔ x.Full := (h.list.slabs x hx).full_iff

theorem needsGrowth_iff {σ : PoolState} (h : PoolRep σ.world g size σ.pool xs) :
    σ.NeedsGrowth ↔ Grows xs := by
  obtain ⟨x, rest, rfl⟩ := List.exists_cons_of_ne_nil h.list.nonempty
  have hstart : σ.pool.list_start = x.base := h.list.head
  have hnext : σ.world.field x.base .next = (bases rest).headD NULL := h.list.chain.links.2.1
  have hx := h.slabFull_iff (x := x) List.mem_cons_self
  unfold PoolState.NeedsGrowth Grows
  rw [hstart, hx, hnext, List.rotate_cons_succ, List.rotate_zero]
  rcases rest with _ | ⟨y, rest⟩
  · simp [FirstFull, bases]
  · have hy := h.slabFull_iff (x := y) (by simp)
    have hyn : y.base ≠ NULL := h.list.chain.ne_null (by simp [bases])
    simp [FirstFull, bases, hyn, hy]

end Reading

/-! ## Runs -/

section PoolRuns

variable {size : ℕ} {w₀ : World} {t : List (PoolState × PoolEvent)} {σ : PoolState}

/-- A new pool satisfies the invariant. -/
theorem Opened.inv {os : Os} (hn : 1 ≤ num_buffers (int_of_size_t size))
    (h : Opened size w₀ σ os) : PoolInv w₀ (Shape.of (int_of_size_t size) hn) size σ
      ((pages os.mmap POOL_START_SIZE).map (PoolSlab.fresh _)) := by
  obtain ⟨pool, w', hrun, hrep, hw, hm, -⟩ := slab_pool_create_spec hn h.fresh
  have hr := h.run
  rw [hrun] at hr
  cases hr
  refine ⟨hrep, ?_, ?_, hw.heap⟩
  · have hb : busyPtrs (Shape.of (int_of_size_t size) hn)
        ((pages os.mmap POOL_START_SIZE).map (PoolSlab.fresh _) ++ []) = [] := busyPtrs_fresh
    rw [List.append_nil] at hb
    rw [h.live, hb]
  · rw [hm, bases_fresh]

/-- Every state of a run is described by a list of slabs. -/
theorem PoolRun.inv (h2 : 2 ≤ num_buffers (int_of_size_t size)) (hrun : PoolRun size w₀ t σ) :
    ∃ xs, PoolInv w₀ (Shape.of (int_of_size_t size) (Nat.le_of_succ_le h2)) size σ xs := by
  obtain ⟨σ₀, os, hopen, hr⟩ := hrun
  refine hr.always
    (P := fun σ => ∃ xs, PoolInv w₀ (Shape.of _ (Nat.le_of_succ_le h2)) size σ xs)
    ⟨_, hopen.inv _⟩ ?_
  rintro s e s' ⟨xs, hi⟩ hs
  cases hs with
  | allocate hfresh hok =>
      obtain ⟨b, f, ys, pool', w', hok', -, hi', -⟩ := hi.allocate h2 _ fun _ => hfresh
      rw [hok'] at hok
      cases hok
      exact ⟨ys, hi'⟩
  | deallocate hlive hok =>
      obtain ⟨l, x, r, i, pool', w', rfl, -, -, hok', hi', -⟩ := hi.deallocate hlive
      rw [hok'] at hok
      cases hok
      exact ⟨_, hi'⟩

end PoolRuns

/-! ## Histories

Every history of the model is a run of the code, in a process that starts with nothing
mapped. Histories can be computed. -/

/-- A process with nothing mapped and nothing allocated. -/
def World.empty : World := ⟨fun _ => 0, [], [], []⟩

/-- A call of the model, the allocation with the place of a new mapping. -/
inductive PoolOp
  | allocate (a : ℕ)
  | deallocate (b i : ℕ)

/-- The kernel can put a new mapping at `a`. -/
def Room {n : ℕ} (a : ℕ) (xs : List (PoolSlab n)) : Prop :=
  a % 4096 = 0 ∧ 4096 ≤ a ∧ a + POOL_GROW_RATE * 4096 < 2 ^ 64
    ∧ ∀ x ∈ xs, x.base + 4096 ≤ a ∨ a + POOL_GROW_RATE * 4096 ≤ x.base

instance {n : ℕ} (a : ℕ) (xs : List (PoolSlab n)) : Decidable (Room a xs) :=
  inferInstanceAs (Decidable (_ ∧ _ ∧ _ ∧ _))

/-- One call of a history. -/
def PoolOp.exec {n : ℕ} : PoolOp → List (PoolSlab n) → Option (List (PoolSlab n))
  | .allocate a, xs => if Room a xs then (SlabAllocator.allocate a xs).map fun r => r.2.2 else none
  | .deallocate b i, xs =>
      if ∃ x ∈ xs, x.base = b ∧ i ∈ x.slots.busy then
        some (SlabAllocator.deallocate b i xs)
      else none

/-- A history. -/
def history {n : ℕ} : List PoolOp → List (PoolSlab n) → Option (List (PoolSlab n))
  | [], xs => some xs
  | op :: ops, xs => (op.exec xs).bind (history ops)

section Histories

variable {g : Shape} {size : ℕ} {σ σ₀ : PoolState} {xs ys : List (PoolSlab g.cap)}

theorem Room.fresh {a : ℕ} (h : Room a xs) (hi : PoolInv World.empty g size σ xs) :
    MmapFresh σ.world a POOL_GROW_RATE := by
  obtain ⟨h1, h2, h3, h4⟩ := h
  refine ⟨h1, h2, h3, fun p hp => ?_, fun c hc => ?_⟩
  · have hm := hi.mapped.mem_iff.mp hp
    rw [World.empty, List.nil_append] at hm
    obtain ⟨x, hx, rfl⟩ := List.mem_map.mp hm
    exact h4 x hx
  · rw [hi.heap] at hc
    cases hc

/-- A call of the model is a call of the code. -/
theorem step_of_exec (h2 : 2 ≤ g.cap) (hi : PoolInv World.empty g size σ xs) {op : PoolOp}
    (he : op.exec xs = some ys) :
    ∃ e σ', PoolStep σ e σ' ∧ PoolInv World.empty g size σ' ys := by
  cases op with
  | allocate a =>
      rw [PoolOp.exec] at he
      split at he
      · rename_i hroom
        obtain ⟨b, f, zs, pool', w', hok, ha, hi', -⟩ :=
          hi.allocate h2 ⟨a, 0, fun _ => 0⟩ fun _ => hroom.fresh hi
        rw [ha] at he
        cases he
        exact ⟨_, _, .allocate (hroom.fresh hi) hok, hi'⟩
      · cases he
  | deallocate b i =>
      rw [PoolOp.exec] at he
      split at he
      · rename_i hlive
        obtain ⟨x, hx, rfl, hib⟩ := hlive
        cases he
        have hp : g.slot x.base i ∈ σ.live := hi.live.mem_iff.mpr
          (List.mem_flatMap.mpr ⟨x, hx, List.mem_map_of_mem hib⟩)
        obtain ⟨l, y, r, j, pool', w', rfl, hjb, hslot, hok, hi', -⟩ := hi.deallocate hp
        have hy : y ∈ l ++ y :: r := by simp
        obtain ⟨hbase, rfl⟩ := g.slot_page_inj (hi.rep.list.slabs x hx).page.2
          (hi.rep.list.slabs y hy).page.2 (Slots.busy_lt hib) (Slots.busy_lt hjb) hslot
        rw [hbase]
        exact ⟨_, _, .deallocate hp hok, hi'⟩
      · cases he

/-- A history of the model is a run of the code. -/
theorem run_of_history (h2 : 2 ≤ g.cap) {ops : List PoolOp} :
    ∀ {t σ} {xs : List (PoolSlab g.cap)}, Run PoolStep σ₀ t σ →
      PoolInv World.empty g size σ xs → history ops xs = some ys →
      ∃ t' σ', Run PoolStep σ₀ t' σ' ∧ PoolInv World.empty g size σ' ys := by
  induction ops with
  | nil =>
      intro t σ xs hr hi he
      cases he
      exact ⟨t, σ, hr, hi⟩
  | cons op ops ih =>
      intro t σ xs hr hi he
      obtain ⟨zs, hz, he'⟩ := Option.bind_eq_some_iff.mp he
      obtain ⟨e, σ', hstep, hi'⟩ := step_of_exec h2 hi hz
      exact ih (.next hr hstep) hi' he'

/-- A pool can be created where the kernel grants a mapping. -/
theorem exists_opened {w₀ : World} (os : Os) (hn : 1 ≤ num_buffers (int_of_size_t size))
    (hf : MmapFresh w₀ os.mmap POOL_START_SIZE) : ∃ σ, Opened size w₀ σ os := by
  obtain ⟨pool, w', hrun, -⟩ := slab_pool_create_spec hn hf
  exact ⟨⟨w', pool, []⟩, hf, hrun, rfl⟩

/-- The kernel of an empty process can answer with the second page. -/
theorem fresh_empty : MmapFresh World.empty 4096 POOL_START_SIZE :=
  ⟨by decide, by decide, by decide, by simp [World.empty], by simp [World.empty]⟩

/-- Behind the first ten slabs there is room for ten more. -/
theorem room_opened (n : ℕ) :
    Room 45056 ((pages 4096 POOL_START_SIZE).map (PoolSlab.fresh n)) := by
  refine ⟨by decide, by decide, by decide, fun x hx => .inl ?_⟩
  obtain ⟨b, hb, rfl⟩ := List.mem_map.mp hx
  obtain ⟨i, hi, rfl⟩ := mem_pages.mp hb
  unfold POOL_START_SIZE at hi
  change 4096 + i * 4096 + 4096 ≤ 45056
  omega

/-- A new pool and one allocation from it. -/
theorem exists_first_step (h2 : 2 ≤ num_buffers (int_of_size_t size)) :
    ∃ σ₀ os σ p, PoolRun size World.empty [(σ₀, .allocate os)] σ ∧ p ∈ σ.live
      ∧ PoolInv World.empty (Shape.of (int_of_size_t size) (Nat.le_of_succ_le h2)) size σ₀
        ((pages 4096 POOL_START_SIZE).map (PoolSlab.fresh _)) := by
  obtain ⟨σ₀, hopen⟩ := exists_opened ⟨4096, 0, fun _ => 0⟩ (Nat.le_of_succ_le h2)
    fresh_empty
  have hi := hopen.inv (Nat.le_of_succ_le h2)
  have hfresh := Room.fresh (room_opened _) hi
  obtain ⟨b, f, ys, pool', w', hok, -⟩ := hi.allocate h2 ⟨45056, 0, fun _ => 0⟩ fun _ => hfresh
  exact ⟨σ₀, _, _, _, ⟨σ₀, _, hopen, .next .start (.allocate hfresh hok)⟩, List.mem_cons_self, hi⟩

/-- A run of the code for a history of the model that starts with a new pool. -/
theorem exists_run_of_history (h2 : 2 ≤ num_buffers (int_of_size_t size)) (ops : List PoolOp)
    (P : List (PoolSlab (num_buffers (int_of_size_t size))) → Prop) [DecidablePred P]
    (h : (history ops ((pages 4096 POOL_START_SIZE).map (PoolSlab.fresh _))).any (P ·) = true) :
    ∃ t σ xs, PoolRun size World.empty t σ
      ∧ PoolInv World.empty (Shape.of (int_of_size_t size) (Nat.le_of_succ_le h2)) size σ xs
      ∧ P xs := by
  obtain ⟨ys, hy, hP⟩ := (Option.any_eq_true _ _).mp h
  obtain ⟨σ₀, hopen⟩ := exists_opened ⟨4096, 0, fun _ => 0⟩ (Nat.le_of_succ_le h2)
    fresh_empty
  obtain ⟨t, σ, hr, hi⟩ := run_of_history
    (g := Shape.of (int_of_size_t size) (Nat.le_of_succ_le h2)) h2 .start (hopen.inv _) hy
  exact ⟨t, σ, ys, ⟨σ₀, _, hopen, hr⟩, hi, of_decide_eq_true hP⟩

end Histories

end SlabAllocator
