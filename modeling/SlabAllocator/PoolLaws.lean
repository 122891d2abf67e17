/-
When a pool grows, when it gives memory back, and what a refused growth does.

Four laws of `slab_pool.c`, each with the condition on the steps of a run, or on
the state of a call, under which the code keeps it. The comparison in
`heuristic_decision_does_free_slab` is `<=` where keeping a minimum needs `>`:
a pool gives slabs back while it has few of them and never again once it has
more than the minimum. Bringing the slab of a released object to the front can
put it before a full first slab, after which the allocator may look at two full
slabs and grow while others have room. And the result of
`mem_slab_create_several` is used without looking at it.

A counterexample to a law about runs needs a run. `history` computes one on the
model, and `run_of_history` turns it into a run of the code.
-/
import SlabAllocator.PoolRuns

set_option autoImplicit false

open DoublyLinked Runs

namespace SlabAllocator

/-! ## Reading a call -/

section Calls

variable {w₀ : World} {g : Shape} {size i : ℕ} {σ : PoolState} {l r : List (PoolSlab g.cap)}
  {x : PoolSlab g.cap}

/-- The release of `p` unmaps its slab. -/
def PoolState.Releases (σ : PoolState) (p : ℕ) : Prop :=
  σ.world.field (get_page_pointer p) .ref_count = 1
    ∧ 2 ≤ (σ.world.slabs σ.pool).length
    ∧ (σ.world.slabs σ.pool).length ≤ σ.pool.params.minimum_empty_slabs

theorem page_of_slot (h : PoolInv w₀ g size σ (l ++ x :: r)) (hi : i ∈ x.slots.busy) :
    get_page_pointer (g.slot x.base i) = x.base :=
  (h.rep.list.slabs x (by simp)).page_of_slot (Slots.busy_lt hi)

theorem length_slabs {xs : List (PoolSlab g.cap)} (h : PoolInv w₀ g size σ xs) :
    (σ.world.slabs σ.pool).length = xs.length := by
  rw [h.rep.slabs_eq, bases, List.length_map]

theorem releases_iff (h : PoolInv w₀ g size σ (l ++ x :: r)) (hi : i ∈ x.slots.busy) :
    σ.Releases (g.slot x.base i) ↔ Drops x (l ++ r) i := by
  have hr := h.rep.list.slabs x (by simp)
  have hlen : (l ++ x :: r).length = (l ++ r).length + 1 := by
    simp only [List.length_append, List.length_cons]
    omega
  unfold PoolState.Releases Drops
  rw [page_of_slot h hi, hr.ref_count, length_slabs h, hlen, h.rep.params, dealloc_busy_eq_nil hi,
    ← List.length_pos_iff]
  change _ ∧ _ ∧ (l ++ r).length + 1 ≤ minimum_slabs ↔ _
  constructor
  · rintro ⟨h1, h2, h3⟩
    exact ⟨h1, by omega, h3⟩
  · rintro ⟨h1, h2, h3⟩
    exact ⟨h1, by omega, h3⟩

end Calls

/-! ## Growth -/

section Growth

variable {w₀ : World} {g : Shape} {size : ℕ} {σ σ' : PoolState} {e : PoolEvent}
  {xs : List (PoolSlab g.cap)}

end Growth

/-! ## Giving memory back -/

/-- An allocation that grows a pool so small that it stays within its minimum. -/
def GrowsWithinMinimum (σ : PoolState) : PoolEvent → Prop
  | .allocate _ => σ.NeedsGrowth →
      (σ.world.slabs σ.pool).length + POOL_GROW_RATE ≤ σ.pool.params.minimum_empty_slabs
  | .deallocate _ => True

/-- What respecting the minimum says about the release of `p`: the page is unmapped only
if the pool keeps `minimum_empty_slabs` slabs, and never by a pool that has no more. -/
def PoolState.RespectsMinimum (σ : PoolState) (p : ℕ) : Prop :=
  ∃ pool' w', slab_pool_deallocate σ.pool p σ.world = .ok (pool', w')
    ∧ (w'.mapped ≠ σ.world.mapped →
        σ.pool.params.minimum_empty_slabs ≤ (w'.slabs pool').length
        ∧ σ.pool.params.minimum_empty_slabs < (σ.world.slabs σ.pool).length)

section Minimum

variable {w₀ : World} {g : Shape} {size : ℕ} {σ σ' : PoolState} {e : PoolEvent}
  {xs : List (PoolSlab g.cap)}

theorem length_drops {l r : List (PoolSlab g.cap)} {x : PoolSlab g.cap} {i : ℕ}
    (h : Drops x (l ++ r) i) : 2 ≤ (l ++ x :: r).length ∧ (l ++ x :: r).length ≤ minimum_slabs := by
  have h1 := List.length_pos_iff.mpr h.2.1
  have h2 := h.2.2
  simp only [List.length_append, List.length_cons] at h1 h2 ⊢
  omega

/-- Over the minimum the number of slabs only grows; within it, it stays there unless an
allocation takes it over. -/
theorem minimum_step (h2 : 2 ≤ g.cap) (hi : PoolInv w₀ g size σ xs) (hstep : PoolStep σ e σ') :
    ∃ ys, PoolInv w₀ g size σ' ys
      ∧ (ys.length ≤ minimum_slabs ↔ xs.length ≤ minimum_slabs ∧ GrowsWithinMinimum σ e) := by
  cases hstep with
  | allocate hfresh hok =>
      obtain ⟨b, f, ys, pool', w', hok', ha, hi', -⟩ := hi.allocate h2 _ fun _ => hfresh
      rw [hok'] at hok
      cases hok
      refine ⟨ys, hi', ?_⟩
      rw [GrowsWithinMinimum, needsGrowth_iff hi.rep, length_slabs hi, hi.rep.params,
        length_allocate ha]
      change _ ↔ _ ∧ (Grows xs → xs.length + POOL_GROW_RATE ≤ minimum_slabs)
      split
      · rename_i hg
        refine ⟨fun h => ⟨by omega, fun _ => h⟩, fun h => h.2 hg⟩
      · rename_i hg
        exact ⟨fun h => ⟨h, fun hg' => absurd hg' hg⟩, fun h => h.1⟩
  | deallocate hlive hok =>
      obtain ⟨l, x, r, i, pool', w', rfl, hib, rfl, hok', hi', -⟩ := hi.deallocate hlive
      rw [hok'] at hok
      cases hok
      refine ⟨_, hi', ?_⟩
      rw [GrowsWithinMinimum, and_true, length_deallocate hi.rep.list.nodup]
      split
      · have := length_drops ‹_›
        omega
      · rfl

/-- A release respects the minimum exactly when it does not unmap. -/
theorem respectsMinimum_iff_of_inv (hi : PoolInv w₀ g size σ xs) {p : ℕ} (hp : p ∈ σ.live) :
    σ.RespectsMinimum p ↔ ¬ σ.Releases p := by
  obtain ⟨l, x, r, i, pool', w', rfl, hib, rfl, hok, hi', hm⟩ := hi.deallocate hp
  have hlen' := length_slabs hi'
  simp only [length_deallocate hi.rep.list.nodup] at hlen'
  rw [releases_iff hi hib]
  unfold PoolState.RespectsMinimum
  rw [length_slabs hi, hi.rep.params]
  constructor
  · rintro ⟨pool₁, w₁, hok₁, hmin⟩ hd
    rw [hok] at hok₁
    cases hok₁
    -- the slab goes, and a pool within its minimum has one slab less then
    have hlen := length_drops hd
    have hne : w'.mapped ≠ σ.world.mapped := by
      intro he
      have hb : x.base ∈ σ.world.mapped := (hi.rep.list.slabs x (by simp)).page.1
      have hlt := List.length_erase_add_one hb
      rw [hm, if_pos hd] at he
      rw [he] at hlt
      omega
    have := (hmin hne).2
    change minimum_slabs < _ at this
    omega
  · intro hd
    exact ⟨pool', w', hok, fun hne => absurd (by rw [hm, if_neg hd]) hne⟩

end Minimum

/-! ## A refused mapping -/

/-- What an atomic failed growth says about a state: a refused mapping makes the
allocation answer `NULL`, and the pool has the slabs it had, well linked, with the
counters that go with them and every live pointer in one of them. -/
def PoolState.FailedGrowthAtomic (σ : PoolState) : Prop :=
  ∀ os, os.mmap = MAP_FAILED → ∃ pool' w',
    slab_pool_allocate os σ.pool σ.world = .ok ((pool', NULL), w')
      ∧ (w'.slabs pool').Perm (σ.world.slabs σ.pool) ∧ w'.WellLinked pool'
      ∧ (w'.slabs pool').length = pool'.data.grow_count - pool'.data.shrink_count
      ∧ ∀ p ∈ σ.live, get_page_pointer p ∈ w'.slabs pool'

/-- `mem_slab_alloc(NULL)` reads the header of a slab at the null page. -/
theorem mem_slab_alloc_null {w : World} (h : ¬ w.Accessible NULL) :
    mem_slab_alloc NULL w = .error (.segv 32) :=
  bind_error (load_segv (a := 32) h (by decide))

/-- An allocation that grows and is refused faults. -/
theorem slab_pool_allocate_refused {w : World} {g : Shape} {size : ℕ} {pool : slab_pool} {os : Os}
    {xs : List (PoolSlab g.cap)} (h : PoolRep w g size pool xs) (hg : Grows xs)
    (hos : os.mmap = MAP_FAILED) (hnull : ¬ w.Accessible NULL) :
    slab_pool_allocate os pool w = .error (.segv 32) := by
  obtain ⟨start', stop', w₁, hrun, -, hw⟩ := slab_pool_allocate_rotated os h hg
  rw [hrun, bind_ok (mem_slab_create_several_failed hos)]
  refine bind_error (mem_slab_alloc_null fun hacc => hnull ?_)
  unfold World.Accessible at hacc ⊢
  rwa [hw.mapped, hw.heap] at hacc

theorem not_failedGrowthAtomic {w₀ : World} {g : Shape} {size : ℕ} {σ : PoolState}
    {xs : List (PoolSlab g.cap)} (hnull : ¬ w₀.Accessible NULL) (hi : PoolInv w₀ g size σ xs)
    (hg : Grows xs) : (∀ os, os.mmap = MAP_FAILED →
        slab_pool_allocate os σ.pool σ.world = .error (.segv 32))
      ∧ ¬ σ.FailedGrowthAtomic := by
  have hnull' : ¬ σ.world.Accessible NULL := by
    rintro (hm | ⟨c, hc, ht⟩)
    · rcases List.mem_append.mp (hi.mapped.mem_iff.mp hm) with hm | hm
      · exact hnull (.inl hm)
      · exact hi.rep.list.chain.null_not_mem hm
    · exact hnull (.inr ⟨c, hi.heap ▸ hc, ht⟩)
  have hall : ∀ os, os.mmap = MAP_FAILED →
      slab_pool_allocate os σ.pool σ.world = .error (.segv 32) := fun os hos =>
    slab_pool_allocate_refused hi.rep hg hos hnull'
  refine ⟨hall, fun hatomic => ?_⟩
  obtain ⟨pool', w', hok, -⟩ := hatomic ⟨MAP_FAILED, 0, fun _ => 0⟩ rfl
  rw [hall _ rfl] at hok
  cases hok

/-! ## The laws -/

section PoolRuns

variable {size : ℕ} {w₀ : World} {t : List (PoolState × PoolEvent)} {σ : PoolState}

/-- The number of slabs is within the minimum exactly when no allocation took it over. -/
theorem PoolRun.minimum (h2 : 2 ≤ num_buffers (int_of_size_t size)) (hrun : PoolRun size w₀ t σ) :
    ∃ xs, PoolInv w₀ (Shape.of (int_of_size_t size) (Nat.le_of_succ_le h2)) size σ xs
      ∧ (xs.length ≤ minimum_slabs ↔ ∀ x ∈ t, GrowsWithinMinimum x.1 x.2) := by
  obtain ⟨σ₀, os, hopen, hr⟩ := hrun
  induction hr with
  | start =>
      refine ⟨_, hopen.inv _, ?_⟩
      rw [List.length_map, length_pages]
      simp [minimum_slabs, POOL_START_SIZE, POOL_GROW_RATE, POOL_MAX_GROW_RATE]
  | next _ hs ih =>
      obtain ⟨xs, hi, hiff⟩ := ih
      obtain ⟨ys, hi', hstep⟩ := minimum_step h2 hi hs
      refine ⟨ys, hi', ?_⟩
      rw [hstep, hiff, List.forall_mem_cons, and_comm]

/-- **Memory is given back**: a pool is within its minimum, without objects as with them,
exactly when no allocation of the run grew it over the minimum. -/
theorem within_minimum_iff (h2 : 2 ≤ num_buffers (int_of_size_t size))
    (hrun : PoolRun size w₀ t σ) :
    (σ.world.slabs σ.pool).length ≤ σ.pool.params.minimum_empty_slabs
      ↔ ∀ x ∈ t, GrowsWithinMinimum x.1 x.2 := by
  obtain ⟨xs, hi, hiff⟩ := hrun.minimum h2
  rw [length_slabs hi, hi.rep.params]
  exact hiff

/-- **Release and minimum**: a release respects the minimum exactly when it does not take
the last object of a slab that is one of two or more, with no more than the minimum. -/
theorem respects_minimum_iff (h2 : 2 ≤ num_buffers (int_of_size_t size))
    (hrun : PoolRun size w₀ t σ) {p : ℕ} (hp : p ∈ σ.live) :
    σ.RespectsMinimum p ↔ ¬ σ.Releases p := by
  obtain ⟨xs, hi⟩ := hrun.inv h2
  exact respectsMinimum_iff_of_inv hi hp

/-- **A refused growth** is never atomic: in every state that needs to grow the allocation
reads through the `NULL` it was given and the process is stopped. -/
theorem failed_growth_faults (h2 : 2 ≤ num_buffers (int_of_size_t size))
    (hnull : ¬ w₀.Accessible NULL) (hrun : PoolRun size w₀ t σ) (hg : σ.NeedsGrowth) :
    (∀ os, os.mmap = MAP_FAILED →
        slab_pool_allocate os σ.pool σ.world = .error (.segv 32))
      ∧ ¬ σ.FailedGrowthAtomic := by
  obtain ⟨xs, hi⟩ := hrun.inv h2
  exact not_failedGrowthAtomic hnull hi ((needsGrowth_iff hi.rep).mp hg)

end PoolRuns

/-! ## Each law at a pool of the class of 256 bytes, three to a slab -/

/-- `k` allocations. A new mapping, if there is one, is the hundredth page. -/
def allocations (k : ℕ) : List PoolOp := List.replicate k (.allocate 409600)

/-- The release of all three objects of each of the `k` slabs of the mapping at `a`. -/
def releases (a k : ℕ) : List PoolOp :=
  (pages a k).flatMap fun b => (List.range 3).map (PoolOp.deallocate b)

theorem capacity_256 : 2 ≤ num_buffers (int_of_size_t 256) := by decide

theorem within_minimum_iff_256 : 2 ≤ num_buffers (int_of_size_t 256) ∧
    ∃ t σ, PoolRun 256 World.empty t σ ∧ t ≠ []
      ∧ ((σ.world.slabs σ.pool).length ≤ σ.pool.params.minimum_empty_slabs
        ↔ ∀ x ∈ t, GrowsWithinMinimum x.1 x.2) := by
  obtain ⟨σ₀, os, σ, p, hrun, -⟩ := exists_first_step capacity_256
  exact ⟨capacity_256, _, σ, hrun, by simp, within_minimum_iff capacity_256 hrun⟩

/-- Thirty-one objects need a second mapping. All of them are released, and the pool keeps
its twenty slabs. -/
theorem not_within_minimum_256 : ∃ t σ, PoolRun 256 World.empty t σ ∧ σ.live = []
    ∧ ¬ (σ.world.slabs σ.pool).length ≤ σ.pool.params.minimum_empty_slabs := by
  obtain ⟨t, σ, xs, hrun, hi, hempty, hlen⟩ := exists_run_of_history capacity_256
    (allocations 31 ++ releases 4096 10 ++ [.deallocate 409600 0])
    (fun xs => (∀ x ∈ xs, x.slots.busy = []) ∧ minimum_slabs < xs.length) (by decide +kernel)
  refine ⟨t, σ, hrun, ?_, ?_⟩
  · refine (hi.live.trans (List.Perm.of_eq ?_)).eq_nil
    exact List.flatMap_eq_nil_iff.mpr fun x hx => by rw [hempty x hx]; rfl
  · rw [length_slabs hi, hi.rep.params]
    exact Nat.not_le.mpr hlen

theorem respects_minimum_iff_256 : 2 ≤ num_buffers (int_of_size_t 256) ∧
    ∃ t σ p, PoolRun 256 World.empty t σ ∧ p ∈ σ.live
      ∧ (σ.RespectsMinimum p ↔ ¬ σ.Releases p) := by
  obtain ⟨σ₀, os, σ, p, hrun, hp, -⟩ := exists_first_step capacity_256
  exact ⟨capacity_256, _, σ, p, hrun, hp, respects_minimum_iff capacity_256 hrun hp⟩

/-- One object, taken and released: a pool of ten slabs, configured to keep fifteen, unmaps
one. -/
theorem not_respectsMinimum_256 : ∃ t σ p, PoolRun 256 World.empty t σ ∧ p ∈ σ.live
    ∧ ¬ σ.RespectsMinimum p := by
  obtain ⟨t, σ, xs, hrun, hi, hone, hlen, hmin⟩ := exists_run_of_history capacity_256
    (allocations 1) (fun xs => (∃ x ∈ xs.head?, x.slots.busy = [0]) ∧ 2 ≤ xs.length
      ∧ xs.length ≤ minimum_slabs) (by decide +kernel)
  obtain ⟨x, hx, hbusy⟩ := hone
  obtain ⟨rest, rfl⟩ := List.head?_eq_some_iff.mp hx
  have hib : 0 ∈ x.slots.busy := by
    rw [hbusy]
    exact List.mem_singleton_self 0
  have hp : (Shape.of (int_of_size_t 256) (Nat.le_of_succ_le capacity_256)).slot x.base 0
      ∈ σ.live := hi.live.mem_iff.mpr
    (List.mem_flatMap.mpr ⟨x, List.mem_cons_self, List.mem_map_of_mem hib⟩)
  have hdrops : Drops x ([] ++ rest) 0 := by
    refine ⟨(dealloc_busy_eq_nil hib).mpr (by rw [hbusy]; rfl), fun he => ?_, hmin⟩
    rw [List.nil_append] at he
    rw [he, List.length_singleton] at hlen
    omega
  refine ⟨t, σ, _, hrun, hp, fun hlaw => ?_⟩
  exact (respectsMinimum_iff_of_inv hi hp).mp hlaw ((releases_iff (l := []) hi hib).mpr hdrops)

theorem failed_growth_faults_256 : 2 ≤ num_buffers (int_of_size_t 256) ∧
    ¬ World.empty.Accessible NULL ∧ ∃ t σ, PoolRun 256 World.empty t σ ∧ σ.NeedsGrowth
      ∧ (∀ os, os.mmap = MAP_FAILED →
        slab_pool_allocate os σ.pool σ.world = .error (.segv 32))
      ∧ ¬ σ.FailedGrowthAtomic := by
  obtain ⟨t, σ, xs, hrun, hi, hg⟩ := exists_run_of_history capacity_256 (allocations 30)
    (fun xs => Grows xs) (by decide +kernel)
  have hnull : ¬ World.empty.Accessible NULL := by decide
  have hneeds := (needsGrowth_iff hi.rep).mpr hg
  exact ⟨capacity_256, hnull, t, σ, hrun, hneeds,
    failed_growth_faults capacity_256 hnull hrun hneeds⟩

/-- Thirty objects fill the ten slabs, and the kernel refuses the mapping for the next. -/
theorem not_failedGrowthAtomic_256 : ∃ t σ, PoolRun 256 World.empty t σ ∧ σ.NeedsGrowth
    ∧ ¬ σ.FailedGrowthAtomic := by
  obtain ⟨t, σ, xs, hrun, hi, hg⟩ := exists_run_of_history capacity_256 (allocations 30)
    (fun xs => Grows xs) (by decide +kernel)
  exact ⟨t, σ, hrun, (needsGrowth_iff hi.rep).mpr hg, (not_failedGrowthAtomic (by decide) hi hg).2⟩

end SlabAllocator
