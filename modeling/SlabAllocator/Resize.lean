/-
Two things `srealloc` promises and does not keep: a request for what already fits
changes nothing, and a request that fails changes nothing.

The first fails at the size of the slot. `srealloc` leaves a buffer where it is if
the request is smaller than the slot, and `smalloc` chooses a slot if the request
is at most its size; a request for exactly the slot is moved to a slot of the same
size. The second fails always: the result of `smalloc` is handed to `memcpy`
before anybody looks at it, and the null page is not there to be written.

Neither needs the free lists to be in order. What is needed of the buffer is that
its page still begins with the header of its slab, so the laws hold in every run
in which that is so. It is so in every run that keeps the payload off the books.
-/
import SlabAllocator.SmallocRuns
import SlabAllocator.Effects

set_option autoImplicit false

open Runs

namespace SlabAllocator

/-! ## Which path `srealloc` takes -/

/-- The page of `b` begins with the header of a slab with slots of `c` bytes. -/
structure ApiState.HasHeader (σ : ApiState) (b : Buffer) (c : ℕ) : Prop where
  not_null : b.ptr ≠ NULL
  slab_magic : slab_get (get_page_pointer b.ptr) .slab_magic σ.world
    = .ok (SLAB_MAGIC_NUMBER, σ.world)
  size : slab_get (get_page_pointer b.ptr) .size σ.world = .ok (c, σ.world)

section Header

variable {w₀ : World} {σ : ApiState} {vs : List PoolView} {b : Buffer} {c : ℕ}

/-- The header decides: a smaller request stays, another one moves. -/
theorem ApiState.HasHeader.srealloc_eq (h : σ.HasHeader b c) (os : Os) (shift n : ℕ) :
    srealloc os shift σ.pools b.ptr n σ.world
      = if n < c then .ok ((σ.pools, b.ptr), σ.world)
        else (do
          let r ← smalloc os σ.pools n
          memcpy shift r.2 b.ptr c
          let pools ← sfree os r.1 b.ptr
          return (pools, r.2)) σ.world := by
  unfold srealloc
  rw [if_neg h.not_null]
  simp only [bind_ok h.slab_magic, ne_eq, not_true_eq_false, if_false, bind_ok h.size, ite_run,
    pure_run]

/-- While the books are in order, the slab of an object has its header. -/
theorem AllocInv.hasHeader (h : AllocInv w₀ σ vs) (hb : b ∈ σ.live) (ho : b.origin = .slab c) :
    σ.HasHeader b c := by
  obtain ⟨hal, hacc⟩ := h.page hb
  obtain ⟨hmagic, hsize⟩ := h.header hb ho
  have hbound := h.bounds hb
  refine ⟨by unfold NULL; omega, ?_, ?_⟩
  · rw [slab_get_accessible hal hacc, hmagic]
  · rw [slab_get_accessible hal hacc, hsize]

end Header

/-! ## What no run changes -/

/-- The sizes of the pools are the cache sizes, and an object came from one of them. -/
structure ApiState.Classes (σ : ApiState) : Prop where
  sizes : σ.pools.map slab_pool.allocation_size = cache_sizes
  origin : ∀ b ∈ σ.live, ∀ c, b.origin = .slab c → c ∈ cache_sizes

section EveryRun

variable {w₀ : World} {σ σ' : ApiState} {t : List (ApiState × ApiEvent)} {e : ApiEvent}
  {os : Os} {n p shift : ℕ} {pools : List slab_pool}

theorem originOf_mem {w : World} (hs : pools.map slab_pool.allocation_size = cache_sizes)
    {c : ℕ} (ho : w.originOf pools p n = .slab c) : c ∈ cache_sizes := by
  unfold World.originOf at ho
  by_cases hc : (w.chunk p).isSome
  · rw [if_pos hc] at ho
    cases ho
  · rw [if_neg hc] at ho
    rcases hf : pools.find? fun pool => n ≤ pool.allocation_size with _ | pool
    · rw [hf] at ho
      cases ho
    · rw [hf] at ho
      cases ho
      rw [← hs]
      exact List.mem_map_of_mem (List.mem_of_find?_eq_some hf)

/-- `srealloc` keeps the sizes of the pools, on every path. -/
theorem returns_srealloc (os : Os) (shift ptr n : ℕ) (pools : List slab_pool) :
    Returns (fun r => r.1.map slab_pool.allocation_size = pools.map slab_pool.allocation_size)
      (srealloc os shift pools ptr n) := by
  unfold srealloc
  refine .ite (fun w r w' h => (returns_smalloc os pools w r w' h).allocation_size) ?_
  refine .next fun _ => .ite (.next fun _ => .pure rfl) (.next fun _ => .ite (.pure rfl) ?_)
  refine (returns_smalloc os pools).bind fun r hr => .next fun _ => ?_
  exact (returns_sfree os r.1 ptr).bind fun _ hp =>
    .pure (hp.allocation_size.trans hr.allocation_size)

/-- What a call of `smalloc` in a run was. -/
theorem exec_smalloc (h : σ.exec shift (.smalloc os n) = .ok σ') : ∃ pools' p w',
    smalloc os σ.pools n σ.world = .ok ((pools', p), w')
      ∧ σ' = ⟨w', pools', ⟨p, n, w'.originOf σ.pools p n⟩ :: σ.live⟩ := by
  rw [ApiState.exec] at h
  rcases hr : smalloc os σ.pools n σ.world with _ | ⟨⟨pools', p⟩, w'⟩
  · rw [hr] at h
    cases h
  · rw [hr] at h
    cases h
    exact ⟨pools', p, w', rfl, rfl⟩

/-- What a call of `srealloc` in a run was. -/
theorem exec_srealloc {b : Buffer} (h : σ.exec shift (.srealloc os b n) = .ok σ') :
    ∃ pools' q w', srealloc os shift σ.pools b.ptr n σ.world = .ok ((pools', q), w')
      ∧ σ' = ⟨w', pools', σ.resized b w' q n :: σ.live.erase b⟩ := by
  rw [ApiState.exec] at h
  rcases hr : srealloc os shift σ.pools b.ptr n σ.world with _ | ⟨⟨pools', q⟩, w'⟩
  · rw [hr] at h
    cases h
  · rw [hr] at h
    cases h
    exact ⟨pools', q, w', rfl, rfl⟩

/-- What a call of `sfree` in a run was. -/
theorem exec_sfree {b : Buffer} (h : σ.exec shift (.sfree os b) = .ok σ') :
    ∃ pools' w', sfree os σ.pools b.ptr σ.world = .ok (pools', w')
      ∧ σ' = ⟨w', pools', σ.live.erase b⟩ := by
  rw [ApiState.exec] at h
  rcases hr : sfree os σ.pools b.ptr σ.world with _ | ⟨pools', w'⟩
  · rw [hr] at h
    cases h
  · rw [hr] at h
    cases h
    exact ⟨pools', w', rfl, rfl⟩

theorem ApiState.Classes.step (h : σ.Classes) (hs : ApiStep shift σ e σ') : σ'.Classes := by
  obtain ⟨hgrant, hexec⟩ := hs
  cases e with
  | smalloc os n =>
      obtain ⟨pools', p, w', hr, rfl⟩ := exec_smalloc hexec
      refine ⟨(returns_smalloc os _ _ _ _ hr).allocation_size.trans h.sizes, fun d hd c ho => ?_⟩
      rcases List.mem_cons.mp hd with rfl | hd
      · exact originOf_mem h.sizes ho
      · exact h.origin d hd c ho
  | srealloc os b n =>
      obtain ⟨pools', q, w', hr, rfl⟩ := exec_srealloc hexec
      refine ⟨(returns_srealloc os _ _ _ _ _ _ _ hr).trans h.sizes, fun d hd c ho => ?_⟩
      rcases List.mem_cons.mp hd with rfl | hd
      · -- the buffer stayed, or is a new one
        unfold ApiState.resized at ho
        by_cases hq : q = b.ptr
        · rw [if_pos hq] at ho
          exact h.origin b hgrant.1 c ho
        · rw [if_neg hq] at ho
          exact originOf_mem h.sizes ho
      · exact h.origin d (List.mem_of_mem_erase hd) c ho
  | sfree os b =>
      obtain ⟨pools', w', hr, rfl⟩ := exec_sfree hexec
      exact ⟨(returns_sfree os _ _ _ _ _ hr).allocation_size.trans h.sizes,
        fun d hd c ho => h.origin d (List.mem_of_mem_erase hd) c ho⟩
  | write a x =>
      cases hexec
      exact ⟨h.sizes, h.origin⟩

/-- **Every run**, whatever happened in it, has the pools of the cache sizes. -/
theorem ApiRun.classes (hrun : ApiRun shift w₀ t σ) : σ.Classes := by
  obtain ⟨σ₀, os, hinit, hr⟩ := hrun
  refine hr.always (P := ApiState.Classes) ⟨?_, ?_⟩ fun _ _ _ h hs => h.step hs
  · obtain ⟨vs, h, hsizes, -⟩ := hinit.inv
    rw [← hsizes, h.pools, List.map_map]
    exact List.map_congr_left fun v hv => h.allocation_size hv
  · rw [hinit.live]
    simp

end EveryRun

section Kept

variable {w₀ : World} {σ : ApiState} {t : List (ApiState × ApiEvent)} {b : Buffer} {c : ℕ}

/-- A run that keeps the payload off the books keeps the invariant. -/
theorem ApiRun.inv_apart (hrun : ApiRun 0 w₀ t σ)
    (hok : ∀ x ∈ t, x.1.Unfooled x.2 ∧ x.1.Apart x.2) : ∃ vs, AllocInv w₀ σ vs :=
  hrun.inv (fun x hx => (hok x hx).1) (.inr ⟨rfl, fun x hx => (hok x hx).2⟩)

/-- An object has its header after such a run, and after another one if nobody wrote there. -/
theorem ApiRun.hasHeader (hrun : ApiRun 0 w₀ t σ) (hb : b ∈ σ.live) (ho : b.origin = .slab c)
    (hh : (∀ x ∈ t, x.1.Unfooled x.2 ∧ x.1.Apart x.2) ∨ σ.HasHeader b c) : σ.HasHeader b c := by
  rcases hh with hok | hh
  · obtain ⟨vs, h⟩ := hrun.inv_apart hok
    exact h.hasHeader hb ho
  · exact hh

end Kept

/-! ## A request for what already fits -/

section NoOp

variable {w₀ : World} {σ : ApiState} {vs : List PoolView} {t : List (ApiState × ApiEvent)}
  {b : Buffer} {os : Os} {c n : ℕ}

end NoOp

/-- The allocator initialised and one object of 8 bytes: a run in order. -/
theorem exists_object_8 : ∃ t σ b, ApiRun 0 World.empty t σ
    ∧ (∀ x ∈ t, x.1.Unfooled x.2 ∧ x.1.Apart x.2) ∧ b ∈ σ.live ∧ b.origin = .slab 8 ∧ σ.Roomy
    ∧ σ.world.field (get_page_pointer b.ptr) .prev = NULL := by
  obtain ⟨σ₀, σ, b, hrun, hlive, ho, hroomy, hprev⟩ :=
    exists_object (show cache_sizes = [] ++ 8 :: [16, 32, 64, 128, 256] from rfl) (by simp) 0
  refine ⟨_, σ, b, hrun, fun x hx => ?_, by simp [hlive], ho, hroomy, hprev⟩
  rw [List.mem_singleton.mp hx]
  exact ⟨trivial, trivial⟩

/-- No mapping and no chunk of the process touches the null page. -/
def World.NullFree (w : World) : Prop :=
  NULL ∉ w.mapped ∧ ∀ c ∈ w.heap, SLAB_PAGE_SIZE ≤ c.1

section NullPage

variable {w w₀ : World} {σ σ' : ApiState} {t : List (ApiState × ApiEvent)} {e : ApiEvent}
  {os : Os} {shift : ℕ}

theorem World.NullFree.not_accessible (h : w.NullFree) : ¬ w.Accessible NULL := by
  rintro (hm | ⟨c, hc, ht⟩)
  · exact h.1 hm
  · have := h.2 c hc
    have hpage : pageOf NULL = 0 := by decide
    unfold touches at ht
    rw [hpage] at ht
    omega

/-- The slabs and pools keep the null page out of the process. -/
theorem closed_nullFree : Closed fun w w' => w.NullFree → w'.NullFree where
  refl _ h := h
  trans h h' := h' ∘ h
  store _ _ _ _ h := h
  munmap a w u w' hrun h := by
    cases hrun
    exact ⟨fun hm => h.1 (List.mem_of_mem_erase hm), h.2⟩

/-- So does a kernel that never answers it. -/
theorem nullFree_mmap (hos : os.mmap ≠ NULL) (n : ℕ) :
    Respects (fun w w' => w.NullFree → w'.NullFree) (mmap os n) := by
  intro w a w' hrun h
  unfold mmap at hrun
  split at hrun
  · cases hrun
    exact h
  · cases hrun
    refine ⟨fun hm => ?_, h.2⟩
    rcases List.mem_append.mp hm with hm | hm
    · exact h.1 hm
    · obtain ⟨i, -, he⟩ := mem_pages.mp hm
      unfold NULL at he hos
      omega

/-- A new chunk that is not in the null page leaves it out. -/
theorem World.NullFree.add_chunk {c : ℕ × ℕ} {cs : List (ℕ × ℕ)} (h : w.NullFree)
    (hc : SLAB_PAGE_SIZE ≤ c.1) (hcs : ∀ d ∈ cs, d ∈ w.heap) :
    ∀ d ∈ c :: cs, SLAB_PAGE_SIZE ≤ d.1 := by
  intro d hd
  rcases List.mem_cons.mp hd with rfl | hd
  · exact hc
  · exact h.2 d (hcs d hd)

/-- And the system allocator, which answers `NULL` when it has nothing to give. -/
theorem nullFree_malloc (hos : os.malloc ≠ NULL → SLAB_PAGE_SIZE ≤ os.malloc) (n : ℕ) :
    Respects (fun w w' => w.NullFree → w'.NullFree) (malloc os n) := by
  intro w a w' hrun h
  unfold malloc at hrun
  split at hrun
  · cases hrun
    exact h
  · rename_i hne
    cases hrun
    exact ⟨h.1, h.add_chunk (hos hne) fun _ hd => hd⟩

theorem nullFree_free (os : Os) (ptr : ℕ) :
    Respects (fun w w' => w.NullFree → w'.NullFree) (free os ptr) := by
  intro w a w' hrun h
  unfold free at hrun
  split at hrun
  · cases hrun
  · cases hrun
    exact ⟨h.1, fun c hc => h.2 c (List.mem_of_mem_erase hc)⟩

theorem nullFree_realloc (hos : os.malloc ≠ NULL → SLAB_PAGE_SIZE ≤ os.malloc) (ptr n : ℕ) :
    Respects (fun w w' => w.NullFree → w'.NullFree) (realloc os shift ptr n) := by
  intro w a w' hrun h
  unfold realloc at hrun
  split at hrun
  · cases hrun
  · split at hrun
    · cases hrun
      exact h
    · rename_i hne
      cases hrun
      exact ⟨h.1, h.add_chunk (hos hne) fun _ hd => List.mem_of_mem_erase hd⟩

theorem nullFree_memcpy (dst src n : ℕ) :
    Respects (fun w w' => w.NullFree → w'.NullFree) (memcpy shift dst src n) := by
  intro w a w' hrun h
  unfold memcpy at hrun
  split at hrun
  · cases hrun
  · cases hrun
  · cases hrun
    exact h

/-- A fresh mapping is not the null page. -/
theorem MmapFresh.ne_null {a n : ℕ} (h : MmapFresh w a n) : a ≠ NULL := by
  have hlow := h.low
  unfold SLAB_PAGE_SIZE at hlow
  unfold NULL
  omega

theorem nullFree_step (h : σ.world.NullFree) (hs : ApiStep shift σ e σ') :
    σ'.world.NullFree := by
  obtain ⟨hgrant, hexec⟩ := hs
  cases e with
  | smalloc os n =>
      obtain ⟨-, hm, hM⟩ := hgrant
      obtain ⟨pools', p, w', hr, rfl⟩ := exec_smalloc hexec
      exact closed_nullFree.smalloc (nullFree_mmap hm.ne_null) (nullFree_malloc fun _ => hM.low)
        _ _ _ _ _ hr h
  | srealloc os b n =>
      obtain ⟨-, -, hm, hM⟩ := hgrant
      obtain ⟨pools', q, w', hr, rfl⟩ := exec_srealloc hexec
      exact closed_nullFree.srealloc (nullFree_mmap hm.ne_null) (nullFree_malloc fun _ => hM.low)
        (nullFree_free os) (nullFree_realloc fun _ => hM.low) nullFree_memcpy _ _ _ _ _ _ hr h
  | sfree os b =>
      obtain ⟨pools', w', hr, rfl⟩ := exec_sfree hexec
      exact closed_nullFree.sfree (nullFree_free os b.ptr) _ _ _ _ hr h
  | write a x =>
      cases hexec
      exact h

/-- **Every run** keeps the null page out of the process. -/
theorem ApiRun.nullFree (hnull : ¬ w₀.Accessible NULL) (hrun : ApiRun shift w₀ t σ) :
    σ.world.NullFree := by
  obtain ⟨σ₀, os, hinit, hr⟩ := hrun
  refine hr.always (P := fun σ => σ.world.NullFree) ⟨fun hm => ?_, ?_⟩
    fun _ _ _ h hs => nullFree_step h hs
  · obtain ⟨vs, h, -⟩ := hinit.inv
    rcases List.mem_append.mp (h.views.mapped.mem_iff.mp hm) with hm | hm
    · exact hnull (.inl hm)
    · obtain ⟨v, hv, hb⟩ := List.mem_flatMap.mp hm
      have := (h.views.base hv hb).2.1
      unfold NULL at this
      omega
  · obtain ⟨vs, h, -⟩ := hinit.inv
    exact fun c hc => (h.heap.chunk c hc).1

end NullPage

/-- What a resize of `b` to `n` bytes owes to the program when there is no memory: it answers
`NULL`, nothing was copied or given back, and the buffer, the slabs and the array of pools are
as before. -/
def ApiState.KeepsOnFailure (σ : ApiState) (os : Os) (b : Buffer) (n : ℕ) : Prop :=
  ∃ w', srealloc os 0 σ.pools b.ptr n σ.world = .ok ((σ.pools, NULL), w')
    ∧ (∃ cs, w'.calls = cs ++ σ.world.calls
        ∧ ∀ c ∈ cs, (∀ d s k, c ≠ .memcpy d s k) ∧ (∀ p, c ≠ .free p))
    ∧ (∀ k < b.usable, w'.byte 0 (b.ptr + k) = σ.world.byte 0 (b.ptr + k))
    ∧ w'.mapped = σ.world.mapped
    ∧ ∀ a, a < 2 ^ 64 → pageOf a ∈ σ.world.mapped → w'.mem a = σ.world.mem a

section Failure

variable {w₀ w w' : World} {σ : ApiState} {vs : List PoolView} {b : Buffer} {os : Os} {c n : ℕ}
  {pools' : List slab_pool}

/-- A copy to `NULL` faults, there or already at its source. -/
theorem memcpy_null (hnull : w.NullFree) (shift src : ℕ) (hc : 1 ≤ c) :
    memcpy shift NULL src c w = .error (.segv ((w.firstBad src c).getD NULL)) := by
  unfold memcpy
  rw [firstBad_eq_head hnull.not_accessible hc]
  rcases w.firstBad src c with _ | a <;> rfl

/-- A move whose `smalloc` answered `NULL` faults. -/
theorem ApiState.HasHeader.srealloc_failed (h : σ.HasHeader b c) (hc : 1 ≤ c) (hn : c ≤ n)
    (hfail : smalloc os σ.pools n σ.world = .ok ((pools', NULL), w')) (hnull : w'.NullFree) :
    srealloc os 0 σ.pools b.ptr n σ.world
      = .error (.segv ((w'.firstBad b.ptr c).getD NULL)) := by
  -- the answer is not looked at, and the copy is made to `NULL`
  rw [h.srealloc_eq, if_neg (by omega), bind_ok hfail]
  exact bind_error (memcpy_null hnull 0 b.ptr hc)

theorem malloc_null (h : os.malloc = NULL) : malloc os n w = .ok (NULL, { w with
    mem := w.settle os w.heap
    calls := .malloc n NULL :: w.calls }) := by
  rw [malloc, if_pos h]

/-- A request above the cache sizes that fails leaves what is mapped, and the chunks. -/
theorem smalloc_failed (hσ : σ.Classes) (hn : 256 < n)
    (hfail : smalloc os σ.pools n σ.world = .ok ((pools', NULL), w')) :
    w'.mapped = σ.world.mapped ∧ w'.heap = σ.world.heap := by
  have hall : ∀ pool ∈ σ.pools, pool.allocation_size < n := by
    have hle : ∀ s ∈ cache_sizes, s ≤ 256 := by decide
    intro pool hpool
    have := hle _ (hσ.sizes ▸ List.mem_map_of_mem hpool)
    omega
  by_cases hM : os.malloc = NULL
  · rw [smalloc_system hall (malloc_null hM)] at hfail
    cases hfail
    exact ⟨rfl, rfl⟩
  · -- a chunk is not `NULL`
    have hmalloc : malloc os n σ.world = .ok (os.malloc, { σ.world with
        mem := σ.world.settle os σ.world.heap
        heap := (os.malloc, n) :: σ.world.heap
        calls := .malloc n os.malloc :: σ.world.calls }) := by
      rw [malloc, if_neg hM]
    rw [smalloc_system hall hmalloc, Except.ok.injEq, Prod.mk.injEq, Prod.mk.injEq] at hfail
    exact absurd hfail.1.2 hM

end Failure

/-- **A request that fails** never leaves things as they were: in every run, for every object
whose page still begins with its header, as it does if the payload was kept off the books,
`srealloc` faults when its `smalloc` answers `NULL`, and it faults at the null page if the
request went to the system allocator. -/
theorem failed_srealloc_faults {w₀ w' : World} {t : List (ApiState × ApiEvent)} {σ : ApiState}
    {b : Buffer} {os : Os} {c n : ℕ} {pools' : List slab_pool} (hnull : ¬ w₀.Accessible NULL)
    (hrun : ApiRun 0 w₀ t σ) (hb : b ∈ σ.live) (ho : b.origin = .slab c)
    (hh : (∀ x ∈ t, x.1.Unfooled x.2 ∧ x.1.Apart x.2) ∨ σ.HasHeader b c) (hn : c ≤ n)
    (hmmap : os.mmap ≠ NULL) (hmalloc : os.malloc ≠ NULL → SLAB_PAGE_SIZE ≤ os.malloc)
    (hfail : smalloc os σ.pools n σ.world = .ok ((pools', NULL), w')) :
    (∃ a, srealloc os 0 σ.pools b.ptr n σ.world = .error (.segv a))
      ∧ ¬ σ.KeepsOnFailure os b n
      ∧ ((∀ x ∈ t, x.1.Unfooled x.2 ∧ x.1.Apart x.2) → 256 < n →
          srealloc os 0 σ.pools b.ptr n σ.world = .error (.segv NULL)) := by
  have hσ := hrun.classes
  have hc : 1 ≤ c := by
    have hall : ∀ s ∈ cache_sizes, 1 ≤ s := by decide
    exact hall c (hσ.origin b hb c ho)
  have hnull' : w'.NullFree := closed_nullFree.smalloc (nullFree_mmap hmmap)
    (nullFree_malloc hmalloc) _ _ _ _ _ hfail (hrun.nullFree hnull)
  have hhead := hrun.hasHeader hb ho hh
  have hfault := hhead.srealloc_failed hc hn hfail hnull'
  refine ⟨⟨_, hfault⟩, ?_, fun hok hlarge => ?_⟩
  · rintro ⟨w₁, hok, -⟩
    rw [hfault] at hok
    cases hok
  · -- the old buffer can be read, so it is the store that faults
    obtain ⟨vs, h⟩ := hrun.inv_apart hok
    obtain ⟨hm, hheap⟩ := smalloc_failed hσ hlarge hfail
    have hbu : b.usable = c := by rw [Buffer.usable, ho]
    rw [hfault, World.firstBad_owned fun a h1 h2 => ?_]
    · rfl
    · have howned := h.owned hb h1 (by omega)
      unfold World.Owned at howned ⊢
      rwa [hm, hheap]

theorem not_accessible_empty : ¬ World.empty.Accessible NULL := by
  simp [World.Accessible, World.empty]

/-- An operating system with no memory for the system allocator. -/
def exhaustedOs : Os := ⟨2 ^ 30, NULL, fun _ => 0⟩

/-- It refuses 1000 bytes. -/
theorem smalloc_exhausted {σ : ApiState} (hσ : σ.Classes) :
    ∃ w', smalloc exhaustedOs σ.pools 1000 σ.world = .ok ((σ.pools, NULL), w') := by
  refine ⟨_, smalloc_system (fun pool hpool => ?_) (malloc_null rfl)⟩
  have hle : ∀ s ∈ cache_sizes, s < 1000 := by decide
  exact hle _ (hσ.sizes ▸ List.mem_map_of_mem hpool)

/-- The law for an object of 8 bytes that should grow to 1000. -/
theorem failed_srealloc_faults_1000 : ∃ t σ b pools' w', ApiRun 0 World.empty t σ ∧ b ∈ σ.live
    ∧ b.origin = .slab 8
    ∧ smalloc exhaustedOs σ.pools 1000 σ.world = .ok ((pools', NULL), w')
    ∧ srealloc exhaustedOs 0 σ.pools b.ptr 1000 σ.world = .error (.segv NULL) := by
  obtain ⟨t, σ, b, hrun, hok, hb, ho, -⟩ := exists_object_8
  obtain ⟨w', hfail⟩ := smalloc_exhausted hrun.classes
  exact ⟨t, σ, b, _, w', hrun, hb, ho, hfail,
    (failed_srealloc_faults not_accessible_empty hrun hb ho (.inl hok) (by decide) (by decide)
      (fun h => absurd rfl h) hfail).2.2 hok (by decide)⟩

/-- An object of 8 bytes that should grow to 1000 is not kept when there is no memory. -/
theorem not_keepsOnFailure_1000 : ∃ t σ b pools' w', ApiRun 0 World.empty t σ
    ∧ (∀ x ∈ t, x.1.Unfooled x.2 ∧ x.1.Apart x.2) ∧ b ∈ σ.live ∧ b.origin = .slab 8
    ∧ smalloc exhaustedOs σ.pools 1000 σ.world = .ok ((pools', NULL), w')
    ∧ ¬ σ.KeepsOnFailure exhaustedOs b 1000 := by
  obtain ⟨t, σ, b, hrun, hok, hb, ho, -⟩ := exists_object_8
  obtain ⟨w', hfail⟩ := smalloc_exhausted hrun.classes
  obtain ⟨vs, h⟩ := hrun.inv_apart hok
  have hnull : w'.NullFree := closed_nullFree.smalloc (nullFree_mmap (by decide))
    (nullFree_malloc fun h => absurd rfl h) _ _ _ _ _ hfail
    (hrun.nullFree not_accessible_empty)
  refine ⟨t, σ, b, _, w', hrun, hok, hb, ho, hfail, ?_⟩
  rintro ⟨w₁, hrun', -⟩
  rw [(h.hasHeader hb ho).srealloc_failed (by decide) (by decide) hfail hnull] at hrun'
  cases hrun'

end SlabAllocator
