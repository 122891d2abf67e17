/-
Runs of the allocator: `smalloc_initialize`, then any order of `smalloc`,
`srealloc` and `sfree` of live buffers, with the program writing to its buffers
in between.

A step is a call the program and the operating system are allowed to make
(`Granted`) and its outcome (`exec`). Two things can go wrong in a step that is
granted, and each is a condition on the state before it. A chunk may lie in a
page that begins like a slab (`Unfooled` excludes it), and a store of payload,
by the program or by the copy of `srealloc`, may hit an entry of a free list
(`Apart` excludes it). The second cannot happen in the machine that keeps the
payload elsewhere. The step theorem is that a granted step for which both are
excluded succeeds and keeps `AllocInv`.
-/
import SlabAllocator.SmallocOps
import SlabAllocator.Runs

set_option autoImplicit false

open ByteMem Runs

namespace SlabAllocator

/-! ## Steps -/

/-- What the program does: a call, with the answers of the operating system, or one byte
written. -/
inductive ApiEvent
  | smalloc (os : Os) (n : ℕ)
  | srealloc (os : Os) (b : Buffer) (n : ℕ)
  | sfree (os : Os) (b : Buffer)
  | write (a : ℕ) (x : UInt8)

/-- The slab the next allocation from `pool` is served from, if the pool does not grow. -/
def World.serving (w : World) (pool : slab_pool) : ℕ :=
  if w.field pool.list_start .ref_count = w.field pool.list_start .max_refs then
    w.field pool.list_start .next
  else pool.list_start

namespace ApiState

/-- The program asks for a byte or more, hands in buffers it holds, and writes inside them;
the operating system has memory to give. -/
def Granted (σ : ApiState) : ApiEvent → Prop
  | .smalloc os n => 1 ≤ n ∧ MmapFresh σ.world os.mmap POOL_GROW_RATE
      ∧ MallocFresh σ.world σ.world.heap os.malloc n
  | .srealloc os b n => b ∈ σ.live ∧ 1 ≤ n ∧ MmapFresh σ.world os.mmap POOL_GROW_RATE
      ∧ MallocFresh σ.world (σ.world.heap.filter fun c => c.1 ≠ b.ptr) os.malloc n
  | .sfree _ b => b ∈ σ.live
  | .write a _ => ∃ b ∈ σ.live, b.ptr ≤ a ∧ a < b.ptr + b.usable

/-- The outcome of a step, in the machine that keeps payload bytes `shift` from their
address. -/
def exec (shift : ℕ) (σ : ApiState) : ApiEvent → Except Fault ApiState
  | .smalloc os n => do
      let ((pools, p), w) ← SlabAllocator.smalloc os σ.pools n σ.world
      return ⟨w, pools, ⟨p, n, w.originOf σ.pools p n⟩ :: σ.live⟩
  | .srealloc os b n => do
      let ((pools, q), w) ← SlabAllocator.srealloc os shift σ.pools b.ptr n σ.world
      let origin := if q = b.ptr then b.origin else w.originOf σ.pools q n
      return ⟨w, pools, ⟨q, n, origin⟩ :: σ.live.erase b⟩
  | .sfree os b => do
      let (pools, w) ← SlabAllocator.sfree os σ.pools b.ptr σ.world
      return ⟨w, pools, σ.live.erase b⟩
  | .write a x => return ⟨σ.world.poke shift a x, σ.pools, σ.live⟩

/-- A chunk handed in is not in a page that begins with `SLAB_MAGIC_NUMBER`. -/
def Unfooled (σ : ApiState) : ApiEvent → Prop
  | .srealloc _ b _ | .sfree _ b => b.origin = .system →
      σ.world.field (get_page_pointer b.ptr) .slab_magic ≠ SLAB_MAGIC_NUMBER
  | _ => True

/-- If a pool serves `n` bytes, it does so without growing, from a slot that starts past the
end of the entry array: `allocable_buffer` is `max_refs` bytes behind the start of the
array, and the array is `5 * max_refs` bytes long. -/
def ServesApart (σ : ApiState) (n : ℕ) : Prop :=
  ∀ pool, σ.pools.find? (fun pool => n ≤ pool.allocation_size) = some pool →
    ¬ PoolState.NeedsGrowth ⟨σ.world, pool, []⟩
      ∧ 4 * σ.world.field (σ.world.serving pool) .max_refs
        ≤ σ.world.field (σ.world.serving pool) .size
          * σ.world.field (σ.world.serving pool) .freelist_start_index

/-- A store of payload stays clear of the entry arrays: the copy of an object that moves to
another slot goes to a slot past the array, and the program writes past the arrays. -/
def Apart (σ : ApiState) : ApiEvent → Prop
  | .srealloc _ b n => ∀ c, b.origin = .slab c → c ≤ n → σ.ServesApart n
  | .write a _ => ∀ pool ∈ σ.pools, ∀ s ∈ σ.world.slabs pool,
      a < s + sizeof_mem_slab
        ∨ s + sizeof_mem_slab + sizeof_bufctl * σ.world.field s .max_refs ≤ a
  | _ => True

end ApiState

/-- A granted step and its outcome. -/
def ApiStep (shift : ℕ) (σ : ApiState) (e : ApiEvent) (σ' : ApiState) : Prop :=
  σ.Granted e ∧ σ.exec shift e = .ok σ'

/-- The allocator just initialised in the process `w₀`, in which the chunks of the system
allocator are as they should be. -/
structure Initialized (w₀ : World) (σ : ApiState) (os : ℕ → Os) : Prop where
  heap : HeapOk w₀
  fresh : InitFresh w₀ os 0 cache_sizes.length
  run : smalloc_initialize os w₀ = .ok (σ.pools, σ.world)
  live : σ.live = []

/-- A run of the allocator from its initialisation in `w₀` to `σ`. -/
def ApiRun (shift : ℕ) (w₀ : World) (t : List (ApiState × ApiEvent)) (σ : ApiState) : Prop :=
  ∃ σ₀ os, Initialized w₀ σ₀ os ∧ Run (ApiStep shift) σ₀ t σ

/-! ## One step -/

section Steps

variable {w₀ : World} {σ : ApiState} {vs : List PoolView} {b : Buffer} {os : Os} {c n shift : ℕ}

/-- The allocator just initialised satisfies the invariant. -/
theorem Initialized.inv {os : ℕ → Os} (h : Initialized w₀ σ os) :
    ∃ vs, AllocInv w₀ σ vs ∧ vs.map (fun v => v.shape.size) = cache_sizes
      ∧ (∀ v ∈ vs, v.New σ.world) := by
  obtain ⟨vs, w', hrun, hsizes, hviews, hnew, hbases, hh, -⟩ := smalloc_initialize_spec h.fresh
  have hr := h.run
  rw [hrun, Except.ok.injEq, Prod.mk.injEq] at hr
  obtain ⟨hpools, rfl⟩ := hr
  refine ⟨vs, ⟨hpools.symm, hviews, ⟨hh ▸ h.heap.chunk, hh ▸ h.heap.apart, fun q hq c hc => ?_⟩,
    ⟨?_, ?_, ?_, fun p hp => ?_⟩⟩, hsizes, hnew⟩
  · rw [hh] at hc
    rcases List.mem_append.mp (hviews.mapped.mem_iff.mp hq) with hq | hq
    · exact h.heap.pages q hq c hc
    · rw [hbases, initPages, List.mem_flatMap] at hq
      obtain ⟨j, hj, hq⟩ := hq
      obtain ⟨i, hi, rfl⟩ := mem_pages.mp hq
      have hjr := List.mem_range'_1.mp hj
      have := (h.fresh.fresh j hjr.1 hjr.2).heap c hc
      unfold POOL_START_SIZE SLAB_PAGE_SIZE at *
      omega
  · rw [h.live]
    exact List.nodup_nil
  · rw [h.live]
    simp
  · rw [h.live]
    simp
  · obtain ⟨v, hv, hp⟩ := List.mem_flatMap.mp hp
    rw [(hnew v hv).busy] at hp
    simp at hp

/-- The slab that serves an allocation without growth, and its first free slot. -/
theorem PoolRep.serving {w : World} {g : Shape} {size a s f : ℕ} {pool : slab_pool}
    {xs ys : List (PoolSlab g.cap)} (h : PoolRep w g size pool xs) (hg : ¬ Grows xs)
    (ha : allocate a xs = some (s, f, ys)) :
    w.serving pool = s ∧ w.field s .size = g.size ∧ w.field s .max_refs = g.cap
      ∧ w.field s .freelist_start_index = f := by
  -- whichever slab it is, it is one of the list, and `f` is its first free slot
  have hslab : ∀ x ∈ xs, ∀ s', x.slots.alloc = some (f, s') → w.field x.base .size = g.size
      ∧ w.field x.base .max_refs = g.cap ∧ w.field x.base .freelist_start_index = f := by
    intro x hx s' hal
    have hr := h.list.slabs x hx
    refine ⟨hr.size, hr.max_refs, ?_⟩
    rw [hr.start, Slots.order, (Slots.alloc_some hal).1]
    rfl
  obtain ⟨x, rest, rfl⟩ := List.exists_cons_of_ne_nil h.list.nonempty
  have hstart : pool.list_start = x.base := h.list.head
  have hfull := h.slabFull_iff (x := x) List.mem_cons_self
  unfold World.SlabFull at hfull
  unfold World.serving
  rw [hstart]
  rw [allocate, arrange] at ha
  by_cases hx : x.Full
  · have h1 : FirstFull (x :: rest) := by simpa [FirstFull] using hx
    rw [if_pos h1, if_neg fun h2 => hg ⟨h1, h2⟩, List.rotate_cons_succ, List.rotate_zero] at ha
    rw [if_pos (hfull.mpr hx)]
    rcases rest with _ | ⟨y, rest⟩
    · exact absurd ⟨h1, by rw [List.rotate_singleton]; exact h1⟩ hg
    · obtain ⟨z, zs, s', he, rfl, hal, -⟩ := serve_some ha
      cases he
      exact ⟨h.list.chain.links.2.1, hslab y (by simp) s' hal⟩
  -- the first slab has room and serves it
  · have h1 : ¬ FirstFull (x :: rest) := by simpa [FirstFull] using hx
    rw [if_neg h1] at ha
    rw [if_neg fun hf => hx (hfull.mp hf)]
    obtain ⟨z, zs, s', he, rfl, hal, -⟩ := serve_some ha
    cases he
    exact ⟨rfl, hslab x List.mem_cons_self s' hal⟩

/-- The function that answered `p` to a request of `n` bytes: `malloc`, or
`slab_pool_allocate` of a pool of slots of `c` bytes. -/
def ApiState.AnsweredBy (σ : ApiState) (os : Os) (n p : ℕ) (w' : World) : Origin → Prop
  | .system => SlabAllocator.malloc os n σ.world = .ok (p, w')
  | .slab c => ∃ pool ∈ σ.pools, pool.allocation_size = c
      ∧ ∃ pool', slab_pool_allocate os pool σ.world = .ok ((pool', p), w')

/-- **`smalloc`**: the buffer it answers is added to those the program holds. It lies off
the books if the pool that serves it serves it apart. -/
theorem AllocInv.smalloc (h : AllocInv w₀ σ vs) (hn : 1 ≤ n)
    (hm : MmapFresh σ.world os.mmap POOL_GROW_RATE)
    (hM : MallocFresh σ.world σ.world.heap os.malloc n) :
    ∃ pools' p w' vs', SlabAllocator.smalloc os σ.pools n σ.world = .ok ((pools', p), w')
      ∧ AllocInv w₀ ⟨w', pools', ⟨p, n, w'.originOf σ.pools p n⟩ :: σ.live⟩ vs'
      ∧ n ≤ Buffer.usable ⟨p, n, w'.originOf σ.pools p n⟩
      ∧ Keeps σ.world.heap vs σ.world w' ∧ NoCopy σ.world w'
      ∧ (σ.ServesApart n → ∀ a, p ≤ a →
          a < p + Buffer.usable ⟨p, n, w'.originOf σ.pools p n⟩ → PoolView.Off vs' a)
      ∧ (w'.originOf σ.pools p n = .system → p = os.malloc)
      ∧ σ.AnsweredBy os n p w' (w'.originOf σ.pools p n)
      ∧ ∀ c, c ∈ w'.heap ↔ w'.originOf σ.pools p n = .system ∧ c = (p, n) ∨ c ∈ σ.world.heap := by
  rcases h.find n with ⟨-, hall⟩ | ⟨l, v, r, rfl, hl, hnv, hfind⟩
  · obtain ⟨w', hrun, hor, hcall, hkeep, hno, hmalloc⟩ := h.smalloc_heap os hall hM
    have h' := h.add_chunk hn hM hcall
    refine ⟨σ.pools, os.malloc, w', vs, hrun, by rw [hor]; exact h', by rw [hor]; exact le_refl n,
      hkeep, hno, fun _ a h1 h2 => ?_, fun _ => rfl, by rw [hor]; exact hmalloc,
      by simp [hor, hcall.heap]⟩
    rw [hor] at h2
    exact h'.off_chunk (c := (os.malloc, n)) (by rw [hcall.heap]; exact List.mem_cons_self) h1 h2
  · obtain ⟨s, f, ys, pool', w', hrun, ha, hor, h', hkeep, hno, hheap, -, halloc⟩ :=
      h.smalloc_slab hl hnv hfind hm
    have hv : v ∈ l ++ v :: r := by simp
    have hby : σ.AnsweredBy os n (v.shape.slot s f) w' (.slab v.shape.size) :=
      ⟨v.pool, h.pools ▸ List.mem_map_of_mem hv, h.allocation_size hv, pool', halloc⟩
    refine ⟨_, _, w', _, hrun, by rw [hor]; exact h', by rw [hor]; exact hnv, hkeep, hno,
      fun hap a h1 h2 => ?_, (by rw [hor]; simp), by rw [hor]; exact hby, by simp [hor, hheap]⟩
    rw [hor] at h2
    obtain ⟨hgrow, hpast⟩ := hap v.pool hfind
    have hrep := h.views.reps v (by simp)
    -- no growth, so the slab of the object is one `ServesApart` speaks of
    have hg : ¬ Grows v.slabs := fun hg =>
      hgrow ((needsGrowth_iff (σ := ⟨σ.world, v.pool, []⟩) hrep).mpr hg)
    obtain ⟨hserv, hsize, hmax, hstart⟩ := hrep.serving hg ha
    rw [hserv, hsize, hmax, hstart] at hpast
    obtain ⟨x, hx, rfl, hfb⟩ := mem_allocate ha
    have hslot := v.shape.slot_in_page (b := x.base) (Slots.busy_lt hfb)
    unfold Buffer.usable Shape.slot at *
    simp only at h1 h2
    exact h'.views.off_page (v := ⟨v.shape, pool', ys⟩) (by simp) (List.mem_map_of_mem hx)
      (by simp only; omega) (by omega)

/-- The buffer `srealloc` answered, as the program holds it. -/
def ApiState.resized (σ : ApiState) (b : Buffer) (w' : World) (q n : ℕ) : Buffer :=
  ⟨q, n, if q = b.ptr then b.origin else w'.originOf σ.pools q n⟩

/-- What `srealloc` of the live buffer `b` did when it answered `q`: the invariant, what
was copied, and, for payload kept apart, the contents of the buffers. -/
structure Resized (w₀ : World) (shift : ℕ) (σ : ApiState) (os : Os) (b : Buffer) (n : ℕ)
    (pools' : List slab_pool) (q : ℕ) (w' : World) : Prop where
  system : (σ.resized b w' q n).origin = .system → q = os.malloc
  chunks : ∀ c, c ∈ w'.heap ↔ (σ.resized b w' q n).origin = .system ∧ c = (q, n)
    ∨ c ∈ σ.world.heap ∧ c.1 ≠ b.ptr
  inv : ∃ vs', AllocInv w₀ ⟨w', pools', σ.resized b w' q n :: σ.live.erase b⟩ vs'
  usable : n ≤ (σ.resized b w' q n).usable
  copies : CopyOnly q b.ptr b.usable σ.world w'
  fits : b.usable ≤ n ∨ NoCopy σ.world w'
  contents : shift = 2 ^ 64 → ∀ k < min b.usable n,
    w'.byte shift (q + k) = σ.world.byte shift (b.ptr + k)
  others : shift = 2 ^ 64 → ∀ d ∈ σ.live.erase b, ∀ k < d.usable,
    w'.byte shift (d.ptr + k) = σ.world.byte shift (d.ptr + k)

/-- The payload of a buffer that a call keeps. -/
theorem Keeps.byte {cs : List (ℕ × ℕ)} {w' : World} (h : AllocInv w₀ σ vs)
    (hkeep : Keeps cs vs σ.world w') (hcs : σ.world.Owned cs n) (hn : n < 2 ^ 64) :
    w'.byte (2 ^ 64) n = σ.world.byte (2 ^ 64) n := by
  refine hkeep _ ?_ (h.views.off_high (by omega))
  rwa [Nat.add_mod_right, Nat.mod_eq_of_lt hn]

theorem Resized.in_place (h : AllocInv w₀ σ vs) (hb : b ∈ σ.live) (ho : b.origin = .slab c)
    (hn : n < c) : ∃ pools' q w', SlabAllocator.srealloc os shift σ.pools b.ptr n σ.world
      = .ok ((pools', q), w') ∧ Resized w₀ shift σ os b n pools' q w' := by
  obtain ⟨hrun, hinv⟩ := h.srealloc_in_place os shift hb ho hn
  have hq : σ.resized b σ.world b.ptr n = ⟨b.ptr, n, .slab c⟩ := by
    rw [ApiState.resized, if_pos rfl, ho]
  refine ⟨_, _, _, hrun, ⟨by simp [hq], fun d => ?_, ⟨vs, by rw [hq]; exact hinv⟩,
    by rw [hq]; exact hn.le, (NoCopy.refl rfl).copyOnly _ _ _, .inr (.refl rfl), fun _ _ _ => rfl,
    fun _ _ _ _ _ => rfl⟩⟩
  have hne : d ∈ σ.world.heap → d.1 ≠ b.ptr := fun hd => h.ne_object hd (h.live.busy_of_slab hb ho)
  simp only [hq, reduceCtorEq, false_and, false_or]
  exact ⟨fun hd => ⟨hd, hne hd⟩, And.left⟩

theorem Resized.heap (h : AllocInv w₀ σ vs) (hb : b ∈ σ.live) (ho : b.origin = .system)
    (hmagic : σ.world.field (get_page_pointer b.ptr) .slab_magic ≠ SLAB_MAGIC_NUMBER)
    (hn : 1 ≤ n) (hshift : shift = 0 ∨ shift = 2 ^ 64)
    (hf : MallocFresh σ.world (σ.world.heap.filter fun c => c.1 ≠ b.ptr) os.malloc n) :
    ∃ pools' q w', SlabAllocator.srealloc os shift σ.pools b.ptr n σ.world
      = .ok ((pools', q), w') ∧ Resized w₀ shift σ os b n pools' q w' := by
  have hchunk := h.live.system b hb ho
  have hbu : b.usable = b.size := by rw [Buffer.usable, ho]
  -- the chunks other than this one are those that start elsewhere
  have hne : ∀ d ∈ σ.world.heap.erase (b.ptr, b.size), d.1 ≠ b.ptr := by
    intro d hd he
    have hap := h.heap.apart.perm (List.perm_cons_erase hchunk) fun hs => hs.symm
    have h1 := (List.pairwise_cons.mp hap).1 d hd
    have h2 := h.heap.chunk _ hchunk
    have h3 := h.heap.chunk d (List.mem_of_mem_erase hd)
    unfold Separate at h1
    omega
  have hf' : MallocFresh σ.world (σ.world.heap.erase (b.ptr, b.size)) os.malloc n :=
    ⟨hf.low, hf.high, hf.mapped, fun d hd => hf.heap d
      (List.mem_filter.mpr ⟨List.mem_of_mem_erase hd, by simpa using hne d hd⟩)⟩
  obtain ⟨w', hrun, hor, hinv, hmem, hbytes, hno, hheap⟩ :=
    h.srealloc_heap hb ho hmagic hn (hshift.imp id fun h => h.ge) hf'
  have hq : σ.resized b w' os.malloc n = ⟨os.malloc, n, .system⟩ := by
    rw [ApiState.resized, hor, ho, ite_self]
  refine ⟨_, _, _, hrun, ⟨fun _ => rfl, fun d => ?_, ⟨vs, by rw [hq]; exact hinv⟩,
    by rw [hq]; exact le_refl n, hno.copyOnly _ _ _, .inr hno, fun _ => by rw [hbu]; exact hbytes,
    fun hs d hd k hk => ?_⟩⟩
  · rw [hq, hheap, List.mem_cons]
    have hmem : d ∈ σ.world.heap.erase (b.ptr, b.size) ↔ d ∈ σ.world.heap ∧ d.1 ≠ b.ptr := by
      refine ⟨fun hd => ⟨List.mem_of_mem_erase hd, hne d hd⟩, fun hd => ?_⟩
      have hdb : d ≠ (b.ptr, b.size) := fun he => hd.2 (congrArg Prod.fst he)
      exact (List.mem_erase_of_ne hdb).mpr hd.1
    simp [hmem]
  subst hs
  have hdl : d ∈ σ.live := List.mem_of_mem_erase hd
  have hbound := h.bounds hdl
  have hsep := hinv.separate List.mem_cons_self (List.mem_cons_of_mem _ hd) (by
    rintro rfl
    have := hinv.live.nodup
    rw [List.map_cons, List.nodup_cons] at this
    exact this.1 (List.mem_map_of_mem hd))
  refine hmem _ ?_ ?_
  · rw [Nat.add_mod_right, Nat.mod_eq_of_lt (by omega)]
    have hcall : HeapCall σ.world { σ.world with heap := σ.world.heap.erase (b.ptr, b.size) }
        (σ.world.heap.erase (b.ptr, b.size)) := ⟨rfl, rfl, fun _ _ _ => rfl⟩
    have hdrop := h.drop_chunk hb ho hcall
    exact hdrop.owned hd (Nat.le_add_right _ _) (by omega)
  · have hsep' : os.malloc + n ≤ d.ptr ∨ d.ptr + d.usable ≤ os.malloc := hsep
    omega

/-- The system allocator's chunks decide the origin, and nothing else of the process. -/
theorem originOf_congr {w w' : World} (h : w'.heap = w.heap) (pools : List slab_pool) (p n : ℕ) :
    w'.originOf pools p n = w.originOf pools p n := by
  unfold World.originOf World.chunk
  rw [h]

theorem Resized.moved (h : AllocInv w₀ σ vs) (hb : b ∈ σ.live) (ho : b.origin = .slab c)
    (hc : c ≤ n) (hn : 1 ≤ n) (hm : MmapFresh σ.world os.mmap POOL_GROW_RATE)
    (hf : MallocFresh σ.world (σ.world.heap.filter fun c => c.1 ≠ b.ptr) os.malloc n)
    (hsep : shift = 2 ^ 64 ∨ shift = 0 ∧ σ.ServesApart n) :
    ∃ pools' q w', SlabAllocator.srealloc os shift σ.pools b.ptr n σ.world
      = .ok ((pools', q), w') ∧ Resized w₀ shift σ os b n pools' q w' := by
  have hbu : b.usable = c := by rw [Buffer.usable, ho]
  have hbusy := h.live.busy_of_slab hb ho
  have hf' : MallocFresh σ.world σ.world.heap os.malloc n :=
    ⟨hf.low, hf.high, hf.mapped, fun d hd => hf.heap d
      (List.mem_filter.mpr ⟨hd, by simpa using h.ne_object hd hbusy⟩)⟩
  obtain ⟨pools₁, p, w₁, vs₁, hsm, h₁, hus, hkeep, hno, hoff, hsys, -, hchunks⟩ :=
    h.smalloc hn hm hf'
  obtain ⟨q, hq⟩ : ∃ q : Buffer, q = ⟨p, n, w₁.originOf σ.pools p n⟩ := ⟨_, rfl⟩
  have hqp : q.ptr = p := by rw [hq]
  rw [← hq] at h₁ hus hoff
  rw [← hqp] at hsm hoff
  have hcopy : ∀ a, q.ptr + shift ≤ a → a < q.ptr + shift + c → PoolView.Off vs₁ a := by
    intro a ha1 ha2
    rcases hsep with rfl | ⟨rfl, hap⟩
    · exact h₁.views.off_high (by omega)
    · exact hoff hap a (by omega) (by omega)
  obtain ⟨l, v, r, pool', ys, w', -, hrun, hinv, hmem, hcp, hheap⟩ :=
    h.srealloc_moved hb ho hc hsm h₁ hus hcopy
  have hnd := h₁.live.nodup
  rw [List.map_cons, List.nodup_cons] at hnd
  have hne : q.ptr ≠ b.ptr := fun he => hnd.1 (he ▸ List.mem_map_of_mem hb)
  have hres : σ.resized b w' q.ptr n = q := by
    rw [ApiState.resized, if_neg hne, originOf_congr hheap, hqp, hq]
  refine ⟨_, _, w', hrun, ⟨fun hs => ?_, fun d => ?_, ⟨_, by rw [hres]; exact hinv⟩,
    by rw [hres]; exact hus, ?_, .inl (by omega), fun hs k hk => ?_, fun hs d hd k hk => ?_⟩⟩
  · rw [hres, hq] at hs
    rw [hqp]
    exact hsys hs
  · have hne : d ∈ σ.world.heap → d.1 ≠ b.ptr := fun hd => h.ne_object hd hbusy
    rw [hres, hheap, hchunks d, hqp, hq]
    exact or_congr_right ⟨fun hd => ⟨hd, hne hd⟩, And.left⟩
  · rw [hbu]
    exact (hno.copyOnly _ _ _).trans hcp
  · -- the bytes copied, which `smalloc` had kept
    subst hs
    have hqb := h₁.bounds List.mem_cons_self
    have hbb := h.bounds hb
    have hown : w₁.Owned w₁.heap (q.ptr + k) :=
      h₁.owned List.mem_cons_self (Nat.le_add_right _ _) (by omega)
    have h2 := hmem (q.ptr + k + 2 ^ 64)
      (by rwa [Nat.add_mod_right, Nat.mod_eq_of_lt (by omega)])
      (h₁.views.off_high (by omega))
    unfold World.byte
    rw [h2, Nat.add_right_comm, copyBytes_apply _ (by omega), Nat.add_right_comm]
    exact hkeep.byte h (h.owned hb (Nat.le_add_right _ _) (by omega)) (by omega)
  · subst hs
    have hdl := List.mem_of_mem_erase hd
    have hdb := h.bounds hdl
    -- any other buffer is separate from the new one, so the copy does not reach it
    have hdq : Separate (q.ptr, q.usable) (d.ptr, d.usable) :=
      h₁.separate List.mem_cons_self (List.mem_cons_of_mem q hdl) fun he =>
        hnd.1 (he ▸ List.mem_map_of_mem hdl)
    have hdq' : q.ptr + q.usable ≤ d.ptr ∨ d.ptr + d.usable ≤ q.ptr := hdq
    have hown : w₁.Owned w₁.heap (d.ptr + k) :=
      h₁.owned (List.mem_cons_of_mem q hdl) (Nat.le_add_right _ _) (by omega)
    have h2 := hmem (d.ptr + k + 2 ^ 64)
      (by rwa [Nat.add_mod_right, Nat.mod_eq_of_lt (by omega)])
      (h₁.views.off_high (by omega))
    unfold World.byte
    rw [h2, copyBytes_apply_of_not_mem _ (by omega)]
    exact hkeep.byte h (h.owned hdl (Nat.le_add_right _ _) (by omega)) (by omega)

/-- **`srealloc`** of a live buffer. -/
theorem AllocInv.srealloc (h : AllocInv w₀ σ vs) (hg : σ.Granted (.srealloc os b n))
    (hu : σ.Unfooled (.srealloc os b n))
    (hsep : shift = 2 ^ 64 ∨ shift = 0 ∧ σ.Apart (.srealloc os b n)) :
    ∃ pools' q w', SlabAllocator.srealloc os shift σ.pools b.ptr n σ.world
      = .ok ((pools', q), w') ∧ Resized w₀ shift σ os b n pools' q w' := by
  obtain ⟨hb, hn, hm, hf⟩ := hg
  rcases ho : b.origin with _ | c
  · exact Resized.heap h hb ho (hu ho) hn (hsep.symm.imp And.left id) hf
  · rcases Nat.lt_or_ge n c with hc | hc
    · exact Resized.in_place h hb ho hc
    · exact Resized.moved h hb ho hc hn hm hf (hsep.imp id fun hs => ⟨hs.1, hs.2 c ho hc⟩)

/-- **`sfree`** of a live buffer. -/
theorem AllocInv.sfree (h : AllocInv w₀ σ vs) (hb : b ∈ σ.live) (hu : σ.Unfooled (.sfree os b)) :
    ∃ pools' w' vs', SlabAllocator.sfree os σ.pools b.ptr σ.world = .ok (pools', w')
      ∧ AllocInv w₀ ⟨w', pools', σ.live.erase b⟩ vs' := by
  rcases ho : b.origin with _ | c
  · obtain ⟨w', hrun, hcall, -⟩ := h.sfree_heap hb ho (hu ho) os
    exact ⟨_, w', vs, hrun, h.drop_chunk hb ho hcall⟩
  · obtain ⟨l, v, r, pool', ys, w', -, -, -, -, hrun, hinv, -⟩ := h.sfree_slab hb ho
    exact ⟨_, w', _, hrun os, hinv⟩

/-- A byte the program may write, past the arrays, is off the books. -/
theorem AllocInv.off_write {a : ℕ} {x : UInt8} (h : AllocInv w₀ σ vs)
    (hg : σ.Granted (.write a x)) (hap : σ.Apart (.write a x)) : PoolView.Off vs a := by
  obtain ⟨d, hd, h1, h2⟩ := hg
  rcases h.region hd with ⟨c, u, s', -, hu, hs', -, hus, h3, h4⟩ | ⟨-, hm⟩
  · intro v hv s hs
    have hslabs : s ∈ σ.world.slabs v.pool := by
      rw [(h.views.reps v hv).slabs_eq]
      exact hs
    obtain ⟨y, hy, rfl⟩ := List.mem_map.mp hs
    have hr := (h.views.reps v hv).list.slabs y hy
    have hpast := hap v.pool (h.pools ▸ List.mem_map_of_mem hv) y.base hslabs
    rw [hr.max_refs] at hpast
    have h5 := (h.views.base hu hs').1
    have h6 := hr.page.2
    have h7 := v.shape.cap_le
    unfold sizeof_mem_slab sizeof_bufctl at hpast
    omega
  · exact h.off_chunk hm h1 h2

/-- **One step.** A granted step that meets the two conditions succeeds and keeps the
invariant. -/
theorem AllocInv.step (h : AllocInv w₀ σ vs) {e : ApiEvent} (hg : σ.Granted e)
    (hu : σ.Unfooled e) (hsep : shift = 2 ^ 64 ∨ shift = 0 ∧ σ.Apart e) :
    ∃ σ' vs', σ.exec shift e = .ok σ' ∧ AllocInv w₀ σ' vs' := by
  cases e with
  | smalloc os n =>
      obtain ⟨pools', p, w', vs', hrun, hinv, -⟩ := h.smalloc hg.1 hg.2.1 hg.2.2
      exact ⟨_, vs', by rw [ApiState.exec, hrun]; rfl, hinv⟩
  | srealloc os b n =>
      obtain ⟨pools', q, w', hrun, hres⟩ := h.srealloc hg hu hsep
      obtain ⟨vs', hinv⟩ := hres.inv
      exact ⟨_, vs', by rw [ApiState.exec, hrun]; rfl, hinv⟩
  | sfree os b =>
      obtain ⟨pools', w', vs', hrun, hinv⟩ := h.sfree hg hu
      exact ⟨_, vs', by rw [ApiState.exec, hrun]; rfl, hinv⟩
  | write a x =>
      refine ⟨_, vs, rfl, h.congr rfl rfl fun y hy => if_neg ?_⟩
      rintro rfl
      -- a byte written is a byte of a buffer, and that is never on the books
      refine hy ?_
      rcases hsep with rfl | ⟨rfl, hap⟩
      · exact h.views.off_high (Nat.le_add_left _ _)
      · exact h.off_write hg hap

/-- A step is determined by its state and its event. -/
theorem ApiStep.unique {σ₁ σ₂ : ApiState} {e : ApiEvent} (h₁ : ApiStep shift σ e σ₁)
    (h₂ : σ.exec shift e = .ok σ₂) : σ₁ = σ₂ := by
  have h := h₁.2
  rw [h₂] at h
  cases h
  rfl

end Steps

/-! ## Runs -/

section ApiRuns

variable {w₀ : World} {σ : ApiState} {t : List (ApiState × ApiEvent)} {shift : ℕ}

/-- **Every run** whose steps meet the two conditions keeps the invariant. -/
theorem ApiRun.inv (hrun : ApiRun shift w₀ t σ) (hu : ∀ x ∈ t, x.1.Unfooled x.2)
    (hsep : shift = 2 ^ 64 ∨ shift = 0 ∧ ∀ x ∈ t, x.1.Apart x.2) : ∃ vs, AllocInv w₀ σ vs := by
  obtain ⟨σ₀, os, hinit, hr⟩ := hrun
  refine hr.invariant (P := fun σ => ∃ vs, AllocInv w₀ σ vs)
    (c := fun σ e => σ.Unfooled e ∧ (shift = 2 ^ 64 ∨ shift = 0 ∧ σ.Apart e)) ?_ ?_
    (fun x hx => ⟨hu x hx, hsep.imp id fun hs => ⟨hs.1, hs.2 x hx⟩⟩)
  · obtain ⟨vs, hinv, -⟩ := hinit.inv
    exact ⟨vs, hinv⟩
  · rintro s e s' ⟨vs, hinv⟩ ⟨hu, hsep⟩ hstep
    obtain ⟨s'', vs', hexec, hinv'⟩ := hinv.step hstep.1 hu hsep
    rw [hstep.unique hexec]
    exact ⟨vs', hinv'⟩

end ApiRuns

/-! ## The first steps of a process

A process starts with nothing mapped. As long as nothing lies above `2 ^ 30` and the system
allocator was not asked, both can answer from there. -/

/-- The answers of an operating system with room. -/
def roomyOs : Os := ⟨2 ^ 30, 2 ^ 40, fun _ => 0⟩

/-- The pages lie below `2 ^ 30`, and there is no chunk. -/
structure ApiState.Roomy (σ : ApiState) : Prop where
  mapped : ∀ p ∈ σ.world.mapped, p + SLAB_PAGE_SIZE ≤ 2 ^ 30
  heap : σ.world.heap = []

section Roomy

variable {σ : ApiState} {n : ℕ}

theorem ApiState.Roomy.mmap (h : σ.Roomy) : MmapFresh σ.world roomyOs.mmap POOL_GROW_RATE :=
  ⟨by decide, by decide, by decide, fun p hp => .inl (h.mapped p hp), by simp [h.heap]⟩

theorem ApiState.Roomy.malloc (h : σ.Roomy) (hn : n ≤ 2 ^ 40) :
    MallocFresh σ.world σ.world.heap roomyOs.malloc n := by
  have hmalloc : roomyOs.malloc = 2 ^ 40 := rfl
  refine ⟨by decide, by omega, fun p hp => .inl ?_, by simp [h.heap]⟩
  have := h.mapped p hp
  omega

/-- A process with room can ask for memory. -/
theorem ApiState.Roomy.granted (h : σ.Roomy) (h1 : 1 ≤ n) (hn : n ≤ 2 ^ 40) :
    σ.Granted (.smalloc roomyOs n) := ⟨h1, h.mmap, h.malloc hn⟩

/-- It can resize what it holds. -/
theorem ApiState.Roomy.granted_srealloc (h : σ.Roomy) {b : Buffer} (hb : b ∈ σ.live) (h1 : 1 ≤ n)
    (hn : n ≤ 2 ^ 40) : σ.Granted (.srealloc roomyOs b n) := by
  have hm := h.malloc hn
  refine ⟨hb, h1, h.mmap, hm.low, hm.high, hm.mapped, fun c hc => hm.heap c ?_⟩
  exact List.mem_of_mem_filter hc

/-- A process with nothing mapped can initialise the allocator, and has room then. -/
theorem exists_initialized : ∃ σ os, Initialized World.empty σ os ∧ σ.Roomy := by
  obtain ⟨os, hos⟩ : ∃ os : ℕ → Os, ∀ i, (os i).mmap = 4096 + 40960 * i :=
    ⟨fun i => ⟨4096 + 40960 * i, 0, fun _ => 0⟩, fun _ => rfl⟩
  have hlen : cache_sizes.length = 6 := rfl
  have hfresh : InitFresh World.empty os 0 cache_sizes.length := by
    refine ⟨fun j _ hj => ?_, fun j j' _ hlt _ => .inl ?_⟩
    · rw [hlen] at hj
      rw [hos]
      refine ⟨?_, ?_, ?_, by simp [World.empty], by simp [World.empty]⟩
      all_goals
        simp only [SLAB_PAGE_SIZE, POOL_START_SIZE]
        omega
    · rw [hos, hos]
      unfold POOL_START_SIZE SLAB_PAGE_SIZE
      omega
  obtain ⟨vs, w', hrun, -, hviews, -, hbases, hheap, -⟩ := smalloc_initialize_spec hfresh
  refine ⟨⟨w', vs.map PoolView.pool, []⟩, os, ⟨⟨by simp [World.empty], List.Pairwise.nil,
    by simp [World.empty]⟩, hfresh, hrun, rfl⟩, fun p hp => ?_, hheap⟩
  have hm := hviews.mapped.mem_iff.mp hp
  rw [hbases, World.empty, List.nil_append, initPages, List.mem_flatMap] at hm
  obtain ⟨j, hj, hm⟩ := hm
  obtain ⟨i, hi, rfl⟩ := mem_pages.mp hm
  have hjr := List.mem_range'_1.mp hj
  rw [hos]
  unfold POOL_START_SIZE at hi
  unfold SLAB_PAGE_SIZE
  omega

/-- The pool of a cache size in a process that has just initialised the allocator: its first
slab is fresh, and reads as zero behind the entries. -/
theorem exists_class {pre post : List ℕ} {c : ℕ} (hc : cache_sizes = pre ++ c :: post)
    (hpre : ∀ s ∈ pre, s < c) :
    ∃ (σ : ApiState) (os : ℕ → Os) (l r : List PoolView) (g : Shape) (pool : slab_pool) (a : ℕ)
      (rest : List (PoolSlab g.cap)), Initialized World.empty σ os ∧ σ.Roomy
      ∧ AllocInv World.empty σ (l ++ ⟨g, pool, PoolSlab.fresh g.cap a :: rest⟩ :: r)
      ∧ (∀ u ∈ l, u.shape.size < c) ∧ g.size = c
      ∧ ∀ k, a + 64 + 5 * g.cap ≤ k → k < a + 4096 → σ.world.mem k = 0 := by
  obtain ⟨σ, os, hinit, hσ⟩ := exists_initialized
  obtain ⟨vs, hinv, hsizes, hnew⟩ := hinit.inv
  rw [hc] at hsizes
  obtain ⟨l, k, rfl, rfl, hk⟩ := List.map_eq_append_iff.mp hsizes
  obtain ⟨⟨g, pool, xs⟩, r, rfl, hg, rfl⟩ := List.map_eq_cons_iff.mp hk
  have hv := hnew ⟨g, pool, xs⟩ (by simp)
  obtain ⟨a, rfl⟩ : ∃ a, xs = (pages a POOL_START_SIZE).map (PoolSlab.fresh _) := hv.slabs
  refine ⟨σ, os, l, r, g, pool, a + 0 * SLAB_PAGE_SIZE,
    ((List.range' 1 9).map fun i => a + i * SLAB_PAGE_SIZE).map (PoolSlab.fresh _), hinit, hσ,
    hinv, fun u hu => hpre _ (List.mem_map_of_mem hu), hg, hv.zero _ ?_⟩
  rw [PoolView.bases, bases_fresh]
  exact mem_pages.mpr ⟨0, by decide, rfl⟩

/-- A process with room is served from the first slab of a pool that has room. -/
theorem AllocInv.smalloc_first {w₀ : World} {l r : List PoolView} {g : Shape} {pool : slab_pool}
    {x : PoolSlab g.cap} {rest : List (PoolSlab g.cap)} {f : ℕ} {s : Slots g.cap}
    (h : AllocInv w₀ σ (l ++ ⟨g, pool, x :: rest⟩ :: r)) (shift : ℕ) (hσ : σ.Roomy)
    (hl : ∀ u ∈ l, u.shape.size < n) (h1 : 1 ≤ n) (hn : n ≤ g.size)
    (hx : x.slots.alloc = some (f, s)) :
    ∃ pool' σ', ApiStep shift σ (.smalloc roomyOs n) σ'
      ∧ SlabAllocator.smalloc roomyOs σ.pools n σ.world
        = .ok ((σ'.pools, g.slot x.base f), σ'.world)
      ∧ AllocInv w₀ σ' (l ++ ⟨g, pool', ⟨x.base, s⟩ :: rest⟩ :: r)
      ∧ σ'.live = ⟨g.slot x.base f, n, .slab g.size⟩ :: σ.live ∧ σ'.Roomy
      ∧ Keeps σ.world.heap (l ++ ⟨g, pool, x :: rest⟩ :: r) σ.world σ'.world := by
  have hsize := g.size_le
  have hgrant := hσ.granted h1 (by omega)
  have hfind : σ.pools.find? (fun pool => n ≤ pool.allocation_size) = some pool := by
    rw [h.pools, List.map_append, List.map_cons, List.find?_append, List.find?_eq_none.mpr,
      Option.none_or, List.find?_cons_of_pos]
    · rw [h.allocation_size (v := ⟨g, pool, x :: rest⟩) (by simp)]
      simpa using hn
    · intro p hp
      obtain ⟨u, hu, rfl⟩ := List.mem_map.mp hp
      rw [h.allocation_size (by simp [hu])]
      simpa using hl u hu
  have hfull : ¬ FirstFull (x :: rest) := by
    have hfree := (Slots.alloc_some hx).1
    simp [FirstFull, PoolSlab.Full, hfree]
  have hserve : SlabAllocator.allocate roomyOs.mmap (x :: rest)
      = some (x.base, f, ⟨x.base, s⟩ :: rest) := by
    rw [SlabAllocator.allocate, arrange, if_neg hfull, serve, hx]
    rfl
  obtain ⟨b, f', ys, pool', w', hrun, ha, hor, hinv, hkeep, -, hheap, hm, -⟩ :=
    h.smalloc_slab hl hn hfind hgrant.2.1
  rw [hserve] at ha
  cases ha
  rw [newPages, if_neg fun hg => hfull hg.1, List.append_nil] at hm
  refine ⟨pool', _, ⟨hgrant, by rw [ApiState.exec, hrun]; rfl⟩, hrun, ?_, ?_, ⟨?_, ?_⟩, hkeep⟩
  · rw [hor]
    exact hinv
  · rw [hor]
  · rw [hm]
    exact hσ.mapped
  · rw [hheap]
    exact hσ.heap

/-- The allocator initialised, and one object of a cache size, in the first slab of a list. -/
theorem exists_object {pre post : List ℕ} {c : ℕ} (hc : cache_sizes = pre ++ c :: post)
    (hpre : ∀ s ∈ pre, s < c) (shift : ℕ) :
    ∃ σ₀ σ b, ApiRun shift World.empty [(σ₀, .smalloc roomyOs c)] σ ∧ σ.live = [b]
      ∧ b.origin = .slab c ∧ σ.Roomy
      ∧ σ.world.field (get_page_pointer b.ptr) .prev = NULL := by
  obtain ⟨σ₀, os, l, r, g, pool, a, rest, hinit, hroomy, hinv, hl, hg, -⟩ := exists_class hc hpre
  obtain ⟨f, s, halloc⟩ : ∃ f s, (PoolSlab.fresh g.cap a).slots.alloc = some (f, s) := by
    rcases hf : (PoolSlab.fresh g.cap a).slots.free with _ | ⟨f, F⟩
    · exact absurd hf (PoolSlab.not_full_fresh g.cap_pos a)
    · obtain ⟨s, hs, -⟩ := Slots.alloc_cons hf
      exact ⟨f, s, hs⟩
  obtain ⟨pool', σ, hstep, -, hinv', hlive, hroomy', -⟩ :=
    hinv.smalloc_first shift hroomy hl (by rw [← hg]; exact g.size_pos) hg.ge halloc
  rw [hinit.live, hg] at hlive
  refine ⟨σ₀, σ, _, ⟨σ₀, os, hinit, .next .start hstep⟩, hlive, rfl, hroomy', ?_⟩
  have hlist := (hinv'.views.reps ⟨g, pool', ⟨(PoolSlab.fresh g.cap a).base, s⟩ :: rest⟩
    (by simp)).list
  have hf : f < g.cap := by
    refine Slots.free_lt (s := (PoolSlab.fresh g.cap a).slots) ?_
    rw [(Slots.alloc_some halloc).1]
    exact List.mem_cons_self
  rw [(hlist.slabs _ List.mem_cons_self).page_of_slot hf]
  exact hlist.chain.links.1

/-- An object of the first slab of a pool goes back, and the slab keeps another. -/
theorem AllocInv.sfree_first {w₀ : World} {l r : List PoolView} {g : Shape} {pool : slab_pool}
    {x : PoolSlab g.cap} {rest : List (PoolSlab g.cap)} {i : ℕ} {b : Buffer}
    (h : AllocInv w₀ σ (l ++ ⟨g, pool, x :: rest⟩ :: r)) (shift : ℕ) (os : Os) (hσ : σ.Roomy)
    (hb : b ∈ σ.live)
    (ho : b.origin = .slab g.size) (hp : b.ptr = g.slot x.base i) (hi : i < g.cap)
    (hx : (x.slots.dealloc i).busy ≠ []) :
    ∃ pool' σ', ApiStep shift σ (.sfree os b) σ'
      ∧ AllocInv w₀ σ' (l ++ ⟨g, pool', ⟨x.base, x.slots.dealloc i⟩ :: rest⟩ :: r)
      ∧ σ'.live = σ.live.erase b ∧ σ'.Roomy
      ∧ Keeps σ.world.heap (l ++ ⟨g, pool, x :: rest⟩ :: r) σ.world σ'.world := by
  have hv : (⟨g, pool, x :: rest⟩ : PoolView) ∈ l ++ ⟨g, pool, x :: rest⟩ :: r := by simp
  obtain ⟨l', v, r', pool', ys, w', hvs, hsize, -, -, hrun, hinv, hkeep, -, hheap, hsub, m, k, y, j,
    hys, hj, hptr, rfl⟩ := h.sfree_slab hb ho
  -- the sizes of the pools tell them apart
  have hdist := h.views.distinct
  have hview : v = ⟨g, pool, x :: rest⟩ :=
    List.inj_on_of_nodup_map hdist (by rw [hvs]; simp) hv hsize
  subst hview
  have hnd : (l ++ ⟨g, pool, x :: rest⟩ :: r).Nodup := .of_map _ hdist
  obtain ⟨rfl, -, rfl⟩ := (List.append_cons_inj_of_notMem
    (fun hm => (List.nodup_append.mp hnd).2.2 _ hm _ List.mem_cons_self rfl)
    (List.nodup_cons.mp (List.nodup_append.mp hnd).2.1).1).mp hvs
  have hlist := (h.views.reps _ hv).list
  simp only at hys hptr hj hlist
  have hym : y ∈ x :: rest := by
    rw [hys]
    simp
  obtain ⟨hbase, rfl⟩ := g.slot_page_inj (hlist.slabs x List.mem_cons_self).page.2
    (hlist.slabs y hym).page.2 hi (Slots.busy_lt hj) (hp.symm.trans hptr)
  have hdrop : ¬ Drops x ([] ++ rest) i := fun hd => hx hd.1
  have hys' : SlabAllocator.deallocate y.base i (x :: rest)
      = ⟨x.base, x.slots.dealloc i⟩ :: rest := by
    have := deallocate_eq (l := []) (i := i) hlist.nodup
    rw [if_neg hdrop] at this
    rw [← hbase]
    exact this
  simp only [hys'] at hrun hinv
  refine ⟨pool', _, ⟨hb, by rw [ApiState.exec, hrun]; rfl⟩, hinv, rfl,
    ⟨fun q hq => hσ.mapped q (hsub q hq), ?_⟩, hkeep⟩
  rw [hheap]
  exact hσ.heap

end Roomy

end SlabAllocator
