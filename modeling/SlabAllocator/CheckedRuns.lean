/-
The builds with assertions, over whole runs.

Each function is shown to pass its assertions where the invariant of its layer
holds: a slab in order, a pool in order, the allocator in use. The counters of
the debugging aids come first, because the paranoid build asserts about them.
The run theorem then needs nothing new: a run of the default build that meets
the two conditions is a run of every build, step for step.
-/
import SlabAllocator.CheckedOps
import SlabAllocator.Resize
import SlabAllocator.SlabRuns

set_option autoImplicit false

open ByteMem DoublyLinked Runs

namespace SlabAllocator

/-! ## Counting -/

/-- Counting from the first entry of a chain. -/
theorem freelist_size_loop_spec {w : World} {array p : ℕ} {xs : List ℕ} : ∀ {fuel x n : ℕ},
    Links (w.buf array · .next_index) (w.buf array · .prev_index) p (x :: xs) NON_EXISTANT →
    (∀ i ∈ x :: xs, w.Entry array i) → NON_EXISTANT ∉ xs → xs.length < fuel →
    freelist_size_loop array fuel x n w = .ok (n + xs.length, w) := by
  induction xs generalizing p with
  | nil =>
      intro fuel x n h hent _ hfuel
      obtain ⟨fuel, rfl⟩ : ∃ k, fuel = k + 1 := ⟨fuel - 1, by omega⟩
      have hnext : w.buf array x .next_index = NON_EXISTANT := h.2.1
      rw [freelist_size_loop, bufctl_get_bind (hent x List.mem_cons_self), hnext]
      rfl
  | cons y ys ih =>
      intro fuel x n h hent hnot hfuel
      obtain ⟨fuel, rfl⟩ : ∃ k, fuel = k + 1 := ⟨fuel - 1, by omega⟩
      have hnext : w.buf array x .next_index = y := h.2.1
      have hy : y ≠ NON_EXISTANT := fun he => hnot (by simp [he])
      rw [List.length_cons] at hfuel
      rw [freelist_size_loop, bufctl_get_bind (hent x List.mem_cons_self), hnext, if_pos hy,
        bufctl_get_bind (hent x List.mem_cons_self), hnext,
        ih h.2.2 (fun i hi => hent i (List.mem_cons_of_mem x hi))
          (fun hm => hnot (List.mem_cons_of_mem y hm)) (by omega), List.length_cons,
        show n + 1 + ys.length = n + (ys.length + 1) by omega]

/-- **`get_freelist_size`** counts the links between the slots, free and busy. -/
theorem get_freelist_size_spec {w : World} {g : Shape} {base : ℕ} {s : Slots g.cap}
    (h : Rep w g base s) : get_freelist_size base w = .ok (g.cap - 1, w) := by
  obtain ⟨x, xs, hord⟩ := List.exists_cons_of_ne_nil s.order_ne_nil
  have hlen : xs.length + 1 = g.cap := by
    have h1 := s.length_order
    rw [← List.length_append, ← Slots.order, hord, List.length_cons] at h1
    exact h1
  have hcap := g.cap_le
  have hlinks := h.links
  have hnot := Rep.nonExistant_not_mem (s := s)
  rw [hord] at hlinks hnot
  have hstart : w.field base .freelist_start_index = x := by rw [h.start, hord, List.headD_cons]
  unfold get_freelist_size
  rw [slab_get_bind h.page, slab_get_bind h.page, hstart, h.freelist_buffer,
    freelist_size_loop_spec hlinks (fun i hi => h.entry (Slots.mem_order.mp (hord ▸ hi)))
      (fun hm => hnot (List.mem_cons_of_mem x hm)) (by omega),
    show 0 + xs.length = g.cap - 1 by omega]

/-- Counting the slabs of a chain. -/
theorem list_size_loop_spec {w : World} {p : ℕ} {bs : List ℕ} : ∀ {fuel : ℕ} {n : Int32},
    Links (w.field · .next) (w.field · .prev) p bs NULL → (∀ b ∈ bs, w.Page b) → NULL ∉ bs →
    bs.length < fuel →
    list_size_loop fuel (bs.headD NULL) n w = .ok (n + Int32.ofNat bs.length, w) := by
  induction bs generalizing p with
  | nil =>
      intro fuel n _ _ _ hfuel
      obtain ⟨fuel, rfl⟩ : ∃ k, fuel = k + 1 := ⟨fuel - 1, by omega⟩
      rw [List.headD_nil, list_size_loop]
      simp
  | cons b bs ih =>
      intro fuel n h hpage hnot hfuel
      obtain ⟨fuel, rfl⟩ : ∃ k, fuel = k + 1 := ⟨fuel - 1, by omega⟩
      have hb : b ≠ NULL := fun he => hnot (by simp [he])
      have hnext : w.field b .next = bs.headD NULL := h.2.1
      rw [List.length_cons] at hfuel
      rw [List.headD_cons, list_size_loop, if_pos hb, slab_get_bind (hpage b List.mem_cons_self),
        hnext, ih h.2.2 (fun i hi => hpage i (List.mem_cons_of_mem b hi))
          (fun hm => hnot (List.mem_cons_of_mem b hm)) (by omega), List.length_cons,
        Int32.ofNat_add, Int32.add_assoc, Int32.add_comm 1]
      rfl

/-- **The debugging aids count right.** In every state of a pool `get_list_size` is the number
of slabs the counters give, and `get_freelist_size` of every slab, however its slots are
spread over free and busy ones, is one less than `max_refs`; neither writes. -/
theorem debug_counts {size : ℕ} {w₀ : World} {t : List (PoolState × PoolEvent)} {σ : PoolState}
    (h2 : 2 ≤ num_buffers (int_of_size_t size)) (hrun : PoolRun size w₀ t σ) :
    get_list_size σ.pool.list_start σ.world
        = .ok (int_of_size_t (σ.pool.data.grow_count - σ.pool.data.shrink_count), σ.world)
      ∧ ∀ s ∈ σ.world.slabs σ.pool,
          get_freelist_size s σ.world = .ok (σ.world.field s .max_refs - 1, σ.world) := by
  obtain ⟨xs, hi⟩ := hrun.inv h2
  have hch := hi.rep.list.chain
  have hlen := hi.rep.length
  have hbl : (bases xs).length = xs.length := List.length_map _
  refine ⟨?_, fun s hs => ?_⟩
  · have hloop : list_size_loop (σ.world.mapped.length + 1) ((bases xs).headD NULL) 0 σ.world
        = .ok (0 + Int32.ofNat (bases xs).length, σ.world) :=
      list_size_loop_spec hch.links hch.page hch.null_not_mem (Nat.lt_succ_of_le hch.length_le)
    unfold get_list_size
    rw [hi.rep.list.start, hloop, Int32.zero_add, hbl, ← hlen, Nat.add_sub_cancel]
    rfl
  · rw [hi.rep.slabs_eq] at hs
    obtain ⟨y, hy, rfl⟩ := List.mem_map.mp hs
    have hr := hi.rep.list.slabs y hy
    rw [get_freelist_size_spec hr, hr.max_refs]

/-- The theorem after the first allocation from a pool of the class of 256 bytes. -/
theorem debug_counts_256 : 2 ≤ num_buffers (int_of_size_t 256) ∧
    ∃ t σ n, PoolRun 256 World.empty t σ ∧ t ≠ []
      ∧ get_list_size σ.pool.list_start σ.world = .ok (n, σ.world) := by
  have h2 : 2 ≤ num_buffers (int_of_size_t 256) := by decide
  obtain ⟨σ₀, os, σ, p, hrun, -⟩ := exists_first_step h2
  exact ⟨h2, _, σ, _, hrun, by simp, (debug_counts h2 hrun).1⟩

/-! ## The slab -/

/-- Every address of a slot is on the page of its slab. -/
theorem Rep.page_of_slot_add {w : World} {g : Shape} {base i k : ℕ} {s : Slots g.cap}
    (h : Rep w g base s) (hi : i < g.cap) (hk : k < g.size) :
    get_page_pointer (g.slot base i + k) = base := by
  have hend := h.slot_lt hi
  rw [get_page_pointer_eq (by omega)]
  exact g.pageOf_slot h.page.2 hi hk

namespace Checked

section Slab

variable {build : Build} {w : World} {g : Shape} {base : ℕ} {s : Slots g.cap}

theorem test_ok {p : Prop} [Decidable p] (h : p) :
    (pure (decide p) : M Bool) w = .ok (true, w) := by
  rw [decide_eq_true h, SlabAllocator.pure_run]

/-- An assertion about a field of an accessible header. -/
theorem field_test {f : SlabField} {p : ℕ → Prop} [DecidablePred p] (hp : w.Page base)
    (h : p (w.field base f)) :
    (do return decide (p (← SlabAllocator.slab_get base f)) : M Bool) w = .ok (true, w) := by
  rw [SlabAllocator.slab_get_bind hp, decide_eq_true h, SlabAllocator.pure_run]

theorem paranoid_size_ok (h : Rep w g base s) :
    ∃ n, paranoid_size build base w = .ok (n, w)
      ∧ (build.SLAB_CONFIG_DEBUG_PARANOID_ASSERTS = true → n = g.cap - 1) := by
  unfold paranoid_size
  by_cases hb : build.SLAB_CONFIG_DEBUG_PARANOID_ASSERTS
  · rw [if_pos hb, plain_ok (get_freelist_size_spec h)]
    exact ⟨_, rfl, fun _ => rfl⟩
  · rw [if_neg hb]
    exact ⟨0, rfl, fun h => absurd h hb⟩

theorem paranoid_assert_ok (h : Rep w g base s) {n : ℕ}
    (hn : build.SLAB_CONFIG_DEBUG_PARANOID_ASSERTS = true → n = g.cap - 1) :
    paranoid_assert build base n w = .ok ((), w) := by
  unfold paranoid_assert
  by_cases hb : build.SLAB_CONFIG_DEBUG_PARANOID_ASSERTS
  · rw [if_pos hb, bind_ok (plain_ok (get_freelist_size_spec h)), hn hb]
    exact assert_ok (by simp)
  · rw [if_neg hb, pure_run]

/-- The first and the last entry of a slab are not the end mark. -/
theorem start_test (h : Rep w g base s) : w.field base .freelist_start_index ≠ NON_EXISTANT := by
  have hm : s.order.headD NON_EXISTANT ∈ s.order := headD_mem s.order_ne_nil
  rw [h.start]
  intro he
  exact Rep.nonExistant_not_mem (he ▸ hm)

theorem stop_test (h : Rep w g base s) : w.field base .freelist_end_index ≠ NON_EXISTANT := by
  have hm : s.order.getLastD NON_EXISTANT ∈ s.order := getLastD_mem s.order_ne_nil
  rw [h.stop]
  intro he
  exact Rep.nonExistant_not_mem (he ▸ hm)

theorem base_ne_null (h : Rep w g base s) : base ≠ NULL := by
  have := h.low
  unfold NULL
  omega

/-- The last lines of `mem_slab_alloc` only read. -/
theorem reads_alloc_tail (slab i : ℕ) : Reads (do
    let allocable_buffer ← SlabAllocator.slab_get slab .allocable_buffer
    let size ← SlabAllocator.slab_get slab .size
    return ptr_add allocable_buffer (size * i)) :=
  (reads_load _ _).bind fun _ => (reads_load _ _).bind fun _ => reads_pure _

/-- **`mem_slab_alloc`** on a slab with room passes its assertions, in every build. -/
theorem passes_mem_slab_alloc {f : ℕ} {s' : Slots g.cap} (h : Rep w g base s) (h2 : 2 ≤ g.cap)
    (ha : s.alloc = some (f, s')) (r : ℕ × World) :
    Passes (mem_slab_alloc build base) (SlabAllocator.mem_slab_alloc base) w r := by
  obtain ⟨w', hrun, hrep, -⟩ := mem_slab_alloc_spec h h2 ha
  obtain ⟨n, hn, hsize⟩ := @paranoid_size_ok build _ _ _ _ h
  have hf : f < g.cap := Slots.free_lt (s := s) (by simp [(Slots.alloc_some ha).1])
  refine Passes.of_eq hrun ?_
  unfold mem_slab_alloc SlabAllocator.mem_slab_alloc
  refine .assert (fun _ => test_ok (base_ne_null h)) ?_
  refine .assert (fun _ => field_test h.page h.slab_magic) (.skip hn ?_)
  refine .bind (fun _ => passes_plain) fun freelist_array v _ => ?_
  refine .bind (fun _ => passes_plain) fun free_index v _ => ?_
  refine .bind (fun _ => passes_plain) fun is_free v _ => .ite (fun _ => passes_pure _) fun _ => ?_
  refine .bind (fun _ => passes_plain) fun ref_count v _ => ?_
  refine .bind (fun _ => passes_plain) fun _ v _ => ?_
  refine .bind (fun _ => passes_plain) fun free_next v _ => ?_
  refine .bind (fun _ => passes_plain) fun free_prev v _ => ?_
  -- whichever way the slot is unlinked, the rest of the call is the same
  suffices hrest : ∀ v, Passes _ _ v (g.slot base f, w') by
    refine .ite (fun _ => ?_) fun _ => ?_
    · exact .bind (fun _ => passes_plain) fun _ v _ => .bind (fun _ => passes_plain) fun _ v _ =>
        hrest v
    · exact .bind (fun _ => passes_plain) fun _ v _ => .bind (fun _ => passes_plain) fun _ v _ =>
        hrest v
  intro v
  refine .bind (fun _ => passes_plain) fun _ v _ => .bind (fun _ => passes_plain) fun _ v _ => ?_
  refine .bind (fun _ => passes_plain) fun _ v _ => .bind (fun _ => passes_plain) fun _ v _ => ?_
  refine .bind (fun _ => passes_plain) fun _ v _ => .bind (fun _ => passes_plain) fun _ v _ => ?_
  refine .bind (fun _ => passes_plain) fun _ v _ => ?_
  -- nothing is written any more, so this is the world the call ends in
  intro hend
  obtain rfl : w' = v := reads_alloc_tail base free_index v _ w' hend
  revert hend
  refine Passes.assert (fun _ => field_test hrep.page (start_test hrep)) ?_
  refine .assert (fun _ => field_test hrep.page (stop_test hrep)) ?_
  refine .skip (paranoid_assert_ok hrep hsize) ?_
  refine .bind (fun _ => passes_plain) fun allocable_buffer v _ => ?_
  refine .bind (fun _ => passes_plain) fun size v _ => .assert (fun hret => ?_) (passes_pure _)
  rw [SlabAllocator.pure_run, Except.ok.injEq, Prod.mk.injEq] at hret
  rw [hret.1, is_ptr_in_page, hrep.page_of_slot hf]
  simp

/-- `mem_slab_alloc` on a full slab passes its assertions. -/
theorem mem_slab_alloc_full (h : Rep w g base s) (ha : s.alloc = none) :
    mem_slab_alloc build base w = .ok (NULL, w) := by
  obtain ⟨n, hn, -⟩ := @paranoid_size_ok build _ _ _ _ h
  have hfree := Slots.alloc_eq_none.mp ha
  have hord : s.order = s.busy := by rw [Slots.order, hfree, List.nil_append]
  have hmem : s.order.headD NON_EXISTANT ∈ s.order := headD_mem s.order_ne_nil
  have hbusy : w.buf (base + 64) (s.order.headD NON_EXISTANT) .is_free ≠ SLOT_FREE := by
    rw [h.busy _ (hord ▸ hmem)]
    decide
  unfold mem_slab_alloc
  rw [bind_ok (assert_ok (test_ok (base_ne_null h))),
    bind_ok (assert_ok (field_test h.page h.slab_magic)), bind_ok hn, slab_get_bind h.page,
    slab_get_bind h.page, h.freelist_buffer, h.start,
    bufctl_get_bind (h.entry (Slots.mem_order.mp hmem)), if_pos hbusy, pure_run]

/-- **`mem_slab_dealloc`** of a pointer into a busy slot passes its assertions. -/
theorem passes_mem_slab_dealloc {x k : ℕ} (h : Rep w g base s) (hx : x ∈ s.busy)
    (hk : k < g.size) (r : Unit × World) :
    Passes (mem_slab_dealloc build base (g.slot base x + k))
      (SlabAllocator.mem_slab_dealloc base (g.slot base x + k)) w r := by
  have hcap := g.cap_le
  have hin := Slots.busy_lt hx
  obtain ⟨w', hrun, hrep, -⟩ := mem_slab_dealloc_spec h hx hk
  have hidx := get_buffer_index_from_ptr_spec h.page h.high h.size h.allocable_buffer hin hk
  have hptr := h.page_of_slot_add hin hk
  refine Passes.of_eq hrun ?_
  unfold mem_slab_dealloc SlabAllocator.mem_slab_dealloc
  refine .assert (fun _ => test_ok (base_ne_null h)) ?_
  refine .assert (fun _ => field_test h.page h.slab_magic) ?_
  refine .assert (fun _ => by simp [is_ptr_in_page, hptr]) ?_
  -- up to the test of the slot nothing is written
  refine .bind (fun _ => passes_plain) fun array v hv => ?_
  rw [slab_get_ok h.page, Except.ok.injEq, Prod.mk.injEq, h.freelist_buffer] at hv
  obtain ⟨rfl, rfl⟩ := hv
  refine .bind (fun _ => passes_plain) fun slot_index v hv => ?_
  rw [hidx, Except.ok.injEq, Prod.mk.injEq] at hv
  obtain ⟨rfl, rfl⟩ := hv
  refine .assert (fun _ => test_ok (by unfold NON_EXISTANT; omega)) (.assert (fun _ => ?_) ?_)
  · rw [SlabAllocator.bufctl_get_bind (h.entry hin), h.busy _ hx]
    rfl
  refine .bind (fun _ => passes_plain) fun _ v _ => .bind (fun _ => passes_plain) fun _ v _ => ?_
  refine .bind (fun _ => passes_plain) fun _ v _ => .bind (fun _ => passes_plain) fun next v _ => ?_
  refine .bind (fun _ => passes_plain) fun prev v _ => .bind (fun _ => passes_plain) fun _ v _ => ?_
  refine .ite (fun _ => passes_pure _) fun _ => ?_
  refine .bind (fun _ => passes_plain) fun _ v _ => .ite (fun _ => passes_pure _) fun _ => ?_
  -- two more tests, each with the same rest on both sides
  suffices hlast : ∀ v, Passes _ _ v ((), w') by
    suffices hstop : ∀ v, Passes _ _ v ((), w') by
      refine .ite (fun _ => .bind (fun _ => passes_plain) fun _ v _ => hstop v) fun _ => ?_
      exact .bind (fun _ => passes_plain) fun _ v _ => .bind (fun _ => passes_plain) fun _ v _ =>
        hstop v
    intro v
    refine .bind (fun _ => passes_plain) fun _ v _ => .ite (fun _ => ?_) fun _ => hlast v
    exact .bind (fun _ => passes_plain) fun _ v _ => hlast v
  intro v
  refine .bind (fun _ => passes_plain) fun _ v _ => .bind (fun _ => passes_plain) fun _ v _ => ?_
  refine .bind (fun _ => passes_plain) fun _ v _ => .bind (fun _ => passes_plain) fun _ v _ => ?_
  refine .bind (fun _ => passes_plain) fun _ v _ => .after passes_plain fun _ => ?_
  rw [bind_ok (assert_ok (field_test hrep.page (start_test hrep))),
    assert_ok (field_test hrep.page (stop_test hrep))]

/-- **`mem_slab_free`** of an empty slab passes its assertions. -/
theorem passes_mem_slab_free (hp : w.Page base) (hne : base ≠ NULL)
    (hmagic : w.field base .slab_magic = SLAB_MAGIC_NUMBER) (href : w.field base .ref_count = 0)
    (r : Unit × World) :
    Passes (mem_slab_free build base) (SlabAllocator.mem_slab_free base) w r := by
  refine .assert (fun _ => test_ok hne) (.assert (fun _ => field_test hp hmagic) ?_)
  exact .assert (fun _ => field_test hp href) passes_plain

end Slab

/-! ## The pool -/

section Pool

variable {build : Build} {w : World} {g : Shape} {size start stop : ℕ} {pool : slab_pool}
  {os : Os} {xs l r : List (PoolSlab g.cap)} {x : PoolSlab g.cap}

theorem start_ne_null (h : SlabList w g start stop xs) : start ≠ NULL := by
  rw [h.start]
  exact h.chain.ne_null (headD_mem (bases_ne_nil h.nonempty))

/-- A list whose first slab has room can be served. -/
theorem exists_serve (hne : xs ≠ []) (h : ¬ FirstFull xs) :
    ∃ b f ys, serve xs = some (b, f, ys) := by
  obtain ⟨x, rest, rfl⟩ := List.exists_cons_of_ne_nil hne
  obtain ⟨f, F, hfree⟩ := List.exists_cons_of_ne_nil (l := x.slots.free) fun hf =>
    h (by simpa [FirstFull, PoolSlab.Full] using hf)
  obtain ⟨s', ha, -⟩ := Slots.alloc_cons hfree
  exact ⟨x.base, f, ⟨x.base, s'⟩ :: rest, by rw [serve, ha]; rfl⟩

/-- The allocation from the first slab, if it has room, passes the assertion of the pool. -/
theorem passes_mem_slab_alloc_result (h : SlabList w g start stop xs) (h2 : 2 ≤ g.cap)
    (hfull : ¬ FirstFull xs) (r : ℕ × World) :
    Passes (mem_slab_alloc_result build start) (SlabAllocator.mem_slab_alloc start) w r := by
  obtain ⟨b, f, ys, hs⟩ := exists_serve h.nonempty hfull
  obtain ⟨w', hrun, -⟩ := h.serve_spec h2 hs
  obtain ⟨x, rest, s', rfl, rfl, ha, -⟩ := serve_some hs
  rw [h.head] at hrun ⊢
  refine Passes.of_eq hrun fun hr => ?_
  unfold mem_slab_alloc_result
  rw [bind_ok (passes_mem_slab_alloc (h.slabs x List.mem_cons_self) h2 ha _ hr),
    bind_ok (assert_ok (test_ok slot_ne_null)), pure_run]

/-- **`slab_pool_allocate`** on a pool in order passes its assertions, while the kernel has
memory to give if asked. -/
theorem passes_slab_pool_allocate (h : PoolRep w g size pool xs) (h2 : 2 ≤ g.cap)
    (hf : Grows xs → MmapFresh w os.mmap POOL_GROW_RATE) (r : (slab_pool × ℕ) × World) :
    Passes (slab_pool_allocate build os pool) (SlabAllocator.slab_pool_allocate os pool) w r := by
  unfold slab_pool_allocate SlabAllocator.slab_pool_allocate
  refine .assert (fun _ => test_ok (start_ne_null h.list)) ?_
  refine .bind (fun _ => passes_plain) fun full v hv => ?_
  rw [h.list.is_full_spec, Except.ok.injEq, Prod.mk.injEq] at hv
  obtain ⟨rfl, rfl⟩ := hv
  refine .ite (fun hroom => ?_) fun hfull => ?_
  · refine .bind (passes_mem_slab_alloc_result h.list h2 (by simpa using hroom)) fun _ _ _ => ?_
    exact passes_pure _
  have h1 : FirstFull xs := by simpa using hfull
  obtain ⟨start₁, stop₁, w₁, hrun₁, hl₁, hw₁⟩ := SlabList.rotate_spec
    { pool with data := { pool.data with allocation_count := pool.data.allocation_count + 1 } }
    h.list
  refine .bind (fun _ => passes_plain) fun pool₁ v hv => ?_
  rw [hrun₁, Except.ok.injEq, Prod.mk.injEq] at hv
  obtain ⟨rfl, rfl⟩ := hv
  refine .bind (fun _ => passes_plain) fun full v hv => ?_
  simp only [hl₁.is_full_spec, Except.ok.injEq, Prod.mk.injEq] at hv
  obtain ⟨rfl, rfl⟩ := hv
  refine .ite (fun hroom => ?_) fun hfull => ?_
  · refine .bind (passes_mem_slab_alloc_result hl₁ h2 (by simpa using hroom)) fun _ _ _ => ?_
    exact passes_pure _
  have h3 : FirstFull (xs.rotate 1) := by simpa using hfull
  obtain ⟨start₂, stop₂, w₂, hrun₂, hl₂, hw₂⟩ := hl₁.rotate_spec
    { pool with
      list_start := start₁
      list_end := stop₁
      data := { pool.data with allocation_count := pool.data.allocation_count + 1 } }
  refine .bind (fun _ => passes_plain) fun pool₂ v hv => ?_
  simp only [hrun₂, Except.ok.injEq, Prod.mk.injEq] at hv
  obtain ⟨rfl, rfl⟩ := hv
  -- both moves mapped nothing, so the new pages are still free
  have hf₂ := ((hf ⟨h1, h3⟩).congr hw₁.mapped hw₁.heap).congr hw₂.mapped hw₂.heap
  obtain ⟨w₃, hrun₃, hl₃, -⟩ := hl₂.grow_spec (s := 0) h.shape hf₂
  refine .bind (fun _ => passes_plain) fun new_first v hv => ?_
  simp only [h.params, h.allocation_size, grow_count_eq, hrun₃, Except.ok.injEq,
    Prod.mk.injEq] at hv
  obtain ⟨rfl, rfl⟩ := hv
  have hroom : ¬ FirstFull ((pages os.mmap POOL_GROW_RATE).map (PoolSlab.fresh g.cap)
      ++ (xs.rotate 1).rotate 1) := fun hfull =>
    PoolSlab.not_full_fresh g.cap_pos os.mmap (hfull _ rfl)
  exact .bind (passes_mem_slab_alloc_result hl₃ h2 hroom) fun _ _ _ => passes_pure _

/-- **`slab_pool_deallocate`** of a live object passes its assertions: the slab it drops is
empty. -/
theorem passes_slab_pool_deallocate {i : ℕ} (h : PoolRep w g size pool (l ++ x :: r))
    (hi : i ∈ x.slots.busy) (res : slab_pool × World) :
    Passes (slab_pool_deallocate build pool (g.slot x.base i))
      (SlabAllocator.slab_pool_deallocate pool (g.slot x.base i)) w res := by
  have hr := h.list.slabs x (by simp)
  have hptr := hr.page_of_slot (Slots.busy_lt hi)
  obtain ⟨w₁, hrun₁, hrep₁, hin₁, hn₁, hp₁⟩ := mem_slab_dealloc_spec hr hi g.size_pos
  rw [Nat.add_zero] at hrun₁
  obtain ⟨stop', w₂, hrun₂, hl₂, -⟩ :=
    (h.list.update hin₁ hrep₁ hn₁ hp₁).to_front_spec { pool with
      data := { pool.data with deallocation_count := pool.data.deallocation_count + 1 } }
  have hrep₂ := hl₂.slabs _ List.mem_cons_self
  unfold slab_pool_deallocate SlabAllocator.slab_pool_deallocate
  refine .assert (fun _ => test_ok slot_ne_null) ?_
  simp only [hptr]
  refine .bind (passes_mem_slab_dealloc (k := 0) hr hi g.size_pos) fun _ v hv => ?_
  rw [hrun₁, Except.ok.injEq, Prod.mk.injEq] at hv
  obtain ⟨-, rfl⟩ := hv
  refine .bind (fun _ => passes_plain) fun pool₁ v hv => ?_
  rw [hrun₂, Except.ok.injEq, Prod.mk.injEq] at hv
  obtain ⟨rfl, rfl⟩ := hv
  refine .bind (fun _ => passes_plain) fun ref_count v hv => ?_
  rw [slab_get_ok hrep₂.page, Except.ok.injEq, Prod.mk.injEq] at hv
  obtain ⟨rfl, rfl⟩ := hv
  refine .bind (fun _ => passes_plain) fun lonely v hv => ?_
  rw [is_lonely_spec hl₂, Except.ok.injEq, Prod.mk.injEq] at hv
  obtain ⟨rfl, rfl⟩ := hv
  refine .ite (fun hdrop => ?_) fun _ => passes_pure _
  -- the slab is the first of the list by now, and another one follows
  have hother := hdrop.2.1
  rw [Bool.not_eq_true', decide_eq_false_iff_not] at hother
  obtain ⟨y, rest, hlr⟩ := List.exists_cons_of_ne_nil hother
  rw [hlr] at hl₂
  have hlinks := hl₂.chain.links
  have hy := (hl₂.slabs y (by simp)).page
  have hne : x.base ≠ y.base := by
    have hnd := hl₂.nodup
    simp only [bases, List.map_cons, List.nodup_cons, List.mem_cons, not_or] at hnd
    exact hnd.1.1
  refine .bind (fun _ => passes_plain) fun prev v hv => ?_
  rw [slab_get_ok hrep₂.page, Except.ok.injEq, Prod.mk.injEq] at hv
  obtain ⟨rfl, rfl⟩ := hv
  refine .bind (fun _ => passes_plain) fun next v hv => ?_
  rw [slab_get_ok hrep₂.page, Except.ok.injEq, Prod.mk.injEq] at hv
  obtain ⟨rfl, rfl⟩ := hv
  refine .ite (fun _ => ?_) fun hprev => absurd hlinks.1 hprev
  refine .bind (fun _ => passes_plain) fun _ v hv => ?_
  have hnext : w₂.field x.base .next = y.base := hlinks.2.1
  rw [hnext, slab_set_ok hy, Except.ok.injEq, Prod.mk.injEq] at hv
  obtain ⟨-, rfl⟩ := hv
  refine .bind (fun _ => passes_pure _) fun pool₂ v hv => ?_
  rw [SlabAllocator.pure_run, Except.ok.injEq, Prod.mk.injEq] at hv
  obtain ⟨rfl, rfl⟩ := hv
  refine .bind (passes_mem_slab_free hrep₂.page (base_ne_null hrep₂) ?_ ?_) fun _ _ _ =>
    passes_pure _
  · rw [field_setField_slab hrep₂.page.2 hy.2, if_neg fun he => hne he.1, hrep₂.slab_magic]
  · rw [field_setField_slab hrep₂.page.2 hy.2, if_neg fun he => hne he.1]
    exact hdrop.1

end Pool

/-! ## The public functions -/

section Api

variable {build : Build} {w w₀ : World} {os : Os} {σ : ApiState} {vs : List PoolView}
  {b : Buffer} {n p size shift : ℕ} {pools : List slab_pool}

theorem passes_smalloc_loop (h : ∀ pool ∈ pools, ∀ r,
      Passes (slab_pool_allocate build os pool) (SlabAllocator.slab_pool_allocate os pool) w r)
    (r : (List slab_pool × ℕ) × World) :
    Passes (smalloc_loop build os n pools) (SlabAllocator.smalloc os pools n) w r := by
  induction pools generalizing r with
  | nil => exact .bind (fun _ => passes_plain) fun _ _ _ => passes_pure _
  | cons pool pools ih =>
      refine .ite (fun _ => ?_) fun _ => ?_
      · exact .bind (h pool List.mem_cons_self) fun _ _ _ => passes_pure _
      · exact .bind (ih fun u hu => h u (List.mem_cons_of_mem pool hu)) fun _ _ _ => passes_pure _

theorem passes_sfree_loop (h : ∀ pool ∈ pools, pool.allocation_size = size → ∀ r,
      Passes (slab_pool_deallocate build pool p) (SlabAllocator.slab_pool_deallocate pool p) w r)
    (r : List slab_pool × World) :
    Passes (sfree_loop build size p pools) (SlabAllocator.sfree_loop size p pools) w r := by
  induction pools generalizing r with
  | nil => exact passes_pure _
  | cons pool pools ih =>
      refine .ite (fun hs => ?_) fun _ => ?_
      · exact .bind (h pool List.mem_cons_self hs) fun _ _ _ => passes_pure _
      · exact .bind (ih fun u hu => h u (List.mem_cons_of_mem pool hu)) fun _ _ _ => passes_pure _

/-- **`smalloc`** of a byte or more passes its assertions. -/
theorem passes_smalloc (h : AllocInv w₀ σ vs) (hn : 1 ≤ n)
    (hm : MmapFresh σ.world os.mmap POOL_GROW_RATE) (r : (List slab_pool × ℕ) × World) :
    Passes (smalloc build os σ.pools n) (SlabAllocator.smalloc os σ.pools n) σ.world r := by
  refine .assert (fun _ => test_ok (by omega)) (passes_smalloc_loop (fun pool hp r => ?_) r)
  rw [h.pools] at hp
  obtain ⟨v, hv, rfl⟩ := List.mem_map.mp hp
  exact passes_slab_pool_allocate (h.views.reps v hv) (h.views.room v hv) (fun _ => hm) r

/-- **`sfree`** of a live buffer passes its assertions. -/
theorem passes_sfree (h : AllocInv w₀ σ vs) (hb : b ∈ σ.live) (hu : σ.Unfooled (.sfree os b))
    (r : List slab_pool × World) :
    Passes (sfree build os σ.pools b.ptr) (SlabAllocator.sfree os σ.pools b.ptr) σ.world r := by
  obtain ⟨hal, hacc⟩ := h.page hb
  refine .bind (fun _ => passes_plain) fun magic v hv => ?_
  rw [slab_get_accessible hal hacc, Except.ok.injEq, Prod.mk.injEq] at hv
  obtain ⟨rfl, rfl⟩ := hv
  refine .ite (fun _ => .bind (fun _ => passes_plain) fun _ _ _ => passes_pure _) fun hmagic => ?_
  refine .bind (fun _ => passes_plain) fun size v hv => ?_
  rw [slab_get_accessible hal hacc, Except.ok.injEq, Prod.mk.injEq] at hv
  obtain ⟨rfl, rfl⟩ := hv
  -- the page begins like a slab, so the buffer is an object, of the pool of that size
  rcases ho : b.origin with _ | c
  · exact absurd (hu ho) hmagic
  obtain ⟨-, v, hv, hc, hp⟩ := h.live.slab b hb c ho
  obtain ⟨m, x, k, i, hxs, hi, hptr, -⟩ := h.views.object hv hp
  rw [(h.header hb ho).2]
  refine passes_sfree_loop (fun pool hpool hsize r => ?_) r
  rw [h.pools] at hpool
  obtain ⟨u, hu, rfl⟩ := List.mem_map.mp hpool
  rw [h.allocation_size hu, ← hc] at hsize
  obtain rfl : u = v := List.inj_on_of_nodup_map h.views.distinct hu hv hsize
  have hrep := h.views.reps u hu
  rw [hxs] at hrep
  rw [hptr]
  exact passes_slab_pool_deallocate hrep hi r

/-- What a copy of payload that succeeds did. -/
theorem memcpy_effect {dst src : ℕ} {u : Unit} {w' : World}
    (h : memcpy shift dst src n w = .ok (u, w')) :
    w'.mem = copyBytes w.mem (dst + shift) (src + shift) n ∧ w'.mapped = w.mapped
      ∧ w'.heap = w.heap := by
  unfold memcpy at h
  split at h
  · cases h
  · cases h
  · cases h
    exact ⟨rfl, rfl, rfl⟩

/-- **`srealloc`** of a live buffer passes its assertions. -/
theorem passes_srealloc (h : AllocInv w₀ σ vs) (hg : σ.Granted (.srealloc os b n))
    (hu : σ.Unfooled (.srealloc os b n))
    (hsep : shift = 2 ^ 64 ∨ shift = 0 ∧ σ.Apart (.srealloc os b n))
    (r : (List slab_pool × ℕ) × World) :
    Passes (srealloc build os shift σ.pools b.ptr n)
      (SlabAllocator.srealloc os shift σ.pools b.ptr n) σ.world r := by
  obtain ⟨hb, hn, hm, hf⟩ := hg
  obtain ⟨hal, hacc⟩ := h.page hb
  have hbound := h.bounds hb
  refine .ite (fun hnull => absurd hnull (by unfold NULL; omega)) fun _ => ?_
  refine .bind (fun _ => passes_plain) fun magic v hv => ?_
  rw [slab_get_accessible hal hacc, Except.ok.injEq, Prod.mk.injEq] at hv
  obtain ⟨rfl, rfl⟩ := hv
  refine .ite (fun _ => .bind (fun _ => passes_plain) fun _ _ _ => passes_pure _) fun hmagic => ?_
  refine .bind (fun _ => passes_plain) fun size v hv => ?_
  rw [slab_get_accessible hal hacc, Except.ok.injEq, Prod.mk.injEq] at hv
  obtain ⟨rfl, rfl⟩ := hv
  rcases ho : b.origin with _ | c
  · exact absurd (hu ho) hmagic
  rw [(h.header hb ho).2]
  refine .ite (fun _ => passes_pure _) fun hc => ?_
  have hf' : MallocFresh σ.world σ.world.heap os.malloc n :=
    ⟨hf.low, hf.high, hf.mapped, fun d hd => hf.heap d (List.mem_filter.mpr
      ⟨hd, by simpa using h.ne_object hd (h.live.busy_of_slab hb ho)⟩)⟩
  obtain ⟨pools₁, q, w₁, vs₁, hsm, h₁, hus, -, -, hoff, -⟩ := h.smalloc hn hm hf'
  refine .bind (passes_smalloc h hn hm) fun res v hv => ?_
  rw [hsm, Except.ok.injEq, Prod.mk.injEq] at hv
  obtain ⟨rfl, rfl⟩ := hv
  refine .bind (fun _ => passes_plain) fun _ w₂ hcopy => ?_
  refine .bind (fun r => ?_) fun _ _ _ => passes_pure _
  -- the copy lands off the books, so the old buffer is an object still
  have h₂ : AllocInv w₀ ⟨w₂, pools₁, ⟨q, n, w₁.originOf σ.pools q n⟩ :: σ.live⟩ vs₁ := by
    obtain ⟨hmem, hm₂, hh₂⟩ := memcpy_effect hcopy
    refine h₁.congr hm₂ hh₂ fun a ha => ?_
    rw [hmem]
    refine copyBytes_apply_of_not_mem _ ?_
    by_contra hin
    refine ha ?_
    rcases hsep with rfl | ⟨rfl, hap⟩
    · exact h₁.views.off_high (by omega)
    · exact hoff (hap c ho (by omega)) a (by omega) (by omega)
  exact passes_sfree h₂ (List.mem_cons_of_mem _ hb) (fun hs => by rw [ho] at hs; cases hs) r

end Api

/-! ## Steps and runs -/

/-- The outcome of a step in a build with assertions. -/
def exec (build : Build) (shift : ℕ) (σ : ApiState) : ApiEvent → Except Stop ApiState
  | .smalloc os n => do
      let ((pools, p), w) ← smalloc build os σ.pools n σ.world
      return ⟨w, pools, ⟨p, n, w.originOf σ.pools p n⟩ :: σ.live⟩
  | .srealloc os b n => do
      let ((pools, q), w) ← srealloc build os shift σ.pools b.ptr n σ.world
      let origin := if q = b.ptr then b.origin else w.originOf σ.pools q n
      return ⟨w, pools, ⟨q, n, origin⟩ :: σ.live.erase b⟩
  | .sfree os b => do
      let (pools, w) ← sfree build os σ.pools b.ptr σ.world
      return ⟨w, pools, σ.live.erase b⟩
  | .write a x => return ⟨σ.world.poke shift a x, σ.pools, σ.live⟩

section Steps

variable {build : Build} {w₀ : World} {σ σ' : ApiState} {vs : List PoolView} {e : ApiEvent}
  {shift : ℕ}

/-- A step of the default build that meets the two conditions is a step of every build. -/
theorem exec_passes (h : AllocInv w₀ σ vs) (hg : σ.Granted e) (hu : σ.Unfooled e)
    (hsep : shift = 2 ^ 64 ∨ shift = 0 ∧ σ.Apart e) (hx : σ.exec shift e = .ok σ') :
    exec build shift σ e = .ok σ' := by
  cases e with
  | smalloc os n =>
      obtain ⟨r, h₁, h₂⟩ := except_bind_eq_ok hx
      rw [exec, passes_smalloc h hg.1 hg.2.1 r h₁]
      cases h₂
      rfl
  | srealloc os b n =>
      obtain ⟨r, h₁, h₂⟩ := except_bind_eq_ok hx
      rw [exec, passes_srealloc h hg hu hsep r h₁]
      cases h₂
      rfl
  | sfree os b =>
      obtain ⟨r, h₁, h₂⟩ := except_bind_eq_ok hx
      rw [exec, passes_sfree h hg hu r h₁]
      cases h₂
      rfl
  | write a x =>
      cases hx
      rfl

end Steps

end Checked

/-- A granted step and its outcome in a build with assertions. -/
def CheckedStep (build : Build) (shift : ℕ) (σ : ApiState) (e : ApiEvent) (σ' : ApiState) : Prop :=
  σ.Granted e ∧ Checked.exec build shift σ e = .ok σ'

/-- A run of a build with assertions, from its initialisation in `w₀` to `σ`. Nothing is
asserted while the pools are created. -/
def CheckedRun (build : Build) (shift : ℕ) (w₀ : World) (t : List (ApiState × ApiEvent))
    (σ : ApiState) : Prop :=
  ∃ σ₀ os, Initialized w₀ σ₀ os ∧ Run (CheckedStep build shift) σ₀ t σ

section CheckedRuns

variable {build : Build} {w₀ : World} {σ : ApiState} {t : List (ApiState × ApiEvent)} {shift : ℕ}

/-- **No assertion fails.** Every run whose steps meet the two conditions is a run of every
build, paranoid or not, and in the state it reaches every further such step succeeds in
every build. -/
theorem no_assertion_fails (build : Build) (hrun : ApiRun shift w₀ t σ)
    (hu : ∀ x ∈ t, x.1.Unfooled x.2)
    (hsep : shift = 2 ^ 64 ∨ shift = 0 ∧ ∀ x ∈ t, x.1.Apart x.2) :
    CheckedRun build shift w₀ t σ
      ∧ ∀ e, σ.Granted e → σ.Unfooled e → (shift = 2 ^ 64 ∨ shift = 0 ∧ σ.Apart e) →
          ∃ σ', Checked.exec build shift σ e = .ok σ' := by
  obtain ⟨vs, hinv⟩ := hrun.inv hu hsep
  obtain ⟨σ₀, os, hinit, hr⟩ := hrun
  refine ⟨⟨σ₀, os, hinit, ?_⟩, fun e hg hue hse => ?_⟩
  · obtain ⟨vs₀, hinv₀, -⟩ := hinit.inv
    refine hr.mono (P := fun σ => ∃ vs, AllocInv w₀ σ vs)
      (c := fun σ e => σ.Unfooled e ∧ (shift = 2 ^ 64 ∨ shift = 0 ∧ σ.Apart e)) ⟨vs₀, hinv₀⟩ ?_
      fun x hx => ⟨hu x hx, hsep.imp id fun hs => ⟨hs.1, hs.2 x hx⟩⟩
    rintro s e s' ⟨vs, hinv⟩ ⟨hu, hsep⟩ hstep
    obtain ⟨s'', vs', hexec, hinv'⟩ := hinv.step hstep.1 hu hsep
    rw [hstep.unique hexec]
    exact ⟨⟨vs', hinv'⟩, hstep.1, Checked.exec_passes hinv hstep.1 hu hsep hexec⟩
  · obtain ⟨σ', vs', hexec, -⟩ := hinv.step hg hue hse
    exact ⟨σ', Checked.exec_passes hinv hg hue hse hexec⟩

/-- The theorem after one request of 64 bytes, in the paranoid build. -/
theorem no_assertion_fails_64 :
    ∃ t σ, t ≠ [] ∧ CheckedRun ⟨true, true⟩ 0 World.empty t σ := by
  obtain ⟨σ₀, σ, b, hrun, -⟩ :=
    @exists_object [8, 16, 32] [128, 256] 64 rfl (by decide) 0
  obtain ⟨hchecked, -⟩ := no_assertion_fails ⟨true, true⟩ hrun
    (by intro x hx; rw [List.mem_singleton.mp hx]; trivial)
    (.inr ⟨rfl, by intro x hx; rw [List.mem_singleton.mp hx]; trivial⟩)
  exact ⟨_, σ, by simp, hchecked⟩

end CheckedRuns

end SlabAllocator
