/-
`slab_pool_create`, `slab_pool_allocate` and `slab_pool_deallocate` compute the
operations of `PoolModel`.

`SlabList` says that the links in memory are a given list of slabs, and
`PoolRep` adds the counters of the pool: the length of the list is what
`grow_count` and `shrink_count` say, and the objects in it are what the two
other counters say. Each function of `slab_pool.c` then has one theorem, which
gives the result, the next `PoolRep`, and what the call leaves alone. The bytes
a call may write are the headers and entry arrays of the slabs of the pool and
the pages of a new mapping (`PoolWrites`).
-/
import SlabAllocator.SlabCreate
import SlabAllocator.PoolModel
import Mathlib.Data.List.Perm.Subperm

set_option autoImplicit false

open DoublyLinked

namespace SlabAllocator

/-! ## A list of slabs in memory -/

/-- The pages of a list of slabs. -/
def bases {n : ℕ} (xs : List (PoolSlab n)) : List ℕ := xs.map PoolSlab.base

theorem mem_bases_perm {n : ℕ} {xs ys : List (PoolSlab n)} (h : xs.Perm ys) :
    ∀ b ∈ bases xs, b ∈ bases ys := fun _ hb => (h.map PoolSlab.base).mem_iff.mp hb

/-- The slabs `xs` are in memory and linked in order between `start` and `stop`. -/
structure SlabList (w : World) (g : Shape) (start stop : ℕ) (xs : List (PoolSlab g.cap)) :
    Prop where
  chain : Chain w (bases xs)
  slabs : ∀ x ∈ xs, Rep w g x.base x.slots
  nonempty : xs ≠ []
  start : start = (bases xs).headD NULL
  stop : stop = (bases xs).getLastD NULL

/-- A call writes the headers and entries of the slabs at `bs` and the pages `new`. -/
structure PoolWrites (g : Shape) (bs new : List ℕ) (w w' : World) : Prop where
  mem : ∀ a, (∀ b ∈ bs, a < b ∨ b + 64 + 5 * g.cap ≤ a) → pageOf (a % 2 ^ 64) ∉ new →
    w'.mem a = w.mem a
  heap : w'.heap = w.heap

namespace PoolWrites

variable {g : Shape} {bs bs' new new' : List ℕ} {w w₁ w₂ : World} {b : ℕ}

theorem trans (h : PoolWrites g bs new w w₁) (h' : PoolWrites g bs' new' w₁ w₂)
    (hb : ∀ b ∈ bs', b ∈ bs ∨ b ∈ new ∧ b % 4096 = 0 ∧ b + 4096 ≤ 2 ^ 64)
    (hn : ∀ b ∈ new', b ∈ new) : PoolWrites g bs new w w₂ := by
  refine ⟨fun a h1 h2 => ?_, h'.heap.trans h.heap⟩
  rw [h'.mem a (fun b hb' => ?_) (fun hm => h2 (hn _ hm)), h.mem a h1 h2]
  rcases hb b hb' with hb'' | ⟨hm, hal, h64⟩
  · exact h1 b hb''
  · -- a byte of a new page is excluded already
    by_contra hin
    have hcap := g.cap_le
    refine h2 ?_
    rw [Nat.mod_eq_of_lt (by omega), pageOf_eq hal (by omega) (by omega)]
    exact hm

theorem of_links (h : LinkWrites bs w w₁) : PoolWrites g bs new w w₁ :=
  ⟨fun a h1 _ => h.mem a fun b hb => by have := h1 b hb; omega, h.heap⟩

theorem of_within (h : Within b (b + 64 + 5 * g.cap) w w₁) (hb : b ∈ bs) :
    PoolWrites g bs new w w₁ := ⟨fun a h1 _ => h.mem a (h1 b hb), h.heap⟩

end PoolWrites

/-- An allocation from the slab at `s` writes its header and entries, the links of the slabs
at `bs`, and the pages `new`. -/
structure AllocWrites (g : Shape) (s : ℕ) (bs new : List ℕ) (w w' : World) : Prop where
  mem : ∀ a, (∀ b ∈ bs, a < b + 48 ∨ b + 64 ≤ a) → (a < s ∨ s + 64 + 5 * g.cap ≤ a) →
    pageOf (a % 2 ^ 64) ∉ new → w'.mem a = w.mem a
  heap : w'.heap = w.heap

namespace AllocWrites

variable {g : Shape} {s : ℕ} {bs bs' new : List ℕ} {w w₁ w₂ : World}

theorem mono (h : AllocWrites g s bs new w w₁) (hb : ∀ b ∈ bs, b ∈ bs') :
    AllocWrites g s bs' new w w₁ :=
  ⟨fun a h1 h2 h3 => h.mem a (fun b hb' => h1 b (hb b hb')) h2 h3, h.heap⟩

theorem trans (h : AllocWrites g s bs new w w₁) (h' : AllocWrites g s bs new w₁ w₂) :
    AllocWrites g s bs new w w₂ :=
  ⟨fun a h1 h2 h3 => (h'.mem a h1 h2 h3).trans (h.mem a h1 h2 h3), h'.heap.trans h.heap⟩

theorem of_links (h : LinkWrites bs w w₁) : AllocWrites g s bs new w w₁ :=
  ⟨fun a h1 _ _ => h.mem a h1, h.heap⟩

theorem of_within (h : Within s (s + 64 + 5 * g.cap) w w₁) : AllocWrites g s bs new w w₁ :=
  ⟨fun a _ h2 _ => h.mem a h2, h.heap⟩

/-- Seen from other pools, only the slabs of the pool and the new pages are written. -/
theorem pool (h : AllocWrites g s bs new w w₁)
    (hs : s ∈ bs ∨ s ∈ new ∧ s % 4096 = 0 ∧ s + 4096 ≤ 2 ^ 64) : PoolWrites g bs new w w₁ := by
  refine ⟨fun a h1 h2 => h.mem a (fun b hb => ?_) ?_ h2, h.heap⟩
  · have := h1 b hb
    omega
  · rcases hs with hs | ⟨hm, hal, h64⟩
    · exact h1 s hs
    · by_contra hin
      have hcap := g.cap_le
      refine h2 ?_
      rw [Nat.mod_eq_of_lt (by omega), pageOf_eq hal (by omega) (by omega)]
      exact hm

end AllocWrites

/-- What is written in one page leaves the slab of another alone. -/
theorem Rep.within {g g' : Shape} {w w' : World} {b c : ℕ} {s : Slots g.cap} (h : Rep w g c s)
    (hw : Within b (b + 64 + 5 * g'.cap) w w') (hb : b % 4096 = 0) (hne : c ≠ b) :
    Rep w' g c s := by
  have hc := h.page.2
  have h1 := g.cap_le
  have h2 := g'.cap_le
  exact h.congr ⟨by rw [hw.mapped]; exact h.page.1, hc⟩ fun a h3 h4 _ => hw.mem a (by omega)

/-- What is written in one page, its links apart, keeps a chain. -/
theorem Chain.within {g : Shape} {w w' : World} {b : ℕ} {bs : List ℕ} (h : Chain w bs)
    (hw : Within b (b + 64 + 5 * g.cap) w w') (hb : b % 4096 = 0)
    (hn : w'.field b .next = w.field b .next) (hp : w'.field b .prev = w.field b .prev) :
    Chain w' bs := by
  have hcap := g.cap_le
  have hsame : ∀ y ∈ bs, y ≠ b → ∀ f, w'.field y f = w.field y f := by
    intro y hy hne f
    have := h.aligned y hy
    exact field_congr fun a h1 h2 => hw.mem a (by omega)
  refine ⟨fun y hy => ⟨by rw [hw.mapped]; exact (h.page y hy).1, (h.page y hy).2⟩, h.low, h.high,
    h.nodup, h.links.congr (fun y hy => ?_) (fun y hy => ?_)⟩
  · by_cases hyb : y = b
    · rw [hyb, hn]
    · exact hsame y hy hyb _
  · by_cases hyb : y = b
    · rw [hyb, hp]
    · exact hsame y hy hyb _

namespace SlabList

variable {w w' : World} {g : Shape} {start stop : ℕ} {xs : List (PoolSlab g.cap)}

theorem head {x : PoolSlab g.cap} {rest : List (PoolSlab g.cap)}
    (h : SlabList w g start stop (x :: rest)) : start = x.base := h.start

theorem nodup (h : SlabList w g start stop xs) : (bases xs).Nodup := h.chain.nodup

/-- The list after one of its slabs changed its slots. -/
theorem update {l r : List (PoolSlab g.cap)} {x : PoolSlab g.cap} {s : Slots g.cap}
    (h : SlabList w g start stop (l ++ x :: r))
    (hw : Within x.base (x.base + 64 + 5 * g.cap) w w') (hr : Rep w' g x.base s)
    (hn : w'.field x.base .next = w.field x.base .next)
    (hp : w'.field x.base .prev = w.field x.base .prev) :
    SlabList w' g start stop (l ++ ⟨x.base, s⟩ :: r) := by
  have hb : bases (l ++ ⟨x.base, s⟩ :: r) = bases (l ++ x :: r) := by
    simp only [bases, List.map_append, List.map_cons]
  have hnd := h.nodup
  rw [bases, List.map_append, List.map_cons, List.nodup_append] at hnd
  refine ⟨by rw [hb]; exact h.chain.within hw hr.page.2 hn hp, fun y hy => ?_, by simp,
    by rw [hb, h.start], by rw [hb, h.stop]⟩
  rcases List.mem_append.mp hy with hy | hy
  · refine (h.slabs y (List.mem_append_left _ hy)).within hw hr.page.2 fun he => ?_
    exact hnd.2.2 y.base (List.mem_map_of_mem hy) x.base List.mem_cons_self he
  rcases List.mem_cons.mp hy with rfl | hy
  · exact hr
  · refine (h.slabs y ?_).within hw hr.page.2 fun he => ?_
    · exact List.mem_append_right _ (List.mem_cons_of_mem x hy)
    · exact (List.nodup_cons.mp hnd.2.1).1 (he ▸ List.mem_map_of_mem hy)

/-- What `is_full` reads of the first slab. -/
theorem is_full_spec (h : SlabList w g start stop xs) :
    is_full start w = .ok (decide (FirstFull xs), w) := by
  obtain ⟨x, rest, rfl⟩ := List.exists_cons_of_ne_nil h.nonempty
  have hr := h.slabs x List.mem_cons_self
  have hfull : FirstFull (x :: rest)
      ↔ w.field x.base .ref_count = w.field x.base .max_refs := by
    rw [hr.full_iff]
    simp [FirstFull, PoolSlab.Full]
  unfold is_full
  rw [h.head, slab_get_bind hr.page, slab_get_bind hr.page, pure_run]
  simp only [hfull]

/-- Serving from the first slab. -/
theorem serve_spec (h : SlabList w g start stop xs) (h2 : 2 ≤ g.cap) {b f : ℕ}
    {ys : List (PoolSlab g.cap)} (hs : serve xs = some (b, f, ys)) :
    ∃ w', mem_slab_alloc start w = .ok (g.slot b f, w') ∧ SlabList w' g start stop ys
      ∧ Within b (b + 64 + 5 * g.cap) w w' := by
  obtain ⟨x, rest, s', rfl, rfl, ha, rfl⟩ := serve_some hs
  obtain ⟨w', hrun, hrep, hw, hn, hp⟩ :=
    mem_slab_alloc_spec (h.slabs x List.mem_cons_self) h2 ha
  exact ⟨w', by rw [h.head]; exact hrun, h.update (l := []) hw hrep hn hp, hw⟩

/-- Moving the first slab behind the others. -/
theorem rotate_spec (pool : slab_pool) (h : SlabList w g pool.list_start pool.list_end xs) :
    ∃ start' stop' w', move_slab_to_end_of_the_list pool pool.list_start w
        = .ok ({ pool with list_start := start', list_end := stop' }, w')
      ∧ SlabList w' g start' stop' (xs.rotate 1) ∧ LinkWrites (bases xs) w w' := by
  obtain ⟨x, rest, rfl⟩ := List.exists_cons_of_ne_nil h.nonempty
  have hb : bases (x :: rest) = [] ++ x.base :: bases rest := rfl
  have hrot : bases ((x :: rest).rotate 1) = [] ++ bases rest ++ [x.base] := by
    rw [List.rotate_cons_succ, List.rotate_zero, bases, List.map_append]
    rfl
  obtain ⟨w', hrun, hch, hw⟩ := move_slab_to_end_spec pool (hb ▸ h.chain)
    (by rw [h.start, hb]) (by rw [h.stop, hb])
  refine ⟨_, _, w', by rw [h.head]; exact hrun, ⟨?_, fun y hy => ?_, ?_, ?_, ?_⟩, hw⟩
  · rw [hrot]
    exact hch
  · exact hw.rep (h.slabs y ((List.rotate_perm _ 1).mem_iff.mp hy)) (hb ▸ h.chain.aligned)
  · exact fun he => h.nonempty (List.rotate_eq_nil_iff.mp he)
  · rw [hrot]
  · rw [hrot, List.getLastD_concat]

/-- Bringing a slab to the front. -/
theorem to_front_spec (pool : slab_pool) {l r : List (PoolSlab g.cap)} {x : PoolSlab g.cap}
    (h : SlabList w g pool.list_start pool.list_end (l ++ x :: r)) :
    ∃ stop' w', move_slab_to_start_of_the_list pool x.base w
        = .ok ({ pool with list_start := x.base, list_end := stop' }, w')
      ∧ SlabList w' g x.base stop' (x :: (l ++ r))
      ∧ PoolWrites g (bases (l ++ x :: r)) [] w w' ∧ w'.mapped = w.mapped
      ∧ w'.calls = w.calls := by
  have hb : bases (l ++ x :: r) = bases l ++ x.base :: bases r := by
    rw [bases, List.map_append]
    rfl
  have hb' : bases (x :: (l ++ r)) = x.base :: (bases l ++ bases r) := by
    rw [bases, List.map_cons, List.map_append]
    rfl
  obtain ⟨w', hrun, hch, hw⟩ := move_slab_to_start_spec pool (hb ▸ h.chain)
    (by rw [h.start, hb]) (by rw [h.stop, hb])
  refine ⟨_, w', hrun, ⟨by rw [hb']; exact hch, fun y hy => ?_, by simp, by rw [hb']; rfl,
    by rw [hb']⟩, .of_links (hb ▸ hw), hw.mapped, hw.calls⟩
  refine hw.rep (h.slabs y ?_) (hb ▸ h.chain.aligned)
  exact List.perm_middle.symm.mem_iff.mp hy

/-- Putting freshly created slabs before the list. -/
theorem grow_spec {os : Os} {size s : ℕ} (h : SlabList w g start stop xs)
    (hg : ∃ hn, Shape.of (int_of_size_t size) hn = g) (hf : MmapFresh w os.mmap POOL_GROW_RATE) :
    ∃ w', mem_slab_create_several os (int_of_size_t size) 0 POOL_GROW_RATE start w
        = .ok (os.mmap, w')
      ∧ SlabList w' g os.mmap stop ((pages os.mmap POOL_GROW_RATE).map (PoolSlab.fresh g.cap) ++ xs)
      ∧ AllocWrites g s (bases xs) (pages os.mmap POOL_GROW_RATE) w w'
      ∧ w'.mapped = w.mapped ++ pages os.mmap POOL_GROW_RATE
      ∧ w'.calls = .mmap (SLAB_PAGE_SIZE * POOL_GROW_RATE) os.mmap :: w.calls := by
  obtain ⟨hn, rfl⟩ := hg
  have hal := hf.aligned
  have hold := hf.mapped
  unfold SLAB_PAGE_SIZE at hal hold
  obtain ⟨w', hrun, hc⟩ := mem_slab_create_several_spec 0 hn (by decide) hf h.chain
  have hb : bases ((pages os.mmap POOL_GROW_RATE).map (PoolSlab.fresh (Shape.of _ hn).cap) ++ xs)
      = pages os.mmap POOL_GROW_RATE ++ bases xs := by
    rw [bases, List.map_append, List.map_map]
    congr 1
  have hne : bases xs ≠ [] := fun he => h.nonempty (List.map_eq_nil_iff.mp he)
  refine ⟨w', by rw [h.start]; exact hrun, ⟨?_, fun x hx => ?_, ?_, ?_, ?_⟩,
    ⟨fun a h1 _ h3 => ?_, hc.heap⟩, hc.mapped, hc.calls⟩
  · rw [hb]
    exact hc.chain
  · rcases List.mem_append.mp hx with hx | hx
    · obtain ⟨b, hbm, rfl⟩ := List.mem_map.mp hx
      exact hc.slabs b hbm
    · -- an old slab keeps everything but, perhaps, its links
      have hr := h.slabs x hx
      have hxal := hr.page.2
      have hx64 := hr.high
      have hcap := (Shape.of (int_of_size_t size) hn).cap_le
      have hout := hold x.base hr.page.1
      refine hr.congr ⟨?_, hxal⟩ fun a h1 h2 h3 => hc.mem a (by omega) fun b hbm => ?_
      · rw [hc.mapped]
        exact List.mem_append_left _ hr.page.1
      · have hba := h.chain.aligned b (List.mem_of_mem_head? hbm)
        omega
  · simp [h.nonempty]
  · rw [hb]
    exact (pages_headD (n := POOL_GROW_RATE) (by decide)).symm
  · obtain ⟨t, b, he⟩ := (List.eq_nil_or_concat' _).resolve_left hne
    rw [hb, h.stop, he, ← List.append_assoc, List.getLastD_concat, List.getLastD_concat]
  · refine hc.mem a ?_ fun b hbm => ?_
    · by_contra hin
      exact h3 ((pageOf_mem_pages hal).mpr (by omega))
    · have := h1 b (List.mem_of_mem_head? hbm)
      omega

end SlabList

/-! ## Pools -/

/-- The parameters `slab_pool_create` sets. -/
def default_params : heuristic_params where
  minimum_empty_slabs := POOL_GROW_RATE + POOL_MAX_GROW_RATE
  default_grow_rate := POOL_GROW_RATE
  max_grow_rate := POOL_GROW_RATE + POOL_MAX_GROW_RATE

/-- The pool `pool` of allocation size `size` has the slabs `xs`, and its counters agree
with them. -/
structure PoolRep (w : World) (g : Shape) (size : ℕ) (pool : slab_pool)
    (xs : List (PoolSlab g.cap)) : Prop where
  list : SlabList w g pool.list_start pool.list_end xs
  shape : ∃ hn, Shape.of (int_of_size_t size) hn = g
  allocation_size : pool.allocation_size = size
  params : pool.params = default_params
  length : xs.length + pool.data.shrink_count = pool.data.grow_count
  objects : objects xs + pool.data.deallocation_count = pool.data.allocation_count

/-- A chain is far shorter than the address space. -/
theorem Chain.length_lt {w : World} {bs : List ℕ} (h : Chain w bs) : bs.length < 2 ^ 64 := by
  -- slabs are different pages, and there are 2 ^ 52 of those
  have hinj : (bs.map (· / 4096)).Nodup := by
    refine List.Nodup.map_on (fun x hx y hy he => ?_) h.nodup
    have h1 := h.aligned x hx
    have h2 := h.aligned y hy
    omega
  have hsub : bs.map (· / 4096) ⊆ List.range (2 ^ 52) := by
    intro y hy
    obtain ⟨x, hx, rfl⟩ := List.mem_map.mp hy
    have := h.lt hx
    exact List.mem_range.mpr (by omega)
  have hle := (hinj.subperm hsub).length_le
  rw [List.length_map, List.length_range] at hle
  exact lt_of_le_of_lt hle (by norm_num)

theorem objects_serve {n : ℕ} {xs ys : List (PoolSlab n)} {b f : ℕ}
    (h : serve xs = some (b, f, ys)) : objects ys = objects xs + 1 := by
  obtain ⟨x, rest, s', rfl, -, ha, rfl⟩ := serve_some h
  have hb := (Slots.alloc_some ha).2
  simp only [objects, List.map_cons, List.sum_cons, hb, List.length_append, List.length_singleton]
  omega

theorem objects_perm {n : ℕ} {xs ys : List (PoolSlab n)} (h : xs.Perm ys) :
    objects xs = objects ys := (h.map _).sum_nat

theorem objects_fresh {n a k : ℕ} {xs : List (PoolSlab n)} :
    objects ((pages a k).map (PoolSlab.fresh n) ++ xs) = objects xs := by
  have hz : ((pages a k).map (PoolSlab.fresh n)).map (fun x => x.slots.busy.length)
      = List.replicate k 0 := by
    rw [List.map_map]
    refine List.eq_replicate_iff.mpr ⟨by rw [List.length_map, length_pages], fun y hy => ?_⟩
    obtain ⟨b, -, rfl⟩ := List.mem_map.mp hy
    rfl
  rw [objects, List.map_append, List.sum_append, hz, List.sum_replicate_nat, Nat.mul_zero,
    Nat.zero_add]
  rfl

/-- What a growth asks the kernel for. -/
theorem grow_count_eq {data : heuristic_data} :
    size_t_of_int (heuristic_decision_grow_count default_params data).toInt = POOL_GROW_RATE := by
  unfold heuristic_decision_grow_count default_params
  decide

/-- **`slab_pool_allocate`** without growth: the request is served from the first slab of
the rearranged list, and the kernel is not called. -/
theorem slab_pool_allocate_serve {w : World} {g : Shape} {size b f : ℕ} {pool : slab_pool}
    {os : Os} {xs ys : List (PoolSlab g.cap)} (h : PoolRep w g size pool xs) (h2 : 2 ≤ g.cap)
    (hg : ¬ Grows xs) (ha : allocate os.mmap xs = some (b, f, ys)) :
    ∃ pool' w', slab_pool_allocate os pool w = .ok ((pool', g.slot b f), w')
      ∧ PoolRep w' g size pool' ys ∧ AllocWrites g b (bases xs) [] w w'
      ∧ w'.mapped = w.mapped ∧ w'.calls = w.calls := by
  have hperm := arrange_of_not_grows os.mmap hg
  have hobj := objects_serve ha
  have hlen := length_serve ha
  rw [objects_perm hperm] at hobj
  rw [hperm.length_eq] at hlen
  unfold allocate arrange at ha
  unfold slab_pool_allocate
  rw [bind_ok h.list.is_full_spec]
  -- the first slab has no room, or it has: two of the three paths of the source
  by_cases h1 : FirstFull xs
  · rw [if_pos h1, if_neg fun hr => hg ⟨h1, hr⟩] at ha
    obtain ⟨start', stop', w₁, hrun₁, hl₁, hw₁⟩ := SlabList.rotate_spec
      { pool with data := { pool.data with allocation_count := pool.data.allocation_count + 1 } }
      h.list
    obtain ⟨w₂, hrun₂, hl₂, hw₂⟩ := hl₁.serve_spec h2 ha
    refine ⟨{ pool with
        list_start := start'
        list_end := stop'
        data := { pool.data with allocation_count := pool.data.allocation_count + 1 } },
      w₂, ?_, ⟨hl₂, h.shape, h.allocation_size, h.params, ?_, ?_⟩,
      (AllocWrites.of_links hw₁).trans (.of_within hw₂), hw₂.mapped.trans hw₁.mapped,
      hw₂.calls.trans hw₁.calls⟩
    · simp only [h1, decide_true, Bool.not_true, Bool.false_eq_true, if_false, ite_run]
      rw [bind_ok hrun₁]
      have hr : ¬ FirstFull (xs.rotate 1) := fun hr => hg ⟨h1, hr⟩
      simp only [bind_ok hl₁.is_full_spec, hr, decide_false, Bool.not_false, if_true, ite_run]
      rw [bind_ok hrun₂, pure_run]
    · rw [hlen]
      exact h.length
    · rw [hobj]
      have := h.objects
      simp only
      omega
  · rw [if_neg h1] at ha
    obtain ⟨w₂, hrun₂, hl₂, hw₂⟩ := h.list.serve_spec h2 ha
    refine ⟨{ pool with
        data := { pool.data with allocation_count := pool.data.allocation_count + 1 } },
      w₂, ?_, ⟨hl₂, h.shape, h.allocation_size, h.params, ?_, ?_⟩, .of_within hw₂, hw₂.mapped,
      hw₂.calls⟩
    · simp only [h1, decide_false, Bool.not_false, if_true, ite_run]
      rw [bind_ok hrun₂, pure_run]
    · rw [hlen]
      exact h.length
    · rw [hobj]
      have := h.objects
      simp only
      omega

/-- What the kernel promises depends on the mappings and the chunks only. -/
theorem MmapFresh.congr {w w' : World} {a n : ℕ} (h : MmapFresh w a n)
    (hm : w'.mapped = w.mapped) (hh : w'.heap = w.heap) : MmapFresh w' a n :=
  ⟨h.aligned, h.low, h.high, by rw [hm]; exact h.mapped, by rw [hh]; exact h.heap⟩

/-- A pool about to grow, at the point where it calls `mem_slab_create_several`: the two
first slabs went behind the others. -/
theorem slab_pool_allocate_rotated {w : World} {g : Shape} {size : ℕ} {pool : slab_pool} (os : Os)
    {xs : List (PoolSlab g.cap)} (h : PoolRep w g size pool xs) (hg : Grows xs) :
    ∃ start' stop' w', slab_pool_allocate os pool w = (do
        let new_first ← mem_slab_create_several os (int_of_size_t size) 0 POOL_GROW_RATE start'
        let pool' : slab_pool := { pool with
          list_start := new_first
          list_end := stop'
          data := { pool.data with
            allocation_count := pool.data.allocation_count + 1
            grow_count := pool.data.grow_count + POOL_GROW_RATE } }
        let result ← mem_slab_alloc new_first
        return (pool', result)) w'
      ∧ SlabList w' g start' stop' (xs.rotate 2) ∧ LinkWrites (bases xs) w w' := by
  obtain ⟨start₁, stop₁, w₁, hrun₁, hl₁, hw₁⟩ := SlabList.rotate_spec
    { pool with data := { pool.data with allocation_count := pool.data.allocation_count + 1 } }
    h.list
  -- the second move takes the slab that the first one brought to the front
  obtain ⟨start₂, stop₂, w₂, hrun₂, hl₂, hw₂⟩ := hl₁.rotate_spec
    { pool with
      list_start := start₁
      list_end := stop₁
      data := { pool.data with allocation_count := pool.data.allocation_count + 1 } }
  rw [List.rotate_rotate] at hl₂
  refine ⟨start₂, stop₂, w₂, ?_, hl₂,
    hw₁.trans (hw₂.mono (mem_bases_perm (List.rotate_perm xs 1)))⟩
  · unfold slab_pool_allocate
    rw [bind_ok h.list.is_full_spec]
    simp only [hg.1, decide_true, Bool.not_true, Bool.false_eq_true, if_false, ite_run]
    rw [bind_ok hrun₁]
    simp only [bind_ok hl₁.is_full_spec, hg.2, decide_true, Bool.not_true, Bool.false_eq_true,
      if_false, ite_run]
    rw [bind_ok hrun₂]
    simp only [h.params, h.allocation_size, grow_count_eq]

/-- **`slab_pool_allocate`** with growth: ten new slabs go in front, and the request is
served from the first of them. -/
theorem slab_pool_allocate_grow {w : World} {g : Shape} {size b f : ℕ} {pool : slab_pool}
    {os : Os} {xs ys : List (PoolSlab g.cap)} (h : PoolRep w g size pool xs) (h2 : 2 ≤ g.cap)
    (hg : Grows xs) (hf : MmapFresh w os.mmap POOL_GROW_RATE)
    (ha : allocate os.mmap xs = some (b, f, ys)) :
    ∃ pool' w', slab_pool_allocate os pool w = .ok ((pool', g.slot b f), w')
      ∧ PoolRep w' g size pool' ys
      ∧ AllocWrites g b (bases xs) (pages os.mmap POOL_GROW_RATE) w w'
      ∧ w'.mapped = w.mapped ++ pages os.mmap POOL_GROW_RATE
      ∧ w'.calls = .mmap (SLAB_PAGE_SIZE * POOL_GROW_RATE) os.mmap :: w.calls := by
  obtain ⟨start', stop', w₁, hrun, hl₁, hw₁⟩ := slab_pool_allocate_rotated os h hg
  have hf₁ := hf.congr hw₁.mapped hw₁.heap
  -- the moves mapped nothing, so the new pages are still free
  obtain ⟨w₂, hrun₂, hl₂, hw₂, hm₂, hc₂⟩ := hl₁.grow_spec (s := b) h.shape hf₁
  have ha' := ha
  rw [allocate, arrange_of_grows os.mmap hg] at ha'
  obtain ⟨w₃, hrun₃, hl₃, hw₃⟩ := hl₂.serve_spec h2 ha'
  refine ⟨{ pool with
      list_start := os.mmap
      list_end := stop'
      data := { pool.data with
        allocation_count := pool.data.allocation_count + 1
        grow_count := pool.data.grow_count + POOL_GROW_RATE } },
    w₃, ?_, ⟨hl₃, h.shape, h.allocation_size, h.params, ?_, ?_⟩,
    ((AllocWrites.of_links hw₁).trans (hw₂.mono (mem_bases_perm (List.rotate_perm xs 2)))).trans
      (.of_within hw₃), ?_, ?_⟩
  · rw [hrun, bind_ok hrun₂]
    simp only [bind_ok hrun₃, pure_run]
  · rw [length_serve ha', List.length_append, List.length_map, length_pages, List.length_rotate]
    have := h.length
    simp only
    omega
  · rw [objects_serve ha', objects_fresh, objects_perm (List.rotate_perm xs 2)]
    have := h.objects
    simp only
    omega
  · rw [hw₃.mapped, hm₂, hw₁.mapped]
  · rw [hw₃.calls, hc₂, hw₁.calls]

theorem bases_fresh {n a k : ℕ} : bases ((pages a k).map (PoolSlab.fresh n)) = pages a k := by
  rw [bases, List.map_map]
  exact List.map_id _

/-- An allocation can be served whatever the list is. -/
theorem exists_allocate {g : Shape} {xs : List (PoolSlab g.cap)} (a : ℕ) (hne : xs ≠ []) :
    ∃ b f ys, allocate a xs = some (b, f, ys) := by
  obtain ⟨x, rest, he, hf⟩ := not_firstFull_arrange a g.cap_pos hne
  obtain ⟨f, F, hfree⟩ := List.exists_cons_of_ne_nil hf
  obtain ⟨s', ha, -⟩ := Slots.alloc_cons hfree
  exact ⟨x.base, f, ⟨x.base, s'⟩ :: rest, by rw [allocate, he, serve, ha]; rfl⟩

/-- The pages after an allocation. -/
theorem bases_allocate {g : Shape} {a b f : ℕ} {xs ys : List (PoolSlab g.cap)}
    (h : allocate a xs = some (b, f, ys)) : (bases ys).Perm (bases xs ++ newPages a xs) := by
  unfold newPages
  obtain ⟨x, rest, s', he, rfl, -, rfl⟩ := serve_some h
  have hb : bases (⟨x.base, s'⟩ :: rest) = bases (arrange a xs) := by
    rw [he]
    rfl
  rw [hb]
  by_cases hg : Grows xs
  · rw [if_pos hg, arrange_of_grows a hg, bases, List.map_append, ← bases, bases_fresh]
    exact List.perm_append_comm.trans
      (((List.rotate_perm xs 2).map PoolSlab.base).append_right _)
  · rw [if_neg hg, List.append_nil]
    exact (arrange_of_not_grows a hg).map PoolSlab.base

/-- **`slab_pool_allocate`** while the kernel has memory to give if asked: it answers what
the model answers, and calls the kernel exactly when the model grows. -/
theorem slab_pool_allocate_spec {w : World} {g : Shape} {size : ℕ} {pool : slab_pool} {os : Os}
    {xs : List (PoolSlab g.cap)} (h : PoolRep w g size pool xs) (h2 : 2 ≤ g.cap)
    (hf : Grows xs → MmapFresh w os.mmap POOL_GROW_RATE) :
    ∃ b f ys pool' w', slab_pool_allocate os pool w = .ok ((pool', g.slot b f), w')
      ∧ allocate os.mmap xs = some (b, f, ys) ∧ PoolRep w' g size pool' ys
      ∧ AllocWrites g b (bases xs) (newPages os.mmap xs) w w'
      ∧ w'.mapped = w.mapped ++ newPages os.mmap xs
      ∧ w'.calls = if Grows xs
          then .mmap (SLAB_PAGE_SIZE * POOL_GROW_RATE) os.mmap :: w.calls else w.calls := by
  obtain ⟨b, f, ys, ha⟩ := exists_allocate os.mmap h.list.nonempty
  unfold newPages
  by_cases hg : Grows xs
  · obtain ⟨pool', w', hrun, hrep, hw, hm, hc⟩ := slab_pool_allocate_grow h h2 hg (hf hg) ha
    simp only [if_pos hg]
    exact ⟨b, f, ys, pool', w', hrun, ha, hrep, hw, hm, hc⟩
  · obtain ⟨pool', w', hrun, hrep, hw, hm, hc⟩ := slab_pool_allocate_serve h h2 hg ha
    simp only [if_neg hg]
    exact ⟨b, f, ys, pool', w', hrun, ha, hrep, hw, by rw [hm, List.append_nil], hc⟩

/-- The slab that serves a request was in the list or is new. -/
theorem base_of_allocate {g : Shape} {a b f : ℕ} {xs ys : List (PoolSlab g.cap)}
    (h : allocate a xs = some (b, f, ys)) : b ∈ bases xs ∨ b ∈ newPages a xs := by
  obtain ⟨x, hx, rfl, -⟩ := mem_allocate h
  exact List.mem_append.mp ((bases_allocate h).mem_iff.mp (List.mem_map_of_mem hx))

theorem newPages_subset {n a : ℕ} {xs : List (PoolSlab n)} :
    ∀ b ∈ newPages a xs, b ∈ pages a POOL_GROW_RATE := by
  intro b hb
  unfold newPages at hb
  split at hb
  · exact hb
  · simp at hb

/-- What an allocation writes, seen from other pools. -/
theorem AllocWrites.of_allocate {w w' : World} {g : Shape} {os : Os} {b f : ℕ}
    {xs ys : List (PoolSlab g.cap)} (h : AllocWrites g b (bases xs) (newPages os.mmap xs) w w')
    (ha : allocate os.mmap xs = some (b, f, ys)) (hf : MmapFresh w os.mmap POOL_GROW_RATE) :
    PoolWrites g (bases xs) (newPages os.mmap xs) w w' := by
  refine h.pool ((base_of_allocate ha).imp_right fun hb => ⟨hb, ?_⟩)
  obtain ⟨i, hi, he⟩ := mem_pages.mp (newPages_subset b hb)
  have hal := hf.aligned
  have hhi := hf.high
  unfold SLAB_PAGE_SIZE at hal hhi
  omega

/-! ## Releases -/

/-- The list without its first slab, whose page was unmapped. -/
theorem SlabList.drop_head {w w' : World} {g : Shape} {start stop : ℕ} {x y : PoolSlab g.cap}
    {rest : List (PoolSlab g.cap)} (h : SlabList w g start stop (x :: y :: rest))
    (hmem : w'.mem = (w.setField y.base .prev NULL).mem)
    (hmap : w'.mapped = w.mapped.erase x.base) : SlabList w' g y.base stop (y :: rest) := by
  have hch : Chain w' (bases (y :: rest)) := h.chain.drop_first hmem hmap
  refine ⟨hch, fun z hz => ?_, by simp, rfl, ?_⟩
  · have hr := h.slabs z (List.mem_cons_of_mem x hz)
    have hy := (h.slabs y (by simp)).page.2
    have hzal := hr.page.2
    have hcap := g.cap_le
    refine hr.congr (hch.page z.base (List.mem_map_of_mem hz)) fun a h1 h2 h3 => ?_
    rw [hmem]
    exact setField_mem (by simp only [SlabField.offset, SlabField.width]; omega)
  · rw [h.stop, bases, List.map_cons, List.map_cons, List.getLastD_cons, bases, List.map_cons,
      List.getLastD_cons, List.getLastD_cons]

theorem objects_dealloc {n i : ℕ} {l r : List (PoolSlab n)} {x : PoolSlab n}
    (hi : i ∈ x.slots.busy) :
    objects (⟨x.base, x.slots.dealloc i⟩ :: (l ++ r)) + 1 = objects (l ++ x :: r) := by
  have hlen := (Slots.dealloc_perm hi).length_eq
  rw [objects_perm List.perm_middle]
  simp only [objects, List.map_cons, List.sum_cons, List.length_cons] at hlen ⊢
  omega

/-- What the heuristic answers while the counters agree with the list. -/
theorem does_free_slab_eq {w : World} {g : Shape} {size : ℕ} {pool : slab_pool}
    {xs : List (PoolSlab g.cap)} (h : PoolRep w g size pool xs) {data : heuristic_data}
    (hg : data.grow_count = pool.data.grow_count)
    (hs : data.shrink_count = pool.data.shrink_count) :
    heuristic_decision_does_free_slab default_params data
      = decide (xs.length ≤ minimum_slabs) := by
  have hlen := h.length
  have hlt := h.list.chain.length_lt
  rw [bases, List.length_map] at hlt
  have hsub : size_t_sub data.grow_count data.shrink_count = xs.length := by
    rw [hg, hs, size_t_sub_eq (by omega) (by omega)]
    omega
  unfold heuristic_decision_does_free_slab
  rw [hsub]
  rfl

/-- The first slab of a list is lonely when it is the only one. -/
theorem is_lonely_spec {w : World} {g : Shape} {start stop : ℕ} {x : PoolSlab g.cap}
    {rest : List (PoolSlab g.cap)} (h : SlabList w g start stop (x :: rest)) :
    is_lonely x.base w = .ok (decide (rest = []), w) := by
  have hp := (h.slabs x List.mem_cons_self).page
  obtain ⟨hprev, hnext, -⟩ := links_cons.mp h.chain.links
  unfold is_lonely
  rw [slab_get_bind hp, hnext]
  rcases rest with _ | ⟨y, rest⟩
  · change (if (NULL : ℕ) = NULL then _ else _ : M Bool) w = _
    rw [if_pos rfl, slab_get_bind hp, hprev]
    rfl
  · have hy : y.base ≠ NULL := h.chain.ne_null (by simp [bases])
    change (if y.base = NULL then _ else _ : M Bool) w = _
    rw [if_neg hy]
    rfl

/-- A release up to the point where it decides whether to drop the slab, which is the
first one by now. -/
theorem slab_pool_deallocate_moved {w : World} {g : Shape} {size i : ℕ} {pool : slab_pool}
    {l r : List (PoolSlab g.cap)} {x : PoolSlab g.cap} (h : PoolRep w g size pool (l ++ x :: r))
    (hi : i ∈ x.slots.busy) :
    ∃ stop' w', slab_pool_deallocate pool (g.slot x.base i) w = (do
        let pool' : slab_pool := { pool with
          list_start := x.base
          list_end := stop'
          data := { pool.data with
            deallocation_count := pool.data.deallocation_count + 1 } }
        if Drops x (l ++ r) i then
          let prev ← slab_get x.base .prev
          let next ← slab_get x.base .next
          let pool' ← if prev = NULL then do
              slab_set next .prev NULL
              pure { pool' with list_start := next }
            else do
              slab_set prev .next next
              slab_set next .prev prev
              pure pool'
          mem_slab_free x.base
          return { pool' with
            data := { pool'.data with shrink_count := pool'.data.shrink_count + 1 } }
        else
          return pool') w'
      ∧ SlabList w' g x.base stop' (⟨x.base, x.slots.dealloc i⟩ :: (l ++ r))
      ∧ PoolWrites g (bases (l ++ x :: r)) [] w w' ∧ w'.mapped = w.mapped
      ∧ w'.calls = w.calls := by
  have hr := h.list.slabs x (by simp)
  have hin := Slots.busy_lt hi
  have hptr := hr.page_of_slot hin
  obtain ⟨w₁, hrun₁, hrep₁, hin₁, hn₁, hp₁⟩ := mem_slab_dealloc_spec hr hi g.size_pos
  rw [Nat.add_zero] at hrun₁
  obtain ⟨stop', w₂, hrun₂, hl₂, hw₂, hm₂, hc₂⟩ :=
    (h.list.update hin₁ hrep₁ hn₁ hp₁).to_front_spec { pool with
      data := { pool.data with deallocation_count := pool.data.deallocation_count + 1 } }
  have hb : bases (l ++ ⟨x.base, x.slots.dealloc i⟩ :: r) = bases (l ++ x :: r) := by
    simp only [bases, List.map_append, List.map_cons]
  rw [hb] at hw₂
  -- from here on the slab of the pointer is the first one
  have hrep₂ := hl₂.slabs _ List.mem_cons_self
  have hlen : (l ++ x :: r).length = (l ++ r).length + 1 := by
    simp only [List.length_append, List.length_cons]
    omega
  -- the test in front of the release is the condition of the model
  have htest : ((x.slots.dealloc i).busy.length = 0 ∧ (!decide (l ++ r = [])) = true
      ∧ decide ((l ++ x :: r).length ≤ minimum_slabs) = true) ↔ Drops x (l ++ r) i := by
    rw [List.length_eq_zero_iff, hlen, Bool.not_eq_true', decide_eq_false_iff_not,
      decide_eq_true_iff]
    rfl
  refine ⟨stop', w₂, ?_, hl₂,
    (PoolWrites.of_within hin₁ (by simp [bases])).trans hw₂ (fun b hb => .inl hb) fun b hb => hb,
    hm₂.trans hin₁.mapped, hc₂.trans hin₁.calls⟩
  unfold slab_pool_deallocate
  simp only [hptr]
  rw [bind_ok hrun₁, bind_ok hrun₂, slab_get_bind hrep₂.page, hrep₂.ref_count,
    bind_ok (is_lonely_spec hl₂)]
  simp only [h.params, does_free_slab_eq h, htest]

/-- **`slab_pool_deallocate`** of a live object. -/
theorem slab_pool_deallocate_spec {w : World} {g : Shape} {size i : ℕ} {pool : slab_pool}
    {l r : List (PoolSlab g.cap)} {x : PoolSlab g.cap} (h : PoolRep w g size pool (l ++ x :: r))
    (hi : i ∈ x.slots.busy) :
    ∃ pool' w', slab_pool_deallocate pool (g.slot x.base i) w = .ok (pool', w')
      ∧ PoolRep w' g size pool' (deallocate x.base i (l ++ x :: r))
      ∧ PoolWrites g (bases (l ++ x :: r)) [] w w'
      ∧ (¬ Drops x (l ++ r) i → w'.mapped = w.mapped ∧ w'.calls = w.calls)
      ∧ (Drops x (l ++ r) i → w'.mapped = w.mapped.erase x.base
          ∧ w'.calls = .munmap x.base SLAB_PAGE_SIZE :: w.calls) := by
  obtain ⟨stop', w₂, hrun, hl₂, hw, hm, hc⟩ := slab_pool_deallocate_moved h hi
  have hobj := objects_dealloc (l := l) (r := r) hi
  have hcount := h.objects
  have hlength := h.length
  have hlen : (l ++ x :: r).length = (l ++ r).length + 1 := by
    simp only [List.length_append, List.length_cons]
    omega
  rw [deallocate_eq h.list.nodup, hrun]
  -- a drop needs another slab, so there is one that becomes the first
  by_cases hd : Drops x (l ++ r) i
  · rw [if_pos hd]
    simp only [if_pos hd]
    have hempty := hd.1
    have hsub : ∀ y ∈ l ++ r, y ∈ l ++ x :: r := fun y hy =>
      (List.mem_append.mp hy).elim (List.mem_append_left _)
        fun hy => List.mem_append_right _ (List.mem_cons_of_mem x hy)
    obtain ⟨y, rest, hlr⟩ := List.exists_cons_of_ne_nil hd.2.1
    rw [hlr] at hl₂ hobj hlen hsub hd ⊢
    have hp : w₂.Page x.base := (hl₂.slabs _ List.mem_cons_self).page
    have hprev : w₂.field x.base .prev = NULL := hl₂.chain.links.1
    have hnext : w₂.field x.base .next = y.base := hl₂.chain.links.2.1
    have hy : w₂.Page y.base := (hl₂.slabs y (by simp)).page
    refine ⟨{ pool with
        list_start := y.base
        list_end := stop'
        data := { pool.data with
          deallocation_count := pool.data.deallocation_count + 1
          shrink_count := pool.data.shrink_count + 1 } },
      { w₂.setField y.base .prev NULL with
        mapped := w₂.mapped.erase x.base
        calls := .munmap x.base SLAB_PAGE_SIZE :: w₂.calls },
      ?_, ⟨hl₂.drop_head rfl rfl, h.shape, h.allocation_size, h.params, ?_, ?_⟩, ?_,
      fun hnd => absurd hd hnd, fun _ => ⟨by rw [hm], by rw [hc]⟩⟩
    · rw [slab_get_bind hp, slab_get_bind hp, hprev, hnext]
      simp only [if_true, slab_set_bind hy, pure_bind_run]
      rfl
    · simp only
      omega
    · simp only [objects, List.map_cons, List.sum_cons, hempty, List.length_nil] at hobj hcount ⊢
      omega
    · refine ⟨fun a h1 h2 => ?_, hw.heap⟩
      have hya := h1 y.base (List.mem_map_of_mem (hsub y List.mem_cons_self))
      rw [← hw.mem a h1 h2]
      exact setField_mem (by simp only [SlabField.offset, SlabField.width]; omega)
  · rw [if_neg hd]
    simp only [if_neg hd]
    refine ⟨_, w₂, rfl, ⟨hl₂, h.shape, h.allocation_size, h.params, ?_, ?_⟩, hw,
      fun _ => ⟨hm, hc⟩, fun hd' => absurd hd' hd⟩
    · simp only [List.length_cons]
      omega
    · simp only
      omega

/-! ## A new pool -/

/-- **`slab_pool_create`**: ten fresh slabs on one new mapping. -/
theorem slab_pool_create_spec {w : World} {os : Os} {size : ℕ}
    (hn : 1 ≤ num_buffers (int_of_size_t size)) (hf : MmapFresh w os.mmap POOL_START_SIZE) :
    ∃ pool w', slab_pool_create os size w = .ok (pool, w')
      ∧ PoolRep w' (Shape.of (int_of_size_t size) hn) size pool
          ((pages os.mmap POOL_START_SIZE).map (PoolSlab.fresh _))
      ∧ PoolWrites (Shape.of (int_of_size_t size) hn) [] (pages os.mmap POOL_START_SIZE) w w'
      ∧ w'.mapped = w.mapped ++ pages os.mmap POOL_START_SIZE
      ∧ w'.calls = .mmap (SLAB_PAGE_SIZE * POOL_START_SIZE) os.mmap :: w.calls
      ∧ (∀ b ∈ pages os.mmap POOL_START_SIZE, ∀ a,
          b + 64 + 5 * (Shape.of (int_of_size_t size) hn).cap ≤ a → a < b + 4096 →
          w'.mem a = 0) := by
  have hnil : Chain w [] := ⟨by simp, by simp, by simp, List.nodup_nil, links_nil⟩
  have hal := hf.aligned
  unfold SLAB_PAGE_SIZE at hal
  obtain ⟨w', hrun, hc⟩ := mem_slab_create_several_spec 0 hn (by decide) hf hnil
  rw [List.headD_nil] at hrun
  have hch := hc.chain
  rw [List.append_nil] at hch
  have hhead : (pages os.mmap POOL_START_SIZE).headD NULL = os.mmap := pages_headD (by decide)
  -- the walk to the last slab ends, for it meets no more slabs than there are pages
  have hlast := get_last_from_list_spec hch
    (fun he => absurd (congrArg List.length he) (by rw [length_pages]; decide))
    (by rw [hc.mapped, List.length_append]; omega)
  rw [hhead] at hlast
  refine ⟨{
      list_start := os.mmap
      list_end := (pages os.mmap POOL_START_SIZE).getLastD NULL
      allocation_size := size
      params := default_params
      data := ⟨0, 0, POOL_START_SIZE, 0⟩ },
    w', ?_, ⟨⟨?_, fun x hx => ?_, ?_, ?_, ?_⟩, ⟨hn, rfl⟩, rfl, rfl, ?_, ?_⟩,
    ⟨fun a _ h2 => ?_, hc.heap⟩, hc.mapped, hc.calls, hc.zero⟩
  · unfold slab_pool_create
    rw [bind_ok hrun, bind_ok hlast]
    rfl
  · rw [bases_fresh]
    exact hch
  · obtain ⟨b, hb, rfl⟩ := List.mem_map.mp hx
    exact hc.slabs b hb
  · intro he
    have := congrArg List.length he
    rw [List.length_map, length_pages, List.length_nil] at this
    exact absurd this (by decide)
  · rw [bases_fresh, hhead]
  · rw [bases_fresh]
  · rw [List.length_map, length_pages]
    rfl
  · have : objects ((pages os.mmap POOL_START_SIZE).map (PoolSlab.fresh _) ++ [])
        = objects ([] : List (PoolSlab (Shape.of (int_of_size_t size) hn).cap)) := objects_fresh
    rw [List.append_nil] at this
    rw [this]
    rfl
  · refine hc.mem a ?_ (by simp)
    by_contra hin
    exact h2 ((pageOf_mem_pages hal).mpr (by unfold POOL_START_SIZE at hin ⊢; omega))

end SlabAllocator
