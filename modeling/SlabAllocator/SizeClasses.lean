/-
Each size class is a pool of its own.

The six pools share a process, and `smalloc`, `srealloc` and `sfree` share them.
`ApiEvent.on` says what an event asks of one class: an allocation if the request
is served from it, a release if the buffer is one of its slots, both if `srealloc`
moves a buffer within the class, and else nothing. The result is that nothing
else matters: the class does, slab by slab and slot by slot, what a pool of that
size does that is alone in an empty process and is asked the same. Whatever is
proved about runs of one pool is so a law of every class of the allocator.

The three steps are one lemma each. `srealloc` of an object that moves is the
other two with a copy in between (`AllocInv.srealloc_split`).
-/
import SlabAllocator.Contents
import SlabAllocator.Resize
import SlabAllocator.SlabRuns

set_option autoImplicit false

open ByteMem Runs
open BlockHeap (Holds)

namespace SlabAllocator

/-! ## What is asked of a class -/

/-- The class that serves a request of `n` bytes. -/
def classOf (n : ℕ) : Option ℕ := cache_sizes.find? fun c => n ≤ c

/-- What a request of `n` bytes asks of the class `c`. -/
def requested (c : ℕ) (os : Os) (n : ℕ) : List PoolEvent :=
  if classOf n = some c then [.allocate os] else []

/-- What the release of a buffer asks of the class `c`. -/
def returned (c : ℕ) (b : Buffer) : List PoolEvent :=
  if b.origin = .slab c then [.deallocate b.ptr] else []

/-- What an event asks of the class `c`, the latest first. -/
def ApiEvent.on (c : ℕ) : ApiEvent → List PoolEvent
  | .smalloc os n => requested c os n
  | .srealloc os b n =>
      match b.origin with
      | .system => []
      | .slab s => if n < s then [] else returned c b ++ requested c os n
  | .sfree _ b => returned c b
  | .write _ _ => []

section Sizes

variable {w₀ : World} {σ : ApiState} {vs l r : List PoolView} {v : PoolView} {n : ℕ}

theorem AllocInv.sizes (h : AllocInv w₀ σ vs) (hσ : σ.Classes) :
    vs.map (fun v => v.shape.size) = cache_sizes := by
  rw [← hσ.sizes, h.pools, List.map_map]
  exact List.map_congr_left fun v hv => (h.allocation_size hv).symm

theorem AllocInv.classOf_none (h : AllocInv w₀ σ vs) (hσ : σ.Classes)
    (hall : ∀ v ∈ vs, v.shape.size < n) : classOf n = none := by
  unfold classOf
  refine List.find?_eq_none.mpr fun c hc => ?_
  rw [← h.sizes hσ, List.mem_map] at hc
  obtain ⟨v, hv, rfl⟩ := hc
  simpa using hall v hv

theorem AllocInv.classOf_some (h : AllocInv w₀ σ (l ++ v :: r)) (hσ : σ.Classes)
    (hl : ∀ u ∈ l, u.shape.size < n) (hn : n ≤ v.shape.size) : classOf n = some v.shape.size := by
  unfold classOf
  rw [← h.sizes hσ, List.find?_map, List.find?_append, List.find?_eq_none.mpr, Option.none_or,
    List.find?_cons_of_pos, Option.map_some]
  · simpa using hn
  · intro u hu
    simpa using hl u hu

/-- Views of one size are one view. -/
theorem AllocInv.view_unique (h : AllocInv w₀ σ vs) {u : PoolView} (hu : u ∈ vs) (hv : v ∈ vs)
    (hs : u.shape.size = v.shape.size) : u = v :=
  List.inj_on_of_nodup_map h.views.distinct hu hv hs

end Sizes

/-! ## The pool alone -/

/-- A class of the allocator, and a pool that is alone in a process and has the same slabs. -/
def Alone (w₀ : World) (c : ℕ) (σ : ApiState) (π : PoolState) : Prop :=
  ∃ vs, AllocInv w₀ σ vs ∧ ∃ v ∈ vs, v.shape.size = c ∧ PoolInv World.empty v.shape c π v.slabs

section Alone

variable {w₀ : World} {σ σ' : ApiState} {π : PoolState} {vs : List PoolView} {v : PoolView}
  {b : Buffer} {os : Os} {c n shift : ℕ}

/-- What the kernel can map beside all classes, it can map beside one. -/
theorem AllocInv.fresh_alone (h : AllocInv w₀ σ vs) (hv : v ∈ vs)
    (hp : PoolInv World.empty v.shape c π v.slabs) (hf : MmapFresh σ.world os.mmap POOL_GROW_RATE) :
    MmapFresh π.world os.mmap POOL_GROW_RATE := by
  refine ⟨hf.aligned, hf.low, hf.high, fun p hpm => hf.mapped p ?_, fun d hd => ?_⟩
  · exact (h.views.base hv (hp.mapped.mem_iff.mp hpm)).2.2.2
  · rw [hp.heap] at hd
    cases hd

/-- A request. -/
theorem Alone.smalloc (h : Alone w₀ c σ π) (hσ : σ.Classes)
    (hs : ApiStep shift σ (.smalloc os n) σ') : ∃ t π', Run PoolStep π t π'
      ∧ t.map Prod.snd = requested c os n ∧ Alone w₀ c σ' π' := by
  obtain ⟨vs, hi, v, hv, hvc, hp⟩ := h
  obtain ⟨hn, hm, hM⟩ := hs.1
  rcases hi.find n with ⟨-, hall⟩ | ⟨l, u, r, rfl, hl, hnu, hfind⟩
  · -- no class serves the request
    obtain ⟨w', hrun, hor, hcall, -⟩ := hi.smalloc_heap os hall hM
    have hi' := hi.add_chunk hn hM hcall
    rw [← hor] at hi'
    rw [hs.unique (by rw [ApiState.exec, hrun]; rfl)]
    refine ⟨[], π, .start, ?_, vs, hi', v, hv, hvc, hp⟩
    rw [requested, hi.classOf_none hσ hall, if_neg (by simp), List.map_nil]
  · obtain ⟨b, f, ys, pool', w', hrun, ha, hor, hi', -⟩ := hi.smalloc_slab hl hnu hfind hm
    rw [← hor] at hi'
    rw [hs.unique (by rw [ApiState.exec, hrun]; rfl)]
    have hclass := hi.classOf_some hσ hl hnu
    by_cases huc : u.shape.size = c
    -- this class does
    · obtain rfl := hi.view_unique (by simp) hv (huc.trans hvc.symm)
      have hfresh := hi.fresh_alone hv hp hm
      obtain ⟨b', f', ys', pool'', w'', hok, ha', hp', -⟩ :=
        hp.allocate (hi.views.room u hv) os fun _ => hfresh
      rw [ha] at ha'
      cases ha'
      refine ⟨_, _, .next .start (.allocate hfresh hok), ?_, _, hi', ⟨u.shape, pool', ys⟩,
        List.mem_append_right l List.mem_cons_self, huc, hp'⟩
      rw [requested, hclass, if_pos (by rw [huc])]
      rfl
    -- another one does
    · have hne : v ≠ u := fun he => huc (he ▸ hvc)
      refine ⟨[], π, .start, ?_, _, hi', v, ?_, hvc, hp⟩
      · rw [requested, hclass, if_neg (by simpa using huc), List.map_nil]
      · simp only [List.mem_append, List.mem_cons] at hv ⊢
        exact hv.imp id fun hr => .inr (hr.resolve_left hne)

/-- A release. -/
theorem Alone.sfree (h : Alone w₀ c σ π) (hs : ApiStep shift σ (.sfree os b) σ')
    (hu : σ.Unfooled (.sfree os b)) : ∃ t π', Run PoolStep π t π'
      ∧ t.map Prod.snd = returned c b ∧ Alone w₀ c σ' π' := by
  obtain ⟨vs, hi, v, hv, hvc, hp⟩ := h
  have hb : b ∈ σ.live := hs.1
  rcases ho : b.origin with _ | s
  · obtain ⟨w', hrun, hcall, -⟩ := hi.sfree_heap hb ho (hu ho) os
    rw [hs.unique (by rw [ApiState.exec, hrun]; rfl)]
    refine ⟨[], π, .start, ?_, vs, hi.drop_chunk hb ho hcall, v, hv, hvc, hp⟩
    rw [returned, ho, if_neg (by simp), List.map_nil]
  · obtain ⟨l, u, r, pool', ys, w', rfl, hus, hbu, -, hrun, hi', -, -, -, -, m, k, x, i, hxs, hib,
      hptr, rfl⟩ := hi.sfree_slab hb ho
    rw [hs.unique (by rw [ApiState.exec, hrun os]; rfl)]
    have hum : u ∈ l ++ u :: r := by simp
    by_cases hsc : s = c
    -- a slot of this class
    · obtain rfl := hi.view_unique hum hv ((hus.trans hsc).trans hvc.symm)
      obtain ⟨l', y, r', j, pool'', w'', hys, hj, hptr', hok, hp', -⟩ :=
        hp.deallocate (hp.live.mem_iff.mpr hbu)
      have hlist := (hi.views.reps u hum).list
      have hx : x ∈ u.slabs := by rw [hxs]; simp
      have hy : y ∈ u.slabs := by rw [hys]; simp
      obtain ⟨hbase, rfl⟩ := u.shape.slot_page_inj (hlist.slabs x hx).page.2
        (hlist.slabs y hy).page.2 (Slots.busy_lt hib) (Slots.busy_lt hj) (hptr.symm.trans hptr')
      rw [← hbase] at hp'
      refine ⟨_, _, .next .start (.deallocate (hp.live.mem_iff.mpr hbu) hok), ?_, _, hi',
        ⟨u.shape, pool', _⟩, List.mem_append_right l List.mem_cons_self, hvc, hp'⟩
      rw [returned, ho, if_pos (by rw [hsc])]
      rfl
    -- a slot of another class
    · have hne : v ≠ u := fun he => hsc (hus.symm.trans (he ▸ hvc))
      refine ⟨[], π, .start, ?_, _, hi', v, ?_, hvc, hp⟩
      · rw [returned, ho, if_neg (by simpa using hsc), List.map_nil]
      · simp only [List.mem_append, List.mem_cons] at hv ⊢
        exact hv.imp id fun hr => .inr (hr.resolve_left hne)

/-- The copy of `srealloc` goes unnoticed if it goes to a buffer whose bytes are clear. -/
theorem AllocInv.copied {q : Buffer} (h : AllocInv w₀ σ vs) (hb : b ∈ σ.live) (hq : q ∈ σ.live)
    (hcb : c ≤ b.usable) (hcq : c ≤ q.usable) (hs : shift = 2 ^ 64 ∨ shift = 0)
    (hclear : ∀ a, Holds q.block a → q.Clear shift a) :
    memcpy shift q.ptr b.ptr c σ.world = .ok ((), { σ.world with
        mem := copyBytes σ.world.mem (q.ptr + shift) (b.ptr + shift) c
        calls := .memcpy q.ptr b.ptr c :: σ.world.calls })
      ∧ AllocInv w₀ ⟨{ σ.world with
        mem := copyBytes σ.world.mem (q.ptr + shift) (b.ptr + shift) c
        calls := .memcpy q.ptr b.ptr c :: σ.world.calls }, σ.pools, σ.live⟩ vs := by
  have hsrc : σ.world.firstBad b.ptr c = none :=
    World.firstBad_owned fun a h1 h2 => h.owned hb h1 (by omega)
  have hdst : σ.world.firstBad q.ptr c = none :=
    World.firstBad_owned fun a h1 h2 => h.owned hq h1 (by omega)
  refine ⟨by rw [memcpy, hsrc, hdst], h.congr rfl rfl fun a ha => ?_⟩
  refine copyBytes_apply_of_not_mem _ ?_
  by_contra hin
  have hold : Holds q.block (a - shift) := by
    unfold Holds Buffer.block
    simp only
    omega
  have hoff := h.off_of_clear hq hold (hclear _ hold) hs
  rw [Nat.sub_add_cancel (by omega)] at hoff
  exact ha hoff

/-- **`srealloc` of an object that moves** is a request, a copy that the pools do not notice,
and a release. -/
theorem AllocInv.srealloc_split (h : AllocInv w₀ σ vs) {s : ℕ} (ho : b.origin = .slab s)
    (hn : s ≤ n) (hs : ApiStep shift σ (.srealloc os b n) σ')
    (hsep : shift = 2 ^ 64 ∨ shift = 0 ∧ σ.Apart (.srealloc os b n)) :
    ∃ σ₁ w₂, ApiStep shift σ (.smalloc os n) σ₁
      ∧ (∀ vs₁, AllocInv w₀ σ₁ vs₁ → AllocInv w₀ ⟨w₂, σ₁.pools, σ₁.live⟩ vs₁)
      ∧ ApiStep shift ⟨w₂, σ₁.pools, σ₁.live⟩ (.sfree os b) σ' := by
  obtain ⟨hb, h1, hm, hf⟩ := hs.1
  have hbusy := h.live.busy_of_slab hb ho
  have hbu : b.usable = s := by rw [Buffer.usable, ho]
  have hf' : MallocFresh σ.world σ.world.heap os.malloc n :=
    ⟨hf.low, hf.high, hf.mapped, fun d hd => hf.heap d
      (List.mem_filter.mpr ⟨hd, by simpa using h.ne_object hd hbusy⟩)⟩
  obtain ⟨pools₁, p, w₁, vs₁, hsm, h₁, hus, -, -, hoff, -⟩ := h.smalloc h1 hm hf'
  obtain ⟨q, hq⟩ : ∃ q : Buffer, q = ⟨p, n, w₁.originOf σ.pools p n⟩ := ⟨_, rfl⟩
  have hqp : q.ptr = p := by rw [hq]
  rw [← hq] at h₁ hus hoff
  rw [← hqp] at hsm hoff
  have hclear : ∀ a, Holds q.block a → q.Clear shift a := by
    intro a ha
    rcases hsep with rfl | ⟨rfl, hap⟩
    · exact .inl rfl
    · exact h₁.clear_of_off List.mem_cons_self ha (hoff (hap s ho hn) a ha.1 ha.2)
  have hcopy := fun vs₁ (h₁ : AllocInv w₀ ⟨w₁, pools₁, q :: σ.live⟩ vs₁) =>
    h₁.copied (c := s) (List.mem_cons_of_mem q hb) List.mem_cons_self hbu.ge (by omega)
      (hsep.imp id And.left) hclear
  have hb₁ : b ∈ q :: σ.live := List.mem_cons_of_mem q hb
  obtain ⟨hcp, h₂⟩ := hcopy vs₁ h₁
  obtain ⟨l, v, r, pool', ys, w', -, -, -, -, hfree, -, -, -, hheap, -⟩ := h₂.sfree_slab hb₁ ho
  have hnd := h₁.live.nodup
  rw [List.map_cons, List.nodup_cons] at hnd
  have hne : q.ptr ≠ b.ptr := fun he => hnd.1 (he ▸ List.mem_map_of_mem hb)
  have hres : σ.resized b w' q.ptr n = q := by
    rw [ApiState.resized, if_neg hne, originOf_congr hheap]
    exact hq.symm ▸ rfl
  have hrun : SlabAllocator.srealloc os shift σ.pools b.ptr n σ.world
      = .ok (((l ++ ⟨v.shape, pool', ys⟩ :: r).map PoolView.pool, q.ptr), w') := by
    rw [(h.hasHeader hb ho).srealloc_eq, if_neg (by omega), bind_ok hsm, bind_ok hcp,
      bind_ok (hfree os)]
    rfl
  rw [hs.unique (by rw [ApiState.exec, hrun]; rfl)]
  refine ⟨⟨w₁, pools₁, q :: σ.live⟩, _, ⟨⟨h1, hm, hf'⟩, ?_⟩, fun vs₁ h₁ => (hcopy vs₁ h₁).2,
    hb₁, ?_⟩
  · rw [ApiState.exec, hsm, hq]
    rfl
  · rw [ApiState.exec, hfree os]
    change Except.ok _ = Except.ok _
    rw [List.erase_cons_tail (by simpa using fun he : q = b => hne (congrArg Buffer.ptr he))]
    exact congrArg (fun d => Except.ok (ApiState.mk w' _ (d :: σ.live.erase b))) hres.symm

/-- What the program writes is no pool's business. -/
theorem AllocInv.poked {a : ℕ} {x : UInt8} (h : AllocInv w₀ σ vs) (hg : σ.Granted (.write a x))
    (hsep : shift = 2 ^ 64 ∨ shift = 0 ∧ σ.Apart (.write a x)) :
    AllocInv w₀ ⟨σ.world.poke shift a x, σ.pools, σ.live⟩ vs := by
  refine h.congr rfl rfl fun y hy => if_neg ?_
  rintro rfl
  refine hy ?_
  rcases hsep with rfl | ⟨rfl, hap⟩
  · exact h.views.off_high (Nat.le_add_left _ _)
  · exact h.off_write hg hap

/-- A resize. -/
theorem Alone.srealloc (h : Alone w₀ c σ π) (hσ : σ.Classes)
    (hs : ApiStep shift σ (.srealloc os b n) σ') (hu : σ.Unfooled (.srealloc os b n))
    (hsep : shift = 2 ^ 64 ∨ shift = 0 ∧ σ.Apart (.srealloc os b n)) :
    ∃ t π', Run PoolStep π t π' ∧ t.map Prod.snd = ApiEvent.on c (.srealloc os b n)
      ∧ Alone w₀ c σ' π' := by
  obtain ⟨hb, h1, hm, hf⟩ := hs.1
  rcases ho : b.origin with _ | s
  · -- the chunks are no class's business
    obtain ⟨vs, hi, v, hv, hvc, hp⟩ := h
    obtain ⟨w', hrun, hor, hi', -⟩ := hi.srealloc_heap hb ho (hu ho) h1
      (hsep.symm.imp And.left fun h => h.ge) (hi.fresh_erase hb ho hf)
    rw [← hor] at hi'
    refine ⟨[], π, .start, by rw [ApiEvent.on, ho]; rfl, vs, ?_, v, hv, hvc, hp⟩
    rw [hs.unique (by rw [ApiState.exec, hrun]; rfl)]
    simpa only [hor, ho, ite_self] using hi'
  · rcases Nat.lt_or_ge n s with hlt | hge
    · -- nothing happens
      obtain ⟨vs, hi, v, hv, hvc, hp⟩ := h
      obtain ⟨hrun, hi'⟩ := hi.srealloc_in_place os shift hb ho hlt
      refine ⟨[], π, .start, ?_, vs, ?_, v, hv, hvc, hp⟩
      · rw [ApiEvent.on, ho]
        simp only [hlt, if_true, List.map_nil]
      · rw [hs.unique (by rw [ApiState.exec, hrun]; rfl)]
        simpa only [if_true, ho] using hi'
    · have hi := h
      obtain ⟨vs, hi, -⟩ := hi
      obtain ⟨σ₁, w₂, hreq, hcopy, hret⟩ := hi.srealloc_split ho hge hs hsep
      obtain ⟨t₁, π₁, hr₁, ht₁, vs₁, hi₁, hrest⟩ := h.smalloc hσ hreq
      have hun : ApiState.Unfooled ⟨w₂, σ₁.pools, σ₁.live⟩ (.sfree os b) := by
        intro hsys
        rw [ho] at hsys
        cases hsys
      obtain ⟨t₂, π₂, hr₂, ht₂, hR⟩ := Alone.sfree ⟨vs₁, hcopy vs₁ hi₁, hrest⟩ hret hun
      refine ⟨t₂ ++ t₁, π₂, hr₁.append hr₂, ?_, hR⟩
      rw [List.map_append, ht₁, ht₂, ApiEvent.on, ho]
      exact (if_neg (by omega)).symm

end Alone

/-! ## Runs -/

section ClassRuns

variable {w₀ : World} {σ : ApiState} {vs : List PoolView} {v : PoolView} {c n shift : ℕ}

/-- Every class has a pool of its own to begin with. -/
theorem Initialized.alone {os : ℕ → Os} (h : Initialized w₀ σ os) (hc : c ∈ cache_sizes) :
    ∃ π os', Opened c World.empty π os' ∧ Alone w₀ c σ π := by
  obtain ⟨vs, hi, hsizes, hnew⟩ := h.inv
  rw [← hsizes, List.mem_map] at hc
  obtain ⟨⟨g, pool, xs⟩, hv, rfl⟩ := hc
  obtain ⟨a, ha⟩ := (hnew _ hv).slabs
  change xs = (pages a POOL_START_SIZE).map (PoolSlab.fresh _) at ha
  subst ha
  have hbases : (PoolView.mk g pool ((pages a POOL_START_SIZE).map (PoolSlab.fresh _))).bases
      = pages a POOL_START_SIZE := bases_fresh
  -- the last page of the class is a page of one of the mappings, and those end in time
  have hlast : a + POOL_START_SIZE * SLAB_PAGE_SIZE < 2 ^ 64 := by
    obtain ⟨vs', w', hrun, -, hviews', -, hpages, -⟩ := smalloc_initialize_spec h.fresh
    have hw := h.run
    rw [hrun, Except.ok.injEq, Prod.mk.injEq] at hw
    obtain ⟨-, rfl⟩ := hw
    have hperm := (List.perm_append_left_iff _).mp (hi.views.mapped.symm.trans hviews'.mapped)
    rw [hpages] at hperm
    have hmem : a + 9 * SLAB_PAGE_SIZE ∈ vs.flatMap PoolView.bases := by
      refine List.mem_flatMap.mpr ⟨_, hv, ?_⟩
      rw [hbases]
      exact mem_pages.mpr ⟨9, by decide, rfl⟩
    obtain ⟨j, hj, hp⟩ := List.mem_flatMap.mp (hperm.mem_iff.mp hmem)
    obtain ⟨i, hi', he⟩ := mem_pages.mp hp
    have hjr := List.mem_range'_1.mp hj
    have := (h.fresh.fresh j hjr.1 hjr.2).high
    unfold POOL_START_SIZE SLAB_PAGE_SIZE at *
    omega
  have hfirst := hi.views.base hv (by rw [hbases]; exact mem_pages.mpr ⟨0, by decide, rfl⟩)
  have hfresh : MmapFresh World.empty a POOL_START_SIZE := by
    refine ⟨?_, ?_, hlast, by simp [World.empty], by simp [World.empty]⟩
    · have := hfirst.1
      unfold SLAB_PAGE_SIZE at *
      omega
    · have := hfirst.2.1
      unfold SLAB_PAGE_SIZE at *
      omega
  have hcache : g.size ∈ cache_sizes := by
    rw [← hsizes]
    exact List.mem_map_of_mem hv
  have hroom : ∀ s ∈ cache_sizes, s < 2 ^ 31 ∧ 1 ≤ num_buffers (int_of_size_t s) := by decide
  obtain ⟨hlt, hn⟩ := hroom g.size hcache
  obtain ⟨π, hopen⟩ := exists_opened ⟨a, 0, fun _ => 0⟩ hn hfresh
  have hg : Shape.of (int_of_size_t g.size) hn = g := Shape.eq_of_size (size_of_shape hlt hn)
  have hinv := hopen.inv hn
  rw [hg] at hinv
  exact ⟨π, _, hopen, vs, hi, _, hv, rfl, hinv⟩

/-- The pointers of the buffers of a class are its objects. -/
theorem AllocInv.live_of_class (h : AllocInv w₀ σ vs) (hv : v ∈ vs) :
    ((σ.live.filter fun b => b.origin = .slab v.shape.size).map Buffer.ptr).Perm v.busy := by
  refine (List.perm_ext_iff_of_nodup (h.live.nodup.sublist (List.filter_sublist.map _))
    (h.views.reps v hv).list.nodup_busyPtrs).mpr fun p => ?_
  constructor
  · intro hp
    obtain ⟨b, hb, rfl⟩ := List.mem_map.mp hp
    obtain ⟨hb, ho⟩ := List.mem_filter.mp hb
    obtain ⟨-, u, hu, hus, hbu⟩ := h.live.slab b hb _ (by simpa using ho)
    rwa [h.view_unique hu hv hus] at hbu
  · intro hp
    have hpv : p ∈ v.busy := hp
    obtain ⟨b, hb, rfl⟩ := h.live.busy p (List.mem_flatMap.mpr ⟨v, hv, hpv⟩)
    refine List.mem_map_of_mem (List.mem_filter.mpr ⟨hb, ?_⟩)
    rcases ho : b.origin with _ | s
    · exact absurd rfl (h.ne_object (h.live.system b hb ho) (List.mem_flatMap.mpr ⟨v, hv, hpv⟩))
    · -- the header of the page has the size of both
      obtain ⟨-, u, hu, rfl, hbu⟩ := h.live.slab b hb s ho
      obtain ⟨-, x, -, i, -, -, -, -, hr, hpage⟩ := h.views.object hv hpv
      obtain ⟨-, y, -, j, -, -, -, -, hr', hpage'⟩ := h.views.object hu hbu
      rw [← hpage] at hr
      rw [← hpage'] at hr'
      rw [hr.size.symm.trans hr'.size]
      simp

/-- A run of the allocator is, for each class, a run of a pool that is alone. -/
theorem ApiRun.alone {t : List (ApiState × ApiEvent)} (hrun : ApiRun shift w₀ t σ)
    (hu : ∀ x ∈ t, x.1.Unfooled x.2)
    (hsep : shift = 2 ^ 64 ∨ shift = 0 ∧ ∀ x ∈ t, x.1.Apart x.2) (hc : c ∈ cache_sizes) :
    ∃ t' π, PoolRun c World.empty t' π ∧ t'.map Prod.snd = t.flatMap (fun x => x.2.on c)
      ∧ Alone w₀ c σ π := by
  obtain ⟨σ₀, os₀, hinit, hr⟩ := hrun
  obtain ⟨π₀, os', hopen, halone⟩ := hinit.alone hc
  have hstart : ApiRun shift w₀ [] σ₀ := ⟨σ₀, os₀, hinit, .start⟩
  obtain ⟨t', π, hr', ht', -, hR⟩ := hr.simulate_many
    (R := fun s π => s.Classes ∧ Alone w₀ c s π)
    (f := ApiEvent.on c)
    (c := fun s e => s.Unfooled e ∧ (shift = 2 ^ 64 ∨ shift = 0 ∧ s.Apart e))
    ⟨hstart.classes, halone⟩
    (by
      rintro s e s' π ⟨hσ, hR⟩ ⟨hu, hsep⟩ hs
      have hσ' := hσ.step hs
      cases e with
      | smalloc os n =>
          obtain ⟨t, π', h1, h2, h3⟩ := hR.smalloc hσ hs
          exact ⟨t, π', h1, h2, hσ', h3⟩
      | srealloc os b n =>
          obtain ⟨t, π', h1, h2, h3⟩ := hR.srealloc hσ hs hu hsep
          exact ⟨t, π', h1, h2, hσ', h3⟩
      | sfree os b =>
          obtain ⟨t, π', h1, h2, h3⟩ := hR.sfree hs hu
          exact ⟨t, π', h1, h2, hσ', h3⟩
      | write a x =>
          obtain ⟨vs, hi, hv⟩ := hR
          have hi' := hi.poked hs.1 hsep
          rw [hs.unique rfl] at hσ' ⊢
          exact ⟨[], π, .start, rfl, hσ', vs, hi', hv⟩)
    (fun x hx => ⟨hu x hx, hsep.imp id fun hs => ⟨hs.1, hs.2 x hx⟩⟩)
  exact ⟨t', π, ⟨π₀, os', hopen, hr'⟩, ht', hR⟩

/-- **Each size class is a pool of its own.** For every run of the allocator and each of its
pools there is a run of a pool of that size that is alone in an empty process: it is asked what
the class was asked, in that order, and nothing else; it holds the same pointers in slabs at the
same places, with the same slots in the same order on their free lists; and it answers the next
request with the same pointer, growing when the class does. -/
theorem size_class_is_a_pool {t : List (ApiState × ApiEvent)} {pool : slab_pool}
    (hrun : ApiRun shift w₀ t σ) (hu : ∀ x ∈ t, x.1.Unfooled x.2)
    (hsep : shift = 2 ^ 64 ∨ shift = 0 ∧ ∀ x ∈ t, x.1.Apart x.2) (hpool : pool ∈ σ.pools) :
    ∃ t' π, PoolRun pool.allocation_size World.empty t' π
      ∧ t'.map Prod.snd = t.flatMap (fun x => x.2.on pool.allocation_size)
      ∧ π.live.Perm
          ((σ.live.filter fun b => b.origin = .slab pool.allocation_size).map Buffer.ptr)
      ∧ π.world.slabs π.pool = σ.world.slabs pool
      ∧ (∀ s ∈ σ.world.slabs pool, ∃ F B,
          FreeList σ.world s (num_buffers (int_of_size_t pool.allocation_size)) F B
          ∧ FreeList π.world s (num_buffers (int_of_size_t pool.allocation_size)) F B)
      ∧ (PoolState.NeedsGrowth ⟨σ.world, pool, []⟩ ↔ π.NeedsGrowth)
      ∧ ∀ os, MmapFresh σ.world os.mmap POOL_GROW_RATE → ∃ p pool₁ w₁ pool₂ w₂,
          slab_pool_allocate os pool σ.world = .ok ((pool₁, p), w₁)
          ∧ slab_pool_allocate os π.pool π.world = .ok ((pool₂, p), w₂) := by
  have hmem : pool.allocation_size ∈ cache_sizes := by
    rw [← hrun.classes.sizes]
    exact List.mem_map_of_mem hpool
  obtain ⟨t', π, hr', ht', vs, hi, v, hv, hvc, hp⟩ := hrun.alone hu hsep hmem
  rw [hi.pools] at hpool
  obtain ⟨u, huv, rfl⟩ := List.mem_map.mp hpool
  obtain rfl := hi.view_unique huv hv ((hi.allocation_size huv).symm.trans hvc.symm)
  have hrep := hi.views.reps u huv
  have hlive := hi.live_of_class huv
  have hcap : num_buffers (int_of_size_t u.pool.allocation_size) = u.shape.cap := by
    obtain ⟨hn, hg⟩ := hrep.shape
    rw [hrep.allocation_size]
    exact congrArg Shape.cap hg
  rw [hvc] at hlive
  refine ⟨t', π, hr', ht', hp.live.trans hlive.symm,
    hp.rep.slabs_eq.trans hrep.slabs_eq.symm, fun s hs => ?_,
    (needsGrowth_iff (σ := ⟨σ.world, u.pool, []⟩) hrep).trans (needsGrowth_iff hp.rep).symm,
    fun os hf => ?_⟩
  · rw [hrep.slabs_eq] at hs
    obtain ⟨x, hx, rfl⟩ := List.mem_map.mp hs
    rw [hcap]
    exact ⟨_, _, (hrep.list.slabs x hx).freeList, (hp.rep.list.slabs x hx).freeList⟩
  · obtain ⟨l, r, rfl⟩ := List.append_of_mem huv
    obtain ⟨b, f, ys, pool₁, w₁, h₁, ha, -⟩ := hi.views.allocate hf
    obtain ⟨b', f', ys', pool₂, w₂, h₂, ha', -⟩ :=
      hp.allocate (hi.views.room u huv) os fun _ => hi.fresh_alone huv hp hf
    rw [ha] at ha'
    cases ha'
    exact ⟨_, pool₁, w₁, pool₂, w₂, h₁, h₂⟩

/-- The theorem for the class of 64 bytes after one request. -/
theorem size_class_is_a_pool_64 : ∃ t σ pool t' π, t ≠ [] ∧ ApiRun 0 World.empty t σ
    ∧ pool ∈ σ.pools ∧ PoolRun 64 World.empty t' π ∧ t'.map Prod.snd = [.allocate roomyOs]
    ∧ π.world.slabs π.pool = σ.world.slabs pool := by
  obtain ⟨σ₀, σ, b, hrun, -⟩ := @exists_object [8, 16, 32] [128, 256] 64 rfl (by decide) 0
  have hmem : 64 ∈ σ.pools.map slab_pool.allocation_size := by
    rw [hrun.classes.sizes]
    decide
  obtain ⟨pool, hpool, hsize⟩ := List.mem_map.mp hmem
  obtain ⟨t', π, hr, ht, -, hslabs, -⟩ := size_class_is_a_pool hrun
    (by intro x hx; rw [List.mem_singleton.mp hx]; trivial)
    (.inr ⟨rfl, by intro x hx; rw [List.mem_singleton.mp hx]; trivial⟩) hpool
  rw [hsize] at hr ht
  exact ⟨_, σ, pool, t', π, by simp, hrun, hpool, hr, ht, hslabs⟩

end ClassRuns

end SlabAllocator
