/-
A second `smalloc_initialize`.

The function overwrites the array of pools with new ones. The slabs of the old pools
stay mapped and linked to one another, and the objects in them stay in use, but no
pool names them any more. `sfree` finds the slab of such an object by its address and
the pool by its size, so the surgery on the list is done with a slab of one list and
the ends of another. The first slab of an old list has no `prev`, and the store
through it faults. Any other slab is unlinked from its old list and put before the
new one, which then has a slab more than its counters say.
-/
import SlabAllocator.Resize

set_option autoImplicit false

open DoublyLinked Runs

namespace SlabAllocator

/-! ## A slab of another list -/

section Foreign

variable {w : World} {a s p n : ℕ} {r : List ℕ}

/-- Moving a slab of another list to the start puts it before the chain. -/
theorem Chain.adopt (h : Chain w (a :: r)) (hs : w.Page s) (hlow : 4096 ≤ s)
    (hhigh : s + 4096 ≤ 2 ^ 64) (hsout : s ∉ a :: r) (hp : p % 4096 = 0) (hp64 : p < 2 ^ 64)
    (hpout : p ∉ a :: r) (hn : n ≠ NULL → n % 4096 = 0 ∧ n ∉ a :: r) (hn64 : n < 2 ^ 64) :
    Chain (w.toStart s p n a) (s :: a :: r) := by
  have ha : a ∈ a :: r := List.mem_cons_self
  have hnal : n ≠ NULL → n % 4096 = 0 := fun hne => (hn hne).1
  have hN := fun y (hy : y % 4096 = 0) => next_toStart (w := w) hs.2 hp hnal (h.aligned a ha) hy
    (h.lt ha) hn64
  have hP := fun y (hy : y % 4096 = 0) => prev_toStart (w := w) hs.2 hp hnal (h.aligned a ha) hy
    (by omega : s < 2 ^ 64) hp64
  have hne : ∀ y ∈ a :: r, ∀ z, z ∉ a :: r → y ≠ z := fun y hy z hz he => hz (he ▸ hy)
  have hpage : ∀ y, w.Page y → (w.toStart s p n a).Page y := by
    intro y hy
    unfold World.toStart
    split <;> exact hy
  refine ⟨?_, ?_, ?_, List.nodup_cons.mpr ⟨hsout, h.nodup⟩, ?_⟩
  · exact List.forall_mem_cons.mpr ⟨hpage s hs, fun y hy => hpage y (h.page y hy)⟩
  · exact List.forall_mem_cons.mpr ⟨hlow, h.low⟩
  · exact List.forall_mem_cons.mpr ⟨hhigh, h.high⟩
  -- the slab alone, and the chain it is put before
  have hone : Links ((w.toStart s p n a).field · .next) ((w.toStart s p n a).field · .prev) NULL
      [s] ((a :: r).headD NULL) := by
    refine links_cons.mpr ⟨?_, ?_, links_nil⟩
    · rw [hP s hs.2, if_neg (hne a ha s hsout).symm, if_pos rfl]
    · rw [hN s hs.2, if_pos rfl]
      rfl
  refine hone.join h.links h.nodup ?_ ?_ ?_
  · rintro b r' ⟨⟩
    rw [hP a (h.aligned a ha), if_pos rfl]
    rfl
  · intro y hy
    rw [hN y (h.aligned y hy), if_neg (hne y hy s hsout), if_neg (hne y hy p hpout)]
  · intro y hy hya
    change y ≠ a at hya
    rw [hP y (h.aligned y hy), if_neg hya, if_neg (hne y hy s hsout), if_neg]
    rintro ⟨hnn, rfl⟩
    exact (hn hnn).2 hy

end Foreign

/-- A slab with room behind it in memory that is not one of the list: what a release of one of
its objects through the wrong pool finds. -/
structure Stranger (w : World) (g : Shape) (bs : List ℕ) (s : ℕ) (slots : Slots g.cap) : Prop where
  rep : Rep w g s slots
  out : s ∉ bs
  prev : w.field s .prev ≠ NULL → w.Page (w.field s .prev) ∧ w.field s .prev ∉ bs
    ∧ w.field s .prev ≠ s
  next : w.field s .next ≠ NULL → w.Page (w.field s .next) ∧ w.field s .next ∉ bs

section Release

variable {w : World} {g : Shape} {size i s : ℕ} {pool : slab_pool} {xs : List (PoolSlab g.cap)}
  {slots : Slots g.cap}

/-- A write into the slab that keeps its links leaves it a stranger. -/
theorem Stranger.within {w' : World} {bs : List ℕ} {slots' : Slots g.cap}
    (hs : Stranger w g bs s slots) (hw : Within s (s + 64 + 5 * g.cap) w w')
    (hr : Rep w' g s slots') (hn : w'.field s .next = w.field s .next)
    (hp : w'.field s .prev = w.field s .prev) : Stranger w' g bs s slots' := by
  have hpage : ∀ y, w.Page y → w'.Page y := fun y hy => ⟨by rw [hw.mapped]; exact hy.1, hy.2⟩
  refine ⟨hr, hs.out, ?_, ?_⟩
  · rw [hp]
    intro hne
    obtain ⟨h1, h2, h3⟩ := hs.prev hne
    exact ⟨hpage _ h1, h2, h3⟩
  · rw [hn]
    intro hne
    obtain ⟨h1, h2⟩ := hs.next hne
    exact ⟨hpage _ h1, h2⟩

/-- The move unlinks it from where it was and puts it before the list. -/
theorem Stranger.to_front {bs : List ℕ} (hs : Stranger w g bs s slots) (h : Chain w bs)
    (hne : bs ≠ []) (hprev : w.field s .prev ≠ NULL) (pool : slab_pool)
    (hstart : pool.list_start = bs.headD NULL) :
    ∃ stop' w', move_slab_to_start_of_the_list pool s w
        = .ok ({ pool with list_start := s, list_end := stop' }, w')
      ∧ Chain w' (s :: bs) ∧ Rep w' g s slots
      ∧ (w.field s .next = NULL → stop' ∉ s :: bs) := by
  obtain ⟨a, r, rfl⟩ := List.exists_cons_of_ne_nil hne
  have ha : a ∈ a :: r := List.mem_cons_self
  have has : a ≠ s := fun he => hs.out (he ▸ ha)
  obtain ⟨p, hp⟩ : ∃ p, w.field s .prev = p := ⟨_, rfl⟩
  obtain ⟨n, hn⟩ : ∃ n, w.field s .next = n := ⟨_, rfl⟩
  have hp64 : p < 2 ^ 64 := hp ▸ field_lt
  have hn64 : n < 2 ^ 64 := hn ▸ field_lt
  obtain ⟨hpage, hpout, hps⟩ := hs.prev hprev
  have hnext := hs.next
  rw [hp] at hpage hpout hps
  rw [hn] at hnext
  have hal : n % 4096 = 0 := by
    by_cases hnn : n = NULL
    · rw [hnn]
      rfl
    · exact (hnext hnn).1.2
  refine ⟨_, _, move_slab_to_start_run hs.rep.page hp hn hpage hps hpage.2
    (fun hnn => (hnext hnn).1) (h.page a ha) hstart has,
    h.adopt hs.rep.page hs.rep.low hs.rep.high hs.out hpage.2 hp64 hpout
      (fun hnn => ⟨hal, (hnext hnn).2⟩) hn64, ?_, fun hnn => ?_⟩
  · -- links of these four slabs are written, at most
    have hw : LinkWrites [s, p, n, a] w (w.toStart s p n a) :=
      linkWrites_toStart (by simp) (by simp) (fun _ => by simp) (by simp)
    refine hw.rep hs.rep ?_
    simp only [List.forall_mem_cons, List.not_mem_nil, false_implies, implies_true, and_true]
    exact ⟨hs.rep.page.2, hpage.2, hal, h.aligned a ha⟩
  · -- the last one of its list leaves `list_end` at the slab before it
    rw [if_pos (hn.symm.trans hnn), List.mem_cons, not_or]
    exact ⟨hps, hpout⟩

/-- A link of the null page cannot be written. -/
theorem slab_set_null (hnull : ¬ w.Accessible NULL) (v : ℕ) :
    slab_set NULL .next v w = .error (.segv 48) := by
  have h48 : ¬ w.Accessible (NULL + SlabField.next.offset) := fun h =>
    hnull (h.of_page (by decide))
  exact store_segv h48 (by decide)

/-- The first slab of the old list has nothing before it. -/
theorem slab_pool_deallocate_stranger_first (h : PoolRep w g size pool xs)
    (hs : Stranger w g (bases xs) s slots) (hi : i ∈ slots.busy)
    (hprev : w.field s .prev = NULL) (hnull : ¬ w.Accessible NULL) :
    slab_pool_deallocate pool (g.slot s i) w = .error (.segv 48) := by
  obtain ⟨w₁, hrun, hrep, hin, hn, hp⟩ := mem_slab_dealloc_spec hs.rep hi g.size_pos
  rw [Nat.add_zero] at hrun
  have hnull' : ¬ w₁.Accessible NULL := by
    unfold World.Accessible at hnull ⊢
    rwa [hin.mapped, hin.heap]
  have hstart : pool.list_start ≠ s := by
    rw [h.list.start]
    exact fun he => hs.out (he ▸ headD_mem (bases_ne_nil h.list.nonempty))
  unfold slab_pool_deallocate
  simp only [hs.rep.page_of_slot (Slots.busy_lt hi)]
  rw [bind_ok hrun]
  refine bind_error ?_
  unfold move_slab_to_start_of_the_list
  rw [slab_get_bind hrep.page, slab_get_bind hrep.page, if_neg hstart, hp, hprev]
  -- whatever comes behind it, the first store goes through its `prev`
  by_cases hnn : w₁.field s .next = NULL
  · rw [if_pos hnn]
    exact bind_error (slab_set_null hnull' _)
  · rw [if_neg hnn]
    exact bind_error (slab_set_null hnull' _)

/-- Any other slab of the old list is put before the new list, or dropped from it. Either
way the list has one slab more than the counters say, and if the slab was the last of the old
list, `list_end` is not in it. -/
theorem slab_pool_deallocate_stranger (h : PoolRep w g size pool xs)
    (hs : Stranger w g (bases xs) s slots) (hi : i ∈ slots.busy)
    (hprev : w.field s .prev ≠ NULL) :
    ∃ pool' w', slab_pool_deallocate pool (g.slot s i) w = .ok (pool', w')
      ∧ pool'.allocation_size = pool.allocation_size
      ∧ (w'.slabs pool').length + pool'.data.shrink_count = pool'.data.grow_count + 1
      ∧ (w.field s .next = NULL → pool'.list_end ∉ w'.slabs pool') := by
  obtain ⟨w₁, hrun, hrep, hin, hn, hp⟩ := mem_slab_dealloc_spec hs.rep hi g.size_pos
  rw [Nat.add_zero] at hrun
  have hne := bases_ne_nil h.list.nonempty
  have hch := h.list.chain.within hin hs.rep.page.2 hn hp
  obtain ⟨stop', w₂, hmove, hch₂, hrep₂, hstop⟩ := (hs.within hin hrep hn hp).to_front hch hne
    (by rw [hp]; exact hprev) { pool with
      data := { pool.data with deallocation_count := pool.data.deallocation_count + 1 } }
    h.list.start
  have hlen : (bases xs).length + pool.data.shrink_count = pool.data.grow_count := by
    rw [bases, List.length_map]
    exact h.length
  have hal := hs.rep.page_of_slot (Slots.busy_lt hi)
  have hpage := hrep₂.page
  clear hs
  obtain ⟨a, r, hbs⟩ := List.exists_cons_of_ne_nil hne
  rw [hbs] at hch₂ hlen hstop
  rw [hn] at hstop
  have hprev₂ : w₂.field s .prev = NULL := hch₂.links.1
  have hnext₂ : w₂.field s .next = a := hch₂.links.2.1
  have ha : a ≠ NULL := hch₂.ne_null (by simp)
  -- the new list is behind it, so it is never taken for the only slab
  have hlonely : is_lonely s w₂ = .ok (false, w₂) := by
    unfold is_lonely
    rw [slab_get_bind hpage, hnext₂, if_neg ha]
    rfl
  unfold slab_pool_deallocate
  simp only [hal]
  rw [bind_ok hrun, bind_ok hmove, slab_get_bind hpage, bind_ok hlonely]
  split
  · -- the old slab leaves again, and the counters say that one of the list did
    obtain ⟨w₃, hw₃⟩ : ∃ w₃ : World, w₃ = { w₂.setField a .prev NULL with
        mapped := w₂.mapped.erase s
        calls := .munmap s SLAB_PAGE_SIZE :: w₂.calls } := ⟨_, rfl⟩
    have hch₃ : Chain w₃ (a :: r) := hch₂.drop_first (by rw [hw₃]) (by rw [hw₃])
    refine ⟨{ pool with
        list_start := a
        list_end := stop'
        data := { pool.data with
          deallocation_count := pool.data.deallocation_count + 1
          shrink_count := pool.data.shrink_count + 1 } }, w₃, ?_, rfl, ?_, fun hnn => ?_⟩
    · rw [slab_get_bind hpage, slab_get_bind hpage, hprev₂, hnext₂]
      simp only [if_true, slab_set_bind (hch₂.page a (by simp)), pure_bind_run]
      rw [hw₃]
      rfl
    · rw [hch₃.slabs_eq rfl]
      simp only
      omega
    · rw [hch₃.slabs_eq rfl]
      exact fun hm => hstop hnn (List.mem_cons_of_mem s hm)
  · refine ⟨_, w₂, rfl, rfl, ?_, fun hnn => ?_⟩
    · rw [hch₂.slabs_eq rfl, List.length_cons]
      simp only
      omega
    · rw [hch₂.slabs_eq rfl]
      exact hstop hnn

end Release

/-! ## `sfree` of such an object -/

section Sfree

variable {w : World} {g : Shape} {i s p n : ℕ} {slots : Slots g.cap} {l r pools : List slab_pool}
  {pool : slab_pool} {e : Fault}

/-- `sfree` of an object goes by the header of its slab, whatever the pools are. -/
theorem Rep.sfree_eq (h : Rep w g s slots) (hi : i ∈ slots.busy) (os : Os)
    (pools : List slab_pool) :
    sfree os pools (g.slot s i) w = sfree_loop g.size (g.slot s i) pools w := by
  unfold sfree
  simp only [h.page_of_slot (Slots.busy_lt hi)]
  rw [slab_get_bind h.page, h.slab_magic, ite_run, if_neg (by simp), slab_get_bind h.page, h.size]

/-- A fault of the pool of the slab's size is a fault of the loop. -/
theorem sfree_loop_fault (hl : ∀ u ∈ l, u.allocation_size ≠ n) (hn : pool.allocation_size = n)
    (h : slab_pool_deallocate pool p w = .error e) :
    sfree_loop n p (l ++ pool :: r) w = .error e := by
  induction l with
  | nil =>
      rw [List.nil_append, sfree_loop, if_pos hn]
      exact bind_error h
  | cons u l ih =>
      rw [List.cons_append, sfree_loop, if_neg (hl u List.mem_cons_self)]
      exact bind_error (ih fun y hy => hl y (List.mem_cons_of_mem u hy))

/-- A slab of a list is a stranger to a list with none of its slabs. -/
theorem PoolRep.stranger {size : ℕ} {xs : List (PoolSlab g.cap)} {x : PoolSlab g.cap}
    {bs : List ℕ} (h : PoolRep w g size pool xs) (hx : x ∈ xs)
    (hdisj : ∀ b ∈ bases xs, b ∉ bs) : Stranger w g bs x.base x.slots := by
  have hch := h.list.chain
  obtain ⟨l, r, hlr⟩ := List.append_of_mem (List.mem_map_of_mem (f := PoolSlab.base) hx)
  change bases xs = l ++ x.base :: r at hlr
  have hlinks := hch.links
  have hnd := hch.nodup
  rw [hlr] at hlinks hnd
  obtain ⟨-, ⟨hprev, hnext⟩, -⟩ := links_mid.mp hlinks
  refine ⟨h.list.slabs x hx, hdisj _ (List.mem_map_of_mem hx), fun hne => ?_, fun hne => ?_⟩
  -- with something before it in its list, its `prev` is a slab of that list
  · rw [hprev] at hne ⊢
    have hl : l ≠ [] := by
      rintro rfl
      exact hne rfl
    have hm : l.getLastD NULL ∈ bases xs := by
      rw [hlr]
      exact List.mem_append_left _ (getLastD_mem hl)
    refine ⟨hch.page _ hm, hdisj _ hm, ?_⟩
    exact (List.nodup_append.mp hnd).2.2 _ (getLastD_mem hl) _ List.mem_cons_self
  · rw [hnext] at hne ⊢
    have hr : r ≠ [] := by
      rintro rfl
      exact hne rfl
    have hm : r.headD NULL ∈ bases xs := by
      rw [hlr]
      exact List.mem_append_right _ (List.mem_cons_of_mem _ (headD_mem hr))
    exact ⟨hch.page _ hm, hdisj _ hm⟩

end Sfree

/-! ## The second initialisation -/

section Reinit

variable {w₀ w' : World} {σ : ApiState} {vs : List PoolView} {v : PoolView} {os : ℕ → Os}
  {p : ℕ}

/-- What is mapped already is on none of the new pages. -/
theorem InitFresh.not_mem {w : World} {i k : ℕ} (h : InitFresh w os i k) (hp : p ∈ w.mapped) :
    p ∉ initPages os i k := by
  intro hm
  obtain ⟨j, hj, hm⟩ := List.mem_flatMap.mp hm
  obtain ⟨m, hm', rfl⟩ := mem_pages.mp hm
  have hjr := List.mem_range'_1.mp hj
  have := (h.fresh j hjr.1 hjr.2).mapped _ hp
  unfold POOL_START_SIZE SLAB_PAGE_SIZE at *
  omega

/-- The page of an old slab keeps its bytes. -/
theorem AllocInv.old_page (h : AllocInv w₀ σ vs)
    (hf : InitFresh σ.world os 0 cache_sizes.length)
    (hmem : ∀ a, pageOf (a % 2 ^ 64) ∉ initPages os 0 cache_sizes.length →
      w'.mem a = σ.world.mem a) (hv : v ∈ vs) (hp : p ∈ v.bases) {a : ℕ} (h1 : p ≤ a)
    (h2 : a < p + 4096) : w'.mem a = σ.world.mem a := by
  obtain ⟨hal, hlo, hhi, hpm⟩ := h.views.base hv hp
  refine hmem a ?_
  rw [Nat.mod_eq_of_lt (by omega), pageOf_eq hal h1 h2]
  exact hf.not_mem hpm

/-- So an old pool is in memory as before. -/
theorem AllocInv.old_pool (h : AllocInv w₀ σ vs)
    (hf : InitFresh σ.world os 0 cache_sizes.length) (hm : ∀ q ∈ σ.world.mapped, q ∈ w'.mapped)
    (hmem : ∀ a, pageOf (a % 2 ^ 64) ∉ initPages os 0 cache_sizes.length →
      w'.mem a = σ.world.mem a) (hv : v ∈ vs) :
    PoolRep w' v.shape v.shape.size v.pool v.slabs := by
  have hcap := v.shape.cap_le
  exact (h.views.reps v hv).congr (fun b hb => hm b (h.views.base hv hb).2.2.2)
    fun b hb a h1 h2 => h.old_page hf hmem hv hb h1 (by omega)

/-- What `sfree` of an object of before does. It faults at the `next` of `NULL` if the slab was
the first of its list. Else it leaves a list with one slab more than its counters say, and with
`list_end` elsewhere if the slab was the last of its list. -/
def ApiState.FreesStranger (σ : ApiState) (b : Buffer) (c : ℕ) (os' : Os)
    (pools' : List slab_pool) (w' : World) : Prop :=
  (σ.world.field (get_page_pointer b.ptr) .prev = NULL →
    SlabAllocator.sfree os' pools' b.ptr w' = .error (.segv 48))
  ∧ (σ.world.field (get_page_pointer b.ptr) .prev ≠ NULL → ∃ pools'' w'',
    SlabAllocator.sfree os' pools' b.ptr w' = .ok (pools'', w'')
      ∧ ∃ pool ∈ pools'', pool.allocation_size = c
        ∧ (w''.slabs pool).length + pool.data.shrink_count = pool.data.grow_count + 1
        ∧ (σ.world.field (get_page_pointer b.ptr) .next = NULL →
          pool.list_end ∉ w''.slabs pool))

/-- **`sfree`** of an object of before. -/
theorem AllocInv.sfree_reinit {vs' : List PoolView} {b : Buffer} {c : ℕ} (h : AllocInv w₀ σ vs)
    (hf : InitFresh σ.world os 0 cache_sizes.length) (hviews : Pools w' σ.world.mapped vs')
    (hbases : vs'.flatMap PoolView.bases = initPages os 0 cache_sizes.length)
    (hmem : ∀ a, pageOf (a % 2 ^ 64) ∉ initPages os 0 cache_sizes.length →
      w'.mem a = σ.world.mem a)
    (hnull : ¬ w'.Accessible NULL) (hb : b ∈ σ.live) (ho : b.origin = .slab c)
    (hc : c ∈ vs'.map fun v => v.shape.size) (os' : Os) :
    σ.FreesStranger b c os' (vs'.map PoolView.pool) w' := by
  obtain ⟨-, ⟨g, pool, xs⟩, hv, hvc, hp⟩ := h.live.slab b hb c ho
  obtain ⟨m, x, k, i, hxs, hi, hptr, hxb, -, hpage⟩ := h.views.object hv hp
  have hm : ∀ q ∈ σ.world.mapped, q ∈ w'.mapped := fun q hq =>
    hviews.mapped.mem_iff.mpr (List.mem_append_left _ hq)
  have hold := h.old_pool hf hm hmem hv
  obtain ⟨⟨g', pool', ys⟩, hu, huc⟩ := List.mem_map.mp hc
  obtain rfl : g' = g := Shape.eq_of_size (huc.trans hvc.symm)
  obtain ⟨l, r, rfl⟩ := List.append_of_mem hu
  have hnew := hviews.reps _ hu
  simp only at hvc hxs hi hptr hxb hold hnew
  -- no slab of the old list is in the new one
  have hdisj : ∀ q ∈ bases xs, q ∉ bases ys := by
    intro q hq hq'
    refine hf.not_mem (h.views.base hv hq).2.2.2 (hbases ▸ ?_)
    exact List.mem_flatMap.mpr ⟨_, hu, hq'⟩
  have hstr : Stranger w' g' (bases ys) x.base x.slots :=
    hold.stranger (by rw [hxs]; simp) hdisj
  have hlinks : ∀ f, w'.field x.base f = σ.world.field x.base f := by
    intro f
    exact field_congr fun a h1 h2 => h.old_page hf hmem hv hxb h1 (by omega)
  have hl : ∀ u ∈ l.map PoolView.pool, u.allocation_size ≠ g'.size := by
    intro u hu
    obtain ⟨y, hy, rfl⟩ := List.mem_map.mp hu
    rw [(hviews.reps y (by simp [hy])).allocation_size]
    have hdist := hviews.distinct
    rw [List.map_append, List.map_cons, List.nodup_append] at hdist
    exact hdist.2.2 _ (List.mem_map_of_mem hy) _ List.mem_cons_self
  unfold ApiState.FreesStranger
  rw [hpage, hptr, hstr.rep.sfree_eq hi, List.map_append, List.map_cons, ← hlinks,
    ← hlinks]
  constructor
  · intro hnil
    exact sfree_loop_fault hl hnew.allocation_size
      (slab_pool_deallocate_stranger_first hnew hstr hi hnil hnull)
  · intro hne
    obtain ⟨pool'', w'', hrun, hsize, hlen, hstop⟩ :=
      slab_pool_deallocate_stranger hnew hstr hi hne
    refine ⟨_, w'', sfree_loop_pool hl hnew.allocation_size hrun, pool'', by simp, ?_, hlen, hstop⟩
    rw [hsize, hnew.allocation_size, hvc]

end Reinit

/-! ## What it owes to the program -/

/-- The list of a pool is in order, and as long as its counters say. -/
structure World.ListOk (w : World) (pool : slab_pool) : Prop where
  links : w.WellLinked pool
  counters : pool.data.shrink_count ≤ pool.data.grow_count
  length : (w.slabs pool).length = pool.data.grow_count - pool.data.shrink_count

/-- The event succeeds and leaves the lists of all pools in order. -/
def ApiState.KeepsLists (σ : ApiState) (e : ApiEvent) : Prop :=
  ∃ σ', σ.exec 0 e = .ok σ' ∧ ∀ pool ∈ σ'.pools, σ'.world.ListOk pool

/-- A second initialisation loses nothing: every slab is in the list of the new pool of its
size, and the buffers can be freed and resized as before. -/
def ApiState.ReinitKeeps (σ : ApiState) (os : ℕ → Os) : Prop :=
  ∃ pools' w', smalloc_initialize os σ.world = .ok (pools', w')
    ∧ (∀ pool ∈ σ.pools, ∀ s ∈ σ.world.slabs pool, s ∈ σ.world.mapped →
        ∃ pool' ∈ pools', pool'.allocation_size = pool.allocation_size ∧ s ∈ w'.slabs pool')
    ∧ ∀ b ∈ σ.live, (∀ os', ApiState.KeepsLists ⟨w', pools', σ.live⟩ (.sfree os' b))
      ∧ ∀ os' n, ApiState.Granted ⟨w', pools', σ.live⟩ (.srealloc os' b n) →
          ApiState.KeepsLists ⟨w', pools', σ.live⟩ (.srealloc os' b n)

theorem PoolRep.listOk {w : World} {g : Shape} {size : ℕ} {pool : slab_pool}
    {xs : List (PoolSlab g.cap)} (h : PoolRep w g size pool xs) : w.ListOk pool := by
  have hlen := h.length
  refine ⟨h.wellLinked, by omega, ?_⟩
  rw [h.slabs_eq, bases, List.length_map]
  omega

/-- The new pools are in order, on pages that were not mapped before. -/
theorem reinitialised {σ : ApiState} {os : ℕ → Os}
    (hf : InitFresh σ.world os 0 cache_sizes.length) :
    ∃ pools' w', smalloc_initialize os σ.world = .ok (pools', w')
      ∧ (∀ pool ∈ pools', w'.ListOk pool ∧ ∀ s ∈ w'.slabs pool, s ∉ σ.world.mapped)
      ∧ ∀ {w₀ vs}, AllocInv w₀ σ vs → σ.Classes → σ.world.NullFree →
          ∀ b ∈ σ.live, ∀ c, b.origin = .slab c → ∀ os', σ.FreesStranger b c os' pools' w' := by
  obtain ⟨vs', w', hrun, hsizes, hviews, -, hbases, hheap, hmem⟩ := smalloc_initialize_spec hf
  refine ⟨_, w', hrun, fun pool hpool => ?_, fun {w₀ vs} h hσ hnull b hb c ho os' => ?_⟩
  · obtain ⟨v, hv, rfl⟩ := List.mem_map.mp hpool
    have hrep := hviews.reps v hv
    refine ⟨hrep.listOk, fun s hs hm => ?_⟩
    rw [hrep.slabs_eq] at hs
    exact hf.not_mem hm (hbases ▸ List.mem_flatMap.mpr ⟨v, hv, hs⟩)
  · -- the null page is still not there
    have hnull' : w'.NullFree := by
      refine ⟨fun hm => ?_, hheap ▸ hnull.2⟩
      rcases List.mem_append.mp (hviews.mapped.mem_iff.mp hm) with hm | hm
      · exact hnull.1 hm
      · obtain ⟨v, hv, hm⟩ := List.mem_flatMap.mp hm
        have := (hviews.base hv hm).2.1
        unfold NULL at this
        omega
    exact h.sfree_reinit hf hviews hbases hmem hnull'.not_accessible hb ho
      (hsizes ▸ hσ.origin b hb c ho) os'

/-- A list that has a slab loses it. -/
theorem not_reinitKeeps {σ : ApiState} {os : ℕ → Os} {pool : slab_pool}
    (hf : InitFresh σ.world os 0 cache_sizes.length) (hnull : σ.world.NullFree)
    (hpool : pool ∈ σ.pools) (hm : pool.list_start ∈ σ.world.mapped) : ¬ σ.ReinitKeeps os := by
  rintro ⟨pools', w', hrun, hkeep, -⟩
  obtain ⟨pools'', w'', hrun', hnew, -⟩ := reinitialised hf
  rw [hrun', Except.ok.injEq, Prod.mk.injEq] at hrun
  obtain ⟨rfl, rfl⟩ := hrun
  have hs : pool.list_start ∈ σ.world.slabs pool := by
    have hne : pool.list_start ≠ NULL := fun he => hnull.1 (he ▸ hm)
    rw [World.slabs, walk, if_neg hne]
    exact List.mem_cons_self
  obtain ⟨pool', hpool', -, hs'⟩ := hkeep pool hpool _ hs hm
  exact (hnew pool' hpool').2 _ hs' hm

/-- While the books are in order, every list has a slab. -/
theorem AllocInv.exists_slab {w₀ : World} {σ : ApiState} {vs : List PoolView}
    (h : AllocInv w₀ σ vs) (hσ : σ.Classes) :
    ∃ pool ∈ σ.pools, pool.list_start ∈ σ.world.mapped := by
  have hne : σ.pools ≠ [] := by
    intro he
    have hs := hσ.sizes
    rw [he] at hs
    exact absurd hs (by decide)
  obtain ⟨pool, rest, hp⟩ := List.exists_cons_of_ne_nil hne
  have hpool : pool ∈ σ.pools := by simp [hp]
  refine ⟨pool, hpool, ?_⟩
  rw [h.pools] at hpool
  obtain ⟨v, hv, rfl⟩ := List.mem_map.mp hpool
  have hlist := (h.views.reps v hv).list
  rw [hlist.start]
  exact (hlist.chain.page _ (headD_mem (bases_ne_nil hlist.nonempty))).1

/-- **A second initialisation** never keeps the slabs: in every run, no slab that was mapped is
in a list afterwards, so every list that had one lost it, as all have if the payload was kept
off the books. Then `sfree` of an object of before faults if the slab was the first of its old
list, and else leaves a list that is not in order. -/
theorem reinitialise_loses_slabs {w₀ : World} {t : List (ApiState × ApiEvent)} {σ : ApiState}
    {os : ℕ → Os} (hnull : ¬ w₀.Accessible NULL) (hrun : ApiRun 0 w₀ t σ)
    (hf : InitFresh σ.world os 0 cache_sizes.length)
    (hh : (∀ x ∈ t, x.1.Unfooled x.2 ∧ x.1.Apart x.2)
      ∨ ∃ pool ∈ σ.pools, pool.list_start ∈ σ.world.mapped) :
    ¬ σ.ReinitKeeps os
      ∧ ∃ pools' w', smalloc_initialize os σ.world = .ok (pools', w')
        ∧ (∀ pool ∈ pools', w'.ListOk pool ∧ ∀ s ∈ w'.slabs pool, s ∉ σ.world.mapped)
        ∧ ((∀ x ∈ t, x.1.Unfooled x.2 ∧ x.1.Apart x.2) → ∀ b ∈ σ.live, ∀ c,
            b.origin = .slab c → ∀ os', σ.FreesStranger b c os' pools' w') := by
  have hσ := hrun.classes
  have hfree := hrun.nullFree hnull
  constructor
  · obtain ⟨pool, hpool, hm⟩ : ∃ pool ∈ σ.pools, pool.list_start ∈ σ.world.mapped := by
      rcases hh with hok | hh
      · obtain ⟨vs, h⟩ := hrun.inv_apart hok
        exact h.exists_slab hσ
      · exact hh
    exact not_reinitKeeps hf hfree hpool hm
  · obtain ⟨pools', w', hrun', hnew, hstranger⟩ := reinitialised hf
    refine ⟨pools', w', hrun', hnew, fun hok => ?_⟩
    obtain ⟨vs, h⟩ := hrun.inv_apart hok
    exact hstranger h hσ hfree

/-- The answers of an operating system with room to a second initialisation. -/
def againOs (i : ℕ) : Os := ⟨2 ^ 30 + 40960 * i, 2 ^ 40, fun _ => 0⟩

theorem ApiState.Roomy.initFresh {σ : ApiState} (h : σ.Roomy) :
    InitFresh σ.world againOs 0 cache_sizes.length := by
  have hlen : cache_sizes.length = 6 := rfl
  have hos : ∀ i, (againOs i).mmap = 2 ^ 30 + 40960 * i := fun _ => rfl
  refine ⟨fun j _ hj => ?_, fun j j' _ hlt _ => .inl ?_⟩
  · rw [hlen] at hj
    rw [hos]
    refine ⟨?_, ?_, ?_, fun p hp => .inl ?_, by simp [h.heap]⟩
    · unfold SLAB_PAGE_SIZE
      omega
    · unfold SLAB_PAGE_SIZE
      omega
    · unfold SLAB_PAGE_SIZE POOL_START_SIZE
      omega
    · have := h.mapped p hp
      omega
  · rw [hos, hos]
    unfold POOL_START_SIZE SLAB_PAGE_SIZE
    omega

/-- The law with one object of 8 bytes alive: `sfree` of it faults. -/
theorem reinitialise_loses_slabs_8 : ∃ t σ b pools' w', ApiRun 0 World.empty t σ ∧ b ∈ σ.live
    ∧ b.origin = .slab 8 ∧ smalloc_initialize againOs σ.world = .ok (pools', w')
    ∧ sfree roomyOs pools' b.ptr w' = .error (.segv 48) := by
  obtain ⟨t, σ, b, hrun, hok, hb, ho, hroomy, hprev⟩ := exists_object_8
  obtain ⟨-, pools', w', hrun', -, hstranger⟩ :=
    reinitialise_loses_slabs not_accessible_empty hrun hroomy.initFresh (.inl hok)
  exact ⟨t, σ, b, pools', w', hrun, hb, ho, hrun', (hstranger hok b hb 8 ho roomyOs).1 hprev⟩

/-- With one object of 8 bytes alive, a second initialisation does not keep the slabs. -/
theorem not_reinitKeeps_8 : ∃ t σ b, ApiRun 0 World.empty t σ
    ∧ (∀ x ∈ t, x.1.Unfooled x.2 ∧ x.1.Apart x.2) ∧ b ∈ σ.live ∧ b.origin = .slab 8
    ∧ InitFresh σ.world againOs 0 cache_sizes.length ∧ ¬ σ.ReinitKeeps againOs := by
  obtain ⟨t, σ, b, hrun, hok, hb, ho, hroomy, -⟩ := exists_object_8
  obtain ⟨vs, h⟩ := hrun.inv_apart hok
  obtain ⟨pool, hpool, hm⟩ := h.exists_slab hrun.classes
  refine ⟨t, σ, b, hrun, hok, hb, ho, hroomy.initFresh, ?_⟩
  exact not_reinitKeeps hroomy.initFresh (hrun.nullFree not_accessible_empty) hpool hm

end SlabAllocator
