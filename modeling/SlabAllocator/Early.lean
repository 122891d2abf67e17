/-
Calls before `smalloc_initialize`.

The function is a constructor, and other constructors may run before it. Until it
has run, the array of pools is what the loader made it: zero. No pool has slots
large enough for anything, so a request goes to `malloc`, and what comes back is
a chunk. The allocator without pools does the same (`exec_uninitialised`), so its
lemmas serve for this phase. The function itself maps pages that no chunk lies
in, and the buffers of the first phase are buffers of the second
(`AllocInv.initialise`); to a client there is one heap of blocks from the first
call on, and the constructor does not show in it.
-/
import SlabAllocator.Contents

set_option autoImplicit false

open Runs
open BlockHeap (Heap)

namespace SlabAllocator

/-! ## The array before the constructor -/

/-- A pool that is all zeros. -/
def zero_pool : slab_pool := ⟨0, 0, 0, ⟨0, 0, 0⟩, ⟨0, 0, 0, 0⟩⟩

/-- `pools` before `smalloc_initialize`. -/
def uninitialised : List slab_pool := List.replicate cache_sizes.length zero_pool

section Calls

variable {os : Os} {w w' : World} {n p ptr shift k : ℕ} {pools : List slab_pool}

/-- Pools without slots are passed over. -/
theorem smalloc_zero_pools (hn : 1 ≤ n) (h : smalloc os [] n w = .ok (([], p), w')) :
    smalloc os (List.replicate k zero_pool) n w = .ok ((List.replicate k zero_pool, p), w') := by
  induction k with
  | zero => exact h
  | succ k ih =>
      have hsmall : ¬ n ≤ zero_pool.allocation_size := by
        change ¬ n ≤ 0
        omega
      rw [List.replicate_succ, smalloc, if_neg hsmall, bind_ok ih]
      rfl

theorem originOf_zero_pools (hn : 1 ≤ n) :
    w.originOf (List.replicate k zero_pool) p n = w.originOf [] p n := by
  have hnone : (List.replicate k zero_pool).find? (fun pool => n ≤ pool.allocation_size)
      = none := by
    refine List.find?_eq_none.mpr fun pool hpool => ?_
    rw [List.eq_of_mem_replicate hpool]
    change ¬ decide (n ≤ 0) = true
    rw [decide_eq_true_eq]
    omega
  rw [World.originOf, World.originOf, hnone]
  rfl

/-- A chunk is released whatever the pools are. -/
theorem sfree_chunk {qs qs' : List slab_pool}
    (hmagic : w.field (get_page_pointer ptr) .slab_magic ≠ SLAB_MAGIC_NUMBER)
    (h : sfree os qs ptr w = .ok (qs', w')) :
    qs' = qs ∧ sfree os pools ptr w = .ok (pools, w') := by
  unfold sfree at h ⊢
  obtain ⟨m, w₁, hget, -⟩ := bind_eq_ok h
  have hm := slab_get_inv (k := fun m => (pure m : M ℕ)) (bind_ok hget)
  rw [pure_run, Except.ok.injEq, Prod.mk.injEq] at hm
  obtain ⟨hm, hw⟩ := hm
  rw [hm] at hmagic
  rw [bind_ok hget, if_pos hmagic, ← hw] at h
  rw [bind_ok hget, if_pos hmagic, ← hw]
  obtain ⟨u, w₂, hfree, hpure⟩ := bind_eq_ok h
  cases hpure
  exact ⟨rfl, by rw [bind_ok hfree]; rfl⟩

/-- A chunk is resized whatever the pools are. -/
theorem srealloc_chunk {qs qs' : List slab_pool} (hnull : ptr ≠ NULL)
    (hmagic : w.field (get_page_pointer ptr) .slab_magic ≠ SLAB_MAGIC_NUMBER)
    (h : srealloc os shift qs ptr n w = .ok ((qs', p), w')) :
    qs' = qs ∧ srealloc os shift pools ptr n w = .ok ((pools, p), w') := by
  unfold srealloc at h ⊢
  rw [if_neg hnull] at h ⊢
  obtain ⟨m, w₁, hget, -⟩ := bind_eq_ok h
  have hm := slab_get_inv (k := fun m => (pure m : M ℕ)) (bind_ok hget)
  rw [pure_run, Except.ok.injEq, Prod.mk.injEq] at hm
  obtain ⟨hm, hw⟩ := hm
  rw [hm] at hmagic
  rw [bind_ok hget, if_pos hmagic, ← hw] at h
  rw [bind_ok hget, if_pos hmagic, ← hw]
  obtain ⟨q, w₂, hrealloc, hpure⟩ := bind_eq_ok h
  cases hpure
  exact ⟨rfl, by rw [bind_ok hrealloc]; rfl⟩

end Calls

/-! ## The first phase -/

section Phase

variable {w₀ w : World} {live : List Buffer} {σ σ₁ : ApiState} {e : ApiEvent} {shift : ℕ}

/-- Without pools every buffer is a chunk. -/
theorem AllocInv.system_of_nil (h : AllocInv w₀ ⟨w, [], live⟩ []) {b : Buffer} (hb : b ∈ live) :
    b.origin = .system := by
  rcases ho : b.origin with _ | c
  · rfl
  · obtain ⟨-, v, hv, -⟩ := h.live.slab b hb c ho
    cases hv

/-- Pools that are all zeros do what no pools do. -/
theorem exec_uninitialised (h : AllocInv w₀ ⟨w, [], live⟩ [])
    (hg : ApiState.Granted ⟨w, [], live⟩ e) (hu : ApiState.Unfooled ⟨w, [], live⟩ e)
    (he : ApiState.exec shift ⟨w, [], live⟩ e = .ok σ₁) : σ₁.pools = []
      ∧ ApiState.exec shift ⟨w, uninitialised, live⟩ e
        = .ok ⟨σ₁.world, uninitialised, σ₁.live⟩ := by
  cases e with
  | smalloc os n =>
      obtain ⟨w', hrun, -⟩ := h.smalloc_heap os (by simp) hg.2.2
      rw [ApiState.exec, hrun] at he
      cases he
      refine ⟨rfl, ?_⟩
      rw [ApiState.exec, uninitialised, smalloc_zero_pools hg.1 hrun]
      change Except.ok _ = Except.ok _
      rw [originOf_zero_pools hg.1]
  | srealloc os b n =>
      have hb : b ∈ live := hg.1
      have hlow := (h.bounds hb).1
      have hnull : b.ptr ≠ NULL := by
        unfold NULL
        omega
      obtain ⟨⟨⟨qs, q⟩, w'⟩, hrun, hok⟩ := except_bind_eq_ok he
      obtain ⟨rfl, hrun'⟩ := srealloc_chunk hnull
        (hu (h.system_of_nil hb)) hrun
      cases hok
      refine ⟨rfl, ?_⟩
      rw [ApiState.exec, hrun']
      change Except.ok _ = Except.ok _
      rw [uninitialised, originOf_zero_pools hg.2.1]
  | sfree os b =>
      obtain ⟨⟨qs, w'⟩, hrun, hok⟩ := except_bind_eq_ok he
      obtain ⟨rfl, hrun'⟩ := sfree_chunk
        (hu (h.system_of_nil hg)) hrun
      cases hok
      refine ⟨rfl, ?_⟩
      rw [ApiState.exec, hrun']
      rfl
  | write a x =>
      cases he
      exact ⟨rfl, rfl⟩

/-- Without pools no step stores payload in a slab. -/
theorem apart_of_nil (h : AllocInv w₀ ⟨w, [], live⟩ []) (hg : ApiState.Granted ⟨w, [], live⟩ e) :
    ApiState.Apart ⟨w, [], live⟩ e := by
  cases e with
  | smalloc os n => trivial
  | srealloc os b n =>
      intro c hc
      rw [h.system_of_nil hg.1] at hc
      cases hc
  | sfree os b => trivial
  | write a x =>
      intro pool hpool
      cases hpool

/-- What holds before the constructor ran: the pools are zero, and the allocator without pools
is in order. -/
structure EarlyInv (w₀ : World) (shift : ℕ) (σ : ApiState) (h : Heap UInt8) : Prop where
  pools : σ.pools = uninitialised
  inv : AllocInv w₀ ⟨σ.world, [], σ.live⟩ []
  contents : Contents shift σ h

/-- **One early step** succeeds and is a step of the heap. -/
theorem EarlyInv.step {h : Heap UInt8} (hi : EarlyInv w₀ shift σ h) (hg : σ.Granted e)
    (hu : σ.Unfooled e) (hs : shift = 2 ^ 64 ∨ shift = 0) : ∃ σ' h', σ.exec shift e = .ok σ'
      ∧ BlockHeap.Step h (e.op σ') h' ∧ EarlyInv w₀ shift σ' h' := by
  obtain ⟨w, pools, live⟩ := σ
  obtain rfl : pools = uninitialised := hi.pools
  have hinv := hi.inv
  have hg' : ApiState.Granted ⟨w, [], live⟩ e := by
    cases e <;> exact hg
  have hu' : ApiState.Unfooled ⟨w, [], live⟩ e := by
    cases e <;> exact hu
  have hR : Contents shift ⟨w, [], live⟩ h := ⟨hi.contents.blocks, hi.contents.known⟩
  obtain ⟨σ₁, vs', h', hexec, hinv', hstep, hR'⟩ :=
    hR.step hinv hg' hu' (hs.imp id fun hs => ⟨hs, apart_of_nil hinv hg'⟩)
  obtain ⟨hnil, hexec'⟩ := exec_uninitialised hinv hg' hu' hexec
  obtain ⟨w', pools', live'⟩ := σ₁
  obtain rfl : pools' = [] := hnil
  obtain rfl : vs' = [] := List.map_eq_nil_iff.mp hinv'.pools.symm
  have hop : e.op ⟨w', uninitialised, live'⟩ = e.op ⟨w', [], live'⟩ := by
    cases e <;> rfl
  refine ⟨_, h', hexec', ?_, rfl, hinv', ⟨hR'.blocks, hR'.known⟩⟩
  rw [hop]
  exact hstep

end Phase

/-! ## The constructor -/

section Constructor

variable {w₀ w w' : World} {live : List Buffer} {os : ℕ → Os} {σ σ' : ApiState}
  {t t' : List (ApiState × ApiEvent)} {shift : ℕ}

end Constructor

end SlabAllocator
