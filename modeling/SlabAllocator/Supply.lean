/-
Which slots a pool hands out next, and when it grows.

An allocation looks at the first slab and at the one after it. So what the next
allocations answer can be read off the list: the free slots of the first slab,
then those of the slabs behind it, in order, up to the first full one; and the
pool grows when they are used up (`supply`). Slabs with room behind a full one
do not count. A release that keeps its slab puts the slab in front, so the slot
released is the next one to be handed out, with one exception: the slot that has
been busy longest goes behind the free slots of its slab.
-/
import SlabAllocator.PoolLaws
import SlabAllocator.SlabRuns

set_option autoImplicit false

open Runs

namespace SlabAllocator

/-! ## The slots within reach -/

section Supply

variable {n a b f : ℕ} {xs ys r : List (PoolSlab n)} {x y : PoolSlab n}

end Supply

/-! ## Allocations in a row -/

section Row

variable {w₀ : World} {g : Shape} {size : ℕ} {σ σ' : PoolState} {xs : List (PoolSlab g.cap)}
  {t : List (PoolState × PoolEvent)}

end Row

/-- **What is released is handed out next.** In every state of every run, when a release does
not unmap its slab, the allocation after it answers the same pointer without asking the kernel,
unless the slot was busy longest in its slab and the slab has another free slot. -/
theorem release_then_allocate {size : ℕ} {w₀ : World} {t : List (PoolState × PoolEvent)}
    {σ : PoolState} {p : ℕ} (h2 : 2 ≤ num_buffers (int_of_size_t size))
    (hrun : PoolRun size w₀ t σ) (hp : p ∈ σ.live) (hk : ¬ σ.Releases p) :
    ∃ F B i, FreeList σ.world (get_page_pointer p) (num_buffers (int_of_size_t size)) F B
      ∧ i ∈ B ∧ p = σ.world.slotPtr (get_page_pointer p) i
      ∧ ∃ pool₁ w₁, slab_pool_deallocate σ.pool p σ.world = .ok (pool₁, w₁)
        ∧ ∀ os, ∃ pool₂ q w₂, slab_pool_allocate os pool₁ w₁ = .ok ((pool₂, q), w₂)
          ∧ w₂.calls = w₁.calls ∧ (q = p ↔ ¬ (B.head? = some i ∧ F ≠ [])) := by
  obtain ⟨xs, hi⟩ := hrun.inv h2
  obtain ⟨l, x, r, i, pool₁, w₁, rfl, hib, rfl, hok, hi', -⟩ := hi.deallocate hp
  have hr := hi.rep.list.slabs x (by simp)
  have hd : ¬ Drops x (l ++ r) i := fun hd => hk ((releases_iff hi hib).mpr hd)
  rw [deallocate_eq hi.rep.list.nodup, if_neg hd] at hi'
  rw [page_of_slot hi hib]
  refine ⟨x.slots.free, x.slots.busy, i, hr.freeList, hib, (hr.slotPtr_eq i).symm, pool₁, w₁, hok,
    fun os => ?_⟩
  -- the slab is in front, and has the room that was made
  obtain ⟨f, F, hF⟩ : ∃ f F, (x.slots.dealloc i).free = f :: F := by
    by_cases hh : x.slots.busy.head? = some i
    · have hcons : i :: x.slots.busy.tail = x.slots.busy := List.cons_head?_tail hh
      rw [(Slots.dealloc_head hcons.symm).1]
      exact List.exists_cons_of_ne_nil (by simp)
    · rw [(Slots.dealloc_other hib hh).1]
      exact ⟨i, _, rfl⟩
  have hroom : ¬ FirstFull (⟨x.base, x.slots.dealloc i⟩ :: (l ++ r)) := by
    intro hfull
    have hnil : (x.slots.dealloc i).free = [] := hfull _ rfl
    rw [hF] at hnil
    cases hnil
  have hg : ¬ Grows (⟨x.base, x.slots.dealloc i⟩ :: (l ++ r)) := fun hg => hroom hg.1
  obtain ⟨b, j, ys, pool₂, w₂, hok₂, ha, -, hc⟩ :=
    hi'.allocate h2 os fun hgrow => absurd hgrow hg
  rw [if_neg hg] at hc
  refine ⟨pool₂, _, w₂, hok₂, hc, ?_⟩
  rw [SlabAllocator.allocate, arrange, if_neg hroom] at ha
  obtain ⟨z, zs, s', he, rfl, halloc, -⟩ := serve_some ha
  cases he
  have hj : (x.slots.dealloc i).free = j :: s'.free := (Slots.alloc_some halloc).1
  have hslot : (Shape.of (int_of_size_t size) (Nat.le_of_succ_le h2)).slot x.base j
      = (Shape.of (int_of_size_t size) (Nat.le_of_succ_le h2)).slot x.base i ↔ j = i :=
    ⟨fun he => Shape.slot_inj _ he, fun he => by rw [he]⟩
  rw [hslot]
  by_cases hh : x.slots.busy.head? = some i
  · have hcons : i :: x.slots.busy.tail = x.slots.busy := List.cons_head?_tail hh
    rw [(Slots.dealloc_head hcons.symm).1] at hj
    rcases hfree : x.slots.free with _ | ⟨k, K⟩
    · rw [hfree, List.nil_append] at hj
      obtain rfl := (List.cons.inj hj).1
      simp
    -- the slots that were free come first, and the one released is none of them
    · rw [hfree, List.cons_append] at hj
      obtain rfl := (List.cons.inj hj).1
      have hne : k ≠ i := fun he =>
        Slots.not_mem_busy (s := x.slots) (by rw [hfree]; exact List.mem_cons_self) (he ▸ hib)
      simp [hh, hne]
  · rw [(Slots.dealloc_other hib hh).1] at hj
    obtain rfl := (List.cons.inj hj).1
    simp [hh]

/-- Two objects of 256 bytes, the first of which is released. -/
theorem release_then_allocate_256 : 2 ≤ num_buffers (int_of_size_t 256) ∧
    ∃ t σ p, PoolRun 256 World.empty t σ ∧ p ∈ σ.live ∧ ¬ σ.Releases p
      ∧ ∃ pool₁ w₁, slab_pool_deallocate σ.pool p σ.world = .ok (pool₁, w₁)
        ∧ ∀ os, ∃ r, slab_pool_allocate os pool₁ w₁ = .ok r := by
  obtain ⟨t, σ, xs, hrun, hi, x, hx, hbusy⟩ := exists_run_of_history capacity_256
    (allocations 2) (fun xs => ∃ x ∈ xs.head?, x.slots.busy = [0, 1]) (by decide +kernel)
  obtain ⟨rest, rfl⟩ := List.head?_eq_some_iff.mp hx
  have hib : 0 ∈ x.slots.busy := by
    rw [hbusy]
    exact List.mem_cons_self
  have hp : (Shape.of (int_of_size_t 256) (Nat.le_of_succ_le capacity_256)).slot x.base 0
      ∈ σ.live := hi.live.mem_iff.mpr
    (List.mem_flatMap.mpr ⟨x, List.mem_cons_self, List.mem_map_of_mem hib⟩)
  have hk : ¬ σ.Releases _ := fun hk => by
    have hone := (dealloc_busy_eq_nil hib).mp ((releases_iff (l := []) hi hib).mp hk).1
    rw [hbusy] at hone
    cases hone
  obtain ⟨F, B, i, -, -, -, pool₁, w₁, hok, hnext⟩ := release_then_allocate capacity_256 hrun hp hk
  refine ⟨capacity_256, t, σ, _, hrun, hp, hk, pool₁, w₁, hok, fun os => ?_⟩
  obtain ⟨pool₂, q, w₂, hok₂, -⟩ := hnext os
  exact ⟨_, hok₂⟩

end SlabAllocator
