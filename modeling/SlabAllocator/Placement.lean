/-
Where the kernel puts a mapping makes no difference.

A pool compares addresses only to tell its slabs apart: the order of its list is
one of time, and a slot is an index. So two pools of one size that are asked the
same, in processes whose kernels give different addresses, do the same: slab for
slab they hand out the same slots, keep the same free lists, and call the kernel
at the same moments. What the program asks is the same when it releases the
pointer at the same place of the list of pointers it holds; the pointers
themselves differ.

The operations of the model commute with a change of addresses (`relocate`), as
long as no two slabs come to one page.
-/
import SlabAllocator.PoolLaws
import SlabAllocator.SlabRuns
import Mathlib.Data.List.Forall2

set_option autoImplicit false

open Runs

namespace SlabAllocator

/-! ## The model at another place -/

/-- The slab at the place `f` says. -/
def PoolSlab.relocate {n : ℕ} (f : ℕ → ℕ) (x : PoolSlab n) : PoolSlab n := ⟨f x.base, x.slots⟩

/-- The slabs at the places `f` says. -/
def relocate {n : ℕ} (f : ℕ → ℕ) (xs : List (PoolSlab n)) : List (PoolSlab n) :=
  xs.map (PoolSlab.relocate f)

/-- The places of the slabs once a mapping at `a` has been made at `a'` instead. -/
def placed (a a' : ℕ) (f : ℕ → ℕ) (b : ℕ) : ℕ :=
  if b ∈ pages a POOL_GROW_RATE then b - a + a' else f b

section Model

variable {n a a' b j i : ℕ} {f f' : ℕ → ℕ} {xs ys l r : List (PoolSlab n)} {x : PoolSlab n}

theorem bases_relocate : bases (relocate f xs) = (bases xs).map f := by
  rw [bases, bases, relocate, List.map_map, List.map_map]
  rfl

theorem relocate_append : relocate f (xs ++ ys) = relocate f xs ++ relocate f ys :=
  List.map_append

theorem relocate_split :
    relocate f (l ++ x :: r) = relocate f l ++ x.relocate f :: relocate f r := List.map_append

theorem relocate_congr (h : ∀ b ∈ bases xs, f' b = f b) : relocate f' xs = relocate f xs := by
  apply List.map_congr_left
  intro x hx
  rw [PoolSlab.relocate, PoolSlab.relocate, h x.base (List.mem_map_of_mem hx)]

theorem firstFull_relocate : FirstFull (relocate f xs) ↔ FirstFull xs := by
  rcases xs with _ | ⟨x, xs⟩
  · rfl
  · simp [relocate, FirstFull, PoolSlab.relocate, PoolSlab.Full]

theorem rotate_relocate (k : ℕ) : (relocate f xs).rotate k = relocate f (xs.rotate k) :=
  (List.map_rotate _ _ _).symm

theorem grows_relocate : Grows (relocate f xs) ↔ Grows xs := by
  rw [Grows, Grows, rotate_relocate, firstFull_relocate, firstFull_relocate]

/-- New slabs at the place they are given. -/
theorem relocate_fresh : relocate (placed a a' f) ((pages a POOL_GROW_RATE).map (PoolSlab.fresh n))
    = (pages a' POOL_GROW_RATE).map (PoolSlab.fresh n) := by
  rw [relocate, pages, pages, List.map_map, List.map_map, List.map_map]
  apply List.map_congr_left
  intro k hk
  have hmem : a + k * SLAB_PAGE_SIZE ∈ pages a POOL_GROW_RATE := List.mem_map_of_mem hk
  change (⟨placed a a' f (a + k * SLAB_PAGE_SIZE), Slots.init n⟩ : PoolSlab n)
    = ⟨a' + k * SLAB_PAGE_SIZE, Slots.init n⟩
  rw [placed, if_pos hmem, Nat.add_sub_cancel_left, Nat.add_comm]

theorem arrange_relocate (hf : ∀ b ∈ bases xs, b ∉ pages a POOL_GROW_RATE) :
    arrange a' (relocate f xs) = relocate (placed a a' f) (arrange a xs) := by
  have hold : ∀ b ∈ bases xs, placed a a' f b = f b := fun b hb => if_neg (hf b hb)
  have hrotate : ∀ k, relocate (placed a a' f) (xs.rotate k) = relocate f (xs.rotate k) := by
    intro k
    apply relocate_congr
    intro b hb
    exact hold b (((List.rotate_perm xs k).map PoolSlab.base).mem_iff.mp hb)
  by_cases h₁ : FirstFull xs
  · by_cases h₂ : FirstFull (xs.rotate 1)
    · rw [arrange_of_grows _ (grows_relocate.mpr ⟨h₁, h₂⟩), arrange_of_grows _ ⟨h₁, h₂⟩,
        relocate_append, relocate_fresh, hrotate, rotate_relocate]
    · rw [arrange, if_pos (firstFull_relocate.mpr h₁), rotate_relocate,
        if_neg (mt firstFull_relocate.mp h₂), arrange, if_pos h₁, if_neg h₂, hrotate]
  · rw [arrange, if_neg (mt firstFull_relocate.mp h₁), arrange, if_neg h₁, relocate_congr hold]

/-- **An allocation at another place** hands out the same slot of the same slab. -/
theorem allocate_relocate (hf : ∀ b ∈ bases xs, b ∉ pages a POOL_GROW_RATE)
    (h : allocate a xs = some (b, j, ys)) :
    allocate a' (relocate f xs) = some (placed a a' f b, j, relocate (placed a a' f) ys) := by
  obtain ⟨x, rest, s', hx, rfl, halloc, rfl⟩ := serve_some h
  have hhead : relocate (placed a a' f) (x :: rest)
      = x.relocate (placed a a' f) :: relocate (placed a a' f) rest := rfl
  rw [allocate, arrange_relocate hf, hx, hhead, serve]
  change x.slots.alloc.map _ = _
  rw [halloc]
  rfl

theorem drops_relocate : Drops (x.relocate f) (relocate f xs) i ↔ Drops x xs i := by
  unfold Drops
  rw [relocate, List.length_map, ne_eq, List.map_eq_nil_iff]
  rfl

/-- **A release at another place.** -/
theorem deallocate_relocate (hnd : (bases (l ++ x :: r)).Nodup)
    (hnd' : (bases (relocate f (l ++ x :: r))).Nodup) :
    deallocate (f x.base) i (relocate f (l ++ x :: r))
      = relocate f (deallocate x.base i (l ++ x :: r)) := by
  rw [relocate_split] at hnd' ⊢
  change deallocate (x.relocate f).base i _ = _
  rw [deallocate_eq hnd', deallocate_eq hnd]
  by_cases hd : Drops x (l ++ r) i
  · rw [if_pos hd, ← relocate_append, if_pos (drops_relocate.mpr hd)]
  · rw [if_neg hd, ← relocate_append, if_neg (mt drops_relocate.mp hd)]
    rfl

end Model

/-! ## Two pools -/

/-- The program asks the same of two pools: it allocates, or it releases the pointer at the same
place of its list. -/
inductive SameRequest : PoolState × PoolEvent → PoolState × PoolEvent → Prop
  | allocate {σ σ' : PoolState} {os os' : Os} : SameRequest (σ, .allocate os) (σ', .allocate os')
  | deallocate {σ σ' : PoolState} {k p p' : ℕ} (h : σ.live[k]? = some p)
      (h' : σ'.live[k]? = some p') : SameRequest (σ, .deallocate p) (σ', .deallocate p')

/-- Two pools are in the same state but for the addresses: `f` takes the slabs of the one to
those of the other, and `L` names the slab and the slot of each pointer. -/
structure Alike (w₀ w₀' : World) (g : Shape) (size : ℕ) (xs : List (PoolSlab g.cap)) (f : ℕ → ℕ)
    (L : List (ℕ × ℕ)) (σ σ' : PoolState) : Prop where
  inv : PoolInv w₀ g size σ xs
  inv' : PoolInv w₀' g size σ' (relocate f xs)
  places : ∀ z ∈ L, z.1 % 4096 = 0 ∧ z.2 < g.cap
  live : σ.live = L.map fun z => g.slot z.1 z.2
  live' : σ'.live = L.map fun z => g.slot (f z.1) z.2

section Pools

variable {w₀ w₀' : World} {g : Shape} {size k : ℕ} {xs : List (PoolSlab g.cap)} {f : ℕ → ℕ}
  {L : List (ℕ × ℕ)} {z : ℕ × ℕ} {σ σ' s s' : PoolState} {e e' : PoolEvent}

theorem PoolInv.nodup_live (h : PoolInv w₀ g size σ xs) : σ.live.Nodup :=
  h.live.nodup_iff.mpr h.rep.list.nodup_busyPtrs

/-- Releasing a pointer takes it out at its place. -/
theorem PoolInv.erase_eq (h : PoolInv w₀ g size σ xs) {p : ℕ} (hk : σ.live[k]? = some p) :
    σ.live.erase p = σ.live.eraseIdx k := by
  obtain ⟨hlt, rfl⟩ := List.getElem?_eq_some_iff.mp hk
  exact h.nodup_live.erase_getElem k hlt

/-- The slab a pointer is in, given its place. -/
theorem PoolInv.split (h : PoolInv w₀ g size σ xs) (hz : z.1 % 4096 = 0 ∧ z.2 < g.cap)
    (hlive : g.slot z.1 z.2 ∈ σ.live) :
    ∃ l x r, xs = l ++ x :: r ∧ x.base = z.1 ∧ z.2 ∈ x.slots.busy := by
  obtain ⟨l, x, r, i, rfl, hi, he⟩ := mem_busyPtrs (h.live.mem_iff.mp hlive)
  have hx := (h.rep.list.slabs x (by simp)).page.2
  obtain ⟨hb, rfl⟩ := g.slot_page_inj hz.1 hx hz.2 (Slots.busy_lt hi) he
  exact ⟨l, x, r, rfl, hb.symm, hi⟩

/-- The release of a slot whose slab is known. -/
theorem PoolInv.deallocate_at {l r : List (PoolSlab g.cap)} {x : PoolSlab g.cap} {i : ℕ}
    (h : PoolInv w₀ g size σ (l ++ x :: r)) (hi : i ∈ x.slots.busy) : ∃ pool w,
      slab_pool_deallocate σ.pool (g.slot x.base i) σ.world = .ok (pool, w)
      ∧ PoolInv w₀ g size ⟨w, pool, σ.live.erase (g.slot x.base i)⟩
        (SlabAllocator.deallocate x.base i (l ++ x :: r)) := by
  have hp : g.slot x.base i ∈ σ.live := by
    apply h.live.mem_iff.mpr
    exact List.mem_flatMap.mpr ⟨x, by simp, List.mem_map_of_mem hi⟩
  have hal : ∀ y ∈ l ++ x :: r, y.base % 4096 = 0 := fun y hy => (h.rep.list.slabs y hy).page.2
  obtain ⟨l', y, r', j, pool, w, hxs, hj, he, hrun, hi', -⟩ := h.deallocate hp
  obtain ⟨hb, rfl⟩ := g.slot_page_inj (hal x (by simp)) (hal y (by simp [hxs])) (Slots.busy_lt hi)
    (Slots.busy_lt hj) he
  rw [← hb] at hi'
  exact ⟨pool, w, hrun, hi'⟩

/-- A new mapping is apart from the slabs there are. -/
theorem PoolInv.not_mem_pages {os : Os} (h : PoolInv w₀ g size σ xs)
    (hf : MmapFresh σ.world os.mmap POOL_GROW_RATE) :
    ∀ b ∈ bases xs, b ∉ pages os.mmap POOL_GROW_RATE := by
  intro b hb hm
  obtain ⟨i, hi, rfl⟩ := mem_pages.mp hm
  have hout := hf.mapped _ (h.mapped.mem_iff.mpr (List.mem_append_right _ hb))
  unfold SLAB_PAGE_SIZE at hout
  omega

/-- The page of a place is one of the slabs. -/
theorem Alike.mem_bases (h : Alike w₀ w₀' g size xs f L σ σ') (hz : z ∈ L) : z.1 ∈ bases xs := by
  have hlive : g.slot z.1 z.2 ∈ σ.live := by
    rw [h.live]
    exact List.mem_map_of_mem hz
  obtain ⟨l, x, r, rfl, hb, -⟩ := h.inv.split (h.places z hz) hlive
  rw [← hb]
  exact List.mem_map_of_mem (by simp)

/-- The pointers at one place of the two lists are the slot that `L` names there. -/
theorem Alike.getElem? (h : Alike w₀ w₀' g size xs f L σ σ') {p p' : ℕ}
    (hp : σ.live[k]? = some p) (hp' : σ'.live[k]? = some p') :
    ∃ z ∈ L, p = g.slot z.1 z.2 ∧ p' = g.slot (f z.1) z.2 := by
  rw [h.live, List.getElem?_map, Option.map_eq_some_iff] at hp
  rw [h.live', List.getElem?_map, Option.map_eq_some_iff] at hp'
  obtain ⟨z, hz, rfl⟩ := hp
  obtain ⟨z', hz', rfl⟩ := hp'
  rw [hz, Option.some.injEq] at hz'
  exact ⟨z, List.mem_of_getElem? hz, rfl, by rw [hz']⟩

/-- An allocation is made while memory is granted. -/
theorem PoolStep.fresh {os : Os} (hs : PoolStep σ (.allocate os) s) :
    MmapFresh σ.world os.mmap POOL_GROW_RATE := by
  cases hs with
  | allocate hfresh => exact hfresh

/-- An allocation leads to the state its result says. -/
theorem PoolStep.eq_allocate {os : Os} {pool : slab_pool} {p : ℕ} {w : World}
    (hs : PoolStep σ (.allocate os) s)
    (hrun : slab_pool_allocate os σ.pool σ.world = .ok ((pool, p), w)) :
    s = ⟨w, pool, p :: σ.live⟩ := by
  cases hs with
  | allocate hfresh hok =>
      rw [hok] at hrun
      cases hrun
      rfl

/-- A release leads to the state its result says. -/
theorem PoolStep.eq_deallocate {pool : slab_pool} {p : ℕ} {w : World}
    (hs : PoolStep σ (.deallocate p) s)
    (hrun : slab_pool_deallocate σ.pool p σ.world = .ok (pool, w)) :
    s = ⟨w, pool, σ.live.erase p⟩ := by
  cases hs with
  | deallocate hlive hok =>
      rw [hok] at hrun
      cases hrun
      rfl

/-- **One request** to two pools that are alike leaves them alike. -/
theorem Alike.step (h2 : 2 ≤ g.cap) (h : Alike w₀ w₀' g size xs f L σ σ')
    (hm : SameRequest (σ, e) (σ', e')) (hs : PoolStep σ e s) (hs' : PoolStep σ' e' s') :
    ∃ ys f' L', Alike w₀ w₀' g size ys f' L' s s' := by
  cases hm with
  | @allocate _ _ os os' =>
      obtain ⟨b, j, ys, q, v, hrun, ha, hi, -⟩ := h.inv.allocate h2 os fun _ => hs.fresh
      obtain ⟨b', j', ys', q', v', hrun', ha', hi', -⟩ := h.inv'.allocate h2 os' fun _ => hs'.fresh
      rw [hs.eq_allocate hrun, hs'.eq_allocate hrun']
      have hoff := h.inv.not_mem_pages hs.fresh
      rw [allocate_relocate hoff ha] at ha'
      cases ha'
      obtain ⟨x, hx, rfl, hj⟩ := mem_allocate ha
      refine ⟨ys, placed os.mmap os'.mmap f, (x.base, j) :: L, hi, hi', ?_, ?_, ?_⟩
      · intro z hz
        rcases List.mem_cons.mp hz with rfl | hz
        · exact ⟨(hi.rep.list.slabs x hx).page.2, Slots.busy_lt hj⟩
        · exact h.places z hz
      · rw [List.map_cons, ← h.live]
      · rw [List.map_cons, h.live']
        refine congrArg (List.cons _) (List.map_congr_left fun z hz => ?_)
        rw [placed, if_neg (hoff z.1 (h.mem_bases hz))]
  | @deallocate _ _ k _ _ hk hk' =>
      obtain ⟨⟨b, i⟩, hz, rfl, rfl⟩ := h.getElem? hk hk'
      obtain ⟨l, x, r, rfl, rfl, hi⟩ := h.inv.split (h.places _ hz) (List.mem_of_getElem? hk)
      have hinv' := h.inv'
      rw [relocate_split] at hinv'
      have hbase : (x.relocate f).base = f x.base := rfl
      obtain ⟨q, v, hrun, hi₁⟩ := h.inv.deallocate_at hi
      obtain ⟨q', v', hrun', hi₁'⟩ := hinv'.deallocate_at hi
      rw [hbase] at hrun' hi₁'
      rw [← relocate_split, deallocate_relocate h.inv.rep.list.nodup h.inv'.rep.list.nodup] at hi₁'
      rw [hs.eq_deallocate hrun, hs'.eq_deallocate hrun']
      refine ⟨_, f, L.eraseIdx k, hi₁, hi₁', ?_, ?_, ?_⟩
      · intro z hz
        exact h.places z (List.mem_of_mem_eraseIdx hz)
      · change σ.live.erase _ = _
        rw [h.inv.erase_eq hk, h.live]
        exact List.eraseIdx_map _ L k
      · change σ'.live.erase _ = _
        rw [h.inv'.erase_eq hk', h.live']
        exact List.eraseIdx_map _ L k

end Pools

/-! ## What the program sees -/

/-- Two pools of slabs with `n` slots show the same but for the addresses: slab for slab the
same slots in the same order, and pointer for pointer the same slot of the same slab; and both
would call the kernel for the same requests. -/
structure SameButForPlaces (n : ℕ) (σ σ' : PoolState) : Prop where
  slabs : List.Forall₂
    (fun s s' => ∃ F B, FreeList σ.world s n F B ∧ FreeList σ'.world s' n F B)
    (σ.world.slabs σ.pool) (σ'.world.slabs σ'.pool)
  live : List.Forall₂
    (fun p p' => ∃ s s' i, (s, s') ∈ (σ.world.slabs σ.pool).zip (σ'.world.slabs σ'.pool) ∧ i < n
      ∧ p = σ.world.slotPtr s i ∧ p' = σ'.world.slotPtr s' i) σ.live σ'.live
  grows : σ.NeedsGrowth ↔ σ'.NeedsGrowth
  releases : ∀ {k p p' : ℕ}, σ.live[k]? = some p → σ'.live[k]? = some p' →
    (σ.Releases p ↔ σ'.Releases p')

section Reading

variable {w₀ w₀' : World} {g : Shape} {size : ℕ} {xs : List (PoolSlab g.cap)} {f : ℕ → ℕ}
  {L : List (ℕ × ℕ)} {σ σ' : PoolState}

theorem Alike.same (h : Alike w₀ w₀' g size xs f L σ σ') : SameButForPlaces g.cap σ σ' := by
  have hslabs : σ.world.slabs σ.pool = xs.map PoolSlab.base := h.inv.rep.slabs_eq
  have hslabs' : σ'.world.slabs σ'.pool = xs.map fun x => f x.base := by
    rw [h.inv'.rep.slabs_eq, bases, relocate, List.map_map]
    rfl
  have hrep : ∀ x ∈ xs, Rep σ'.world g (f x.base) x.slots := fun x hx =>
    h.inv'.rep.list.slabs (x.relocate f) (List.mem_map_of_mem hx)
  refine ⟨?_, ?_, ?_, ?_⟩
  · rw [hslabs, hslabs', List.forall₂_map_left_iff, List.forall₂_map_right_iff,
      List.forall₂_same]
    intro x hx
    exact ⟨_, _, (h.inv.rep.list.slabs x hx).freeList, (hrep x hx).freeList⟩
  · rw [h.live, h.live', List.forall₂_map_left_iff, List.forall₂_map_right_iff, List.forall₂_same]
    intro z hz
    obtain ⟨x, hx, hb⟩ := List.mem_map.mp (h.mem_bases hz)
    rw [← hb]
    refine ⟨x.base, f x.base, z.2, ?_, (h.places z hz).2, ?_, ?_⟩
    · rw [hslabs, hslabs', List.zip_map', List.mem_map]
      exact ⟨x, hx, rfl⟩
    · exact ((h.inv.rep.list.slabs x hx).slotPtr_eq z.2).symm
    · exact ((hrep x hx).slotPtr_eq z.2).symm
  · rw [needsGrowth_iff h.inv.rep, needsGrowth_iff h.inv'.rep, grows_relocate]
  · intro k p p' hk hk'
    obtain ⟨⟨b, i⟩, hz, rfl, rfl⟩ := h.getElem? hk hk'
    obtain ⟨l, x, r, rfl, rfl, hi⟩ := h.inv.split (h.places _ hz) (List.mem_of_getElem? hk)
    have hinv' := h.inv'
    rw [relocate_split] at hinv'
    have hbase : (x.relocate f).base = f x.base := rfl
    have hiff := releases_iff hinv' hi
    rw [hbase, ← relocate_append, drops_relocate] at hiff
    rw [releases_iff h.inv hi, hiff]

end Reading

/-- **Where mappings are put makes no difference.** Two runs of pools of one size in which the
program asks the same, step for step, lead to pools that show the same but for the addresses,
whatever else the processes hold and wherever their kernels put the mappings. -/
theorem places_make_no_difference {size : ℕ} {w₀ w₀' : World}
    {t t' : List (PoolState × PoolEvent)} {σ σ' : PoolState}
    (h2 : 2 ≤ num_buffers (int_of_size_t size)) (hrun : PoolRun size w₀ t σ)
    (hrun' : PoolRun size w₀' t' σ') (hsame : List.Forall₂ SameRequest t t') :
    SameButForPlaces (num_buffers (int_of_size_t size)) σ σ' := by
  obtain ⟨σ₀, os, hopen, hr⟩ := hrun
  obtain ⟨σ₀', os', hopen', hr'⟩ := hrun'
  have h1 := Nat.le_of_succ_le h2
  have hstart : Alike w₀ w₀' (Shape.of _ h1) size
      ((pages os.mmap POOL_START_SIZE).map (PoolSlab.fresh _)) (placed os.mmap os'.mmap id) []
      σ₀ σ₀' := by
    refine ⟨hopen.inv h1, ?_, by simp, hopen.live, hopen'.live⟩
    have hi := hopen'.inv h1
    rwa [show POOL_START_SIZE = POOL_GROW_RATE from rfl, ← relocate_fresh (f := id)] at hi
  obtain ⟨xs, f, L, h⟩ := hr.pair
    (R := fun σ σ' => ∃ xs f L, Alike w₀ w₀' (Shape.of _ h1) size xs f L σ σ') ⟨_, _, _, hstart⟩
    (by
      rintro s e s' u d u' ⟨xs, f, L, h⟩ hm hs hs'
      exact h.step h2 hm hs hs') hr' hsame
  exact h.same

/-- Two pools of 256-byte objects, mapped at different places, after one allocation. -/
theorem places_make_no_difference_256 : 2 ≤ num_buffers (int_of_size_t 256) ∧
    ∃ t σ t' σ', t ≠ [] ∧ PoolRun 256 World.empty t σ ∧ PoolRun 256 World.empty t' σ'
      ∧ List.Forall₂ SameRequest t t'
      ∧ SameButForPlaces (num_buffers (int_of_size_t 256)) σ σ' := by
  obtain ⟨σ₀, os, σ, p, hrun, -⟩ := exists_first_step capacity_256
  have h1 := Nat.le_of_succ_le capacity_256
  have hf : MmapFresh World.empty 409600 POOL_START_SIZE :=
    ⟨by decide, by decide, by decide, by simp [World.empty], by simp [World.empty]⟩
  obtain ⟨σ₀', hopen⟩ := exists_opened ⟨409600, 0, fun _ => 0⟩ h1 hf
  have hi := hopen.inv h1
  have hroom : Room 4096 ((pages 409600 POOL_START_SIZE).map
      (PoolSlab.fresh (num_buffers (int_of_size_t 256)))) := by decide
  have hfresh := Room.fresh hroom hi
  obtain ⟨b, f, ys, pool, w, hok, -⟩ :=
    hi.allocate capacity_256 ⟨4096, 0, fun _ => 0⟩ fun _ => hfresh
  have hrun' : PoolRun 256 World.empty _ _ :=
    ⟨σ₀', _, hopen, .next .start (.allocate hfresh hok)⟩
  have hsame : List.Forall₂ SameRequest [(σ₀, .allocate os)]
      [(σ₀', .allocate ⟨4096, 0, fun _ => 0⟩)] := .cons .allocate .nil
  exact ⟨capacity_256, _, σ, _, _, by simp, hrun, hrun', hsame,
    places_make_no_difference capacity_256 hrun hrun' hsame⟩

end SlabAllocator
