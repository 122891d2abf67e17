/-
Programs that work in batches.

The slabs of a pool stay in order while it only hands out, whatever the order of
the releases was before, once all objects are back: a pool without objects has
no full slab. So a program that asks only when it holds nothing or has just
asked takes no more slabs than its largest batch fills, however many batches
there are and in whatever order it releases them. That is a law of every size
class as well, for a class is a pool of its own.

What a run asks of a pool is a list of events, so the condition is one on the
list: `held` is the number of objects out after the events, and `InBatches` says
what comes before an allocation.
-/
import SlabAllocator.Footprint
import SlabAllocator.SizeClasses

set_option autoImplicit false

open Runs

namespace SlabAllocator

/-! ## What is asked, as a list -/

/-- The number of objects out after the events, the latest first. -/
def held : List PoolEvent → ℕ
  | [] => 0
  | .allocate _ :: es => held es + 1
  | .deallocate _ :: es => held es - 1

/-- The last event, if there was one, was an allocation. -/
def Asking (es : List PoolEvent) : Prop := ∀ e ∈ es.head?, ∃ os, e = .allocate os

/-- Every allocation is made with no object out or right after another one. -/
def InBatches : List PoolEvent → Prop
  | [] => True
  | .allocate _ :: es => (held es = 0 ∨ Asking es) ∧ InBatches es
  | .deallocate _ :: es => InBatches es

section Pool

variable {w₀ : World} {g : Shape} {size m : ℕ} {σ σ' : PoolState} {xs : List (PoolSlab g.cap)}
  {t : List (PoolState × PoolEvent)} {e : PoolEvent} {es : List PoolEvent}

/-- Slabs that hold no objects are in order. -/
theorem sorted_of_no_objects {n : ℕ} {xs : List (PoolSlab n)} (hn : 1 ≤ n)
    (h : objects xs = 0) : Sorted xs := by
  have hempty : ∀ x ∈ xs, ¬ x.Full := by
    intro x hx hfull
    obtain ⟨l, r, rfl⟩ := List.append_of_mem hx
    rw [objects_append, objects_cons, hfull.length] at h
    omega
  apply List.pairwise_of_forall_mem_list
  intro x hx y _ hfull
  exact absurd hfull (hempty x (List.mem_of_mem_tail hx))

/-- What holds of a pool that is asked in batches, after the events `es`. -/
structure Batched (w₀ : World) (g : Shape) (size m : ℕ) (es : List PoolEvent) (σ : PoolState)
    (xs : List (PoolSlab g.cap)) : Prop where
  inv : PoolInv w₀ g size σ xs
  count : σ.live.length = held es
  order : Asking es → Sorted xs
  peak : g.cap * (xs.length - POOL_GROW_RATE) ≤ m

/-- **One event** of a batch. -/
theorem Batched.step (h2 : 2 ≤ g.cap) (h : Batched w₀ g size m es σ xs)
    (hb : InBatches (e :: es)) (hm : held es ≤ m) (hstep : PoolStep σ e σ') :
    ∃ ys, Batched w₀ g size m (e :: es) σ' ys := by
  have hi := h.inv
  cases hstep with
  | allocate hfresh hok =>
      -- with no object out the slabs are in order, and else the last event has left them so
      have hs : Sorted xs := by
        refine hb.1.elim (fun hnone => sorted_of_no_objects g.cap_pos ?_) h.order
        rw [← hi.objects_eq, h.count, hnone]
      obtain ⟨b, f, ys, pool', w', hok', ha, hi', -⟩ := hi.allocate h2 _ fun _ => hfresh
      rw [hok'] at hok
      cases hok
      refine ⟨ys, hi', ?_, fun _ => hs.allocate g.cap_pos ha,
        peak_allocate hi hs h.peak (by rwa [h.count]) ha⟩
      rw [List.length_cons, h.count]
      rfl
  | deallocate hlive hok =>
      obtain ⟨l, x, r, i, pool', w', rfl, hib, rfl, hok', hi', -⟩ := hi.deallocate hlive
      rw [hok'] at hok
      cases hok
      refine ⟨_, hi', ?_, fun hask => ?_, peak_deallocate hi h.peak⟩
      · rw [List.length_erase_of_mem hlive, h.count]
        rfl
      · obtain ⟨os, he⟩ := hask _ rfl
        cases he

/-- **A run** in batches. -/
theorem Batched.run (h2 : 2 ≤ g.cap) {σ₀ : PoolState} (hr : Run PoolStep σ₀ t σ)
    (h₀ : Batched w₀ g size m [] σ₀ xs) (hb : InBatches (t.map Prod.snd))
    (hm : ∀ es, es <:+ t.map Prod.snd → held es ≤ m) :
    ∃ ys, Batched w₀ g size m (t.map Prod.snd) σ ys := by
  induction hr with
  | start => exact ⟨xs, h₀⟩
  | @next t s s' e _ hs ih =>
      have hb' : InBatches (t.map Prod.snd) := by
        cases e with
        | allocate os => exact hb.2
        | deallocate p => exact hb
      obtain ⟨ys, h⟩ := ih hb' fun es hes => hm es (hes.trans (List.suffix_cons _ _))
      exact h.step h2 hb (hm _ (List.suffix_cons _ _)) hs

/-- A new pool. -/
theorem Opened.batched {os : Os} (hn : 1 ≤ num_buffers (int_of_size_t size))
    (h : Opened size w₀ σ os) : Batched w₀ (Shape.of (int_of_size_t size) hn) size m [] σ
      ((pages os.mmap POOL_START_SIZE).map (PoolSlab.fresh _)) := by
  refine ⟨h.inv hn, by rw [h.live]; rfl, fun _ => sorted_fresh hn _ _, ?_⟩
  rw [List.length_map, length_pages]
  exact Nat.zero_le m

/-- The objects out are those the events leave out. -/
theorem PoolRun.count (hrun : PoolRun size w₀ t σ) : σ.live.length = held (t.map Prod.snd) := by
  obtain ⟨σ₀, os, hopen, hr⟩ := hrun
  induction hr with
  | start =>
      rw [hopen.live]
      rfl
  | next _ hs ih =>
      cases hs with
      | allocate => exact congrArg (· + 1) ih
      | deallocate hlive =>
          rw [List.length_erase_of_mem hlive]
          exact congrArg (· - 1) ih

/-- In every run in batches the slabs beyond the first mapping are bounded by the largest one. -/
theorem PoolRun.batched (h2 : 2 ≤ num_buffers (int_of_size_t size)) (hrun : PoolRun size w₀ t σ)
    (hb : InBatches (t.map Prod.snd)) (hm : ∀ es, es <:+ t.map Prod.snd → held es ≤ m) :
    num_buffers (int_of_size_t size) * ((σ.world.slabs σ.pool).length - POOL_GROW_RATE) ≤ m := by
  have hn := Nat.le_of_succ_le h2
  obtain ⟨σ₀, os, hopen, hr⟩ := hrun
  obtain ⟨ys, h⟩ :=
    Batched.run (g := Shape.of (int_of_size_t size) hn) h2 hr (hopen.batched hn) hb hm
  rw [length_slabs h.inv]
  exact h.peak

end Pool

/-! ## The classes of the allocator -/

/-- What a run of the allocator asks of the class `c`, the latest first. -/
def asked (c : ℕ) (t : List (ApiState × ApiEvent)) : List PoolEvent := t.flatMap fun x => x.2.on c

section Classes

variable {w₀ : World} {σ : ApiState} {t : List (ApiState × ApiEvent)} {pool : slab_pool}
  {c m shift : ℕ}

/-- The buffers of a class that are out are those the events leave out. -/
theorem ApiRun.count (hrun : ApiRun shift w₀ t σ) (hu : ∀ x ∈ t, x.1.Unfooled x.2)
    (hsep : shift = 2 ^ 64 ∨ shift = 0 ∧ ∀ x ∈ t, x.1.Apart x.2) (hc : c ∈ cache_sizes) :
    (σ.live.filter fun b => b.origin = .slab c).length = held (asked c t) := by
  obtain ⟨t', π, hr, ht, vs, hi, v, hv, rfl, hp⟩ := hrun.alone hu hsep hc
  have hlive := (hi.live_of_class hv).trans hp.live.symm
  rw [asked, ← ht, ← hr.count, ← hlive.length_eq, List.length_map]

/-- A class that is asked in batches. -/
theorem ApiRun.batched (hrun : ApiRun shift w₀ t σ) (hu : ∀ x ∈ t, x.1.Unfooled x.2)
    (hsep : shift = 2 ^ 64 ∨ shift = 0 ∧ ∀ x ∈ t, x.1.Apart x.2) (hpool : pool ∈ σ.pools)
    (hb : InBatches (asked pool.allocation_size t))
    (hm : ∀ es, es <:+ asked pool.allocation_size t → held es ≤ m) :
    num_buffers (int_of_size_t pool.allocation_size)
      * ((σ.world.slabs pool).length - POOL_GROW_RATE) ≤ m := by
  have hmem : pool.allocation_size ∈ cache_sizes := by
    rw [← hrun.classes.sizes]
    exact List.mem_map_of_mem hpool
  have hroom : ∀ s ∈ cache_sizes, 2 ≤ num_buffers (int_of_size_t s) := by decide
  obtain ⟨t', π, hr, ht, vs, hi, v, hv, hvc, hp⟩ := hrun.alone hu hsep hmem
  rw [asked, ← ht] at hb hm
  have hpeak := hr.batched (hroom _ hmem) hb hm
  rw [hi.pools] at hpool
  obtain ⟨u, huv, rfl⟩ := List.mem_map.mp hpool
  obtain rfl := hi.view_unique huv hv ((hi.allocation_size huv).symm.trans hvc.symm)
  rw [(hi.views.reps u huv).slabs_eq, ← hp.rep.slabs_eq]
  exact hpeak

end Classes

end SlabAllocator
