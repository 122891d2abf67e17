/-
What a call does whatever the memory holds.

The theorems about the slabs say what a call does to pages that are in order.
Some facts need no order at all: a call only adds to the trace, it never makes
the null page accessible, and it hands back the record of a pool with the size
it was created for and the counters it is meant to change. They are closed under
sequence and branch and hold of each load and store, so they hold of a function
by its shape alone.

`Respects R x` is a relation between the worlds before and after `x`, and
`Returns P x` a property of its result. Both come with the rules for the
constructs of `M`, and then with one lemma for each function of the source.
-/
import SlabAllocator.Smalloc

set_option autoImplicit false

namespace SlabAllocator

/-! ## Relations between the worlds before and after -/

/-- Whatever the world is, `x` leads to one that `R` relates to it. -/
def Respects {α : Type} (R : World → World → Prop) (x : M α) : Prop :=
  ∀ w a w', x w = .ok (a, w') → R w w'

/-- `R` holds across what the slabs and pools do to the world, `mmap` apart. -/
structure Closed (R : World → World → Prop) : Prop where
  refl : ∀ w, R w w
  trans : ∀ {w₁ w₂ w₃}, R w₁ w₂ → R w₂ w₃ → R w₁ w₃
  store : ∀ w a n v, R w (w.store a n v)
  munmap : ∀ a, Respects R (munmap a)

namespace Closed

variable {α β : Type} {R : World → World → Prop} {x y : M α} {f : α → M β}

theorem pure (h : Closed R) (a : α) : Respects R (pure a : M α) := fun w b w' hx => by
  cases hx
  exact h.refl w

theorem fault (e : Fault) : Respects R (fault e : M α) := fun _ _ _ hx => by cases hx

theorem bind (h : Closed R) (hx : Respects R x) (hf : ∀ a, Respects R (f a)) :
    Respects R (x >>= f) := by
  intro w b w' hrun
  obtain ⟨a, w₁, h₁, h₂⟩ := bind_eq_ok hrun
  exact h.trans (hx w a w₁ h₁) (hf a w₁ b w' h₂)

theorem ite {c : Prop} [Decidable c] (hx : Respects R x) (hy : Respects R y) :
    Respects R (if c then x else y) := by
  by_cases hc : c
  · rw [if_pos hc]
    exact hx
  · rw [if_neg hc]
    exact hy

theorem load (h : Closed R) (a n : ℕ) : Respects R (load a n) := fun w v w' hx => by
  unfold SlabAllocator.load at hx
  split at hx
  · cases hx
    exact h.refl w
  · cases hx

theorem put (h : Closed R) (a n v : ℕ) : Respects R (SlabAllocator.store a n v) :=
  fun w u w' hx => by
  unfold SlabAllocator.store at hx
  split at hx
  · cases hx
    exact h.store w a n v
  · cases hx

end Closed

/-! ## The functions of the source -/

section Functions

variable {R : World → World → Prop} {os : Os}

namespace Closed

theorem mem_slab_alloc (h : Closed R) (slab : ℕ) : Respects R (mem_slab_alloc slab) := by
  unfold SlabAllocator.mem_slab_alloc
  repeat' first
    | exact h.load _ _
    | exact h.put _ _ _
    | exact h.pure _
    | refine ite ?_ ?_
    | refine h.bind ?_ fun _ => ?_

theorem mem_slab_dealloc (h : Closed R) (slab ptr : ℕ) :
    Respects R (mem_slab_dealloc slab ptr) := by
  unfold SlabAllocator.mem_slab_dealloc get_buffer_index_from_ptr
  repeat' first
    | exact h.load _ _
    | exact h.put _ _ _
    | exact h.pure _
    | exact fault _
    | refine ite ?_ ?_
    | refine h.bind ?_ fun _ => ?_

theorem link_freelist (h : Closed R) (freelist_buffer n : ℕ) :
    Respects R (link_freelist freelist_buffer n) := by
  induction n with
  | zero => exact h.pure _
  | succ n ih =>
      rw [SlabAllocator.link_freelist]
      exact h.bind ih fun _ => h.bind (h.put _ _ _) fun _ => h.bind (h.put _ _ _) fun _ =>
        h.put _ _ _

theorem prepare_slab_header (h : Closed R) (slab : ℕ) (size alignment : Int32) :
    Respects R (prepare_slab_header slab size alignment) := by
  unfold SlabAllocator.prepare_slab_header
  repeat' first
    | exact h.link_freelist _ _
    | exact h.load _ _
    | exact h.put _ _ _
    | exact fault _
    | refine ite ?_ ?_
    | refine h.bind ?_ fun _ => ?_

theorem link_fresh_slabs (h : Closed R) (region : ℕ) (size alignment : Int32) (n : ℕ) :
    Respects R (link_fresh_slabs region size alignment n) := by
  induction n with
  | zero => exact h.pure _
  | succ n ih =>
      rw [SlabAllocator.link_fresh_slabs]
      exact h.bind ih fun _ => h.bind (h.prepare_slab_header _ _ _) fun _ =>
        h.bind (h.put _ _ _) fun _ => h.put _ _ _

theorem mem_slab_create_several (h : Closed R) (hm : ∀ n, Respects R (mmap os n))
    (size alignment : Int32) (count list_next : ℕ) :
    Respects R (mem_slab_create_several os size alignment count list_next) := by
  unfold SlabAllocator.mem_slab_create_several
  refine h.bind (hm _) fun _ => ite (h.pure _) ?_
  refine h.bind (h.prepare_slab_header _ _ _) fun _ => h.bind (h.put _ _ _) fun _ =>
    h.bind (h.put _ _ _) fun _ => h.bind (h.link_fresh_slabs _ _ _ _) fun _ =>
    h.bind (h.put _ _ _) fun _ => ite (h.bind (h.put _ _ _) fun _ => h.pure _) (h.pure _)

theorem move_slab_to_end_of_the_list (h : Closed R) (pool : slab_pool) (slab : ℕ) :
    Respects R (move_slab_to_end_of_the_list pool slab) := by
  unfold SlabAllocator.move_slab_to_end_of_the_list
  repeat' first
    | exact h.load _ _
    | exact h.put _ _ _
    | exact h.pure _
    | refine ite ?_ ?_
    | refine h.bind ?_ fun _ => ?_

theorem move_slab_to_start_of_the_list (h : Closed R) (pool : slab_pool) (slab : ℕ) :
    Respects R (move_slab_to_start_of_the_list pool slab) := by
  unfold SlabAllocator.move_slab_to_start_of_the_list
  repeat' first
    | exact h.load _ _
    | exact h.put _ _ _
    | exact h.pure _
    | refine ite ?_ ?_
    | refine h.bind ?_ fun _ => ?_

theorem is_full (h : Closed R) (slab : ℕ) : Respects R (is_full slab) :=
  h.bind (h.load _ _) fun _ => h.bind (h.load _ _) fun _ => h.pure _

theorem is_lonely (h : Closed R) (slab : ℕ) : Respects R (is_lonely slab) :=
  h.bind (h.load _ _) fun _ => ite (h.bind (h.load _ _) fun _ => h.pure _) (h.pure _)

theorem slab_pool_allocate (h : Closed R) (hm : ∀ n, Respects R (mmap os n)) (pool : slab_pool) :
    Respects R (slab_pool_allocate os pool) := by
  unfold SlabAllocator.slab_pool_allocate
  refine h.bind (h.is_full _) fun _ => ite (h.bind (h.mem_slab_alloc _) fun _ => h.pure _) ?_
  refine h.bind (h.move_slab_to_end_of_the_list _ _) fun _ => h.bind (h.is_full _) fun _ =>
    ite (h.bind (h.mem_slab_alloc _) fun _ => h.pure _) ?_
  exact h.bind (h.move_slab_to_end_of_the_list _ _) fun _ =>
    h.bind (h.mem_slab_create_several hm _ _ _ _) fun _ =>
    h.bind (h.mem_slab_alloc _) fun _ => h.pure _

theorem slab_pool_deallocate (h : Closed R) (pool : slab_pool) (ptr : ℕ) :
    Respects R (slab_pool_deallocate pool ptr) := by
  unfold SlabAllocator.slab_pool_deallocate
  refine h.bind (h.mem_slab_dealloc _ _) fun _ =>
    h.bind (h.move_slab_to_start_of_the_list _ _) fun _ => h.bind (h.load _ _) fun _ =>
    h.bind (h.is_lonely _) fun _ => ite ?_ (h.pure _)
  refine h.bind (h.load _ _) fun _ => h.bind (h.load _ _) fun _ => ite ?_ ?_
  · exact h.bind (h.put _ _ _) fun _ => h.bind (h.pure _) fun _ => h.bind (h.munmap _) fun _ =>
      h.pure _
  · exact h.bind (h.put _ _ _) fun _ => h.bind (h.put _ _ _) fun _ => h.bind (h.pure _) fun _ =>
      h.bind (h.munmap _) fun _ => h.pure _

theorem smalloc (h : Closed R) (hm : ∀ n, Respects R (mmap os n))
    (hM : ∀ n, Respects R (malloc os n)) (pools : List slab_pool) (size : ℕ) :
    Respects R (smalloc os pools size) := by
  induction pools with
  | nil => exact h.bind (hM _) fun _ => h.pure _
  | cons pool pools ih =>
      rw [SlabAllocator.smalloc]
      exact ite (h.bind (h.slab_pool_allocate hm _) fun _ => h.pure _)
        (h.bind ih fun _ => h.pure _)

theorem sfree_loop (h : Closed R) (size ptr : ℕ) (pools : List slab_pool) :
    Respects R (sfree_loop size ptr pools) := by
  induction pools with
  | nil => exact h.pure _
  | cons pool pools ih =>
      rw [SlabAllocator.sfree_loop]
      exact ite (h.bind (h.slab_pool_deallocate _ _) fun _ => h.pure _)
        (h.bind ih fun _ => h.pure _)

theorem sfree (h : Closed R) {ptr : ℕ} (hF : Respects R (free os ptr)) (pools : List slab_pool) :
    Respects R (sfree os pools ptr) := by
  unfold SlabAllocator.sfree
  exact h.bind (h.load _ _) fun _ => ite (h.bind hF fun _ => h.pure _)
    (h.bind (h.load _ _) fun _ => h.sfree_loop _ _ _)

theorem srealloc (h : Closed R) (hm : ∀ n, Respects R (mmap os n))
    (hM : ∀ n, Respects R (malloc os n)) (hF : ∀ ptr, Respects R (free os ptr)) {shift : ℕ}
    (hR : ∀ ptr n, Respects R (realloc os shift ptr n))
    (hC : ∀ dst src n, Respects R (memcpy shift dst src n)) (pools : List slab_pool)
    (ptr size : ℕ) : Respects R (srealloc os shift pools ptr size) := by
  unfold SlabAllocator.srealloc
  refine ite (h.smalloc hm hM _ _) (h.bind (h.load _ _) fun _ => ite ?_ ?_)
  · exact h.bind (hR _ _) fun _ => h.pure _
  · exact h.bind (h.load _ _) fun _ => ite (h.pure _) (h.bind (h.smalloc hm hM _ _) fun _ =>
      h.bind (hC _ _ _) fun _ => h.bind (h.sfree (hF _) _) fun _ => h.pure _)

end Closed

end Functions

/-! ## Properties of the result -/

/-- Whatever the world is, the result of `x` has the property `P`. -/
def Returns {α : Type} (P : α → Prop) (x : M α) : Prop := ∀ w a w', x w = .ok (a, w') → P a

namespace Returns

variable {α β : Type} {P : α → Prop} {Q : β → Prop} {x y : M α} {f : β → M α} {z : M β}

theorem pure {a : α} (h : P a) : Returns P (pure a : M α) := fun w b w' hx => by
  cases hx
  exact h

theorem any (x : M α) : Returns (fun _ => True) x := fun _ _ _ _ => trivial

theorem bind (hz : Returns Q z) (hf : ∀ b, Q b → Returns P (f b)) : Returns P (z >>= f) := by
  intro w a w' hrun
  obtain ⟨b, w₁, h₁, h₂⟩ := bind_eq_ok hrun
  exact hf b (hz w b w₁ h₁) w₁ a w' h₂

/-- A computation whose result does not matter comes first. -/
theorem next (hf : ∀ b, Returns P (f b)) : Returns P (z >>= f) := (any z).bind fun b _ => hf b

theorem ite {c : Prop} [Decidable c] (hx : Returns P x) (hy : Returns P y) :
    Returns P (if c then x else y) := by
  by_cases hc : c
  · rw [if_pos hc]
    exact hx
  · rw [if_neg hc]
    exact hy

end Returns

/-- `pool'` is the record `pool` with the ends of its list changed. -/
structure SamePool (pool pool' : slab_pool) : Prop where
  allocation_size : pool'.allocation_size = pool.allocation_size
  data : pool'.data = pool.data

/-- `pool'` is the record `pool` after `k` more allocations. -/
structure Served (k : ℕ) (pool pool' : slab_pool) : Prop where
  allocation_size : pool'.allocation_size = pool.allocation_size
  allocation_count : pool'.data.allocation_count = pool.data.allocation_count + k

section Records

variable {os : Os} {pool : slab_pool}

theorem returns_move_slab_to_end (slab : ℕ) :
    Returns (SamePool pool) (move_slab_to_end_of_the_list pool slab) := by
  unfold move_slab_to_end_of_the_list
  refine .next fun _ => .next fun _ => .ite (.pure ⟨rfl, rfl⟩) (.ite ?_ ?_)
  · refine .next fun _ => .bind (Q := SamePool pool) (.pure ⟨rfl, rfl⟩) fun _ h => ?_
    exact .next fun _ => .next fun _ => .next fun _ => .pure ⟨h.allocation_size, h.data⟩
  · refine .next fun _ => .next fun _ => .bind (Q := SamePool pool) (.pure ⟨rfl, rfl⟩) fun _ h => ?_
    exact .next fun _ => .next fun _ => .next fun _ => .pure ⟨h.allocation_size, h.data⟩

theorem returns_move_slab_to_start (slab : ℕ) :
    Returns (SamePool pool) (move_slab_to_start_of_the_list pool slab) := by
  unfold move_slab_to_start_of_the_list
  refine .next fun _ => .next fun _ => .ite (.pure ⟨rfl, rfl⟩) (.ite ?_ ?_)
  · refine .next fun _ => .next fun _ => .bind (Q := SamePool pool) (.pure ⟨rfl, rfl⟩) fun _ h => ?_
    exact .next fun _ => .next fun _ => .next fun _ => .pure ⟨h.allocation_size, h.data⟩
  · refine .next fun _ => .next fun _ => .bind (Q := SamePool pool) (.pure ⟨rfl, rfl⟩) fun _ h => ?_
    exact .next fun _ => .next fun _ => .next fun _ => .pure ⟨h.allocation_size, h.data⟩

/-- `slab_pool_allocate` counts the allocation, on each of its three paths. -/
theorem returns_slab_pool_allocate (os : Os) :
    Returns (fun r => Served 1 pool r.1) (slab_pool_allocate os pool) := by
  -- a move changes the ends of the list only
  have hmove : ∀ {p p' : slab_pool}, Served 1 pool p → SamePool p p' → Served 1 pool p' :=
    fun h h' => ⟨h'.allocation_size.trans h.allocation_size, by rw [h'.data, h.allocation_count]⟩
  have h₀ : Served 1 pool { pool with
      data := { pool.data with allocation_count := pool.data.allocation_count + 1 } } := ⟨rfl, rfl⟩
  unfold slab_pool_allocate
  refine .next fun _ => .ite (.next fun _ => .pure h₀) ?_
  refine (returns_move_slab_to_end _).bind fun p₁ h₁ => ?_
  refine .next fun _ => .ite (.next fun _ => .pure (hmove h₀ h₁)) ?_
  refine (returns_move_slab_to_end _).bind fun p₂ h₂ => ?_
  have h := hmove (hmove h₀ h₁) h₂
  exact .next fun _ => .next fun _ => .pure ⟨h.allocation_size, h.allocation_count⟩

/-- `slab_pool_deallocate` does not. -/
theorem returns_slab_pool_deallocate (ptr : ℕ) :
    Returns (Served 0 pool) (slab_pool_deallocate pool ptr) := by
  unfold slab_pool_deallocate
  refine .next fun _ => (returns_move_slab_to_start _).bind fun p₁ h₁ => ?_
  have h : Served 0 pool p₁ := ⟨h₁.allocation_size, by rw [h₁.data]; rfl⟩
  refine .next fun _ => .next fun _ => .ite (.next fun _ => .next fun _ => .ite ?_ ?_) (.pure h)
  · exact .next fun _ => .bind (Q := Served 0 pool) (.pure ⟨h.allocation_size, h.allocation_count⟩)
      fun _ h' => .next fun _ => .pure ⟨h'.allocation_size, h'.allocation_count⟩
  · exact .next fun _ => .next fun _ => .bind (Q := Served 0 pool) (.pure h)
      fun _ h' => .next fun _ => .pure ⟨h'.allocation_size, h'.allocation_count⟩

end Records

/-! ## The array of pools -/

/-- `pools'` is the array `pools` after `k` more allocations from its pools. -/
structure ServedAll (k : ℕ) (pools pools' : List slab_pool) : Prop where
  allocation_size : pools'.map slab_pool.allocation_size = pools.map slab_pool.allocation_size
  allocation_count : (pools'.map fun pool => pool.data.allocation_count).sum
    = (pools.map fun pool => pool.data.allocation_count).sum + k

section Array

variable {os : Os} {k n : ℕ} {pool pool' : slab_pool} {pools pools' : List slab_pool}

theorem ServedAll.refl : ServedAll 0 pools pools := ⟨rfl, rfl⟩

theorem ServedAll.first (h : Served k pool pool') :
    ServedAll k (pool :: pools) (pool' :: pools) := by
  refine ⟨?_, ?_⟩
  · rw [List.map_cons, List.map_cons, h.allocation_size]
  · simp only [List.map_cons, List.sum_cons, h.allocation_count]
    omega

theorem ServedAll.later (h : ServedAll k pools pools') :
    ServedAll k (pool :: pools) (pool :: pools') := by
  refine ⟨?_, ?_⟩
  · rw [List.map_cons, List.map_cons, h.allocation_size]
  · simp only [List.map_cons, List.sum_cons, h.allocation_count]
    omega

/-- A request that fits a pool is counted once, and another one not at all. -/
theorem returns_smalloc (os : Os) (pools : List slab_pool) :
    Returns (fun r => ServedAll
      (if ∃ pool ∈ pools, n ≤ pool.allocation_size then 1 else 0) pools r.1)
      (smalloc os pools n) := by
  induction pools with
  | nil => exact .next fun _ => .pure ⟨rfl, by simp⟩
  | cons pool pools ih =>
      rw [smalloc]
      by_cases hn : n ≤ pool.allocation_size
      · rw [if_pos hn, if_pos ⟨pool, List.mem_cons_self, hn⟩]
        exact (returns_slab_pool_allocate os).bind fun _ h => .pure (.first h)
      · rw [if_neg hn]
        refine ih.bind fun r h => .pure ?_
        simp only [List.exists_mem_cons_iff, hn, false_or]
        exact h.later

theorem returns_sfree_loop (size ptr : ℕ) (pools : List slab_pool) :
    Returns (ServedAll 0 pools) (sfree_loop size ptr pools) := by
  induction pools with
  | nil => exact .pure .refl
  | cons pool pools ih =>
      rw [sfree_loop]
      exact .ite ((returns_slab_pool_deallocate ptr).bind fun _ h => .pure (.first h))
        (ih.bind fun _ h => .pure h.later)

theorem returns_sfree (os : Os) (pools : List slab_pool) (ptr : ℕ) :
    Returns (ServedAll 0 pools) (sfree os pools ptr) := by
  unfold sfree
  exact .next fun _ => .ite (.next fun _ => .pure .refl) (.next fun _ => returns_sfree_loop _ _ _)

end Array

end SlabAllocator
