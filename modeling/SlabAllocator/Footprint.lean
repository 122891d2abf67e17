/-
How many slabs a pool takes for the objects it holds.

A pool that keeps its order (`KeepsOrder`) grows only when it is full, so the
slabs it has beyond the first mapping were full once: their number is bounded by
the largest number of objects the program ever held at a time.

Without the order there is no such bound. An allocation looks at the first two
slabs, so two full slabs are enough to make a pool grow, and the program can put
two full slabs to the front as often as it likes: it releases an object of each
and takes the slot again. So `2 * cap + 1` objects are enough to drive a pool to
any number of slabs (`Jammed.round`), and one object less never takes it beyond
eleven. The slabs stay: over the minimum no release unmaps anything.
-/
import SlabAllocator.PoolLaws

set_option autoImplicit false

open Runs

namespace SlabAllocator

/-! ## Objects and slabs -/

section Objects

variable {n : ℕ} {xs l r : List (PoolSlab n)} {x : PoolSlab n}

@[simp] theorem objects_nil : objects ([] : List (PoolSlab n)) = 0 := rfl

@[simp] theorem objects_cons (x : PoolSlab n) (xs : List (PoolSlab n)) :
    objects (x :: xs) = x.slots.busy.length + objects xs := by
  rw [objects, List.map_cons, List.sum_cons, objects]

@[simp] theorem objects_append (xs ys : List (PoolSlab n)) :
    objects (xs ++ ys) = objects xs + objects ys := by
  rw [objects, List.map_append, List.sum_append, objects, objects]

theorem PoolSlab.Full.length (h : x.Full) : x.slots.busy.length = n := Slots.busy_length_eq.mpr h

/-- Full slabs hold as many objects as they can. -/
theorem objects_full (h : ∀ x ∈ xs, x.Full) : objects xs = n * xs.length := by
  induction xs with
  | nil => rfl
  | cons x xs ih =>
      rw [objects_cons, (h x List.mem_cons_self).length, ih fun y hy =>
        h y (List.mem_cons_of_mem x hy), List.length_cons, Nat.mul_succ, Nat.add_comm]

/-- Slabs that hold nothing. -/
theorem objects_empty (h : ∀ x ∈ xs, x.slots.busy = []) : objects xs = 0 := by
  induction xs with
  | nil => rfl
  | cons x xs ih =>
      rw [objects_cons, h x List.mem_cons_self, ih fun y hy => h y (List.mem_cons_of_mem x hy)]
      rfl

end Objects

section Peak

variable {w₀ : World} {g : Shape} {size m : ℕ} {σ σ' : PoolState} {e : PoolEvent}
  {xs : List (PoolSlab g.cap)}

/-- The objects of the model are the pointers handed out. -/
theorem PoolInv.objects_eq (h : PoolInv w₀ g size σ xs) : σ.live.length = objects xs := by
  rw [h.live.length_eq, busyPtrs, List.length_flatMap, objects]
  simp only [List.length_map]

/-- An allocation from slabs in order, with no more than `m` objects out, keeps the slabs beyond
the first mapping to what `m` objects fill. -/
theorem peak_allocate {a b f : ℕ} {ys : List (PoolSlab g.cap)}
    (hi : PoolInv w₀ g size σ xs) (hs : Sorted xs) (hb : g.cap * (xs.length - POOL_GROW_RATE) ≤ m)
    (hm : σ.live.length ≤ m) (ha : allocate a xs = some (b, f, ys)) :
    g.cap * (ys.length - POOL_GROW_RATE) ≤ m := by
  rw [length_allocate ha]
  by_cases hg : Grows xs
  · -- the pool was full, so its slabs are accounted for
    rw [if_pos hg, Nat.add_sub_cancel, ← objects_full (hs.grows hg), ← hi.objects_eq]
    exact hm
  · rw [if_neg hg]
    exact hb

/-- A release takes no slabs. -/
theorem peak_deallocate {l r : List (PoolSlab g.cap)} {x : PoolSlab g.cap} {i : ℕ}
    (hi : PoolInv w₀ g size σ (l ++ x :: r))
    (hb : g.cap * ((l ++ x :: r).length - POOL_GROW_RATE) ≤ m) :
    g.cap * ((deallocate x.base i (l ++ x :: r)).length - POOL_GROW_RATE) ≤ m := by
  refine le_trans (Nat.mul_le_mul_left _ ?_) hb
  rw [length_deallocate hi.rep.list.nodup]
  omega

end Peak

section Few

variable {w₀ : World} {g : Shape} {size : ℕ} {σ σ' : PoolState} {e : PoolEvent}
  {xs : List (PoolSlab g.cap)}

/-- A pool of two slabs or more that grows holds two full slabs. -/
theorem objects_of_grows {n : ℕ} {xs : List (PoolSlab n)} (hg : Grows xs)
    (hlen : 2 ≤ xs.length) : 2 * n ≤ objects xs := by
  rcases xs with _ | ⟨x, _ | ⟨y, rest⟩⟩
  · simp at hlen
  · simp at hlen
  · have hx : x.Full := hg.1 x rfl
    have hy : y.Full := hg.2 y (by rw [List.rotate_cons_succ, List.rotate_zero]; rfl)
    rw [objects_cons, objects_cons, hx.length, hy.length]
    omega

/-- A step that leaves no more than `2 * cap` objects out leaves no more than eleven slabs: a
pool that grows then had one slab. -/
theorem few_step (h2 : 2 ≤ g.cap) (hi : PoolInv w₀ g size σ xs)
    (hb : xs.length ≤ POOL_GROW_RATE + 1) (hstep : PoolStep σ e σ') :
    ∃ ys, PoolInv w₀ g size σ' ys
      ∧ (σ'.live.length ≤ 2 * g.cap → ys.length ≤ POOL_GROW_RATE + 1) := by
  cases hstep with
  | allocate hfresh hok =>
      obtain ⟨b, f, ys, pool', w', hok', ha, hi', -⟩ := hi.allocate h2 _ fun _ => hfresh
      rw [hok'] at hok
      cases hok
      refine ⟨ys, hi', fun hfew => ?_⟩
      rw [length_allocate ha]
      by_cases hg : Grows xs
      · rw [if_pos hg]
        -- two slabs would both be full, and the new object is one too many
        have hone : xs.length < 2 := by
          by_contra hlen
          have hobj := objects_of_grows hg (Nat.le_of_not_lt hlen)
          rw [List.length_cons, hi.objects_eq] at hfew
          omega
        omega
      · rw [if_neg hg]
        exact hb
  | deallocate hlive hok =>
      obtain ⟨l, x, r, i, pool', w', rfl, hib, rfl, hok', hi', -⟩ := hi.deallocate hlive
      rw [hok'] at hok
      cases hok
      refine ⟨_, hi', fun _ => ?_⟩
      rw [length_deallocate hi.rep.list.nodup]
      omega

/-- With no more than `2 * cap` objects out a pool never has more than eleven slabs. -/
theorem few_slabs {t : List (PoolState × PoolEvent)} (h2 : 2 ≤ num_buffers (int_of_size_t size))
    (hrun : PoolRun size w₀ t σ)
    (hm : ∀ x ∈ t, x.1.live.length ≤ 2 * num_buffers (int_of_size_t size))
    (hlast : σ.live.length ≤ 2 * num_buffers (int_of_size_t size)) :
    (σ.world.slabs σ.pool).length ≤ POOL_GROW_RATE + 1 := by
  obtain ⟨σ₀, os, hopen, hr⟩ := hrun
  obtain ⟨xs, hi, hb⟩ := hr.invariant
    (P := fun σ => ∃ xs, PoolInv w₀ (Shape.of _ (Nat.le_of_succ_le h2)) size σ xs
      ∧ (σ.live.length ≤ 2 * num_buffers (int_of_size_t size) → xs.length ≤ POOL_GROW_RATE + 1))
    (c := fun σ _ => σ.live.length ≤ 2 * num_buffers (int_of_size_t size))
    ⟨_, hopen.inv _, fun _ => by rw [List.length_map, length_pages]; decide⟩
    (fun s e s' ⟨xs, hi, hb⟩ hm hstep => few_step h2 hi (hb hm) hstep) hm
  rw [length_slabs hi]
  exact hb hlast

end Few

/-! ## Slabs that stay -/

section Stay

variable {w₀ : World} {g : Shape} {size : ℕ} {σ σ' : PoolState} {e : PoolEvent}
  {xs : List (PoolSlab g.cap)}

/-- Over the minimum a step keeps every slab. -/
theorem stay_step (h2 : 2 ≤ g.cap) (hi : PoolInv w₀ g size σ xs)
    (hmin : minimum_slabs < xs.length) (hstep : PoolStep σ e σ') :
    ∃ ys, PoolInv w₀ g size σ' ys ∧ (∀ b ∈ bases xs, b ∈ bases ys)
      ∧ minimum_slabs < ys.length := by
  cases hstep with
  | allocate hfresh hok =>
      obtain ⟨b, f, ys, pool', w', hok', ha, hi', -⟩ := hi.allocate h2 _ fun _ => hfresh
      rw [hok'] at hok
      cases hok
      refine ⟨ys, hi', fun c hc => (bases_allocate ha).mem_iff.mpr
        (List.mem_append_left _ hc), ?_⟩
      rw [length_allocate ha]
      omega
  | deallocate hlive hok =>
      obtain ⟨l, x, r, i, pool', w', rfl, hib, rfl, hok', hi', -⟩ := hi.deallocate hlive
      rw [hok'] at hok
      cases hok
      have hd : ¬ Drops x (l ++ r) i := fun hd =>
        absurd (length_drops hd).2 (Nat.not_le.mpr hmin)
      rw [deallocate_eq hi.rep.list.nodup, if_neg hd] at hi'
      have hperm : (l ++ x :: r).Perm (x :: (l ++ r)) := List.perm_middle
      refine ⟨_, hi', fun c hc => (hperm.map PoolSlab.base).mem_iff.mp hc, ?_⟩
      rw [hperm.length_eq] at hmin
      exact hmin

/-- Over the minimum every slab stays in every continuation. -/
theorem stay_run {t : List (PoolState × PoolEvent)} (h2 : 2 ≤ g.cap)
    (hi : PoolInv w₀ g size σ xs) (hmin : minimum_slabs < xs.length) (hr : Run PoolStep σ t σ') :
    ∃ ys, PoolInv w₀ g size σ' ys ∧ (∀ b ∈ bases xs, b ∈ bases ys)
      ∧ minimum_slabs < ys.length :=
  hr.always
    (P := fun s => ∃ ys, PoolInv w₀ g size s ys ∧ (∀ b ∈ bases xs, b ∈ bases ys)
      ∧ minimum_slabs < ys.length)
    ⟨xs, hi, fun _ hb => hb, hmin⟩
    (fun _ _ _ ⟨_, hi, hsub, hmin⟩ hs => by
      obtain ⟨zs, hi', hsub', hmin'⟩ := stay_step h2 hi hmin hs
      exact ⟨zs, hi', fun b hb => hsub' b (hsub b hb), hmin'⟩)

/-- Every live pointer can be released, one after the other. -/
theorem exists_drained (hi : PoolInv w₀ g size σ xs) : ∃ t σ', Run PoolStep σ t σ'
    ∧ σ'.live = [] ∧ ∀ x ∈ t, x.1.live.length ≤ σ.live.length := by
  induction hn : σ.live.length generalizing σ xs with
  | zero => exact ⟨[], σ, .start, List.length_eq_zero_iff.mp hn, by simp⟩
  | succ n ih =>
      obtain ⟨p, hp⟩ := List.exists_mem_of_length_pos (by rw [hn]; exact Nat.succ_pos n)
      obtain ⟨l, x, r, i, pool', w', rfl, hib, rfl, hok, hi', -⟩ := hi.deallocate hp
      have hlen : (σ.live.erase (g.slot x.base i)).length = n := by
        rw [List.length_erase_of_mem hp, hn, Nat.add_sub_cancel]
      obtain ⟨t, σ', hr, hempty, hb⟩ := ih hi' hlen
      refine ⟨_, σ', (Run.next .start (.deallocate hp hok)).append hr, hempty, fun y hy => ?_⟩
      rcases List.mem_append.mp hy with hy | hy
      · exact Nat.le_succ_of_le (hb y hy)
      · rw [List.mem_singleton.mp hy]
        exact hn.le

end Stay

/-! ## Two full slabs in front

The calls of the model, with a bound on the objects out, and the round that makes a pool
grow: two full slabs in front, the pool grows, and the two come back to the front. -/

/-- A call of the model in a list of no more than `m` objects. -/
def Calls {n : ℕ} (m : ℕ) (xs ys : List (PoolSlab n)) : Prop :=
  objects xs ≤ m ∧ ∃ op : PoolOp, op.exec xs = some ys

/-- The end of `k + 1` mappings in a row, the first of which is at the second page. -/
def frontier (k : ℕ) : ℕ := 4096 + POOL_GROW_RATE * 4096 * (k + 1)

theorem frontier_succ (k : ℕ) : frontier (k + 1) = frontier k + POOL_GROW_RATE * 4096 := by
  unfold frontier POOL_GROW_RATE
  omega

theorem frontier_aligned (k : ℕ) : frontier k % 4096 = 0 ∧ 4096 ≤ frontier k := by
  unfold frontier POOL_GROW_RATE
  omega

/-- Two full slabs in front of empty ones, the pages of `k + 1` mappings in a row. -/
structure Jammed {n : ℕ} (k : ℕ) (xs : List (PoolSlab n)) : Prop where
  front : ∃ x y es, xs = x :: y :: es ∧ x.Full ∧ y.Full ∧ ∀ e ∈ es, e.slots.busy = []
  length : xs.length = POOL_GROW_RATE * (k + 1)
  nodup : (bases xs).Nodup
  below : ∀ b ∈ bases xs, b + 4096 ≤ frontier k

section Rounds

variable {n m a i k : ℕ} {xs ys l r : List (PoolSlab n)} {x y : PoolSlab n}

/-- The room for a mapping depends on the pages only. -/
theorem Room.of_bases (h : Room a xs) (hb : ∀ b ∈ bases ys, b ∈ bases xs) : Room a ys := by
  refine ⟨h.1, h.2.1, h.2.2.1, fun y hy => ?_⟩
  obtain ⟨x, hx, he⟩ := List.mem_map.mp (hb y.base (List.mem_map_of_mem hy))
  rw [← he]
  exact h.2.2.2 x hx

theorem bases_cons (x : PoolSlab n) (xs : List (PoolSlab n)) :
    bases (x :: xs) = x.base :: bases xs := rfl

theorem bases_append (xs ys : List (PoolSlab n)) : bases (xs ++ ys) = bases xs ++ bases ys :=
  List.map_append

/-- An allocation from a first slab with room. -/
theorem calls_serve (hx : ¬ x.Full) (hroom : Room a (x :: r)) (hm : objects (x :: r) ≤ m) :
    ∃ x' : PoolSlab n, Calls m (x :: r) (x' :: r) ∧ x'.base = x.base
      ∧ x'.slots.free.length + 1 = x.slots.free.length := by
  obtain ⟨f, F, hF⟩ := List.exists_cons_of_ne_nil hx
  obtain ⟨s', ha, hfree, -⟩ := Slots.alloc_cons hF
  have hff : ¬ FirstFull (x :: r) := fun hf => hx (hf x rfl)
  refine ⟨⟨x.base, s'⟩, ⟨hm, .allocate a, ?_⟩, rfl, by rw [hfree, hF, List.length_cons]⟩
  rw [PoolOp.exec, if_pos hroom, SlabAllocator.allocate, SlabAllocator.arrange, if_neg hff, serve,
    ha]
  rfl

/-- An allocation that leaves a full first slab for the next one. -/
theorem calls_rotate (hx : x.Full) (hy : ¬ y.Full) (hroom : Room a (x :: y :: r))
    (hm : objects (x :: y :: r) ≤ m) :
    ∃ y' : PoolSlab n, Calls m (x :: y :: r) (y' :: (r ++ [x])) ∧ y'.base = y.base := by
  obtain ⟨f, F, hF⟩ := List.exists_cons_of_ne_nil hy
  obtain ⟨s', ha, -, -⟩ := Slots.alloc_cons hF
  have hrot : (x :: y :: r).rotate 1 = y :: (r ++ [x]) := by
    rw [List.rotate_cons_succ, List.rotate_zero, List.cons_append]
  refine ⟨⟨y.base, s'⟩, ⟨hm, .allocate a, ?_⟩, rfl⟩
  rw [PoolOp.exec, if_pos hroom, SlabAllocator.allocate, SlabAllocator.arrange,
    if_pos (by intro z hz; cases hz; exact hx), hrot, if_neg (fun hf => hy (hf y rfl)), serve, ha]
  rfl

/-- Enough allocations fill a first slab with room. -/
theorem fill (hroom : Room a (x :: r)) (hm : n + objects r ≤ m) :
    ∃ x' : PoolSlab n, x'.Full ∧ x'.base = x.base
      ∧ Relation.ReflTransGen (Calls m) (x :: r) (x' :: r) := by
  induction hk : x.slots.free.length generalizing x with
  | zero => exact ⟨x, List.length_eq_zero_iff.mp hk, rfl, .refl⟩
  | succ k ih =>
      have hx : ¬ x.Full := fun hf => by
        rw [PoolSlab.Full] at hf
        rw [hf] at hk
        cases hk
      have hlen := x.slots.length_order
      obtain ⟨x', hcall, hbase, hlen'⟩ := calls_serve (m := m) hx hroom
        (by rw [objects_cons]; omega)
      have hroom' : Room a (x' :: r) := hroom.of_bases fun b hb => by
        rw [bases_cons] at hb ⊢
        rwa [hbase] at hb
      obtain ⟨x'', hfull, hbase', hreach⟩ := ih hroom' (by omega)
      exact ⟨x'', hfull, hbase'.trans hbase, hreach.head hcall⟩

/-- **A full slab comes to the front**: one of its objects is released and the slot is taken
again. -/
theorem bounce (h2 : 2 ≤ n) (hx : x.Full) (hnd : (bases (l ++ x :: r)).Nodup)
    (hroom : Room a (l ++ x :: r)) (hm : objects (l ++ x :: r) ≤ m) :
    ∃ x' : PoolSlab n, x'.Full ∧ x'.base = x.base
      ∧ Relation.ReflTransGen (Calls m) (l ++ x :: r) (x' :: (l ++ r)) := by
  have hbusy : x.slots.busy.length = n := hx.length
  obtain ⟨i, hi⟩ := List.exists_mem_of_length_pos (l := x.slots.busy) (by omega)
  have hlen := (Slots.dealloc_perm hi).length_eq
  rw [List.length_cons] at hlen
  have hd : ¬ Drops x (l ++ r) i := fun hd => by
    have := (dealloc_busy_eq_nil hi).mp hd.1
    omega
  have hrel : Calls m (l ++ x :: r) (⟨x.base, x.slots.dealloc i⟩ :: (l ++ r)) := by
    refine ⟨hm, .deallocate x.base i, ?_⟩
    rw [PoolOp.exec, if_pos ⟨x, by simp, rfl, hi⟩, deallocate_eq hnd, if_neg hd]
  have hsum := objects_dealloc (l := l) (r := r) hi
  have hperm : (l ++ x :: r).Perm (x :: (l ++ r)) := List.perm_middle
  have hroom' : Room a (⟨x.base, x.slots.dealloc i⟩ :: (l ++ r)) :=
    hroom.of_bases fun b hb => (hperm.map PoolSlab.base).mem_iff.mpr hb
  obtain ⟨x', hfull, hbase, hreach⟩ := fill (m := m) hroom' (by
    rw [objects_cons] at hsum
    change (x.slots.dealloc i).busy.length + objects (l ++ r) + 1 = _ at hsum
    omega)
  exact ⟨x', hfull, hbase, hreach.head hrel⟩

/-- Two full slabs behind all others come to the front. -/
theorem bounce_two (h2 : 2 ≤ n) (hx : x.Full) (hy : y.Full) (hnd : (bases (l ++ [x, y])).Nodup)
    (hroom : Room a (l ++ [x, y])) (hm : objects (l ++ [x, y]) ≤ m) :
    ∃ x' y' : PoolSlab n, x'.Full ∧ y'.Full ∧ x'.base = x.base ∧ y'.base = y.base
      ∧ Relation.ReflTransGen (Calls m) (l ++ [x, y]) (x' :: y' :: l) := by
  have hsplit : l ++ [x, y] = (l ++ [x]) ++ y :: [] := by simp
  rw [hsplit] at hnd hroom hm ⊢
  obtain ⟨y', hy', hyb, hreach⟩ := bounce h2 hy hnd hroom hm
  rw [List.append_nil] at hreach
  -- the second one stands in front now, and the first one is the last
  have hperm : (bases ((y' :: l) ++ x :: [])).Perm (bases ((l ++ [x]) ++ y :: [])) := by
    rw [List.cons_append, bases_cons, hyb, bases_append (l ++ [x]), bases_cons]
    exact (List.perm_append_singleton y.base _).symm
  obtain ⟨x', hx', hxb, hreach'⟩ := bounce (m := m) h2 hx (hperm.nodup_iff.mpr hnd)
    (hroom.of_bases fun b hb => hperm.mem_iff.mp hb) (by
      rw [objects_append, objects_append, objects_cons y, objects_nil, hy.length] at hm
      rw [objects_append, objects_cons y', hy'.length]
      omega)
  rw [List.append_nil] at hreach'
  exact ⟨x', y', hx', hy', hxb, hyb, hreach.trans hreach'⟩

/-- The first two slabs are filled, and the first one comes to the front again. -/
theorem fill_two (h2 : 2 ≤ n) (hy : y.slots.busy = []) (hr : objects r = 0)
    (hnd : (bases (x :: y :: r)).Nodup) (hroom : Room a (x :: y :: r))
    (hm : 2 * n ≤ m) : ∃ x' y' : PoolSlab n, x'.Full ∧ y'.Full ∧ x'.base = x.base
      ∧ y'.base = y.base ∧ Relation.ReflTransGen (Calls m) (x :: y :: r) (x' :: y' :: r) := by
  have hy0 : y.slots.busy.length = 0 := by rw [hy, List.length_nil]
  obtain ⟨x₁, hx₁, hxb, hreach₁⟩ := fill (m := m) hroom (by rw [objects_cons]; omega)
  have hroom₁ : Room a (x₁ :: y :: r) := hroom.of_bases fun b hb => by
    rw [bases_cons] at hb ⊢
    rwa [hxb] at hb
  have hyf : ¬ y.Full := fun hf => by
    have := hf.length
    omega
  obtain ⟨y₁, hcall, hyb⟩ := calls_rotate (m := m) hx₁ hyf hroom₁ (by
    rw [objects_cons, objects_cons, hx₁.length]
    omega)
  have hperm₁ : (bases (y₁ :: (r ++ [x₁]))).Perm (bases (x :: y :: r)) := by
    rw [bases_cons, bases_append, bases_cons, bases_cons, hyb, hxb, bases_cons]
    exact List.perm_append_singleton x.base (y.base :: bases r)
  obtain ⟨y₂, hy₂, hyb₂, hreach₂⟩ := fill (m := m)
    (hroom.of_bases fun b hb => hperm₁.mem_iff.mp hb) (by
      rw [objects_append, objects_cons, objects_nil, hx₁.length]
      omega)
  have hperm₂ : (bases ((y₂ :: r) ++ x₁ :: [])).Perm (bases (x :: y :: r)) := by
    rwa [List.cons_append, bases_cons, hyb₂]
  obtain ⟨x₃, hx₃, hxb₃, hreach₃⟩ := bounce (m := m) h2 hx₁ (hperm₂.nodup_iff.mpr hnd)
    (hroom.of_bases fun b hb => hperm₂.mem_iff.mp hb) (by
      rw [objects_append, objects_cons, objects_cons, objects_nil, hx₁.length, hy₂.length]
      omega)
  rw [List.append_nil] at hreach₃
  exact ⟨x₃, y₂, hx₃, hy₂, hxb₃.trans hxb, hyb₂.trans hyb,
    ((hreach₁.tail hcall).trans hreach₂).trans hreach₃⟩

end Rounds

section Jam

variable {n k : ℕ} {xs l : List (PoolSlab n)}

theorem empty_fresh {bs : List ℕ} : ∀ x ∈ bs.map (PoolSlab.fresh n), x.slots.busy = [] :=
  fun x hx => by
    obtain ⟨b, -, rfl⟩ := List.mem_map.mp hx
    rfl

theorem bases_map_fresh {bs : List ℕ} : bases (bs.map (PoolSlab.fresh n)) = bs := by
  rw [bases, List.map_map]
  exact List.map_id bs

/-- The room behind the mappings of a jammed pool. -/
theorem Room.of_below (hb : ∀ b ∈ bases xs, b + 4096 ≤ frontier k)
    (htop : frontier (k + 1) < 2 ^ 64) : Room (frontier k) xs := by
  rw [frontier_succ] at htop
  exact ⟨(frontier_aligned k).1, (frontier_aligned k).2, htop, fun x hx =>
    .inl (hb x.base (List.mem_map_of_mem hx))⟩

/-- A jammed pool holds what two slabs hold. -/
theorem Jammed.objects_le (h : Jammed k xs) : objects xs ≤ 2 * n + 1 := by
  obtain ⟨x, y, es, rfl, hx, hy, hes⟩ := h.front
  rw [objects_cons, objects_cons, hx.length, hy.length, objects_empty hes]
  omega

/-- A new pool can be jammed. -/
theorem exists_jammed (h2 : 2 ≤ n) : ∃ ys, Jammed 0 ys ∧ Relation.ReflTransGen (Calls (2 * n + 1))
    ((pages 4096 POOL_START_SIZE).map (PoolSlab.fresh n)) ys := by
  have hroom := room_opened n
  have hbelow : ∀ b ∈ pages 4096 POOL_START_SIZE, b + 4096 ≤ frontier 0 := by
    intro b hb
    obtain ⟨i, hi, rfl⟩ := mem_pages.mp hb
    unfold POOL_START_SIZE at hi
    unfold frontier POOL_GROW_RATE
    omega
  have hnd : (bases ((pages 4096 POOL_START_SIZE).map (PoolSlab.fresh n))).Nodup := by
    rw [bases_map_fresh]
    exact nodup_pages
  have hlen : (pages 4096 POOL_START_SIZE).length = 10 := length_pages
  generalize pages 4096 POOL_START_SIZE = ps at *
  obtain ⟨b, c, bs, rfl⟩ : ∃ b c bs, ps = b :: c :: bs := by
    rcases ps with _ | ⟨b, _ | ⟨c, bs⟩⟩
    · cases hlen
    · cases hlen
    · exact ⟨b, c, bs, rfl⟩
  obtain ⟨x, y, hx, hy, hxb, hyb, hreach⟩ := fill_two (m := 2 * n + 1) h2
    (x := PoolSlab.fresh n b) (y := PoolSlab.fresh n c) rfl (objects_empty empty_fresh) hnd hroom
    (Nat.le_succ _)
  have hbases : bases (x :: y :: bs.map (PoolSlab.fresh n)) = b :: c :: bs := by
    rw [bases_cons, bases_cons, bases_map_fresh, hxb, hyb]
    rfl
  refine ⟨_, ⟨⟨x, y, _, rfl, hx, hy, empty_fresh⟩, ?_, ?_, by rwa [hbases]⟩, hreach⟩
  · rw [List.length_cons, List.length_cons, List.length_map]
    exact hlen
  · rw [hbases]
    rwa [bases_map_fresh] at hnd

/-- A jammed pool grows, and the object it grew for is given back. -/
theorem grow_once {a : ℕ} {x y : PoolSlab n} (h2 : 2 ≤ n) (hx : x.Full) (hy : y.Full)
    (hes : ∀ e ∈ l, e.slots.busy = []) (hroom : Room a (x :: y :: l))
    (hmany : minimum_slabs ≤ l.length + POOL_GROW_RATE)
    (hnd : (pages a POOL_GROW_RATE ++ bases (x :: y :: l)).Nodup) :
    ∃ es : List (PoolSlab n), (∀ e ∈ es, e.slots.busy = [])
      ∧ bases es = pages a POOL_GROW_RATE ++ bases l
      ∧ Relation.ReflTransGen (Calls (2 * n + 1)) (x :: y :: l) (es ++ [x, y]) := by
  have hrot : (x :: y :: l).rotate 1 = y :: (l ++ [x]) := by
    rw [List.rotate_cons_succ, List.rotate_zero, List.cons_append]
  have hrot2 : (x :: y :: l).rotate 2 = l ++ [x, y] := by
    rw [List.rotate_cons_succ, List.cons_append, List.rotate_cons_succ, List.rotate_zero,
      List.append_assoc]
    rfl
  have hg : Grows (x :: y :: l) :=
    ⟨fun z hz => by cases hz; exact hx, fun z hz => by rw [hrot] at hz; cases hz; exact hy⟩
  have hobj : objects (x :: y :: l) = 2 * n := by
    rw [objects_cons, objects_cons, hx.length, hy.length, objects_empty hes]
    omega
  have hlen : (pages a POOL_GROW_RATE).length = POOL_GROW_RATE := length_pages
  obtain ⟨b, bs, hbs⟩ : ∃ b bs, pages a POOL_GROW_RATE = b :: bs := by
    rcases hp : pages a POOL_GROW_RATE with _ | ⟨b, bs⟩
    · rw [hp] at hlen
      cases hlen
    · exact ⟨b, bs, rfl⟩
  have harr : arrange a (x :: y :: l)
      = PoolSlab.fresh n b :: (bs.map (PoolSlab.fresh n) ++ (l ++ [x, y])) := by
    rw [arrange_of_grows a hg, hbs, hrot2, List.map_cons, List.cons_append]
  rw [hbs] at hnd hlen
  -- one object of the first new slab
  obtain ⟨f, F, hF⟩ := List.exists_cons_of_ne_nil
    (PoolSlab.not_full_fresh (Nat.le_of_succ_le h2) b)
  obtain ⟨s, hs, -, hbusy⟩ := Slots.alloc_cons hF
  have hone : s.busy = [f] := hbusy
  have hfb : f ∈ s.busy := by rw [hone]; exact List.mem_singleton_self f
  obtain ⟨r, hr⟩ : ∃ r, r = bs.map (PoolSlab.fresh n) ++ (l ++ [x, y]) := ⟨_, rfl⟩
  have hgrow : Calls (2 * n + 1) (x :: y :: l) (⟨b, s⟩ :: r) := by
    refine ⟨by omega, .allocate a, ?_⟩
    rw [PoolOp.exec, if_pos hroom, SlabAllocator.allocate, harr, ← hr, serve, hs]
    rfl
  -- it is given back, and there are too many slabs for its slab to go
  have hlenr : r.length + 1 = l.length + 2 + POOL_GROW_RATE := by
    rw [List.length_cons] at hlen
    rw [hr, List.length_append, List.length_map, List.length_append]
    change bs.length + (l.length + 2) + 1 = _
    omega
  have hd : ¬ Drops (⟨b, s⟩ : PoolSlab n) ([] ++ r) f := fun hd => by
    have := hd.2.2
    rw [List.nil_append] at this
    omega
  have hnd' : (bases ([] ++ (⟨b, s⟩ : PoolSlab n) :: r)).Nodup := by
    rw [List.nil_append, bases_cons, hr, bases_append, bases_append, bases_map_fresh]
    refine (List.Perm.nodup_iff ?_).mp hnd
    rw [bases_cons, bases_cons, List.cons_append]
    refine List.Perm.cons _ (List.Perm.append_left bs ?_)
    exact @List.perm_append_comm _ [x.base, y.base] _
  have hback : Calls (2 * n + 1) (⟨b, s⟩ :: r) (⟨b, s.dealloc f⟩ :: r) := by
    refine ⟨?_, .deallocate b f, ?_⟩
    · rw [objects_cons, hone, hr, objects_append, objects_append, objects_cons, objects_cons,
        objects_nil, objects_empty empty_fresh, objects_empty hes, hx.length, hy.length,
        List.length_singleton]
      omega
    · rw [PoolOp.exec, if_pos ⟨⟨b, s⟩, List.mem_cons_self, rfl, hfb⟩]
      exact congrArg some ((deallocate_eq hnd').trans (if_neg hd))
  refine ⟨⟨b, s.dealloc f⟩ :: (bs.map (PoolSlab.fresh n) ++ l), fun e he => ?_, ?_, ?_⟩
  · rcases List.mem_cons.mp he with rfl | he
    · exact (Slots.dealloc_head hone).2
    · rcases List.mem_append.mp he with he | he
      · exact empty_fresh e he
      · exact hes e he
  · rw [bases_cons, bases_append, bases_map_fresh, hbs]
    rfl
  · have hend : (⟨b, s.dealloc f⟩ : PoolSlab n) :: (bs.map (PoolSlab.fresh n) ++ l) ++ [x, y]
        = ⟨b, s.dealloc f⟩ :: r := by
      rw [hr, List.cons_append, List.append_assoc]
    rw [hend]
    exact (Relation.ReflTransGen.single hgrow).tail hback

/-- **The round.** A jammed pool grows for one object more, and the two full slabs come to
the front again. -/
theorem Jammed.round (h2 : 2 ≤ n) (h : Jammed k xs) (htop : frontier (k + 2) < 2 ^ 64) :
    ∃ ys, Jammed (k + 1) ys ∧ Relation.ReflTransGen (Calls (2 * n + 1)) xs ys := by
  obtain ⟨x, y, es, rfl, hx, hy, hes⟩ := h.front
  have hlen := h.length
  rw [List.length_cons, List.length_cons] at hlen
  have hsucc := frontier_succ k
  -- the pages of the new mapping lie behind the others
  have hnew : ∀ b ∈ pages (frontier k) POOL_GROW_RATE,
      frontier k ≤ b ∧ b + 4096 ≤ frontier (k + 1) := by
    intro b hb
    obtain ⟨i, hi, rfl⟩ := mem_pages.mp hb
    unfold POOL_GROW_RATE at hi hsucc
    omega
  have hnd : (pages (frontier k) POOL_GROW_RATE ++ bases (x :: y :: es)).Nodup := by
    refine List.nodup_append.mpr ⟨nodup_pages, h.nodup, fun b hb c hc he => ?_⟩
    have h₁ := (hnew b hb).1
    have h₂ := h.below c hc
    omega
  have htop' : frontier (k + 1) < 2 ^ 64 := lt_of_le_of_lt
    (by rw [frontier_succ (k + 1)]; exact Nat.le_add_right _ _) htop
  obtain ⟨es', hes', hbases, hreach⟩ := grow_once h2 hx hy hes (.of_below h.below htop')
    (by unfold minimum_slabs POOL_GROW_RATE POOL_MAX_GROW_RATE at *; omega) hnd
  have hperm : (bases (es' ++ [x, y])).Perm
      (pages (frontier k) POOL_GROW_RATE ++ bases (x :: y :: es)) := by
    rw [bases_append, hbases, List.append_assoc]
    exact List.perm_append_comm.append_left _
  have hbelow : ∀ b ∈ bases (es' ++ [x, y]), b + 4096 ≤ frontier (k + 1) := by
    intro b hb
    rcases List.mem_append.mp (hperm.mem_iff.mp hb) with hb | hb
    · exact (hnew b hb).2
    · have := h.below b hb
      omega
  obtain ⟨x', y', hx', hy', hxb, hyb, hreach'⟩ := bounce_two (m := 2 * n + 1) h2 hx hy
    (hperm.nodup_iff.mpr hnd) (.of_below hbelow htop) (by
      rw [objects_append, objects_empty hes', objects_cons, objects_cons, objects_nil, hx.length,
        hy.length]
      omega)
  have hperm' : (bases (x' :: y' :: es')).Perm (bases (es' ++ [x, y])) := by
    rw [bases_cons, bases_cons, hxb, hyb, bases_append]
    exact @List.perm_append_comm _ [x.base, y.base] _
  refine ⟨_, ⟨⟨x', y', es', rfl, hx', hy', hes'⟩, ?_,
    (hperm'.trans hperm).nodup_iff.mpr hnd, fun b hb => hbelow b (hperm'.mem_iff.mp hb)⟩,
    hreach.trans hreach'⟩
  have hlen' := congrArg List.length hbases
  rw [List.length_append, length_pages, bases, bases, List.length_map, List.length_map] at hlen'
  rw [List.length_cons, List.length_cons, hlen', Nat.mul_succ _ (k + 1)]
  omega

/-- Any number of rounds. -/
theorem exists_jammed_after (h2 : 2 ≤ n) (k : ℕ) (htop : frontier (k + 1) < 2 ^ 64) :
    ∃ ys, Jammed k ys ∧ Relation.ReflTransGen (Calls (2 * n + 1))
      ((pages 4096 POOL_START_SIZE).map (PoolSlab.fresh n)) ys := by
  induction k with
  | zero => exact exists_jammed h2
  | succ k ih =>
      obtain ⟨ys, hj, hreach⟩ := ih (lt_of_le_of_lt
        (by rw [frontier_succ (k + 1)]; exact Nat.le_add_right _ _) htop)
      obtain ⟨zs, hj', hreach'⟩ := hj.round h2 htop
      exact ⟨zs, hj', hreach.trans hreach'⟩

end Jam

/-- Calls of the model with no more than `m` objects are a run of the code with no more than
`m` objects. -/
theorem run_of_calls {g : Shape} {size m : ℕ} {σ : PoolState} {xs ys : List (PoolSlab g.cap)}
    (h2 : 2 ≤ g.cap) (hi : PoolInv World.empty g size σ xs)
    (hcalls : Relation.ReflTransGen (Calls m) xs ys) :
    ∃ t σ', Run PoolStep σ t σ' ∧ (∀ x ∈ t, x.1.live.length ≤ m)
      ∧ PoolInv World.empty g size σ' ys := by
  induction hcalls with
  | refl => exact ⟨[], σ, .start, by simp, hi⟩
  | tail _ hcall ih =>
      obtain ⟨t, σ₁, hr, hm, hi₁⟩ := ih
      obtain ⟨hfew, op, hop⟩ := hcall
      obtain ⟨e, σ', hstep, hi'⟩ := step_of_exec h2 hi₁ hop
      refine ⟨_, σ', hr.next hstep, fun y hy => ?_, hi'⟩
      rcases List.mem_cons.mp hy with rfl | hy
      · rw [hi₁.objects_eq]
        exact hfew
      · exact hm y hy

/-- **How few objects it takes.** With no more than `2 * cap` objects out at a time a pool never
has more than eleven slabs. With one object more there is no bound: for every number of slabs
that fits half the address space there is a run that never has more than `2 * cap + 1` objects
out, ends with none, and leaves that many slabs mapped. -/
theorem footprint_threshold {size : ℕ} (h2 : 2 ≤ num_buffers (int_of_size_t size)) :
    (∀ w₀ t σ, PoolRun size w₀ t σ →
        (∀ x ∈ t, x.1.live.length ≤ 2 * num_buffers (int_of_size_t size)) →
        σ.live.length ≤ 2 * num_buffers (int_of_size_t size) →
        (σ.world.slabs σ.pool).length ≤ POOL_GROW_RATE + 1)
      ∧ ∀ N ≤ 2 ^ 51, ∃ t σ, PoolRun size World.empty t σ
        ∧ (∀ x ∈ t, x.1.live.length ≤ 2 * num_buffers (int_of_size_t size) + 1)
        ∧ σ.live = [] ∧ N ≤ (σ.world.slabs σ.pool).length
        ∧ ∀ b ∈ σ.world.slabs σ.pool, b ∈ σ.world.mapped := by
  refine ⟨fun w₀ t σ hrun hm hlast => few_slabs h2 hrun hm hlast, fun N hN => ?_⟩
  obtain ⟨σ₀, hopen⟩ := exists_opened ⟨4096, 0, fun _ => 0⟩ (Nat.le_of_succ_le h2) fresh_empty
  have hi₀ := hopen.inv (Nat.le_of_succ_le h2)
  have htop : frontier (N / 10 + 2) < 2 ^ 64 := by
    unfold frontier POOL_GROW_RATE
    omega
  obtain ⟨xs, hj, hcalls⟩ := exists_jammed_after h2 (N / 10 + 1) htop
  obtain ⟨t, σ, hr, hm, hi⟩ := run_of_calls
    (g := Shape.of (int_of_size_t size) (Nat.le_of_succ_le h2)) h2 hi₀ hcalls
  have hlen : xs.length = 10 * (N / 10 + 1 + 1) := hj.length
  have hlast : σ.live.length ≤ 2 * num_buffers (int_of_size_t size) + 1 := by
    rw [hi.objects_eq]
    exact hj.objects_le
  -- all objects are released, and the slabs stay
  obtain ⟨t', σ', hr', hempty, hm'⟩ := exists_drained hi
  have hmin : minimum_slabs < xs.length := by
    unfold minimum_slabs POOL_GROW_RATE POOL_MAX_GROW_RATE
    omega
  obtain ⟨ys, hi', hsub, -⟩ := stay_run h2 hi hmin hr'
  have hle : xs.length ≤ ys.length := by
    have hsp := (hj.nodup.subperm hsub).length_le
    rwa [bases, bases, List.length_map, List.length_map] at hsp
  refine ⟨t' ++ t, σ', ⟨σ₀, _, hopen, hr.append hr'⟩, fun x hx => ?_, hempty, ?_, fun b hb => ?_⟩
  · rcases List.mem_append.mp hx with hx | hx
    · exact (hm' x hx).trans hlast
    · exact hm x hx
  · rw [length_slabs hi']
    omega
  · rw [hi'.rep.slabs_eq] at hb
    exact hi'.mapped.mem_iff.mpr (List.mem_append_right _ hb)

/-- The class of 256 bytes, three objects to a slab: six are few, seven are not. -/
theorem footprint_threshold_256 : 2 ≤ num_buffers (int_of_size_t 256) ∧
    (∀ w₀ t σ, PoolRun 256 w₀ t σ → (∀ x ∈ t, x.1.live.length ≤ 6) → σ.live.length ≤ 6 →
        (σ.world.slabs σ.pool).length ≤ 11)
      ∧ ∃ t σ, PoolRun 256 World.empty t σ ∧ (∀ x ∈ t, x.1.live.length ≤ 7)
        ∧ σ.live = [] ∧ 2 ^ 51 ≤ (σ.world.slabs σ.pool).length := by
  have hcap : num_buffers (int_of_size_t 256) = 3 := by decide
  obtain ⟨hfew, hmany⟩ := footprint_threshold capacity_256
  rw [hcap] at hfew hmany
  obtain ⟨t, σ, hrun, hm, hempty, hlen, -⟩ := hmany (2 ^ 51) le_rfl
  exact ⟨capacity_256, hfew, t, σ, hrun, hm, hempty, hlen⟩

end SlabAllocator
