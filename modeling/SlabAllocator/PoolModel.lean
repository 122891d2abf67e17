/-
What a pool does, without memory: a list of slabs, each with its `Slots`.

An allocation looks at the first slab, then at the second with the first one put
behind all others, and grows if both are full. A release brings the slab to the
front, and drops it if it became empty and the rules say so. Nothing here has
addresses of links, counters or bytes; the operations are executable, so a
history can be computed.

The two laws of the model that are not visible in one call are here as well.
`Sorted` is the order under which looking at two slabs is as good as looking at
all of them, and `length_deallocate` says what a release does to the number of
slabs.
-/
import SlabAllocator.FreeList
import SlabAllocator.Pool
import Mathlib.Data.List.Rotate

set_option autoImplicit false

namespace SlabAllocator

/-- A slab as its pool sees it: its page and its slots. -/
structure PoolSlab (n : ℕ) where
  base : ℕ
  slots : Slots n

namespace PoolSlab

variable {n : ℕ}

/-- Every slot is busy. -/
def Full (x : PoolSlab n) : Prop := x.slots.free = []

instance (x : PoolSlab n) : Decidable x.Full := inferInstanceAs (Decidable (_ = _))

/-- A new slab. -/
def fresh (n base : ℕ) : PoolSlab n := ⟨base, Slots.init n⟩

theorem not_full_fresh (h : 1 ≤ n) (base : ℕ) : ¬ (fresh n base).Full := by
  intro hf
  have h0 : 0 ∈ (fresh n base).slots.free := List.mem_range.mpr h
  rw [show (fresh n base).slots.free = [] from hf] at h0
  simp at h0

end PoolSlab

/-! ## The operations -/

section Model

variable {n : ℕ}

/-- The number of objects the slabs hold. -/
def objects (xs : List (PoolSlab n)) : ℕ := (xs.map fun x => x.slots.busy.length).sum

/-- The first slab is full. -/
def FirstFull (xs : List (PoolSlab n)) : Prop := ∀ x ∈ xs.head?, x.Full

instance (xs : List (PoolSlab n)) : Decidable (FirstFull xs) :=
  match xs with
  | [] => .isTrue (by simp [FirstFull])
  | x :: _ => decidable_of_iff x.Full (by simp [FirstFull])

/-- The pool grows: the first slab is full, and so is the one after it. -/
def Grows (xs : List (PoolSlab n)) : Prop := FirstFull xs ∧ FirstFull (xs.rotate 1)

instance (xs : List (PoolSlab n)) : Decidable (Grows xs) := inferInstanceAs (Decidable (_ ∧ _))

/-- The pages an allocation maps, given the address of the mapping. -/
def newPages (a : ℕ) (xs : List (PoolSlab n)) : List ℕ :=
  if Grows xs then pages a POOL_GROW_RATE else []

/-- The list an allocation is served from, given the address of a new mapping in case
there is one. -/
def arrange (a : ℕ) (xs : List (PoolSlab n)) : List (PoolSlab n) :=
  if FirstFull xs then
    if FirstFull (xs.rotate 1) then
      (pages a POOL_GROW_RATE).map (PoolSlab.fresh n) ++ xs.rotate 2
    else xs.rotate 1
  else xs

/-- Handing out a slot of the first slab: the slab's page, the slot, and the list. -/
def serve : List (PoolSlab n) → Option (ℕ × ℕ × List (PoolSlab n))
  | [] => none
  | x :: xs => x.slots.alloc.map fun r => (x.base, r.1, ⟨x.base, r.2⟩ :: xs)

/-- An allocation. -/
def allocate (a : ℕ) (xs : List (PoolSlab n)) : Option (ℕ × ℕ × List (PoolSlab n)) :=
  serve (arrange a xs)

/-- The smallest number of slabs a pool is configured to keep. -/
def minimum_slabs : ℕ := POOL_GROW_RATE + POOL_MAX_GROW_RATE

/-- A release drops a slab that it leaves empty, unless it is the only one or there are
more than `minimum_slabs` of them. -/
def Drops (x : PoolSlab n) (rest : List (PoolSlab n)) (i : ℕ) : Prop :=
  (x.slots.dealloc i).busy = [] ∧ rest ≠ [] ∧ rest.length + 1 ≤ minimum_slabs

instance (x : PoolSlab n) (rest : List (PoolSlab n)) (i : ℕ) : Decidable (Drops x rest i) :=
  inferInstanceAs (Decidable (_ ∧ _ ∧ _))

/-- The other slabs. -/
def others (b : ℕ) (xs : List (PoolSlab n)) : List (PoolSlab n) := xs.filter fun x => x.base ≠ b

/-- The release of slot `i` of the slab on page `b`. -/
def deallocate (b i : ℕ) (xs : List (PoolSlab n)) : List (PoolSlab n) :=
  match xs.find? fun x => x.base = b with
  | none => xs
  | some x =>
      if Drops x (others b xs) i then others b xs
      else ⟨b, x.slots.dealloc i⟩ :: others b xs

/-! ## What they do to a list of distinct pages -/

theorem filter_ne_of_nodup {l r : List (PoolSlab n)} {x : PoolSlab n}
    (hnd : ((l ++ x :: r).map PoolSlab.base).Nodup) : others x.base (l ++ x :: r) = l ++ r := by
  rw [List.map_append, List.map_cons, List.nodup_append] at hnd
  obtain ⟨-, hr, hd⟩ := hnd
  have hl' : others x.base l = l := by
    refine List.filter_eq_self.mpr fun y hy => ?_
    have := hd y.base (List.mem_map_of_mem hy) x.base List.mem_cons_self
    simpa using this
  have hr' : others x.base r = r := by
    refine List.filter_eq_self.mpr fun y hy => ?_
    have hne : y.base ≠ x.base := fun he =>
      (List.nodup_cons.mp hr).1 (he ▸ List.mem_map_of_mem hy)
    simpa using hne
  rw [others, List.filter_append, List.filter_cons, if_neg (by simp)]
  exact congrArg₂ _ hl' hr'

theorem find_of_nodup {l r : List (PoolSlab n)} {x : PoolSlab n}
    (hnd : ((l ++ x :: r).map PoolSlab.base).Nodup) :
    (l ++ x :: r).find? (fun y => y.base = x.base) = some x := by
  rw [List.map_append, List.map_cons, List.nodup_append] at hnd
  rw [List.find?_append, List.find?_eq_none.mpr, List.find?_cons_of_pos (by simp)]
  · rfl
  · intro y hy
    have := hnd.2.2 y.base (List.mem_map_of_mem hy) x.base List.mem_cons_self
    simpa using this

theorem deallocate_eq {l r : List (PoolSlab n)} {x : PoolSlab n} {i : ℕ}
    (hnd : ((l ++ x :: r).map PoolSlab.base).Nodup) :
    deallocate x.base i (l ++ x :: r)
      = if Drops x (l ++ r) i then l ++ r else ⟨x.base, x.slots.dealloc i⟩ :: (l ++ r) := by
  rw [deallocate, find_of_nodup hnd, filter_ne_of_nodup hnd]

/-- What an allocation that succeeds did. -/
theorem serve_some {xs ys : List (PoolSlab n)} {b f : ℕ} (h : serve xs = some (b, f, ys)) :
    ∃ x rest s', xs = x :: rest ∧ x.base = b ∧ x.slots.alloc = some (f, s')
      ∧ ys = ⟨b, s'⟩ :: rest := by
  rcases xs with _ | ⟨x, rest⟩
  · cases h
  · rw [serve, Option.map_eq_some_iff] at h
    obtain ⟨⟨f', s'⟩, ha, he⟩ := h
    cases he
    exact ⟨x, rest, s', rfl, rfl, ha, rfl⟩

/-- The slab that served an allocation holds the slot. -/
theorem mem_allocate {a : ℕ} {xs ys : List (PoolSlab n)} {b f : ℕ}
    (h : allocate a xs = some (b, f, ys)) : ∃ x ∈ ys, x.base = b ∧ f ∈ x.slots.busy := by
  obtain ⟨x, rest, s', -, -, ha, rfl⟩ := serve_some h
  refine ⟨⟨b, s'⟩, List.mem_cons_self, rfl, ?_⟩
  rw [(Slots.alloc_some ha).2]
  simp

theorem arrange_of_not_grows {xs : List (PoolSlab n)} (a : ℕ) (h : ¬ Grows xs) :
    (arrange a xs).Perm xs := by
  unfold arrange
  split
  · rename_i h1
    rw [if_neg fun h2 => h ⟨h1, h2⟩]
    exact List.rotate_perm xs 1
  · exact .refl _

theorem arrange_of_grows {xs : List (PoolSlab n)} (a : ℕ) (h : Grows xs) :
    arrange a xs = (pages a POOL_GROW_RATE).map (PoolSlab.fresh n) ++ xs.rotate 2 := by
  rw [arrange, if_pos h.1, if_pos h.2]

/-- The first slab of the arranged list has room. -/
theorem not_firstFull_arrange {xs : List (PoolSlab n)} (a : ℕ) (hn : 1 ≤ n) (hne : xs ≠ []) :
    ∃ x rest, arrange a xs = x :: rest ∧ ¬ x.Full := by
  unfold arrange
  split
  · split
    · exact ⟨PoolSlab.fresh n a, _, rfl, PoolSlab.not_full_fresh hn _⟩
    · rename_i h
      rcases hr : xs.rotate 1 with _ | ⟨x, rest⟩
      · exact absurd (List.rotate_eq_nil_iff.mp hr) hne
      · rw [hr] at h
        exact ⟨x, rest, rfl, fun hx => h (by simpa [FirstFull] using hx)⟩
  · rename_i h
    rcases xs with _ | ⟨x, rest⟩
    · exact absurd rfl hne
    · exact ⟨x, rest, rfl, fun hx => h (by simpa [FirstFull] using hx)⟩

end Model

/-! ## How many slabs there are -/

section Length

variable {n a b f i : ℕ} {xs ys l r : List (PoolSlab n)} {x : PoolSlab n}

theorem length_serve (h : serve xs = some (b, f, ys)) : ys.length = xs.length := by
  obtain ⟨x, rest, s', rfl, -, -, rfl⟩ := serve_some h
  rfl

theorem length_allocate (h : allocate a xs = some (b, f, ys)) :
    ys.length = xs.length + if Grows xs then POOL_GROW_RATE else 0 := by
  rw [length_serve h]
  by_cases hg : Grows xs
  · rw [if_pos hg, arrange_of_grows a hg, List.length_append, List.length_map, List.length_rotate,
      pages, List.length_map, List.length_range, Nat.add_comm]
  · rw [if_neg hg, (arrange_of_not_grows a hg).length_eq, Nat.add_zero]

theorem length_deallocate (hnd : ((l ++ x :: r).map PoolSlab.base).Nodup) :
    (deallocate x.base i (l ++ x :: r)).length
      = (l ++ x :: r).length - if Drops x (l ++ r) i then 1 else 0 := by
  rw [deallocate_eq hnd]
  split <;> simp only [List.length_append, List.length_cons] <;> omega

/-- A release leaves the slab empty when it held one object. -/
theorem dealloc_busy_eq_nil {s : Slots n} (hi : i ∈ s.busy) :
    (s.dealloc i).busy = [] ↔ s.busy.length = 1 := by
  have h := (Slots.dealloc_perm hi).length_eq
  rw [List.length_cons] at h
  rw [← List.length_eq_zero_iff]
  omega

end Length

/-! ## The order of the list

The allocator looks at two slabs. That is enough while, the first slab apart, no full
slab stands before one with room. An allocation keeps this order; a release keeps it
unless it puts its slab before a full first one while some slab behind has room. -/

section Order

variable {n a b f i : ℕ} {xs ys l r : List (PoolSlab n)} {x : PoolSlab n}

/-- Behind the first slab, the full slabs come last. -/
def Sorted (xs : List (PoolSlab n)) : Prop := xs.tail.Pairwise fun x y => x.Full → y.Full

theorem sorted_fresh (hn : 1 ≤ n) (a k : ℕ) : Sorted ((pages a k).map (PoolSlab.fresh n)) := by
  refine List.pairwise_of_forall_mem_list fun x hx _ _ hf => ?_
  obtain ⟨c, -, rfl⟩ := List.mem_map.mp (List.mem_of_mem_tail hx)
  exact absurd hf (PoolSlab.not_full_fresh hn c)

/-- Under the order, a pool that grows has no room anywhere. -/
theorem Sorted.grows (h : Sorted xs) (hg : Grows xs) : ∀ x ∈ xs, x.Full := by
  obtain ⟨h1, h2⟩ := hg
  rcases xs with _ | ⟨x, _ | ⟨y, rest⟩⟩
  · simp
  · intro z hz
    rw [List.mem_singleton] at hz
    exact hz ▸ h1 x rfl
  · have hx : x.Full := h1 x rfl
    have hy : y.Full := h2 y (by rw [List.rotate_cons_succ, List.rotate_zero]; rfl)
    intro z hz
    rcases List.mem_cons.mp hz with rfl | hz
    · exact hx
    rcases List.mem_cons.mp hz with rfl | hz
    · exact hy
    · exact (List.pairwise_cons.mp h).1 z hz hy

theorem Sorted.arrange (h : Sorted xs) (hn : 1 ≤ n) : Sorted (arrange a xs) := by
  by_cases hg : Grows xs
  · have hfull := h.grows hg
    rw [arrange_of_grows a hg]
    -- new slabs with room before old ones without
    refine List.Pairwise.sublist (List.tail_sublist _) (List.pairwise_append.mpr ⟨?_, ?_, ?_⟩)
    · refine List.pairwise_of_forall_mem_list fun x hx _ _ hf => ?_
      obtain ⟨c, -, rfl⟩ := List.mem_map.mp hx
      exact absurd hf (PoolSlab.not_full_fresh hn c)
    · exact List.pairwise_of_forall_mem_list fun _ _ y hy _ =>
        hfull y ((List.rotate_perm xs 2).mem_iff.mp hy)
    · exact fun _ _ y hy _ => hfull y ((List.rotate_perm xs 2).mem_iff.mp hy)
  · unfold SlabAllocator.arrange
    split
    · rename_i h1
      rw [if_neg fun h2 => hg ⟨h1, h2⟩]
      rcases xs with _ | ⟨x, rest⟩
      · exact h
      · -- the full first slab goes behind the others
        have hx : x.Full := h1 x rfl
        rw [List.rotate_cons_succ, List.rotate_zero]
        refine List.Pairwise.sublist (List.tail_sublist _)
          (List.pairwise_append.mpr ⟨h, List.pairwise_singleton _ _, fun _ _ y hy _ => ?_⟩)
        rw [List.mem_singleton] at hy
        exact hy ▸ hx
    · exact h

/-- An allocation keeps the order. -/
theorem Sorted.allocate (h : Sorted xs) (hn : 1 ≤ n) (ha : allocate a xs = some (b, f, ys)) :
    Sorted ys := by
  obtain ⟨x, rest, s', he, -, -, rfl⟩ := serve_some ha
  have hs := h.arrange (a := a) hn
  rw [he] at hs
  exact hs

/-- A release keeps the order if its slab was the first, if the first slab had room, if
all further slabs are full, or if the slab is dropped. -/
theorem Sorted.deallocate (h : Sorted (l ++ x :: r))
    (hnd : ((l ++ x :: r).map PoolSlab.base).Nodup)
    (hok : l = [] ∨ ¬ FirstFull l ∨ (∀ y ∈ (l ++ r).tail, y.Full) ∨ Drops x (l ++ r) i) :
    Sorted (deallocate x.base i (l ++ x :: r)) := by
  rw [deallocate_eq hnd]
  have hsub : (l ++ r).tail.Pairwise fun x y => x.Full → y.Full := by
    rcases l with _ | ⟨a, l⟩
    · exact List.Pairwise.sublist (List.tail_sublist r) h
    · exact List.Pairwise.sublist ((List.sublist_cons_self x r).append_left l) h
  split
  · exact hsub
  · rename_i hd
    change (l ++ r).Pairwise fun x y => x.Full → y.Full
    rcases l with _ | ⟨a, l⟩
    · exact h
    · refine List.pairwise_cons.mpr ⟨fun y hy ha => ?_, hsub⟩
      rcases hok with hl | hf | hall | hdrop
      · cases hl
      · exact absurd (by simpa [FirstFull] using ha) hf
      · exact hall y hy
      · exact absurd hdrop hd

end Order

end SlabAllocator
