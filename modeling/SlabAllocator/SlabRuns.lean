/-
Runs of one slab: any order of allocations and releases of live pointers on a
page that `prepare_slab_header` made, and nobody else touching the page.

`FreeList` is what such a page shows to somebody who knows nothing of `Slots`:
the sequence read forwards from the start index, the same sequence read
backwards from the end index, and the flags. It determines the two sequences,
so the operations can be described on them. `Rep` implies it, and the run lemma
carries `Rep`.
-/
import SlabAllocator.SlabOps
import SlabAllocator.Runs

set_option autoImplicit false

open DoublyLinked Runs

namespace SlabAllocator

/-! ## What the page shows -/

/-- The free list of the `n` slots of `slab`, read from the page: the free slots `F`
followed by the busy slots `B`. The walks may take one step more than there are
slots, so each of them ended at the end mark. -/
structure FreeList (w : World) (slab n : ℕ) (F B : List ℕ) : Prop where
  perm : (F ++ B).Perm (List.range n)
  forward : walk (w.buf (slab + 64) · .next_index) NON_EXISTANT (n + 1)
    (w.field slab .freelist_start_index) = F ++ B
  stop : (F ++ B).getLast? = some (w.field slab .freelist_end_index)
  backward : walk (w.buf (slab + 64) · .prev_index) NON_EXISTANT (n + 1)
    (w.field slab .freelist_end_index) = (F ++ B).reverse
  free_iff : ∀ i < n, w.buf (slab + 64) i .is_free = SLOT_FREE ↔ i ∈ F
  busy_iff : ∀ i < n, w.buf (slab + 64) i .is_free = SLOT_BUSY ↔ i ∈ B
  ref_count : w.field slab .ref_count = B.length

/-- The address of slot `i` by the formula of `mem_slab_alloc`. -/
def World.slotPtr (w : World) (slab i : ℕ) : ℕ :=
  w.field slab .allocable_buffer + w.field slab .size * i

section View

variable {w : World} {g : Shape} {base : ℕ} {s : Slots g.cap}

theorem Slots.order_ne_nil (s : Slots g.cap) : s.order ≠ [] := by
  intro he
  have h0 : 0 ∈ s.order := Slots.mem_order.mpr g.cap_pos
  rw [he] at h0
  simp at h0

theorem Rep.slotPtr_eq (h : Rep w g base s) (i : ℕ) : w.slotPtr base i = g.slot base i := by
  rw [World.slotPtr, h.allocable_buffer, h.size]
  rfl

/-- The page shows the sequences it stands for. -/
theorem Rep.freeList (h : Rep w g base s) : FreeList w base g.cap s.free s.busy := by
  have hlen : s.order.length ≤ g.cap + 1 := by
    have := s.length_order
    rw [Slots.order, List.length_append]
    omega
  have hflag : ∀ i < g.cap, i ∈ s.free ∨ i ∈ s.busy := fun i hi =>
    List.mem_append.mp (Slots.mem_order.mpr hi)
  refine ⟨s.perm, ?_, ?_, ?_, fun i hi => ⟨fun hf => ?_, h.free i⟩,
    fun i hi => ⟨fun hb => ?_, h.busy i⟩, h.ref_count⟩
  · rw [h.start]
    exact h.links.walk_eq Rep.nonExistant_not_mem hlen
  · rw [h.stop]
    obtain ⟨l, a, he⟩ := (List.eq_nil_or_concat' s.order).resolve_left s.order_ne_nil
    rw [show s.free ++ s.busy = l ++ [a] from he, he, List.getLastD_concat,
      List.getLast?_concat]
  -- backwards it is the walk of the reversed sequence
  · have hback := h.links.reverse.walk_eq (n := g.cap + 1)
      (fun hm => Rep.nonExistant_not_mem (List.mem_reverse.mp hm))
      (by rw [List.length_reverse]; exact hlen)
    have hlast : s.order.reverse.headD NON_EXISTANT = s.order.getLastD NON_EXISTANT := by
      obtain ⟨l, a, he⟩ := (List.eq_nil_or_concat' s.order).resolve_left s.order_ne_nil
      rw [he, List.getLastD_concat, List.reverse_concat, List.headD_cons]
    rw [hlast, ← h.stop] at hback
    exact hback
  · refine (hflag i hi).resolve_right fun hb => ?_
    rw [h.busy i hb] at hf
    exact absurd hf (by decide)
  · refine (hflag i hi).resolve_left fun hf => ?_
    rw [h.free i hf] at hb
    exact absurd hb (by decide)

end View

/-! ## Runs -/

/-- One slab page in use: the process, and the pointers handed out and not yet
returned. -/
structure SlabState where
  world : World
  live : List ℕ

/-- The calls of a run. -/
inductive SlabEvent
  | alloc
  | dealloc (ptr : ℕ)

/-- One call. A `NULL` from `mem_slab_alloc` adds no live pointer. -/
inductive SlabStep (slab : ℕ) : SlabState → SlabEvent → SlabState → Prop
  | alloc {σ : SlabState} {p : ℕ} {w' : World} (hrun : mem_slab_alloc slab σ.world = .ok (p, w')) :
      SlabStep slab σ .alloc ⟨w', if p = NULL then σ.live else p :: σ.live⟩
  | dealloc {σ : SlabState} {p : ℕ} {w' : World} (hlive : p ∈ σ.live)
      (hrun : mem_slab_dealloc slab p σ.world = .ok ((), w')) :
      SlabStep slab σ (.dealloc p) ⟨w', σ.live.erase p⟩

/-- The page is a slab, and its busy slots are the live pointers. -/
def SlabInv (g : Shape) (slab : ℕ) (σ : SlabState) : Prop :=
  ∃ s : Slots g.cap, Rep σ.world g slab s ∧ σ.live.Perm (s.busy.map (g.slot slab))

section Steps

variable {g : Shape} {slab : ℕ} {σ σ' : SlabState} {e : SlabEvent}

theorem slot_ne_null {i : ℕ} : g.slot slab i ≠ NULL := by
  have := g.slot_ge (b := slab) (i := i)
  unfold NULL
  omega

theorem map_slot_erase {l : List ℕ} {x : ℕ} :
    (l.map (g.slot slab)).erase (g.slot slab x) = (l.erase x).map (g.slot slab) :=
  (List.map_erase (fun _ _ h => g.slot_inj h) l).symm

/-- One call keeps the page a slab and its busy slots the live pointers. -/
theorem SlabInv.step (h2 : 2 ≤ g.cap) (hi : SlabInv g slab σ) (hs : SlabStep slab σ e σ') :
    SlabInv g slab σ' := by
  obtain ⟨s, hrep, hlive⟩ := hi
  cases hs with
  | alloc hrun =>
      rcases hfree : s.free with _ | ⟨f, F⟩
      · rw [mem_slab_alloc_full hrep (Slots.alloc_nil hfree)] at hrun
        cases hrun
        exact ⟨s, hrep, hlive⟩
      · obtain ⟨s', ha, -, hbusy⟩ := Slots.alloc_cons hfree
        obtain ⟨w', hok, hrep', -⟩ := mem_slab_alloc_spec hrep h2 ha
        rw [hok] at hrun
        cases hrun
        refine ⟨s', hrep', ?_⟩
        rw [if_neg slot_ne_null, hbusy, List.map_append]
        exact (hlive.cons _).trans (List.perm_append_singleton _ _).symm
  | dealloc hp hrun =>
      obtain ⟨x, hx, rfl⟩ := List.mem_map.mp (hlive.mem_iff.mp hp)
      obtain ⟨w', hok, hrep', -⟩ := mem_slab_dealloc_spec hrep hx g.size_pos
      rw [Nat.add_zero] at hok
      rw [hok] at hrun
      cases hrun
      refine ⟨_, hrep', ?_⟩
      have hperm := ((Slots.dealloc_perm hx).erase x).map (g.slot slab)
      rw [List.erase_cons_head, ← map_slot_erase] at hperm
      exact (hlive.erase _).trans hperm

end Steps

end SlabAllocator
