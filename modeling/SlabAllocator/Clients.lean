/-
The stress tests: `slab_test.c`, `pool_test.c` and `smalloc_test.c`.

The three programs have one loop. Each iteration draws a number, and according
to it and to the number of pointers it holds it takes an object or gives one
back, which it draws as well. The loop is translated once, over the calls it
makes; the array of pointers is the source's, with the loop that closes the gap
when a pointer is removed. What the loop relies on is `Contract`: the calls
succeed while the kernel grants memory and no more than `capacity` pointers are
out, they do so in every build, and they keep a relation to the pointers held.
One lemma carries the relation through an iteration, and each test instantiates
it with the runs of the layer it tests.

The number drawn and the threshold it is compared with are floating point. All
that is kept of them is whether the one is below the other, and nothing is
assumed about that.
-/
import SlabAllocator.SlabSet

set_option autoImplicit false

open Runs

namespace SlabAllocator

/-! ## The array of pointers -/

/-- `struct pointer_array`. -/
structure pointer_array where
  pointers : ℕ → ℕ
  pointer_count : ℕ
  capacity : ℕ

/-- Put a pointer behind the others. -/
def pointer_array_append (array : pointer_array) (pointer : ℕ) : pointer_array :=
  { array with
    pointers := Function.update array.pointers array.pointer_count pointer
    pointer_count := array.pointer_count + 1 }

/-- The loop of `pointer_array_remove`, with a bound on its iterations. -/
def pointer_array_remove_loop (last : ℕ) : ℕ → ℕ → (ℕ → ℕ) → ℕ → ℕ
  | 0, _, pointers => pointers
  | fuel + 1, i, pointers =>
      if i < last then
        pointer_array_remove_loop last fuel (i + 1)
          (Function.update pointers i (pointers (i + 1)))
      else pointers

/-- Remove the pointer at `index` and close the gap. -/
def pointer_array_remove (array : pointer_array) (index : ℕ) : pointer_array :=
  { array with
    pointers := pointer_array_remove_loop (size_t_sub array.pointer_count 1) array.pointer_count
      index array.pointers
    pointer_count := size_t_sub array.pointer_count 1 }

/-- The pointers an array holds. -/
def pointer_array.contents (array : pointer_array) : List ℕ :=
  (List.range array.pointer_count).map array.pointers

section Array

variable {array : pointer_array} {p index : ℕ}

@[simp] theorem length_contents : array.contents.length = array.pointer_count := by
  rw [pointer_array.contents, List.length_map, List.length_range]

theorem contents_append :
    (pointer_array_append array p).contents = array.contents ++ [p] := by
  have hnew : (pointer_array_append array p).pointers array.pointer_count = p :=
    Function.update_self _ _ _
  have hold : ∀ i ∈ List.range array.pointer_count,
      (pointer_array_append array p).pointers i = array.pointers i := fun i hi =>
    Function.update_of_ne (Nat.ne_of_lt (List.mem_range.mp hi)) _ _
  have hcount : (pointer_array_append array p).pointer_count = array.pointer_count + 1 := rfl
  rw [pointer_array.contents, pointer_array.contents, hcount, List.range_succ, List.map_append,
    List.map_singleton, hnew, List.map_congr_left hold]

/-- The loop moves everything behind `i` one place to the front, up to `last`. -/
theorem pointer_array_remove_loop_apply {last fuel i : ℕ} {f : ℕ → ℕ} (h : last ≤ i + fuel)
    (j : ℕ) : pointer_array_remove_loop last fuel i f j
      = if i ≤ j ∧ j < last then f (j + 1) else f j := by
  induction fuel generalizing i f with
  | zero =>
      rw [pointer_array_remove_loop, if_neg]
      omega
  | succ fuel ih =>
      rw [pointer_array_remove_loop]
      by_cases hi : i < last
      · rw [if_pos hi, ih (by omega)]
        by_cases hji : j = i
        · subst hji
          rw [if_neg (by omega), if_pos ⟨Nat.le_refl j, hi⟩, Function.update_self]
        · rw [Function.update_of_ne hji]
          by_cases hj : i ≤ j ∧ j < last
          -- the entry behind is one the loop has not reached
          · rw [if_pos (by omega), if_pos hj, Function.update_of_ne (by omega)]
          · rw [if_neg (by omega), if_neg hj]
      · rw [if_neg hi, if_neg (by omega)]

theorem contents_remove (hi : index < array.pointer_count) (hlt : array.pointer_count < 2 ^ 64) :
    (pointer_array_remove array index).contents = array.contents.eraseIdx index := by
  have hsub : size_t_sub array.pointer_count 1 = array.pointer_count - 1 :=
    size_t_sub_eq (by omega) (by omega)
  refine List.ext_getElem ?_ fun j h₁ h₂ => ?_
  · rw [List.length_eraseIdx_of_lt (by rwa [length_contents]), length_contents, length_contents]
    exact hsub
  · have hj₁ : j < array.pointer_count - 1 := by
      rw [length_contents] at h₁
      exact hsub ▸ h₁
    simp only [pointer_array.contents, pointer_array_remove, hsub, List.getElem_eraseIdx,
      List.getElem_map, List.getElem_range]
    rw [pointer_array_remove_loop_apply (by omega)]
    by_cases hj : j < index
    · rw [dif_pos hj, if_neg (by omega)]
    · rw [dif_neg hj, if_pos (by omega)]

/-- What is left is what was there without the pointer removed. -/
theorem contents_remove_perm (hi : index < array.pointer_count)
    (hlt : array.pointer_count < 2 ^ 64) :
    (array.contents.erase (array.pointers index)).Perm
      (pointer_array_remove array index).contents := by
  have hlen : index < array.contents.length := by rwa [length_contents]
  have hget : array.contents[index] = array.pointers index := by
    simp only [pointer_array.contents, List.getElem_map, List.getElem_range]
  have hmem : array.pointers index ∈ array.contents := hget ▸ List.getElem_mem hlen
  rw [contents_remove hi hlt]
  refine List.Perm.cons_inv (a := array.pointers index) ?_
  refine (List.perm_cons_erase hmem).symm.trans ?_
  rw [← hget]
  exact (List.getElem_cons_eraseIdx_perm hlen).symm

end Array

/-! ## The loop -/

/-- What an iteration draws, and what the operating system answers in it. -/
structure Choice where
  /-- `election < election_threshold`. -/
  below : Bool
  /-- `rand()`, for the pointer to give back or for the size to ask for. -/
  rand : ℕ
  os : Os

/-- The body of the loop of the stress tests. -/
def test_iteration {m : Type → Type} [Monad m] {σ : Type} (allocate : Choice → σ → m (σ × ℕ))
    (deallocate : Choice → σ → ℕ → m σ) (c : Choice) (s : σ) (pa : pointer_array) :
    m (σ × pointer_array) :=
  -- If free action and there are pointers to free, do the free
  if c.below ∧ pa.pointer_count ≠ 0 then do
    let free_index := c.rand % pa.pointer_count
    let s ← deallocate c s (pa.pointers free_index)
    return (s, pointer_array_remove pa free_index)
  -- if there aren't pointers to free, then malloc
  else if c.below ∧ pa.pointer_count = 0 then do
    let r ← allocate c s
    return (r.1, pointer_array_append pa r.2)
  -- if malloc action and enogh space on the array, then malloc
  else if ¬ c.below ∧ pa.pointer_count < pa.capacity then do
    let r ← allocate c s
    return (r.1, pointer_array_append pa r.2)
  -- if malloc action and not enough space then free
  else if ¬ c.below ∧ pa.pointer_count = size_t_sub pa.capacity 1 then do
    let free_index := c.rand % pa.pointer_count
    let s ← deallocate c s (pa.pointers free_index)
    return (s, pointer_array_remove pa free_index)
  else
    return (s, pa)

/-- A test program: its two calls, in the default build and in those with assertions. -/
structure Driver (σ : Type) where
  allocate : Choice → σ → M (σ × ℕ)
  deallocate : Choice → σ → ℕ → M σ
  checked_allocate : Build → Choice → σ → Checked (σ × ℕ)
  checked_deallocate : Build → Choice → σ → ℕ → Checked σ

/-- A test program at the head of its loop. -/
structure TestState (σ : Type) where
  world : World
  heap : σ
  array : pointer_array

namespace Driver

variable {σ : Type}

/-- An iteration in the default build. -/
def iteration (d : Driver σ) (c : Choice) (s : TestState σ) :
    Except Fault ((σ × pointer_array) × World) :=
  test_iteration d.allocate d.deallocate c s.heap s.array s.world

/-- An iteration in a build with assertions. -/
def checked_iteration (d : Driver σ) (build : Build) (c : Choice) (s : TestState σ) :
    Except Stop ((σ × pointer_array) × World) :=
  test_iteration (m := Checked) (d.checked_allocate build) (d.checked_deallocate build) c s.heap
    s.array s.world

/-- One iteration, when the operating system gives what `Granted` says. -/
def Step (d : Driver σ) (Granted : World → σ → Choice → Prop) (s : TestState σ) (c : Choice)
    (s' : TestState σ) : Prop :=
  Granted s.world s.heap c ∧ d.iteration c s = .ok ((s'.heap, s'.array), s'.world)

/-- What the loop relies on: with no more than `capacity` pointers out the calls succeed, in
every build, and keep what `R` says of the pointers out. -/
structure Contract (d : Driver σ) (Granted : World → σ → Choice → Prop)
    (R : World → σ → List ℕ → Prop) (capacity : ℕ) : Prop where
  pos : 0 < capacity
  perm : ∀ {w s L L'}, R w s L → L.Perm L' → R w s L'
  allocate : ∀ {w s L c}, R w s L → L.length < capacity → Granted w s c → ∃ s' p w',
    d.allocate c s w = .ok ((s', p), w')
      ∧ (∀ build, d.checked_allocate build c s w = .ok ((s', p), w')) ∧ R w' s' (p :: L)
  deallocate : ∀ {w s L c p}, R w s L → p ∈ L → Granted w s c → ∃ s' w',
    d.deallocate c s p w = .ok (s', w')
      ∧ (∀ build, d.checked_deallocate build c s p w = .ok (s', w')) ∧ R w' s' (L.erase p)

/-- What holds at the head of the loop. -/
structure Holds (R : World → σ → List ℕ → Prop) (capacity : ℕ) (s : TestState σ) : Prop where
  related : R s.world s.heap s.array.contents
  count : s.array.pointer_count ≤ capacity
  capacity : s.array.capacity = capacity

section Iteration

variable {d : Driver σ} {Granted : World → σ → Choice → Prop} {R : World → σ → List ℕ → Prop}
  {capacity : ℕ} {s : TestState σ} {c : Choice}

/-- An iteration that takes an object. -/
theorem Contract.append (hd : d.Contract Granted R capacity) (h : Holds R capacity s)
    (hg : Granted s.world s.heap c) (hlt : s.array.pointer_count < capacity) :
    ∃ s' : TestState σ, Holds R capacity s'
      ∧ (d.allocate c s.heap >>= fun r => pure (r.1, pointer_array_append s.array r.2)) s.world
        = .ok ((s'.heap, s'.array), s'.world)
      ∧ ∀ build, (d.checked_allocate build c s.heap
          >>= fun r => pure (r.1, pointer_array_append s.array r.2)) s.world
        = .ok ((s'.heap, s'.array), s'.world) := by
  obtain ⟨s', p, w', hok, hchecked, hR⟩ :=
    hd.allocate h.related (by rwa [length_contents]) hg
  refine ⟨⟨w', s', pointer_array_append s.array p⟩, ⟨?_, hlt, h.capacity⟩, ?_, fun build => ?_⟩
  · refine hd.perm hR ?_
    rw [contents_append]
    exact (List.perm_append_singleton p s.array.contents).symm
  · rw [bind_ok hok]
    rfl
  · rw [Checked.bind_ok (hchecked build)]
    rfl

/-- An iteration that gives one back. -/
theorem Contract.remove (hd : d.Contract Granted R capacity) (hcap : capacity < 2 ^ 64)
    (h : Holds R capacity s) (hg : Granted s.world s.heap c) (hne : s.array.pointer_count ≠ 0) :
    ∃ s' : TestState σ, Holds R capacity s'
      ∧ (d.deallocate c s.heap (s.array.pointers (c.rand % s.array.pointer_count)) >>= fun r =>
          pure (r, pointer_array_remove s.array (c.rand % s.array.pointer_count))) s.world
        = .ok ((s'.heap, s'.array), s'.world)
      ∧ ∀ build, (d.checked_deallocate build c s.heap
          (s.array.pointers (c.rand % s.array.pointer_count)) >>= fun r =>
          pure (r, pointer_array_remove s.array (c.rand % s.array.pointer_count))) s.world
        = .ok ((s'.heap, s'.array), s'.world) := by
  have hcount := h.count
  have hi : c.rand % s.array.pointer_count < s.array.pointer_count :=
    Nat.mod_lt _ (Nat.pos_of_ne_zero hne)
  have hmem : s.array.pointers (c.rand % s.array.pointer_count) ∈ s.array.contents :=
    List.mem_map_of_mem (List.mem_range.mpr hi)
  obtain ⟨s', w', hok, hchecked, hR⟩ := hd.deallocate h.related hmem hg
  refine ⟨⟨w', s', pointer_array_remove s.array (c.rand % s.array.pointer_count)⟩,
    ⟨hd.perm hR (contents_remove_perm hi (by omega)), ?_, h.capacity⟩, ?_, fun build => ?_⟩
  · change size_t_sub s.array.pointer_count 1 ≤ capacity
    rw [size_t_sub_eq (by omega) (by omega)]
    omega
  · rw [bind_ok hok]
    rfl
  · rw [Checked.bind_ok (hchecked build)]
    rfl

/-- **One iteration** succeeds in every build and keeps what holds at the head of the loop.
Its fourth branch is never taken: the third one comes first. -/
theorem Contract.iteration (hd : d.Contract Granted R capacity) (hcap : capacity < 2 ^ 64)
    (h : Holds R capacity s) (hg : Granted s.world s.heap c) :
    ∃ s' : TestState σ, Holds R capacity s'
      ∧ d.iteration c s = .ok ((s'.heap, s'.array), s'.world)
      ∧ ∀ build, d.checked_iteration build c s = .ok ((s'.heap, s'.array), s'.world) := by
  have hpos := hd.pos
  have hlast : size_t_sub s.array.capacity 1 = capacity - 1 := by
    rw [h.capacity]
    exact size_t_sub_eq hpos (by omega)
  unfold Driver.iteration checked_iteration test_iteration
  by_cases h₁ : c.below = true ∧ s.array.pointer_count ≠ 0
  · simp only [if_pos h₁]
    exact hd.remove hcap h hg h₁.2
  simp only [if_neg h₁]
  by_cases h₂ : c.below = true ∧ s.array.pointer_count = 0
  · simp only [if_pos h₂]
    exact hd.append h hg (by omega)
  simp only [if_neg h₂]
  by_cases h₃ : ¬ c.below = true ∧ s.array.pointer_count < s.array.capacity
  · simp only [if_pos h₃]
    exact hd.append h hg (h.capacity ▸ h₃.2)
  simp only [if_neg h₃]
  have h₄ : ¬ (¬ c.below = true ∧ s.array.pointer_count = size_t_sub s.array.capacity 1) := by
    rintro ⟨hb, he⟩
    exact h₃ ⟨hb, by rw [he, hlast, h.capacity]; omega⟩
  simp only [if_neg h₄]
  exact ⟨s, h, rfl, fun _ => rfl⟩

/-- **The loop**: what holds at its head holds in every iteration, and the next one succeeds
in every build. -/
theorem Contract.run (hd : d.Contract Granted R capacity) (hcap : capacity < 2 ^ 64)
    {s₀ : TestState σ} {t : List (TestState σ × Choice)} (h₀ : Holds R capacity s₀)
    (hrun : Run (d.Step Granted) s₀ t s) :
    Holds R capacity s ∧ ∀ c, Granted s.world s.heap c → ∃ r, d.iteration c s = .ok r
      ∧ ∀ build, d.checked_iteration build c s = .ok r := by
  have h : Holds R capacity s := hrun.always h₀ (by
    rintro s c s' h ⟨hg, hok⟩
    obtain ⟨s'', h'', hok', -⟩ := hd.iteration hcap h hg
    rw [hok, Except.ok.injEq, Prod.mk.injEq, Prod.mk.injEq] at hok'
    obtain ⟨⟨h₁, h₂⟩, h₃⟩ := hok'
    rcases s' with ⟨w', s', pa'⟩
    rcases s'' with ⟨w'', s'', pa''⟩
    cases h₁
    cases h₂
    cases h₃
    exact h'')
  refine ⟨h, fun c hg => ?_⟩
  obtain ⟨s', -, hok, hchecked⟩ := hd.iteration hcap h hg
  exact ⟨_, hok, hchecked⟩

end Iteration

end Driver

/-! ## `slab_test.c`

`slab_test` and `pool_test` draw an index of `allocation_sizes` as well and do not use it. -/

/-- The calls of `slab_test`. -/
def slab_test (slab : ℕ) : Driver Unit where
  allocate _ _ := do return ((), ← mem_slab_alloc slab)
  deallocate _ _ pointer := mem_slab_dealloc slab pointer
  checked_allocate build _ _ := do return ((), ← Checked.mem_slab_alloc build slab)
  checked_deallocate build _ _ pointer := Checked.mem_slab_dealloc build slab pointer

/-- `slab_test` at the head of its loop for the first time. -/
structure SlabTestStart (w₀ : World) (os : Os) (slab : ℕ) (s : TestState Unit) : Prop where
  fresh : MmapFresh w₀ os.mmap 1
  run : mem_slab_create os 8 0 w₀ = .ok (slab, s.world)
  count : s.array.pointer_count = 0
  capacity : slab_get slab .max_refs s.world = .ok (s.array.capacity, s.world)

section SlabTest

variable {w₀ : World} {os : Os} {slab : ℕ} {g : Shape} {s s₀ : TestState Unit}
  {t : List (TestState Unit × Choice)}

/-- A slab meets the contract of the loop, as long as it is asked for no more than it has. -/
theorem slab_test_contract (h2 : 2 ≤ g.cap) : (slab_test slab).Contract (fun _ _ _ => True)
    (fun w _ L => SlabInv g slab ⟨w, L⟩) g.cap := by
  refine ⟨g.cap_pos, ?_, ?_, ?_⟩
  · rintro w _ L L' ⟨x, hrep, hlive⟩ hperm
    exact ⟨x, hrep, hperm.symm.trans hlive⟩
  · rintro w _ L c hi hlt -
    obtain ⟨x, hrep, hlive⟩ := id hi
    have hfree : x.free ≠ [] := by
      intro hfree
      have hlen := hlive.length_eq
      rw [List.length_map, Slots.busy_length_eq.mpr hfree] at hlen
      exact Nat.ne_of_lt hlt hlen
    obtain ⟨f, F, hF⟩ := List.exists_cons_of_ne_nil hfree
    obtain ⟨x', ha, -⟩ := Slots.alloc_cons hF
    obtain ⟨w', hrun, -⟩ := mem_slab_alloc_spec hrep h2 ha
    have hnext := hi.step h2 (.alloc hrun)
    rw [if_neg slot_ne_null] at hnext
    refine ⟨(), _, w', bind_ok hrun, fun build => ?_, hnext⟩
    exact Checked.bind_ok (Checked.passes_mem_slab_alloc hrep h2 ha _ hrun)
  · rintro w _ L c p hi hp -
    obtain ⟨x, hrep, hlive⟩ := id hi
    obtain ⟨i, hib, rfl⟩ := List.mem_map.mp (hlive.mem_iff.mp hp)
    obtain ⟨w', hrun, -⟩ := mem_slab_dealloc_spec hrep hib g.size_pos
    have hpass := fun build => @Checked.passes_mem_slab_dealloc build _ _ _ _ _ _ hrep hib
      g.size_pos _ hrun
    rw [Nat.add_zero] at hrun
    exact ⟨(), w', hrun, hpass, hi.step h2 (.dealloc hp hrun)⟩

/-- **`slab_test` passes.** In every iteration, whatever is drawn, the array has room, the
pointers in it are different objects of the slab, as many as `ref_count` says and none of them
`NULL`; and the next iteration comes to its end in every build, with every assertion it makes. -/
theorem slab_test_passes (hstart : SlabTestStart w₀ os slab s₀)
    (hrun : Run ((slab_test slab).Step fun _ _ _ => True) s₀ t s) :
    s.array.contents.Nodup ∧ NULL ∉ s.array.contents
      ∧ s.array.pointer_count ≤ num_buffers 8
      ∧ s.world.field slab .ref_count = s.array.pointer_count
      ∧ ∀ c, ∃ r, (slab_test slab).iteration c s = .ok r
        ∧ ∀ build, (slab_test slab).checked_iteration build c s = .ok r := by
  have hn : 1 ≤ num_buffers 8 := by decide
  have h2 : 2 ≤ num_buffers 8 := by decide
  have hcap : num_buffers 8 < 2 ^ 64 := by decide
  obtain ⟨w₁, hcreate, hrep, -⟩ := mem_slab_create_spec 0 hn hstart.fresh
  have hsame := hstart.run
  rw [hcreate, Except.ok.injEq, Prod.mk.injEq] at hsame
  obtain ⟨rfl, rfl⟩ := hsame
  have hcapacity : s₀.array.capacity = num_buffers 8 := by
    have hget := hstart.capacity
    rw [slab_get_ok hrep.page, hrep.max_refs, Except.ok.injEq, Prod.mk.injEq] at hget
    exact hget.1.symm
  have hnil : s₀.array.contents = [] := by
    rw [pointer_array.contents, hstart.count]
    rfl
  have h₀ : Driver.Holds (fun w _ L => SlabInv (Shape.of 8 hn) os.mmap ⟨w, L⟩) (num_buffers 8) s₀ :=
    ⟨⟨_, hrep, by rw [hnil]; exact .nil⟩, by rw [hstart.count]; exact Nat.zero_le _, hcapacity⟩
  obtain ⟨h, hnext⟩ := (slab_test_contract (g := Shape.of 8 hn) h2).run hcap h₀ hrun
  obtain ⟨x, hrep', hlive⟩ := h.related
  have hnd : (x.busy.map ((Shape.of 8 hn).slot os.mmap)).Nodup :=
    (List.nodup_append.mp x.nodup).2.1.map fun i j he => (Shape.of 8 hn).slot_inj he
  refine ⟨hlive.nodup_iff.mpr hnd, fun hmem => ?_, h.count, ?_, fun c => hnext c trivial⟩
  · obtain ⟨i, -, he⟩ := List.mem_map.mp (hlive.mem_iff.mp hmem)
    exact slot_ne_null he
  · rw [hrep'.ref_count, ← length_contents, hlive.length_eq, List.length_map]

end SlabTest

/-- `slab_test` after one iteration. -/
theorem slab_test_passes_first : ∃ w₀ os slab s₀ t s, t ≠ [] ∧ SlabTestStart w₀ os slab s₀
    ∧ Run ((slab_test slab).Step fun _ _ _ => True) s₀ t s ∧ s.array.contents.Nodup
    ∧ s.world.field slab .ref_count = s.array.pointer_count := by
  have hf : MmapFresh World.empty (⟨4096, 0, fun _ => 0⟩ : Os).mmap 1 :=
    ⟨by decide, by decide, by decide, by simp [World.empty], by simp [World.empty]⟩
  obtain ⟨w₁, hcreate, hrep, -⟩ := @mem_slab_create_spec _ _ 8 0 (by decide) hf
  have hstart : SlabTestStart World.empty ⟨4096, 0, fun _ => 0⟩ 4096
      ⟨w₁, (), ⟨fun _ => 0, 0, w₁.field 4096 .max_refs⟩⟩ :=
    ⟨hf, hcreate, rfl, slab_get_ok hrep.page .max_refs⟩
  obtain ⟨-, -, -, -, hnext⟩ := slab_test_passes hstart .start
  obtain ⟨⟨⟨u, pa⟩, w⟩, hok, -⟩ := hnext ⟨false, 0, ⟨0, 0, fun _ => 0⟩⟩
  have hrun : Run ((slab_test 4096).Step fun _ _ _ => True) _ _ ⟨w, u, pa⟩ :=
    .next .start ⟨trivial, hok⟩
  obtain ⟨hnd, -, -, hcount, -⟩ := slab_test_passes hstart hrun
  exact ⟨_, _, _, _, _, _, by simp, hstart, hrun, hnd, hcount⟩

/-! ## `pool_test.c` -/

/-- The number of pointers `pool_test` and `smalloc_test` have room for. -/
def MAX_ALLOCATIONS : ℕ := 100000

/-- The calls of `pool_test`. -/
def pool_test : Driver slab_pool where
  allocate c pool := slab_pool_allocate c.os pool
  deallocate _ pool pointer := slab_pool_deallocate pool pointer
  checked_allocate build c pool := Checked.slab_pool_allocate build c.os pool
  checked_deallocate build _ pool pointer := Checked.slab_pool_deallocate build pool pointer

/-- `pool_test` at the head of its loop for the first time. -/
structure PoolTestStart (w₀ : World) (os : Os) (s : TestState slab_pool) : Prop where
  fresh : MmapFresh w₀ os.mmap POOL_START_SIZE
  run : slab_pool_create os 8 w₀ = .ok (s.heap, s.world)
  count : s.array.pointer_count = 0
  capacity : s.array.capacity = MAX_ALLOCATIONS

/-- The kernel has memory to give. -/
def MmapGranted {σ : Type} (w : World) (_ : σ) (c : Choice) : Prop :=
  MmapFresh w c.os.mmap POOL_GROW_RATE

/-- The pointers `L` are those of a run of a pool of 8 bytes. -/
def OfPoolRun (w₀ w : World) (pool : slab_pool) (L : List ℕ) : Prop :=
  ∃ t live, PoolRun 8 w₀ t ⟨w, pool, live⟩ ∧ live.Perm L

section PoolTest

variable {w₀ : World} {os : Os} {s s₀ : TestState slab_pool}
  {t : List (TestState slab_pool × Choice)}

/-- A pool meets the contract of the loop. -/
theorem pool_test_contract : pool_test.Contract MmapGranted (OfPoolRun w₀) MAX_ALLOCATIONS := by
  have h2 : 2 ≤ num_buffers (int_of_size_t 8) := by decide
  refine ⟨by decide, ?_, ?_, ?_⟩
  · rintro w pool L L' ⟨t, live, hrun, hlive⟩ hperm
    exact ⟨t, live, hrun, hlive.trans hperm⟩
  · rintro w pool L c ⟨t, live, hrun, hlive⟩ - hg
    obtain ⟨xs, hi⟩ := hrun.inv h2
    obtain ⟨b, f, ys, pool', w', hok, -⟩ := hi.allocate h2 c.os fun _ => hg
    obtain ⟨σ₀, os, hopen, hr⟩ := hrun
    refine ⟨pool', _, w', hok, fun build => ?_, _, _, ⟨σ₀, os, hopen, hr.next (.allocate hg hok)⟩,
      hlive.cons _⟩
    exact Checked.passes_slab_pool_allocate hi.rep h2 (fun _ => hg) _ hok
  · rintro w pool L c p ⟨t, live, hrun, hlive⟩ hp -
    obtain ⟨xs, hi⟩ := hrun.inv h2
    have hp' : p ∈ live := hlive.mem_iff.mpr hp
    obtain ⟨l, x, r, i, pool', w', rfl, hib, rfl, hok, -⟩ := hi.deallocate hp'
    obtain ⟨σ₀, os, hopen, hr⟩ := hrun
    refine ⟨pool', w', hok, fun build => ?_, _, _, ⟨σ₀, os, hopen, hr.next (.deallocate hp' hok)⟩,
      hlive.erase _⟩
    exact Checked.passes_slab_pool_deallocate hi.rep hib _ hok

/-- **`pool_test` passes.** Every iteration, whatever is drawn and wherever the kernel puts the
mappings, is a step of a run of the pool in which exactly the pointers of the array are live;
the array has room, no pointer is in it twice, and the next iteration comes to its end in every
build. -/
theorem pool_test_passes (hstart : PoolTestStart w₀ os s₀)
    (hrun : Run (pool_test.Step MmapGranted) s₀ t s) :
    (∃ t' live, PoolRun 8 w₀ t' ⟨s.world, s.heap, live⟩ ∧ live.Perm s.array.contents)
      ∧ s.array.contents.Nodup ∧ s.array.pointer_count ≤ MAX_ALLOCATIONS
      ∧ ∀ c, MmapGranted s.world s.heap c → ∃ r, pool_test.iteration c s = .ok r
        ∧ ∀ build, pool_test.checked_iteration build c s = .ok r := by
  have hnil : s₀.array.contents = [] := by
    rw [pointer_array.contents, hstart.count]
    rfl
  have h₀ : Driver.Holds (OfPoolRun w₀) MAX_ALLOCATIONS s₀ := by
    refine ⟨⟨[], [], ⟨_, os, ⟨hstart.fresh, hstart.run, rfl⟩, .start⟩, ?_⟩, ?_, hstart.capacity⟩
    · rw [hnil]
    · rw [hstart.count]
      exact Nat.zero_le _
  obtain ⟨h, hnext⟩ := pool_test_contract.run (by decide) h₀ hrun
  obtain ⟨t', live, hpool, hlive⟩ := h.related
  obtain ⟨xs, hi⟩ := hpool.inv (by decide)
  have hnd : live.Nodup := hi.live.nodup_iff.mpr hi.rep.list.nodup_busyPtrs
  exact ⟨⟨t', live, hpool, hlive⟩, hlive.nodup_iff.mp hnd, h.count, hnext⟩

end PoolTest

/-- `pool_test` after one iteration. -/
theorem pool_test_passes_first : ∃ w₀ os s₀ t s, t ≠ [] ∧ PoolTestStart w₀ os s₀
    ∧ Run (pool_test.Step MmapGranted) s₀ t s ∧ s.array.contents.Nodup
    ∧ ∃ t' live, PoolRun 8 w₀ t' ⟨s.world, s.heap, live⟩ ∧ live.Perm s.array.contents := by
  have h1 : 1 ≤ num_buffers (int_of_size_t 8) := by decide
  obtain ⟨σ, hopen⟩ := exists_opened ⟨4096, 0, fun _ => 0⟩ h1 fresh_empty
  have hstart : PoolTestStart World.empty ⟨4096, 0, fun _ => 0⟩
      ⟨σ.world, σ.pool, ⟨fun _ => 0, 0, MAX_ALLOCATIONS⟩⟩ := ⟨hopen.fresh, hopen.run, rfl, rfl⟩
  have hg : MmapGranted σ.world σ.pool ⟨false, 0, 45056, 0, fun _ => 0⟩ :=
    Room.fresh (room_opened _) (hopen.inv h1)
  obtain ⟨-, -, -, hnext⟩ := pool_test_passes hstart .start
  obtain ⟨⟨⟨pool', pa⟩, w'⟩, hok, -⟩ := hnext _ hg
  have hrun : Run (pool_test.Step MmapGranted) _ _ ⟨w', pool', pa⟩ := .next .start ⟨hg, hok⟩
  obtain ⟨hpool, hnd, -⟩ := pool_test_passes hstart hrun
  exact ⟨_, _, _, _, _, by simp, hstart, hrun, hnd, hpool⟩

/-! ## `smalloc_test.c` -/

/-- The sizes `smalloc_test` asks for. -/
def allocation_sizes : List ℕ := [2, 8, 12, 32, 37, 128, 512]

/-- The size drawn. -/
def Choice.size (c : Choice) : ℕ := allocation_sizes.getD (c.rand % 7) 0

/-- The calls of `smalloc_test`. -/
def smalloc_test : Driver (List slab_pool) where
  allocate c pools := smalloc c.os pools c.size
  deallocate c pools pointer := sfree c.os pools pointer
  checked_allocate build c pools := Checked.smalloc build c.os pools c.size
  checked_deallocate build c pools pointer := Checked.sfree build c.os pools pointer

/-- `smalloc_test` at the head of its loop for the first time. The program calls
`smalloc_initialize` itself, after the constructor has: `w₀` is the process before that call. -/
structure SmallocTestStart (w₀ : World) (os : ℕ → Os) (s : TestState (List slab_pool)) : Prop where
  init : Initialized w₀ ⟨s.world, s.heap, []⟩ os
  count : s.array.pointer_count = 0
  capacity : s.array.capacity = MAX_ALLOCATIONS

/-- The operating system has memory to give, and none of its chunks starts in a page that
begins like a slab. -/
def SystemGranted (w : World) (_ : List slab_pool) (c : Choice) : Prop :=
  MmapFresh w c.os.mmap POOL_GROW_RATE ∧ MallocFresh w w.heap c.os.malloc c.size
    ∧ ∀ d ∈ w.heap, w.field (get_page_pointer d.1) .slab_magic ≠ SLAB_MAGIC_NUMBER

/-- A run of the allocator in which no chunk passes for a slab and no payload reaches an entry. -/
structure CleanRun (w₀ : World) (t : List (ApiState × ApiEvent)) (σ : ApiState) : Prop where
  run : ApiRun 0 w₀ t σ
  unfooled : ∀ x ∈ t, x.1.Unfooled x.2
  apart : ∀ x ∈ t, x.1.Apart x.2

section CleanRuns

variable {w₀ w : World} {t : List (ApiState × ApiEvent)} {σ : ApiState} {pools : List slab_pool}
  {live : List Buffer} {b : Buffer} {n : ℕ}

theorem CleanRun.inv (h : CleanRun w₀ t σ) : ∃ vs, AllocInv w₀ σ vs :=
  h.run.inv h.unfooled (.inr ⟨rfl, h.apart⟩)

/-- A request goes through, in every build. -/
theorem CleanRun.smalloc (h : CleanRun w₀ t ⟨w, pools, live⟩) (os : Os) (hn : 1 ≤ n)
    (hm : MmapFresh w os.mmap POOL_GROW_RATE) (hM : MallocFresh w w.heap os.malloc n) :
    ∃ pools' p w' o, smalloc os pools n w = .ok ((pools', p), w')
      ∧ (∀ build, Checked.smalloc build os pools n w = .ok ((pools', p), w'))
      ∧ CleanRun w₀ ((⟨w, pools, live⟩, .smalloc os n) :: t) ⟨w', pools', ⟨p, n, o⟩ :: live⟩ := by
  obtain ⟨vs, hi⟩ := h.inv
  obtain ⟨pools', p, w', -, hok, -⟩ := hi.smalloc hn hm hM
  obtain ⟨⟨σ₀, os₀, hinit, hr⟩, hu, hap⟩ := h
  have hstep : ApiStep 0 ⟨w, pools, live⟩ (.smalloc os n) _ :=
    ⟨⟨hn, hm, hM⟩, by rw [ApiState.exec, hok]; rfl⟩
  refine ⟨pools', p, w', _, hok, fun build => Checked.passes_smalloc hi hn hm _ hok,
    ⟨σ₀, os₀, hinit, hr.next hstep⟩, ?_, ?_⟩
  · exact fun x hx => (List.mem_cons.mp hx).elim (fun he => he ▸ trivial) (hu x)
  · exact fun x hx => (List.mem_cons.mp hx).elim (fun he => he ▸ trivial) (hap x)

/-- The release of a buffer goes through, in every build, if no chunk starts in a page that
begins like a slab. -/
theorem CleanRun.sfree (h : CleanRun w₀ t ⟨w, pools, live⟩) (os : Os) (hb : b ∈ live)
    (hmagic : ∀ d ∈ w.heap, w.field (get_page_pointer d.1) .slab_magic ≠ SLAB_MAGIC_NUMBER) :
    ∃ pools' w', sfree os pools b.ptr w = .ok (pools', w')
      ∧ (∀ build, Checked.sfree build os pools b.ptr w = .ok (pools', w'))
      ∧ CleanRun w₀ ((⟨w, pools, live⟩, .sfree os b) :: t) ⟨w', pools', live.erase b⟩ := by
  obtain ⟨vs, hi⟩ := h.inv
  have hub : (⟨w, pools, live⟩ : ApiState).Unfooled (.sfree os b) := by
    intro ho
    change w.field (get_page_pointer (b.ptr, b.size).1) .slab_magic ≠ SLAB_MAGIC_NUMBER
    exact hmagic (b.ptr, b.size) (hi.live.system b hb ho)
  obtain ⟨pools', w', vs', hok, -⟩ := hi.sfree hb hub
  obtain ⟨⟨σ₀, os₀, hinit, hr⟩, hu, hap⟩ := h
  have hstep : ApiStep 0 ⟨w, pools, live⟩ (.sfree os b) ⟨w', pools', live.erase b⟩ :=
    ⟨hb, by rw [ApiState.exec, hok]; rfl⟩
  refine ⟨pools', w', hok, fun build => Checked.passes_sfree hi hb hub _ hok,
    ⟨σ₀, os₀, hinit, hr.next hstep⟩, ?_, ?_⟩
  · exact fun x hx => (List.mem_cons.mp hx).elim (fun he => he ▸ hub) (hu x)
  · exact fun x hx => (List.mem_cons.mp hx).elim (fun he => he ▸ trivial) (hap x)

/-- The pointers that are left when one is released. -/
theorem map_ptr_erase {L : List ℕ} (hb : b ∈ live) (hlive : (live.map Buffer.ptr).Perm L) :
    ((live.erase b).map Buffer.ptr).Perm (L.erase b.ptr) := by
  have hcons : (b.ptr :: (live.erase b).map Buffer.ptr).Perm (live.map Buffer.ptr) :=
    ((List.perm_cons_erase hb).map Buffer.ptr).symm
  have herase := (hcons.trans hlive).erase b.ptr
  rwa [List.erase_cons_head] at herase

end CleanRuns

/-- The pointers `L` are those of a run of the allocator. -/
def OfCleanRun (w₀ w : World) (pools : List slab_pool) (L : List ℕ) : Prop :=
  ∃ t live, CleanRun w₀ t ⟨w, pools, live⟩ ∧ (live.map Buffer.ptr).Perm L

section SmallocTest

variable {w₀ : World} {os : ℕ → Os} {s s₀ : TestState (List slab_pool)}
  {t : List (TestState (List slab_pool) × Choice)}

theorem Choice.size_pos (c : Choice) : 1 ≤ c.size := by
  have hlt : c.rand % 7 < allocation_sizes.length := Nat.mod_lt _ (by decide)
  rw [Choice.size, List.getD_eq_getElem _ _ hlt]
  have hall : ∀ n ∈ allocation_sizes, 1 ≤ n := by decide
  exact hall _ (List.getElem_mem hlt)

/-- The allocator meets the contract of the loop. -/
theorem smalloc_test_contract :
    smalloc_test.Contract SystemGranted (OfCleanRun w₀) MAX_ALLOCATIONS := by
  refine ⟨by decide, ?_, ?_, ?_⟩
  · rintro w pools L L' ⟨t, live, h, hlive⟩ hperm
    exact ⟨t, live, h, hlive.trans hperm⟩
  · rintro w pools L c ⟨t, live, h, hlive⟩ - ⟨hm, hM, -⟩
    obtain ⟨pools', p, w', o, hok, hchecked, h'⟩ := h.smalloc c.os c.size_pos hm hM
    exact ⟨pools', p, w', hok, hchecked, _, _, h', hlive.cons p⟩
  · rintro w pools L c p ⟨t, live, h, hlive⟩ hp ⟨-, -, hmagic⟩
    obtain ⟨b, hb, rfl⟩ := List.mem_map.mp (hlive.mem_iff.mpr hp)
    obtain ⟨pools', w', hok, hchecked, h'⟩ := h.sfree c.os hb hmagic
    exact ⟨pools', w', hok, hchecked, _, _, h', map_ptr_erase hb hlive⟩

/-- **`smalloc_test` passes**, if no chunk of the system allocator passes for a slab: every
iteration, whatever is drawn, is a step of a run of the allocator in which exactly the pointers
of the array are live; the array has room, no pointer is in it twice and none is `NULL`, and the
next iteration comes to its end in every build. -/
theorem smalloc_test_passes (hstart : SmallocTestStart w₀ os s₀)
    (hrun : Run (smalloc_test.Step SystemGranted) s₀ t s) :
    (∃ t' live, ApiRun 0 w₀ t' ⟨s.world, s.heap, live⟩
        ∧ (live.map Buffer.ptr).Perm s.array.contents)
      ∧ s.array.contents.Nodup ∧ NULL ∉ s.array.contents
      ∧ s.array.pointer_count ≤ MAX_ALLOCATIONS
      ∧ ∀ c, SystemGranted s.world s.heap c → ∃ r, smalloc_test.iteration c s = .ok r
        ∧ ∀ build, smalloc_test.checked_iteration build c s = .ok r := by
  have hnil : s₀.array.contents = [] := by
    rw [pointer_array.contents, hstart.count]
    rfl
  have h₀ : Driver.Holds (OfCleanRun w₀) MAX_ALLOCATIONS s₀ := by
    refine ⟨⟨[], [], ⟨⟨_, os, hstart.init, .start⟩, by simp, by simp⟩, ?_⟩, ?_, hstart.capacity⟩
    · rw [hnil]
      exact .nil
    · rw [hstart.count]
      exact Nat.zero_le _
  obtain ⟨h, hnext⟩ := smalloc_test_contract.run (by decide) h₀ hrun
  obtain ⟨t', live, hclean, hlive⟩ := h.related
  obtain ⟨vs, hi⟩ := hclean.inv
  refine ⟨⟨t', live, hclean.run, hlive⟩, hlive.nodup_iff.mp hi.live.nodup, fun hmem => ?_, h.count,
    hnext⟩
  obtain ⟨b, hb, he⟩ := List.mem_map.mp (hlive.mem_iff.mpr hmem)
  have hlow := (hi.bounds hb).1
  rw [he] at hlow
  exact absurd hlow (by decide)

end SmallocTest

/-- `smalloc_test` after one iteration, which asks for two bytes. -/
theorem smalloc_test_passes_first : ∃ w₀ os s₀ t s, t ≠ [] ∧ SmallocTestStart w₀ os s₀
    ∧ Run (smalloc_test.Step SystemGranted) s₀ t s ∧ s.array.contents.Nodup
    ∧ NULL ∉ s.array.contents := by
  obtain ⟨⟨w, pools, live⟩, os, hinit, hroomy⟩ := exists_initialized
  obtain rfl : live = [] := hinit.live
  have hstart : SmallocTestStart World.empty os ⟨w, pools, ⟨fun _ => 0, 0, MAX_ALLOCATIONS⟩⟩ :=
    ⟨hinit, rfl, rfl⟩
  have hheap : w.heap = [] := hroomy.heap
  have hg : SystemGranted w pools ⟨false, 0, roomyOs⟩ :=
    ⟨hroomy.mmap, hroomy.malloc (by decide), by simp [hheap]⟩
  obtain ⟨-, -, -, -, hnext⟩ := smalloc_test_passes hstart .start
  obtain ⟨⟨⟨pools', pa⟩, w'⟩, hok, -⟩ := hnext _ hg
  have hrun : Run (smalloc_test.Step SystemGranted) _ _ ⟨w', pools', pa⟩ :=
    .next .start ⟨hg, hok⟩
  obtain ⟨-, hnd, hnull, -⟩ := smalloc_test_passes hstart hrun
  exact ⟨_, _, _, _, _, by simp, hstart, hrun, hnd, hnull⟩

end SlabAllocator
