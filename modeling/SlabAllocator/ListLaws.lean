/-
Two laws of the slab list that are stated on memory alone: what the two moves of
`slab_pool.c` do to the order of the slabs, and what `mem_slab_create_several`
puts before a list.

`move_slab_to_end_spec` and `move_slab_to_start_spec` speak of a list cut at the
moved slab. A caller knows the list and the slab, so the law names the slab by
membership and the result by `erase`, and gives the frame field by field.
-/
import SlabAllocator.SlabCreate
import SlabAllocator.SlabRuns

set_option autoImplicit false

open ByteMem DoublyLinked

namespace SlabAllocator

/-! ## Which fields a write of links keeps -/

/-- A write of links keeps every other field of every slab. -/
theorem LinkWrites.field {bs : List ℕ} {w w' : World} {b : ℕ} {f : SlabField}
    (h : LinkWrites bs w w') (hal : ∀ x ∈ bs, x % 4096 = 0) (hb : b ∈ bs) (hn : f ≠ .next)
    (hp : f ≠ .prev) : w'.field b f = w.field b f := by
  refine field_congr_unlinked hn hp fun a h1 h2 => h.mem a fun x hx => ?_
  have hx4 := hal x hx
  have hb4 := hal b hb
  omega

/-! ## Moves -/

/-- The list of `pool` is `xs`: the pages are mapped and linked in order, forwards and
backwards, between `list_start` and `list_end`. -/
structure Represents (w : World) (pool : slab_pool) (xs : List ℕ) : Prop where
  chain : Chain w xs
  start : pool.list_start = xs.headD NULL
  stop : pool.list_end = xs.getLastD NULL

/-- The list of `pool` went from `xs` to `ys`, and nothing else of the pool, of a slab or of
the process changed. -/
structure Reordered (xs ys : List ℕ) (w : World) (pool : slab_pool) (w' : World)
    (pool' : slab_pool) : Prop where
  list : Represents w' pool' ys
  pool : pool' = { pool with list_start := pool'.list_start, list_end := pool'.list_end }
  fields : ∀ b ∈ xs, ∀ f, f ≠ .next → f ≠ .prev → w'.field b f = w.field b f
  memory : LinkWrites xs w w'

/-- **The moves reorder the list.** Wherever the slab stands, one of them takes it behind
the others and the other takes it before them. -/
theorem list_moves_reorder {w : World} {pool : slab_pool} {xs : List ℕ} {s : ℕ}
    (h : Represents w pool xs) (hs : s ∈ xs) :
    (∃ pool' w', move_slab_to_end_of_the_list pool s w = .ok (pool', w')
      ∧ Reordered xs (xs.erase s ++ [s]) w pool w' pool')
    ∧ ∃ pool' w', move_slab_to_start_of_the_list pool s w = .ok (pool', w')
      ∧ Reordered xs (s :: xs.erase s) w pool w' pool' := by
  have hal := h.chain.aligned
  obtain ⟨l, r, -, rfl, hrest⟩ := List.exists_erase_eq hs
  rw [hrest]
  constructor
  · obtain ⟨w', hrun, hchain, hw⟩ := move_slab_to_end_spec pool h.chain h.start h.stop
    refine ⟨_, w', hrun, ⟨hchain, rfl, ?_⟩, rfl, fun b hb f hn hp => hw.field hal hb hn hp, hw⟩
    rw [List.getLastD_concat]
  · obtain ⟨w', hrun, hchain, hw⟩ := move_slab_to_start_spec pool h.chain h.start h.stop
    exact ⟨_, w', hrun, ⟨hchain, rfl, rfl⟩, rfl, fun b hb f hn hp => hw.field hal hb hn hp, hw⟩

/-- One mapping in an empty process makes a list. -/
theorem exists_chain {n : ℕ} (h1 : 1 ≤ n) (hn : n ≤ 16) :
    ∃ w, Chain w (pages 4096 n) ∧ w.mapped = pages 4096 n ∧ w.heap = [] := by
  have hf : MmapFresh ⟨fun _ => 0, [], [], []⟩ (⟨4096, 0, fun _ => 0⟩ : Os).mmap n := by
    refine ⟨by decide, by decide, ?_, by simp, by simp⟩
    simp only [SLAB_PAGE_SIZE]
    omega
  have hnil : Chain ⟨fun _ => 0, [], [], []⟩ [] := ⟨by simp, by simp, by simp, by simp, trivial⟩
  obtain ⟨w, -, hc⟩ := mem_slab_create_several_spec 0 (show 1 ≤ num_buffers 8 by decide) h1 hf hnil
  have hchain := hc.chain
  rw [List.append_nil] at hchain
  exact ⟨w, hchain, hc.mapped, hc.heap⟩

/-- The law for the middle one of three slabs. -/
theorem list_moves_reorder_middle : ∃ w pool, Represents w pool [4096, 8192, 12288]
    ∧ ∃ pool' w', move_slab_to_start_of_the_list pool 8192 w = .ok (pool', w')
      ∧ Represents w' pool' [8192, 4096, 12288] := by
  obtain ⟨w, hchain, -⟩ := exists_chain (show 1 ≤ 3 by decide) (by decide)
  have hlist : Represents w ⟨4096, 12288, 8, ⟨15, 10, 15⟩, ⟨0, 0, 3, 0⟩⟩ [4096, 8192, 12288] :=
    ⟨hchain, rfl, rfl⟩
  obtain ⟨-, pool', w', hrun, hre⟩ := list_moves_reorder hlist (show 8192 ∈ _ by decide)
  exact ⟨w, _, hlist, pool', w', hrun, hre.list⟩

/-! ## Fresh slabs before a list -/

/-- What `prepare_slab_header` leaves on a page: the magic number, no object, and every slot
in the free list in index order. -/
structure InitialSlab (w : World) (size : Int32) (slab : ℕ) : Prop where
  slab_magic : w.field slab .slab_magic = SLAB_MAGIC_NUMBER
  ref_count : w.field slab .ref_count = 0
  max_refs : w.field slab .max_refs = num_buffers size
  free : FreeList w slab (num_buffers size) (List.range (num_buffers size)) []

/-- **`mem_slab_create_several`** builds the list it is to build: `count` slabs in the
initial state on consecutive pages, then the list it was given, of whose slabs only the
`prev` of the first one changes. -/
theorem mem_slab_create_several_builds {size : Int32} (alignment : Int32) {os : Os} {count : ℕ}
    {bs : List ℕ} {w : World} (hn : 1 ≤ num_buffers size) (hcount : 1 ≤ count)
    (hf : MmapFresh w os.mmap count) (hbs : Chain w bs) :
    ∃ w', mem_slab_create_several os size alignment count (bs.headD NULL) w = .ok (os.mmap, w')
      ∧ Chain w' (pages os.mmap count ++ bs)
      ∧ (∀ b ∈ pages os.mmap count, InitialSlab w' size b)
      ∧ (∀ b ∈ bs, ∀ f, (bs.head? = some b → f ≠ .prev) → w'.field b f = w.field b f)
      ∧ (∀ b ∈ bs, ∀ a, b + sizeof_mem_slab ≤ a → a < b + SLAB_PAGE_SIZE → w'.mem a = w.mem a) := by
  obtain ⟨w', hrun, hc⟩ := mem_slab_create_several_spec alignment hn hcount hf hbs
  have hold := hf.mapped
  -- the bytes of an old slab are outside the mapping
  have hkeep : ∀ b ∈ bs, ∀ a, b ≤ a → a < b + 4096 →
      (bs.head? = some b → a < b + 56 ∨ b + 64 ≤ a) → w'.mem a = w.mem a := by
    intro b hb a h1 h2 hhead
    have hout := hold b (hbs.page b hb).1
    have hhigh := hbs.high b hb
    have hb4 := hbs.aligned b hb
    unfold SLAB_PAGE_SIZE at hout
    refine hc.mem a (by omega) fun x hx => ?_
    by_cases hxb : x = b
    · rw [hxb] at hx ⊢
      exact hhead hx
    · have hx4 := hbs.aligned x (List.mem_of_mem_head? hx)
      omega
  refine ⟨w', hrun, hc.chain, fun b hb => ?_, fun b hb f hf => ?_, fun b hb a h1 h2 => ?_⟩
  -- a new slab is as `prepare_slab_header` left it, whatever links it got
  · have hr := hc.slabs b hb
    exact ⟨hr.slab_magic, hr.ref_count, hr.max_refs, hr.freeList⟩
  · -- a field other than `prev` ends before it
    by_cases hhead : bs.head? = some b
    · have hfit : f.offset + f.width ≤ 56 := by
        have hne := hf hhead
        revert hne
        cases f <;> decide
      exact loadLE_congr _ fun a h1 h2 =>
        hkeep b hb a (by omega) (by omega) fun _ => .inl (by omega)
    · refine field_congr fun a h1 h2 => hkeep b hb a h1 (by omega) fun he => absurd he hhead
  · unfold sizeof_mem_slab at h1
    unfold SLAB_PAGE_SIZE at h2
    exact hkeep b hb a (by omega) h2 fun _ => .inr h1

/-- The law for two slabs of 400 bytes before one other slab. -/
theorem mem_slab_create_several_builds_400 : ∃ w w', Chain w [4096]
    ∧ mem_slab_create_several ⟨8192, 0, fun _ => 0⟩ 400 0 2 4096 w = .ok (8192, w')
    ∧ Chain w' [8192, 12288, 4096] ∧ InitialSlab w' 400 12288 := by
  obtain ⟨w, hchain, hm, hh⟩ := exists_chain (show 1 ≤ 1 by decide) (by decide)
  have hf : MmapFresh w (⟨8192, 0, fun _ => 0⟩ : Os).mmap 2 := by
    refine ⟨by decide, by decide, by decide, ?_, by simp [hh]⟩
    rw [hm]
    decide
  obtain ⟨w', hrun, hchain', hinit, -⟩ :=
    mem_slab_create_several_builds 0 (show 1 ≤ num_buffers 400 by decide) (by decide) hf hchain
  exact ⟨w, w', hchain, hrun, hchain', hinit 12288 (by decide)⟩

end SlabAllocator
