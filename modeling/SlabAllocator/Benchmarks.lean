/-
The synthetic benchmarks: `randomsize_fifo_synthetic.c` and
`randomalloc_synthetic.c`.

The first one fills an array with objects of drawn sizes and then gives them
back in the order it took them, a hundred times over. It works in batches, so
what it makes the allocator map does not depend on how often it goes round.

The second one draws up a plan before it starts: an array of operations in which
each allocation names the operation that is to give the object back, unless that
place is taken. Nothing checks the plan while it is carried out; that no object
is given back twice, and none before it is there, is a property of the way the
plan is drawn up.

Sizes and distances are drawn; the clock, and the sums of its differences, are
left out.
-/
import SlabAllocator.Batches
import SlabAllocator.Clients

set_option autoImplicit false

open Runs

namespace SlabAllocator

/-! ## First in, first out -/

/-- The rounds of the benchmark. -/
def ITERATION_COUNT : ℕ := 100

/-- The objects of a round. -/
def ALLOCATION_COUNT : ℕ := 1000000

/-- What the program draws for a call, and what the operating system answers in it. -/
structure Draw where
  allocation_size : ℕ
  os : Os

/-- The program before its next call: the array, the counters of the loops, and which of the two
inner loops it is in. -/
structure Fifo where
  pools : List slab_pool
  allocation : ℕ → ℕ
  it : ℕ
  i : ℕ
  allocating : Bool

/-- The counters when a call has returned. -/
def Fifo.advance (s : Fifo) : Fifo :=
  if s.i + 1 < ALLOCATION_COUNT then { s with i := s.i + 1 }
  else if s.allocating then { s with i := 0, allocating := false }
  else { s with i := 0, allocating := true, it := s.it + 1 }

/-- From one call to the next. -/
def fifo_call {m : Type → Type} [Monad m]
    (allocate : Draw → List slab_pool → m (List slab_pool × ℕ))
    (deallocate : Draw → List slab_pool → ℕ → m (List slab_pool)) (d : Draw) (s : Fifo) :
    m Fifo :=
  if s.allocating then do
    let r ← allocate d s.pools
    return Fifo.advance
      { s with pools := r.1, allocation := Function.update s.allocation s.i r.2 }
  else do
    let pools ← deallocate d s.pools (s.allocation s.i)
    return Fifo.advance { s with pools := pools }

/-- The process and the program in it. -/
structure FifoState where
  world : World
  program : Fifo

namespace FifoState

/-- The call in the default build. -/
def call (s : FifoState) (d : Draw) : Except Fault (Fifo × World) :=
  fifo_call (fun d pools => smalloc d.os pools d.allocation_size)
    (fun d pools ptr => sfree d.os pools ptr) d s.program s.world

/-- The call in a build with assertions. -/
def checked_call (build : Build) (s : FifoState) (d : Draw) : Except Stop (Fifo × World) :=
  fifo_call (m := Checked) (fun d pools => Checked.smalloc build d.os pools d.allocation_size)
    (fun d pools ptr => Checked.sfree build d.os pools ptr) d s.program s.world

/-- The program has rounds to go and draws a size other than zero, the operating system has
memory to give, and no chunk of it starts in a page that begins like a slab. -/
structure Granted (s : FifoState) (d : Draw) : Prop where
  round : s.program.it < ITERATION_COUNT
  size : 1 ≤ d.allocation_size
  mmap : MmapFresh s.world d.os.mmap POOL_GROW_RATE
  malloc : MallocFresh s.world s.world.heap d.os.malloc d.allocation_size
  magic : ∀ c ∈ s.world.heap,
    s.world.field (get_page_pointer c.1) .slab_magic ≠ SLAB_MAGIC_NUMBER

/-- One call of the program. -/
def Step (s : FifoState) (d : Draw) (s' : FifoState) : Prop :=
  s.Granted d ∧ s.call d = .ok (s'.program, s'.world)

/-- The program before its first call. -/
structure Start (w₀ : World) (os : ℕ → Os) (s : FifoState) : Prop where
  init : Initialized w₀ ⟨s.world, s.program.pools, []⟩ os
  it : s.program.it = 0
  i : s.program.i = 0
  allocating : s.program.allocating = true

end FifoState

/-- The pointers of the array that are out: those before the counter while the program allocates,
and those from it on while it gives them back. -/
def Fifo.pointers (s : Fifo) : List ℕ :=
  if s.allocating then (List.range s.i).map s.allocation
  else (List.range' s.i (ALLOCATION_COUNT - s.i)).map s.allocation

section Counters

variable {s : Fifo}

theorem allocation_count_pos : 0 < ALLOCATION_COUNT := by
  unfold ALLOCATION_COUNT
  omega

/-- A pointer has come behind the others. -/
theorem pointers_allocated {pools : List slab_pool} {p : ℕ} (h : s.allocating = true)
    (hi : s.i < ALLOCATION_COUNT) :
    (Fifo.advance { s with pools := pools, allocation := Function.update s.allocation s.i p
      }).pointers = s.pointers ++ [p] := by
  have hsame : (List.range s.i).map (Function.update s.allocation s.i p)
      = (List.range s.i).map s.allocation := by
    apply List.map_congr_left
    intro j hj
    exact Function.update_of_ne (Nat.ne_of_lt (List.mem_range.mp hj)) _ _
  have hall : (List.range (s.i + 1)).map (Function.update s.allocation s.i p)
      = (List.range s.i).map s.allocation ++ [p] := by
    rw [List.range_succ, List.map_append, hsame, List.map_singleton, Function.update_self]
  unfold Fifo.advance Fifo.pointers
  by_cases hlast : s.i + 1 < ALLOCATION_COUNT
  · simp only [if_pos hlast, h, if_true]
    exact hall
  · -- the second loop begins with the whole array
    have hn : ALLOCATION_COUNT = s.i + 1 := by omega
    simp only [if_neg hlast, h, if_true, Bool.false_eq_true, if_false]
    rw [Nat.sub_zero, ← List.range_eq_range', hn]
    exact hall

/-- The first pointer has gone. -/
theorem pointers_released {pools : List slab_pool} (h : s.allocating = false)
    (hi : s.i < ALLOCATION_COUNT) :
    s.pointers = s.allocation s.i :: (Fifo.advance { s with pools := pools }).pointers := by
  have hsplit : ALLOCATION_COUNT - s.i = (ALLOCATION_COUNT - (s.i + 1)) + 1 := by omega
  unfold Fifo.advance Fifo.pointers
  rw [h, hsplit, List.range'_succ, List.map_cons]
  by_cases hlast : s.i + 1 < ALLOCATION_COUNT
  · simp only [if_pos hlast, Bool.false_eq_true, if_false]
  · -- nothing is left, and the first loop begins
    have hn : ALLOCATION_COUNT = s.i + 1 := by omega
    simp only [if_neg hlast, Bool.false_eq_true, if_false, if_true]
    rw [hn, Nat.sub_self]
    rfl

/-- When the program has given everything back it holds nothing. -/
theorem pointers_at_turn {pools : List slab_pool} (h : s.allocating = false)
    (hturn : (Fifo.advance { s with pools := pools }).allocating = true) :
    (Fifo.advance { s with pools := pools }).pointers = [] := by
  unfold Fifo.advance at hturn ⊢
  by_cases hlast : s.i + 1 < ALLOCATION_COUNT
  · simp only [if_pos hlast, h, Bool.false_eq_true] at hturn
  · simp only [if_neg hlast, h, Bool.false_eq_true, if_false, Fifo.pointers, if_true,
      List.range_zero, List.map_nil]

theorem advance_pools (s : Fifo) : s.advance.pools = s.pools := by
  unfold Fifo.advance
  split
  · rfl
  · split <;> rfl

theorem advance_lt (s : Fifo) : s.advance.i < ALLOCATION_COUNT := by
  have hpos := allocation_count_pos
  unfold Fifo.advance
  split
  · assumption
  · split <;> exact hpos

theorem length_pointers (hi : s.i < ALLOCATION_COUNT) : s.pointers.length ≤ ALLOCATION_COUNT := by
  unfold Fifo.pointers
  split
  · rw [List.length_map, List.length_range]
    omega
  · rw [List.length_map, List.length_range']
    omega

end Counters

section Batches

variable {c n m : ℕ} {os : Os} {b : Buffer} {l es : List PoolEvent}

/-- A request in its turn. -/
theorem InBatches.request (h : InBatches es) (ht : held es = 0 ∨ Asking es) :
    InBatches (requested c os n ++ es)
      ∧ (held (requested c os n ++ es) = 0 ∨ Asking (requested c os n ++ es)) := by
  unfold requested
  split
  · refine ⟨⟨ht, h⟩, .inr ?_⟩
    intro e he
    cases he
    exact ⟨os, rfl⟩
  · exact ⟨h, ht⟩

theorem InBatches.return (h : InBatches es) : InBatches (returned c b ++ es) := by
  unfold returned
  split <;> exact h

/-- One event more. -/
theorem held_suffix (hl : l.length ≤ 1) (h : ∀ es', es' <:+ es → held es' ≤ m)
    (hnew : held (l ++ es) ≤ m) : ∀ es', es' <:+ l ++ es → held es' ≤ m := by
  intro es' hes
  rcases l with _ | ⟨e, _ | ⟨e', l⟩⟩
  · exact h es' hes
  · rcases List.suffix_cons_iff.mp hes with rfl | hes
    · exact hnew
    · exact h es' hes
  · simp only [List.length_cons] at hl
    omega

theorem length_requested : (requested c os n).length ≤ 1 := by
  unfold requested
  split <;> simp

theorem length_returned : (returned c b).length ≤ 1 := by
  unfold returned
  split <;> simp

end Batches

/-- What holds between two calls of the program, after the run `t`. -/
structure FifoInv (w₀ : World) (s : FifoState) (t : List (ApiState × ApiEvent))
    (live : List Buffer) : Prop where
  run : CleanRun w₀ t ⟨s.world, s.program.pools, live⟩
  live : (live.map Buffer.ptr).Perm s.program.pointers
  lt : s.program.i < ALLOCATION_COUNT
  batches : ∀ c ∈ cache_sizes, InBatches (asked c t)
  peak : ∀ c ∈ cache_sizes, ∀ es, es <:+ asked c t → held es ≤ ALLOCATION_COUNT
  turn : s.program.allocating = true → ∀ c ∈ cache_sizes, held (asked c t) = 0 ∨ Asking (asked c t)

section Fifo

variable {w₀ : World} {s s₀ : FifoState} {t : List (ApiState × ApiEvent)} {live : List Buffer}
  {d : Draw} {c : ℕ} {os : ℕ → Os}

/-- No class has more buffers out than there are. -/
theorem CleanRun.held_le {σ : ApiState} (h : CleanRun w₀ t σ) (hc : c ∈ cache_sizes) :
    held (asked c t) ≤ σ.live.length := by
  rw [← h.run.count h.unfooled (.inr ⟨rfl, h.apart⟩) hc]
  exact List.length_filter_le _ _

/-- A call that allocates. -/
theorem FifoInv.allocate (h : FifoInv w₀ s t live) (hg : s.Granted d)
    (ha : s.program.allocating = true) : ∃ s' t' live', FifoInv w₀ s' t' live'
      ∧ s.call d = .ok (s'.program, s'.world)
      ∧ ∀ build, s.checked_call build d = .ok (s'.program, s'.world) := by
  obtain ⟨pools, p, w, o, hok, hchecked, hrun⟩ := h.run.smalloc d.os hg.size hg.mmap hg.malloc
  have hpointers := @pointers_allocated s.program pools p ha h.lt
  obtain ⟨s', hs'⟩ : ∃ s', s' = Fifo.advance { s.program with
    pools := pools, allocation := Function.update s.program.allocation s.program.i p } := ⟨_, rfl⟩
  have hpools : s'.pools = pools := by
    rw [hs', advance_pools]
  have hlt : s'.i < ALLOCATION_COUNT := hs' ▸ advance_lt _
  rw [← hs'] at hpointers
  rw [← hpools] at hrun
  have hlive : ((⟨p, d.allocation_size, o⟩ :: live).map Buffer.ptr).Perm s'.pointers := by
    rw [hpointers]
    exact (h.live.cons p).trans (List.perm_append_singleton p _).symm
  refine ⟨⟨w, s'⟩, _, _, ⟨hrun, hlive, hlt, ?_, ?_, ?_⟩, ?_, fun build => ?_⟩
  · intro c hc
    exact ((h.batches c hc).request (h.turn ha c hc)).1
  · intro c hc
    refine held_suffix length_requested (h.peak c hc) ((hrun.held_le hc).trans ?_)
    rw [← List.length_map (f := Buffer.ptr), hlive.length_eq]
    exact length_pointers hlt
  · intro _ c hc
    exact ((h.batches c hc).request (h.turn ha c hc)).2
  · unfold FifoState.call fifo_call
    rw [if_pos ha, bind_ok hok, hs']
    rfl
  · unfold FifoState.checked_call fifo_call
    rw [if_pos ha, Checked.bind_ok (hchecked build), hs']
    rfl

/-- A call that gives back. -/
theorem FifoInv.deallocate (h : FifoInv w₀ s t live) (hg : s.Granted d)
    (ha : ¬ s.program.allocating = true) : ∃ s' t' live', FifoInv w₀ s' t' live'
      ∧ s.call d = .ok (s'.program, s'.world)
      ∧ ∀ build, s.checked_call build d = .ok (s'.program, s'.world) := by
  have hfirst := fun pools => @pointers_released s.program pools (by simpa using ha) h.lt
  have hmem : s.program.allocation s.program.i ∈ live.map Buffer.ptr := by
    rw [h.live.mem_iff, hfirst s.program.pools]
    exact List.mem_cons_self
  obtain ⟨b, hb, hptr⟩ := List.mem_map.mp hmem
  obtain ⟨pools, w, hok, hchecked, hrun⟩ := h.run.sfree d.os hb hg.magic
  rw [hptr] at hok hchecked
  have hpointers := hfirst pools
  obtain ⟨s', hs'⟩ : ∃ s', s' = Fifo.advance { s.program with pools := pools } := ⟨_, rfl⟩
  have hpools : s'.pools = pools := by
    rw [hs', advance_pools]
  have hlt : s'.i < ALLOCATION_COUNT := hs' ▸ advance_lt _
  rw [← hs'] at hpointers
  rw [← hpools] at hrun
  have hlive : ((live.erase b).map Buffer.ptr).Perm s'.pointers := by
    have herase := map_ptr_erase hb h.live
    rwa [hptr, hpointers, List.erase_cons_head] at herase
  have hheld : ∀ c ∈ cache_sizes,
      held (asked c ((⟨s.world, s.program.pools, live⟩, .sfree d.os b) :: t))
        ≤ s'.pointers.length := by
    intro c hc
    rw [← hlive.length_eq, List.length_map]
    exact hrun.held_le hc
  refine ⟨⟨w, s'⟩, _, _, ⟨hrun, hlive, hlt, ?_, ?_, ?_⟩, ?_, fun build => ?_⟩
  · intro c hc
    exact (h.batches c hc).return
  · intro c hc
    exact held_suffix length_returned (h.peak c hc) ((hheld c hc).trans (length_pointers hlt))
  -- when the program turns to allocating again it holds nothing
  · intro hturn c hc
    have hnone : s'.pointers = [] := by
      rw [hs'] at hturn ⊢
      exact pointers_at_turn (by simpa using ha) hturn
    have hle := hheld c hc
    rw [hnone] at hle
    exact .inl (Nat.le_zero.mp hle)
  · unfold FifoState.call fifo_call
    rw [if_neg ha, bind_ok hok, hs']
    rfl
  · unfold FifoState.checked_call fifo_call
    rw [if_neg ha, Checked.bind_ok (hchecked build), hs']
    rfl

/-- **One call** of the program goes through, in every build. -/
theorem FifoInv.step (h : FifoInv w₀ s t live) (hg : s.Granted d) : ∃ s' t' live',
    FifoInv w₀ s' t' live' ∧ s.call d = .ok (s'.program, s'.world)
      ∧ ∀ build, s.checked_call build d = .ok (s'.program, s'.world) := by
  by_cases ha : s.program.allocating = true
  · exact h.allocate hg ha
  · exact h.deallocate hg ha

/-- Before the first call. -/
theorem FifoState.Start.inv (h : s.Start w₀ os) : FifoInv w₀ s [] [] := by
  refine ⟨⟨⟨_, os, h.init, .start⟩, by simp, by simp⟩, ?_, ?_, fun _ _ => trivial, ?_,
    fun _ _ _ => .inl rfl⟩
  · unfold Fifo.pointers
    rw [if_pos h.allocating, h.i]
    exact .nil
  · rw [h.i]
    exact allocation_count_pos
  · intro c _ es hes
    rw [List.suffix_nil.mp hes]
    exact Nat.zero_le _

/-- **The benchmark runs through in bounded memory.** Whatever sizes it draws, zero apart, and
wherever memory is granted: before each of its calls exactly the pointers of the array that are
out are live, and no two of them are the same; no size class has more slabs than its first
mapping and those that the objects of one round fill, however many rounds have gone by; and the
next call succeeds in every build. -/
theorem randomsize_fifo_runs_through {t : List (FifoState × Draw)} (hstart : s₀.Start w₀ os)
    (hrun : Run FifoState.Step s₀ t s) :
    (∃ t' live, ApiRun 0 w₀ t' ⟨s.world, s.program.pools, live⟩
        ∧ (live.map Buffer.ptr).Perm s.program.pointers)
      ∧ s.program.pointers.Nodup
      ∧ (∀ pool ∈ s.program.pools, num_buffers (int_of_size_t pool.allocation_size)
          * ((s.world.slabs pool).length - POOL_GROW_RATE) ≤ ALLOCATION_COUNT)
      ∧ ∀ d, s.Granted d → ∃ r, s.call d = .ok r ∧ ∀ build, s.checked_call build d = .ok r := by
  obtain ⟨t', live, h⟩ := hrun.always (P := fun s => ∃ t' live, FifoInv w₀ s t' live)
    ⟨[], [], hstart.inv⟩ (by
      rintro s d s' ⟨t', live, h⟩ ⟨hg, hok⟩
      obtain ⟨s'', t'', live', h', hok', -⟩ := h.step hg
      rw [hok', Except.ok.injEq, Prod.mk.injEq] at hok
      rcases s' with ⟨w', p'⟩
      rcases s'' with ⟨w'', p''⟩
      obtain ⟨rfl, rfl⟩ := hok
      exact ⟨t'', live', h'⟩)
  obtain ⟨vs, hi⟩ := h.run.inv
  refine ⟨⟨t', live, h.run.run, h.live⟩, h.live.nodup_iff.mp hi.live.nodup, fun pool hpool => ?_,
    fun d hg => ?_⟩
  · have hmem : pool.allocation_size ∈ cache_sizes := by
      rw [← h.run.run.classes.sizes]
      exact List.mem_map_of_mem hpool
    exact h.run.run.batched h.run.unfooled (.inr ⟨rfl, h.run.apart⟩) hpool (h.batches _ hmem)
      (h.peak _ hmem)
  · obtain ⟨s', -, -, -, hok, hchecked⟩ := h.step hg
    exact ⟨_, hok, hchecked⟩

end Fifo

/-- The benchmark after its first call, which asks for two bytes. -/
theorem randomsize_fifo_runs_through_first : ∃ w₀ os s₀ t s, t ≠ [] ∧ FifoState.Start w₀ os s₀
    ∧ Run FifoState.Step s₀ t s ∧ s.program.pointers.Nodup
    ∧ ∀ pool ∈ s.program.pools, num_buffers (int_of_size_t pool.allocation_size)
      * ((s.world.slabs pool).length - POOL_GROW_RATE) ≤ ALLOCATION_COUNT := by
  obtain ⟨⟨w, pools, live⟩, os, hinit, hroomy⟩ := exists_initialized
  obtain rfl : live = [] := hinit.live
  have hheap : w.heap = [] := hroomy.heap
  have hstart : FifoState.Start World.empty os ⟨w, pools, fun _ => 0, 0, 0, true⟩ :=
    ⟨hinit, rfl, rfl, rfl⟩
  have hg : FifoState.Granted ⟨w, pools, fun _ => 0, 0, 0, true⟩ ⟨2, roomyOs⟩ :=
    ⟨(by decide : 0 < ITERATION_COUNT), (by decide : 1 ≤ 2), hroomy.mmap,
      hroomy.malloc (by decide), by simp [hheap]⟩
  obtain ⟨-, -, -, hnext⟩ := randomsize_fifo_runs_through hstart .start
  obtain ⟨⟨p', w'⟩, hok, -⟩ := hnext _ hg
  have hrun : Run FifoState.Step _ _ ⟨w', p'⟩ := .next .start ⟨hg, hok⟩
  obtain ⟨-, hnd, hbound, -⟩ := randomsize_fifo_runs_through hstart hrun
  exact ⟨_, _, _, _, _, by simp, hstart, hrun, hnd, hbound⟩

/-! ## A plan of allocations and releases -/

/-- What an entry of the plan is: nothing yet, an allocation, or a release. -/
inductive OperationType
  | OP_UNKNOWN
  | OP_MALLOC
  | OP_FREE
  deriving DecidableEq

open OperationType

/-- `struct operation`. -/
structure operation where
  operation_type : OperationType
  free_index : ℕ
  operand : ℕ

/-- The body of the loop of `construct_operation_array`, with the number `rand()` answers. -/
def construct_operation (count average_spacing deviation i rand : ℕ) (operations : ℕ → operation) :
    ℕ → operation :=
  if (operations i).operation_type ≠ OP_UNKNOWN then operations
  else
    let free_distance := (average_spacing + rand % deviation) % 2 ^ 64
    let free_index := (i + free_distance) % 2 ^ 64
    -- If the operation at that index is already occupied, the pointer will be leaked
    if free_index < count ∧ (operations free_index).operation_type = OP_UNKNOWN then
      Function.update (Function.update operations free_index ⟨OP_FREE, 0, NULL⟩) i
        ⟨OP_MALLOC, free_index, NULL⟩
    else Function.update operations i ⟨OP_MALLOC, 0, NULL⟩

/-- The plan. The `i`-th number drawn is `rand i`; `deviation` is not zero. -/
def construct_operation_array (count average_spacing deviation : ℕ) (rand : ℕ → ℕ) :
    ℕ → operation :=
  (List.range count).foldl
    (fun operations i => construct_operation count average_spacing deviation i (rand i) operations)
    fun _ => ⟨OP_UNKNOWN, 0, NULL⟩

/-- What holds of the plan when its first `n` entries are made: the entries behind them are
releases or not made yet, every release has its allocation before it, no two allocations name
one release, and an allocation that names another entry names a release behind it. -/
structure Planned (count n : ℕ) (operations : ℕ → operation) : Prop where
  made : ∀ j < n, (operations j).operation_type ≠ OP_UNKNOWN
  ahead : ∀ j, n ≤ j → (operations j).operation_type ≠ OP_MALLOC
  source : ∀ k, (operations k).operation_type = OP_FREE → k < count
    ∧ ∃ j < k, j < n ∧ (operations j).operation_type = OP_MALLOC ∧ (operations j).free_index = k
  unique : ∀ j j', (operations j).operation_type = OP_MALLOC →
    (operations j').operation_type = OP_MALLOC →
    (operations j).free_index = (operations j').free_index → (operations j).free_index ≠ 0 → j = j'
  target : ∀ j, (operations j).operation_type = OP_MALLOC → (operations j).free_index ≠ 0 →
    (operations j).free_index ≠ j →
    j < (operations j).free_index
      ∧ (operations (operations j).free_index).operation_type = OP_FREE

section Plan

variable {count average_spacing deviation n k rand : ℕ} {ops ops' : ℕ → operation}

/-- An entry that is a release already is passed over. -/
theorem Planned.skip (h : Planned count n ops) (hn : (ops n).operation_type ≠ OP_UNKNOWN) :
    Planned count (n + 1) ops := by
  refine ⟨fun j hj => ?_, fun j hj => h.ahead j (by omega), fun k hk => ?_, h.unique, h.target⟩
  · by_cases he : j = n
    · rw [he]
      exact hn
    · exact h.made j (by omega)
  · obtain ⟨hlt, j, hjk, hjn, hj⟩ := h.source k hk
    exact ⟨hlt, j, hjk, by omega, hj⟩

/-- An allocation that is not given back. -/
theorem Planned.leak (h : Planned count n ops) (hn : (ops n).operation_type = OP_UNKNOWN) :
    Planned count (n + 1) (Function.update ops n ⟨OP_MALLOC, 0, NULL⟩) := by
  obtain ⟨ops', hops⟩ : ∃ ops', ops' = Function.update ops n ⟨OP_MALLOC, 0, NULL⟩ := ⟨_, rfl⟩
  have hnew : ops' n = ⟨OP_MALLOC, 0, NULL⟩ := by rw [hops, Function.update_self]
  have hold : ∀ j, j ≠ n → ops' j = ops j := fun j hj => by rw [hops, Function.update_of_ne hj]
  rw [← hops]
  refine ⟨fun j hj => ?_, fun j hj => ?_, fun k hk => ?_, fun j j' hj hj' he h0 => ?_,
    fun j hj h0 hself => ?_⟩
  · by_cases he : j = n
    · rw [he, hnew]
      simp
    · rw [hold j he]
      exact h.made j (by omega)
  · rw [hold j (by omega)]
    exact h.ahead j (by omega)
  · have hkn : k ≠ n := by
      intro he
      rw [he, hnew] at hk
      cases hk
    rw [hold k hkn] at hk
    obtain ⟨hlt, j, hjk, hjn, hj⟩ := h.source k hk
    exact ⟨hlt, j, hjk, by omega, by rwa [hold j (by omega)]⟩
  · have hjn : j ≠ n := by
      intro he
      exact h0 (by rw [he, hnew])
    have hjn' : j' ≠ n := by
      intro he'
      exact h0 (by rw [he, he', hnew])
    rw [hold j hjn] at hj he h0
    rw [hold j' hjn'] at hj' he
    exact h.unique j j' hj hj' he h0
  · have hjn : j ≠ n := by
      intro he
      exact h0 (by rw [he, hnew])
    rw [hold j hjn] at hj h0 hself ⊢
    obtain ⟨hlt, hfree⟩ := h.target j hj h0 hself
    refine ⟨hlt, ?_⟩
    rw [hold _ fun he => by rw [he, hn] at hfree; cases hfree]
    exact hfree

/-- An allocation with its release. -/
theorem Planned.pair (h : Planned count n ops) (hn : (ops n).operation_type = OP_UNKNOWN)
    (hk : (ops k).operation_type = OP_UNKNOWN) (hlt : k < count) :
    Planned count (n + 1) (Function.update (Function.update ops k ⟨OP_FREE, 0, NULL⟩) n
      ⟨OP_MALLOC, k, NULL⟩) := by
  obtain ⟨ops', hops⟩ : ∃ ops', ops' = Function.update (Function.update ops k ⟨OP_FREE, 0, NULL⟩) n
      ⟨OP_MALLOC, k, NULL⟩ := ⟨_, rfl⟩
  have hnew : ops' n = ⟨OP_MALLOC, k, NULL⟩ := by rw [hops, Function.update_self]
  have hfree : k ≠ n → ops' k = ⟨OP_FREE, 0, NULL⟩ := by
    intro he
    rw [hops, Function.update_of_ne he, Function.update_self]
  have hold : ∀ j, j ≠ n → j ≠ k → ops' j = ops j := by
    intro j hj hjk
    rw [hops, Function.update_of_ne hj, Function.update_of_ne hjk]
  have hnk : n ≤ k := by
    by_contra hlt
    exact h.made k (by omega) hk
  -- an allocation other than the new one was there before
  have hmalloc : ∀ j, j ≠ n → (ops' j).operation_type = OP_MALLOC → j ≠ k := by
    intro j hj hm he
    rw [he, hfree (he ▸ hj)] at hm
    cases hm
  -- and names another release than the new one
  have hother : ∀ j, (ops j).operation_type = OP_MALLOC → (ops j).free_index ≠ 0 →
      (ops j).free_index ≠ k := by
    intro j hj h0 he
    by_cases hself : (ops j).free_index = j
    · rw [← he, hself, hj] at hk
      cases hk
    · have hf := (h.target j hj h0 hself).2
      rw [he, hk] at hf
      cases hf
  rw [← hops]
  refine ⟨fun j hj => ?_, fun j hj => ?_, fun i hi => ?_, fun j j' hj hj' he h0 => ?_,
    fun j hj h0 hself => ?_⟩
  · by_cases he : j = n
    · rw [he, hnew]
      simp
    · rw [hold j he (by omega)]
      exact h.made j (by omega)
  · by_cases he : j = k
    · rw [he, hfree (by omega)]
      simp
    · rw [hold j (by omega) he]
      exact h.ahead j (by omega)
  · have hin : i ≠ n := by
      intro he
      rw [he, hnew] at hi
      cases hi
    by_cases hik : i = k
    · exact ⟨hik ▸ hlt, n, by omega, by omega, by rw [hnew], by rw [hnew, hik]⟩
    · rw [hold i hin hik] at hi
      obtain ⟨hlt, j, hji, hjn, hj⟩ := h.source i hi
      exact ⟨hlt, j, hji, by omega, by rwa [hold j (by omega) (by omega)]⟩
  · by_cases hjn : j = n
    · by_cases hjn' : j' = n
      · rw [hjn, hjn']
      · have hjk' := hmalloc j' hjn' hj'
        rw [hold j' hjn' hjk'] at hj' he
        rw [hjn, hnew] at he h0
        exact absurd he.symm (hother j' hj' (he ▸ h0))
    · have hjk := hmalloc j hjn hj
      rw [hold j hjn hjk] at hj he h0
      by_cases hjn' : j' = n
      · rw [hjn', hnew] at he
        exact absurd he (hother j hj h0)
      · have hjk' := hmalloc j' hjn' hj'
        rw [hold j' hjn' hjk'] at hj' he
        exact h.unique j j' hj hj' he h0
  · by_cases hjn : j = n
    · rw [hjn, hnew] at hself ⊢
      have hkn : k ≠ n := hself
      exact ⟨Nat.lt_of_le_of_ne hnk hkn.symm, by rw [hfree hkn]⟩
    · have hjk := hmalloc j hjn hj
      rw [hold j hjn hjk] at hj h0 hself ⊢
      obtain ⟨hlt, hf⟩ := h.target j hj h0 hself
      refine ⟨hlt, ?_⟩
      rw [hold _ (fun he => by rw [he, hn] at hf; cases hf) (hother j hj h0)]
      exact hf

/-- **One entry** of the plan. -/
theorem Planned.construct (h : Planned count n ops) :
    Planned count (n + 1) (construct_operation count average_spacing deviation n rand ops) := by
  unfold construct_operation
  by_cases hn : (ops n).operation_type = OP_UNKNOWN
  · rw [if_neg (not_not.mpr hn)]
    simp only
    split
    · rename_i hk
      exact h.pair hn hk.2 hk.1
    · exact h.leak hn
  · rw [if_pos hn]
    exact h.skip hn

/-- **The plan pairs** each release with one allocation before it. -/
theorem planned_construct_operation_array (rand : ℕ → ℕ) (n : ℕ) : Planned count n
    ((List.range n).foldl (fun ops i =>
      construct_operation count average_spacing deviation i (rand i) ops)
      fun _ => ⟨OP_UNKNOWN, 0, NULL⟩) := by
  induction n with
  | zero =>
      refine ⟨by simp, by simp, ?_, ?_, ?_⟩
      · intro k hk
        cases hk
      · intro j j' hj
        cases hj
      · intro j hj
        cases hj
  | succ n ih =>
      rw [List.range_succ, List.foldl_append, List.foldl_cons, List.foldl_nil]
      exact ih.construct

end Plan

/-! ## Carrying the plan out -/

/-- `free_op->operand = result`. -/
def set_operand (operations : ℕ → operation) (k result : ℕ) : ℕ → operation :=
  Function.update operations k { operations k with operand := result }

/-- The program before its operation `i`. -/
structure Randomalloc where
  pools : List slab_pool
  operations : ℕ → operation
  i : ℕ

/-- The body of the loop of `main`. -/
def randomalloc_operation {m : Type → Type} [Monad m]
    (allocate : List slab_pool → m (List slab_pool × ℕ))
    (deallocate : List slab_pool → ℕ → m (List slab_pool)) (s : Randomalloc) : m Randomalloc :=
  let op := s.operations s.i
  match op.operation_type with
  | OP_MALLOC => do
      let r ← allocate s.pools
      return { s with
        pools := r.1
        operations :=
          if op.free_index ≠ 0 then set_operand s.operations op.free_index r.2 else s.operations
        i := s.i + 1 }
  | OP_FREE => do
      let pools ← deallocate s.pools op.operand
      return { s with pools := pools, i := s.i + 1 }
  | OP_UNKNOWN => return { s with i := s.i + 1 }

/-- The process and the program in it. -/
structure RandomallocState where
  world : World
  program : Randomalloc

namespace RandomallocState

/-- The operation in the default build. -/
def call (s : RandomallocState) (os : Os) : Except Fault (Randomalloc × World) :=
  randomalloc_operation (fun pools => smalloc os pools 10) (fun pools ptr => sfree os pools ptr)
    s.program s.world

/-- The operation in a build with assertions. -/
def checked_call (build : Build) (s : RandomallocState) (os : Os) :
    Except Stop (Randomalloc × World) :=
  randomalloc_operation (m := Checked) (fun pools => Checked.smalloc build os pools 10)
    (fun pools ptr => Checked.sfree build os pools ptr) s.program s.world

/-- There are operations to go, the operating system has memory to give, and no chunk of it
starts in a page that begins like a slab. -/
structure Granted (count : ℕ) (s : RandomallocState) (os : Os) : Prop where
  more : s.program.i < count
  mmap : MmapFresh s.world os.mmap POOL_GROW_RATE
  malloc : MallocFresh s.world s.world.heap os.malloc 10
  magic : ∀ c ∈ s.world.heap,
    s.world.field (get_page_pointer c.1) .slab_magic ≠ SLAB_MAGIC_NUMBER

/-- One operation. -/
def Step (count : ℕ) (s : RandomallocState) (os : Os) (s' : RandomallocState) : Prop :=
  s.Granted count os ∧ s.call os = .ok (s'.program, s'.world)

/-- The program before its first operation. -/
structure Start (w₀ : World) (os : ℕ → Os) (count average_spacing deviation : ℕ) (rand : ℕ → ℕ)
    (s : RandomallocState) : Prop where
  init : Initialized w₀ ⟨s.world, s.program.pools, []⟩ os
  operations : s.program.operations
    = construct_operation_array count average_spacing deviation rand
  i : s.program.i = 0

end RandomallocState

/-- The number of operations of a kind among the first `n`. -/
def operation_count (kind : OperationType) (operations : ℕ → operation) (n : ℕ) : ℕ :=
  (List.range n).countP fun j => (operations j).operation_type = kind

/-- The release `k` is to come, and its allocation has been made. -/
structure Randomalloc.Pending (s : Randomalloc) (k : ℕ) : Prop where
  to_come : s.i ≤ k
  free : (s.operations k).operation_type = OP_FREE
  source : ∃ j < s.i, (s.operations j).operation_type = OP_MALLOC
    ∧ (s.operations j).free_index = k

/-- What holds between two operations: each release to come whose allocation has been made has a
live pointer, no two have the same, and as many buffers are out as have not been given back. -/
structure RandomallocInv (w₀ : World) (count : ℕ) (s : RandomallocState)
    (t : List (ApiState × ApiEvent)) (live : List Buffer) : Prop where
  run : CleanRun w₀ t ⟨s.world, s.program.pools, live⟩
  plan : Planned count count s.program.operations
  held : ∀ {k}, s.program.Pending k → (s.program.operations k).operand ∈ live.map Buffer.ptr
  apart : ∀ {k k'}, s.program.Pending k → s.program.Pending k' →
    (s.program.operations k).operand = (s.program.operations k').operand → k = k'
  ledger : live.length + operation_count OP_FREE s.program.operations s.program.i
    = operation_count OP_MALLOC s.program.operations s.program.i

section SetOperand

variable {ops : ℕ → operation} {k j p count n : ℕ} {kind : OperationType}

@[simp] theorem operation_type_set_operand :
    (set_operand ops k p j).operation_type = (ops j).operation_type := by
  by_cases h : j = k
  · rw [set_operand, h, Function.update_self]
  · rw [set_operand, Function.update_of_ne h]

@[simp] theorem free_index_set_operand :
    (set_operand ops k p j).free_index = (ops j).free_index := by
  by_cases h : j = k
  · rw [set_operand, h, Function.update_self]
  · rw [set_operand, Function.update_of_ne h]

theorem operand_set_operand_self : (set_operand ops k p k).operand = p := by
  rw [set_operand, Function.update_self]

theorem operand_set_operand_ne (h : j ≠ k) :
    (set_operand ops k p j).operand = (ops j).operand := by
  rw [set_operand, Function.update_of_ne h]

theorem operation_count_set_operand :
    operation_count kind (set_operand ops k p) n = operation_count kind ops n := by
  simp only [operation_count, operation_type_set_operand]

theorem operation_count_succ : operation_count kind ops (n + 1)
    = operation_count kind ops n + if (ops n).operation_type = kind then 1 else 0 := by
  simp [operation_count, List.range_succ]

/-- The pointers of a plan are no part of it. -/
theorem Planned.set_operand (h : Planned count n ops) :
    Planned count n (set_operand ops k p) := by
  refine ⟨?_, ?_, ?_, ?_, ?_⟩
  · simpa only [operation_type_set_operand] using h.made
  · simpa only [operation_type_set_operand] using h.ahead
  · simpa only [operation_type_set_operand, free_index_set_operand] using h.source
  · simpa only [operation_type_set_operand, free_index_set_operand] using h.unique
  · simpa only [operation_type_set_operand, free_index_set_operand] using h.target

end SetOperand

section Randomalloc

variable {w₀ : World} {count average_spacing deviation : ℕ} {rand : ℕ → ℕ}
  {s s₀ : RandomallocState} {t : List (ApiState × ApiEvent)} {live : List Buffer} {os : Os}

/-- The releases that are to come after an allocation: its own one, which has the new pointer, and
those there were, which keep theirs. -/
theorem pending_allocated {s : Randomalloc} {pools : List slab_pool} {p k : ℕ}
    (hplan : Planned count count s.operations)
    (hty : (s.operations s.i).operation_type = OP_MALLOC) {s' : Randomalloc}
    (hs' : s' = { s with
      pools := pools
      operations := if (s.operations s.i).free_index ≠ 0
        then set_operand s.operations (s.operations s.i).free_index p else s.operations
      i := s.i + 1 }) (h : s'.Pending k) :
    k = (s.operations s.i).free_index ∧ (s'.operations k).operand = p
      ∨ s.Pending k ∧ (s'.operations k).operand = (s.operations k).operand := by
  obtain ⟨hcome, hfree, j, hj, hmalloc, hjk⟩ := h
  have hi : s'.i = s.i + 1 := by rw [hs']
  have hops : s'.operations = if (s.operations s.i).free_index ≠ 0
      then set_operand s.operations (s.operations s.i).free_index p else s.operations := by
    rw [hs']
  have hkind : ∀ j, (s'.operations j).operation_type = (s.operations j).operation_type := by
    intro j
    rw [hops]
    split
    · exact operation_type_set_operand
    · rfl
  have hindex : ∀ j, (s'.operations j).free_index = (s.operations j).free_index := by
    intro j
    rw [hops]
    split
    · exact free_index_set_operand
    · rfl
  rw [hkind] at hfree hmalloc
  rw [hindex] at hjk
  rw [hi] at hcome hj
  by_cases hji : j = s.i
  · subst hji
    refine .inl ⟨hjk.symm, ?_⟩
    rw [hops, if_pos (by omega), hjk, operand_set_operand_self]
  -- another allocation names another release
  · have hne : k ≠ (s.operations s.i).free_index := by
      intro he
      exact hji (hplan.unique j s.i hmalloc hty (hjk.trans he) (by omega))
    refine .inr ⟨⟨by omega, hfree, j, by omega, hmalloc, hjk⟩, ?_⟩
    rw [hops]
    split
    · exact operand_set_operand_ne hne
    · rfl

/-- An operation that allocates. -/
theorem RandomallocInv.allocate (h : RandomallocInv w₀ count s t live) (hg : s.Granted count os)
    (hty : (s.program.operations s.program.i).operation_type = OP_MALLOC) : ∃ s' t' live',
      RandomallocInv w₀ count s' t' live' ∧ s.call os = .ok (s'.program, s'.world)
      ∧ ∀ build, s.checked_call build os = .ok (s'.program, s'.world) := by
  obtain ⟨pools, p, w, o, hok, hchecked, hrun⟩ :=
    h.run.smalloc os (by decide : 1 ≤ 10) hg.mmap hg.malloc
  obtain ⟨vs, hi⟩ := hrun.inv
  have hnew : p ∉ live.map Buffer.ptr := (List.nodup_cons.mp hi.live.nodup).1
  obtain ⟨s', hs'⟩ : ∃ s', s' = { s.program with
      pools := pools
      operations := if (s.program.operations s.program.i).free_index ≠ 0
        then set_operand s.program.operations (s.program.operations s.program.i).free_index p
        else s.program.operations
      i := s.program.i + 1 } := ⟨_, rfl⟩
  have hpools : s'.pools = pools := by rw [hs']
  have hpending := fun k => @pending_allocated count s.program pools p k h.plan hty s' hs'
  rw [← hpools] at hrun
  refine ⟨⟨w, s'⟩, _, _, ⟨hrun, ?_, ?_, ?_, ?_⟩, ?_, fun build => ?_⟩
  · rw [hs']
    split
    · exact h.plan.set_operand
    · exact h.plan
  · intro k hk
    rcases hpending k hk with ⟨-, he⟩ | ⟨hk, he⟩
    · rw [he]
      exact List.mem_cons_self
    · rw [he]
      exact List.mem_cons_of_mem _ (h.held hk)
  · intro k k' hk hk' he
    rcases hpending k hk with ⟨h₁, hp⟩ | ⟨h₁, hp⟩
    · rcases hpending k' hk' with ⟨h₂, hp'⟩ | ⟨h₂, hp'⟩
      · exact h₁.trans h₂.symm
      · rw [hp, hp'] at he
        exact absurd (h.held h₂) (he ▸ hnew)
    · rcases hpending k' hk' with ⟨h₂, hp'⟩ | ⟨h₂, hp'⟩
      · rw [hp, hp'] at he
        exact absurd (h.held h₁) (he ▸ hnew)
      · rw [hp, hp'] at he
        exact h.apart h₁ h₂ he
  · have hcount : ∀ kind, operation_count kind s'.operations s'.i
        = operation_count kind s.program.operations (s.program.i + 1) := by
      intro kind
      rw [hs']
      split
      · exact operation_count_set_operand
      · rfl
    have hledger := h.ledger
    rw [hcount, hcount, operation_count_succ, operation_count_succ, hty, if_neg (by decide),
      if_pos rfl, List.length_cons]
    omega
  · unfold RandomallocState.call randomalloc_operation
    simp only [hty]
    rw [bind_ok hok, hs']
    rfl
  · unfold RandomallocState.checked_call randomalloc_operation
    simp only [hty]
    rw [Checked.bind_ok (hchecked build), hs']
    rfl

/-- The release that is next is one whose pointer is there. -/
theorem RandomallocInv.pending (h : RandomallocInv w₀ count s t live)
    (hty : (s.program.operations s.program.i).operation_type = OP_FREE) :
    s.program.Pending s.program.i := by
  obtain ⟨-, j, hj, -, hmalloc, hjk⟩ := h.plan.source _ hty
  exact ⟨Nat.le_refl _, hty, j, hj, hmalloc, hjk⟩

/-- An operation that gives back. -/
theorem RandomallocInv.deallocate (h : RandomallocInv w₀ count s t live)
    (hg : s.Granted count os)
    (hty : (s.program.operations s.program.i).operation_type = OP_FREE) : ∃ s' t' live',
      RandomallocInv w₀ count s' t' live' ∧ s.call os = .ok (s'.program, s'.world)
      ∧ ∀ build, s.checked_call build os = .ok (s'.program, s'.world) := by
  have hnext := h.pending hty
  obtain ⟨b, hb, hptr⟩ := List.mem_map.mp (h.held hnext)
  obtain ⟨pools, w, hok, hchecked, hrun⟩ := h.run.sfree os hb hg.magic
  rw [hptr] at hok hchecked
  have hpending : ∀ k, Randomalloc.Pending ⟨pools, s.program.operations, s.program.i + 1⟩ k →
      s.program.Pending k ∧ k ≠ s.program.i := by
    rintro k ⟨hcome, hfree, j, hj, hmalloc, hjk⟩
    change s.program.i + 1 ≤ k at hcome
    change j < s.program.i + 1 at hj
    have hji : j ≠ s.program.i := by
      intro he
      change (s.program.operations j).operation_type = OP_MALLOC at hmalloc
      rw [he, hty] at hmalloc
      cases hmalloc
    exact ⟨⟨by omega, hfree, j, by omega, hmalloc, hjk⟩, by omega⟩
  refine ⟨⟨w, ⟨pools, s.program.operations, s.program.i + 1⟩⟩, _, _,
    ⟨hrun, h.plan, ?_, ?_, ?_⟩, ?_, fun build => ?_⟩
  · intro k hk
    obtain ⟨hk, hne⟩ := hpending k hk
    refine (map_ptr_erase hb (.refl _)).mem_iff.mpr ((List.mem_erase_of_ne ?_).mpr (h.held hk))
    intro he
    exact hne (h.apart hk hnext (he.trans hptr))
  · intro k k' hk hk' he
    exact h.apart (hpending k hk).1 (hpending k' hk').1 he
  · have hledger := h.ledger
    have hpos := List.length_pos_of_mem hb
    change (live.erase b).length + operation_count OP_FREE s.program.operations (s.program.i + 1)
      = operation_count OP_MALLOC s.program.operations (s.program.i + 1)
    rw [operation_count_succ, operation_count_succ, hty, if_pos rfl, if_neg (by decide),
      List.length_erase_of_mem hb]
    omega
  · unfold RandomallocState.call randomalloc_operation
    simp only [hty]
    rw [bind_ok hok]
    rfl
  · unfold RandomallocState.checked_call randomalloc_operation
    simp only [hty]
    rw [Checked.bind_ok (hchecked build)]
    rfl

/-- **One operation** goes through, in every build. -/
theorem RandomallocInv.step (h : RandomallocInv w₀ count s t live) (hg : s.Granted count os) :
    ∃ s' t' live', RandomallocInv w₀ count s' t' live' ∧ s.call os = .ok (s'.program, s'.world)
      ∧ ∀ build, s.checked_call build os = .ok (s'.program, s'.world) := by
  rcases hty : (s.program.operations s.program.i).operation_type with _ | _ | _
  · exact absurd hty (h.plan.made _ hg.more)
  · exact h.allocate hg hty
  · exact h.deallocate hg hty

/-- Before the first operation. -/
theorem RandomallocState.Start.inv {os : ℕ → Os}
    (h : s.Start w₀ os count average_spacing deviation rand) : RandomallocInv w₀ count s [] [] := by
  have hnone : ∀ {k}, ¬ s.program.Pending k := by
    rintro k ⟨-, -, j, hj, -⟩
    rw [h.i] at hj
    exact Nat.not_lt_zero j hj
  refine ⟨⟨⟨_, os, h.init, .start⟩, by simp, by simp⟩, ?_, fun hk => absurd hk hnone,
    fun hk => absurd hk hnone, ?_⟩
  · rw [h.operations]
    exact planned_construct_operation_array rand count
  · rw [h.i]
    rfl

end Randomalloc

end SlabAllocator
