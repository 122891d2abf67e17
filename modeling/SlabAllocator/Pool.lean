/-
`heuristic.c` and `slab_pool.c`: a pool of slabs of one size.

A pool is passed by pointer in the source and by value here: each function that
changes one returns it. The slabs themselves stay in memory, and so do the
`next` and `prev` links between them, which is where all the pointer surgery
happens. The counters of `heuristic_data` count events and are natural numbers;
the difference the heuristic takes of two of them is `size_t` subtraction.

`get_list_size` is a debugging aid that nothing calls and is not modelled, nor
is `was_slab_full`, which `slab_pool_deallocate` computes and does not use.
-/
import SlabAllocator.Slab

set_option autoImplicit false

namespace SlabAllocator

/-! ## `heuristic.c` -/

structure heuristic_params where
  minimum_empty_slabs : ℕ
  default_grow_rate : ℕ
  max_grow_rate : ℕ
  deriving DecidableEq, Repr

structure heuristic_data where
  allocation_count : ℕ
  deallocation_count : ℕ
  grow_count : ℕ
  shrink_count : ℕ
  deriving DecidableEq, Repr

/-- Returns how much the slab pool should grow. -/
def heuristic_decision_grow_count (params : heuristic_params) (_data : heuristic_data) : Int32 :=
  int_of_size_t params.default_grow_rate

/-- Returns whether a slab should be removed or not. -/
def heuristic_decision_does_free_slab (params : heuristic_params) (data : heuristic_data) : Bool :=
  let empty_slabs := size_t_sub data.grow_count data.shrink_count
  empty_slabs ≤ params.minimum_empty_slabs

/-! ## `slab_pool.c` -/

def POOL_START_SIZE : ℕ := 10

def POOL_GROW_RATE : ℕ := 10

def POOL_MAX_GROW_RATE : ℕ := 5

structure slab_pool where
  list_start : ℕ
  list_end : ℕ
  allocation_size : ℕ
  params : heuristic_params
  data : heuristic_data
  deriving DecidableEq, Repr

/-- The loop of `get_last_from_list`, with a bound on its iterations. -/
def get_last_loop : ℕ → ℕ → M ℕ
  | 0, _ => fault .hang
  | fuel + 1, current => do
      let next ← slab_get current .next
      if next ≠ NULL then
        get_last_loop fuel next
      else
        return current

/-- The last slab of a list. A walk over more slabs than there are mapped pages has
met one twice and never ends. -/
def get_last_from_list (slab : ℕ) : M ℕ := fun w => get_last_loop w.mapped.length slab w

/-- Moves a slab to the end of the pool, updating the `list_start` and `list_end` if
necessary. -/
def move_slab_to_end_of_the_list (pool : slab_pool) (slab : ℕ) : M slab_pool := do
  let previous ← slab_get slab .prev
  let next ← slab_get slab .next
  if next = NULL then
    return pool
  else
    let pool ← if previous = NULL then do
        slab_set next .prev NULL
        pure { pool with list_start := next }
      else do
        slab_set previous .next next
        slab_set next .prev previous
        pure pool
    -- Append the node to the end of the list
    slab_set pool.list_end .next slab
    slab_set slab .prev pool.list_end
    slab_set slab .next NULL
    return { pool with list_end := slab }

def move_slab_to_start_of_the_list (pool : slab_pool) (slab : ℕ) : M slab_pool := do
  let list_start := pool.list_start
  let previous ← slab_get slab .prev
  let next ← slab_get slab .next
  if pool.list_start = slab then
    return pool
  else
    -- Remove node from the list
    let pool ← if next = NULL then do
        slab_set previous .next NULL
        pure { pool with list_end := (← slab_get slab .prev) }
      else do
        slab_set previous .next next
        slab_set next .prev previous
        pure pool
    -- Insert the node at the start of the list
    slab_set slab .next list_start
    slab_set slab .prev NULL
    slab_set list_start .prev slab
    return { pool with list_start := slab }

def slab_pool_create (os : Os) (allocation_size : ℕ) : M slab_pool := do
  let first_slab ← mem_slab_create_several os (int_of_size_t allocation_size) 0 POOL_START_SIZE NULL
  let last_slab ← get_last_from_list first_slab
  return {
    list_start := first_slab
    list_end := last_slab
    allocation_size := allocation_size
    params := {
      minimum_empty_slabs := POOL_GROW_RATE + POOL_MAX_GROW_RATE
      default_grow_rate := POOL_GROW_RATE
      max_grow_rate := POOL_GROW_RATE + POOL_MAX_GROW_RATE }
    data := {
      allocation_count := 0
      deallocation_count := 0
      grow_count := POOL_START_SIZE
      shrink_count := 0 } }

/-- `slab->ref_count == slab->max_refs`. -/
def is_full (slab : ℕ) : M Bool := do
  return (← slab_get slab .ref_count) = (← slab_get slab .max_refs)

/-- Allocates a pointer given a pool of slabs. -/
def slab_pool_allocate (os : Os) (pool : slab_pool) : M (slab_pool × ℕ) := do
  let pool := { pool with
    data := { pool.data with allocation_count := pool.data.allocation_count + 1 } }
  if !(← is_full pool.list_start) then
    let result ← mem_slab_alloc pool.list_start
    return (pool, result)
  else
    -- If the first slab has no space, we need to move it to the end of the list
    -- and check the next one.
    let pool ← move_slab_to_end_of_the_list pool pool.list_start
    if !(← is_full pool.list_start) then
      let result ← mem_slab_alloc pool.list_start
      return (pool, result)
    else
      let pool ← move_slab_to_end_of_the_list pool pool.list_start
      let grow_count := size_t_of_int (heuristic_decision_grow_count pool.params pool.data).toInt
      let new_first ← mem_slab_create_several os (int_of_size_t pool.allocation_size) 0 grow_count
        pool.list_start
      -- `new_first` is used whether or not it is `NULL`
      let pool := { pool with
        list_start := new_first
        data := { pool.data with grow_count := pool.data.grow_count + grow_count } }
      let result ← mem_slab_alloc pool.list_start
      return (pool, result)

/-- `slab->next == NULL && slab->prev == NULL`. -/
def is_lonely (slab : ℕ) : M Bool := do
  if (← slab_get slab .next) = NULL then
    return (← slab_get slab .prev) = NULL
  else
    return false

def slab_pool_deallocate (pool : slab_pool) (ptr : ℕ) : M slab_pool := do
  let pool := { pool with
    data := { pool.data with deallocation_count := pool.data.deallocation_count + 1 } }
  let slab := get_page_pointer ptr
  mem_slab_dealloc slab ptr
  let pool ← move_slab_to_start_of_the_list pool slab
  let heuristic_decision := heuristic_decision_does_free_slab pool.params pool.data
  let is_empty := (← slab_get slab .ref_count) = 0
  let lonely ← is_lonely slab
  if is_empty ∧ !lonely ∧ heuristic_decision then
    let prev ← slab_get slab .prev
    let next ← slab_get slab .next
    let pool ← if prev = NULL then do
        slab_set next .prev NULL
        pure { pool with list_start := next }
      else do
        slab_set prev .next next
        slab_set next .prev prev
        pure pool
    mem_slab_free slab
    return { pool with data := { pool.data with shrink_count := pool.data.shrink_count + 1 } }
  else
    return pool

end SlabAllocator
