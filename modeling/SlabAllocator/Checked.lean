/-
The builds with assertions.

`internal_assert.h` makes `assert(x)` a check under `SLAB_DEBUG` and nothing
otherwise, and under `SLAB_CONFIG_DEBUG_PARANOID_ASSERTS` `mem_slab_alloc` also
walks the free list before and after. So a `Build` is the two symbols, and
every function that asserts is here once more with the build as a parameter,
statement by statement as in `Slab`, `Pool` and `Smalloc`. A failed assertion
aborts the process and is not a `Fault`: `Stop` is either.

A pool is passed by value in this development, so `assert(pool != NULL)` has no
counterpart. `get_freelist_size`, which only the paranoid build calls, and
`get_list_size`, which nothing calls, are here too.
-/
import SlabAllocator.Smalloc

set_option autoImplicit false

namespace SlabAllocator

/-! ## Builds and assertions -/

/-- The symbols of the preprocessor a build defines. -/
structure Build where
  SLAB_DEBUG : Bool
  SLAB_CONFIG_DEBUG_PARANOID_ASSERTS : Bool
  deriving DecidableEq, Repr

/-- The default build. -/
def Build.release : Build := ⟨false, false⟩

/-- The assertions of the source: the function, and what it asserts. -/
inductive Assertion
  /-- `mem_slab_create`: `size > 0`. -/
  | mem_slab_create_size
  /-- `mem_slab_create`: `alignment >= 0`. -/
  | mem_slab_create_alignment
  /-- `mem_slab_free`: `slab != NULL`. -/
  | mem_slab_free_slab
  /-- `mem_slab_free`: `slab->slab_magic == SLAB_MAGIC_NUMBER`. -/
  | mem_slab_free_slab_magic
  /-- `mem_slab_free`: `slab->ref_count == 0`. -/
  | mem_slab_free_ref_count
  /-- `mem_slab_alloc`: `slab != NULL`. -/
  | mem_slab_alloc_slab
  /-- `mem_slab_alloc`: `slab->slab_magic == SLAB_MAGIC_NUMBER`. -/
  | mem_slab_alloc_slab_magic
  /-- `mem_slab_alloc`: `slab->freelist_start_index != NON_EXISTANT`. -/
  | mem_slab_alloc_freelist_start_index
  /-- `mem_slab_alloc`: `slab->freelist_end_index != NON_EXISTANT`. -/
  | mem_slab_alloc_freelist_end_index
  /-- `mem_slab_alloc`: `(start_size == after_size) && "Freelist size changed :("`. -/
  | mem_slab_alloc_after_size
  /-- `mem_slab_alloc`: `is_ptr_in_page(slab, to_return)`. -/
  | mem_slab_alloc_to_return
  /-- `mem_slab_dealloc`: `slab != NULL`. -/
  | mem_slab_dealloc_slab
  /-- `mem_slab_dealloc`: `slab->slab_magic == SLAB_MAGIC_NUMBER`. -/
  | mem_slab_dealloc_slab_magic
  /-- `mem_slab_dealloc`: `is_ptr_in_page(slab, ptr)`. -/
  | mem_slab_dealloc_ptr
  /-- `mem_slab_dealloc`: `slot_index != NON_EXISTANT`. -/
  | mem_slab_dealloc_slot_index
  /-- `mem_slab_dealloc`: `freelist_array[slot_index].is_free == SLOT_BUSY`. -/
  | mem_slab_dealloc_is_free
  /-- `mem_slab_dealloc`: `slab->freelist_start_index != NON_EXISTANT`. -/
  | mem_slab_dealloc_freelist_start_index
  /-- `mem_slab_dealloc`: `slab->freelist_end_index != NON_EXISTANT`. -/
  | mem_slab_dealloc_freelist_end_index
  /-- `slab_pool_allocate`: `pool->list_start != NULL`. -/
  | slab_pool_allocate_list_start
  /-- `slab_pool_allocate`: `result != NULL`, on each of its three paths. -/
  | slab_pool_allocate_result
  /-- `slab_pool_deallocate`: `ptr != NULL`. -/
  | slab_pool_deallocate_ptr
  /-- `smalloc`: `size != 0`. -/
  | smalloc_size
  deriving DecidableEq, Repr

/-- Why a build with assertions stops. -/
inductive Stop
  | fault (e : Fault)
  /-- `abort`, called by a failed `assert`. -/
  | failed (a : Assertion)
  deriving DecidableEq, Repr

/-! ## Counting the entries of a free list -/

/-- The loop of `get_freelist_size`, with a bound on its iterations. -/
def freelist_size_loop (bufctl_array : ℕ) : ℕ → ℕ → ℕ → M ℕ
  | 0, _, _ => fault .hang
  | fuel + 1, current_index, count => do
      if (← bufctl_get bufctl_array current_index .next_index) ≠ NON_EXISTANT then
        let current_index ← bufctl_get bufctl_array current_index .next_index
        freelist_size_loop bufctl_array fuel current_index (count + 1)
      else
        return count

/-- The number of links of the free list, one less than its entries. An index has 16 bits:
a walk of more than `2 ^ 16` entries has met one twice and never ends. -/
def get_freelist_size (slab : ℕ) : M ℕ := do
  let current_index ← slab_get slab .freelist_start_index
  let bufctl_array ← slab_get slab .freelist_buffer
  freelist_size_loop bufctl_array (2 ^ 16) current_index 0

/-- The loop of `get_list_size`, with a bound on its iterations; `jumps` is an `int`. -/
def list_size_loop : ℕ → ℕ → Int32 → M Int32
  | 0, _, _ => fault .hang
  | fuel + 1, current, jumps =>
      if current ≠ NULL then do
        let current ← slab_get current .next
        list_size_loop fuel current (jumps + 1)
      else
        pure jumps

/-- The number of slabs of a list. A walk over more slabs than there are mapped pages has
met one twice and never ends. -/
def get_list_size (list_start : ℕ) : M Int32 := fun w =>
  list_size_loop (w.mapped.length + 1) list_start 0 w

/-! ## Computations that may abort -/

/-- A computation over the process that may fault or abort. -/
def Checked (α : Type) : Type := World → Except Stop (α × World)

namespace Checked

instance : Monad Checked where
  pure a := fun w => .ok (a, w)
  bind x f := fun w => match x w with
    | .ok (a, w') => f a w'
    | .error e => .error e

/-- A computation without assertions. -/
def plain {α : Type} (x : M α) : Checked α := fun w =>
  match x w with
  | .ok r => .ok r
  | .error e => .error (.fault e)

/-- `assert` of `<assert.h>`. -/
def check (a : Assertion) (x : M Bool) : Checked Unit := fun w =>
  match x w with
  | .ok (true, w') => .ok ((), w')
  | .ok (false, _) => .error (.failed a)
  | .error e => .error (.fault e)

/-- `assert(x)` as `internal_assert.h` defines it: the argument is evaluated in the builds
that check it only. -/
def assert (build : Build) (a : Assertion) (x : M Bool) : Checked Unit :=
  if build.SLAB_DEBUG then check a x else pure ()

def slab_get (slab : ℕ) (f : SlabField) : Checked ℕ := plain (SlabAllocator.slab_get slab f)

def slab_set (slab : ℕ) (f : SlabField) (v : ℕ) : Checked Unit :=
  plain (SlabAllocator.slab_set slab f v)

def bufctl_get (array i : ℕ) (f : BufctlField) : Checked ℕ :=
  plain (SlabAllocator.bufctl_get array i f)

def bufctl_set (array i : ℕ) (f : BufctlField) (v : ℕ) : Checked Unit :=
  plain (SlabAllocator.bufctl_set array i f v)

/-! ## `slab.c` -/

/-- `mem_slab_create`. -/
def mem_slab_create (build : Build) (os : Os) (size alignment : Int32) : Checked ℕ := do
  assert build .mem_slab_create_size (pure (size.toInt > 0))
  assert build .mem_slab_create_alignment (pure (alignment.toInt ≥ 0))
  plain (SlabAllocator.mem_slab_create os size alignment)

/-- `mem_slab_free`. -/
def mem_slab_free (build : Build) (slab : ℕ) : Checked Unit := do
  assert build .mem_slab_free_slab (pure (slab ≠ NULL))
  assert build .mem_slab_free_slab_magic
    (do return (← SlabAllocator.slab_get slab .slab_magic) = SLAB_MAGIC_NUMBER)
  assert build .mem_slab_free_ref_count
    (do return (← SlabAllocator.slab_get slab .ref_count) = 0)
  plain (munmap slab)

/-- The size of the free list in the paranoid build; the others do not count. -/
def paranoid_size (build : Build) (slab : ℕ) : Checked ℕ :=
  if build.SLAB_CONFIG_DEBUG_PARANOID_ASSERTS then plain (get_freelist_size slab) else pure 0

/-- In the paranoid build, the comparison with the size of the free list afterwards. -/
def paranoid_assert (build : Build) (slab start_size : ℕ) : Checked Unit :=
  if build.SLAB_CONFIG_DEBUG_PARANOID_ASSERTS then do
    let after_size ← plain (get_freelist_size slab)
    assert build .mem_slab_alloc_after_size (pure (start_size = after_size))
  else pure ()

/-- `mem_slab_alloc`. -/
def mem_slab_alloc (build : Build) (slab : ℕ) : Checked ℕ := do
  assert build .mem_slab_alloc_slab (pure (slab ≠ NULL))
  assert build .mem_slab_alloc_slab_magic
    (do return (← SlabAllocator.slab_get slab .slab_magic) = SLAB_MAGIC_NUMBER)
  let start_size ← paranoid_size build slab
  let freelist_array ← slab_get slab .freelist_buffer
  let free_index ← slab_get slab .freelist_start_index
  let is_free ← bufctl_get freelist_array free_index .is_free
  if is_free ≠ SLOT_FREE then
    return NULL
  else
    slab_set slab .ref_count ((← slab_get slab .ref_count) + 1)
    let free_next ← bufctl_get freelist_array free_index .next_index
    let free_prev ← bufctl_get freelist_array free_index .prev_index
    if free_prev = NON_EXISTANT then
      bufctl_set freelist_array free_next .prev_index NON_EXISTANT
      slab_set slab .freelist_start_index free_next
    else
      bufctl_set freelist_array free_prev .next_index free_next
      bufctl_set freelist_array free_next .prev_index free_prev
    bufctl_set freelist_array (← slab_get slab .freelist_end_index) .next_index free_index
    bufctl_set freelist_array free_index .prev_index (← slab_get slab .freelist_end_index)
    slab_set slab .freelist_end_index free_index
    bufctl_set freelist_array free_index .next_index NON_EXISTANT
    bufctl_set freelist_array free_index .is_free SLOT_BUSY
    assert build .mem_slab_alloc_freelist_start_index
      (do return (← SlabAllocator.slab_get slab .freelist_start_index) ≠ NON_EXISTANT)
    assert build .mem_slab_alloc_freelist_end_index
      (do return (← SlabAllocator.slab_get slab .freelist_end_index) ≠ NON_EXISTANT)
    paranoid_assert build slab start_size
    let allocable_buffer ← slab_get slab .allocable_buffer
    let size ← slab_get slab .size
    let to_return := ptr_add allocable_buffer (size * free_index)
    assert build .mem_slab_alloc_to_return (pure (is_ptr_in_page slab to_return))
    return to_return

/-- `mem_slab_dealloc`. -/
def mem_slab_dealloc (build : Build) (slab ptr : ℕ) : Checked Unit := do
  assert build .mem_slab_dealloc_slab (pure (slab ≠ NULL))
  assert build .mem_slab_dealloc_slab_magic
    (do return (← SlabAllocator.slab_get slab .slab_magic) = SLAB_MAGIC_NUMBER)
  assert build .mem_slab_dealloc_ptr (pure (is_ptr_in_page slab ptr))
  let freelist_array ← slab_get slab .freelist_buffer
  let slot_index ← plain (get_buffer_index_from_ptr slab ptr)
  assert build .mem_slab_dealloc_slot_index (pure (slot_index ≠ NON_EXISTANT))
  assert build .mem_slab_dealloc_is_free
    (do return (← SlabAllocator.bufctl_get freelist_array slot_index .is_free) = SLOT_BUSY)
  slab_set slab .ref_count (size_t_of_int ((← slab_get slab .ref_count) - 1))
  bufctl_set freelist_array slot_index .is_free SLOT_FREE
  let next_index ← bufctl_get freelist_array slot_index .next_index
  let prev_index ← bufctl_get freelist_array slot_index .prev_index
  if slot_index = (← slab_get slab .freelist_start_index) then
    return
  else if (← bufctl_get freelist_array prev_index .is_free) = SLOT_FREE then
    return
  else
    if next_index = NON_EXISTANT then
      bufctl_set freelist_array prev_index .next_index NON_EXISTANT
    else
      bufctl_set freelist_array prev_index .next_index next_index
      bufctl_set freelist_array next_index .prev_index prev_index
    if (← slab_get slab .freelist_end_index) = slot_index then
      slab_set slab .freelist_end_index prev_index
    bufctl_set freelist_array slot_index .next_index (← slab_get slab .freelist_start_index)
    bufctl_set freelist_array slot_index .prev_index NON_EXISTANT
    bufctl_set freelist_array (← slab_get slab .freelist_start_index) .prev_index slot_index
    slab_set slab .freelist_start_index slot_index
    assert build .mem_slab_dealloc_freelist_start_index
      (do return (← SlabAllocator.slab_get slab .freelist_start_index) ≠ NON_EXISTANT)
    assert build .mem_slab_dealloc_freelist_end_index
      (do return (← SlabAllocator.slab_get slab .freelist_end_index) ≠ NON_EXISTANT)

/-! ## `slab_pool.c` -/

/-- `mem_slab_alloc`, and the assertion `slab_pool_allocate` makes of its result. -/
def mem_slab_alloc_result (build : Build) (slab : ℕ) : Checked ℕ := do
  let result ← mem_slab_alloc build slab
  assert build .slab_pool_allocate_result (pure (result ≠ NULL))
  return result

/-- `slab_pool_allocate`. -/
def slab_pool_allocate (build : Build) (os : Os) (pool : slab_pool) :
    Checked (slab_pool × ℕ) := do
  assert build .slab_pool_allocate_list_start (pure (pool.list_start ≠ NULL))
  let pool := { pool with
    data := { pool.data with allocation_count := pool.data.allocation_count + 1 } }
  if !(← plain (is_full pool.list_start)) then
    let result ← mem_slab_alloc_result build pool.list_start
    return (pool, result)
  else
    let pool ← plain (move_slab_to_end_of_the_list pool pool.list_start)
    if !(← plain (is_full pool.list_start)) then
      let result ← mem_slab_alloc_result build pool.list_start
      return (pool, result)
    else
      let pool ← plain (move_slab_to_end_of_the_list pool pool.list_start)
      let grow_count := size_t_of_int (heuristic_decision_grow_count pool.params pool.data).toInt
      let new_first ← plain (mem_slab_create_several os (int_of_size_t pool.allocation_size) 0
        grow_count pool.list_start)
      let pool := { pool with
        list_start := new_first
        data := { pool.data with grow_count := pool.data.grow_count + grow_count } }
      let result ← mem_slab_alloc_result build pool.list_start
      return (pool, result)

/-- `slab_pool_deallocate`. -/
def slab_pool_deallocate (build : Build) (pool : slab_pool) (ptr : ℕ) : Checked slab_pool := do
  assert build .slab_pool_deallocate_ptr (pure (ptr ≠ NULL))
  let pool := { pool with
    data := { pool.data with deallocation_count := pool.data.deallocation_count + 1 } }
  let slab := get_page_pointer ptr
  mem_slab_dealloc build slab ptr
  let pool ← plain (move_slab_to_start_of_the_list pool slab)
  let heuristic_decision := heuristic_decision_does_free_slab pool.params pool.data
  let is_empty := (← slab_get slab .ref_count) = 0
  let lonely ← plain (is_lonely slab)
  if is_empty ∧ !lonely ∧ heuristic_decision then
    let prev ← slab_get slab .prev
    let next ← slab_get slab .next
    let pool ← if prev = NULL then do
        slab_set next .prev NULL
        pure { pool with list_start := next }
      else do
        slab_set prev .next next
        slab_set next .prev prev
        pure pool
    mem_slab_free build slab
    return { pool with data := { pool.data with shrink_count := pool.data.shrink_count + 1 } }
  else
    return pool

/-! ## `smalloc.c` -/

/-- The loop of `smalloc`. -/
def smalloc_loop (build : Build) (os : Os) (size : ℕ) :
    List slab_pool → Checked (List slab_pool × ℕ)
  | [] => do
      let result ← plain (malloc os size)
      return ([], result)
  | pool :: pools => do
      if size ≤ pool.allocation_size then
        let r ← slab_pool_allocate build os pool
        return (r.1 :: pools, r.2)
      else
        let r ← smalloc_loop build os size pools
        return (pool :: r.1, r.2)

/-- `smalloc`. -/
def smalloc (build : Build) (os : Os) (pools : List slab_pool) (size : ℕ) :
    Checked (List slab_pool × ℕ) := do
  assert build .smalloc_size (pure (size ≠ 0))
  smalloc_loop build os size pools

/-- The loop of `sfree`. -/
def sfree_loop (build : Build) (size ptr : ℕ) : List slab_pool → Checked (List slab_pool)
  | [] => pure []
  | pool :: pools => do
      if pool.allocation_size = size then
        let pool ← slab_pool_deallocate build pool ptr
        return pool :: pools
      else
        let pools ← sfree_loop build size ptr pools
        return pool :: pools

/-- `sfree`. -/
def sfree (build : Build) (os : Os) (pools : List slab_pool) (ptr : ℕ) :
    Checked (List slab_pool) := do
  let slab := get_page_pointer ptr
  if (← slab_get slab .slab_magic) ≠ SLAB_MAGIC_NUMBER then
    plain (free os ptr)
    return pools
  else
    sfree_loop build (← slab_get slab .size) ptr pools

/-- `srealloc`. -/
def srealloc (build : Build) (os : Os) (shift : ℕ) (pools : List slab_pool) (ptr size : ℕ) :
    Checked (List slab_pool × ℕ) := do
  if ptr = NULL then
    smalloc build os pools size
  else
    let slab := get_page_pointer ptr
    if (← slab_get slab .slab_magic) ≠ SLAB_MAGIC_NUMBER then
      let result ← plain (realloc os shift ptr size)
      return (pools, result)
    else
      let allocation_size ← slab_get slab .size
      if size < allocation_size then
        return (pools, ptr)
      else
        let r ← smalloc build os pools size
        plain (memcpy shift r.2 ptr allocation_size)
        let pools ← sfree build os r.1 ptr
        return (pools, r.2)

end Checked

end SlabAllocator
