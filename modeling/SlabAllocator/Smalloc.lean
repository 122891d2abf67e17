/-
`smalloc.c`: the public functions.

The array `pools` is a list here, passed in and returned; a `for` loop over it
that stops at the first match is the recursion that stops there. `Os` is what
the operating system answers to the call; `smalloc_initialize` makes one mapping
for each pool and so takes one answer for each.
-/
import SlabAllocator.Pool

set_option autoImplicit false

namespace SlabAllocator

/-- The cache configuration of `smalloc`. -/
def cache_sizes : List ℕ := [8, 16, 32, 64, 128, 256]

/-- The loop of `smalloc_initialize`, from the `i`-th pool on. -/
def create_pools (os : ℕ → Os) : ℕ → List ℕ → M (List slab_pool)
  | _, [] => pure []
  | i, size :: sizes => do
      let pool ← slab_pool_create (os i) size
      let pools ← create_pools os (i + 1) sizes
      return pool :: pools

/-- Initializes all the slabs. -/
def smalloc_initialize (os : ℕ → Os) : M (List slab_pool) := create_pools os 0 cache_sizes

/-- Allocates memory trying to use slab caches as much as possible. -/
def smalloc (os : Os) : List slab_pool → ℕ → M (List slab_pool × ℕ)
  | [], size => do
      let result ← malloc os size
      return ([], result)
  | pool :: pools, size => do
      if size ≤ pool.allocation_size then
        let r ← slab_pool_allocate os pool
        return (r.1 :: pools, r.2)
      else
        let r ← smalloc os pools size
        return (pool :: r.1, r.2)

/-- The loop of `sfree`: the pool whose size is the slab's takes the pointer back. -/
def sfree_loop (size ptr : ℕ) : List slab_pool → M (List slab_pool)
  | [] => pure []
  | pool :: pools => do
      if pool.allocation_size = size then
        let pool ← slab_pool_deallocate pool ptr
        return pool :: pools
      else
        let pools ← sfree_loop size ptr pools
        return pool :: pools

/-- Free's a previously allocated pointer. -/
def sfree (os : Os) (pools : List slab_pool) (ptr : ℕ) : M (List slab_pool) := do
  -- Fast path. If the pointer was not allocated in a slab we simply free and return.
  let slab := get_page_pointer ptr
  if (← slab_get slab .slab_magic) ≠ SLAB_MAGIC_NUMBER then
    free os ptr
    return pools
  else
    sfree_loop (← slab_get slab .size) ptr pools

/-- Resizes a block of memory that was previously allocated. -/
def srealloc (os : Os) (shift : ℕ) (pools : List slab_pool) (ptr size : ℕ) :
    M (List slab_pool × ℕ) := do
  if ptr = NULL then
    smalloc os pools size
  else
    let slab := get_page_pointer ptr
    if (← slab_get slab .slab_magic) ≠ SLAB_MAGIC_NUMBER then
      let result ← realloc os shift ptr size
      return (pools, result)
    else
      let allocation_size ← slab_get slab .size
      if size < allocation_size then
        return (pools, ptr)
      else
        -- As a last resort allocate a new buffer and copy the pointer data to the
        -- new buffer.
        let r ← smalloc os pools size
        memcpy shift r.2 ptr allocation_size
        let pools ← sfree os r.1 ptr
        return (pools, r.2)

end SlabAllocator
