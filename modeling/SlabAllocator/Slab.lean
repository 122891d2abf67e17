/-
`slab.c` and `utils.h`: one slab page.

The functions are the source's, statement by statement, in the default build:
`assert(x)` expands to nothing there, so no assertion is a branch here. A store
into a narrow field truncates by itself; where the source computes a value that
an unsigned type would wrap (`num_buffers - 1` on an empty slab, `i - 1` on the
first entry, `ref_count--`) the value is computed as an integer and converted.

`get_freelist_size` is compiled only with the paranoid assertions and is not
modelled.
-/
import SlabAllocator.Fields

set_option autoImplicit false

namespace SlabAllocator

/-! ## Constants -/

def SLAB_MAGIC_NUMBER : ℕ := 0x51ABA110CA704FFF

/-- `(uint16_t)(-1)`: the end mark of the index-linked free list. -/
def NON_EXISTANT : ℕ := 0xFFFF

def SLOT_FREE : ℕ := 0

def SLOT_BUSY : ℕ := 1

/-! ## `utils.h` -/

/-- `ptr & ~0xFFF`; the complement is an `int` and is sign-extended. -/
def get_page_pointer (ptr : ℕ) : ℕ := ptr &&& size_t_of_int (-4096)

/-- Whether the pointer is allocated on the page; only assertions ask. -/
def is_ptr_in_page (page ptr : ℕ) : Bool := get_page_pointer ptr = page

/-! ## `slab.c` -/

/-- The index of a buffer, truncated to `uint16_t`. -/
def get_buffer_index_from_ptr (slab ptr : ℕ) : M ℕ := do
  let allocable_buffer ← slab_get slab .allocable_buffer
  let size ← slab_get slab .size
  if size = 0 then
    fault .fpe
  else
    return size_t_sub ptr allocable_buffer / size % 2 ^ 16

/-- `size * sizeof(struct slab_bufctl)`, on `size_t`. -/
def slot_cost (size : Int32) : ℕ := size_t_of_int size.toInt * sizeof_bufctl % 2 ^ 64

/-- The number of buffers `prepare_slab_header` puts on a page. The comment in the
source multiplies the two per-slot costs, and so does the code. -/
def num_buffers (size : Int32) : ℕ := (SLAB_PAGE_SIZE - sizeof_mem_slab) / slot_cost size

/-- The loop that links the first `n` entries of the free list. -/
def link_freelist (freelist_buffer : ℕ) : ℕ → M Unit
  | 0 => pure ()
  | i + 1 => do
      link_freelist freelist_buffer i
      bufctl_set freelist_buffer i .prev_index (size_t_of_int (i - 1))
      bufctl_set freelist_buffer i .next_index (i + 1)
      bufctl_set freelist_buffer i .is_free SLOT_FREE

/-- Prepares the page to be used as a slab by filling the header structure. -/
def prepare_slab_header (result : ℕ) (size alignment : Int32) : M Unit := do
  slab_set result .slab_magic SLAB_MAGIC_NUMBER
  slab_set result .ref_count 0
  slab_set result .size (size_t_of_int size.toInt)
  slab_set result .alignment (size_t_of_int alignment.toInt)
  slab_set result .freelist_buffer (result + sizeof_mem_slab)
  slab_set result .next NULL
  slab_set result .prev NULL
  if slot_cost size = 0 then
    fault .fpe
  else
    let freelist_buffer ← slab_get result .freelist_buffer
    link_freelist freelist_buffer (num_buffers size)
    slab_set result .freelist_start_index 0
    slab_set result .freelist_end_index (size_t_of_int (num_buffers size - 1))
    bufctl_set freelist_buffer (← slab_get result .freelist_start_index) .prev_index NON_EXISTANT
    bufctl_set freelist_buffer (← slab_get result .freelist_end_index) .next_index NON_EXISTANT
    slab_set result .max_refs (num_buffers size)
    -- the byte count of the array is `num_buffers` here, not `num_buffers` entries
    slab_set result .allocable_buffer
      (ptr_add (← slab_get result .freelist_buffer) (num_buffers size))

def mem_slab_create (os : Os) (size alignment : Int32) : M ℕ := do
  let result ← mmap os 1
  if result = MAP_FAILED then
    return NULL
  else
    prepare_slab_header result size alignment
    return result

/-- The loop of `mem_slab_create_several`, for the slabs `1` to `n`. -/
def link_fresh_slabs (region : ℕ) (size alignment : Int32) : ℕ → M Unit
  | 0 => pure ()
  | i + 1 => do
      link_fresh_slabs region size alignment i
      let previous := region + i * SLAB_PAGE_SIZE
      let current := region + (i + 1) * SLAB_PAGE_SIZE
      let next := region + (i + 2) * SLAB_PAGE_SIZE
      prepare_slab_header current size alignment
      slab_set current .prev previous
      slab_set current .next next

def mem_slab_create_several (os : Os) (size alignment : Int32) (count list_next : ℕ) : M ℕ := do
  let mapped_region ← mmap os count
  if mapped_region = MAP_FAILED then
    return NULL
  else
    let first := mapped_region
    prepare_slab_header first size alignment
    slab_set first .prev NULL
    slab_set first .next (mapped_region + SLAB_PAGE_SIZE)
    link_fresh_slabs mapped_region size alignment (count - 1)
    let last := mapped_region + (count - 1) * SLAB_PAGE_SIZE
    slab_set last .next list_next
    -- If there is a next, link that next to the already created list
    if list_next ≠ NULL then
      slab_set list_next .prev last
      return first
    else
      return first

def mem_slab_free (slab : ℕ) : M Unit := munmap slab

/-- Allocate an object in the cache. -/
def mem_slab_alloc (slab : ℕ) : M ℕ := do
  let freelist_array ← slab_get slab .freelist_buffer
  let free_index ← slab_get slab .freelist_start_index
  let is_free ← bufctl_get freelist_array free_index .is_free
  if is_free ≠ SLOT_FREE then
    return NULL
  else
    slab_set slab .ref_count ((← slab_get slab .ref_count) + 1)
    let free_next ← bufctl_get freelist_array free_index .next_index
    let free_prev ← bufctl_get freelist_array free_index .prev_index
    if free_prev = NON_EXISTANT then
      bufctl_set freelist_array free_next .prev_index NON_EXISTANT
      slab_set slab .freelist_start_index free_next
    else
      bufctl_set freelist_array free_prev .next_index free_next
      bufctl_set freelist_array free_next .prev_index free_prev
    bufctl_set freelist_array (← slab_get slab .freelist_end_index) .next_index free_index
    bufctl_set freelist_array free_index .prev_index (← slab_get slab .freelist_end_index)
    slab_set slab .freelist_end_index free_index
    bufctl_set freelist_array free_index .next_index NON_EXISTANT
    bufctl_set freelist_array free_index .is_free SLOT_BUSY
    let allocable_buffer ← slab_get slab .allocable_buffer
    let size ← slab_get slab .size
    return ptr_add allocable_buffer (size * free_index)

/-- Frees an object in the cache. -/
def mem_slab_dealloc (slab ptr : ℕ) : M Unit := do
  let freelist_array ← slab_get slab .freelist_buffer
  let slot_index ← get_buffer_index_from_ptr slab ptr
  slab_set slab .ref_count (size_t_of_int ((← slab_get slab .ref_count) - 1))
  bufctl_set freelist_array slot_index .is_free SLOT_FREE
  let next_index ← bufctl_get freelist_array slot_index .next_index
  let prev_index ← bufctl_get freelist_array slot_index .prev_index
  if slot_index = (← slab_get slab .freelist_start_index) then
    return
  else if (← bufctl_get freelist_array prev_index .is_free) = SLOT_FREE then
    return
  else
    if next_index = NON_EXISTANT then
      bufctl_set freelist_array prev_index .next_index NON_EXISTANT
    else
      bufctl_set freelist_array prev_index .next_index next_index
      bufctl_set freelist_array next_index .prev_index prev_index
    if (← slab_get slab .freelist_end_index) = slot_index then
      slab_set slab .freelist_end_index prev_index
    bufctl_set freelist_array slot_index .next_index (← slab_get slab .freelist_start_index)
    bufctl_set freelist_array slot_index .prev_index NON_EXISTANT
    bufctl_set freelist_array (← slab_get slab .freelist_start_index) .prev_index slot_index
    slab_set slab .freelist_start_index slot_index

end SlabAllocator
