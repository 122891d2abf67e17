/-
The entries a call on a slab touches.

`Traced` is a computation that also lists the index of every entry it reads or
writes, up to and including one whose access faults: an index out of range is
one the code used, whatever lies at its address. The three functions that touch
entries are here once more with that list, statement by statement as in `Slab`,
and forgetting the list gives back the functions there (`Traced.run`). So a law
about the list is a law about the code.
-/
import SlabAllocator.Slab

set_option autoImplicit false

namespace SlabAllocator

/-! ## Computations that list their entries -/

/-- A computation over the process, with the indices of the entries it touches. -/
def Traced (α : Type) : Type := World → List ℕ × Except Fault (α × World)

namespace Traced

/-- What the computation does. -/
def run {α : Type} (x : Traced α) : M α := fun w => (x w).2

/-- The entries it touches, in order. -/
def indices {α : Type} (x : Traced α) (w : World) : List ℕ := (x w).1

instance : Monad Traced where
  pure a := fun w => ([], .ok (a, w))
  bind x f := fun w => match x w with
    | (is, .ok (a, w')) => (is ++ (f a w').1, (f a w').2)
    | (is, .error e) => (is, .error e)

/-- A computation that touches no entry. -/
def untraced {α : Type} (x : M α) : Traced α := fun w => ([], x w)

def fault {α : Type} (e : Fault) : Traced α := untraced (SlabAllocator.fault e)

def slab_get (slab : ℕ) (f : SlabField) : Traced ℕ := untraced (SlabAllocator.slab_get slab f)

def slab_set (slab : ℕ) (f : SlabField) (v : ℕ) : Traced Unit :=
  untraced (SlabAllocator.slab_set slab f v)

/-- `array[i].f`. -/
def bufctl_get (array i : ℕ) (f : BufctlField) : Traced ℕ := fun w =>
  ([i], SlabAllocator.bufctl_get array i f w)

/-- `array[i].f = v`. -/
def bufctl_set (array i : ℕ) (f : BufctlField) (v : ℕ) : Traced Unit := fun w =>
  ([i], SlabAllocator.bufctl_set array i f v w)

def get_buffer_index_from_ptr (slab ptr : ℕ) : Traced ℕ :=
  untraced (SlabAllocator.get_buffer_index_from_ptr slab ptr)

/-! ## The functions -/

/-- `link_freelist`. -/
def link_freelist (freelist_buffer : ℕ) : ℕ → Traced Unit
  | 0 => pure ()
  | i + 1 => do
      link_freelist freelist_buffer i
      bufctl_set freelist_buffer i .prev_index (size_t_of_int (i - 1))
      bufctl_set freelist_buffer i .next_index (i + 1)
      bufctl_set freelist_buffer i .is_free SLOT_FREE

/-- `prepare_slab_header`. -/
def prepare_slab_header (result : ℕ) (size alignment : Int32) : Traced Unit := do
  slab_set result .slab_magic SLAB_MAGIC_NUMBER
  slab_set result .ref_count 0
  slab_set result .size (size_t_of_int size.toInt)
  slab_set result .alignment (size_t_of_int alignment.toInt)
  slab_set result .freelist_buffer (result + sizeof_mem_slab)
  slab_set result .next NULL
  slab_set result .prev NULL
  if slot_cost size = 0 then
    fault .fpe
  else
    let freelist_buffer ← slab_get result .freelist_buffer
    link_freelist freelist_buffer (num_buffers size)
    slab_set result .freelist_start_index 0
    slab_set result .freelist_end_index (size_t_of_int (num_buffers size - 1))
    bufctl_set freelist_buffer (← slab_get result .freelist_start_index) .prev_index NON_EXISTANT
    bufctl_set freelist_buffer (← slab_get result .freelist_end_index) .next_index NON_EXISTANT
    slab_set result .max_refs (num_buffers size)
    slab_set result .allocable_buffer
      (ptr_add (← slab_get result .freelist_buffer) (num_buffers size))

/-- `mem_slab_alloc`. -/
def mem_slab_alloc (slab : ℕ) : Traced ℕ := do
  let freelist_array ← slab_get slab .freelist_buffer
  let free_index ← slab_get slab .freelist_start_index
  let is_free ← bufctl_get freelist_array free_index .is_free
  if is_free ≠ SLOT_FREE then
    return NULL
  else
    slab_set slab .ref_count ((← slab_get slab .ref_count) + 1)
    let free_next ← bufctl_get freelist_array free_index .next_index
    let free_prev ← bufctl_get freelist_array free_index .prev_index
    if free_prev = NON_EXISTANT then
      bufctl_set freelist_array free_next .prev_index NON_EXISTANT
      slab_set slab .freelist_start_index free_next
    else
      bufctl_set freelist_array free_prev .next_index free_next
      bufctl_set freelist_array free_next .prev_index free_prev
    bufctl_set freelist_array (← slab_get slab .freelist_end_index) .next_index free_index
    bufctl_set freelist_array free_index .prev_index (← slab_get slab .freelist_end_index)
    slab_set slab .freelist_end_index free_index
    bufctl_set freelist_array free_index .next_index NON_EXISTANT
    bufctl_set freelist_array free_index .is_free SLOT_BUSY
    let allocable_buffer ← slab_get slab .allocable_buffer
    let size ← slab_get slab .size
    return ptr_add allocable_buffer (size * free_index)

/-- `mem_slab_dealloc`. -/
def mem_slab_dealloc (slab ptr : ℕ) : Traced Unit := do
  let freelist_array ← slab_get slab .freelist_buffer
  let slot_index ← get_buffer_index_from_ptr slab ptr
  slab_set slab .ref_count (size_t_of_int ((← slab_get slab .ref_count) - 1))
  bufctl_set freelist_array slot_index .is_free SLOT_FREE
  let next_index ← bufctl_get freelist_array slot_index .next_index
  let prev_index ← bufctl_get freelist_array slot_index .prev_index
  if slot_index = (← slab_get slab .freelist_start_index) then
    return
  else if (← bufctl_get freelist_array prev_index .is_free) = SLOT_FREE then
    return
  else
    if next_index = NON_EXISTANT then
      bufctl_set freelist_array prev_index .next_index NON_EXISTANT
    else
      bufctl_set freelist_array prev_index .next_index next_index
      bufctl_set freelist_array next_index .prev_index prev_index
    if (← slab_get slab .freelist_end_index) = slot_index then
      slab_set slab .freelist_end_index prev_index
    bufctl_set freelist_array slot_index .next_index (← slab_get slab .freelist_start_index)
    bufctl_set freelist_array slot_index .prev_index NON_EXISTANT
    bufctl_set freelist_array (← slab_get slab .freelist_start_index) .prev_index slot_index
    slab_set slab .freelist_start_index slot_index

/-! ## Forgetting the list -/

section Run

variable {α β : Type}

theorem bind_apply (x : Traced α) (f : α → Traced β) (w : World) :
    (x >>= f) w = match x w with
      | (is, .ok (a, w')) => (is ++ (f a w').1, (f a w').2)
      | (is, .error e) => (is, .error e) := rfl

@[simp] theorem run_pure (a : α) : (pure a : Traced α).run = pure a := rfl

@[simp] theorem run_untraced (x : M α) : (untraced x).run = x := rfl

@[simp] theorem run_bind (x : Traced α) (f : α → Traced β) :
    (x >>= f).run = x.run >>= fun a => (f a).run := by
  funext w
  rw [run, bind_apply, bind_run]
  unfold run
  rcases x w with ⟨is, e | ⟨a, w'⟩⟩ <;> rfl

@[simp] theorem run_ite {c : Prop} [Decidable c] (x y : Traced α) :
    (if c then x else y).run = if c then x.run else y.run := by
  split <;> rfl

@[simp] theorem run_bufctl_get (array i : ℕ) (f : BufctlField) :
    (bufctl_get array i f).run = SlabAllocator.bufctl_get array i f := rfl

@[simp] theorem run_bufctl_set (array i : ℕ) (f : BufctlField) (v : ℕ) :
    (bufctl_set array i f v).run = SlabAllocator.bufctl_set array i f v := rfl

end Run

@[simp] theorem run_link_freelist (freelist_buffer n : ℕ) :
    (link_freelist freelist_buffer n).run = SlabAllocator.link_freelist freelist_buffer n := by
  induction n with
  | zero => rfl
  | succ n ih => simp only [link_freelist, SlabAllocator.link_freelist, run_bind, ih,
      run_bufctl_set]

theorem run_prepare_slab_header (result : ℕ) (size alignment : Int32) :
    (prepare_slab_header result size alignment).run
      = SlabAllocator.prepare_slab_header result size alignment := by
  simp [prepare_slab_header, SlabAllocator.prepare_slab_header, slab_get, slab_set, fault]

theorem run_mem_slab_alloc (slab : ℕ) :
    (mem_slab_alloc slab).run = SlabAllocator.mem_slab_alloc slab := by
  simp [mem_slab_alloc, SlabAllocator.mem_slab_alloc, slab_get, slab_set]

theorem run_mem_slab_dealloc (slab ptr : ℕ) :
    (mem_slab_dealloc slab ptr).run = SlabAllocator.mem_slab_dealloc slab ptr := by
  simp [mem_slab_dealloc, SlabAllocator.mem_slab_dealloc, slab_get, slab_set,
    get_buffer_index_from_ptr]

end Traced

end SlabAllocator
