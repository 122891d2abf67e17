/-
The machine under the allocator: byte memory, pages, and the library calls the
source makes.

The allocator is one C translation unit after another over a flat address
space, and its defects are visible only there: a header, the index-linked free
list behind it and the buffers handed to the user share one page. So memory
here is bytes, every field access is a little-endian load or store at its
offset, and an access outside every accessible page is the fault it would be.

Two kinds of page are accessible. `mapped` lists the pages obtained with `mmap`
and not yet returned with `munmap`. `heap` lists the chunks of the system
allocator; a page that holds a byte of one of them is accessible as a whole,
which is why `sfree` can look at the start of a page it knows nothing about.

What the kernel and the system allocator answer is not in the source. Their
answers to one call are an argument (`Os`), and what they promise about the
answers is `MmapFresh` and `MallocFresh`.
-/
import SlabAllocator.ByteMem
import Mathlib.Data.Int.Notation
import Mathlib.Data.List.Basic

set_option autoImplicit false

open ByteMem

namespace SlabAllocator

/-- The null pointer. Addresses, and every `uintptr_t`, are natural numbers. -/
abbrev NULL : ℕ := 0

/-- What `mmap` returns on failure, `(void*)-1`. -/
def MAP_FAILED : ℕ := 2 ^ 64 - 1

/-- `sysconf(_SC_PAGESIZE)`; `get_page_pointer` has the value built in. -/
def SLAB_PAGE_SIZE : ℕ := 4096

/-- A call of a library function, with what it was given and what it answered. -/
inductive Call
  | mmap (length : ℕ) (ret : ℕ)
  | munmap (addr : ℕ) (length : ℕ)
  | malloc (size : ℕ) (ret : ℕ)
  | realloc (ptr : ℕ) (size : ℕ) (ret : ℕ)
  | free (ptr : ℕ)
  | memcpy (dst src : ℕ) (n : ℕ)
  deriving DecidableEq, Repr

/-- The state of the process. -/
structure World where
  /-- The bytes of memory. -/
  mem : Mem
  /-- The pages obtained with `mmap` and still mapped. -/
  mapped : List ℕ
  /-- The chunks the system allocator has handed out, with their sizes. -/
  heap : List (ℕ × ℕ)
  /-- The library calls made so far, latest first. -/
  calls : List Call

/-- Why an execution stops. -/
inductive Fault
  /-- An access to an address of no accessible page. -/
  | segv (addr : ℕ)
  /-- A division by zero. -/
  | fpe
  /-- `free` or `realloc` of a pointer the system allocator does not own. -/
  | bad_free (ptr : ℕ)
  /-- A loop that never ends. -/
  | hang
  deriving DecidableEq, Repr

/-- A computation over the process. -/
abbrev M (α : Type) := World → Except Fault (α × World)

instance : Monad M where
  pure a := fun w => .ok (a, w)
  bind x f := fun w => match x w with
    | .ok (a, w') => f a w'
    | .error e => .error e

/-- Stop with a fault. -/
def fault {α : Type} (e : Fault) : M α := fun _ => .error e

/-! ## Running a computation -/

section Run

variable {α β : Type} {x : M α} {f : α → M β} {w w' : World} {a : α}

@[simp] theorem pure_run (a : α) (w : World) : (pure a : M α) w = .ok (a, w) := rfl

@[simp] theorem fault_run (e : Fault) (w : World) : (fault e : M α) w = .error e := rfl

theorem bind_run (x : M α) (f : α → M β) (w : World) :
    (x >>= f) w = match x w with
      | .ok (a, w') => f a w'
      | .error e => .error e := rfl

@[simp] theorem pure_bind_run (a : α) (f : α → M β) (w : World) : (pure a >>= f) w = f a w := rfl

/-- A computation that succeeds hands its result and its world on. -/
theorem bind_ok (h : x w = .ok (a, w')) : (x >>= f) w = f a w' := by
  rw [bind_run, h]

/-- A fault ends the computation it happens in. -/
theorem bind_error {e : Fault} (h : x w = .error e) : (x >>= f) w = .error e := by
  rw [bind_run, h]

/-- What a composite computation that succeeds was made of. -/
theorem bind_eq_ok {b : β} (h : (x >>= f) w = .ok (b, w')) :
    ∃ a w₁, x w = .ok (a, w₁) ∧ f a w₁ = .ok (b, w') := by
  rw [bind_run] at h
  rcases hx : x w with e | ⟨a, w₁⟩
  · rw [hx] at h
    cases h
  · rw [hx] at h
    exact ⟨a, w₁, rfl, h⟩

/-- The same for the outcome of a step. -/
theorem except_bind_eq_ok {ε α β : Type} {x : Except ε α} {f : α → Except ε β} {b : β}
    (h : (x >>= f) = .ok b) : ∃ a, x = .ok a ∧ f a = .ok b := by
  rcases x with e | a
  · cases h
  · exact ⟨a, rfl, h⟩

@[simp] theorem ite_run {c : Prop} [Decidable c] (x y : M α) (w : World) :
    (if c then x else y) w = if c then x w else y w := by
  split <;> rfl

end Run

/-! ## Accessible memory -/

/-- The start of the page that holds `a`. -/
def pageOf (a : ℕ) : ℕ := a / SLAB_PAGE_SIZE * SLAB_PAGE_SIZE

/-- A chunk of the system allocator has a byte in the page of `a`. -/
def touches (c : ℕ × ℕ) (a : ℕ) : Prop :=
  c.1 < pageOf a + SLAB_PAGE_SIZE ∧ pageOf a < c.1 + c.2

instance (c : ℕ × ℕ) (a : ℕ) : Decidable (touches c a) :=
  inferInstanceAs (Decidable (_ ∧ _))

/-- The process may read and write the byte at `a`. -/
def World.Accessible (w : World) (a : ℕ) : Prop :=
  pageOf a ∈ w.mapped ∨ ∃ c ∈ w.heap, touches c a

instance (w : World) (a : ℕ) : Decidable (w.Accessible a) :=
  inferInstanceAs (Decidable (_ ∨ _))

/-- The first byte of `[a, a + n)` that the process may not access. -/
def World.firstBad (w : World) (a : ℕ) : ℕ → Option ℕ
  | 0 => none
  | n + 1 => if w.Accessible a then w.firstBad (a + 1) n else some a

/-- Read the `n` bytes at `a`. -/
def load (a : ℕ) (n : ℕ) : M ℕ := fun w =>
  match w.firstBad a n with
  | none => .ok (loadLE w.mem a n, w)
  | some b => .error (.segv b)

/-- The world after a store of `n` bytes at `a`. -/
def World.store (w : World) (a : ℕ) (n v : ℕ) : World :=
  { w with mem := storeLE w.mem a n v }

/-- Write the `n` bytes at `a`. -/
def store (a : ℕ) (n v : ℕ) : M Unit := fun w =>
  match w.firstBad a n with
  | none => .ok ((), w.store a n v)
  | some b => .error (.segv b)

theorem firstBad_eq_none {w : World} {n : ℕ} : ∀ {a : ℕ},
    (∀ b, a ≤ b → b < a + n → w.Accessible b) → w.firstBad a n = none := by
  induction n with
  | zero => intro a _; rfl
  | succ n ih =>
      intro a h
      rw [World.firstBad, if_pos (h a (le_refl a) (by omega)),
        ih (fun b h1 h2 => h b (by omega) (by omega))]

theorem firstBad_eq_head {w : World} {a : ℕ} {n : ℕ} (h : ¬ w.Accessible a) (hn : 0 < n) :
    w.firstBad a n = some a := by
  obtain ⟨n, rfl⟩ : ∃ k, n = k + 1 := ⟨n - 1, by omega⟩
  rw [World.firstBad, if_neg h]

theorem load_ok {w : World} {a : ℕ} {n : ℕ}
    (h : ∀ b, a ≤ b → b < a + n → w.Accessible b) :
    load a n w = .ok (loadLE w.mem a n, w) := by
  rw [load, firstBad_eq_none h]

theorem store_ok {w : World} {a : ℕ} {n v : ℕ}
    (h : ∀ b, a ≤ b → b < a + n → w.Accessible b) :
    store a n v w = .ok ((), w.store a n v) := by
  rw [store, firstBad_eq_none h]

theorem load_segv {w : World} {a : ℕ} {n : ℕ} (h : ¬ w.Accessible a) (hn : 0 < n) :
    load a n w = .error (.segv a) := by
  rw [load, firstBad_eq_head h hn]

theorem store_segv {w : World} {a : ℕ} {n v : ℕ} (h : ¬ w.Accessible a) (hn : 0 < n) :
    store a n v w = .error (.segv a) := by
  rw [store, firstBad_eq_head h hn]

/-! ## C arithmetic

`size_t` and `uintptr_t` are natural numbers below `2 ^ 64`. A parameter of type
`int` is an `Int32`; an intermediate value of type `int` is an integer. -/

/-- An integer converted to `size_t`. -/
def size_t_of_int (x : ℤ) : ℕ := (x % 2 ^ 64).toNat

/-- `size_t` to `int`. -/
def int_of_size_t (x : ℕ) : Int32 := Int32.ofNat x

/-- `a - b` on `size_t`, which wraps. -/
def size_t_sub (a b : ℕ) : ℕ := size_t_of_int (a - b)

/-- Pointer plus byte offset, as `uintptr_t`. -/
def ptr_add (p : ℕ) (k : ℕ) : ℕ := (p + k) % 2 ^ 64

theorem size_t_of_int_natCast {n : ℕ} (h : n < 2 ^ 64) : size_t_of_int n = n := by
  rw [size_t_of_int]
  omega

theorem int_of_size_t_of_lt {n : ℕ} (h : n < 2 ^ 31) : (int_of_size_t n).toInt = n :=
  Int32.toInt_ofNat_of_lt h

theorem size_t_sub_eq {a b : ℕ} (hba : b ≤ a) (h : a - b < 2 ^ 64) : size_t_sub a b = a - b := by
  rw [size_t_sub, size_t_of_int]
  omega

theorem ptr_add_eq {p : ℕ} {k : ℕ} (h : p + k < 2 ^ 64) : ptr_add p k = p + k := by
  rw [ptr_add, Nat.mod_eq_of_lt h]

/-! ## The kernel and the system allocator -/

/-- What the operating system answers to one call into the allocator. -/
structure Os where
  /-- The answer of `mmap`. -/
  mmap : ℕ
  /-- The answer of `malloc` or `realloc`. -/
  malloc : ℕ
  /-- What the system allocator leaves in the memory it does not owe to anyone. -/
  bytes : Mem

/-- The pages of `[a, a + n * 4096)`. -/
def pages (a : ℕ) (n : ℕ) : List ℕ :=
  (List.range n).map fun i => a + i * SLAB_PAGE_SIZE

/-- What the kernel promises about a new mapping of `n` pages at `a`: it is page
aligned, it is not the null page, it lies in the address space, and it overlaps
nothing that is mapped or owned by the system allocator. -/
structure MmapFresh (w : World) (a : ℕ) (n : ℕ) : Prop where
  aligned : a % SLAB_PAGE_SIZE = 0
  low : SLAB_PAGE_SIZE ≤ a
  high : a + n * SLAB_PAGE_SIZE < 2 ^ 64
  mapped : ∀ p ∈ w.mapped, p + SLAB_PAGE_SIZE ≤ a ∨ a + n * SLAB_PAGE_SIZE ≤ p
  heap : ∀ c ∈ w.heap, c.1 + c.2 ≤ a ∨ a + n * SLAB_PAGE_SIZE ≤ c.1

/-- What the system allocator promises about a new chunk of `n` bytes at `p`: it
is not in the null page, it lies in the address space, and it overlaps no
mapping and no chunk of `others`. Pages may be shared and crossed. -/
structure MallocFresh (w : World) (others : List (ℕ × ℕ)) (p : ℕ) (n : ℕ) : Prop where
  low : SLAB_PAGE_SIZE ≤ p
  high : p + n < 2 ^ 64
  mapped : ∀ q ∈ w.mapped, q + SLAB_PAGE_SIZE ≤ p ∨ p + n ≤ q
  heap : ∀ c ∈ others, c.1 + c.2 ≤ p ∨ p + n ≤ c.1

/-- `mmap` of `n` anonymous pages: they read as zero. -/
def mmap (os : Os) (n : ℕ) : M ℕ := fun w =>
  if os.mmap = MAP_FAILED then
    .ok (MAP_FAILED, { w with calls := .mmap (SLAB_PAGE_SIZE * n) MAP_FAILED :: w.calls })
  else
    .ok (os.mmap, { w with
      mem := fun l => if os.mmap ≤ l % 2 ^ 64 ∧ l % 2 ^ 64 < os.mmap + n * SLAB_PAGE_SIZE
        then 0 else w.mem l
      mapped := w.mapped ++ pages os.mmap n
      calls := .mmap (SLAB_PAGE_SIZE * n) os.mmap :: w.calls })

/-- `munmap` of the page at `a`. -/
def munmap (a : ℕ) : M Unit := fun w =>
  .ok ((), { w with mapped := w.mapped.erase a, calls := .munmap a SLAB_PAGE_SIZE :: w.calls })

/-- The byte at `a` belongs to a mapping or to one of the chunks `cs`. -/
def World.Owned (w : World) (cs : List (ℕ × ℕ)) (a : ℕ) : Prop :=
  pageOf a ∈ w.mapped ∨ ∃ c ∈ cs, c.1 ≤ a ∧ a < c.1 + c.2

instance (w : World) (cs : List (ℕ × ℕ)) (a : ℕ) : Decidable (w.Owned cs a) :=
  inferInstanceAs (Decidable (_ ∨ _))

/-- The memory after the system allocator ran: mappings and the chunks `cs` keep
their bytes, the rest is whatever it left there. -/
def World.settle (w : World) (os : Os) (cs : List (ℕ × ℕ)) : Mem := fun l =>
  if w.Owned cs (l % 2 ^ 64) then w.mem l else os.bytes l

/-- `malloc`. -/
def malloc (os : Os) (size : ℕ) : M ℕ := fun w =>
  if os.malloc = NULL then
    .ok (NULL, { w with
      mem := w.settle os w.heap
      calls := .malloc size NULL :: w.calls })
  else
    .ok (os.malloc, { w with
      mem := w.settle os w.heap
      heap := (os.malloc, size) :: w.heap
      calls := .malloc size os.malloc :: w.calls })

/-- The chunk at `ptr`. -/
def World.chunk (w : World) (ptr : ℕ) : Option (ℕ × ℕ) :=
  w.heap.find? fun c => c.1 = ptr

/-- `free`. -/
def free (os : Os) (ptr : ℕ) : M Unit := fun w =>
  match w.chunk ptr with
  | none => .error (.bad_free ptr)
  | some c =>
      .ok ((), { w with
        mem := w.settle os (w.heap.erase c)
        heap := w.heap.erase c
        calls := .free ptr :: w.calls })

/-! ## Where the payload bytes are

In the program a payload byte and a bookkeeping byte with one address are one
byte. `shift` is how far from its address a payload byte is kept: `0` is the
program, and `2 ^ 64` puts the payload out of reach of every bookkeeping store,
which is the machine in which "bookkeeping is stored apart from the payload".
Only the code that moves payload takes the parameter. -/

/-- The payload byte at address `a`. -/
def World.byte (w : World) (shift : ℕ) (a : ℕ) : UInt8 := w.mem (a + shift)

/-- `realloc`: the first bytes of the old chunk move to the new one. -/
def realloc (os : Os) (shift : ℕ) (ptr : ℕ) (size : ℕ) : M ℕ := fun w =>
  match w.chunk ptr with
  | none => .error (.bad_free ptr)
  | some c =>
      if os.malloc = NULL then
        .ok (NULL, { w with
          mem := w.settle os w.heap
          calls := .realloc ptr size NULL :: w.calls })
      else
        .ok (os.malloc, { w with
          mem := fun l =>
            if os.malloc + shift ≤ l ∧ l < os.malloc + shift + min c.2 size
            then w.mem (ptr + shift + (l - (os.malloc + shift)))
            else w.settle os (w.heap.erase c) l
          heap := (os.malloc, size) :: w.heap.erase c
          calls := .realloc ptr size os.malloc :: w.calls })

/-- `memcpy` of payload. -/
def memcpy (shift : ℕ) (dst src : ℕ) (n : ℕ) : M Unit := fun w =>
  match w.firstBad src n, w.firstBad dst n with
  | some b, _ => .error (.segv b)
  | none, some b => .error (.segv b)
  | none, none =>
      .ok ((), { w with
        mem := copyBytes w.mem (dst + shift) (src + shift) n
        calls := .memcpy dst src n :: w.calls })

/-- The user stores a byte at `a`. -/
def World.poke (w : World) (shift : ℕ) (a : ℕ) (b : UInt8) : World :=
  { w with mem := fun l => if l = a + shift then b else w.mem l }

end SlabAllocator
