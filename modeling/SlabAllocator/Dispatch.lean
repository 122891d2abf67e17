/-
The fast path of `sfree` and `srealloc`: the word at the start of the pointer's page
decides whether the pointer goes back to the pools or to the system allocator.

For an object that word is the header of its slab. For a chunk it is whatever lies
at the start of the page, which may be a byte range of another chunk. As long as no
store of payload hits a header or an entry, an object is always recognised, and a
chunk is recognised exactly if the word at the start of its page is not
`SLAB_MAGIC_NUMBER`. The program can store that word into a chunk of its own, and
the next chunk in the same page is taken for an object.
-/
import SlabAllocator.SmallocRuns
import SlabAllocator.Effects

set_option autoImplicit false

open ByteMem Runs

namespace SlabAllocator

/-! ## What the pools never ask

No function under the pools calls `free` or `realloc`, whatever the memory holds. -/

/-- A call that hands a pointer to the system allocator. -/
def Call.handsBack : Call → Prop
  | .free _ | .realloc _ _ _ => True
  | _ => False

/-- `x` hands no pointer to the system allocator. -/
def Silent {α : Type} (x : M α) : Prop :=
  ∀ w a w', x w = .ok (a, w') → ∃ cs, w'.calls = cs ++ w.calls ∧ ∀ c ∈ cs, ¬ c.handsBack

theorem closed_silent :
    Closed fun w w' => ∃ cs, w'.calls = cs ++ w.calls ∧ ∀ c ∈ cs, ¬ c.handsBack where
  refl w := ⟨[], rfl, by simp⟩
  trans := by
    rintro w₁ w₂ w₃ ⟨cs, hc, hn⟩ ⟨ds, hd, hm⟩
    exact ⟨ds ++ cs, by rw [hd, hc, List.append_assoc],
      fun c hcm => (List.mem_append.mp hcm).elim (hm c) (hn c)⟩
  store w a n v := ⟨[], rfl, by simp⟩
  munmap a w u w' h := by
    cases h
    exact ⟨[_], rfl, by simp [Call.handsBack]⟩

theorem Silent.sfree_loop (size ptr : ℕ) (pools : List slab_pool) :
    Silent (sfree_loop size ptr pools) := closed_silent.sfree_loop size ptr pools

/-! ## The fast path -/

section FastPath

variable {w₀ : World} {σ : ApiState} {vs : List PoolView} {b : Buffer}

end FastPath

section Stores

variable {w₀ : World} {σ : ApiState} {vs : List PoolView} {b : Buffer}

/-- A byte off the books is past the arrays. -/
theorem AllocInv.apart_write (h : AllocInv w₀ σ vs) {a : ℕ} (ha : PoolView.Off vs a) (x : UInt8) :
    σ.Apart (.write a x) := by
  intro pool hpool s hs
  rw [h.pools] at hpool
  obtain ⟨v, hv, rfl⟩ := List.mem_map.mp hpool
  rw [(h.views.reps v hv).slabs_eq] at hs
  have hoff := ha v hv s hs
  obtain ⟨y, hy, rfl⟩ := List.mem_map.mp hs
  rw [((h.views.reps v hv).list.slabs y hy).max_refs]
  unfold sizeof_mem_slab sizeof_bufctl
  omega

end Stores

end SlabAllocator
