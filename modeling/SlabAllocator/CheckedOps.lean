/-
What the assertions do to the functions: nothing, or abort.

`Refines d x` says that a build with assertions that returns did what the
default build does, in any state of the memory, corrupted or not. It needs no
invariant, because an assertion only reads; it follows from the shape of the
functions by one rule for each construct.

`Passes d x w r` is the other direction, for one call: if the default build
answers `r`, so does the build with assertions. Here every assertion has to be
shown true where it stands. Those that stand after the last store see the world
the call ends in, so the specification of the call in the default build gives
them; the rules keep the rest of the call at hand for that.
-/
import SlabAllocator.Checked
import SlabAllocator.Effects
import SlabAllocator.PoolOps

set_option autoImplicit false

open DoublyLinked

namespace SlabAllocator

namespace Checked

/-! ## Running a computation that may abort -/

section Run

variable {α β : Type} {build : Build} {a : Assertion} {d : Checked α} {k : α → Checked β}
  {x y : M α} {f : α → M β} {c : M Bool} {w v : World} {u : α}

@[simp] theorem pure_run (u : α) (w : World) : (pure u : Checked α) w = .ok (u, w) := rfl

theorem bind_run (d : Checked α) (k : α → Checked β) (w : World) :
    (d >>= k) w = match d w with
      | .ok (u, v) => k u v
      | .error e => .error e := rfl

/-- A computation that succeeds hands its result and its world on. -/
theorem bind_ok (h : d w = .ok (u, v)) : (d >>= k) w = k u v := by
  rw [bind_run, h]

/-- An abort ends the computation it happens in. -/
theorem bind_error {e : Stop} (h : d w = .error e) : (d >>= k) w = .error e := by
  rw [bind_run, h]

theorem plain_ok {r : α × World} (h : x w = .ok r) : plain x w = .ok r := by
  rw [plain, h]

theorem slab_get_bind {slab : ℕ} (h : w.Page slab) (f : SlabField) (k : ℕ → Checked β) :
    (slab_get slab f >>= k) w = k (w.field slab f) w := bind_ok (plain_ok (slab_get_ok h f))

theorem bufctl_get_bind {array i : ℕ} (h : w.Entry array i) (f : BufctlField)
    (k : ℕ → Checked β) : (bufctl_get array i f >>= k) w = k (w.buf array i f) w :=
  bind_ok (plain_ok (bufctl_get_ok h f))

/-- What a composite computation that succeeds was made of. -/
theorem bind_eq_ok {r : β × World} (h : (d >>= k) w = .ok r) :
    ∃ u v, d w = .ok (u, v) ∧ k u v = .ok r := by
  rw [bind_run] at h
  rcases hd : d w with e | ⟨u, v⟩
  · rw [hd] at h
    cases h
  · rw [hd] at h
    exact ⟨u, v, rfl, h⟩

theorem plain_eq_ok {r : α × World} : plain x w = .ok r ↔ x w = .ok r := by
  unfold plain
  rcases x w with e | r'
  · simp
  · simp

/-- An assertion that holds. -/
theorem assert_ok (h : c w = .ok (true, w)) : assert build a c w = .ok ((), w) := by
  unfold assert
  by_cases hb : build.SLAB_DEBUG
  · rw [if_pos hb, check, h]
  · rw [if_neg hb, pure_run]

end Run

/-! ## A build that returns did the same -/

/-- Whatever the world is, `d` leaves it as it is. -/
def ReadOnly {α : Type} (d : Checked α) : Prop := ∀ w u v, d w = .ok (u, v) → v = w

/-- Whatever the world is, if `d` returns then `x` returns the same. -/
def Refines {α : Type} (d : Checked α) (x : M α) : Prop := ∀ w r, d w = .ok r → x w = .ok r

section Refines

variable {α β : Type} {build : Build} {a : Assertion} {d d' : Checked α} {k : α → Checked β}
  {x x' : M α} {y : M β} {f : α → M β} {c : M Bool}

theorem ReadOnly.plain (h : Respects (fun w v => v = w) x) : ReadOnly (plain x) := by
  intro w u v hd
  exact h w u v (plain_eq_ok.mp hd)

theorem ReadOnly.pure (u : α) : ReadOnly (Pure.pure u : Checked α) := fun _ _ _ h => by
  cases h
  rfl

theorem ReadOnly.ite {p : Prop} [Decidable p] (h : ReadOnly d) (h' : ReadOnly d') :
    ReadOnly (if p then d else d') := by
  by_cases hp : p
  · rw [if_pos hp]
    exact h
  · rw [if_neg hp]
    exact h'

theorem ReadOnly.assert (h : Respects (fun w v => v = w) c) : ReadOnly (assert build a c) := by
  refine ReadOnly.ite (fun w u v hd => ?_) (ReadOnly.pure ())
  unfold check at hd
  split at hd
  · rename_i hc
    cases hd
    exact h w _ v hc
  · cases hd
  · cases hd

theorem refines_plain : Refines (plain x) x := fun _ _ h => plain_eq_ok.mp h

theorem Refines.bind (h : Refines d x) (hk : ∀ u, Refines (k u) (f u)) :
    Refines (d >>= k) (x >>= f) := by
  intro w r hr
  obtain ⟨u, v, h₁, h₂⟩ := bind_eq_ok hr
  rw [SlabAllocator.bind_ok (h w _ h₁)]
  exact hk u v r h₂

/-- What only reads may stand before a computation. -/
theorem Refines.skip (h : ReadOnly d) (hk : ∀ u, Refines (k u) y) : Refines (d >>= k) y := by
  intro w r hr
  obtain ⟨u, v, h₁, h₂⟩ := bind_eq_ok hr
  rw [h w u v h₁] at h₂
  exact hk u w r h₂

/-- What only reads may stand behind a computation. -/
theorem Refines.after {k : Unit → Checked Unit} {d : Checked Unit} {x : M Unit}
    (h : Refines d x) (hk : ReadOnly (k ())) : Refines (d >>= k) x := by
  intro w r hr
  obtain ⟨u, v, h₁, h₂⟩ := bind_eq_ok hr
  rw [h w _ h₁, ← hk v r.1 r.2 h₂]

theorem ReadOnly.bind (h : ReadOnly d) (hk : ∀ u, ReadOnly (k u)) : ReadOnly (d >>= k) := by
  intro w r v hr
  obtain ⟨u, v', h₁, h₂⟩ := bind_eq_ok hr
  rw [hk u v' r v h₂, h w u v' h₁]

theorem Refines.ite {p : Prop} [Decidable p] (h : Refines d x) (h' : Refines d' x') :
    Refines (if p then d else d') (if p then x else x') := by
  by_cases hp : p
  · rw [if_pos hp, if_pos hp]
    exact h
  · rw [if_neg hp, if_neg hp]
    exact h'

end Refines

/-! ### What assertions evaluate -/

/-- Whatever the world is, `x` leaves it as it is. -/
def Reads {α : Type} (x : M α) : Prop := Respects (fun w v => v = w) x

section Reads

variable {α β : Type} {x y : M α} {f : α → M β}

theorem reads_pure (u : α) : Reads (pure u : M α) := fun _ _ _ h => by
  cases h
  rfl

theorem Reads.bind (h : Reads x) (hf : ∀ u, Reads (f u)) : Reads (x >>= f) := by
  intro w r v hr
  obtain ⟨u, v', h₁, h₂⟩ := SlabAllocator.bind_eq_ok hr
  rw [hf u v' r v h₂, h w u v' h₁]

theorem reads_load (p n : ℕ) : Reads (load p n) := by
  intro w u v h
  unfold load at h
  split at h
  · cases h
    rfl
  · cases h

theorem Reads.ite {p : Prop} [Decidable p] (h : Reads x) (h' : Reads y) :
    Reads (if p then x else y) := by
  by_cases hp : p
  · rw [if_pos hp]
    exact h
  · rw [if_neg hp]
    exact h'

end Reads

/-! ### The functions -/

section Functions

variable {build : Build} {os : Os}

theorem refines_mem_slab_create (size alignment : Int32) :
    Refines (mem_slab_create build os size alignment)
      (SlabAllocator.mem_slab_create os size alignment) :=
  .skip (.assert (reads_pure _)) fun _ => .skip (.assert (reads_pure _)) fun _ => refines_plain

end Functions



/-! ## A call that passes its assertions -/

/-- If `x` answers `r` in `w`, then so does `d`. -/
def Passes {α : Type} (d : Checked α) (x : M α) (w : World) (r : α × World) : Prop :=
  x w = .ok r → d w = .ok r

section Passes

variable {α β : Type} {build : Build} {a : Assertion} {d d' : Checked α} {k : α → Checked β}
  {x x' : M α} {y : M β} {f : α → M β} {c : M Bool} {w : World} {r : α × World} {r' : β × World}

/-- What `x` answers is known. -/
theorem Passes.of_eq {s : α × World} (hx : x w = .ok s) (h : Passes d x w s) : Passes d x w r := by
  intro hr
  rw [hx, Except.ok.injEq] at hr
  rw [← hr]
  exact h hx

theorem passes_plain : Passes (plain x) x w r := fun h => plain_ok h

theorem passes_pure (u : α) : Passes (pure u) (pure u) w r := fun h => by
  cases h
  rfl

/-- One call after another. What the first answered is known in the rest. -/
theorem Passes.bind (h : ∀ s, Passes d x w s)
    (hk : ∀ u v, x w = .ok (u, v) → Passes (k u) (f u) v r') : Passes (d >>= k) (x >>= f) w r' := by
  intro hr
  obtain ⟨u, v, h₁, h₂⟩ := SlabAllocator.bind_eq_ok hr
  rw [bind_ok (h _ h₁)]
  exact hk u v h₁ h₂

/-- An assertion in front of the rest of a call, which may be used to show it true. -/
theorem Passes.assert {k : Unit → Checked β} (hc : y w = .ok r' → c w = .ok (true, w))
    (hk : Passes (k ()) y w r') : Passes (assert build a c >>= k) y w r' := by
  intro hr
  rw [bind_ok (assert_ok (hc hr))]
  exact hk hr

/-- Something else that only reads in front of the rest of a call. -/
theorem Passes.skip {u : α} (hd : d w = .ok (u, w)) (hk : Passes (k u) y w r') :
    Passes (d >>= k) y w r' := by
  intro hr
  rw [bind_ok hd]
  exact hk hr

/-- Something that only reads behind a call. -/
theorem Passes.after {k : Unit → Checked Unit} {d : Checked Unit} {x : M Unit}
    {r : Unit × World} (h : Passes d x w r) (hk : x w = .ok r → k () r.2 = .ok r) :
    Passes (d >>= k) x w r := by
  intro hr
  rw [bind_ok (u := r.1) (v := r.2) (h hr)]
  exact hk hr

theorem Passes.ite {p : Prop} [Decidable p] (h : p → Passes d x w r)
    (h' : ¬ p → Passes d' x' w r) : Passes (if p then d else d') (if p then x else x') w r := by
  by_cases hp : p
  · rw [if_pos hp, if_pos hp]
    exact h hp
  · rw [if_neg hp, if_neg hp]
    exact h' hp

end Passes

end Checked

end SlabAllocator
