/-
Where the objects of a slab are, modulo a power of two.

`mem_slab_create` takes an alignment and keeps it in the header. Nothing reads
it: the buffers start `num_buffers` bytes behind the entry array, and follow one
another without gaps. So an object is aligned by the sizes alone, or not at all.
For the six classes of `smalloc` it is not at all: none of them has an object at
a multiple of eight.
-/
import SlabAllocator.SizeClasses

set_option autoImplicit false

open Runs

namespace SlabAllocator

section Slab

variable {g : Shape} {slab A : ℕ} {w : World} {σ : SlabState} {t : List (SlabState × SlabEvent)}

/-- The objects of a page are aligned if the first one is and the size is. -/
theorem dvd_slot {i : ℕ} (hpage : A ∣ slab) (hfirst : A ∣ 64 + g.cap) (hsize : A ∣ g.size) :
    A ∣ g.slot slab i := by
  rw [Shape.slot, Nat.add_assoc slab]
  exact Nat.dvd_add (Nat.dvd_add hpage hfirst) (Nat.dvd_mul_right_of_dvd hsize i)

/-- The first two objects of a page are aligned only if the rest is. -/
theorem dvd_of_slots (hpage : A ∣ slab) (h₀ : A ∣ g.slot slab 0) (h₁ : A ∣ g.slot slab 1) :
    A ∣ 64 + g.cap ∧ A ∣ g.size := by
  rw [Shape.slot, Nat.mul_zero, Nat.add_zero, Nat.add_assoc] at h₀
  rw [Shape.slot, Nat.mul_one, Nat.add_assoc slab] at h₁
  exact ⟨(Nat.dvd_add_right hpage).mp h₀, (Nat.dvd_add_right h₀).mp h₁⟩

/-- A page that has just been prepared hands out its first two slots. -/
theorem exists_two_slots (h2 : 2 ≤ g.cap) (h : Rep w g slab (Slots.init g.cap)) :
    ∃ t σ, Run (SlabStep slab) ⟨w, []⟩ t σ ∧ g.slot slab 0 ∈ σ.live ∧ g.slot slab 1 ∈ σ.live := by
  obtain ⟨n, hn⟩ : ∃ n, g.cap = n + 2 := ⟨g.cap - 2, by omega⟩
  have hfree : (Slots.init g.cap).free = 0 :: 1 :: List.range' 2 n := by
    rw [Slots.init_free, hn, List.range_eq_range', List.range'_succ, List.range'_succ]
  obtain ⟨s₁, ha₁, hfree₁, -⟩ := Slots.alloc_cons hfree
  obtain ⟨w₁, hok₁, hrep₁, -⟩ := mem_slab_alloc_spec h h2 ha₁
  obtain ⟨s₂, ha₂, -, -⟩ := Slots.alloc_cons hfree₁
  obtain ⟨w₂, hok₂, -⟩ := mem_slab_alloc_spec hrep₁ h2 ha₂
  have hr := (Run.start.next (SlabStep.alloc (σ := ⟨w, []⟩) hok₁)).next
    (SlabStep.alloc (σ := ⟨w₁, _⟩) hok₂)
  rw [if_neg slot_ne_null, if_neg slot_ne_null] at hr
  exact ⟨_, _, hr, by simp, by simp⟩

end Slab

/-- **The alignment of a slab is not its `alignment`.** Prepare a page for any size and any
alignment. All pointers that the slab hands out, in whatever order it is used, are multiples of
`A` if and only if `A` divides both the size and the number of bytes before the first buffer,
whatever was asked for. -/
theorem alignment_has_no_effect {size alignment : Int32} {slab A : ℕ} {w₀ w₁ : World}
    (h2 : 2 ≤ num_buffers size) (hpage : w₀.Page slab) (hlow : slab ≠ NULL)
    (hhigh : slab + SLAB_PAGE_SIZE ≤ 2 ^ 64) (hA : A ∣ SLAB_PAGE_SIZE)
    (hprep : prepare_slab_header slab size alignment w₀ = .ok ((), w₁)) :
    (∀ t σ, Run (SlabStep slab) ⟨w₁, []⟩ t σ → ∀ p ∈ σ.live, A ∣ p)
      ↔ A ∣ size_t_of_int size.toInt ∧ A ∣ sizeof_mem_slab + num_buffers size := by
  have hn : 1 ≤ num_buffers size := Nat.le_of_succ_le h2
  have hal : slab % 4096 = 0 := hpage.2
  have hge : 4096 ≤ slab := by
    unfold NULL at hlow
    omega
  have hslab : A ∣ slab := hA.trans (Nat.dvd_of_mod_eq_zero hal)
  obtain ⟨w', hprep', hrep, -⟩ := prepare_slab_header_spec alignment hn hpage hge hhigh
  rw [hprep, Except.ok.injEq, Prod.mk.injEq] at hprep'
  obtain ⟨-, rfl⟩ := hprep'
  constructor
  · intro hall
    obtain ⟨t, σ, hrun, h₀, h₁⟩ := exists_two_slots (g := Shape.of size hn) h2 hrep
    obtain ⟨hfirst, hsize⟩ := dvd_of_slots hslab (hall t σ hrun _ h₀) (hall t σ hrun _ h₁)
    exact ⟨hsize, hfirst⟩
  · rintro ⟨hsize, hfirst⟩ t σ hrun p hp
    obtain ⟨s, -, hlive⟩ := hrun.always (P := SlabInv (Shape.of size hn) slab)
      ⟨_, hrep, List.Perm.refl _⟩ (fun _ _ _ hi hs => hi.step h2 hs)
    obtain ⟨i, -, rfl⟩ := List.mem_map.mp (hlive.mem_iff.mp hp)
    exact dvd_slot (g := Shape.of size hn) hslab hfirst hsize

/-- A slab of 80-byte objects with an alignment of 16. -/
theorem alignment_has_no_effect_80 : ∃ w₁, prepare_slab_header 4096 80 16
      ⟨fun _ => 0, [4096], [], []⟩ = .ok ((), w₁)
    ∧ ¬ ∀ t σ, Run (SlabStep 4096) ⟨w₁, []⟩ t σ → ∀ p ∈ σ.live, 16 ∣ p := by
  have h2 : 2 ≤ num_buffers 80 := by decide
  have hpage : World.Page ⟨fun _ => 0, [4096], [], []⟩ 4096 := ⟨by decide, by decide⟩
  obtain ⟨w₁, hprep, -⟩ := prepare_slab_header_spec 16 (Nat.le_of_succ_le h2) hpage
    (by decide) (by decide)
  refine ⟨w₁, hprep, fun hall => ?_⟩
  have hiff := alignment_has_no_effect (A := 16) h2 hpage (by decide) (by decide) (by decide) hprep
  exact absurd (hiff.mp hall) (by decide)

/-! ## The classes of the allocator -/

section Classes

variable {w₀ : World} {σ : ApiState} {vs : List PoolView} {v : PoolView} {shift : ℕ}
  {t : List (ApiState × ApiEvent)}

/-- The remainder of the objects of a class, modulo eight. -/
theorem slot_mod_eight {g : Shape} {b i : ℕ} (hb : b % 4096 = 0) (hs : g.size ∈ cache_sizes) :
    g.slot b i % 8 = (sizeof_mem_slab + num_buffers (int_of_size_t g.size)) % 8
      ∧ g.slot b i % 8 ≠ 0 := by
  have hclass : ∀ c ∈ cache_sizes, c % 8 = 0 ∧ num_buffers (int_of_size_t c) = 4032 / (5 * c)
      ∧ (64 + num_buffers (int_of_size_t c)) % 8 ≠ 0 := by decide
  obtain ⟨h8, hcap, hne⟩ := hclass g.size hs
  have hmul : g.size * i % 8 = 0 := by
    rw [Nat.mul_mod, h8, Nat.zero_mul, Nat.zero_mod]
  have hslot : g.slot b i = b + 64 + num_buffers (int_of_size_t g.size) + g.size * i := by
    rw [hcap, ← g.cap_eq]
    rfl
  unfold sizeof_mem_slab
  rw [hslot]
  omega

/-- A buffer that is a slot of a class is at the remainder of the class. -/
theorem AllocInv.mod_eight (h : AllocInv w₀ σ vs) (hs : ∀ v ∈ vs, v.shape.size ∈ cache_sizes)
    {b : Buffer} (hb : b ∈ σ.live) {c : ℕ} (ho : b.origin = .slab c) :
    b.ptr % 8 = (sizeof_mem_slab + num_buffers (int_of_size_t c)) % 8 ∧ b.ptr % 8 ≠ 0 := by
  obtain ⟨-, v, hv, rfl, hp⟩ := h.live.slab b hb c ho
  obtain ⟨-, x, -, i, -, -, hptr, -, hr, -⟩ := h.views.object hv hp
  rw [hptr]
  exact slot_mod_eight hr.page.2 (hs v hv)

/-- **No object is aligned.** In every state of every run of the allocator, a buffer that is a
slot of a class is not at a multiple of eight, but at one fixed remainder for each class; and
every request that a class serves will be answered so. -/
theorem objects_are_misaligned (hrun : ApiRun shift w₀ t σ) (hu : ∀ x ∈ t, x.1.Unfooled x.2)
    (hsep : shift = 2 ^ 64 ∨ shift = 0 ∧ ∀ x ∈ t, x.1.Apart x.2) :
    (∀ b ∈ σ.live, ∀ c, b.origin = .slab c →
        b.ptr % 8 = (sizeof_mem_slab + num_buffers (int_of_size_t c)) % 8 ∧ ¬ 8 ∣ b.ptr)
      ∧ ∀ os n pools p w, n ≤ 256 → MmapFresh σ.world os.mmap POOL_GROW_RATE →
          smalloc os σ.pools n σ.world = .ok ((pools, p), w) → ¬ 8 ∣ p := by
  obtain ⟨vs, hi⟩ := hrun.inv hu hsep
  have hsizes := hi.sizes hrun.classes
  have hs : ∀ v ∈ vs, v.shape.size ∈ cache_sizes := fun v hv =>
    hsizes ▸ List.mem_map_of_mem hv
  refine ⟨fun b hb c ho => ?_, fun os n pools p w hle hf hok h8 => ?_⟩
  · obtain ⟨hmod, hne⟩ := hi.mod_eight hs hb ho
    exact ⟨hmod, fun h8 => hne (Nat.mod_eq_zero_of_dvd h8)⟩
  · rcases hi.find n with ⟨-, hall⟩ | ⟨l, v, r, rfl, hl, hnv, hfind⟩
    · -- the largest class serves it
      obtain ⟨v, hv, h256⟩ := List.mem_map.mp (hsizes.symm ▸ (by decide : 256 ∈ cache_sizes))
      have hlt := hall v hv
      rw [h256] at hlt
      omega
    · obtain ⟨b, f, ys, pool', w', hrun', -, -, hi', -⟩ := hi.smalloc_slab hl hnv hfind hf
      rw [hrun'] at hok
      cases hok
      have hs' : ∀ u ∈ l ++ ⟨v.shape, pool', ys⟩ :: r, u.shape.size ∈ cache_sizes := by
        intro u hu
        rcases List.mem_append.mp hu with hu | hu
        · exact hs u (by simp [hu])
        rcases List.mem_cons.mp hu with rfl | hu
        · exact hs v (by simp)
        · exact hs u (by simp [hu])
      exact (hi'.mod_eight hs' List.mem_cons_self rfl).2 (Nat.mod_eq_zero_of_dvd h8)

/-- The theorem after one request of 64 bytes. -/
theorem objects_are_misaligned_64 : ∃ t σ, t ≠ [] ∧ ApiRun 0 World.empty t σ
    ∧ ∃ b ∈ σ.live, b.origin = .slab 64 ∧ b.ptr % 8 = 4 := by
  obtain ⟨σ₀, σ, b, hrun, hlive, ho, -⟩ :=
    @exists_object [8, 16, 32] [128, 256] 64 rfl (by decide) 0
  have hb : b ∈ σ.live := by
    rw [hlive]
    exact List.mem_singleton_self b
  obtain ⟨hall, -⟩ := objects_are_misaligned hrun
    (by intro x hx; rw [List.mem_singleton.mp hx]; trivial)
    (.inr ⟨rfl, by intro x hx; rw [List.mem_singleton.mp hx]; trivial⟩)
  exact ⟨_, σ, by simp, hrun, b, hb, ho, (hall b hb 64 ho).1⟩

end Classes

end SlabAllocator
