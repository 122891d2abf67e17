/-
`srealloc` keeps the contents: the first bytes of the old buffer are the first bytes
of the new one, and nothing else the program holds changes.

What is allocated is read off the memory here, not off the program's list: a slot
that its entry marks busy in a slab of some pool, or a chunk. The payload is kept
apart from the entries, as in every statement about contents; in the program itself
the copy into a first slot is the defect of `Ownership`.
-/
import SlabAllocator.SmallocRuns

set_option autoImplicit false

open ByteMem Runs

namespace SlabAllocator

/-! ## What is allocated -/

/-- There is a block of `m` bytes at `p`: a busy slot of a slab of some pool, or a chunk. -/
def World.Block (w : World) (pools : List slab_pool) (p m : ℕ) : Prop :=
  (∃ pool ∈ pools, ∃ s ∈ w.slabs pool, ∃ i < w.field s .max_refs,
    w.buf (s + sizeof_mem_slab) i .is_free = SLOT_BUSY
      ∧ p = w.field s .allocable_buffer + w.field s .size * i ∧ m = w.field s .size)
  ∨ (p, m) ∈ w.heap

/-- There is a block at `p`. -/
def World.Allocated (w : World) (pools : List slab_pool) (p : ℕ) : Prop :=
  ∃ m, w.Block pools p m

section Blocks

variable {w₀ : World} {σ : ApiState} {vs : List PoolView} {b : Buffer} {p m : ℕ}

/-- The blocks are the objects the program holds, and the chunks. -/
theorem AllocInv.block_iff (h : AllocInv w₀ σ vs) : σ.world.Block σ.pools p m
    ↔ (∃ b ∈ σ.live, b.origin = .slab m ∧ b.ptr = p) ∨ (p, m) ∈ σ.world.heap := by
  refine or_congr ⟨?_, ?_⟩ Iff.rfl
  · rintro ⟨pool, hpool, s, hs, i, hi, hflag, hp, hm⟩
    rw [hp, hm]
    rw [h.pools] at hpool
    obtain ⟨v, hv, rfl⟩ := List.mem_map.mp hpool
    rw [(h.views.reps v hv).slabs_eq] at hs
    obtain ⟨x, hx, rfl⟩ := List.mem_map.mp hs
    have hr := (h.views.reps v hv).list.slabs x hx
    rw [hr.max_refs] at hi
    -- a slot that is not busy reads as free
    have hbusy : i ∈ x.slots.busy := by
      refine (List.mem_append.mp (Slots.mem_order.mpr hi)).resolve_left fun hf => ?_
      have hfree : σ.world.buf (x.base + 64) i .is_free = SLOT_BUSY := hflag
      rw [hr.free i hf] at hfree
      exact absurd hfree (by decide)
    have hp : v.shape.slot x.base i ∈ vs.flatMap PoolView.busy := List.mem_flatMap.mpr
      ⟨v, hv, List.mem_flatMap.mpr ⟨x, hx, List.mem_map_of_mem hbusy⟩⟩
    obtain ⟨b, hb, hptr⟩ := h.live.busy _ hp
    refine ⟨b, hb, ?_, by rw [hptr, hr.allocable_buffer, hr.size]; rfl⟩
    rcases ho : b.origin with _ | c
    · exact absurd hptr (h.ne_object (h.live.system b hb ho) hp)
    · obtain ⟨-, hsize⟩ := h.header hb ho
      rw [hptr, hr.page_of_slot hi] at hsize
      rw [← hsize]
  · rintro ⟨b, hb, ho, rfl⟩
    obtain ⟨-, v, hv, rfl, hp⟩ := h.live.slab b hb m ho
    obtain ⟨l, x, r, i, hxs, hi, hptr, hx, hr, -⟩ := h.views.object hv hp
    refine ⟨v.pool, h.pools ▸ List.mem_map_of_mem hv, x.base, ?_, i, ?_, hr.busy i hi, ?_,
      hr.size.symm⟩
    · rw [(h.views.reps v hv).slabs_eq]
      exact hx
    · rw [hr.max_refs]
      exact Slots.busy_lt hi
    · rw [hptr, hr.allocable_buffer, hr.size]
      rfl

/-- What the program holds is a block of its usable size. -/
theorem AllocInv.block (h : AllocInv w₀ σ vs) (hb : b ∈ σ.live) :
    σ.world.Block σ.pools b.ptr b.usable := by
  rw [h.block_iff, Buffer.usable]
  rcases ho : b.origin with _ | c
  · exact .inr (h.live.system b hb ho)
  · exact .inl ⟨b, hb, ho, rfl⟩

end Blocks

/-! ## What `srealloc` keeps -/

/-- The size of the old buffer: of its slot, as the header of the slab says, or the size it was
asked for with. -/
def ApiState.oldSize (σ : ApiState) (b : Buffer) : ℕ :=
  match b.origin with
  | .system => b.size
  | .slab _ => σ.world.field (get_page_pointer b.ptr) .size

/-- What `srealloc` of `b` to `n` bytes owes to the program when it answers `q`. -/
structure ApiState.Preserved (σ : ApiState) (b : Buffer) (n : ℕ) (pools' : List slab_pool) (q : ℕ)
    (w' : World) : Prop where
  block : ∃ m, n ≤ m ∧ w'.Block pools' q m
  separate : ∀ d ∈ σ.live.erase b, Separate (q, n) (d.ptr, d.usable)
  contents : ∀ k < min (σ.oldSize b) n,
    w'.byte (2 ^ 64) (q + k) = σ.world.byte (2 ^ 64) (b.ptr + k)
  copies : ∃ cs, w'.calls = cs ++ σ.world.calls ∧ ∀ d s k, Call.memcpy d s k ∈ cs →
    (b.ptr ≤ s ∧ s + k ≤ b.ptr + σ.oldSize b) ∧ q ≤ d ∧ d + k ≤ q + n
  moved : q ≠ b.ptr → ¬ w'.Allocated pools' b.ptr ∧ w'.Allocated pools' q
  stayed : q = b.ptr → ∀ p, w'.Allocated pools' p ↔ σ.world.Allocated σ.pools p
  others : ∀ d ∈ σ.live.erase b, w'.Block pools' d.ptr d.usable
    ∧ ∀ k < d.usable, w'.byte (2 ^ 64) (d.ptr + k) = σ.world.byte (2 ^ 64) (d.ptr + k)

section Preserved

variable {w₀ w' : World} {σ : ApiState} {vs : List PoolView} {b : Buffer} {os : Os} {n q : ℕ}
  {pools' : List slab_pool}

theorem AllocInv.oldSize_eq (h : AllocInv w₀ σ vs) (hb : b ∈ σ.live) :
    σ.oldSize b = b.usable := by
  rw [ApiState.oldSize, Buffer.usable]
  rcases ho : b.origin with _ | c
  · rfl
  · exact (h.header hb ho).2

/-- After the call the old pointer is allocated no more, unless it is the answer; the answer
is; and the rest is as it was. -/
theorem Resized.allocated_iff (h : AllocInv w₀ σ vs) (hb : b ∈ σ.live)
    (hr : Resized w₀ (2 ^ 64) σ os b n pools' q w') (p : ℕ) :
    w'.Allocated pools' p ↔ p = q ∨ p ≠ b.ptr ∧ σ.world.Allocated σ.pools p := by
  obtain ⟨vs', hinv⟩ := hr.inv
  constructor
  · rintro ⟨m, hm⟩
    rcases hinv.block_iff.mp hm with ⟨d, hd, ho, rfl⟩ | hc
    · rcases List.mem_cons.mp hd with rfl | hd
      · exact .inl rfl
      · have hne := h.live.ptr_ne hb hd
        exact .inr ⟨hne, _, h.block (List.mem_of_mem_erase hd)⟩
    · rcases (hr.chunks _).mp hc with ⟨-, he⟩ | ⟨hc, hne⟩
      · exact .inl (congrArg Prod.fst he)
      · exact .inr ⟨hne, m, .inr hc⟩
  · rintro (rfl | ⟨hne, m, hm⟩)
    · exact ⟨_, hinv.block (b := σ.resized b w' p n) List.mem_cons_self⟩
    · rcases h.block_iff.mp hm with ⟨d, hd, ho, rfl⟩ | hc
      · have hd' : d ∈ σ.live.erase b := (List.mem_erase_of_ne fun he =>
          hne (congrArg Buffer.ptr he)).mpr hd
        exact ⟨_, hinv.block (List.mem_cons_of_mem _ hd')⟩
      · exact ⟨m, .inr ((hr.chunks (p, m)).mpr (.inr ⟨hc, hne⟩))⟩

theorem Resized.preserved (h : AllocInv w₀ σ vs) (hb : b ∈ σ.live)
    (hr : Resized w₀ (2 ^ 64) σ os b n pools' q w') : σ.Preserved b n pools' q w' := by
  obtain ⟨vs', hinv⟩ := hr.inv
  have hsize := h.oldSize_eq hb
  have hlive := hr.allocated_iff h hb
  have hold : σ.world.Allocated σ.pools b.ptr := ⟨_, h.block hb⟩
  refine ⟨⟨_, hr.usable, hinv.block (b := σ.resized b w' q n) List.mem_cons_self⟩,
    fun d hd => ?_, ?_, ?_, fun hne => ?_, fun he p => ?_, fun d hd => ⟨?_, hr.others rfl d hd⟩⟩
  · -- the new buffer is at least as long as it was asked for
    have hne : σ.resized b w' q n ≠ d := by
      rintro rfl
      have hnd := hinv.live.nodup
      rw [List.map_cons, List.nodup_cons] at hnd
      exact hnd.1 (List.mem_map_of_mem hd)
    have hsep : q + (σ.resized b w' q n).usable ≤ d.ptr ∨ d.ptr + d.usable ≤ q :=
      hinv.separate List.mem_cons_self (List.mem_cons_of_mem _ hd) hne
    have hus := hr.usable
    unfold Separate
    simp only
    omega
  · rw [hsize]
    exact hr.contents rfl
  · rw [hsize]
    rcases hr.fits with hfit | ⟨cs, hc, hn⟩
    · obtain ⟨cs, hc, hcp⟩ := hr.copies
      refine ⟨cs, hc, fun d s k hm => ?_⟩
      obtain ⟨rfl, rfl, rfl⟩ := hcp _ hm d s k rfl
      omega
    · exact ⟨cs, hc, fun d s k hm => absurd rfl (hn _ hm d s k)⟩
  · rw [hlive, hlive]
    exact ⟨fun hp => hp.elim (fun he => hne he.symm) fun hp => hp.1 rfl, .inl rfl⟩
  · rw [hlive, he]
    refine ⟨?_, fun hp => ?_⟩
    · rintro (rfl | ⟨-, hp⟩)
      · exact hold
      · exact hp
    · by_cases hpb : p = b.ptr
      · exact .inl hpb
      · exact .inr ⟨hpb, hp⟩
  · exact hinv.block (List.mem_cons_of_mem _ hd)

end Preserved

/-- **`srealloc`** in every reachable state, with the payload kept apart: the call succeeds,
the contents are kept, and nothing else changes. -/
theorem srealloc_preserves {w₀ : World} {t : List (ApiState × ApiEvent)} {σ : ApiState} {os : Os}
    {b : Buffer} {n : ℕ} (hrun : ApiRun (2 ^ 64) w₀ t σ) (hu : ∀ x ∈ t, x.1.Unfooled x.2)
    (hg : σ.Granted (.srealloc os b n)) (hub : σ.Unfooled (.srealloc os b n)) :
    ∃ pools' q w', srealloc os (2 ^ 64) σ.pools b.ptr n σ.world = .ok ((pools', q), w')
      ∧ σ.Preserved b n pools' q w' := by
  obtain ⟨vs, h⟩ := hrun.inv hu (.inl rfl)
  obtain ⟨pools', q, w', hrun', hr⟩ := h.srealloc hg hub (.inl rfl)
  exact ⟨pools', q, w', hrun', hr.preserved h hg.1⟩

/-- The law for an object of 8 bytes that grows to 16. -/
theorem srealloc_preserves_8 : ∃ t σ b pools' q w', ApiRun (2 ^ 64) World.empty t σ
    ∧ b ∈ σ.live ∧ σ.oldSize b = 8
    ∧ srealloc roomyOs (2 ^ 64) σ.pools b.ptr 16 σ.world = .ok ((pools', q), w')
    ∧ σ.Preserved b 16 pools' q w' := by
  obtain ⟨σ₀, σ, b, hrun, hlive, ho, hroomy, -⟩ :=
    exists_object (show cache_sizes = [] ++ 8 :: [16, 32, 64, 128, 256] from rfl) (by simp)
      (2 ^ 64)
  have hb : b ∈ σ.live := by simp [hlive]
  have hu : ∀ x ∈ [(σ₀, ApiEvent.smalloc roomyOs 8)], x.1.Unfooled x.2 := fun x hx => by
    rw [List.mem_singleton.mp hx]
    trivial
  obtain ⟨vs, h⟩ := hrun.inv hu (.inl rfl)
  obtain ⟨pools', q, w', hok, hpres⟩ := srealloc_preserves hrun hu
    (hroomy.granted_srealloc (n := 16) hb (by decide) (by decide)) (by simp [ApiState.Unfooled, ho])
  refine ⟨_, σ, b, pools', q, w', hrun, hb, ?_, hok, hpres⟩
  rw [h.oldSize_eq hb, Buffer.usable, ho]

end SlabAllocator
