/-
The allocator in use: the six pools, the system allocator behind them, and the
buffers the program holds.

`AllocInv` is the invariant of the whole. The pools are `Pools`, the chunks of
the system allocator overlap neither one another nor a mapped page, and each
buffer the program holds is an object of the pool it was taken from or a chunk;
conversely every object is held. Here the invariant is read, and it is shown to
survive what only adds or drops a chunk. `Keeps` is how the calls describe the
bytes they leave alone: whatever is mapped or in a chunk and is not a header or
an entry.
-/
import SlabAllocator.PoolSet
import Mathlib.Data.List.Pairwise

set_option autoImplicit false

open DoublyLinked

namespace SlabAllocator

/-! ## The program's buffers -/

/-- Where a buffer came from: the system allocator, or the pool of slots of `size` bytes. -/
inductive Origin
  | system
  | slab (size : ℕ)
  deriving DecidableEq, Repr

/-- A buffer the program holds: its address, the size it last asked for, and where the
buffer came from. -/
structure Buffer where
  ptr : ℕ
  size : ℕ
  origin : Origin
  deriving DecidableEq, Repr

/-- How many bytes of a buffer the program may use. -/
def Buffer.usable (b : Buffer) : ℕ :=
  match b.origin with
  | .system => b.size
  | .slab size => size

/-- The allocator in use. -/
structure ApiState where
  world : World
  pools : List slab_pool
  live : List Buffer

/-- Where `p` came from, after a call that answered it to a request of `n` bytes: the
system allocator if that owns it, and else the first pool with slots large enough. -/
def World.originOf (w : World) (pools : List slab_pool) (p n : ℕ) : Origin :=
  if (w.chunk p).isSome then .system
  else
    match pools.find? fun pool => n ≤ pool.allocation_size with
    | some pool => .slab pool.allocation_size
    | none => .system

/-! ## The invariant -/

/-- The ranges `c` and `d`, each a start and a length, do not overlap. -/
def Separate (c d : ℕ × ℕ) : Prop := c.1 + c.2 ≤ d.1 ∨ d.1 + d.2 ≤ c.1

instance : Std.Symm Separate := ⟨fun _ _ h => h.symm⟩

/-- The chunks of the system allocator are apart from one another and from the pages. -/
structure HeapOk (w : World) : Prop where
  chunk : ∀ c ∈ w.heap, SLAB_PAGE_SIZE ≤ c.1 ∧ 1 ≤ c.2 ∧ c.1 + c.2 < 2 ^ 64
  apart : w.heap.Pairwise Separate
  pages : ∀ q ∈ w.mapped, ∀ c ∈ w.heap, q + SLAB_PAGE_SIZE ≤ c.1 ∨ c.1 + c.2 ≤ q

/-- The buffers the program holds are chunks and objects, and all the objects there are. -/
structure Lives (w : World) (vs : List PoolView) (live : List Buffer) : Prop where
  nodup : (live.map Buffer.ptr).Nodup
  slab : ∀ b ∈ live, ∀ c, b.origin = .slab c →
    b.size ≤ c ∧ ∃ v ∈ vs, v.shape.size = c ∧ b.ptr ∈ v.busy
  system : ∀ b ∈ live, b.origin = .system → (b.ptr, b.size) ∈ w.heap
  busy : ∀ p ∈ vs.flatMap PoolView.busy, ∃ b ∈ live, b.ptr = p

/-- The invariant of the allocator in a process that was `w₀` before. -/
structure AllocInv (w₀ : World) (σ : ApiState) (vs : List PoolView) : Prop where
  pools : σ.pools = vs.map PoolView.pool
  views : Pools σ.world w₀.mapped vs
  heap : HeapOk σ.world
  live : Lives σ.world vs σ.live

/-! ## The objects of several pools -/

section Objects

variable {w : World} {foreign : List ℕ} {vs : List PoolView} {v : PoolView} {p : ℕ}

/-- An object of a pool: its slab, its slot, and what is known of them. -/
theorem Pools.object (h : Pools w foreign vs) (hv : v ∈ vs) (hp : p ∈ v.busy) :
    ∃ m x k i, v.slabs = m ++ x :: k ∧ i ∈ x.slots.busy ∧ p = v.shape.slot x.base i
      ∧ x.base ∈ v.bases ∧ Rep w v.shape x.base x.slots ∧ get_page_pointer p = x.base := by
  obtain ⟨m, x, k, i, hxs, hi, rfl⟩ := mem_busyPtrs hp
  have hx : x ∈ v.slabs := by
    rw [hxs]
    simp
  have hr := (h.reps v hv).list.slabs x hx
  exact ⟨m, x, k, i, hxs, hi, rfl, List.mem_map_of_mem hx, hr, hr.page_of_slot (Slots.busy_lt hi)⟩

/-- A shape is its size. -/
theorem Shape.eq_of_size {g g' : Shape} (h : g.size = g'.size) : g = g' := by
  obtain ⟨s, k, hk, hp⟩ := g
  obtain ⟨s', k', hk', hp'⟩ := g'
  simp only at h
  subst h
  subst hk
  subst hk'
  rfl

/-- Behind the entries of its slab an address is off the books of every pool. -/
theorem Pools.off_page (h : Pools w foreign vs) (hv : v ∈ vs) {b a : ℕ} (hb : b ∈ v.bases)
    (h1 : b + 64 + 5 * v.shape.cap ≤ a) (h2 : a < b + 4096) : PoolView.Off vs a := by
  obtain ⟨x, hx, rfl⟩ := List.mem_map.mp hb
  have hr := (h.reps v hv).list.slabs x hx
  intro u hu t ht
  obtain ⟨y, hy, rfl⟩ := List.mem_map.mp ht
  have hr' := (h.reps u hu).list.slabs y hy
  have hcap := u.shape.cap_le
  rcases eq_or_ne y.base x.base with he | hne
  · rw [he] at hr' ⊢
    have hshape : u.shape.cap = v.shape.cap :=
      congrArg Shape.cap (Shape.eq_of_size (hr'.size.symm.trans hr.size))
    omega
  · have h3 := hr.page.2
    have h4 := hr'.page.2
    omega

/-- Objects have different addresses, also across pools. -/
theorem Pools.nodup_busy (h : Pools w foreign vs) : (vs.flatMap PoolView.busy).Nodup := by
  refine List.nodup_flatMap.mpr ⟨fun v hv => (h.reps v hv).list.nodup_busyPtrs, ?_⟩
  refine List.Pairwise.imp_of_mem ?_ (List.nodup_flatMap.mp h.apart).2
  intro u v hu hv hd p hpu hpv
  obtain ⟨-, x, -, i, -, -, -, hx, -, hpx⟩ := h.object hu hpu
  obtain ⟨-, y, -, j, -, -, -, hy, -, hpy⟩ := h.object hv hpv
  exact hd hx ((hpx.symm.trans hpy) ▸ hy)

end Objects

/-! ## Which bytes a call keeps -/

/-- From `w` to `w'`, the mapped bytes and those of the chunks `cs` stay as they were,
headers and entries apart. -/
def Keeps (cs : List (ℕ × ℕ)) (vs : List PoolView) (w w' : World) : Prop :=
  ∀ a, w.Owned cs (a % 2 ^ 64) → PoolView.Off vs a → w'.mem a = w.mem a

/-- From `w` to `w'` no `memcpy` was called. -/
def NoCopy (w w' : World) : Prop :=
  ∃ cs, w'.calls = cs ++ w.calls ∧ ∀ c ∈ cs, ∀ d s n, c ≠ .memcpy d s n

theorem NoCopy.refl {w w' : World} (h : w'.calls = w.calls) : NoCopy w w' :=
  ⟨[], h, by simp⟩

theorem NoCopy.one {w w' : World} {c : Call} (h : w'.calls = c :: w.calls)
    (hc : ∀ d s n, c ≠ .memcpy d s n) : NoCopy w w' :=
  ⟨[c], h, fun _ hm => List.mem_singleton.mp hm ▸ hc⟩

/-! ## Reading the invariant -/

section Reading

variable {w₀ : World} {σ : ApiState} {vs : List PoolView} {b : Buffer} {n a : ℕ}

theorem AllocInv.allocation_size (h : AllocInv w₀ σ vs) {v : PoolView} (hv : v ∈ vs) :
    v.pool.allocation_size = v.shape.size := (h.views.reps v hv).allocation_size

/-- The choice of `smalloc`: no pool, or the first with slots large enough. -/
theorem AllocInv.find (h : AllocInv w₀ σ vs) (n : ℕ) :
    (σ.pools.find? (fun pool => n ≤ pool.allocation_size) = none ∧ ∀ v ∈ vs, v.shape.size < n)
    ∨ ∃ l v r, vs = l ++ v :: r ∧ (∀ u ∈ l, u.shape.size < n) ∧ n ≤ v.shape.size
      ∧ σ.pools.find? (fun pool => n ≤ pool.allocation_size) = some v.pool := by
  rcases hf : σ.pools.find? fun pool => n ≤ pool.allocation_size with _ | pool
  · left
    refine ⟨hf, fun v hv => ?_⟩
    rw [h.pools] at hf
    have := List.find?_eq_none.mp hf v.pool (List.mem_map_of_mem hv)
    rw [h.allocation_size hv] at this
    simpa using this
  · right
    obtain ⟨hn, as, bs, he, hall⟩ := List.find?_eq_some_iff_append.mp hf
    rw [h.pools] at he
    obtain ⟨l, k, hvs, rfl, hk⟩ := List.map_eq_append_iff.mp he
    obtain ⟨v, r, rfl, rfl, rfl⟩ := List.map_eq_cons_iff.mp hk
    have hv : v ∈ vs := by simp [hvs]
    refine ⟨l, v, r, hvs, fun u hu => ?_, ?_, hf⟩
    · have hum : u ∈ vs := by simp [hvs, hu]
      have := hall u.pool (List.mem_map_of_mem hu)
      rw [h.allocation_size hum] at this
      simpa using this
    · rw [h.allocation_size hv] at hn
      simpa using hn

/-- The bytes of a buffer: in a slot of a slab, or a chunk. -/
theorem AllocInv.region (h : AllocInv w₀ σ vs) (hb : b ∈ σ.live) :
    (∃ c v s, b.origin = .slab c ∧ v ∈ vs ∧ s ∈ v.bases ∧ v.shape.size = c ∧ b.usable = c
      ∧ s + 65 ≤ b.ptr ∧ b.ptr + c ≤ s + 4096)
    ∨ b.origin = .system ∧ (b.ptr, b.usable) ∈ σ.world.heap := by
  rcases ho : b.origin with _ | c
  · exact .inr ⟨rfl, by rw [Buffer.usable, ho]; exact h.live.system b hb ho⟩
  · left
    obtain ⟨-, v, hv, hc, hp⟩ := h.live.slab b hb c ho
    obtain ⟨m, x, k, i, -, hi, hpi, hx, -, -⟩ := h.views.object hv hp
    refine ⟨c, v, x.base, rfl, hv, hx, hc, by rw [Buffer.usable, ho], ?_, ?_⟩
    · rw [hpi]
      exact v.shape.slot_ge
    · rw [hpi, ← hc]
      exact v.shape.slot_in_page (Slots.busy_lt hi)

/-- A buffer lies in the address space, above the first page. -/
theorem AllocInv.bounds (h : AllocInv w₀ σ vs) (hb : b ∈ σ.live) :
    4096 ≤ b.ptr ∧ b.ptr + b.usable ≤ 2 ^ 64 ∧ 1 ≤ b.usable := by
  rcases h.region hb with ⟨c, v, s, -, hv, hs, hc, hu, h1, h2⟩ | ⟨-, hm⟩
  · have hs' := h.views.base hv hs
    have := v.shape.size_pos
    omega
  · have := h.heap.chunk _ hm
    unfold SLAB_PAGE_SIZE at this
    omega

/-- The bytes of a buffer belong to somebody. -/
theorem AllocInv.owned (h : AllocInv w₀ σ vs) (hb : b ∈ σ.live) (h1 : b.ptr ≤ a)
    (h2 : a < b.ptr + b.usable) : σ.world.Owned σ.world.heap a := by
  rcases h.region hb with ⟨c, v, s, -, hv, hs, hc, hu, h3, h4⟩ | ⟨-, hm⟩
  · obtain ⟨hal, -, -, hsm⟩ := h.views.base hv hs
    refine .inl ?_
    rw [pageOf_eq hal (by omega) (by omega)]
    exact hsm
  · exact .inr ⟨_, hm, h1, h2⟩

/-- What is owned is accessible. -/
theorem World.Owned.accessible {w : World} (h : w.Owned w.heap a) : w.Accessible a := by
  rcases h with h | ⟨c, hc, h1, h2⟩
  · exact .inl h
  · refine .inr ⟨c, hc, ?_, ?_⟩
    · unfold pageOf SLAB_PAGE_SIZE
      omega
    · unfold pageOf SLAB_PAGE_SIZE
      omega

/-- The page of a byte that is owned is accessible as a whole. -/
theorem World.Accessible.of_page {w : World} {a' : ℕ} (h : w.Accessible a)
    (hp : pageOf a' = pageOf a) : w.Accessible a' := by
  unfold World.Accessible touches at *
  rwa [hp]

theorem World.firstBad_owned {w : World} (h : ∀ x, a ≤ x → x < a + n → w.Owned w.heap x) :
    w.firstBad a n = none := firstBad_eq_none fun x h1 h2 => (h x h1 h2).accessible

/-- Addresses beyond the address space are off the books. -/
theorem Pools.off_high {w : World} {foreign : List ℕ} (h : Pools w foreign vs)
    (ha : 2 ^ 64 ≤ a) : PoolView.Off vs a := by
  intro v hv s hs
  have hb := h.base hv hs
  have := v.shape.cap_le
  omega

/-- Chunks are off the books. -/
theorem AllocInv.off_chunk (h : AllocInv w₀ σ vs) {c : ℕ × ℕ} (hc : c ∈ σ.world.heap)
    (h1 : c.1 ≤ a) (h2 : a < c.1 + c.2) : PoolView.Off vs a := by
  intro v hv s hs
  have hb := h.views.base hv hs
  have hp := h.heap.pages s hb.2.2.2 c hc
  have := v.shape.cap_le
  unfold SLAB_PAGE_SIZE at hp
  omega

/-- An object's slab and slot. -/
theorem AllocInv.slot (h : AllocInv w₀ σ vs) (hb : b ∈ σ.live) {c : ℕ} (ho : b.origin = .slab c) :
    ∃ (g : Shape) (s i : ℕ) (slots : Slots g.cap), Rep σ.world g s slots ∧ i ∈ slots.busy
      ∧ b.ptr = g.slot s i ∧ g.size = c ∧ get_page_pointer b.ptr = s := by
  obtain ⟨-, v, hv, hc, hp⟩ := h.live.slab b hb c ho
  obtain ⟨m, x, k, i, -, hi, hpi, -, hr, hpage⟩ := h.views.object hv hp
  exact ⟨v.shape, x.base, i, x.slots, hr, hi, hpi, hc, hpage⟩

/-- **Two buffers** share no byte. -/
theorem AllocInv.separate (h : AllocInv w₀ σ vs) (hb : b ∈ σ.live) {d : Buffer} (hd : d ∈ σ.live)
    (hne : b ≠ d) : Separate (b.ptr, b.usable) (d.ptr, d.usable) := by
  have hptr : b.ptr ≠ d.ptr := fun he =>
    hne (List.inj_on_of_nodup_map h.live.nodup hb hd he)
  -- an object and a chunk
  have hmixed : ∀ x ∈ σ.live, ∀ y ∈ σ.live, ∀ c, x.origin = .slab c → y.origin = .system →
      Separate (x.ptr, x.usable) (y.ptr, y.usable) := by
    intro x hx y hy c hxo hyo
    obtain ⟨c₁, v, s, -, hv, hs, -, hu, h1, h2⟩ := (h.region hx).resolve_right fun hr => by
      rw [hxo] at hr
      cases hr.1
    obtain ⟨-, hym⟩ := (h.region hy).resolve_left fun ⟨_, _, _, hr, _⟩ => by
      rw [hyo] at hr
      cases hr
    have := h.heap.pages s (h.views.base hv hs).2.2.2 _ hym
    unfold SLAB_PAGE_SIZE at this
    unfold Separate
    simp only at this ⊢
    omega
  rcases hbo : b.origin with _ | c <;> rcases hdo : d.origin with _ | c'
  · have hbm := h.live.system b hb hbo
    have hdm := h.live.system d hd hdo
    rw [Buffer.usable, hbo, Buffer.usable, hdo]
    exact h.heap.apart.forall hbm hdm fun he => hptr (Prod.mk.inj he).1
  · exact (hmixed d hd b hb c' hdo hbo).symm
  · exact hmixed b hb d hd c hbo hdo
  · obtain ⟨g, s, i, slots, hr, hi, hbp, hc, -⟩ := h.slot hb hbo
    obtain ⟨g', s', i', slots', hr', hi', hdp, hc', -⟩ := h.slot hd hdo
    rw [Buffer.usable, hbo, Buffer.usable, hdo]
    unfold Separate
    simp only [hbp, hdp, ← hc, ← hc']
    rcases eq_or_ne s s' with rfl | hs
    · -- one slab, so one shape, and two slots of it
      obtain rfl := Shape.eq_of_size (hr.size.symm.trans hr'.size)
      refine g.slot_disjoint fun hij => hptr ?_
      rw [hbp, hdp, hij]
    · have h1 := hr.page.2
      have h2 := hr'.page.2
      have h3 := g.slot_ge (b := s) (i := i)
      have h4 := g.slot_in_page (b := s) (Slots.busy_lt hi)
      have h5 := g'.slot_ge (b := s') (i := i')
      have h6 := g'.slot_in_page (b := s') (Slots.busy_lt hi')
      omega

/-- The invariant survives what is written off the books. -/
theorem AllocInv.congr (h : AllocInv w₀ σ vs) {w' : World} (hm : w'.mapped = σ.world.mapped)
    (hh : w'.heap = σ.world.heap) (hmem : ∀ a, ¬ PoolView.Off vs a → w'.mem a = σ.world.mem a) :
    AllocInv w₀ ⟨w', σ.pools, σ.live⟩ vs := by
  refine ⟨h.pools, h.views.congr hm fun v hv s hs a h1 h2 => hmem a fun hoff => ?_,
    ⟨hh ▸ h.heap.chunk, hh ▸ h.heap.apart, by rw [hm, hh]; exact h.heap.pages⟩,
    ⟨h.live.nodup, h.live.slab, hh ▸ h.live.system, h.live.busy⟩⟩
  have := hoff v hv s hs
  omega

end Reading

/-! ## Chunks -/

/-- A pointer that no chunk starts at is not the system allocator's. -/
theorem World.chunk_eq_none {w : World} {p : ℕ} : w.chunk p = none ↔ ∀ c ∈ w.heap, c.1 ≠ p := by
  unfold World.chunk
  rw [List.find?_eq_none]
  simp

/-- The chunk a pointer names. -/
theorem HeapOk.chunk_eq {w : World} (h : HeapOk w) {p n : ℕ} (hm : (p, n) ∈ w.heap) :
    w.chunk p = some (p, n) := by
  rcases hc : w.chunk p with _ | c
  · exact absurd rfl (World.chunk_eq_none.mp hc _ hm)
  · have hcm := List.mem_of_find?_eq_some hc
    have hcp : c.1 = p := by simpa using List.find?_some hc
    by_contra hne
    have hap : Separate c (p, n) := h.apart.forall hcm hm fun he => hne (congrArg some he)
    have h1 := h.chunk c hcm
    have h2 := h.chunk _ hm
    unfold Separate at hap
    omega

/-! ## Chunks come and go -/

/-- `w'` differs from `w` off the pages of the pools and in its chunks only. -/
structure HeapCall (w w' : World) (chunks : List (ℕ × ℕ)) : Prop where
  mapped : w'.mapped = w.mapped
  heap : w'.heap = chunks
  mem : ∀ a, a < 2 ^ 64 → pageOf a ∈ w.mapped → w'.mem a = w.mem a

theorem settle_owned {w : World} {os : Os} {cs : List (ℕ × ℕ)} {a : ℕ}
    (h : w.Owned cs (a % 2 ^ 64)) : w.settle os cs a = w.mem a := if_pos h

theorem settle_page {w : World} {os : Os} {cs : List (ℕ × ℕ)} {a : ℕ} (h : a < 2 ^ 64)
    (hp : pageOf a ∈ w.mapped) : w.settle os cs a = w.mem a :=
  settle_owned (.inl (by rwa [Nat.mod_eq_of_lt h]))

section Chunks

variable {w₀ w' : World} {σ : ApiState} {vs : List PoolView} {b c : Buffer} {q n : ℕ}

theorem HeapCall.pools {foreign : List ℕ} {w : World} {chunks : List (ℕ × ℕ)}
    (h : Pools w foreign vs) (hw : HeapCall w w' chunks) : Pools w' foreign vs := by
  refine h.congr hw.mapped fun v hv s hs a h1 h2 => ?_
  obtain ⟨hal, -, h64, hm⟩ := h.base hv hs
  have := v.shape.cap_le
  exact hw.mem a (by omega) (by rw [pageOf_eq hal h1 (by omega)]; exact hm)

/-- The other buffers have other addresses. -/
theorem Lives.ptr_ne {w : World} {live : List Buffer} (h : Lives w vs live) (hb : b ∈ live)
    (hc : c ∈ live.erase b) : c.ptr ≠ b.ptr := by
  intro he
  have hnd := ((List.perm_cons_erase hb).map Buffer.ptr).nodup_iff.mp h.nodup
  rw [List.map_cons, List.nodup_cons] at hnd
  exact hnd.1 (he ▸ List.mem_map_of_mem hc)

/-- An object the program holds is an object of a pool. -/
theorem Lives.busy_of_slab {w : World} {live : List Buffer} (h : Lives w vs live) (hb : b ∈ live)
    {s : ℕ} (ho : b.origin = .slab s) : b.ptr ∈ vs.flatMap PoolView.busy := by
  obtain ⟨-, v, hv, -, hp⟩ := h.slab b hb s ho
  exact List.mem_flatMap.mpr ⟨v, hv, hp⟩

/-- No object of a pool is where a chunk is. -/
theorem AllocInv.ne_object (h : AllocInv w₀ σ vs) {d : ℕ × ℕ} (hd : d ∈ σ.world.heap) {p : ℕ}
    (hp : p ∈ vs.flatMap PoolView.busy) : d.1 ≠ p := by
  obtain ⟨v, hv, hp⟩ := List.mem_flatMap.mp hp
  obtain ⟨m, x, k, i, -, hi, rfl, hx, hr, -⟩ := h.views.object hv hp
  have h1 := h.heap.pages x.base hr.page.1 d hd
  have h2 := h.heap.chunk d hd
  have h3 := v.shape.slot_ge (b := x.base) (i := i)
  have h4 := v.shape.slot_in_page (b := x.base) (Slots.busy_lt hi)
  have h5 := v.shape.size_pos
  unfold SLAB_PAGE_SIZE at h1
  omega

/-- A chunk is returned, and its buffer with it. -/
theorem AllocInv.drop_chunk (h : AllocInv w₀ σ vs) (hb : b ∈ σ.live) (ho : b.origin = .system)
    (hw : HeapCall σ.world w' (σ.world.heap.erase (b.ptr, b.size))) :
    AllocInv w₀ ⟨w', σ.pools, σ.live.erase b⟩ vs := by
  have hsub : ∀ d ∈ w'.heap, d ∈ σ.world.heap := fun d hd => by
    rw [hw.heap] at hd
    exact List.mem_of_mem_erase hd
  refine ⟨h.pools, hw.pools h.views, ⟨fun d hd => h.heap.chunk d (hsub d hd), ?_,
    fun p hp d hd => ?_⟩, ⟨?_, fun c hc => h.live.slab c (List.mem_of_mem_erase hc),
    fun c hc hco => ?_, fun p hp => ?_⟩⟩
  · rw [hw.heap]
    exact h.heap.apart.sublist List.erase_sublist
  · rw [hw.mapped] at hp
    exact h.heap.pages p hp d (hsub d hd)
  · exact h.live.nodup.sublist (List.erase_sublist.map _)
  · rw [hw.heap]
    refine (List.mem_erase_of_ne fun he => ?_).mpr (h.live.system c (List.mem_of_mem_erase hc) hco)
    exact h.live.ptr_ne hb hc (Prod.mk.inj he).1
  · obtain ⟨c, hc, he⟩ := h.live.busy p hp
    refine ⟨c, (List.mem_erase_of_ne ?_).mpr hc, he⟩
    rintro rfl
    exact h.ne_object (h.live.system c hb ho) hp he

/-- A new chunk, and a buffer on it. -/
theorem AllocInv.add_chunk (h : AllocInv w₀ σ vs) (hn : 1 ≤ n)
    (hf : MallocFresh σ.world σ.world.heap q n)
    (hw : HeapCall σ.world w' ((q, n) :: σ.world.heap)) :
    AllocInv w₀ ⟨w', σ.pools, ⟨q, n, .system⟩ :: σ.live⟩ vs := by
  have hheap : HeapOk w' := by
    refine ⟨fun d hd => ?_, ?_, fun p hp d hd => ?_⟩
    · rw [hw.heap] at hd
      rcases List.mem_cons.mp hd with rfl | hd
      · exact ⟨hf.low, hn, hf.high⟩
      · exact h.heap.chunk d hd
    · rw [hw.heap]
      exact List.pairwise_cons.mpr ⟨fun d hd => (hf.heap d hd).symm, h.heap.apart⟩
    · rw [hw.mapped] at hp
      rw [hw.heap] at hd
      rcases List.mem_cons.mp hd with rfl | hd
      · exact hf.mapped p hp
      · exact h.heap.pages p hp d hd
  have hmem : (q, n) ∈ w'.heap := by
    rw [hw.heap]
    exact List.mem_cons_self
  have hnew : q ∉ σ.live.map Buffer.ptr := by
    intro hq
    obtain ⟨c, hc, he⟩ := List.mem_map.mp hq
    have hbound := h.bounds hc
    rcases h.region hc with ⟨s, v, p, -, hv, hp, -, hu, h1, h2⟩ | ⟨-, hcm⟩
    · have := hf.mapped p (h.views.base hv hp).2.2.2
      unfold SLAB_PAGE_SIZE at this
      omega
    · have := hf.heap _ hcm
      simp only at this
      omega
  refine ⟨h.pools, hw.pools h.views, hheap, ⟨List.nodup_cons.mpr ⟨hnew, h.live.nodup⟩,
    fun c hc s hs => ?_, fun c hc ho => ?_, fun p hp => ?_⟩⟩
  · rcases List.mem_cons.mp hc with rfl | hc
    · cases hs
    · exact h.live.slab c hc s hs
  · rcases List.mem_cons.mp hc with rfl | hc
    · exact hmem
    · rw [hw.heap]
      exact List.mem_cons_of_mem _ (h.live.system c hc ho)
  · obtain ⟨c, hc, he⟩ := h.live.busy p hp
    exact ⟨c, List.mem_cons_of_mem _ hc, he⟩

end Chunks

end SlabAllocator
