/-
What the buffers hold.

The allocator is a `BlockHeap`: its blocks are the buffers the program holds, and
what the program has written to them stays where it is, or moves along with
`srealloc`, until it is written again or the buffer is released. `Contents` is
the relation, and `Contents.step` its step theorem: the steps of a run are, one
by one, the steps of the heap that `ApiEvent.op` names, and nothing else.

In the machine that keeps the payload elsewhere this holds of every byte. In the
machine as it is, the first slots of a slab reach into the entries of its free
list, and what is written there is not safe; a byte past the entries is `Clear`,
and a run that writes no other keeps to the heap as well.
-/
import SlabAllocator.BlockHeap
import SlabAllocator.Dispatch

set_option autoImplicit false

open ByteMem Runs
open BlockHeap (Heap Op Holds)

namespace SlabAllocator

/-! ## The relation -/

/-- The bytes of a buffer that the program may use. -/
def Buffer.block (b : Buffer) : ℕ × ℕ := (b.ptr, b.usable)

/-- The byte at `a` of the buffer is past the entries of its slab, if it is in a slab; or the
payload is kept elsewhere. -/
def Buffer.Clear (shift : ℕ) (b : Buffer) (a : ℕ) : Prop :=
  shift = 2 ^ 64 ∨ ∀ c, b.origin = .slab c →
    get_page_pointer b.ptr + sizeof_mem_slab
      + sizeof_bufctl * ((SLAB_PAGE_SIZE - sizeof_mem_slab) / (sizeof_bufctl * c)) ≤ a

/-- The step of the heap that an event was which led to `σ'`: the buffer it answered is the
first of those the program holds. -/
def ApiEvent.op : ApiEvent → ApiState → Op UInt8
  | .smalloc _ _, σ' => .alloc ((σ'.live.map Buffer.block).headD (NULL, 0))
  | .srealloc _ b _, σ' => .resize b.block ((σ'.live.map Buffer.block).headD (NULL, 0))
  | .sfree _ b, _ => .free b.block
  | .write a x, _ => .write a x

/-- The heap `h` is what the program knows of its buffers. -/
structure Contents (shift : ℕ) (σ : ApiState) (h : Heap UInt8) : Prop where
  blocks : h.blocks = σ.live.map Buffer.block
  known : ∀ a x, h.known a = some x →
    ∃ b ∈ σ.live, Holds b.block a ∧ b.Clear shift a ∧ σ.world.byte shift a = x

/-- The buffers `ds` have in `w'` the clear bytes they have in `w`. -/
def KeepsBuffers (shift : ℕ) (ds : List Buffer) (w w' : World) : Prop :=
  ∀ d ∈ ds, ∀ a, Holds d.block a → d.Clear shift a → w'.byte shift a = w.byte shift a

/-! ## Clear bytes -/

section Clear

variable {w₀ w' : World} {σ : ApiState} {vs : List PoolView} {b d : Buffer} {a shift : ℕ}
  {cs : List (ℕ × ℕ)}

/-- A buffer of a pool, in its slab. -/
theorem AllocInv.clear_iff (h : AllocInv w₀ σ vs) (hb : b ∈ σ.live) {c : ℕ}
    (ho : b.origin = .slab c) : ∃ v ∈ vs, ∃ s ∈ v.bases, s + 65 ≤ b.ptr
      ∧ b.ptr + b.usable ≤ s + 4096 ∧ (b.Clear 0 a ↔ s + 64 + 5 * v.shape.cap ≤ a) := by
  obtain ⟨-, v, hv, hc, hp⟩ := h.live.slab b hb c ho
  obtain ⟨m, x, k, i, -, hi, hpi, hx, -, hpage⟩ := h.views.object hv hp
  have hlow := v.shape.slot_ge (b := x.base) (i := i)
  have hhigh := v.shape.slot_in_page (b := x.base) (Slots.busy_lt hi)
  have hcap : (SLAB_PAGE_SIZE - sizeof_mem_slab) / (sizeof_bufctl * c) = v.shape.cap := by
    rw [v.shape.cap_eq, hc]
    rfl
  have hbu : b.usable = c := by rw [Buffer.usable, ho]
  refine ⟨v, hv, x.base, hx, by omega, by omega, ?_⟩
  unfold Buffer.Clear
  rw [ho, hpage]
  unfold sizeof_mem_slab sizeof_bufctl
  constructor
  · rintro (h0 | hclear)
    · omega
    · have := hclear c rfl
      unfold sizeof_mem_slab sizeof_bufctl at hcap
      omega
  · intro hle
    refine .inr fun c' hc' => ?_
    cases hc'
    unfold sizeof_mem_slab sizeof_bufctl at hcap
    omega

/-- Clear bytes are off the books. -/
theorem AllocInv.off_of_clear (h : AllocInv w₀ σ vs) (hb : b ∈ σ.live) (ha : Holds b.block a)
    (hc : b.Clear shift a) (hs : shift = 2 ^ 64 ∨ shift = 0) : PoolView.Off vs (a + shift) := by
  obtain ⟨h1, h2⟩ : b.ptr ≤ a ∧ a < b.ptr + b.usable := ha
  rcases hs with rfl | rfl
  · exact h.views.off_high (Nat.le_add_left _ _)
  · rw [Nat.add_zero]
    rcases ho : b.origin with _ | c
    · have hm := h.live.system b hb ho
      rw [Buffer.usable, ho] at h2
      exact h.off_chunk hm h1 h2
    · obtain ⟨v, hv, s, hs, -, h4, hiff⟩ := h.clear_iff (a := a) hb ho
      exact h.views.off_page hv hs (hiff.mp hc) (by omega)

/-- A byte off the books is clear. -/
theorem AllocInv.clear_of_off (h : AllocInv w₀ σ vs) (hb : b ∈ σ.live) (ha : Holds b.block a)
    (hoff : PoolView.Off vs a) : b.Clear shift a := by
  have hclear : b.Clear 0 a := by
    rcases ho : b.origin with _ | c
    · exact .inr fun c hc => by rw [ho] at hc; cases hc
    · obtain ⟨v, hv, s, hs, h3, -, hiff⟩ := h.clear_iff (a := a) hb ho
      have h1 : b.ptr ≤ a := ha.1
      have := hoff v hv s hs
      exact hiff.mpr (by omega)
  exact .inr (hclear.resolve_left (by decide))

/-- What a call keeps of the memory it keeps of the clear bytes that somebody owns. -/
theorem Keeps.clear (h : AllocInv w₀ σ vs) (hkeep : Keeps cs vs σ.world w') (hb : b ∈ σ.live)
    (hs : shift = 2 ^ 64 ∨ shift = 0) (ha : Holds b.block a) (hc : b.Clear shift a)
    (hown : σ.world.Owned cs a) : w'.byte shift a = σ.world.byte shift a := by
  refine hkeep _ ?_ (h.off_of_clear hb ha hc hs)
  have hbound := h.bounds hb
  have h2 : a < b.ptr + b.usable := ha.2
  have hmod : (a + shift) % 2 ^ 64 = a := by omega
  rwa [hmod]

/-- A chunk of another buffer is left when one is returned. -/
theorem AllocInv.owned_erase (h : AllocInv w₀ σ vs) (hb : b ∈ σ.live) (ho : b.origin = .system)
    (hd : d ∈ σ.live.erase b) (ha : Holds d.block a) :
    σ.world.Owned (σ.world.heap.erase (b.ptr, b.size)) a := by
  have hcall : HeapCall σ.world { σ.world with heap := σ.world.heap.erase (b.ptr, b.size) }
      (σ.world.heap.erase (b.ptr, b.size)) := ⟨rfl, rfl, fun _ _ _ => rfl⟩
  exact (h.drop_chunk hb ho hcall).owned hd ha.1 ha.2

/-- The buffer a byte is in. -/
theorem AllocInv.eq_of_holds (h : AllocInv w₀ σ vs) (hb : b ∈ σ.live) (hd : d ∈ σ.live)
    (hba : Holds b.block a) (hda : Holds d.block a) : d = b := by
  by_contra hne
  exact BlockHeap.Apart.not_holds (h.separate hd hb hne) hda hba

end Clear

/-! ## The relation through a step -/

section Related

variable {w₀ w' : World} {σ : ApiState} {vs vs' : List PoolView} {b q : Buffer}
  {pools' : List slab_pool} {h : Heap UInt8} {shift a : ℕ} {x : UInt8}

/-- Buffers at different addresses are different blocks. -/
theorem block_erase {live : List Buffer} (hnd : (live.map Buffer.ptr).Nodup) (hb : b ∈ live) :
    (live.erase b).map Buffer.block = (live.map Buffer.block).erase b.block := by
  induction live with
  | nil => rfl
  | cons d live ih =>
      rw [List.map_cons, List.nodup_cons] at hnd
      by_cases hdb : d = b
      · rw [hdb, List.erase_cons_head, List.map_cons, List.erase_cons_head]
      · have hmem : b ∈ live := (List.mem_cons.mp hb).resolve_left fun he => hdb he.symm
        have hne : d.block ≠ b.block := fun he =>
          hnd.1 ((Prod.mk.inj he).1 ▸ List.mem_map_of_mem hmem)
        rw [List.erase_cons_tail (by simpa using hdb), List.map_cons, List.map_cons,
          List.erase_cons_tail (by simpa using hne), ih hnd.2 hmem]

/-- The newest buffer is apart from the others. -/
theorem AllocInv.apart_newest (h : AllocInv w₀ ⟨w', pools', q :: σ.live⟩ vs') :
    ∀ c ∈ σ.live.map Buffer.block, BlockHeap.Apart q.block c := by
  intro c hc
  obtain ⟨d, hd, rfl⟩ := List.mem_map.mp hc
  refine h.separate List.mem_cons_self (List.mem_cons_of_mem q hd) ?_
  rintro rfl
  exact (List.nodup_cons.mp h.live.nodup).1 (List.mem_map_of_mem hd)

/-- A buffer is added. -/
theorem Contents.alloc (hR : Contents shift σ h) (hinv : AllocInv w₀ ⟨w', pools', q :: σ.live⟩ vs')
    (hkeep : KeepsBuffers shift σ.live σ.world w') :
    ∃ h', BlockHeap.Step h (.alloc q.block) h' ∧ Contents shift ⟨w', pools', q :: σ.live⟩ h' := by
  have hnew : ∀ c ∈ h.blocks, BlockHeap.Apart q.block c := hR.blocks ▸ hinv.apart_newest
  refine ⟨_, .alloc hnew, congrArg _ hR.blocks, fun a x hx => ?_⟩
  change (if Holds q.block a then none else h.known a) = some x at hx
  by_cases ha : Holds q.block a
  · rw [if_pos ha] at hx
    cases hx
  · rw [if_neg ha] at hx
    obtain ⟨d, hd, hda, hclear, hbyte⟩ := hR.known a x hx
    exact ⟨d, List.mem_cons_of_mem q hd, hda, hclear, (hkeep d hd a hda hclear).trans hbyte⟩

/-- A buffer goes. -/
theorem Contents.free (pools' : List slab_pool) (hR : Contents shift σ h) (hi : AllocInv w₀ σ vs)
    (hb : b ∈ σ.live) (hkeep : KeepsBuffers shift (σ.live.erase b) σ.world w') :
    ∃ h', BlockHeap.Step h (.free b.block) h'
      ∧ Contents shift ⟨w', pools', σ.live.erase b⟩ h' := by
  have hmem : b.block ∈ h.blocks := hR.blocks ▸ List.mem_map_of_mem hb
  refine ⟨_, .free hmem, ?_, fun a x hx => ?_⟩
  · exact (congrArg (List.erase · b.block) hR.blocks).trans (block_erase hi.live.nodup hb).symm
  · change (if Holds b.block a then none else h.known a) = some x at hx
    by_cases ha : Holds b.block a
    · rw [if_pos ha] at hx
      cases hx
    · rw [if_neg ha] at hx
      obtain ⟨d, hd, hda, hclear, hbyte⟩ := hR.known a x hx
      have hde : d ∈ σ.live.erase b := by
        refine (List.mem_erase_of_ne ?_).mpr hd
        rintro rfl
        exact ha hda
      exact ⟨d, hde, hda, hclear, (hkeep d hde a hda hclear).trans hbyte⟩

/-- The bytes of the buffer `b` are at their places in the buffer `q` it has become, and the
other buffers keep theirs. -/
structure Carried (shift : ℕ) (σ : ApiState) (b q : Buffer) (w' : World) : Prop where
  moved : ∀ k, k < b.usable → k < q.usable → b.Clear shift (b.ptr + k) →
    q.Clear shift (q.ptr + k) ∧ w'.byte shift (q.ptr + k) = σ.world.byte shift (b.ptr + k)
  others : KeepsBuffers shift (σ.live.erase b) σ.world w'

/-- A buffer becomes another one. -/
theorem Contents.resize (hR : Contents shift σ h) (hi : AllocInv w₀ σ vs) (hb : b ∈ σ.live)
    (hinv : AllocInv w₀ ⟨w', pools', q :: σ.live.erase b⟩ vs') (hw : Carried shift σ b q w') :
    ∃ h', BlockHeap.Step h (.resize b.block q.block) h'
      ∧ Contents shift ⟨w', pools', q :: σ.live.erase b⟩ h' := by
  have hmem : b.block ∈ h.blocks := hR.blocks ▸ List.mem_map_of_mem hb
  have herase : h.blocks.erase b.block = (σ.live.erase b).map Buffer.block := by
    rw [hR.blocks, block_erase hi.live.nodup hb]
  have hnew : ∀ c ∈ h.blocks.erase b.block, BlockHeap.Apart q.block c := by
    rw [herase]
    exact AllocInv.apart_newest (σ := ⟨σ.world, σ.pools, σ.live.erase b⟩) hinv
  refine ⟨_, .resize hmem hnew, congrArg _ herase, fun a x hx => ?_⟩
  change (if Holds q.block a then if a - q.ptr < b.usable then h.known (b.ptr + (a - q.ptr)) else
    none else if Holds b.block a then none else h.known a) = some x at hx
  by_cases hqa : Holds q.block a
  · rw [if_pos hqa] at hx
    by_cases hlt : a - q.ptr < b.usable
    · rw [if_pos hlt] at hx
      obtain ⟨h1, h2⟩ : q.ptr ≤ a ∧ a < q.ptr + q.usable := hqa
      have hold : Holds b.block (b.ptr + (a - q.ptr)) :=
        ⟨Nat.le_add_right _ _, Nat.add_lt_add_left hlt _⟩
      obtain ⟨d, hd, hda, hclear, hbyte⟩ := hR.known _ x hx
      obtain rfl := hi.eq_of_holds hb hd hold hda
      obtain ⟨hclear', hbyte'⟩ := hw.moved (a - q.ptr) hlt (by omega) hclear
      rw [Nat.add_sub_of_le h1] at hclear' hbyte'
      exact ⟨q, List.mem_cons_self, ⟨h1, h2⟩, hclear', hbyte'.trans hbyte⟩
    · rw [if_neg hlt] at hx
      cases hx
  · rw [if_neg hqa] at hx
    by_cases hba : Holds b.block a
    · rw [if_pos hba] at hx
      cases hx
    · rw [if_neg hba] at hx
      obtain ⟨d, hd, hda, hclear, hbyte⟩ := hR.known a x hx
      have hde : d ∈ σ.live.erase b := by
        refine (List.mem_erase_of_ne ?_).mpr hd
        rintro rfl
        exact hba hda
      exact ⟨d, List.mem_cons_of_mem q hde, hda, hclear, (hw.others d hde a hda hclear).trans hbyte⟩

/-- A clear byte is written. -/
theorem Contents.write (hR : Contents shift σ h) (hb : b ∈ σ.live) (ha : Holds b.block a)
    (hc : b.Clear shift a) (x : UInt8) :
    ∃ h', BlockHeap.Step h (.write a x) h'
      ∧ Contents shift ⟨σ.world.poke shift a x, σ.pools, σ.live⟩ h' := by
  have hheld : ∃ c ∈ h.blocks, Holds c a := ⟨b.block, hR.blocks ▸ List.mem_map_of_mem hb, ha⟩
  refine ⟨_, .write hheld, hR.blocks, fun c y hy => ?_⟩
  change (if c = a then some x else h.known c) = some y at hy
  by_cases hca : c = a
  · rw [if_pos hca] at hy
    obtain rfl : x = y := Option.some.inj hy
    exact ⟨b, hb, hca ▸ ha, hca ▸ hc, hca ▸ if_pos rfl⟩
  · rw [if_neg hca] at hy
    obtain ⟨d, hd, hda, hclear, hbyte⟩ := hR.known c y hy
    refine ⟨d, hd, hda, hclear, (if_neg ?_).trans hbyte⟩
    omega

end Related

/-! ## What the calls keep -/

section Calls

variable {w₀ : World} {σ : ApiState} {vs : List PoolView} {b : Buffer} {os : Os} {c n shift : ℕ}

/-- The other chunks are those that start elsewhere. -/
theorem AllocInv.fresh_erase (h : AllocInv w₀ σ vs) (hb : b ∈ σ.live) (ho : b.origin = .system)
    (hf : MallocFresh σ.world (σ.world.heap.filter fun c => c.1 ≠ b.ptr) os.malloc n) :
    MallocFresh σ.world (σ.world.heap.erase (b.ptr, b.size)) os.malloc n := by
  have hchunk := h.live.system b hb ho
  refine ⟨hf.low, hf.high, hf.mapped, fun d hd => hf.heap d ?_⟩
  have hdm := List.mem_of_mem_erase hd
  refine List.mem_filter.mpr ⟨hdm, ?_⟩
  simp only [ne_eq, decide_eq_true_eq]
  intro he
  have hap := h.heap.apart.perm (List.perm_cons_erase hchunk) fun hs => hs.symm
  have h1 := (List.pairwise_cons.mp hap).1 d hd
  have h2 := h.heap.chunk _ hchunk
  have h3 := h.heap.chunk d hdm
  unfold Separate at h1
  omega

/-- `sfree` keeps the clear bytes of the other buffers. -/
theorem AllocInv.sfree_keeps (h : AllocInv w₀ σ vs) (hb : b ∈ σ.live)
    (hu : σ.Unfooled (.sfree os b)) (hs : shift = 2 ^ 64 ∨ shift = 0) :
    ∃ pools' w' vs', SlabAllocator.sfree os σ.pools b.ptr σ.world = .ok (pools', w')
      ∧ AllocInv w₀ ⟨w', pools', σ.live.erase b⟩ vs'
      ∧ KeepsBuffers shift (σ.live.erase b) σ.world w' := by
  rcases ho : b.origin with _ | c
  · obtain ⟨w', hrun, hcall, hkeep, -⟩ := h.sfree_heap hb ho (hu ho) os
    exact ⟨_, w', vs, hrun, h.drop_chunk hb ho hcall, fun d hd a ha hc =>
      hkeep.clear h (List.mem_of_mem_erase hd) hs ha hc (h.owned_erase hb ho hd ha)⟩
  · obtain ⟨l, v, r, pool', ys, w', -, -, -, -, hrun, hinv, hkeep, -⟩ := h.sfree_slab hb ho
    refine ⟨_, w', _, hrun os, hinv, fun d hd a ha hc => ?_⟩
    have hdl := List.mem_of_mem_erase hd
    exact hkeep.clear h hdl hs ha hc (h.owned hdl ha.1 ha.2)

/-- `srealloc` within the slot. -/
theorem Carried.in_place (h : AllocInv w₀ σ vs) (hb : b ∈ σ.live) (ho : b.origin = .slab c)
    (hn : n < c) : ∃ pools' q w' vs', SlabAllocator.srealloc os shift σ.pools b.ptr n σ.world
        = .ok ((pools', q), w')
      ∧ AllocInv w₀ ⟨w', pools', σ.resized b w' q n :: σ.live.erase b⟩ vs'
      ∧ Carried shift σ b (σ.resized b w' q n) w' := by
  obtain ⟨hrun, hinv⟩ := h.srealloc_in_place os shift hb ho hn
  have hq : σ.resized b σ.world b.ptr n = ⟨b.ptr, n, .slab c⟩ := by
    rw [ApiState.resized, if_pos rfl, ho]
  refine ⟨_, _, _, vs, hrun, by rw [hq]; exact hinv, ⟨fun k _ _ hclear => ⟨?_, rfl⟩,
    fun _ _ _ _ _ => rfl⟩⟩
  rw [hq]
  unfold Buffer.Clear at *
  rw [ho] at hclear
  exact hclear

/-- `srealloc` of a chunk. -/
theorem Carried.heap (h : AllocInv w₀ σ vs) (hb : b ∈ σ.live) (ho : b.origin = .system)
    (hmagic : σ.world.field (get_page_pointer b.ptr) .slab_magic ≠ SLAB_MAGIC_NUMBER)
    (hn : 1 ≤ n) (hs : shift = 2 ^ 64 ∨ shift = 0)
    (hf : MallocFresh σ.world (σ.world.heap.filter fun c => c.1 ≠ b.ptr) os.malloc n) :
    ∃ pools' q w' vs', SlabAllocator.srealloc os shift σ.pools b.ptr n σ.world
        = .ok ((pools', q), w')
      ∧ AllocInv w₀ ⟨w', pools', σ.resized b w' q n :: σ.live.erase b⟩ vs'
      ∧ Carried shift σ b (σ.resized b w' q n) w' := by
  obtain ⟨w', hrun, hor, hinv, hmem, hbytes, -⟩ :=
    h.srealloc_heap hb ho hmagic hn (hs.symm.imp id fun h => h.ge) (h.fresh_erase hb ho hf)
  have hq : σ.resized b w' os.malloc n = ⟨os.malloc, n, .system⟩ := by
    rw [ApiState.resized, hor, ho, ite_self]
  refine ⟨_, _, w', vs, hrun, by rw [hq]; exact hinv, ?_⟩
  rw [hq]
  refine ⟨fun k hkb hkq _ => ⟨.inr fun c hc => (by cases hc), hbytes k ?_⟩, fun d hd a ha hc => ?_⟩
  · rw [Buffer.usable, ho] at hkb
    exact Nat.lt_min.mpr ⟨hkb, hkq⟩
  · have hdl := List.mem_of_mem_erase hd
    have hbound := h.bounds hdl
    -- the chunk answered is apart from the other buffers, so nothing is copied into them
    have hsep : Separate (os.malloc, n) d.block :=
      AllocInv.apart_newest (σ := ⟨σ.world, σ.pools, σ.live.erase b⟩) hinv _
        (List.mem_map_of_mem hd)
    have h1 : d.ptr ≤ a := ha.1
    have h2 : a < d.ptr + d.usable := ha.2
    have hsep' : os.malloc + n ≤ d.ptr ∨ d.ptr + d.usable ≤ os.malloc := hsep
    have hmod : (a + shift) % 2 ^ 64 = a := by omega
    exact hmem _ (by rw [hmod]; exact h.owned_erase hb ho hd ha) (by omega)

/-- `srealloc` to another slot, or to a chunk. -/
theorem Carried.elsewhere (h : AllocInv w₀ σ vs) (hb : b ∈ σ.live) (ho : b.origin = .slab c)
    (hc : c ≤ n) (hn : 1 ≤ n) (hm : MmapFresh σ.world os.mmap POOL_GROW_RATE)
    (hf : MallocFresh σ.world (σ.world.heap.filter fun c => c.1 ≠ b.ptr) os.malloc n)
    (hsep : shift = 2 ^ 64 ∨ shift = 0 ∧ σ.ServesApart n) :
    ∃ pools' q w' vs', SlabAllocator.srealloc os shift σ.pools b.ptr n σ.world
        = .ok ((pools', q), w')
      ∧ AllocInv w₀ ⟨w', pools', σ.resized b w' q n :: σ.live.erase b⟩ vs'
      ∧ Carried shift σ b (σ.resized b w' q n) w' := by
  have hs : shift = 2 ^ 64 ∨ shift = 0 := hsep.imp id And.left
  have hbu : b.usable = c := by rw [Buffer.usable, ho]
  have hf' : MallocFresh σ.world σ.world.heap os.malloc n :=
    ⟨hf.low, hf.high, hf.mapped, fun d hd => hf.heap d (List.mem_filter.mpr
      ⟨hd, by simpa using h.ne_object hd (h.live.busy_of_slab hb ho)⟩)⟩
  obtain ⟨pools₁, p, w₁, vs₁, hsm, h₁, hus, hkeep, -, hoff, -⟩ := h.smalloc hn hm hf'
  obtain ⟨q, hq⟩ : ∃ q : Buffer, q = ⟨p, n, w₁.originOf σ.pools p n⟩ := ⟨_, rfl⟩
  have hqp : q.ptr = p := by rw [hq]
  rw [← hq] at h₁ hus hoff
  rw [← hqp] at hsm hoff
  -- all of the new buffer is clear
  have hclear : ∀ a, Holds q.block a → q.Clear shift a := by
    intro a ha
    rcases hsep with rfl | ⟨rfl, hap⟩
    · exact .inl rfl
    · exact h₁.clear_of_off List.mem_cons_self ha (hoff hap a ha.1 ha.2)
  have hcopy : ∀ a, q.ptr + shift ≤ a → a < q.ptr + shift + c → PoolView.Off vs₁ a := by
    intro a ha1 ha2
    have ha : Holds q.block (a - shift) := by
      unfold Holds Buffer.block
      simp only
      omega
    have := h₁.off_of_clear List.mem_cons_self ha (hclear _ ha) hs
    rwa [Nat.sub_add_cancel (by omega)] at this
  obtain ⟨l, v, r, pool', ys, w', -, hrun, hinv, hmem, -, hheap⟩ :=
    h.srealloc_moved hb ho hc hsm h₁ hus hcopy
  have hnd := h₁.live.nodup
  rw [List.map_cons, List.nodup_cons] at hnd
  have hne : q.ptr ≠ b.ptr := fun he => hnd.1 (he ▸ List.mem_map_of_mem hb)
  have hres : σ.resized b w' q.ptr n = q := by
    rw [ApiState.resized, if_neg hne, originOf_congr hheap, hqp, hq]
  -- a clear byte of a buffer held after `smalloc` is as the copy leaves it
  have hbyte : ∀ d ∈ q :: σ.live, ∀ a, Holds d.block a → d.Clear shift a →
      w'.byte shift a = copyBytes w₁.mem (q.ptr + shift) (b.ptr + shift) c (a + shift) := by
    intro d hd a ha hcl
    have hbound := h₁.bounds hd
    have h2 : a < d.ptr + d.usable := ha.2
    have hmod : (a + shift) % 2 ^ 64 = a := by omega
    exact hmem _ (by rw [hmod]; exact h₁.owned hd ha.1 ha.2) (h₁.off_of_clear hd ha hcl hs)
  refine ⟨_, _, w', _, hrun, by rw [hres]; exact hinv, ?_⟩
  rw [hres]
  refine ⟨fun k hkb hkq hcl => ?_, fun d hd a ha hcl => ?_⟩
  · have hqa : Holds q.block (q.ptr + k) := ⟨Nat.le_add_right _ _, Nat.add_lt_add_left hkq _⟩
    have hba : Holds b.block (b.ptr + k) := ⟨Nat.le_add_right _ _, Nat.add_lt_add_left hkb _⟩
    refine ⟨hclear _ hqa, (hbyte q List.mem_cons_self _ hqa (hclear _ hqa)).trans ?_⟩
    rw [Nat.add_right_comm, copyBytes_apply _ (by omega), Nat.add_right_comm]
    exact hkeep.clear h hb hs hba hcl (h.owned hb hba.1 hba.2)
  · have hdl := List.mem_of_mem_erase hd
    refine (hbyte d (List.mem_cons_of_mem q hdl) a ha hcl).trans ?_
    -- the new buffer is apart from the other one, so the copy does not reach it
    have hdq : q.ptr + q.usable ≤ d.ptr ∨ d.ptr + d.usable ≤ q.ptr :=
      h₁.apart_newest _ (List.mem_map_of_mem hdl)
    have h1 : d.ptr ≤ a := ha.1
    have h2 : a < d.ptr + d.usable := ha.2
    rw [copyBytes_apply_of_not_mem _ (by omega)]
    exact hkeep.clear h hdl hs ha hcl (h.owned hdl ha.1 ha.2)

/-- **`srealloc`** of a live buffer carries its bytes, and keeps those of the others. -/
theorem AllocInv.srealloc_carries (h : AllocInv w₀ σ vs) (hg : σ.Granted (.srealloc os b n))
    (hu : σ.Unfooled (.srealloc os b n))
    (hsep : shift = 2 ^ 64 ∨ shift = 0 ∧ σ.Apart (.srealloc os b n)) :
    ∃ pools' q w' vs', SlabAllocator.srealloc os shift σ.pools b.ptr n σ.world
        = .ok ((pools', q), w')
      ∧ AllocInv w₀ ⟨w', pools', σ.resized b w' q n :: σ.live.erase b⟩ vs'
      ∧ Carried shift σ b (σ.resized b w' q n) w' := by
  obtain ⟨hb, hn, hm, hf⟩ := hg
  rcases ho : b.origin with _ | c
  · exact Carried.heap h hb ho (hu ho) hn (hsep.imp id And.left) hf
  · rcases Nat.lt_or_ge n c with hc | hc
    · exact Carried.in_place h hb ho hc
    · exact Carried.elsewhere h hb ho hc hn hm hf (hsep.imp id fun hs => ⟨hs.1, hs.2 c ho hc⟩)

end Calls

/-! ## Steps and runs -/

section ContentsRuns

variable {w₀ : World} {σ : ApiState} {vs : List PoolView} {h : Heap UInt8} {shift : ℕ}

/-- **One step** of the allocator is the step of the heap its event names. -/
theorem Contents.step (hR : Contents shift σ h) (hi : AllocInv w₀ σ vs) {e : ApiEvent}
    (hg : σ.Granted e) (hu : σ.Unfooled e) (hsep : shift = 2 ^ 64 ∨ shift = 0 ∧ σ.Apart e) :
    ∃ σ' vs' h', σ.exec shift e = .ok σ' ∧ AllocInv w₀ σ' vs' ∧ BlockHeap.Step h (e.op σ') h'
      ∧ Contents shift σ' h' := by
  have hs : shift = 2 ^ 64 ∨ shift = 0 := hsep.imp id And.left
  cases e with
  | smalloc os n =>
      obtain ⟨pools', p, w', vs', hrun, hinv, -, hkeep, -⟩ := hi.smalloc hg.1 hg.2.1 hg.2.2
      have hall : KeepsBuffers shift σ.live σ.world w' := fun d hd a ha hc =>
        hkeep.clear hi hd hs ha hc (hi.owned hd ha.1 ha.2)
      obtain ⟨h', hstep, hR'⟩ := hR.alloc hinv hall
      exact ⟨_, vs', h', by rw [ApiState.exec, hrun]; rfl, hinv, hstep, hR'⟩
  | srealloc os b n =>
      obtain ⟨pools', q, w', vs', hrun, hinv, hcarried⟩ := hi.srealloc_carries hg hu hsep
      obtain ⟨h', hstep, hR'⟩ := hR.resize hi hg.1 hinv hcarried
      exact ⟨_, vs', h', by rw [ApiState.exec, hrun]; rfl, hinv, hstep, hR'⟩
  | sfree os b =>
      obtain ⟨pools', w', vs', hrun, hinv, hall⟩ := hi.sfree_keeps hg hu hs
      obtain ⟨h', hstep, hR'⟩ := hR.free pools' hi hg hall
      exact ⟨_, vs', h', by rw [ApiState.exec, hrun]; rfl, hinv, hstep, hR'⟩
  | write a x =>
      obtain ⟨σ', vs', hexec, hinv⟩ := hi.step hg hu hsep
      obtain ⟨b, hb, h1, h2⟩ := hg
      have ha : Holds b.block a := ⟨h1, h2⟩
      have hclear : b.Clear shift a := by
        rcases hsep with rfl | ⟨rfl, hap⟩
        · exact .inl rfl
        · exact hi.clear_of_off hb ha (hi.off_write ⟨b, hb, h1, h2⟩ hap)
      obtain ⟨h', hstep, hR'⟩ := hR.write hb ha hclear x
      cases hexec
      exact ⟨_, vs', h', rfl, hinv, hstep, hR'⟩

/-- A run is a run of the heap, from any state in which the heap is what the program knows. -/
theorem Contents.run {σ₀ : ApiState} {h₀ : Heap UInt8} {t : List (ApiState × ApiEvent)}
    (hR : Contents shift σ₀ h₀) (hi : AllocInv w₀ σ₀ vs) (hr : Run (ApiStep shift) σ₀ t σ)
    (hu : ∀ x ∈ t, x.1.Unfooled x.2)
    (hsep : shift = 2 ^ 64 ∨ shift = 0 ∧ ∀ x ∈ t, x.1.Apart x.2) :
    ∃ ops h, Run BlockHeap.Step h₀ ops h ∧ ops.map Prod.snd = labels ApiEvent.op t σ
      ∧ (∃ vs, AllocInv w₀ σ vs) ∧ Contents shift σ h := by
  obtain ⟨ops, h, hrun', ⟨hinv, hR⟩, hops⟩ := hr.simulate
    (R := fun s h => (∃ vs, AllocInv w₀ s vs) ∧ Contents shift s h) (f := ApiEvent.op)
    (c := fun s e => s.Unfooled e ∧ (shift = 2 ^ 64 ∨ shift = 0 ∧ s.Apart e))
    ⟨⟨vs, hi⟩, hR⟩
    (by
      rintro s e s' h ⟨⟨vs, hi⟩, hR⟩ ⟨hu, hsep⟩ hstep
      obtain ⟨s'', vs', h', hexec, hi', hs, hR'⟩ := hR.step hi hstep.1 hu hsep
      rw [hstep.unique hexec]
      exact ⟨h', hs, ⟨vs', hi'⟩, hR'⟩)
    (fun x hx => ⟨hu x hx, hsep.imp id fun hs => ⟨hs.1, hs.2 x hx⟩⟩)
  exact ⟨ops, h, hrun', hops, hinv, hR⟩

/-- A new allocator holds nothing, and the heap is empty. -/
theorem ApiRun.contents {t : List (ApiState × ApiEvent)} (hrun : ApiRun shift w₀ t σ)
    (hu : ∀ x ∈ t, x.1.Unfooled x.2)
    (hsep : shift = 2 ^ 64 ∨ shift = 0 ∧ ∀ x ∈ t, x.1.Apart x.2) :
    ∃ ops h, Run BlockHeap.Step Heap.empty ops h
      ∧ ops.map Prod.snd = labels ApiEvent.op t σ ∧ Contents shift σ h := by
  obtain ⟨σ₀, os, hinit, hr⟩ := hrun
  obtain ⟨vs₀, hinv, -⟩ := hinit.inv
  have hempty : Contents shift σ₀ Heap.empty := by
    refine ⟨by rw [hinit.live]; rfl, fun a x hx => ?_⟩
    cases hx
  obtain ⟨ops, h, hrun', hops, -, hR⟩ := hempty.run hinv hr hu hsep
  exact ⟨ops, h, hrun', hops, hR⟩

/-- **The allocator is a heap of blocks.** Every run in which no chunk passes for a slab is,
step by step, a run of the heap from the empty one: with the payload kept apart, and in the
machine as it is if the program writes past the entries. The blocks of the heap at its end are
the buffers the program holds, and what is known of their bytes is what they are. -/
theorem allocator_refines_block_heap {t : List (ApiState × ApiEvent)}
    (hrun : ApiRun shift w₀ t σ) (hu : ∀ x ∈ t, x.1.Unfooled x.2)
    (hsep : shift = 2 ^ 64 ∨ shift = 0 ∧ ∀ x ∈ t, x.1.Apart x.2) :
    ∃ ops h, Run BlockHeap.Step Heap.empty ops h
      ∧ ops.map Prod.snd = labels ApiEvent.op t σ ∧ Contents shift σ h :=
  hrun.contents hu hsep

/-- The theorem after one request of 64 bytes, in the machine as it is. -/
theorem allocator_refines_block_heap_64 : ∃ t σ ops h, t ≠ [] ∧ ApiRun 0 World.empty t σ
    ∧ Run BlockHeap.Step Heap.empty ops h ∧ ops.map Prod.snd = labels ApiEvent.op t σ
    ∧ Contents 0 σ h := by
  obtain ⟨σ₀, σ, b, hrun, -⟩ := @exists_object [8, 16, 32] [128, 256] 64 rfl (by decide) 0
  obtain ⟨ops, h, hr, hops, hR⟩ := allocator_refines_block_heap hrun
    (by intro x hx; rw [List.mem_singleton.mp hx]; trivial)
    (.inr ⟨rfl, by intro x hx; rw [List.mem_singleton.mp hx]; trivial⟩)
  exact ⟨_, σ, ops, h, by simp, hrun, hr, hops, hR⟩

/-- **The last write is read back.** A byte the program has written is in the buffer and at
the place the steps since have taken it to, however many buffers came, went and moved. -/
theorem last_write_read_back {t t' : List (ApiState × ApiEvent)} {s : ApiState} {a a' : ℕ}
    {x : UInt8} (hrun : ApiRun shift w₀ (t' ++ (s, .write a x) :: t) σ)
    (hu : ∀ y ∈ t' ++ (s, .write a x) :: t, y.1.Unfooled y.2)
    (hsep : shift = 2 ^ 64 ∨ shift = 0 ∧ ∀ y ∈ t' ++ (s, .write a x) :: t, y.1.Apart y.2)
    (hc : BlockHeap.carry (labels ApiEvent.op t' σ) a = some a') :
    σ.world.byte shift a' = x ∧ ∃ b ∈ σ.live, b.ptr ≤ a' ∧ a' < b.ptr + b.usable := by
  obtain ⟨ops, h, hr, hops, hR⟩ := hrun.contents hu hsep
  obtain ⟨s₁, hlabels⟩ := labels_append ApiEvent.op t' t s (.write a x) σ
  rw [hlabels] at hops
  obtain ⟨ops', rest, rfl, hops', hrest⟩ := List.map_eq_append_iff.mp hops
  obtain ⟨⟨u, op⟩, ops₀, rfl, hop, -⟩ := List.map_eq_cons_iff.mp hrest
  obtain ⟨h₁, hr₁, hr'⟩ := hr.split
  cases hr₁ with
  | next _ hw =>
      -- the step of the heap for the write, and the steps since
      obtain rfl : op = .write a x := hop
      have hknown := BlockHeap.known_of_run hr' hw.written (hops'.symm ▸ hc)
      obtain ⟨b, hb, hba, -, hbyte⟩ := hR.known a' x hknown
      exact ⟨hbyte, b, hb, hba⟩

/-- No pool serves what no shape is as large as. -/
theorem AllocInv.servesApart_large (hi : AllocInv w₀ σ vs) {n : ℕ} (hn : 806 < n) :
    σ.ServesApart n := by
  intro pool hfind
  have hpool := List.mem_of_find?_eq_some hfind
  rw [hi.pools] at hpool
  obtain ⟨v, hv, rfl⟩ := List.mem_map.mp hpool
  have hsize := List.find?_some hfind
  rw [hi.allocation_size hv, decide_eq_true_eq] at hsize
  exact absurd v.shape.size_le (by omega)

/-- The last byte of an object of 256 bytes is past the three entries of its slab. -/
theorem clear_last {b : Buffer} (ho : b.origin = .slab 256) (hp : b.ptr < 2 ^ 64) :
    b.Clear 0 (b.ptr + 255) := by
  have hpage : get_page_pointer b.ptr ≤ b.ptr := by
    rw [get_page_pointer_eq hp]
    unfold pageOf SLAB_PAGE_SIZE
    omega
  refine .inr fun c hc => ?_
  rw [ho] at hc
  cases hc
  unfold sizeof_mem_slab sizeof_bufctl SLAB_PAGE_SIZE
  omega

/-- The theorem for a byte of an object of 256 bytes that is resized to a chunk. -/
theorem last_write_read_back_256 : ∃ t t' s σ a a', t' ≠ []
    ∧ ApiRun 0 World.empty (t' ++ (s, .write a 7) :: t) σ
    ∧ BlockHeap.carry (labels ApiEvent.op t' σ) a = some a' ∧ σ.world.byte 0 a' = 7 := by
  obtain ⟨σ₀, σ, b, ⟨σ₀', os, hinit, hr⟩, hlive, ho, hroomy, -⟩ :=
    @exists_object [8, 16, 32, 64, 128] [] 256 rfl (by decide) 0
  have hone : ∀ x ∈ [(σ₀, ApiEvent.smalloc roomyOs 256)], x.1.Unfooled x.2 ∧ x.1.Apart x.2 := by
    intro x hx
    rw [List.mem_singleton.mp hx]
    exact ⟨trivial, trivial⟩
  obtain ⟨vs, hinv⟩ := ApiRun.inv ⟨σ₀', os, hinit, hr⟩ (fun x hx => (hone x hx).1)
    (.inr ⟨rfl, fun x hx => (hone x hx).2⟩)
  have hb : b ∈ σ.live := by rw [hlive]; exact List.mem_cons_self
  have hbu : b.usable = 256 := by rw [Buffer.usable, ho]
  have hbound := hinv.bounds hb
  have hold : Holds b.block (b.ptr + 255) := by
    refine ⟨Nat.le_add_right _ _, ?_⟩
    unfold Buffer.block
    omega
  have hap := hinv.apart_write (hinv.off_of_clear hb hold (clear_last ho (by omega)) (.inr rfl)) 7
  -- the write
  obtain ⟨σ₁, hσ₁⟩ : ∃ σ₁ : ApiState, σ₁ = ⟨σ.world.poke 0 (b.ptr + 255) 7, σ.pools, σ.live⟩ :=
    ⟨_, rfl⟩
  have hwrite : ApiStep 0 σ (.write (b.ptr + 255) 7) σ₁ :=
    ⟨⟨b, hb, hold.1, hold.2⟩, by rw [hσ₁]; rfl⟩
  obtain ⟨σ₁', vs₁, hexec, hinv₁⟩ := hinv.step hwrite.1 trivial (.inr ⟨rfl, hap⟩)
  obtain rfl := hwrite.unique hexec
  -- the resize
  have hb₁ : b ∈ σ₁.live := by rw [hσ₁]; exact hb
  have hroomy₁ : σ₁.Roomy := by rw [hσ₁]; exact ⟨hroomy.mapped, hroomy.heap⟩
  have hgrant : σ₁.Granted (.srealloc roomyOs b 1000) :=
    hroomy₁.granted_srealloc hb₁ (by decide) (by decide)
  have hun : σ₁.Unfooled (.srealloc roomyOs b 1000) := by
    intro hsys
    rw [ho] at hsys
    cases hsys
  have hserve : σ₁.Apart (.srealloc roomyOs b 1000) := fun c _ _ =>
    hinv₁.servesApart_large (by decide)
  obtain ⟨pools', q, w', hre, hres⟩ := hinv₁.srealloc hgrant hun (.inr ⟨rfl, hserve⟩)
  have hus := hres.usable
  have hmove : ApiStep 0 σ₁ (.srealloc roomyOs b 1000)
      ⟨w', pools', σ₁.resized b w' q 1000 :: σ₁.live.erase b⟩ :=
    ⟨hgrant, by rw [ApiState.exec, hre]; rfl⟩
  have hcarry : BlockHeap.carry (labels ApiEvent.op [(σ₁, .srealloc roomyOs b 1000)]
      ⟨w', pools', σ₁.resized b w' q 1000 :: σ₁.live.erase b⟩) (b.ptr + 255)
      = some (q + (b.ptr + 255 - b.ptr)) := by
    refine (if_pos hold).trans (if_pos ?_)
    exact lt_of_lt_of_le (show b.ptr + 255 - b.ptr < 1000 by omega) hus
  have hall : ∀ y ∈ [(σ₁, ApiEvent.srealloc roomyOs b 1000)] ++ (σ, .write (b.ptr + 255) 7)
      :: [(σ₀, .smalloc roomyOs 256)], y.1.Unfooled y.2 ∧ y.1.Apart y.2 := by
    intro y hy
    rcases List.mem_cons.mp hy with rfl | hy
    · exact ⟨hun, hserve⟩
    · rcases List.mem_cons.mp hy with rfl | hy
      · exact ⟨trivial, hap⟩
      · exact hone y hy
  obtain ⟨hbyte, -⟩ := last_write_read_back ⟨σ₀', os, hinit, (hr.next hwrite).next hmove⟩
    (fun y hy => (hall y hy).1) (.inr ⟨rfl, fun y hy => (hall y hy).2⟩) hcarry
  exact ⟨_, _, _, _, _, _, by simp, ⟨σ₀', os, hinit, (hr.next hwrite).next hmove⟩, hcarry, hbyte⟩

end ContentsRuns

end SlabAllocator
