/-
`mem_slab_create_several`: one mapping, a slab on each of its pages, linked in
order before an existing list.

The loop writes the links of a page right after preparing it, which resets them,
and points each page at the next one before that page exists as a slab; the
`next` of the last page leaves the mapping until the function patches it. The
loop invariant is therefore about the pages done so far, and the two links that
join the new slabs to the old list are written last.
-/
import SlabAllocator.PoolList

set_option autoImplicit false

open DoublyLinked

namespace SlabAllocator

/-! ## A new mapping -/

/-- The process after a successful `mmap` of `n` pages. -/
def World.grown (w : World) (os : Os) (n : ℕ) : World :=
  { w with
    mem := fun l => if os.mmap ≤ l % 2 ^ 64 ∧ l % 2 ^ 64 < os.mmap + n * SLAB_PAGE_SIZE
      then 0 else w.mem l
    mapped := w.mapped ++ pages os.mmap n
    calls := .mmap (SLAB_PAGE_SIZE * n) os.mmap :: w.calls }

theorem mem_pages {a n b : ℕ} : b ∈ pages a n ↔ ∃ i < n, b = a + i * 4096 := by
  unfold pages SLAB_PAGE_SIZE
  simp only [List.mem_map, List.mem_range]
  exact ⟨fun ⟨i, h, e⟩ => ⟨i, h, e.symm⟩, fun ⟨i, h, e⟩ => ⟨i, h, e.symm⟩⟩

theorem length_pages {a n : ℕ} : (pages a n).length = n := by
  rw [pages, List.length_map, List.length_range]

theorem nodup_pages {a n : ℕ} : (pages a n).Nodup := by
  refine List.Nodup.map (fun i j h => ?_) List.nodup_range
  unfold SLAB_PAGE_SIZE at h
  omega

theorem pages_eq_range' {a n : ℕ} :
    pages a n = (List.range' 0 n).map fun i => a + i * 4096 := by
  rw [pages, List.range_eq_range']
  rfl

theorem pages_headD {a n : ℕ} (hn : 1 ≤ n) : (pages a n).headD NULL = a := by
  obtain ⟨n, rfl⟩ : ∃ k, n = k + 1 := ⟨n - 1, by omega⟩
  rw [pages_eq_range', List.range'_succ]
  simp

theorem pages_getLastD {a n d : ℕ} (hn : 1 ≤ n) :
    (pages a n).getLastD d = a + (n - 1) * 4096 := by
  obtain ⟨n, rfl⟩ : ∃ k, n = k + 1 := ⟨n - 1, by omega⟩
  rw [pages_eq_range', List.range'_concat, List.map_append, List.map_singleton,
    List.getLastD_concat]
  omega

/-- The bytes of a mapping are those whose page is one of its pages. -/
theorem pageOf_mem_pages {a m n : ℕ} (hm : m % 4096 = 0) :
    pageOf a ∈ pages m n ↔ m ≤ a ∧ a < m + n * 4096 := by
  rw [mem_pages]
  unfold pageOf SLAB_PAGE_SIZE
  constructor
  · rintro ⟨i, hi, he⟩
    omega
  · intro h
    exact ⟨(a - m) / 4096, by omega, by omega⟩

/-- A mapping that was granted is not the failure value. -/
theorem MmapFresh.ne_failed {w : World} {a n : ℕ} (h : MmapFresh w a n) : a ≠ MAP_FAILED := by
  have h1 := h.aligned
  unfold SLAB_PAGE_SIZE at h1
  unfold MAP_FAILED
  omega

theorem mmap_ok {os : Os} {n : ℕ} {w : World} (h : os.mmap ≠ MAP_FAILED) :
    mmap os n w = .ok (os.mmap, w.grown os n) := by
  rw [mmap, if_neg h]
  rfl

theorem mmap_failed {os : Os} {n : ℕ} {w : World} (h : os.mmap = MAP_FAILED) :
    mmap os n w = .ok (MAP_FAILED,
      { w with calls := .mmap (SLAB_PAGE_SIZE * n) MAP_FAILED :: w.calls }) := by
  rw [mmap, if_pos h]

/-! ## The loop -/

section Loop

variable {size alignment : Int32}

/-- A page of the new list: a slab with every slot free, with its links. -/
structure Link (g : Shape) (w : World) (b n p : ℕ) : Prop where
  rep : Rep w g b (Slots.init g.cap)
  next : w.field b .next = n
  prev : w.field b .prev = p

/-- A link survives what is written outside its page. -/
theorem Link.within {g : Shape} {w w' : World} {b n p lo hi : ℕ} (h : Link g w b n p)
    (hw : Within lo hi w w') (hd : b + 4096 ≤ lo ∨ hi ≤ b) : Link g w' b n p := by
  have hcap := g.cap_le
  have hf : ∀ f, w'.field b f = w.field b f := fun f =>
    field_congr fun a h1 h2 => hw.mem a (by omega)
  refine ⟨h.rep.congr ⟨by rw [hw.mapped]; exact h.rep.page.1, h.rep.page.2⟩
    fun a h1 h2 _ => hw.mem a (by omega), by rw [hf, h.next], by rw [hf, h.prev]⟩

/-- Setting both links of a page just prepared. -/
theorem Rep.link {g : Shape} {w : World} {b n p : ℕ} (h : Rep w g b (Slots.init g.cap))
    (hn : n < 2 ^ 64) (hp : p < 2 ^ 64) :
    Link g ((w.setField b .prev p).setField b .next n) b n p := by
  have hal := h.page.2
  refine ⟨h.congr h.page fun a h1 h2 h3 => ?_, ?_, ?_⟩
  · rw [setField_mem (by simp only [SlabField.offset, SlabField.width]; omega),
      setField_mem (by simp only [SlabField.offset, SlabField.width]; omega)]
  · rw [field_setField_same]
    exact Nat.mod_eq_of_lt hn
  · rw [field_setField_ne (by decide), field_setField_same]
    exact Nat.mod_eq_of_lt hp

/-- `a` is in the header or the entry array of none of the slabs at `bs`, which have `n`
slots each. -/
def OffBooks (n : ℕ) (bs : List ℕ) (a : ℕ) : Prop := ∀ b ∈ bs, a < b ∨ b + 64 + 5 * n ≤ a

theorem OffBooks.subset {n a : ℕ} {bs bs' : List ℕ} (h : OffBooks n bs a)
    (hs : ∀ b ∈ bs', b ∈ bs) : OffBooks n bs' a := fun b hb => h b (hs b hb)

theorem pages_subset {a m n : ℕ} (h : m ≤ n) : ∀ b ∈ pages a m, b ∈ pages a n := by
  intro b hb
  obtain ⟨i, hi, he⟩ := mem_pages.mp hb
  exact mem_pages.mpr ⟨i, by omega, he⟩

/-- What is written in the header and the entries of one slab, its links included. -/
theorem link_mem {w w₁ : World} {base p n a m : ℕ} (hin : Within base (base + 64 + 5 * m) w w₁)
    (ha : a < base ∨ base + 64 + 5 * m ≤ a) :
    ((w₁.setField base .prev p).setField base .next n).mem a = w.mem a := by
  rw [setField_mem (by simp only [SlabField.offset, SlabField.width]; omega),
    setField_mem (by simp only [SlabField.offset, SlabField.width]; omega), hin.mem a ha]

/-- The loop makes the pages `1` to `m` slabs, each linked to its two neighbours. -/
theorem link_fresh_slabs_spec {w : World} {region : ℕ} (alignment : Int32)
    (hn : 1 ≤ num_buffers size) (m : ℕ) (hpage : ∀ i ≤ m, w.Page (region + i * 4096))
    (hlo : 4096 ≤ region) (hhi : region + (m + 1) * 4096 < 2 ^ 64) :
    ∃ w', link_fresh_slabs region size alignment m w = .ok ((), w')
      ∧ Within (region + 4096) (region + (m + 1) * 4096) w w'
      ∧ (∀ a, OffBooks (num_buffers size) (pages region (m + 1)) a → w'.mem a = w.mem a)
      ∧ ∀ i, 1 ≤ i → i ≤ m → Link (Shape.of size hn) w' (region + i * 4096)
          (region + (i + 1) * 4096) (region + (i - 1) * 4096) := by
  induction m with
  | zero => exact ⟨w, rfl, .refl, fun _ _ => rfl, fun i h1 h2 => absurd h1 (by omega)⟩
  | succ m ih =>
      have hbelow : ∀ i ≤ m + 2, region + i * 4096 < 2 ^ 64 := fun i hi =>
        lt_of_le_of_lt (Nat.add_le_add_left (Nat.mul_le_mul_right 4096 hi) region) hhi
      obtain ⟨w₁, hrun, hw, hoff, hlinks⟩ := ih (fun i hi => hpage i (by omega))
        (hbelow (m + 1) (by omega))
      -- the pages below are linked already; this one is prepared, then linked to both sides
      have hp₁ : w₁.Page (region + (m + 1) * 4096) :=
        ⟨by rw [hw.mapped]; exact (hpage _ (le_refl _)).1, (hpage _ (le_refl _)).2⟩
      obtain ⟨w₂, hprep, hrep, hin, -⟩ := prepare_slab_header_spec alignment hn hp₁
        (by omega) (by omega)
      have hcap := (Shape.of size hn).cap_le
      have hcap' : num_buffers size ≤ 806 := hcap
      have hstep : Within (region + (m + 1) * 4096) (region + (m + 1) * 4096 + 4096) w₁
          ((w₂.setField (region + (m + 1) * 4096) .prev (region + m * 4096)).setField
            (region + (m + 1) * 4096) .next (region + (m + 2) * 4096)) :=
        (hin.mono (le_refl _) (by omega)).trans
          ((Within.setField (le_refl _) (by omega)).trans (Within.setField (le_refl _) (by omega)))
      refine ⟨_, ?_, (hw.mono (le_refl _) (by omega)).trans (hstep.mono (by omega) (by omega)), ?_,
        ?_⟩
      · rw [link_fresh_slabs, bind_ok hrun]
        unfold SLAB_PAGE_SIZE
        rw [bind_ok hprep, slab_set_bind hrep.page, slab_set_ok (page_setField.mpr hrep.page)]
      · intro a ha
        rw [link_mem hin (ha _ (mem_pages.mpr ⟨m + 1, by omega, rfl⟩)),
          hoff a (ha.subset (pages_subset (by omega)))]
      · intro i h1 h2
        -- the page just made, or one of those below, whose bytes the last round left alone
        rcases Nat.lt_or_ge m i with hlt | hge
        · obtain rfl : i = m + 1 := by omega
          exact hrep.link (hbelow _ (by omega)) (hbelow _ (by omega))
        · exact (hlinks i h1 hge).within hstep (by omega)

end Loop

/-! ## The whole list -/

/-- What `mem_slab_create_several` leaves: `n` new slabs before the chain `bs`. Outside
the new pages it writes the `prev` of the first old slab only; in them it leaves the zeros
behind the entries. -/
structure Created (g : Shape) (os : Os) (n : ℕ) (bs : List ℕ) (w w' : World) : Prop where
  chain : Chain w' (pages os.mmap n ++ bs)
  slabs : ∀ b ∈ pages os.mmap n, Rep w' g b (Slots.init g.cap)
  mapped : w'.mapped = w.mapped ++ pages os.mmap n
  heap : w'.heap = w.heap
  calls : w'.calls = .mmap (SLAB_PAGE_SIZE * n) os.mmap :: w.calls
  mem : ∀ a, a % 2 ^ 64 < os.mmap ∨ os.mmap + n * 4096 ≤ a % 2 ^ 64 →
    (∀ b ∈ bs.head?, a < b + 56 ∨ b + 64 ≤ a) → w'.mem a = w.mem a
  zero : ∀ b ∈ pages os.mmap n, ∀ a, b + 64 + 5 * g.cap ≤ a → a < b + 4096 → w'.mem a = 0

/-- The two stores that put the pages ending at `last` before the list at `list_next`. -/
def World.joined (w : World) (last list_next : ℕ) : World :=
  if list_next = NULL then w.setField last .next list_next
  else (w.setField last .next list_next).setField list_next .prev last

section Joined

variable {w : World} {last list_next y : ℕ}

theorem next_joined (hl : last % 4096 = 0) (hn : list_next ≠ NULL → list_next % 4096 = 0)
    (hy : y % 4096 = 0) (hn64 : list_next < 2 ^ 64) :
    (w.joined last list_next).field y .next
      = if y = last then list_next else w.field y .next := by
  have hn' : list_next % 256 ^ 8 = list_next := Nat.mod_eq_of_lt hn64
  unfold World.joined
  by_cases h0 : list_next = NULL
  · rw [if_pos h0]
    simp only [field_setField_slab, hl, hy, and_true, SlabField.width, hn']
  · rw [if_neg h0]
    simp only [field_setField_slab, hl, hn h0, hy, and_true, and_false, reduceCtorEq, if_false,
      SlabField.width, hn']

theorem prev_joined (hl : last % 4096 = 0) (hn : list_next ≠ NULL → list_next % 4096 = 0)
    (hy : y % 4096 = 0) (hl64 : last < 2 ^ 64) :
    (w.joined last list_next).field y .prev
      = if list_next ≠ NULL ∧ y = list_next then last else w.field y .prev := by
  have hl' : last % 256 ^ 8 = last := Nat.mod_eq_of_lt hl64
  unfold World.joined
  by_cases h0 : list_next = NULL
  · rw [if_pos h0]
    simp only [field_setField_slab, hl, hy, and_false, reduceCtorEq, if_false, h0, ne_eq,
      not_true_eq_false, false_and]
  · rw [if_neg h0]
    simp only [field_setField_slab, hl, hn h0, hy, and_true, and_false, reduceCtorEq, if_false,
      SlabField.width, hl', ne_eq, h0, not_false_eq_true, true_and]

end Joined

/-- The state before the last two stores: the new slabs are linked to one another, with
the last `next` leaving the mapping. -/
theorem create_loop_spec {size : Int32} (alignment : Int32) {os : Os} {count : ℕ} {w : World}
    (hn : 1 ≤ num_buffers size) (hcount : 1 ≤ count) (hf : MmapFresh w os.mmap count) :
    ∃ w', (∀ k : M ℕ, (do
        prepare_slab_header os.mmap size alignment
        slab_set os.mmap .prev NULL
        slab_set os.mmap .next (os.mmap + SLAB_PAGE_SIZE)
        link_fresh_slabs os.mmap size alignment (count - 1)
        k) (w.grown os count) = k w')
      ∧ Within os.mmap (os.mmap + count * 4096) (w.grown os count) w'
      ∧ (∀ a, OffBooks (num_buffers size) (pages os.mmap count) a →
          w'.mem a = (w.grown os count).mem a)
      ∧ ∀ i < count, Link (Shape.of size hn) w' (os.mmap + i * 4096) (os.mmap + (i + 1) * 4096)
          (if i = 0 then NULL else os.mmap + (i - 1) * 4096) := by
  have hal := hf.aligned
  have hlo := hf.low
  have hhi := hf.high
  unfold SLAB_PAGE_SIZE at hal hlo hhi ⊢
  obtain ⟨m, rfl⟩ : ∃ m, count = m + 1 := ⟨count - 1, by omega⟩
  have hbelow : ∀ i ≤ m + 1, os.mmap + i * 4096 < 2 ^ 64 := fun i hi =>
    lt_of_le_of_lt (Nat.add_le_add_left (Nat.mul_le_mul_right 4096 hi) _) hhi
  have hpage : ∀ i ≤ m, (w.grown os (m + 1)).Page (os.mmap + i * 4096) := fun i hi =>
    ⟨List.mem_append_right _ (mem_pages.mpr ⟨i, by omega, rfl⟩), by omega⟩
  have hp₀ : (w.grown os (m + 1)).Page os.mmap := by
    have := hpage 0 (by omega)
    rwa [Nat.zero_mul, Nat.add_zero] at this
  obtain ⟨w₁, hprep, hrep, hin, -⟩ := prepare_slab_header_spec alignment hn hp₀ hlo
    (by have := hbelow 1 (by omega); omega)
  have hcap := (Shape.of size hn).cap_le
  have hcap' : num_buffers size ≤ 806 := hcap
  have hfirst : Within os.mmap (os.mmap + 4096) (w.grown os (m + 1))
      ((w₁.setField os.mmap .prev NULL).setField os.mmap .next (os.mmap + 4096)) :=
    (hin.mono (le_refl _) (by omega)).trans
      ((Within.setField (le_refl _) (by omega)).trans (Within.setField (le_refl _) (by omega)))
  have hlink₀ : Link (Shape.of size hn)
      ((w₁.setField os.mmap .prev NULL).setField os.mmap .next (os.mmap + 4096)) os.mmap
      (os.mmap + 4096) NULL :=
    hrep.link (by have := hbelow 1 (by omega); omega) (by decide)
  -- the first page is linked, and the loop starts behind it
  obtain ⟨w', hloop, hin', hoff, hlinks⟩ := link_fresh_slabs_spec alignment hn m
    (w := (w₁.setField os.mmap .prev NULL).setField os.mmap .next (os.mmap + 4096))
    (fun i hi => ⟨by rw [hfirst.mapped]; exact (hpage i hi).1, (hpage i hi).2⟩) hlo hhi
  refine ⟨w', ?_, (hfirst.mono (le_refl _) (by omega)).trans (hin'.mono (by omega) (le_refl _)),
    fun a ha => ?_, fun i hi => ?_⟩
  · intro k
    rw [bind_ok hprep, slab_set_bind hrep.page, slab_set_bind (page_setField.mpr hrep.page)]
    exact bind_ok hloop
  · rw [hoff a ha, link_mem hin (ha _ (mem_pages.mpr ⟨0, by omega, by omega⟩))]
  · rcases Nat.eq_zero_or_pos i with rfl | hpos
    · rw [if_pos rfl, Nat.zero_mul, Nat.zero_add, Nat.one_mul, Nat.add_zero]
      exact hlink₀.within hin' (by omega)
    · rw [if_neg (by omega)]
      exact hlinks i hpos (by omega)

/-- **`mem_slab_create_several`** when the kernel grants the mapping: `count` fresh slabs,
in page order, before the list it was given. -/
theorem mem_slab_create_several_spec {size : Int32} (alignment : Int32) {os : Os} {count : ℕ}
    {bs : List ℕ} {w : World} (hn : 1 ≤ num_buffers size) (hcount : 1 ≤ count)
    (hf : MmapFresh w os.mmap count) (hbs : Chain w bs) :
    ∃ w', mem_slab_create_several os size alignment count (bs.headD NULL) w = .ok (os.mmap, w')
      ∧ Created (Shape.of size hn) os count bs w w' := by
  have hal := hf.aligned
  have hlo := hf.low
  have hhi := hf.high
  have hold := hf.mapped
  unfold SLAB_PAGE_SIZE at hal hlo hhi hold
  obtain ⟨w₁, hrun, hin, hoff, hlinks⟩ := create_loop_spec alignment hn hcount hf
  obtain ⟨last, hlast⟩ : ∃ last, last = os.mmap + (count - 1) * 4096 := ⟨_, rfl⟩
  have hlastlink := hlinks (count - 1) (by omega)
  rw [← hlast] at hlastlink
  have hlastm : last ∈ pages os.mmap count := mem_pages.mpr ⟨count - 1, by omega, hlast⟩
  -- the old list is outside the mapping, so nothing has happened to it yet
  have hout : ∀ b ∈ bs, b + 4096 ≤ os.mmap ∨ os.mmap + count * 4096 ≤ b := fun b hb =>
    hold b (hbs.page b hb).1
  have hsame : ∀ a, a % 2 ^ 64 < os.mmap ∨ os.mmap + count * 4096 ≤ a % 2 ^ 64 →
      w₁.mem a = w.mem a := by
    intro a ha
    rw [hin.mem a (by omega)]
    exact if_neg (by unfold SLAB_PAGE_SIZE; omega)
  have hkeep : ∀ b ∈ bs, ∀ f, w₁.field b f = w.field b f := by
    intro b hb f
    have h1 := hout b hb
    have h2 := hbs.high b hb
    exact field_congr fun a h3 h4 => hsame a (by omega)
  have hmap₁ : w₁.mapped = w.mapped ++ pages os.mmap count := hin.mapped
  have hpage₁ : ∀ b ∈ bs, w₁.Page b := fun b hb =>
    ⟨by rw [hmap₁]; exact List.mem_append_left _ (hbs.page b hb).1, (hbs.page b hb).2⟩
  have hhead : bs.headD NULL ≠ NULL → bs.headD NULL ∈ bs := by
    intro hne
    refine headD_mem ?_
    rintro rfl
    exact hne rfl
  have hheadal : bs.headD NULL ≠ NULL → bs.headD NULL % 4096 = 0 := fun hne =>
    (hbs.page _ (hhead hne)).2
  have hhead64 : bs.headD NULL < 2 ^ 64 := by
    by_cases hne : bs.headD NULL = NULL
    · rw [hne]
      decide
    · exact hbs.lt (hhead hne)
  have hlast64 : last < 2 ^ 64 := by
    have := hlastlink.rep.high
    omega
  have hlastal := hlastlink.rep.page.2
  have hfresh : ∀ b ∈ pages os.mmap count, b % 4096 = 0 ∧ os.mmap ≤ b
      ∧ b + 4096 ≤ os.mmap + count * 4096 := by
    intro b hb
    obtain ⟨i, hi, rfl⟩ := mem_pages.mp hb
    omega
  -- the last two stores touch `next` of the last new slab and `prev` of the first old one
  have hN : ∀ y, y % 4096 = 0 → (w₁.joined last (bs.headD NULL)).field y .next
      = if y = last then bs.headD NULL else w₁.field y .next := fun y hy =>
    next_joined hlastal hheadal hy hhead64
  have hP : ∀ y, y % 4096 = 0 → (w₁.joined last (bs.headD NULL)).field y .prev
      = if bs.headD NULL ≠ NULL ∧ y = bs.headD NULL then last else w₁.field y .prev := fun y hy =>
    prev_joined hlastal hheadal hy hlast64
  have hlw : LinkWrites (last :: bs) w₁ (w₁.joined last (bs.headD NULL)) := by
    unfold World.joined
    split
    · exact .setNext .refl List.mem_cons_self
    · exact .setPrev (.setNext .refl List.mem_cons_self) (List.mem_cons_of_mem _ (hhead ‹_›))
  -- a write of links leaves the new slabs as they were prepared
  have hslabs : ∀ b ∈ pages os.mmap count, Rep w₁ (Shape.of size hn) b (Slots.init _) := by
    intro b hb
    obtain ⟨i, hi, rfl⟩ := mem_pages.mp hb
    exact (hlinks i hi).rep
  refine ⟨w₁.joined last (bs.headD NULL), ?_, ⟨?_, ?_, ?_, ?_, ?_, ?_, ?_⟩⟩
  · have hp₁ : w₁.Page last := hlastlink.rep.page
    unfold mem_slab_create_several World.joined
    rw [bind_ok (mmap_ok hf.ne_failed)]
    simp only [hf.ne_failed, if_false]
    rw [hrun]
    unfold SLAB_PAGE_SIZE
    rw [← hlast, slab_set_bind hp₁]
    by_cases hne : bs.headD NULL = NULL
    · simp only [hne, ne_eq, not_true_eq_false, if_false, if_true, ite_run, pure_run]
    · simp only [hne, ne_eq, not_false_eq_true, if_false, if_true, ite_run, pure_run,
        slab_set_bind (page_setField.mpr (hpage₁ _ (hhead hne)))]
  · -- the new chain is the new pages, then the old ones
    have hdisj : ∀ a ∈ pages os.mmap count, ∀ b ∈ bs, a ≠ b := by
      intro a ha b hb
      have h1 := hfresh a ha
      have h2 := hout b hb
      omega
    refine ⟨fun b hb => hlw.page ?_, fun b hb => ?_, fun b hb => ?_, ?_, ?_⟩
    · exact (List.mem_append.mp hb).elim (fun hb => (hslabs b hb).page) (hpage₁ b)
    · exact (List.mem_append.mp hb).elim (fun hb => (hslabs b hb).low) (hbs.low b)
    · exact (List.mem_append.mp hb).elim (fun hb => (hslabs b hb).high) (hbs.high b)
    · exact List.nodup_append.mpr ⟨nodup_pages, hbs.nodup, hdisj⟩
    · have hlinks₀ : Links (w.field · .next) (w.field · .prev) NULL bs NULL := hbs.links
      refine Links.join ?_ hlinks₀
        hbs.nodup ?_ ?_ ?_
      · rw [pages_eq_range']
        refine links_map_range' count (fun _ => ⟨?_, ?_⟩) (fun i _ hi => ⟨?_, ?_⟩)
        · rw [Nat.zero_mul, Nat.add_zero, hP _ hal, if_neg, ← Nat.add_zero os.mmap,
            ← Nat.zero_mul 4096, (hlinks 0 (by omega)).prev, if_pos rfl]
          rintro ⟨hne, he⟩
          refine hdisj os.mmap (mem_pages.mpr ⟨0, by omega, by omega⟩) _ (hhead hne) he
        · rw [Nat.zero_add, ← hlast, hN _ hlastal, if_pos rfl]
        · rw [hN _ (hlinks i (by omega)).rep.page.2, if_neg (by omega),
            (hlinks i (by omega)).next]
        · rw [hP _ (hlinks (i + 1) (by omega)).rep.page.2, if_neg,
            (hlinks (i + 1) (by omega)).prev, if_neg (by omega), Nat.add_sub_cancel]
          rintro ⟨hne, he⟩
          exact hdisj _ (mem_pages.mpr ⟨i + 1, by omega, rfl⟩) _ (hhead hne) he
      · rintro a ys rfl
        have ha := hbs.ne_null (b := a) List.mem_cons_self
        rw [hP a (hbs.aligned a List.mem_cons_self), if_pos ⟨ha, rfl⟩, pages_getLastD hcount,
          hlast]
      · intro y hy
        rw [hN y (hbs.aligned y hy), if_neg, hkeep y hy]
        rintro rfl
        exact hdisj _ hlastm _ hy rfl
      · intro y hy hyh
        rw [hP y (hbs.aligned y hy), if_neg (fun h => hyh h.2), hkeep y hy]
  · exact fun b hb => hlw.rep (hslabs b hb) fun x hx =>
      (List.mem_cons.mp hx).elim (fun he => he ▸ hlastal) (hbs.aligned x)
  · rw [hlw.mapped, hmap₁]
  · rw [hlw.heap, hin.heap]
    rfl
  · rw [hlw.calls, hin.calls]
    rfl
  · intro a ha hb
    have hla := hfresh last hlastm
    rw [← hsame a ha]
    unfold World.joined
    split
    · rw [setField_mem (by simp only [SlabField.offset, SlabField.width]; omega)]
    · rename_i hne
      have hab : a < bs.headD NULL + 56 ∨ bs.headD NULL + 64 ≤ a := by
        refine hb _ ?_
        rcases bs with _ | ⟨b, bs⟩
        · exact absurd rfl hne
        · rfl
      rw [setField_mem (by simp only [SlabField.offset, SlabField.width]; omega),
        setField_mem (by simp only [SlabField.offset, SlabField.width]; omega)]
  · intro b hb a h1 h2
    have hba := hfresh b hb
    have hcap : (Shape.of size hn).cap = num_buffers size := rfl
    have hbooks : OffBooks (num_buffers size) (pages os.mmap count) a := by
      intro c hc
      have hca := hfresh c hc
      have := (Shape.of size hn).cap_le
      omega
    rw [hlw.mem a, hoff a hbooks]
    · exact if_pos (by unfold SLAB_PAGE_SIZE; omega)
    · intro c hc
      have := (Shape.of size hn).cap_le
      rcases List.mem_cons.mp hc with rfl | hc
      · have := hfresh c hlastm
        omega
      · have h3 := hout c hc
        have h4 := (hbs.page c hc).2
        omega

/-- **`mem_slab_create_several`** when the kernel refuses: `NULL`, and nothing happened
but the call. -/
theorem mem_slab_create_several_failed {size alignment : Int32} {os : Os} {count list_next : ℕ}
    {w : World} (h : os.mmap = MAP_FAILED) :
    mem_slab_create_several os size alignment count list_next w = .ok (NULL,
      { w with calls := .mmap (SLAB_PAGE_SIZE * count) MAP_FAILED :: w.calls }) := by
  unfold mem_slab_create_several
  rw [bind_ok (mmap_failed h)]
  rfl

end SlabAllocator
