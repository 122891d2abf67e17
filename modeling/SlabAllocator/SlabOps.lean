/-
`mem_slab_alloc`, `mem_slab_dealloc` and `prepare_slab_header` on the two
sequences.

Each proof has two halves. The first runs the code: under what `Rep` says about
the indices it reads, the accesses stay in the page and the function is a fixed
sequence of stores (`handOut`, `release`, `unlink`). The second reads the next
`Rep` off that sequence, where the links are an instance of the moves of
`DoublyLinked`.
-/
import SlabAllocator.FreeList

set_option autoImplicit false

open DoublyLinked

namespace SlabAllocator

/-! ## Handing out a slot -/

/-- The stores of a `mem_slab_alloc` that takes slot `f`, whose successor is `b`,
from a list that ends at `e`. -/
def World.handOut (w : World) (slab f b e : ℕ) : World :=
  (((((((w.setField slab .ref_count (w.field slab .ref_count + 1)).setBuf (slab + 64) b
    .prev_index NON_EXISTANT).setField slab .freelist_start_index b).setBuf (slab + 64) e
    .next_index f).setBuf (slab + 64) f .prev_index e).setField slab .freelist_end_index f).setBuf
    (slab + 64) f .next_index NON_EXISTANT).setBuf (slab + 64) f .is_free SLOT_BUSY

section HandOut

variable {w : World} {slab f b e j : ℕ}

theorem mem_slab_alloc_run (hp : w.Page slab)
    (hbuf : w.field slab .freelist_buffer = slab + 64)
    (hstart : w.field slab .freelist_start_index = f)
    (hend : w.field slab .freelist_end_index = e)
    (hfree : w.buf (slab + 64) f .is_free = SLOT_FREE)
    (hnext : w.buf (slab + 64) f .next_index = b)
    (hprev : w.buf (slab + 64) f .prev_index = NON_EXISTANT)
    (hf : w.Entry (slab + 64) f) (hb : w.Entry (slab + 64) b) (he : w.Entry (slab + 64) e) :
    mem_slab_alloc slab w = .ok
      (ptr_add (w.field slab .allocable_buffer) (w.field slab .size * f),
        w.handOut slab f b e) := by
  unfold mem_slab_alloc World.handOut
  simp only [slab_get_bind, slab_set_bind, bufctl_get_bind, bufctl_set_bind, page_setField,
    page_setBuf, entry_setField, entry_setBuf, hp, hbuf, hstart, hf, hb, he, hend, hnext, hprev,
    hfree, ne_eq, not_true_eq_false, if_false, ite_run, field_setBuf, buf_setField,
    field_setField_ne, reduceCtorEq, not_false_eq_true, if_true, pure_run]

/-- A full slab is recognised by its first list entry. -/
theorem mem_slab_alloc_busy (hp : w.Page slab)
    (hbuf : w.field slab .freelist_buffer = slab + 64)
    (hstart : w.field slab .freelist_start_index = f) (hf : w.Entry (slab + 64) f)
    (hbusy : w.buf (slab + 64) f .is_free ≠ SLOT_FREE) :
    mem_slab_alloc slab w = .ok (NULL, w) := by
  unfold mem_slab_alloc
  simp only [slab_get_bind, bufctl_get_bind, hp, hbuf, hstart, hf, hbusy, ne_eq,
    not_false_eq_true, if_true, ite_run, pure_run]

theorem next_handOut (hf : f < 65536) : (w.handOut slab f b e).buf (slab + 64) j .next_index
    = if j = f then NON_EXISTANT else if j = e then f else w.buf (slab + 64) j .next_index := by
  unfold World.handOut
  simp only [buf_setBuf_same, buf_setBuf_ne, buf_setField, ne_eq, reduceCtorEq, not_false_eq_true,
    BufctlField.width, NON_EXISTANT]
  norm_num
  split_ifs <;> omega

theorem prev_handOut (he : e < 65536) : (w.handOut slab f b e).buf (slab + 64) j .prev_index
    = if j = f then e else if j = b then NON_EXISTANT else w.buf (slab + 64) j .prev_index := by
  unfold World.handOut
  simp only [buf_setBuf_same, buf_setBuf_ne, buf_setField, ne_eq, reduceCtorEq, not_false_eq_true,
    BufctlField.width, NON_EXISTANT]
  norm_num
  split_ifs <;> omega

theorem free_handOut : (w.handOut slab f b e).buf (slab + 64) j .is_free
    = if j = f then SLOT_BUSY else w.buf (slab + 64) j .is_free := by
  unfold World.handOut
  simp only [buf_setBuf_same, buf_setBuf_ne, buf_setField, ne_eq, reduceCtorEq, not_false_eq_true,
    BufctlField.width, SLOT_BUSY]
  norm_num

theorem start_handOut (hb : b < 65536) :
    (w.handOut slab f b e).field slab .freelist_start_index = b := by
  unfold World.handOut
  simp only [field_setField_same, field_setField_ne, field_setBuf, ne_eq, reduceCtorEq,
    not_false_eq_true, SlabField.width]
  omega

theorem stop_handOut (hf : f < 65536) :
    (w.handOut slab f b e).field slab .freelist_end_index = f := by
  unfold World.handOut
  simp only [field_setField_same, field_setBuf, SlabField.width]
  omega

theorem count_handOut :
    (w.handOut slab f b e).field slab .ref_count = (w.field slab .ref_count + 1) % 2 ^ 32 := by
  unfold World.handOut
  simp only [field_setField_same, field_setField_ne, field_setBuf, ne_eq, reduceCtorEq,
    not_false_eq_true, SlabField.width]
  norm_num

theorem field_handOut {c : SlabField} (h1 : c ≠ .ref_count) (h2 : c ≠ .freelist_start_index)
    (h3 : c ≠ .freelist_end_index) : (w.handOut slab f b e).field slab c = w.field slab c := by
  unfold World.handOut
  simp only [field_setField_ne, field_setBuf, ne_eq, h1, h2, h3, not_false_eq_true]

theorem within_handOut {n : ℕ} (hf : f < n) (hb : b < n) (he : e < n) :
    Within slab (slab + 64 + 5 * n) w (w.handOut slab f b e) := by
  unfold World.handOut
  refine (Within.setField ?_ ?_).trans ((Within.setBuf ?_ ?_).trans ((Within.setField ?_ ?_).trans
    ((Within.setBuf ?_ ?_).trans ((Within.setBuf ?_ ?_).trans ((Within.setField ?_ ?_).trans
    ((Within.setBuf ?_ ?_).trans (Within.setBuf ?_ ?_)))))))
  all_goals omega

end HandOut

/-- **`mem_slab_alloc`** on a slab with a free slot: the first free slot goes to the
back of the list, its address is the answer, and only the header and the entries
are written. -/
theorem mem_slab_alloc_spec {w : World} {g : Shape} {base f : ℕ} {s s' : Slots g.cap}
    (h : Rep w g base s) (h2 : 2 ≤ g.cap) (ha : s.alloc = some (f, s')) :
    ∃ w', mem_slab_alloc base w = .ok (g.slot base f, w') ∧ Rep w' g base s'
      ∧ Within base (base + 64 + 5 * g.cap) w w'
      ∧ w'.field base .next = w.field base .next ∧ w'.field base .prev = w.field base .prev := by
  obtain ⟨hfree, hbusy⟩ := Slots.alloc_some ha
  have hcap := g.cap_le
  have hord : s.order = f :: (s'.free ++ s.busy) := by rw [Slots.order, hfree, List.cons_append]
  have hord' : s'.order = s'.free ++ s.busy ++ [f] := by
    rw [Slots.order, hbusy, List.append_assoc]
  have hlt : ∀ i ∈ s.order, i < g.cap := fun i hi => Slots.mem_order.mp hi
  have hne : s'.free ++ s.busy ≠ [] := Slots.rest_ne_nil hfree h2
  have hlen : s.busy.length < 806 := by
    have hl := s.length_order
    rw [hfree, List.length_cons] at hl
    omega
  -- the indices the code reads: the slot, its successor and the end of the list
  have hlinks := h.links
  rw [hord, links_cons] at hlinks
  obtain ⟨hprev, hnext, -⟩ := hlinks
  have hstart : w.field base .freelist_start_index = f := by rw [h.start, hord, List.headD_cons]
  have hstop : w.field base .freelist_end_index
      = (s'.free ++ s.busy).getLastD NON_EXISTANT := by
    rw [h.stop, hord, List.getLastD_cons]
    obtain ⟨l, a, he⟩ := (List.eq_nil_or_concat' _).resolve_left hne
    rw [he, List.getLastD_concat, List.getLastD_concat]
  have hf : f < g.cap := hlt f (by rw [hord]; exact List.mem_cons_self)
  have hb : (s'.free ++ s.busy).headD NON_EXISTANT < g.cap :=
    hlt _ (by rw [hord]; exact List.mem_cons_of_mem _ (headD_mem hne))
  have he : (s'.free ++ s.busy).getLastD NON_EXISTANT < g.cap :=
    hlt _ (by rw [hord]; exact List.mem_cons_of_mem _ (getLastD_mem hne))
  have hflag : w.buf (base + 64) f .is_free = SLOT_FREE :=
    h.free f (by rw [hfree]; exact List.mem_cons_self)
  have hnd := s.nodup
  rw [hord] at hnd
  -- all three entries exist because there are two slots: the code does not ask
  have hrun := mem_slab_alloc_run h.page h.freelist_buffer hstart hstop hflag hnext hprev
    (h.entry hf) (h.entry hb) (h.entry he)
  refine ⟨_, ?_, ?_, within_handOut hf hb he, field_handOut (by decide) (by decide) (by decide),
    field_handOut (by decide) (by decide) (by decide)⟩
  · have hsl := h.slot_lt hf
    have hsz := g.size_pos
    rw [hrun, h.allocable_buffer, h.size, ptr_add_eq]
    · rfl
    · unfold Shape.slot at hsl
      omega
  · refine ⟨page_setBuf.mpr h.page, h.low, h.high, ?_, ?_, ?_, ?_, ?_, ?_, ?_, ?_, ?_, ?_, ?_⟩
    · rw [field_handOut (by decide) (by decide) (by decide), h.slab_magic]
    · rw [field_handOut (by decide) (by decide) (by decide), h.size]
    · rw [count_handOut, h.ref_count, hbusy, List.length_append, List.length_singleton]
      omega
    · rw [field_handOut (by decide) (by decide) (by decide), h.max_refs]
    · rw [field_handOut (by decide) (by decide) (by decide), h.freelist_buffer]
    · rw [field_handOut (by decide) (by decide) (by decide), h.allocable_buffer]
    · rw [start_handOut (by omega), hord']
      obtain ⟨a, l, he⟩ := List.exists_cons_of_ne_nil hne
      rw [he]
      rfl
    · rw [stop_handOut (by omega), hord', List.getLastD_concat]
    · have hmove := h.links
      rw [hord] at hmove
      rw [hord']
      -- the first slot goes to the back of the list
      have hfr : ∀ y ∈ s'.free ++ s.busy, y ≠ f := fun y hy hyf =>
        (List.nodup_cons.mp hnd).1 (hyf ▸ hy)
      have he16 : (s'.free ++ s.busy).getLastD NON_EXISTANT < 65536 := by omega
      refine Links.to_back (l := []) (r := s'.free ++ s.busy) hmove hnd hne ?_ ?_ ?_ ?_ ?_ ?_ ?_
      · rw [next_handOut (by omega), if_pos rfl]
      · rw [prev_handOut he16, if_pos rfl]
      · rw [prev_handOut he16, if_neg (hfr _ (headD_mem hne)), if_pos rfl]
        rfl
      · rw [next_handOut (by omega), if_neg (hfr _ (getLastD_mem hne)), if_pos rfl]
      · intro a l' hl
        simp at hl
      · intro y hy hyb
        rw [prev_handOut he16, if_neg (hfr y hy), if_neg hyb]
      · intro y hy hye _
        rw [next_handOut (by omega), if_neg (hfr y hy), if_neg hye]
    · intro i hi
      rw [free_handOut, if_neg, h.free i (by rw [hfree]; exact List.mem_cons_of_mem _ hi)]
      rintro rfl
      exact (List.nodup_cons.mp hnd).1 (List.mem_append_left _ hi)
    · intro i hi
      rw [free_handOut]
      split_ifs with hif
      · rfl
      · rw [hbusy, List.mem_append, List.mem_singleton] at hi
        exact h.busy i (hi.resolve_right hif)

/-- **`mem_slab_alloc`** on a full slab answers `NULL` and writes nothing. -/
theorem mem_slab_alloc_full {w : World} {g : Shape} {base : ℕ} {s : Slots g.cap}
    (h : Rep w g base s) (ha : s.alloc = none) : mem_slab_alloc base w = .ok (NULL, w) := by
  have hfree := Slots.alloc_eq_none.mp ha
  have hcap := g.cap_pos
  have hord : s.order = s.busy := by rw [Slots.order, hfree, List.nil_append]
  have hne : s.busy ≠ [] := by
    intro hb
    have hl := s.length_order
    rw [hfree, hb] at hl
    simp at hl
    omega
  have hmem : s.busy.headD NON_EXISTANT ∈ s.busy := headD_mem hne
  refine mem_slab_alloc_busy h.page h.freelist_buffer h.start ?_ ?_
  · rw [hord]
    exact h.entry (Slots.busy_lt hmem)
  · rw [hord, h.busy _ hmem]
    decide

/-! ## Taking a slot back -/

/-- The stores every `mem_slab_dealloc` of slot `x` starts with. -/
def World.release (w : World) (slab x : ℕ) : World :=
  (w.setField slab .ref_count (size_t_of_int ((w.field slab .ref_count : ℤ) - 1))).setBuf
    (slab + 64) x .is_free SLOT_FREE

/-- The stores that move slot `x`, between `p` and `q`, before the first slot `a` of a
list that ends at `e`. -/
def World.unlink (w : World) (slab x p q a e : ℕ) : World :=
  let w₁ := w.setBuf (slab + 64) p .next_index q
  let w₂ := if q = NON_EXISTANT then w₁ else w₁.setBuf (slab + 64) q .prev_index p
  let w₃ := if e = x then w₂.setField slab .freelist_end_index p else w₂
  (((w₃.setBuf (slab + 64) x .next_index a).setBuf (slab + 64) x .prev_index
    NON_EXISTANT).setBuf (slab + 64) a .prev_index x).setField slab .freelist_start_index x

section Release

variable {w : World} {slab ptr x p q a e j : ℕ}

theorem next_release :
    (w.release slab x).buf (slab + 64) j .next_index = w.buf (slab + 64) j .next_index := by
  unfold World.release
  simp only [buf_setBuf_ne, buf_setField, ne_eq, reduceCtorEq, not_false_eq_true]

theorem prev_release :
    (w.release slab x).buf (slab + 64) j .prev_index = w.buf (slab + 64) j .prev_index := by
  unfold World.release
  simp only [buf_setBuf_ne, buf_setField, ne_eq, reduceCtorEq, not_false_eq_true]

theorem free_release : (w.release slab x).buf (slab + 64) j .is_free
    = if j = x then SLOT_FREE else w.buf (slab + 64) j .is_free := by
  unfold World.release
  simp only [buf_setBuf_same, buf_setField, BufctlField.width, SLOT_FREE]
  norm_num

theorem count_release (h : 1 ≤ w.field slab .ref_count) :
    (w.release slab x).field slab .ref_count = w.field slab .ref_count - 1 := by
  have hlt : w.field slab .ref_count < 256 ^ 4 := field_lt
  unfold World.release
  simp only [field_setField_same, field_setBuf, SlabField.width, size_t_of_int]
  omega

theorem field_release {c : SlabField} (h : c ≠ .ref_count) :
    (w.release slab x).field slab c = w.field slab c := by
  unfold World.release
  simp only [field_setField_ne, field_setBuf, ne_eq, h, not_false_eq_true]

theorem page_release {b : ℕ} : (w.release slab x).Page b ↔ w.Page b := Iff.rfl

theorem within_release {n : ℕ} (hx : x < n) :
    Within slab (slab + 64 + 5 * n) w (w.release slab x) := by
  refine (Within.setField ?_ ?_).trans (Within.setBuf ?_ ?_)
  all_goals omega

/-- The freed slot is the first of the list, or follows a free one: nothing moves. -/
theorem mem_slab_dealloc_stay (hp : w.Page slab)
    (hbuf : w.field slab .freelist_buffer = slab + 64)
    (hidx : get_buffer_index_from_ptr slab ptr w = .ok (x, w)) (hx : w.Entry (slab + 64) x)
    (hstay : w.field slab .freelist_start_index = x
      ∨ w.buf (slab + 64) x .prev_index = p ∧ w.Entry (slab + 64) p
        ∧ w.buf (slab + 64) p .is_free = SLOT_FREE) :
    mem_slab_dealloc slab ptr w = .ok ((), w.release slab x) := by
  have hstart : (w.release slab x).field slab .freelist_start_index
      = w.field slab .freelist_start_index := field_release (by decide)
  have hprev : (w.release slab x).buf (slab + 64) x .prev_index
      = w.buf (slab + 64) x .prev_index := prev_release
  have hflag : (w.release slab x).buf (slab + 64) p .is_free
      = if p = x then SLOT_FREE else w.buf (slab + 64) p .is_free := free_release
  unfold World.release at hstart hprev hflag ⊢
  unfold mem_slab_dealloc
  simp only [slab_get_bind, slab_set_bind, bufctl_get_bind, bufctl_set_bind, page_setField,
    page_setBuf, entry_setField, entry_setBuf, hp, hbuf, bind_ok hidx, hx, hstart, ite_run,
    pure_run, hprev]
  by_cases hs : x = w.field slab .freelist_start_index
  · rw [if_pos hs]
  · obtain ⟨hpx, hpp, hfree⟩ := hstay.resolve_left fun h => hs h.symm
    rw [hfree, ite_self] at hflag
    rw [if_neg hs, hpx]
    simp only [bufctl_get_bind, entry_setField, entry_setBuf, hpp, hflag, if_true, ite_run,
      pure_run]

/-- The freed slot follows a busy one: it is unlinked and becomes the first. -/
theorem mem_slab_dealloc_move (hp : w.Page slab)
    (hbuf : w.field slab .freelist_buffer = slab + 64)
    (hidx : get_buffer_index_from_ptr slab ptr w = .ok (x, w)) (hx : w.Entry (slab + 64) x)
    (hstart : w.field slab .freelist_start_index = a) (hax : x ≠ a) (ha : w.Entry (slab + 64) a)
    (hend : w.field slab .freelist_end_index = e)
    (hprev : w.buf (slab + 64) x .prev_index = p) (hpp : w.Entry (slab + 64) p) (hpx : p ≠ x)
    (hbusy : w.buf (slab + 64) p .is_free ≠ SLOT_FREE)
    (hnext : w.buf (slab + 64) x .next_index = q)
    (hq : q ≠ NON_EXISTANT → w.Entry (slab + 64) q) :
    mem_slab_dealloc slab ptr w = .ok ((), (w.release slab x).unlink slab x p q a e) := by
  have hstart' : (w.release slab x).field slab .freelist_start_index = a := by
    rw [field_release (by decide), hstart]
  have hend' : (w.release slab x).field slab .freelist_end_index = e := by
    rw [field_release (by decide), hend]
  have hprev' : (w.release slab x).buf (slab + 64) x .prev_index = p := by
    rw [prev_release, hprev]
  have hnext' : (w.release slab x).buf (slab + 64) x .next_index = q := by
    rw [next_release, hnext]
  have hflag : (w.release slab x).buf (slab + 64) p .is_free ≠ SLOT_FREE := by
    rw [free_release, if_neg hpx]
    exact hbusy
  have hrel : (w.setField slab .ref_count
      (size_t_of_int ((w.field slab .ref_count : ℤ) - 1))).setBuf (slab + 64) x .is_free SLOT_FREE
      = w.release slab x := rfl
  have hp' : (w.release slab x).Page slab := page_release.mpr hp
  have hx' : (w.release slab x).Entry (slab + 64) x := hx
  have hpp' : (w.release slab x).Entry (slab + 64) p := hpp
  have ha' : (w.release slab x).Entry (slab + 64) a := ha
  have hq' : q ≠ NON_EXISTANT → (w.release slab x).Entry (slab + 64) q := hq
  unfold mem_slab_dealloc World.unlink
  rw [slab_get_bind hp, hbuf, bind_ok hidx, slab_get_bind hp, slab_set_bind hp,
    bufctl_set_bind (entry_setField.mpr hx), hrel]
  simp only [slab_get_bind, bufctl_get_bind, hp', hx', hpp', hstart', hprev', hnext', hflag, hax,
    ite_run, if_false]
  by_cases hqn : q = NON_EXISTANT
  · by_cases hex : e = x
    all_goals
      simp only [hqn, hex, if_true, if_false, slab_get_bind, slab_set_bind, bufctl_set_bind,
        page_setField, page_setBuf, entry_setField, entry_setBuf, hp', hx', ha', hpp', hstart',
        hend', field_setBuf, field_setField_ne, ne_eq, reduceCtorEq, not_false_eq_true,
        slab_set_ok]
  · have hqe := hq' hqn
    by_cases hex : e = x
    all_goals
      simp only [hqn, hex, if_true, if_false, slab_get_bind, slab_set_bind, bufctl_set_bind,
        page_setField, page_setBuf, entry_setField, entry_setBuf, hp', hx', ha', hpp', hqe,
        hstart', hend', field_setBuf, field_setField_ne, ne_eq, reduceCtorEq, not_false_eq_true,
        slab_set_ok]

end Release

section Unlink

variable {w : World} {slab x p q a e j : ℕ}

theorem next_unlink (hq : q < 65536) (ha : a < 65536) :
    (w.unlink slab x p q a e).buf (slab + 64) j .next_index
      = if j = x then a else if j = p then q else w.buf (slab + 64) j .next_index := by
  have hN : NON_EXISTANT < 65536 := by decide
  unfold World.unlink
  by_cases hqn : q = NON_EXISTANT <;> by_cases hex : e = x
  all_goals
    simp only [hqn, hex, if_true, if_false, buf_setBuf_same, buf_setBuf_ne, buf_setField, ne_eq,
      reduceCtorEq, not_false_eq_true, BufctlField.width]
    norm_num
    split_ifs <;> omega

theorem prev_unlink (hx : x < 65536) (hp : p < 65536) :
    (w.unlink slab x p q a e).buf (slab + 64) j .prev_index
      = if j = a then x else if j = x then NON_EXISTANT
        else if q ≠ NON_EXISTANT ∧ j = q then p else w.buf (slab + 64) j .prev_index := by
  have hN : NON_EXISTANT < 65536 := by decide
  unfold World.unlink
  by_cases hqn : q = NON_EXISTANT <;> by_cases hex : e = x
  all_goals
    simp only [hqn, hex, if_true, if_false, buf_setBuf_same, buf_setBuf_ne, buf_setField, ne_eq,
      reduceCtorEq, not_false_eq_true, not_true_eq_false, true_and, false_and, BufctlField.width]
    norm_num
    split_ifs <;> omega

theorem free_unlink :
    (w.unlink slab x p q a e).buf (slab + 64) j .is_free = w.buf (slab + 64) j .is_free := by
  unfold World.unlink
  by_cases hqn : q = NON_EXISTANT <;> by_cases hex : e = x
  all_goals
    simp only [hqn, hex, if_true, if_false, buf_setBuf_ne, buf_setField, ne_eq, reduceCtorEq,
      not_false_eq_true]

theorem start_unlink (hx : x < 65536) :
    (w.unlink slab x p q a e).field slab .freelist_start_index = x := by
  unfold World.unlink
  simp only [field_setField_same, SlabField.width]
  omega

theorem stop_unlink (hp : p < 65536) : (w.unlink slab x p q a e).field slab .freelist_end_index
    = if e = x then p else w.field slab .freelist_end_index := by
  unfold World.unlink
  by_cases hqn : q = NON_EXISTANT <;> by_cases hex : e = x
  all_goals
    simp only [hqn, hex, if_true, if_false, field_setField_same, field_setField_ne, field_setBuf,
      ne_eq, reduceCtorEq, not_false_eq_true, SlabField.width]
    try omega

theorem field_unlink {c : SlabField} (h1 : c ≠ .freelist_start_index)
    (h2 : c ≠ .freelist_end_index) : (w.unlink slab x p q a e).field slab c = w.field slab c := by
  unfold World.unlink
  by_cases hqn : q = NON_EXISTANT <;> by_cases hex : e = x
  all_goals
    simp only [hqn, hex, if_true, if_false, field_setField_ne, field_setBuf, ne_eq, h1, h2,
      not_false_eq_true]

theorem within_unlink {n : ℕ} (hx : x < n) (hp : p < n) (ha : a < n)
    (hq : q ≠ NON_EXISTANT → q < n) :
    Within slab (slab + 64 + 5 * n) w (w.unlink slab x p q a e) := by
  unfold World.unlink
  refine Within.trans ?_ ((Within.setBuf ?_ ?_).trans ((Within.setBuf ?_ ?_).trans
    ((Within.setBuf ?_ ?_).trans (Within.setField ?_ ?_))))
  · by_cases hqn : q = NON_EXISTANT <;> by_cases hex : e = x
    all_goals simp only [hqn, hex, if_true, if_false]
    · exact (Within.setBuf (by omega) (by omega)).trans (Within.setField (by omega) (by omega))
    · exact Within.setBuf (by omega) (by omega)
    · have := hq hqn
      exact (Within.setBuf (by omega) (by omega)).trans
        ((Within.setBuf (by omega) (by omega)).trans (Within.setField (by omega) (by omega)))
    · have := hq hqn
      exact (Within.setBuf (by omega) (by omega)).trans (Within.setBuf (by omega) (by omega))
  all_goals omega

end Unlink

/-- An address inside a buffer gives the index of the buffer. -/
theorem get_buffer_index_from_ptr_spec {w : World} {g : Shape} {base i k : ℕ} (hp : w.Page base)
    (hhigh : base + 4096 ≤ 2 ^ 64) (hsize : w.field base .size = g.size)
    (hbuf : w.field base .allocable_buffer = base + 64 + g.cap) (hi : i < g.cap)
    (hk : k < g.size) : get_buffer_index_from_ptr base (g.slot base i + k) w = .ok (i, w) := by
  have hsz := g.size_pos
  have hend := g.slot_in_page (b := base) hi
  have hcap := g.cap_le
  have hidx := g.index_of_slot (b := base) (i := i) hk
  have hsub : size_t_sub (g.slot base i + k) (base + 64 + g.cap)
      = g.slot base i + k - (base + 64 + g.cap) := by
    refine size_t_sub_eq ?_ (by omega)
    unfold Shape.slot
    omega
  unfold get_buffer_index_from_ptr
  simp only [slab_get_bind hp, hsize, hbuf, ite_run, pure_run]
  rw [if_neg (by omega), hsub, hidx, Nat.mod_eq_of_lt (by omega)]

/-- **`mem_slab_dealloc`** of a busy slot. The three exits of the code are the two cases
of `Slots.dealloc`: the first busy slot stays where it is, whether it starts the list
or follows a free slot, and any other one moves to the front. -/
theorem mem_slab_dealloc_spec {w : World} {g : Shape} {base x k : ℕ} {s : Slots g.cap}
    (h : Rep w g base s) (hx : x ∈ s.busy) (hk : k < g.size) :
    ∃ w', mem_slab_dealloc base (g.slot base x + k) w = .ok ((), w')
      ∧ Rep w' g base (s.dealloc x) ∧ Within base (base + 64 + 5 * g.cap) w w'
      ∧ w'.field base .next = w.field base .next ∧ w'.field base .prev = w.field base .prev := by
  have hcap := g.cap_le
  have hxn := Slots.busy_lt hx
  have hidx := get_buffer_index_from_ptr_spec h.page h.high h.size h.allocable_buffer hxn hk
  have hcount : 1 ≤ w.field base .ref_count := by
    rw [h.ref_count]
    exact List.length_pos_of_mem hx
  -- the count goes down by one on either path
  have hlen : (s.dealloc x).busy.length = s.busy.length - 1 := by
    have := (Slots.dealloc_perm hx).length_eq
    rw [List.length_cons] at this
    omega
  have hrel : ∀ c, c ≠ SlabField.ref_count → (w.release base x).field base c = w.field base c :=
    fun c hc => field_release hc
  by_cases hh : s.busy.head? = some x
  · -- the first busy slot: the list is already what it has to be
    have hb : s.busy = x :: s.busy.tail := (List.cons_head?_tail hh).symm
    obtain ⟨hfree', hbusy'⟩ := Slots.dealloc_head hb
    have hord : s.order = s.free ++ x :: s.busy.tail := by rw [Slots.order, ← hb]
    have hord' : (s.dealloc x).order = s.order := by
      rw [Slots.order, hfree', hbusy', hord, List.append_assoc, List.singleton_append]
    have hnd := s.nodup
    rw [hord] at hnd
    -- the code recognises it by the slot before it, which is free, or by its place at the start
    have hstay : w.field base .freelist_start_index = x
        ∨ w.buf (base + 64) x .prev_index = s.free.getLastD NON_EXISTANT
          ∧ w.Entry (base + 64) (s.free.getLastD NON_EXISTANT)
          ∧ w.buf (base + 64) (s.free.getLastD NON_EXISTANT) .is_free = SLOT_FREE := by
      have hlinks := h.links
      rw [hord, links_mid] at hlinks
      rcases eq_or_ne s.free [] with hf | hf
      · left
        rw [h.start, hord, hf]
        rfl
      · have hm : s.free.getLastD NON_EXISTANT ∈ s.free := getLastD_mem hf
        exact .inr ⟨hlinks.2.1.1, h.entry (Slots.free_lt hm), h.free _ hm⟩
    refine ⟨_, mem_slab_dealloc_stay h.page h.freelist_buffer hidx (h.entry hxn) hstay, ?_,
      within_release hxn, hrel _ (by decide), hrel _ (by decide)⟩
    refine ⟨page_release.mpr h.page, h.low, h.high, ?_, ?_, ?_, ?_, ?_, ?_, ?_, ?_, ?_, ?_, ?_⟩
    · rw [hrel _ (by decide), h.slab_magic]
    · rw [hrel _ (by decide), h.size]
    · rw [count_release hcount, h.ref_count, hlen]
    · rw [hrel _ (by decide), h.max_refs]
    · rw [hrel _ (by decide), h.freelist_buffer]
    · rw [hrel _ (by decide), h.allocable_buffer]
    · rw [hrel _ (by decide), h.start, hord']
    · rw [hrel _ (by decide), h.stop, hord']
    · rw [hord']
      exact h.links.congr (fun y _ => next_release) (fun y _ => prev_release)
    · intro i hi
      rw [free_release]
      split_ifs with hix
      · rfl
      · rw [hfree', List.mem_append, List.mem_singleton] at hi
        exact h.free i (hi.resolve_right hix)
    · intro i hi
      rw [hbusy'] at hi
      rw [free_release, if_neg, h.busy i (by rw [hb]; exact List.mem_cons_of_mem _ hi)]
      rintro rfl
      exact (List.nodup_cons.mp (List.nodup_append.mp hnd).2.1).1 hi
  · -- any other busy slot: unlink it and put it first
    obtain ⟨hfree', hbusy'⟩ := Slots.dealloc_other hx hh
    obtain ⟨l, r, hlr⟩ := List.append_of_mem hx
    have hl : l ≠ [] := by
      rintro rfl
      rw [hlr] at hh
      exact hh rfl
    have hord : s.order = s.free ++ l ++ x :: r := by
      rw [Slots.order, hlr, List.append_assoc]
    have hnd := s.nodup
    rw [hord] at hnd
    have hxl : x ∉ s.free ++ l := fun hm =>
      (List.nodup_append.mp hnd).2.2 x hm x List.mem_cons_self rfl
    have herase : s.busy.erase x = l ++ r := by
      rw [hlr, List.erase_append_right _ (fun hm => hxl (List.mem_append_right _ hm)),
        List.erase_cons_head]
    have hord' : (s.dealloc x).order = x :: (s.free ++ l ++ r) := by
      rw [Slots.order, hfree', hbusy', herase, List.cons_append, List.append_assoc]
    have hne : s.free ++ l ≠ [] := by
      intro he
      exact hl (List.append_eq_nil_iff.mp he).2
    have hlt : ∀ i ∈ s.order, i < g.cap := fun i hi => Slots.mem_order.mp hi
    have hlinks := h.links
    rw [hord] at hlinks
    obtain ⟨-, ⟨hprev, hnext⟩, -⟩ := links_mid.mp hlinks
    -- the busy slot before it and the first slot of the list
    have hpl : (s.free ++ l).getLastD NON_EXISTANT ∈ l := by
      obtain ⟨l', b, rfl⟩ := (List.eq_nil_or_concat' l).resolve_left hl
      rw [← List.append_assoc, List.getLastD_concat]
      exact List.mem_append_right _ List.mem_cons_self
    have hpm : (s.free ++ l).getLastD NON_EXISTANT ∈ s.free ++ l :=
      List.mem_append_right _ hpl
    have ham : (s.free ++ l).headD NON_EXISTANT ∈ s.free ++ l := headD_mem hne
    have hpn := hlt _ (by rw [hord]; exact List.mem_append_left _ hpm)
    have han := hlt _ (by rw [hord]; exact List.mem_append_left _ ham)
    have hstart : w.field base .freelist_start_index = (s.free ++ l).headD NON_EXISTANT := by
      rw [h.start, hord]
      obtain ⟨b, t, he⟩ := List.exists_cons_of_ne_nil hne
      rw [he]
      rfl
    have hqn : r.headD NON_EXISTANT ≠ NON_EXISTANT → r.headD NON_EXISTANT < g.cap := by
      intro hq
      rcases r with _ | ⟨b, r⟩
      · exact absurd rfl hq
      · exact hlt b (by rw [hord]; simp)
    have hq16 : r.headD NON_EXISTANT < 65536 := by
      by_cases hq : r.headD NON_EXISTANT = NON_EXISTANT
      · rw [hq]
        decide
      · have := hqn hq
        omega
    have hax : x ≠ (s.free ++ l).headD NON_EXISTANT := fun he => hxl (he ▸ ham)
    have hpx : (s.free ++ l).getLastD NON_EXISTANT ≠ x := fun he => hxl (he ▸ hpm)
    have hbusy : w.buf (base + 64) ((s.free ++ l).getLastD NON_EXISTANT) .is_free
        ≠ SLOT_FREE := by
      rw [h.busy _ (by rw [hlr]; exact List.mem_append_left _ hpl)]
      decide
    have hrun := mem_slab_dealloc_move h.page h.freelist_buffer hidx (h.entry hxn) hstart hax
      (h.entry han) h.stop hprev (h.entry hpn) hpx hbusy hnext
      (fun hq => h.entry (hqn hq))
    have hfield : ∀ c, c ≠ SlabField.ref_count → c ≠ .freelist_start_index →
        c ≠ .freelist_end_index → ((w.release base x).unlink base x
          ((s.free ++ l).getLastD NON_EXISTANT) (r.headD NON_EXISTANT)
          ((s.free ++ l).headD NON_EXISTANT) (s.order.getLastD NON_EXISTANT)).field base c
          = w.field base c := fun c h1 h2 h3 => by rw [field_unlink h2 h3, hrel c h1]
    have hw : Within base (base + 64 + 5 * g.cap) w ((w.release base x).unlink base x
        ((s.free ++ l).getLastD NON_EXISTANT) (r.headD NON_EXISTANT)
        ((s.free ++ l).headD NON_EXISTANT) (s.order.getLastD NON_EXISTANT)) :=
      (within_release hxn).trans (within_unlink hxn hpn han hqn)
    refine ⟨_, hrun, ?_, hw,
      hfield _ (by decide) (by decide) (by decide), hfield _ (by decide) (by decide) (by decide)⟩
    refine ⟨?_, h.low, h.high, ?_, ?_, ?_, ?_, ?_, ?_, ?_, ?_, ?_, ?_, ?_⟩
    · exact ⟨by rw [hw.mapped]; exact h.page.1, h.page.2⟩
    · rw [hfield _ (by decide) (by decide) (by decide), h.slab_magic]
    · rw [hfield _ (by decide) (by decide) (by decide), h.size]
    · rw [field_unlink (by decide) (by decide), count_release hcount, h.ref_count, hlen]
    · rw [hfield _ (by decide) (by decide) (by decide), h.max_refs]
    · rw [hfield _ (by decide) (by decide) (by decide), h.freelist_buffer]
    · rw [hfield _ (by decide) (by decide) (by decide), h.allocable_buffer]
    · rw [start_unlink (by omega), hord', List.headD_cons]
    · -- the end of the list moves only when it was `x`
      rw [stop_unlink (by omega), hrel _ (by decide), h.stop, hord', List.getLastD_cons]
      rcases List.eq_nil_or_concat' r with rfl | ⟨r', b, rfl⟩
      · rw [hord, List.getLastD_concat, if_pos rfl, List.append_nil]
        obtain ⟨t, b, he⟩ := (List.eq_nil_or_concat' _).resolve_left hne
        rw [he, List.getLastD_concat, List.getLastD_concat]
      · have hbx : b ≠ x := by
          rintro rfl
          have hnr := (List.nodup_append.mp hnd).2.1
          exact (List.nodup_cons.mp hnr).1 (List.mem_append_right _ List.mem_cons_self)
        have hlast : (s.free ++ l ++ x :: (r' ++ [b])).getLastD NON_EXISTANT = b := by
          rw [← List.cons_append, ← List.append_assoc, List.getLastD_concat]
        rw [hord, hlast, if_neg hbx, ← List.append_assoc, List.getLastD_concat]
    · rw [hord']
      have hin : ∀ y ∈ s.free ++ l ++ r, y ≠ x := by
        rintro y hy rfl
        rcases List.mem_append.mp hy with hy | hy
        · exact hxl hy
        · exact (List.nodup_cons.mp (List.nodup_append.mp hnd).2.1).1 hy
      -- what `unlink` stored are the four links a move to the front changes
      refine hlinks.to_front hnd hne ?_ ?_ ?_ ?_ ?_ ?_ ?_
      · rw [next_unlink hq16 (by omega), if_pos rfl]
      · rw [prev_unlink (by omega) (by omega), if_neg hax, if_pos rfl]
      · rw [next_unlink hq16 (by omega), if_neg hpx, if_pos rfl]
      · rw [prev_unlink (by omega) (by omega), if_pos rfl]
      · rintro b r' rfl
        have hbm : b ∈ s.free ++ l ++ b :: r' := by simp
        have hba : b ≠ (s.free ++ l).headD NON_EXISTANT := fun he =>
          (List.nodup_append.mp hnd).2.2 _ ham b (by simp) he.symm
        have hbn : b ≠ NON_EXISTANT := by
          have := hlt b (by rw [hord]; simp)
          unfold NON_EXISTANT
          omega
        rw [prev_unlink (by omega) (by omega), if_neg hba, if_neg (hin b hbm)]
        exact if_pos ⟨hbn, rfl⟩
      · intro y hy hyp
        rw [next_unlink hq16 (by omega), if_neg (hin y hy), if_neg hyp, next_release]
      · intro y hy hya hyr
        rw [prev_unlink (by omega) (by omega), if_neg hya, if_neg (hin y hy), if_neg,
          prev_release]
        rintro ⟨hq, rfl⟩
        rcases r with _ | ⟨b, r'⟩
        · exact hq rfl
        · exact hyr b r' rfl rfl
    · intro i hi
      rw [free_unlink, free_release]
      split_ifs with hix
      · rfl
      · rw [hfree', List.mem_cons] at hi
        exact h.free i (hi.resolve_left hix)
    · intro i hi
      rw [hbusy', herase] at hi
      have hib : i ∈ s.busy := by
        rw [hlr]
        rcases List.mem_append.mp hi with hi | hi
        · exact List.mem_append_left _ hi
        · exact List.mem_append_right _ (List.mem_cons_of_mem _ hi)
      rw [free_unlink, free_release, if_neg, h.busy i hib]
      rintro rfl
      rcases List.mem_append.mp hi with hi | hi
      · exact hxl (List.mem_append_right _ hi)
      · exact (List.nodup_cons.mp (List.nodup_append.mp hnd).2.1).1 hi

/-! ## Preparing a page -/

/-- The loop of `prepare_slab_header` links each entry to its two neighbours. -/
theorem link_freelist_spec {w : World} {slab : ℕ} (hp : w.Page slab) (n : ℕ) (hn : n ≤ 806) :
    ∃ w', link_freelist (slab + 64) n w = .ok ((), w')
      ∧ Within (slab + 64) (slab + 64 + 5 * n) w w'
      ∧ ∀ i < n, w'.buf (slab + 64) i .next_index = i + 1
        ∧ w'.buf (slab + 64) i .prev_index = (i + 65535) % 65536
        ∧ w'.buf (slab + 64) i .is_free = SLOT_FREE := by
  induction n with
  | zero => exact ⟨w, rfl, Within.refl, fun i hi => absurd hi (by omega)⟩
  | succ n ih =>
      obtain ⟨w₁, hrun, hw, hent⟩ := ih (by omega)
      have hp₁ : w₁.Page slab := ⟨by rw [hw.mapped]; exact hp.1, hp.2⟩
      have hfit : w₁.Entry (slab + 64) n := hp₁.entry (by omega)
      refine ⟨((w₁.setBuf (slab + 64) n .prev_index (size_t_of_int ((n : ℤ) - 1))).setBuf
        (slab + 64) n .next_index (n + 1)).setBuf (slab + 64) n .is_free SLOT_FREE, ?_, ?_, ?_⟩
      · rw [link_freelist, bind_ok hrun]
        simp only [bufctl_set_bind, entry_setBuf, hfit, bufctl_set_ok]
      · refine (hw.mono (le_refl _) (by omega)).trans ((Within.setBuf ?_ ?_).trans
          ((Within.setBuf ?_ ?_).trans (Within.setBuf ?_ ?_)))
        all_goals omega
      · intro i hi
        simp only [buf_setBuf_same, buf_setBuf_ne, ne_eq, reduceCtorEq, not_false_eq_true,
          BufctlField.width, SLOT_FREE, size_t_of_int]
        rcases Nat.lt_succ_iff_lt_or_eq.mp hi with hlt | rfl
        · rw [if_neg (by omega), if_neg (by omega), if_neg (by omega)]
          exact hent i hlt
        · rw [if_pos rfl, if_pos rfl, if_pos rfl]
          omega

/-- The header fields `prepare_slab_header` writes before the loop. -/
def World.stamp (w : World) (slab : ℕ) (size alignment : Int32) : World :=
  ((((((w.setField slab .slab_magic SLAB_MAGIC_NUMBER).setField slab .ref_count 0).setField slab
    .size (size_t_of_int size.toInt)).setField slab .alignment
    (size_t_of_int alignment.toInt)).setField slab .freelist_buffer (slab + 64)).setField slab
    .next NULL).setField slab .prev NULL

/-- The stores of `prepare_slab_header` after the loop over `n` entries. -/
def World.seal (w : World) (slab n : ℕ) : World :=
  (((((w.setField slab .freelist_start_index 0).setField slab .freelist_end_index
    (size_t_of_int ((n : ℤ) - 1))).setBuf (slab + 64) 0 .prev_index NON_EXISTANT).setBuf
    (slab + 64) (n - 1) .next_index NON_EXISTANT).setField slab .max_refs n).setField slab
    .allocable_buffer (ptr_add (slab + 64) n)

section Prepare

variable {w : World} {slab n i : ℕ} {size alignment : Int32}

theorem stamp_fields (slab : ℕ) (w : World) (alignment : Int32) (hlo : slab + 64 < 2 ^ 64)
    (hs : size_t_of_int size.toInt < 2 ^ 64) :
    (w.stamp slab size alignment).field slab .slab_magic = SLAB_MAGIC_NUMBER
    ∧ (w.stamp slab size alignment).field slab .ref_count = 0
    ∧ (w.stamp slab size alignment).field slab .size = size_t_of_int size.toInt
    ∧ (w.stamp slab size alignment).field slab .freelist_buffer = slab + 64
    ∧ (w.stamp slab size alignment).field slab .next = NULL
    ∧ (w.stamp slab size alignment).field slab .prev = NULL := by
  have hmagic : SLAB_MAGIC_NUMBER % 256 ^ 8 = SLAB_MAGIC_NUMBER := by decide
  unfold World.stamp
  simp only [field_setField_same, field_setField_ne, ne_eq, reduceCtorEq, not_false_eq_true,
    SlabField.width, hmagic, Nat.zero_mod, true_and, and_true]
  constructor <;> exact Nat.mod_eq_of_lt (by omega)

theorem within_stamp : Within slab (slab + 64) w (w.stamp slab size alignment) := by
  unfold World.stamp
  refine (Within.setField ?_ ?_).trans ((Within.setField ?_ ?_).trans ((Within.setField ?_ ?_).trans
    ((Within.setField ?_ ?_).trans ((Within.setField ?_ ?_).trans ((Within.setField ?_ ?_).trans
    (Within.setField ?_ ?_))))))
  all_goals omega

/-- What the last entry index is stored as. -/
theorem last_index (h1 : 1 ≤ n) (h2 : n ≤ 806) :
    size_t_of_int ((n : ℤ) - 1) % 256 ^ 2 = n - 1 := by
  unfold size_t_of_int
  omega

theorem field_seal {f : SlabField} (h1 : f ≠ .freelist_start_index) (h2 : f ≠ .freelist_end_index)
    (h3 : f ≠ .max_refs) (h4 : f ≠ .allocable_buffer) :
    (w.seal slab n).field slab f = w.field slab f := by
  unfold World.seal
  simp only [field_setField_ne, field_setBuf, ne_eq, h1, h2, h3, h4, not_false_eq_true]

theorem seal_fields (h1 : 1 ≤ n) (h2 : n ≤ 806) (hhi : slab + 4096 ≤ 2 ^ 64) :
    (w.seal slab n).field slab .freelist_start_index = 0
    ∧ (w.seal slab n).field slab .freelist_end_index = n - 1
    ∧ (w.seal slab n).field slab .max_refs = n
    ∧ (w.seal slab n).field slab .allocable_buffer = slab + 64 + n := by
  have hptr : ptr_add (slab + 64) n = slab + 64 + n := ptr_add_eq (by omega)
  unfold World.seal
  simp only [field_setField_same, field_setField_ne, field_setBuf, ne_eq, reduceCtorEq,
    not_false_eq_true, SlabField.width, last_index h1 h2, hptr, Nat.zero_mod, true_and]
  constructor <;> exact Nat.mod_eq_of_lt (by omega)

theorem next_seal : (w.seal slab n).buf (slab + 64) i .next_index
    = if i = n - 1 then NON_EXISTANT else w.buf (slab + 64) i .next_index := by
  have hN : NON_EXISTANT % 256 ^ 2 = NON_EXISTANT := by decide
  unfold World.seal
  simp only [buf_setBuf_same, buf_setBuf_ne, buf_setField, ne_eq, reduceCtorEq, not_false_eq_true,
    BufctlField.width, hN]

theorem prev_seal : (w.seal slab n).buf (slab + 64) i .prev_index
    = if i = 0 then NON_EXISTANT else w.buf (slab + 64) i .prev_index := by
  have hN : NON_EXISTANT % 256 ^ 2 = NON_EXISTANT := by decide
  unfold World.seal
  simp only [buf_setBuf_same, buf_setBuf_ne, buf_setField, ne_eq, reduceCtorEq, not_false_eq_true,
    BufctlField.width, hN]

theorem free_seal :
    (w.seal slab n).buf (slab + 64) i .is_free = w.buf (slab + 64) i .is_free := by
  unfold World.seal
  simp only [buf_setBuf_ne, buf_setField, ne_eq, reduceCtorEq, not_false_eq_true]

theorem within_seal (h1 : 1 ≤ n) : Within slab (slab + 64 + 5 * n) w (w.seal slab n) := by
  unfold World.seal
  refine (Within.setField ?_ ?_).trans ((Within.setField ?_ ?_).trans ((Within.setBuf ?_ ?_).trans
    ((Within.setBuf ?_ ?_).trans ((Within.setField ?_ ?_).trans (Within.setField ?_ ?_)))))
  all_goals omega

/-- The run of `prepare_slab_header`: header, loop, seal. -/
theorem prepare_slab_header_run {w₂ : World} (hn : 1 ≤ num_buffers size)
    (hcap : num_buffers size ≤ 806) (hp : w.Page slab) (hhi : slab + 4096 ≤ 2 ^ 64)
    (hs : size_t_of_int size.toInt < 2 ^ 64) (hp₂ : w₂.Page slab)
    (hloop : link_freelist (slab + 64) (num_buffers size) (w.stamp slab size alignment)
      = .ok ((), w₂))
    (hbuf₂ : w₂.field slab .freelist_buffer = slab + 64) :
    prepare_slab_header slab size alignment w = .ok ((), w₂.seal slab (num_buffers size)) := by
  have hbuf₁ := (stamp_fields slab w alignment (by omega) hs).2.2.2.1
  have hp₁ : (w.stamp slab size alignment).Page slab := hp
  have hfirst : w₂.Entry (slab + 64) 0 := hp₂.entry (by norm_num)
  have hfit : w₂.Entry (slab + 64) (num_buffers size - 1) := hp₂.entry (by omega)
  have hstamp : ((((((w.setField slab .slab_magic SLAB_MAGIC_NUMBER).setField slab .ref_count
      0).setField slab .size (size_t_of_int size.toInt)).setField slab .alignment
      (size_t_of_int alignment.toInt)).setField slab .freelist_buffer (slab + 64)).setField slab
      .next NULL).setField slab .prev NULL = w.stamp slab size alignment := rfl
  unfold prepare_slab_header sizeof_mem_slab
  simp only [slab_set_bind, page_setField, hp, hstamp, slot_cost_ne_zero hn, if_false]
  rw [slab_get_bind hp₁, hbuf₁, bind_ok hloop]
  unfold World.seal
  simp only [slab_get_bind, slab_set_bind, bufctl_set_bind, page_setField, page_setBuf,
    entry_setField, entry_setBuf, hp₂, field_setBuf, field_setField_same, field_setField_ne, ne_eq,
    reduceCtorEq, not_false_eq_true, SlabField.width, Nat.zero_mod, last_index hn hcap, hfirst,
    hfit, hbuf₂, slab_set_ok]

end Prepare

/-- **`prepare_slab_header`** makes a fresh slab of the page, and writes its header and
entries only. -/
theorem prepare_slab_header_spec {w : World} {base : ℕ} {size : Int32} (alignment : Int32)
    (hn : 1 ≤ num_buffers size) (hp : w.Page base) (hlo : 4096 ≤ base)
    (hhi : base + 4096 ≤ 2 ^ 64) :
    ∃ w', prepare_slab_header base size alignment w = .ok ((), w')
      ∧ Rep w' (Shape.of size hn) base (Slots.init _)
      ∧ Within base (base + 64 + 5 * num_buffers size) w w'
      ∧ w'.field base .next = NULL ∧ w'.field base .prev = NULL := by
  have hcap : num_buffers size ≤ 806 := (Shape.of size hn).cap_le
  have hsize : size_t_of_int size.toInt ≤ 806 := (Shape.of size hn).size_le
  obtain ⟨hmagic, hcount, hsz, hbuf, hnx, hpv⟩ := stamp_fields base w alignment
    (by omega) (show size_t_of_int size.toInt < 2 ^ 64 by omega)
  have hp₁ : (w.stamp base size alignment).Page base := hp
  obtain ⟨w₂, hloop, hin₂, hent⟩ := link_freelist_spec hp₁ (num_buffers size) hcap
  have hp₂ : w₂.Page base := ⟨by rw [hin₂.mapped]; exact hp₁.1, hp.2⟩
  -- the loop writes entries, and the header fields are those stamped before it
  have hf₂ : ∀ f, w₂.field base f = (w.stamp base size alignment).field base f := fun f =>
    field_congr fun a h1 h2 => hin₂.mem a (by omega)
  have hrun := prepare_slab_header_run hn hcap hp hhi (by omega) hp₂ hloop (by rw [hf₂, hbuf])
  obtain ⟨hstart, hstop, hmax, hall⟩ := seal_fields (w := w₂) hn hcap hhi
  have hkeep : ∀ f, f ≠ .freelist_start_index → f ≠ .freelist_end_index → f ≠ .max_refs →
      f ≠ .allocable_buffer → (w₂.seal base (num_buffers size)).field base f
        = (w.stamp base size alignment).field base f := fun f h1 h2 h3 h4 => by
    rw [field_seal h1 h2 h3 h4, hf₂]
  have horder : (Slots.init (Shape.of size hn).cap).order = List.range' 0 (num_buffers size) := by
    rw [Slots.init_order, List.range_eq_range']
    rfl
  refine ⟨_, hrun, ?_, ?_, ?_, ?_⟩
  · refine ⟨hp₂, hlo, hhi, ?_, ?_, ?_, ?_, ?_, ?_, ?_, ?_, ?_, ?_, ?_⟩
    · rw [hkeep _ (by decide) (by decide) (by decide) (by decide), hmagic]
    · rw [hkeep _ (by decide) (by decide) (by decide) (by decide), hsz]
      rfl
    · rw [hkeep _ (by decide) (by decide) (by decide) (by decide), hcount]
      rfl
    · rw [hmax]
      rfl
    · rw [hkeep _ (by decide) (by decide) (by decide) (by decide), hbuf]
    · rw [hall]
      rfl
    · rw [hstart, horder, show num_buffers size = num_buffers size - 1 + 1 by omega,
        List.range'_succ, List.headD_cons]
    · rw [hstop, horder, show num_buffers size = num_buffers size - 1 + 1 by omega,
        List.range'_concat, List.getLastD_concat]
      omega
    · rw [horder]
      refine links_range' (fun _ => ⟨?_, ?_⟩) (fun i _ h2 => ?_)
      · rw [prev_seal, if_pos rfl]
      · rw [next_seal, if_pos (by omega)]
      · rw [next_seal, prev_seal, if_neg (by omega), if_neg (by omega),
          (hent i (by omega)).1, (hent (i + 1) (by omega)).2.1]
        exact ⟨rfl, by omega⟩
    · intro i hi
      rw [free_seal]
      exact (hent i (List.mem_range.mp hi)).2.2
    · intro i hi
      simp [Slots.init] at hi
  · exact (within_stamp.mono (le_refl _) (by omega)).trans
      ((hin₂.mono (by omega) (le_refl _)).trans (within_seal hn))
  · rw [hkeep _ (by decide) (by decide) (by decide) (by decide), hnx]
  · rw [hkeep _ (by decide) (by decide) (by decide) (by decide), hpv]

end SlabAllocator
