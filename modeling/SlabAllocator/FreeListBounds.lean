/-
The free list is only ever indexed inside its array, for the sizes that have two
slots or more.

With two slots the entry handed out has a successor and the list never becomes
empty, so every index the code follows is one of the list. With one slot the
successor of the only entry is `NON_EXISTANT`, and `mem_slab_alloc` uses it as an
index and as the new start of the list. With none `prepare_slab_header` itself
writes past the array, because it takes both ends of an empty list for entries.
-/
import SlabAllocator.Traced
import SlabAllocator.SlabRuns
import SlabAllocator.PageLaws

set_option autoImplicit false

open DoublyLinked Runs

namespace SlabAllocator

/-! ## The entries of a computation -/

namespace Traced

section Indices

variable {α β : Type} {w w' : World} {slab array i v n : ℕ} {c : SlabField} {d : BufctlField}
  {a : α}

@[simp] theorem indices_pure : (pure a : Traced α).indices w = [] := rfl

theorem pure_bind {f : α → Traced β} : (pure a >>= f).indices w = (f a).indices w := rfl

/-- A computation that succeeds, and what follows it. -/
theorem indices_bind {x : Traced α} {f : α → Traced β} (h : x.run w = .ok (a, w')) :
    (x >>= f).indices w = x.indices w ++ (f a).indices w' := by
  unfold run at h
  rw [indices, bind_apply, indices]
  rcases hx : x w with ⟨is, r⟩
  rw [hx] at h
  simp only at h
  rw [h]
  rfl

/-- What a computation touches it has touched, whatever follows. -/
theorem indices_subset_bind {x : Traced α} {f : α → Traced β} (h : i ∈ x.indices w) :
    i ∈ (x >>= f).indices w := by
  rw [indices, bind_apply]
  rw [indices] at h
  rcases hx : x w with ⟨is, e | ⟨a, w'⟩⟩
  · rwa [hx] at h
  · rw [hx] at h
    exact List.mem_append_left _ h

/-- An entry that is touched is touched by one part or the other. -/
theorem mem_indices_bind {x : Traced α} {f : α → Traced β} (h : i ∈ (x >>= f).indices w) :
    i ∈ x.indices w ∨ ∃ a w', i ∈ (f a).indices w' := by
  rw [indices, bind_apply] at h
  rw [indices]
  rcases hx : x w with ⟨is, e | ⟨a, w'⟩⟩
  · rw [hx] at h
    exact .inl h
  · rw [hx] at h
    exact (List.mem_append.mp h).imp id fun h => ⟨a, w', h⟩

theorem untraced_bind {x : M α} {f : α → Traced β} (h : x w = .ok (a, w')) :
    (untraced x >>= f).indices w = (f a).indices w' := indices_bind h

theorem slab_get_bind {f : ℕ → Traced β} (hp : w.Page slab) :
    (slab_get slab c >>= f).indices w = (f (w.field slab c)).indices w :=
  untraced_bind (slab_get_ok hp c)

theorem slab_set_bind {f : Unit → Traced β} (hp : w.Page slab) :
    (slab_set slab c v >>= f).indices w = (f ()).indices (w.setField slab c v) :=
  untraced_bind (slab_set_ok hp c v)

theorem slab_set_indices : (slab_set slab c v).indices w = [] := rfl

theorem bufctl_get_bind {f : ℕ → Traced β} (h : w.Entry array i) :
    (bufctl_get array i d >>= f).indices w = i :: (f (w.buf array i d)).indices w :=
  indices_bind (bufctl_get_ok h d)

theorem bufctl_set_bind {f : Unit → Traced β} (h : w.Entry array i) :
    (bufctl_set array i d v >>= f).indices w = i :: (f ()).indices (w.setBuf array i d v) :=
  indices_bind (bufctl_set_ok h d v)

@[simp] theorem ite_indices {p : Prop} [Decidable p] (x y : Traced α) :
    (if p then x else y).indices w = if p then x.indices w else y.indices w := by
  split <;> rfl

/-- The loop touches the entries it links. -/
theorem link_freelist_lt : ∀ {n : ℕ} {w : World}, ∀ i ∈ (link_freelist array n).indices w, i < n
  | 0, w, i, hi => by simp [link_freelist] at hi
  | n + 1, w, i, hi => by
      rcases mem_indices_bind hi with hi | ⟨-, w₁, hi⟩
      · exact Nat.lt_succ_of_lt (link_freelist_lt i hi)
      -- the three stores into entry `n`
      rcases mem_indices_bind hi with hi | ⟨-, w₂, hi⟩
      · exact (List.mem_singleton.mp hi) ▸ Nat.lt_succ_self n
      rcases mem_indices_bind hi with hi | ⟨-, w₃, hi⟩
      · exact (List.mem_singleton.mp hi) ▸ Nat.lt_succ_self n
      · exact (List.mem_singleton.mp hi) ▸ Nat.lt_succ_self n

end Indices

end Traced

/-! ## The entries of each function -/

section Functions

variable {w : World} {slab ptr f b e x p q a n i : ℕ} {size alignment : Int32}

/-- The entries of an allocation: the slot itself, its successor and the end of the list. -/
theorem mem_slab_alloc_indices (hp : w.Page slab)
    (hbuf : w.field slab .freelist_buffer = slab + 64)
    (hstart : w.field slab .freelist_start_index = f)
    (hend : w.field slab .freelist_end_index = e)
    (hfree : w.buf (slab + 64) f .is_free = SLOT_FREE)
    (hnext : w.buf (slab + 64) f .next_index = b)
    (hprev : w.buf (slab + 64) f .prev_index = NON_EXISTANT)
    (hf : w.Entry (slab + 64) f) (hb : w.Entry (slab + 64) b) (he : w.Entry (slab + 64) e) :
    (Traced.mem_slab_alloc slab).indices w = [f, f, f, b, e, f, f, f] := by
  unfold Traced.mem_slab_alloc
  simp only [Traced.slab_get_bind, Traced.slab_set_bind, Traced.bufctl_get_bind,
    Traced.bufctl_set_bind, Traced.indices_pure, page_setField, page_setBuf, entry_setField,
    entry_setBuf, hp, hbuf, hstart, hf, hb, he, hend, hnext, hprev, hfree, ne_eq,
    not_true_eq_false, if_false, field_setBuf, buf_setField, field_setField_ne, reduceCtorEq,
    not_false_eq_true, if_true]

/-- On a full slab only the first entry is read. -/
theorem mem_slab_alloc_busy_indices (hp : w.Page slab)
    (hbuf : w.field slab .freelist_buffer = slab + 64)
    (hstart : w.field slab .freelist_start_index = f) (hf : w.Entry (slab + 64) f)
    (hbusy : w.buf (slab + 64) f .is_free ≠ SLOT_FREE) :
    (Traced.mem_slab_alloc slab).indices w = [f] := by
  unfold Traced.mem_slab_alloc
  simp only [Traced.slab_get_bind, Traced.bufctl_get_bind, Traced.indices_pure, hp, hbuf, hstart,
    hf, hbusy, ne_eq, not_false_eq_true, if_true]

/-- An allocation writes to the successor of the first free slot, whatever that is. -/
theorem successor_mem_indices (hp : w.Page slab)
    (hbuf : w.field slab .freelist_buffer = slab + 64)
    (hstart : w.field slab .freelist_start_index = f)
    (hfree : w.buf (slab + 64) f .is_free = SLOT_FREE)
    (hnext : w.buf (slab + 64) f .next_index = b)
    (hprev : w.buf (slab + 64) f .prev_index = NON_EXISTANT) (hf : w.Entry (slab + 64) f) :
    b ∈ (Traced.mem_slab_alloc slab).indices w := by
  unfold Traced.mem_slab_alloc
  simp only [Traced.slab_get_bind, Traced.slab_set_bind, Traced.bufctl_get_bind, entry_setField,
    hp, hbuf, hstart, hf, hnext, hprev, hfree, ne_eq, not_true_eq_false, if_false, buf_setField,
    if_true, List.mem_cons]
  refine .inr (.inr (.inr ?_))
  exact Traced.indices_subset_bind (List.mem_singleton.mpr rfl)

/-- The entries of a release: the slot itself, its neighbours where it has them, and the
start of the list. -/
theorem mem_slab_dealloc_indices_lt (hp : w.Page slab)
    (hbuf : w.field slab .freelist_buffer = slab + 64)
    (hidx : get_buffer_index_from_ptr slab ptr w = .ok (x, w))
    (hentry : ∀ i < n, w.Entry (slab + 64) i) (hx : x < n)
    (hstart : w.field slab .freelist_start_index = a) (ha : a < n)
    (hprev : w.buf (slab + 64) x .prev_index = p) (hpn : x ≠ a → p < n)
    (hnext : w.buf (slab + 64) x .next_index = q) (hqn : q ≠ NON_EXISTANT → q < n) :
    ∀ i ∈ (Traced.mem_slab_dealloc slab ptr).indices w, i < n := by
  have hget : ∀ k : ℕ → Traced Unit, (Traced.get_buffer_index_from_ptr slab ptr >>= k).indices w
      = (k x).indices w := fun k => Traced.untraced_bind hidx
  obtain ⟨w₁, hw₁⟩ : ∃ w₁, w₁ = w.release slab x := ⟨_, rfl⟩
  have hp₁ : w₁.Page slab := hw₁ ▸ hp
  have hentry₁ : ∀ i < n, w₁.Entry (slab + 64) i := hw₁ ▸ hentry
  have hstart₁ : w₁.field slab .freelist_start_index = a := by
    rw [hw₁, field_release (by decide), hstart]
  have hprev₁ : w₁.buf (slab + 64) x .prev_index = p := by rw [hw₁, prev_release, hprev]
  have hnext₁ : w₁.buf (slab + 64) x .next_index = q := by rw [hw₁, next_release, hnext]
  have hrel : (w.setField slab .ref_count
      (size_t_of_int ((w.field slab .ref_count : ℤ) - 1))).setBuf (slab + 64) x .is_free SLOT_FREE
      = w₁ := hw₁.symm
  unfold Traced.mem_slab_dealloc
  rw [Traced.slab_get_bind hp, hbuf, hget, Traced.slab_get_bind hp, Traced.slab_set_bind hp,
    Traced.bufctl_set_bind (entry_setField.mpr (hentry x hx)), hrel]
  simp only [Traced.slab_get_bind, Traced.bufctl_get_bind, hp₁, hentry₁ x hx, hstart₁, hprev₁,
    hnext₁, Traced.ite_indices, Traced.indices_pure, List.forall_mem_cons, hx, true_and]
  by_cases hxa : x = a
  · rw [if_pos hxa]
    simp
  have hp' := hpn hxa
  have hpe := hentry₁ p hp'
  have hx₁ := hentry₁ x hx
  have ha₁ := hentry₁ a ha
  simp only [hxa, if_false, Traced.bufctl_get_bind hpe, Traced.ite_indices, Traced.indices_pure,
    List.forall_mem_cons, hp', true_and]
  by_cases hflag : w₁.buf (slab + 64) p .is_free = SLOT_FREE
  · rw [if_pos hflag]
    simp
  · -- the neighbours, then the slot itself and the start of the list
    rw [if_neg hflag]
    by_cases hqn' : q = NON_EXISTANT
    · by_cases hex : w₁.field slab .freelist_end_index = x
      all_goals
        simp only [hqn', hex, if_true, if_false, Traced.slab_get_bind, Traced.slab_set_bind,
          Traced.bufctl_set_bind, Traced.slab_set_indices, page_setField, page_setBuf,
          entry_setField, entry_setBuf, hp₁, hx₁, ha₁, hpe, hstart₁, field_setBuf,
          field_setField_ne, ne_eq, reduceCtorEq, not_false_eq_true, List.forall_mem_cons, hx, hp',
          ha, List.not_mem_nil, false_imp_iff, implies_true, and_self]
    · have hq' := hqn hqn'
      have hqe := hentry₁ q hq'
      by_cases hex : w₁.field slab .freelist_end_index = x
      all_goals
        simp only [hqn', hex, if_true, if_false, Traced.slab_get_bind, Traced.slab_set_bind,
          Traced.bufctl_set_bind, Traced.slab_set_indices, page_setField, page_setBuf,
          entry_setField, entry_setBuf, hp₁, hx₁, ha₁, hpe, hqe, hstart₁, field_setBuf,
          field_setField_ne, ne_eq, reduceCtorEq, not_false_eq_true, List.forall_mem_cons, hx, hp',
          hq', ha, List.not_mem_nil, false_imp_iff, implies_true, and_self]

/-- A prepared page is linked through its own entries, and both ends are entries. -/
theorem prepare_slab_header_indices_lt (hn : 1 ≤ num_buffers size) (hp : w.Page slab)
    (hhi : slab + 4096 ≤ 2 ^ 64) :
    ∀ i ∈ (Traced.prepare_slab_header slab size alignment).indices w, i < num_buffers size := by
  have hcap : num_buffers size ≤ 806 := (Shape.of size hn).cap_le
  have hsize : size_t_of_int size.toInt ≤ 806 := (Shape.of size hn).size_le
  obtain ⟨-, -, -, hbuf, -⟩ := stamp_fields slab w alignment (by omega)
    (show size_t_of_int size.toInt < 2 ^ 64 by omega)
  have hp₁ : (w.stamp slab size alignment).Page slab := hp
  obtain ⟨w₂, hloop, hin₂, -⟩ := link_freelist_spec hp₁ (num_buffers size) hcap
  have hp₂ : w₂.Page slab := ⟨by rw [hin₂.mapped]; exact hp₁.1, hp.2⟩
  have hfirst : w₂.Entry (slab + 64) 0 := hp₂.entry (by norm_num)
  have hfit : w₂.Entry (slab + 64) (num_buffers size - 1) := hp₂.entry (by omega)
  have hloop' : (Traced.link_freelist (slab + 64) (num_buffers size)).run
      (w.stamp slab size alignment) = .ok ((), w₂) := by
    rw [Traced.run_link_freelist]
    exact hloop
  have hstamp : ((((((w.setField slab .slab_magic SLAB_MAGIC_NUMBER).setField slab .ref_count
      0).setField slab .size (size_t_of_int size.toInt)).setField slab .alignment
      (size_t_of_int alignment.toInt)).setField slab .freelist_buffer (slab + 64)).setField slab
      .next NULL).setField slab .prev NULL = w.stamp slab size alignment := rfl
  unfold Traced.prepare_slab_header sizeof_mem_slab
  simp only [Traced.slab_set_bind, page_setField, hp, hstamp, slot_cost_ne_zero hn, if_false]
  rw [Traced.slab_get_bind hp₁, hbuf, Traced.indices_bind hloop']
  intro i hi
  rcases List.mem_append.mp hi with hi | hi
  · exact Traced.link_freelist_lt i hi
  · simp only [Traced.slab_get_bind, Traced.slab_set_bind, Traced.bufctl_set_bind,
      Traced.slab_set_indices, page_setField, page_setBuf, entry_setField, entry_setBuf, hp₂,
      field_setBuf, field_setField_same, field_setField_ne, ne_eq, reduceCtorEq, not_false_eq_true,
      SlabField.width, Nat.zero_mod, last_index hn hcap, hfirst, hfit, List.mem_cons,
      List.not_mem_nil, or_false] at hi
    omega

end Functions

/-! ## The entries of a call on a slab -/

section Slabs

variable {w : World} {g : Shape} {base x : ℕ} {s : Slots g.cap}

/-- Both ends of the list are slots. -/
theorem Rep.ends_lt (h : Rep w g base s) : w.field base .freelist_start_index < g.cap
    ∧ w.field base .freelist_end_index < g.cap := by
  rw [h.start, h.stop]
  exact ⟨Slots.mem_order.mp (headD_mem s.order_ne_nil),
    Slots.mem_order.mp (getLastD_mem s.order_ne_nil)⟩

/-- An allocation from a slab with two slots or more touches entries of slots only. -/
theorem Rep.alloc_indices_lt (h : Rep w g base s) (h2 : 2 ≤ g.cap) :
    ∀ i ∈ (Traced.mem_slab_alloc base).indices w, i < g.cap := by
  obtain ⟨hstart, hstop⟩ := h.ends_lt
  rcases hfree : s.free with _ | ⟨f, F⟩
  · have hord : s.order = s.busy := by rw [Slots.order, hfree, List.nil_append]
    have hbusy : w.buf (base + 64) (w.field base .freelist_start_index) .is_free ≠ SLOT_FREE := by
      have hmem : s.order.headD NON_EXISTANT ∈ s.busy := hord ▸ headD_mem s.order_ne_nil
      rw [h.start, h.busy _ hmem]
      decide
    rw [mem_slab_alloc_busy_indices h.page h.freelist_buffer rfl (h.entry hstart) hbusy]
    simpa using hstart
  · have hord : s.order = f :: (F ++ s.busy) := by rw [Slots.order, hfree, List.cons_append]
    have hne : F ++ s.busy ≠ [] := Slots.rest_ne_nil hfree h2
    have hlinks := h.links
    rw [hord, links_cons] at hlinks
    obtain ⟨hprev, hnext, -⟩ := hlinks
    have hfirst : w.field base .freelist_start_index = f := by rw [h.start, hord, List.headD_cons]
    have hf : f < g.cap := hfirst ▸ hstart
    have hflag := h.free f (by rw [hfree]; exact List.mem_cons_self)
    -- the second slot of the list is the successor of the first
    have hb : (F ++ s.busy).headD NON_EXISTANT < g.cap :=
      Slots.mem_order.mp (by rw [hord]; exact List.mem_cons_of_mem _ (headD_mem hne))
    rw [mem_slab_alloc_indices h.page h.freelist_buffer hfirst rfl hflag hnext hprev (h.entry hf)
      (h.entry hb) (h.entry hstop)]
    simp only [List.forall_mem_cons, hf, hb, hstop, List.not_mem_nil, false_imp_iff, implies_true,
      and_self]

/-- So does a release of a busy slot. -/
theorem Rep.dealloc_indices_lt (h : Rep w g base s) (hx : x ∈ s.busy) :
    ∀ i ∈ (Traced.mem_slab_dealloc base (g.slot base x)).indices w, i < g.cap := by
  obtain ⟨hstart, -⟩ := h.ends_lt
  have hxn := Slots.busy_lt hx
  have hxo : x ∈ s.order := List.mem_append_right _ hx
  have hidx : get_buffer_index_from_ptr base (g.slot base x + 0) w = .ok (x, w) :=
    get_buffer_index_from_ptr_spec h.page h.high h.size h.allocable_buffer hxn g.size_pos
  rw [Nat.add_zero] at hidx
  refine mem_slab_dealloc_indices_lt h.page h.freelist_buffer hidx (fun i hi => h.entry hi) hxn
    rfl hstart rfl (fun hne => ?_) rfl fun hne => ?_
  · rw [h.start] at hne
    exact Slots.mem_order.mp (h.links.prev_mem hxo hne)
  · exact Slots.mem_order.mp ((h.links.next_mem hxo).resolve_left hne)

/-- The only slot of a slab is handed out with `NON_EXISTANT` for an index. -/
theorem Rep.nonExistant_touched (h : Rep w g base (Slots.init g.cap)) (h1 : g.cap = 1) :
    NON_EXISTANT ∈ (Traced.mem_slab_alloc base).indices w := by
  have hord : (Slots.init g.cap).order = [0] := by rw [Slots.init_order, h1, List.range_one]
  have hlinks := h.links
  rw [hord, links_cons] at hlinks
  obtain ⟨hprev, hnext, -⟩ := hlinks
  refine successor_mem_indices h.page h.freelist_buffer (f := 0) ?_ ?_ hnext hprev
    (h.entry g.cap_pos)
  · rw [h.start, hord, List.headD_cons]
  · exact h.free 0 (List.mem_range.mpr g.cap_pos)

end Slabs

/-! ## Runs -/

/-- The entries a call touches. -/
def SlabEvent.indices (slab : ℕ) (w : World) : SlabEvent → List ℕ
  | .alloc => (Traced.mem_slab_alloc slab).indices w
  | .dealloc p => (Traced.mem_slab_dealloc slab p).indices w

/-- The calls a program may make: it releases what it holds. -/
def SlabState.Allows (σ : SlabState) : SlabEvent → Prop
  | .alloc => True
  | .dealloc p => p ∈ σ.live

/-- Every index the three functions use on slabs of this size is below `max_refs`, and so
are the two ends of the list after every call. -/
def IndicesInRange (size : Int32) : Prop :=
  ∀ (alignment : Int32) (slab : ℕ) (w₀ : World), w₀.Page slab → slab ≠ NULL →
    slab + SLAB_PAGE_SIZE ≤ 2 ^ 64 →
    (∀ i ∈ (Traced.prepare_slab_header slab size alignment).indices w₀, i < num_buffers size)
    ∧ ∀ w₁ t σ, prepare_slab_header slab size alignment w₀ = .ok ((), w₁) →
      Run (SlabStep slab) ⟨w₁, []⟩ t σ →
        (σ.world.field slab .freelist_start_index < num_buffers size
          ∧ σ.world.field slab .freelist_end_index < num_buffers size)
        ∧ ∀ e, σ.Allows e → ∀ i ∈ e.indices slab σ.world, i < num_buffers size

/-- Two slots are enough. -/
theorem indicesInRange_of_two {size : Int32} (h2 : 2 ≤ num_buffers size) :
    IndicesInRange size := by
  intro alignment slab w₀ hpage hlow hhigh
  have hn : 1 ≤ num_buffers size := Nat.le_of_succ_le h2
  have hge : 4096 ≤ slab := by
    have hal := hpage.2
    unfold NULL at hlow
    omega
  refine ⟨prepare_slab_header_indices_lt hn hpage hhigh, fun w₁ t σ hprep hrun => ?_⟩
  obtain ⟨w', hok, hrep₁, -⟩ := prepare_slab_header_spec alignment hn hpage hge hhigh
  rw [hprep] at hok
  cases hok
  obtain ⟨s, hrep, hlive⟩ := hrun.always (P := SlabInv (Shape.of size hn) slab)
    ⟨_, hrep₁, List.Perm.refl _⟩ (fun _ _ _ hi hs => hi.step h2 hs)
  refine ⟨hrep.ends_lt, fun e he => ?_⟩
  cases e with
  | alloc => exact hrep.alloc_indices_lt h2
  | dealloc p =>
      obtain ⟨x, hx, rfl⟩ := List.mem_map.mp (hlive.mem_iff.mp he)
      exact hrep.dealloc_indices_lt hx

/-- With one slot the first allocation uses the end mark as an index. -/
theorem not_indicesInRange_of_one {size : Int32} (h1 : num_buffers size = 1) :
    ¬ IndicesInRange size := by
  intro hall
  have hn : 1 ≤ num_buffers size := h1.ge
  obtain ⟨w₁, hprep, hrep, -⟩ :=
    prepare_slab_header_spec 0 hn page_4096 (by decide) (by decide)
  obtain ⟨-, hcalls⟩ := hall 0 4096 _ page_4096 (by decide) (by decide)
  have hlt := (hcalls w₁ [] _ hprep .start).2 .alloc trivial NON_EXISTANT
    (hrep.nonExistant_touched h1)
  rw [h1] at hlt
  exact absurd hlt (by decide)

/-- With none the header itself is prepared through an entry that is not there. -/
theorem not_indicesInRange_of_zero {size : Int32} {n : ℕ} (hsize : size.toInt = n) (hn : 1 ≤ n)
    (h0 : num_buffers size = 0) : ¬ IndicesInRange size := by
  intro hall
  have hpage := page_4096
  have hlt := size.toInt_lt
  have hcost : slot_cost size ≠ 0 := by
    rw [slot_cost, hsize, size_t_of_int_natCast (by omega), sizeof_bufctl,
      Nat.mod_eq_of_lt (by omega)]
    omega
  have hmem : 0 ∈ (Traced.prepare_slab_header 4096 size 0).indices
      ⟨fun _ => 0, [4096], [], []⟩ := by
    unfold Traced.prepare_slab_header
    simp only [Traced.slab_get_bind, Traced.slab_set_bind, page_setField, hpage, hcost, if_false,
      h0, Traced.link_freelist, Traced.pure_bind]
    -- the start of the list was set to 0 two stores ago
    refine Traced.indices_subset_bind (List.mem_singleton.mpr ?_)
    rw [field_setField_ne (by decide), field_setField_same]
    rfl
  have hbad := (hall 0 4096 _ hpage (by decide) (by decide)).1 0 hmem
  rw [h0] at hbad
  exact absurd hbad (by decide)

/-- **Indices stay in range exactly for the sizes of at most 403 bytes**, of which two slots
or more fit by the formula of the code. -/
theorem indices_in_range_iff {size : Int32} (hpos : 0 < size.toInt) :
    IndicesInRange size ↔ size.toInt ≤ 403 := by
  obtain ⟨n, hn⟩ : ∃ n : ℕ, size.toInt = n := ⟨size.toInt.toNat, by omega⟩
  have hbuf := num_buffers_eq hn
  rw [hn]
  constructor
  · intro hall
    by_contra hgt
    have hle : num_buffers size < 2 := by
      rw [hbuf, Nat.div_lt_iff_lt_mul (by omega)]
      omega
    rcases Nat.eq_zero_or_pos (num_buffers size) with h0 | h1
    · exact not_indicesInRange_of_zero hn (by omega) h0 hall
    · exact not_indicesInRange_of_one (by omega) hall
  · intro hle
    refine indicesInRange_of_two ?_
    rw [hbuf, Nat.le_div_iff_mul_le (by omega)]
    omega

/-- The law for the largest size that is in range. -/
theorem indices_in_range_iff_403 : IndicesInRange 403 :=
  (indices_in_range_iff (by decide)).mpr (by decide)

/-- One more byte, and the first allocation writes to entry 65535. -/
theorem not_indicesInRange_404 : ¬ IndicesInRange 404 :=
  not_indicesInRange_of_one (by decide)

end SlabAllocator
