/-
The slab list of a pool, as `slab_pool.c` moves it about.

A `Chain` is a list of mapped pages whose `next` and `prev` fields link them in
order. The three surgeries of the file are then statements about chains: moving
a slab to the end, moving one to the start and dropping the first. Each proof
runs the code once, to a fixed sequence of stores, reads off what the two links
of an arbitrary slab are afterwards, and hands that to the corresponding move of
`DoublyLinked`. The conditionals on `NULL` are where the moved slab stands at an
end of the list.

`LinkWrites` is the frame: nothing but the two link fields of the slabs of the
list is written, so the slabs themselves stay what they are.
-/
import SlabAllocator.Pool
import SlabAllocator.SlabOps

set_option autoImplicit false

open DoublyLinked

namespace SlabAllocator

/-! ## Writing links -/

/-- `w'` differs from `w` in the links of the slabs `bs` at most. -/
structure LinkWrites (bs : List ℕ) (w w' : World) : Prop where
  mem : ∀ a, (∀ b ∈ bs, a < b + 48 ∨ b + 64 ≤ a) → w'.mem a = w.mem a
  mapped : w'.mapped = w.mapped
  heap : w'.heap = w.heap
  calls : w'.calls = w.calls

namespace LinkWrites

variable {bs bs' : List ℕ} {b v : ℕ} {w w₁ w₂ : World}

theorem refl : LinkWrites bs w w := ⟨fun _ _ => rfl, rfl, rfl, rfl⟩

theorem trans (h : LinkWrites bs w w₁) (h' : LinkWrites bs w₁ w₂) : LinkWrites bs w w₂ :=
  ⟨fun a ha => (h'.mem a ha).trans (h.mem a ha), h'.mapped.trans h.mapped, h'.heap.trans h.heap,
    h'.calls.trans h.calls⟩

theorem mono (h : LinkWrites bs w w₁) (hs : ∀ b ∈ bs, b ∈ bs') : LinkWrites bs' w w₁ :=
  ⟨fun a ha => h.mem a fun b hb => ha b (hs b hb), h.mapped, h.heap, h.calls⟩

theorem setNext (h : LinkWrites bs w w₁) (hb : b ∈ bs) :
    LinkWrites bs w (w₁.setField b .next v) := by
  refine ⟨fun a ha => ?_, h.mapped, h.heap, h.calls⟩
  have := ha b hb
  rw [setField_mem (by simp only [SlabField.offset, SlabField.width]; omega), h.mem a ha]

theorem setPrev (h : LinkWrites bs w w₁) (hb : b ∈ bs) :
    LinkWrites bs w (w₁.setField b .prev v) := by
  refine ⟨fun a ha => ?_, h.mapped, h.heap, h.calls⟩
  have := ha b hb
  rw [setField_mem (by simp only [SlabField.offset, SlabField.width]; omega), h.mem a ha]

theorem page (h : LinkWrites bs w w₁) (hp : w.Page b) : w₁.Page b :=
  ⟨by rw [h.mapped]; exact hp.1, hp.2⟩

/-- Slabs stay what they are. -/
theorem rep {g : Shape} {s : Slots g.cap} (h : LinkWrites bs w w₁) (hr : Rep w g b s)
    (hal : ∀ x ∈ bs, x % 4096 = 0) : Rep w₁ g b s := by
  have hcap := g.cap_le
  have hb := hr.page.2
  refine hr.congr (h.page hr.page) fun a h1 h2 h3 => h.mem a fun x hx => ?_
  have := hal x hx
  omega

end LinkWrites

/-! ## Chains of slabs -/

/-- The pages `bs` are mapped and doubly linked in order. -/
structure Chain (w : World) (bs : List ℕ) : Prop where
  page : ∀ b ∈ bs, w.Page b
  low : ∀ b ∈ bs, 4096 ≤ b
  high : ∀ b ∈ bs, b + 4096 ≤ 2 ^ 64
  nodup : bs.Nodup
  links : Links (w.field · .next) (w.field · .prev) NULL bs NULL

namespace Chain

variable {w w' : World} {bs : List ℕ} {b : ℕ}

theorem aligned (h : Chain w bs) : ∀ b ∈ bs, b % 4096 = 0 := fun b hb => (h.page b hb).2

theorem ne_null (h : Chain w bs) (hb : b ∈ bs) : b ≠ NULL := by
  have := h.low b hb
  unfold NULL
  omega

theorem lt (h : Chain w bs) (hb : b ∈ bs) : b < 2 ^ 64 := by
  have := h.high b hb
  omega

/-- Reordering the pages of a chain and linking them anew. -/
theorem relink {bs' : List ℕ} (h : Chain w bs) (hperm : bs'.Perm bs) (hw : LinkWrites bs w w')
    (hl : Links (w'.field · .next) (w'.field · .prev) NULL bs' NULL) : Chain w' bs' :=
  ⟨fun b hb => hw.page (h.page b (hperm.mem_iff.mp hb)), fun b hb => h.low b (hperm.mem_iff.mp hb),
    fun b hb => h.high b (hperm.mem_iff.mp hb), hperm.nodup_iff.mpr h.nodup, hl⟩

/-- The other slabs of a chain are not this one. -/
theorem ne_of_mem_rest {l r : List ℕ} {s y : ℕ} (h : Chain w (l ++ s :: r)) (hy : y ∈ l ++ r) :
    y ≠ s := by
  rintro rfl
  obtain ⟨-, h2, h3⟩ := List.nodup_append.mp h.nodup
  rcases List.mem_append.mp hy with hy | hy
  · exact h3 y hy y List.mem_cons_self rfl
  · exact (List.nodup_cons.mp h2).1 hy

end Chain

/-! ## Moving a slab to the end -/

/-- The stores that take slab `s`, between `p` and `n`, behind the last slab `e`. -/
def World.toEnd (w : World) (s p n e : ℕ) : World :=
  let w₁ := if p = NULL then w.setField n .prev NULL
    else (w.setField p .next n).setField n .prev p
  ((w₁.setField e .next s).setField s .prev e).setField s .next NULL

section ToEnd

variable {w : World} {s p n e y : ℕ}

theorem next_toEnd (hs : s % 4096 = 0) (hp : p ≠ NULL → p % 4096 = 0) (hn : n % 4096 = 0)
    (he : e % 4096 = 0) (hy : y % 4096 = 0) (hs64 : s < 2 ^ 64) (hn64 : n < 2 ^ 64) :
    (w.toEnd s p n e).field y .next = if y = s then NULL else if y = e then s
      else if p ≠ NULL ∧ y = p then n else w.field y .next := by
  have hs' : s % 256 ^ 8 = s := Nat.mod_eq_of_lt hs64
  have hn' : n % 256 ^ 8 = n := Nat.mod_eq_of_lt hn64
  unfold World.toEnd
  by_cases hpn : p = NULL
  · simp only [hpn, if_true, field_setField_slab, hs, hn, he, hy, SlabField.width, reduceCtorEq,
      and_false, and_true, if_false, hs', Nat.zero_mod, ne_eq, not_true_eq_false, false_and]
  · simp only [hpn, if_false, field_setField_slab, hs, hp hpn, hn, he, hy, SlabField.width,
      reduceCtorEq, and_false, and_true, hs', hn', Nat.zero_mod, ne_eq, not_false_eq_true,
      true_and]

theorem prev_toEnd (hs : s % 4096 = 0) (hp : p ≠ NULL → p % 4096 = 0) (hn : n % 4096 = 0)
    (he : e % 4096 = 0) (hy : y % 4096 = 0) (hp64 : p < 2 ^ 64) (he64 : e < 2 ^ 64) :
    (w.toEnd s p n e).field y .prev = if y = s then e else if y = n then p
      else w.field y .prev := by
  have hp' : p % 256 ^ 8 = p := Nat.mod_eq_of_lt hp64
  have he' : e % 256 ^ 8 = e := Nat.mod_eq_of_lt he64
  unfold World.toEnd
  by_cases hpn : p = NULL
  · simp only [hpn, if_true, field_setField_slab, hs, hn, he, hy, SlabField.width, reduceCtorEq,
      and_false, and_true, if_false, he', Nat.zero_mod]
  · simp only [hpn, if_false, field_setField_slab, hs, hp hpn, hn, he, hy, SlabField.width,
      reduceCtorEq, and_false, and_true, hp', he']

theorem linkWrites_toEnd {bs : List ℕ} (hs : s ∈ bs) (hp : p ≠ NULL → p ∈ bs) (hn : n ∈ bs)
    (he : e ∈ bs) : LinkWrites bs w (w.toEnd s p n e) := by
  unfold World.toEnd
  refine .setNext (.setPrev (.setNext ?_ he) hs) hs
  split
  · exact .setPrev .refl hn
  · rename_i hpn
    exact .setPrev (.setNext .refl (hp hpn)) hn

/-- Running the move of a slab that is not the last one. -/
theorem move_slab_to_end_run {pool : slab_pool} (hs : w.Page s) (hprev : w.field s .prev = p)
    (hnext : w.field s .next = n) (hn0 : n ≠ NULL) (hp : p ≠ NULL → w.Page p) (hn : w.Page n)
    (he : w.Page e) (hend : pool.list_end = e) :
    move_slab_to_end_of_the_list pool s w = .ok
      ({ pool with list_start := if p = NULL then n else pool.list_start, list_end := s },
        w.toEnd s p n e) := by
  unfold move_slab_to_end_of_the_list World.toEnd
  by_cases hpn : p = NULL
  · simp only [slab_get_bind, slab_set_bind, page_setField, hs, hprev, hnext, hn0, hn, he, hend,
      hpn, if_true, if_false, ite_run, pure_bind_run, pure_run]
  · simp only [slab_get_bind, slab_set_bind, page_setField, hs, hprev, hnext, hn0, hn, he, hend,
      hp hpn, hpn, if_false, ite_run, pure_bind_run, pure_run]

end ToEnd

/-- **`move_slab_to_end_of_the_list`**: the slab becomes the last one, whether it was the
first, the last, the only one or in the middle. -/
theorem move_slab_to_end_spec {w : World} (pool : slab_pool) {l r : List ℕ} {s : ℕ}
    (h : Chain w (l ++ s :: r)) (hstart : pool.list_start = (l ++ s :: r).headD NULL)
    (hend : pool.list_end = (l ++ s :: r).getLastD NULL) :
    ∃ w', move_slab_to_end_of_the_list pool s w = .ok
        ({ pool with list_start := (l ++ r ++ [s]).headD NULL, list_end := s }, w')
      ∧ Chain w' (l ++ r ++ [s]) ∧ LinkWrites (l ++ s :: r) w w' := by
  have hsm : s ∈ l ++ s :: r := by simp
  have hlinks := h.links
  obtain ⟨-, ⟨hprev, hnext⟩, -⟩ := links_mid.mp hlinks
  rcases eq_or_ne r [] with rfl | hr
  · -- it is the last one already
    refine ⟨w, ?_, by rwa [List.append_nil], .refl⟩
    rw [List.getLastD_concat] at hend
    unfold move_slab_to_end_of_the_list
    simp only [slab_get_bind, h.page s hsm, hnext, List.headD_nil, if_true, ite_run, pure_run]
    rw [List.append_nil, ← hstart, ← hend]
  · have hrm : ∀ y ∈ r, y ∈ l ++ s :: r := fun y hy => by simp [hy]
    have hlm : ∀ y ∈ l, y ∈ l ++ s :: r := fun y hy => by simp [hy]
    have hn := hrm _ (headD_mem (d := NULL) hr)
    have he := hrm _ (getLastD_mem (d := NULL) hr)
    have hp : l.getLastD NULL ≠ NULL → l.getLastD NULL ∈ l := by
      intro hne
      refine getLastD_mem ?_
      rintro rfl
      exact hne rfl
    have hend' : pool.list_end = r.getLastD NULL := by
      obtain ⟨t, a, rfl⟩ := (List.eq_nil_or_concat' r).resolve_left hr
      rw [hend, ← List.cons_append, ← List.append_assoc, List.getLastD_concat,
        List.getLastD_concat]
    have hp64 : l.getLastD NULL < 2 ^ 64 := by
      by_cases hpn : l.getLastD NULL = NULL
      · rw [hpn]
        decide
      · exact h.lt (hlm _ (hp hpn))
    have hal := h.aligned
    have hpal : l.getLastD NULL ≠ NULL → l.getLastD NULL % 4096 = 0 := fun hne =>
      hal _ (hlm _ (hp hne))
    have hN : ∀ y ∈ l ++ s :: r, _ := fun y hy => next_toEnd (w := w) (hal s hsm) hpal (hal _ hn)
      (hal _ he) (hal y hy) (h.lt hsm) (h.lt hn)
    have hP : ∀ y ∈ l ++ s :: r, _ := fun y hy => prev_toEnd (w := w) (hal s hsm) hpal (hal _ hn)
      (hal _ he) (hal y hy) hp64 (h.lt he)
    have hrun := move_slab_to_end_run (h.page s hsm) hprev hnext
      (h.ne_null hn) (fun hne => h.page _ (hlm _ (hp hne))) (h.page _ hn) (h.page _ he) hend'
    have hw := linkWrites_toEnd (w := w) hsm (fun hne => hlm _ (hp hne)) hn he
    have hfirst : (if l.getLastD NULL = NULL then r.headD NULL else pool.list_start)
        = (l ++ r ++ [s]).headD NULL := by
      rcases l with _ | ⟨a, l⟩
      · obtain ⟨b, r', rfl⟩ := List.exists_cons_of_ne_nil hr
        rfl
      · rw [if_neg (h.ne_null (hlm _ (getLastD_mem (by simp)))), hstart]
        rfl
    refine ⟨_, by rw [hrun, hfirst], h.relink ?_ hw ?_, hw⟩
    · rw [List.append_assoc]
      exact (List.perm_append_singleton s r).append_left l
    · have hsl : ∀ y ∈ l ++ r, y ≠ s := fun y hy => h.ne_of_mem_rest hy
      have hlr : ∀ y ∈ l ++ r, y ∈ l ++ s :: r := fun y hy =>
        (List.mem_append.mp hy).elim (hlm y) (hrm y)
      have hdisj : ∀ a ∈ l, ∀ b ∈ r, a ≠ b := fun a ha b hb =>
        (List.nodup_append.mp h.nodup).2.2 a ha b (List.mem_cons_of_mem s hb)
      have hrs : ∀ y ∈ r, y ≠ s := fun y hy => hsl y (List.mem_append_right l hy)
      refine hlinks.to_back h.nodup hr ?_ ?_ ?_ ?_ ?_ ?_ ?_
      · rw [hN s hsm, if_pos rfl]
      · rw [hP s hsm, if_pos rfl]
      · rw [hP _ hn, if_neg (hrs _ (headD_mem hr)), if_pos rfl]
      · rw [hN _ he, if_neg (hrs _ (getLastD_mem hr)), if_pos rfl]
      · rintro a l' rfl
        have ham : a ∈ l' ++ [a] := by simp
        rw [hN a (hlm a ham), if_neg (hsl a (List.mem_append_left r ham)),
          if_neg (hdisj a ham _ (getLastD_mem hr)), if_pos]
        rw [List.getLastD_concat]
        exact ⟨h.ne_null (hlm a ham), rfl⟩
      · intro y hy hyn
        rw [hP y (hlr y hy), if_neg (hsl y hy), if_neg hyn]
      · intro y hy hye hyl
        rw [hN y (hlr y hy), if_neg (hsl y hy), if_neg hye, if_neg]
        rintro ⟨hpn, rfl⟩
        have hl : l ≠ [] := by
          rintro rfl
          exact hpn rfl
        obtain ⟨l', a, he'⟩ := (List.eq_nil_or_concat' l).resolve_left hl
        refine hyl a l' he' ?_
        rw [he', List.getLastD_concat]

/-! ## Moving a slab to the start -/

/-- The stores that take slab `s`, between `p` and `n`, before the first slab `a`. -/
def World.toStart (w : World) (s p n a : ℕ) : World :=
  let w₁ := if n = NULL then w.setField p .next NULL
    else (w.setField p .next n).setField n .prev p
  ((w₁.setField s .next a).setField s .prev NULL).setField a .prev s

section ToStart

variable {w : World} {s p n a y : ℕ}

theorem next_toStart (hs : s % 4096 = 0) (hp : p % 4096 = 0) (hn : n ≠ NULL → n % 4096 = 0)
    (ha : a % 4096 = 0) (hy : y % 4096 = 0) (ha64 : a < 2 ^ 64) (hn64 : n < 2 ^ 64) :
    (w.toStart s p n a).field y .next = if y = s then a else if y = p then n
      else w.field y .next := by
  have ha' : a % 256 ^ 8 = a := Nat.mod_eq_of_lt ha64
  have hn' : n % 256 ^ 8 = n := Nat.mod_eq_of_lt hn64
  unfold World.toStart
  by_cases hnn : n = NULL
  · simp only [hnn, if_true, field_setField_slab, hs, hp, ha, hy, SlabField.width, reduceCtorEq,
      and_false, and_true, if_false, ha', Nat.zero_mod]
  · simp only [hnn, if_false, field_setField_slab, hs, hp, hn hnn, ha, hy, SlabField.width,
      reduceCtorEq, and_false, and_true, ha', hn']

theorem prev_toStart (hs : s % 4096 = 0) (hp : p % 4096 = 0) (hn : n ≠ NULL → n % 4096 = 0)
    (ha : a % 4096 = 0) (hy : y % 4096 = 0) (hs64 : s < 2 ^ 64) (hp64 : p < 2 ^ 64) :
    (w.toStart s p n a).field y .prev = if y = a then s else if y = s then NULL
      else if n ≠ NULL ∧ y = n then p else w.field y .prev := by
  have hs' : s % 256 ^ 8 = s := Nat.mod_eq_of_lt hs64
  have hp' : p % 256 ^ 8 = p := Nat.mod_eq_of_lt hp64
  unfold World.toStart
  by_cases hnn : n = NULL
  · simp only [hnn, if_true, field_setField_slab, hs, hp, ha, hy, SlabField.width, reduceCtorEq,
      and_false, and_true, if_false, hs', Nat.zero_mod, ne_eq, not_true_eq_false, false_and]
  · simp only [hnn, if_false, field_setField_slab, hs, hp, hn hnn, ha, hy, SlabField.width,
      reduceCtorEq, and_false, and_true, hs', hp', Nat.zero_mod, ne_eq, not_false_eq_true,
      true_and]

theorem linkWrites_toStart {bs : List ℕ} (hs : s ∈ bs) (hp : p ∈ bs) (hn : n ≠ NULL → n ∈ bs)
    (ha : a ∈ bs) : LinkWrites bs w (w.toStart s p n a) := by
  unfold World.toStart
  refine .setPrev (.setPrev (.setNext ?_ hs) hs) ha
  split
  · exact .setNext .refl hp
  · rename_i hnn
    exact .setPrev (.setNext .refl hp) (hn hnn)

/-- Running the move of a slab that is not the first one. -/
theorem move_slab_to_start_run {pool : slab_pool} (hs : w.Page s) (hprev : w.field s .prev = p)
    (hnext : w.field s .next = n) (hp : w.Page p) (hps : p ≠ s) (hsal : p % 4096 = 0)
    (hn : n ≠ NULL → w.Page n) (ha : w.Page a) (hstart : pool.list_start = a) (has : a ≠ s) :
    move_slab_to_start_of_the_list pool s w = .ok
      ({ pool with list_start := s, list_end := if n = NULL then p else pool.list_end },
        w.toStart s p n a) := by
  unfold move_slab_to_start_of_the_list World.toStart
  by_cases hnn : n = NULL
  · have hkeep : (w.setField p .next NULL).field s .prev = p := by
      rw [field_setField_slab hs.2 hsal, if_neg (fun h => hps h.1.symm), hprev]
    simp only [slab_get_bind, slab_set_bind, page_setField, hs, hprev, hnext, hp, ha, hstart, has,
      hnn, hkeep, if_true, if_false, ite_run, pure_bind_run, pure_run]
  · simp only [slab_get_bind, slab_set_bind, page_setField, hs, hprev, hnext, hp, ha, hstart, has,
      hn hnn, hnn, if_false, ite_run, pure_bind_run, pure_run]

end ToStart

/-- **`move_slab_to_start_of_the_list`**: the slab becomes the first one, wherever it was. -/
theorem move_slab_to_start_spec {w : World} (pool : slab_pool) {l r : List ℕ} {s : ℕ}
    (h : Chain w (l ++ s :: r)) (hstart : pool.list_start = (l ++ s :: r).headD NULL)
    (hend : pool.list_end = (l ++ s :: r).getLastD NULL) :
    ∃ w', move_slab_to_start_of_the_list pool s w = .ok
        ({ pool with list_start := s, list_end := (s :: (l ++ r)).getLastD NULL }, w')
      ∧ Chain w' (s :: (l ++ r)) ∧ LinkWrites (l ++ s :: r) w w' := by
  have hsm : s ∈ l ++ s :: r := by simp
  have hlinks := h.links
  obtain ⟨-, ⟨hprev, hnext⟩, -⟩ := links_mid.mp hlinks
  rcases eq_or_ne l [] with rfl | hl
  · -- it is the first one already
    refine ⟨w, ?_, h, .refl⟩
    unfold move_slab_to_start_of_the_list
    simp only [List.nil_append, List.headD_cons] at hstart hend ⊢
    simp only [slab_get_bind, h.page s hsm, hstart, if_true, pure_run]
    rw [← hend, ← hstart]
  · have hrm : ∀ y ∈ r, y ∈ l ++ s :: r := fun y hy => by simp [hy]
    have hlm : ∀ y ∈ l, y ∈ l ++ s :: r := fun y hy => by simp [hy]
    have ha := hlm _ (headD_mem (d := NULL) hl)
    have hp := hlm _ (getLastD_mem (d := NULL) hl)
    have hn : r.headD NULL ≠ NULL → r.headD NULL ∈ r := by
      intro hne
      refine headD_mem ?_
      rintro rfl
      exact hne rfl
    have hstart' : pool.list_start = l.headD NULL := by
      obtain ⟨b, t, rfl⟩ := List.exists_cons_of_ne_nil hl
      exact hstart
    have hn64 : r.headD NULL < 2 ^ 64 := by
      by_cases hnn : r.headD NULL = NULL
      · rw [hnn]
        decide
      · exact h.lt (hrm _ (hn hnn))
    have hal := h.aligned
    have hnal : r.headD NULL ≠ NULL → r.headD NULL % 4096 = 0 := fun hne =>
      hal _ (hrm _ (hn hne))
    have hsl : ∀ y ∈ l ++ r, y ≠ s := fun y hy => h.ne_of_mem_rest hy
    have hls : ∀ y ∈ l, y ≠ s := fun y hy => hsl y (List.mem_append_left r hy)
    have hN : ∀ y ∈ l ++ s :: r, _ := fun y hy => next_toStart (w := w) (hal s hsm) (hal _ hp)
      hnal (hal _ ha) (hal y hy) (h.lt ha) hn64
    have hP : ∀ y ∈ l ++ s :: r, _ := fun y hy => prev_toStart (w := w) (hal s hsm) (hal _ hp)
      hnal (hal _ ha) (hal y hy) (h.lt hsm) (h.lt hp)
    have hrun := move_slab_to_start_run (h.page s hsm) hprev hnext (h.page _ hp)
      (hls _ (getLastD_mem hl)) (hal _ hp) (fun hne => h.page _ (hrm _ (hn hne))) (h.page _ ha)
      hstart' (hls _ (headD_mem hl))
    have hw := linkWrites_toStart (w := w) hsm hp (fun hne => hrm _ (hn hne)) ha
    have hlast : (if r.headD NULL = NULL then l.getLastD NULL else pool.list_end)
        = (s :: (l ++ r)).getLastD NULL := by
      rw [List.getLastD_cons]
      rcases List.eq_nil_or_concat' r with rfl | ⟨r', b, rfl⟩
      · obtain ⟨t, b, rfl⟩ := (List.eq_nil_or_concat' l).resolve_left hl
        rw [List.headD_nil, if_pos rfl, List.append_nil, List.getLastD_concat,
          List.getLastD_concat]
      · rw [if_neg (h.ne_null (hrm _ (headD_mem (by simp)))), hend, ← List.append_assoc,
          ← List.cons_append, ← List.append_assoc, List.getLastD_concat, List.getLastD_concat]
    refine ⟨_, by rw [hrun, hlast], h.relink List.perm_middle.symm hw ?_, hw⟩
    have hlr : ∀ y ∈ l ++ r, y ∈ l ++ s :: r := fun y hy =>
      (List.mem_append.mp hy).elim (hlm y) (hrm y)
    have hdisj : ∀ a ∈ l, ∀ b ∈ r, a ≠ b := fun a ha b hb =>
      (List.nodup_append.mp h.nodup).2.2 a ha b (List.mem_cons_of_mem s hb)
    refine hlinks.to_front h.nodup hl ?_ ?_ ?_ ?_ ?_ ?_ ?_
    · rw [hN s hsm, if_pos rfl]
    · rw [hP s hsm, if_neg (hls _ (headD_mem hl)).symm, if_pos rfl]
    · rw [hN _ hp, if_neg (hls _ (getLastD_mem hl)), if_pos rfl]
    · rw [hP _ ha, if_pos rfl]
    · rintro b r' rfl
      have hbm : b ∈ b :: r' := List.mem_cons_self
      rw [hP b (hrm b hbm), if_neg (hdisj _ (headD_mem hl) b hbm).symm,
        if_neg (hsl b (List.mem_append_right l hbm)), if_pos]
      exact ⟨h.ne_null (hrm b hbm), rfl⟩
    · intro y hy hyp
      rw [hN y (hlr y hy), if_neg (hsl y hy), if_neg hyp]
    · intro y hy hya hyr
      rw [hP y (hlr y hy), if_neg hya, if_neg (hsl y hy), if_neg]
      rintro ⟨hnn, rfl⟩
      obtain ⟨b, r', he⟩ := List.exists_cons_of_ne_nil (l := r) (by rintro rfl; exact hnn rfl)
      refine hyr b r' he ?_
      rw [he, List.headD_cons]

/-! ## Dropping the first slab -/

/-- Unlinking the first slab of a list of several. -/
theorem drop_first_slab {w : World} {s n : ℕ} {r : List ℕ} (h : Chain w (s :: n :: r)) :
    Chain (w.setField n .prev NULL) (n :: r) := by
  have hnm : n ∈ s :: n :: r := by simp
  have hm : ∀ y ∈ n :: r, y ∈ s :: n :: r := fun y hy => List.mem_cons_of_mem s hy
  have hnd : (n :: r).Nodup := (List.nodup_cons.mp h.nodup).2
  have hP : ∀ y ∈ n :: r, (w.setField n .prev NULL).field y .prev
      = if y = n then NULL else w.field y .prev := by
    intro y hy
    rw [field_setField_slab (h.aligned y (hm y hy)) (h.aligned n hnm)]
    simp only [and_true, Nat.zero_mod]
  refine ⟨fun b hb => h.page b (hm b hb), fun b hb => h.low b (hm b hb),
    fun b hb => h.high b (hm b hb), hnd, h.links.drop_head hnd ?_ ?_ ?_⟩
  · intro a r' he
    cases he
    rw [hP n List.mem_cons_self, if_pos rfl]
  · intro y hy
    rw [field_setField_slab (h.aligned y (hm y hy)) (h.aligned n hnm), if_neg (by simp)]
  · intro y hy hyn
    rw [List.headD_cons] at hyn
    rw [hP y hy, if_neg hyn]

/-- The list once that slab is unmapped as well. -/
theorem Chain.drop_first {w w' : World} {s n : ℕ} {r : List ℕ} (h : Chain w (s :: n :: r))
    (hmem : w'.mem = (w.setField n .prev NULL).mem) (hmap : w'.mapped = w.mapped.erase s) :
    Chain w' (n :: r) := by
  have hch := drop_first_slab h
  have hf : ∀ b f, w'.field b f = (w.setField n .prev NULL).field b f := by
    intro b f
    unfold World.field
    rw [hmem]
  refine ⟨fun b hb => ?_, hch.low, hch.high, hch.nodup,
    hch.links.congr (fun b _ => hf b _) (fun b _ => hf b _)⟩
  have hp := h.page b (List.mem_cons_of_mem s hb)
  have hne : b ≠ s := fun he => (List.nodup_cons.mp h.nodup).1 (he ▸ hb)
  exact ⟨by rw [hmap]; exact (List.mem_erase_of_ne hne).mpr hp.1, hp.2⟩

/-! ## The last slab -/

/-- Following `next` from a slab of a chain ends at its last one. -/
theorem get_last_loop_spec {w : World} {q : ℕ} {bs : List ℕ} : ∀ {fuel p : ℕ},
    Links (w.field · .next) (w.field · .prev) p (q :: bs) NULL → (∀ b ∈ q :: bs, w.Page b) →
    NULL ∉ bs → bs.length < fuel →
    get_last_loop fuel q w = .ok ((q :: bs).getLastD NULL, w) := by
  induction bs generalizing q with
  | nil =>
      intro fuel p hl hp _ hf
      obtain ⟨fuel, rfl⟩ : ∃ k, fuel = k + 1 := ⟨fuel - 1, by omega⟩
      have hnext : w.field q .next = NULL := hl.2.1
      rw [get_last_loop, slab_get_bind (hp q List.mem_cons_self), hnext]
      rfl
  | cons b bs ih =>
      intro fuel p hl hp hn hf
      obtain ⟨fuel, rfl⟩ : ∃ k, fuel = k + 1 := ⟨fuel - 1, by omega⟩
      have hnext : w.field q .next = b := hl.2.1
      have hb : b ≠ NULL := fun he => hn (he ▸ List.mem_cons_self)
      rw [get_last_loop, slab_get_bind (hp q List.mem_cons_self), hnext, if_pos hb,
        ih hl.2.2 (fun x hx => hp x (List.mem_cons_of_mem q hx))
          (fun hm => hn (List.mem_cons_of_mem b hm)) (by simpa using hf), List.getLastD_cons,
        List.getLastD_cons, List.getLastD_cons]

/-- **`get_last_from_list`** finds the end of a chain. -/
theorem get_last_from_list_spec {w : World} {bs : List ℕ} (h : Chain w bs) (hne : bs ≠ [])
    (hlen : bs.length ≤ w.mapped.length) :
    get_last_from_list (bs.headD NULL) w = .ok (bs.getLastD NULL, w) := by
  obtain ⟨b, bs, rfl⟩ := List.exists_cons_of_ne_nil hne
  refine get_last_loop_spec h.links h.page (fun hm => ?_) hlen
  exact h.ne_null (List.mem_cons_of_mem b hm) rfl

end SlabAllocator
