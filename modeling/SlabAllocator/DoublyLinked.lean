/-
Doubly linked sequences over arbitrary node names.

A doubly linked structure is two functions, `next` and `prev`, from nodes to
nodes. `Links next prev p xs q` says that the nodes of `xs` are chained in
order in both directions, that what stands before the first of them is `p` and
that what stands after the last is `q`. A whole list ended by a sentinel at
both sides is the case `p = q = nil`; leaving the two ends open is what makes
the predicate compose, because `xs ++ ys` is then two chains that name each
other's end (`links_append`).

Every pointer surgery a client performs is a change of a few links at the ends
of such pieces. `Links.ends` is the one induction: a chain survives any change
that touches only the link before its first node and the link after its last.
The moves (`Links.to_front`, `Links.to_back`), the removal of the first node
and the joining of two chains are that lemma applied to the pieces. They are
stated pointwise, on what the new `next` and `prev` answer, so that the order
in which a program writes its links does not matter.
-/
import Mathlib.Data.List.Basic
import Mathlib.Data.List.Nodup
import Mathlib.Data.List.Infix

set_option autoImplicit false

namespace DoublyLinked

variable {ι : Type*}

/-- The nodes of `xs` are chained in order by `next` and `prev`, between `p` and `q`. -/
def Links (next prev : ι → ι) : ι → List ι → ι → Prop
  | _, [], _ => True
  | p, x :: xs, q => prev x = p ∧ next x = xs.headD q ∧ Links next prev x xs q

section Structure

variable {next prev next' prev' : ι → ι} {p p' q q' : ι} {xs ys : List ι}

@[simp] theorem links_nil : Links next prev p [] q := trivial

theorem links_cons {x : ι} : Links next prev p (x :: xs) q
    ↔ prev x = p ∧ next x = xs.headD q ∧ Links next prev x xs q := Iff.rfl

/-- Two chains, each naming the other's end, are one. -/
theorem links_append : ∀ {p : ι} {xs : List ι}, Links next prev p (xs ++ ys) q
    ↔ Links next prev p xs (ys.headD q) ∧ Links next prev (xs.getLastD p) ys q := by
  intro p xs
  induction xs generalizing p with
  | nil => simp
  | cons x xs ih =>
      have hhead : (xs ++ ys).headD q = xs.headD (ys.headD q) := by cases xs <;> rfl
      rw [List.cons_append, links_cons, links_cons, ih, hhead, List.getLastD_cons]
      tauto

/-- A chain read at one of its nodes. -/
theorem links_mid {x : ι} {l r : List ι} : Links next prev p (l ++ x :: r) q
    ↔ Links next prev p l x ∧ (prev x = l.getLastD p ∧ next x = r.headD q)
      ∧ Links next prev x r q := by
  rw [links_append, links_cons, List.headD_cons]
  tauto

/-- **The change of ends.** A chain survives any change of links that leaves its
inner links alone; the link before its first node and the link after its last
may both be redirected. -/
theorem Links.ends (h : Links next prev p xs q)
    (hfirst : ∀ a l, xs = a :: l → prev' a = p')
    (hlast : ∀ a l, xs = l ++ [a] → next' a = q')
    (hp : ∀ y ∈ xs.tail, prev' y = prev y)
    (hn : ∀ y ∈ xs.dropLast, next' y = next y) : Links next' prev' p' xs q' := by
  induction xs generalizing p p' with
  | nil => trivial
  | cons x xs ih =>
      obtain ⟨-, hnx, hrest⟩ := links_cons.mp h
      refine links_cons.mpr ⟨hfirst x xs rfl, ?_, ?_⟩
      · rcases xs with _ | ⟨y, ys⟩
        · exact hlast x [] rfl
        · rw [hn x (by simp), hnx]
          rfl
      · refine ih hrest ?_ ?_ ?_ ?_
        · rintro a l rfl
          rw [hp a (by simp), (links_cons.mp hrest).1]
        · rintro a l rfl
          exact hlast a (x :: l) rfl
        · exact fun y hy => hp y (List.mem_of_mem_tail hy)
        · rintro y hy
          rcases xs with _ | ⟨z, zs⟩
          · simp at hy
          · exact hn y (List.mem_cons_of_mem x hy)

/-- A chain depends on the links of its own nodes only. -/
theorem Links.congr (h : Links next prev p xs q) (hn : ∀ y ∈ xs, next' y = next y)
    (hp : ∀ y ∈ xs, prev' y = prev y) : Links next' prev' p xs q := by
  refine h.ends ?_ ?_ (fun y hy => hp y (List.mem_of_mem_tail hy))
    (fun y hy => hn y (List.mem_of_mem_dropLast hy))
  · rintro a l rfl
    rw [hp a (by simp), h.1]
  · rintro a l rfl
    rw [hn a (by simp)]
    exact (links_mid.mp h).2.1.2

/-- A chain read backwards: the two functions and the two ends change places. -/
theorem Links.reverse (h : Links next prev p xs q) : Links prev next q xs.reverse p := by
  induction xs generalizing p with
  | nil => trivial
  | cons x xs ih =>
      obtain ⟨hp, hn, hrest⟩ := links_cons.mp h
      have hlast : xs.reverse.getLastD q = xs.headD q := by
        cases xs <;> simp
      rw [List.reverse_cons]
      exact links_append.mpr ⟨ih hrest, by rw [hn, hlast], hp, links_nil⟩

/-- The nodes `f k`, `f (k + 1)`, …, each linked to its neighbours. -/
theorem links_map_range' {f : ℕ → ι} (m : ℕ) : ∀ {k : ℕ} {p : ι},
    (0 < m → prev (f k) = p ∧ next (f (k + m - 1)) = q) →
    (∀ i, k ≤ i → i + 1 < k + m → next (f i) = f (i + 1) ∧ prev (f (i + 1)) = f i) →
    Links next prev p ((List.range' k m).map f) q := by
  induction m with
  | zero => intro k p _ _; exact links_nil
  | succ m ih =>
      intro k p hend hin
      obtain ⟨hp, hq⟩ := hend (by omega)
      rw [List.range'_succ, List.map_cons]
      refine links_cons.mpr ⟨hp, ?_, ih (fun hm => ⟨?_, ?_⟩) (fun i h1 h2 => hin i ?_ ?_)⟩
      · rcases m with _ | m
        · exact hq
        · rw [List.range'_succ, List.map_cons]
          exact (hin k (le_refl k) (by omega)).1
      · exact (hin k (le_refl k) (by omega)).2
      · rw [show k + 1 + m - 1 = k + (m + 1) - 1 by omega]
        exact hq
      · omega
      · omega

/-- The same for nodes that are numbers. -/
theorem links_range' {next prev : ℕ → ℕ} {k m p q : ℕ}
    (hend : 0 < m → prev k = p ∧ next (k + m - 1) = q)
    (hin : ∀ i, k ≤ i → i + 1 < k + m → next i = i + 1 ∧ prev (i + 1) = i) :
    Links next prev p (List.range' k m) q := by
  have h := links_map_range' (f := id) m hend hin
  rwa [List.map_id] at h

/-- What a client reads at the first node of a nonempty chain. -/
theorem Links.prev_head (h : Links next prev p xs q) (hne : xs ≠ []) (d : ι) :
    prev (xs.headD d) = p := by
  rcases xs with _ | ⟨x, xs⟩
  · exact absurd rfl hne
  · exact h.1

/-- What a client reads at the last node of a nonempty chain. -/
theorem Links.next_last (h : Links next prev p xs q) (hne : xs ≠ []) (d : ι) :
    next (xs.getLastD d) = q := by
  obtain ⟨l, a, rfl⟩ := (List.eq_nil_or_concat' _).resolve_left hne
  rw [List.getLastD_concat]
  exact (links_mid.mp h).2.1.2

end Structure

/-! ## First and last nodes -/

section Ends

variable {xs : List ι} {y d : ι}

theorem headD_mem (hne : xs ≠ []) : xs.headD d ∈ xs := by
  rcases xs with _ | ⟨x, xs⟩
  · exact absurd rfl hne
  · simp

theorem getLastD_mem (hne : xs ≠ []) : xs.getLastD d ∈ xs := by
  obtain ⟨l, a, rfl⟩ := (List.eq_nil_or_concat' _).resolve_left hne
  simp

theorem ne_headD_of_mem_tail (hnd : xs.Nodup) (hy : y ∈ xs.tail) : y ≠ xs.headD d := by
  rcases xs with _ | ⟨x, xs⟩
  · simp at hy
  · rintro rfl
    exact (List.nodup_cons.mp hnd).1 hy

theorem ne_getLastD_of_mem_dropLast (hnd : xs.Nodup) (hy : y ∈ xs.dropLast) :
    y ≠ xs.getLastD d := by
  rcases List.eq_nil_or_concat' xs with rfl | ⟨l, a, rfl⟩
  · simp at hy
  · rw [List.dropLast_concat] at hy
    rw [List.getLastD_concat]
    rintro rfl
    exact (List.nodup_append.mp hnd).2.2 y hy y (by simp) rfl

/-- The successor of a node is a node or the end. -/
theorem Links.next_mem {next prev : ι → ι} {p q : ι} (h : Links next prev p xs q) (hy : y ∈ xs) :
    next y = q ∨ next y ∈ xs := by
  obtain ⟨l, r, rfl⟩ := List.append_of_mem hy
  rw [(links_mid.mp h).2.1.2]
  by_cases hr : r = []
  · exact .inl (by rw [hr, List.headD_nil])
  · exact .inr (List.mem_append_right _ (List.mem_cons_of_mem _ (headD_mem hr)))

/-- The predecessor of a node other than the first is a node. -/
theorem Links.prev_mem {next prev : ι → ι} {p q : ι} (h : Links next prev p xs q) (hy : y ∈ xs)
    (hne : y ≠ xs.headD d) : prev y ∈ xs := by
  obtain ⟨l, r, rfl⟩ := List.append_of_mem hy
  rw [(links_mid.mp h).2.1.1]
  by_cases hl : l = []
  · rw [hl] at hne
    exact absurd rfl hne
  · exact List.mem_append_left _ (getLastD_mem hl)

end Ends

/-! ## The moves

`nil` stands at both ends and is not a node. -/

section Moves

variable {next prev next' prev' : ι → ι} {nil : ι}

/-- Moving a node that is not the first one to the front. -/
theorem Links.to_front {l r : List ι} {x : ι} (h : Links next prev nil (l ++ x :: r) nil)
    (hnd : (l ++ x :: r).Nodup) (hl : l ≠ [])
    (hnx : next' x = l.headD nil) (hpx : prev' x = nil)
    (hnl : next' (l.getLastD nil) = r.headD nil) (hph : prev' (l.headD nil) = x)
    (hpr : ∀ a r', r = a :: r' → prev' a = l.getLastD nil)
    (hn : ∀ y ∈ l ++ r, y ≠ l.getLastD nil → next' y = next y)
    (hp : ∀ y ∈ l ++ r, y ≠ l.headD nil → (∀ a r', r = a :: r' → y ≠ a) → prev' y = prev y) :
    Links next' prev' nil (x :: (l ++ r)) nil := by
  obtain ⟨hL, -, hR⟩ := links_mid.mp h
  obtain ⟨hndl, hndxr, hdisj⟩ := List.nodup_append.mp hnd
  have hndr : r.Nodup := (List.nodup_cons.mp hndxr).2
  have hlr : ∀ a ∈ l, ∀ b ∈ r, a ≠ b := fun a ha b hb => hdisj a ha b (List.mem_cons_of_mem x hb)
  have hfst : l.headD nil ∈ l := headD_mem hl
  have hlst : l.getLastD nil ∈ l := getLastD_mem hl
  have hhead : (l ++ r).headD nil = l.headD nil := by
    rcases l with _ | ⟨a, l⟩
    · exact absurd rfl hl
    · rfl
  have hlast : l.getLastD x = l.getLastD nil := by
    obtain ⟨l', a, rfl⟩ := (List.eq_nil_or_concat' l).resolve_left hl
    rw [List.getLastD_concat, List.getLastD_concat]
  refine links_cons.mpr ⟨hpx, by rw [hnx, hhead], links_append.mpr ⟨?_, ?_⟩⟩
  · -- the nodes that stood before `x`: a new link at each end
    refine hL.ends ?_ ?_ (fun y hy => ?_) (fun y hy => ?_)
    · rintro a l' rfl
      exact hph
    · rintro a l' rfl
      rw [List.getLastD_concat] at hnl
      exact hnl
    · have hyl := List.mem_of_mem_tail hy
      refine hp y (List.mem_append_left r hyl) (ne_headD_of_mem_tail hndl hy) (fun a r' he => ?_)
      exact hlr y hyl a (he ▸ List.mem_cons_self)
    · exact hn y (List.mem_append_left r (List.mem_of_mem_dropLast hy))
        (ne_getLastD_of_mem_dropLast hndl hy)
  · -- the nodes that stood after it: a new link in front only
    rw [hlast]
    refine hR.ends hpr ?_ (fun y hy => ?_) (fun y hy => ?_)
    · intro a r' he
      have har : a ∈ r := he ▸ List.mem_append_right r' List.mem_cons_self
      rw [hn a (List.mem_append_right l har) (fun heq => hlr _ hlst a har heq.symm)]
      subst he
      exact (links_mid.mp hR).2.1.2
    · have hyr := List.mem_of_mem_tail hy
      refine hp y (List.mem_append_right l hyr) (fun heq => hlr _ hfst y hyr heq.symm) ?_
      rintro a r' rfl heq
      exact (List.nodup_cons.mp hndr).1 (heq ▸ hy)
    · have hyr := List.mem_of_mem_dropLast hy
      exact hn y (List.mem_append_right l hyr) (fun heq => hlr _ hlst y hyr heq.symm)

/-- Moving a node that is not the last one to the back. -/
theorem Links.to_back {l r : List ι} {x : ι} (h : Links next prev nil (l ++ x :: r) nil)
    (hnd : (l ++ x :: r).Nodup) (hr : r ≠ [])
    (hnx : next' x = nil) (hpx : prev' x = r.getLastD nil)
    (hpr : prev' (r.headD nil) = l.getLastD nil) (hnr : next' (r.getLastD nil) = x)
    (hnl : ∀ a l', l = l' ++ [a] → next' a = r.headD nil)
    (hp : ∀ y ∈ l ++ r, y ≠ r.headD nil → prev' y = prev y)
    (hn : ∀ y ∈ l ++ r, y ≠ r.getLastD nil → (∀ a l', l = l' ++ [a] → y ≠ a) →
      next' y = next y) :
    Links next' prev' nil (l ++ r ++ [x]) nil := by
  obtain ⟨hL, -, hR⟩ := links_mid.mp h
  obtain ⟨hndl, hndxr, hdisj⟩ := List.nodup_append.mp hnd
  have hndr : r.Nodup := (List.nodup_cons.mp hndxr).2
  have hlr : ∀ a ∈ l, ∀ b ∈ r, a ≠ b := fun a ha b hb => hdisj a ha b (List.mem_cons_of_mem x hb)
  have hfst : r.headD nil ∈ r := headD_mem hr
  have hlst : r.getLastD nil ∈ r := getLastD_mem hr
  have hhead : r.headD ([x].headD nil) = r.headD nil := by
    rcases r with _ | ⟨a, r⟩
    · exact absurd rfl hr
    · rfl
  have hlast : (l ++ r).getLastD nil = r.getLastD nil := by
    obtain ⟨r', a, rfl⟩ := (List.eq_nil_or_concat' r).resolve_left hr
    rw [← List.append_assoc, List.getLastD_concat, List.getLastD_concat]
  refine links_append.mpr ⟨links_append.mpr ⟨?_, ?_⟩, ?_⟩
  · -- the nodes that stood before `x`: a new link behind only
    rw [hhead]
    refine hL.ends ?_ hnl (fun y hy => ?_) (fun y hy => ?_)
    · intro a l' he
      have hal : a ∈ l := he ▸ List.mem_cons_self
      rw [hp a (List.mem_append_left r hal) (hlr a hal _ hfst)]
      subst he
      exact hL.1
    · have hyl := List.mem_of_mem_tail hy
      exact hp y (List.mem_append_left r hyl) (hlr y hyl _ hfst)
    · have hyl := List.mem_of_mem_dropLast hy
      refine hn y (List.mem_append_left r hyl) (hlr y hyl _ hlst) ?_
      rintro a l' rfl heq
      rw [List.dropLast_concat] at hy
      exact (List.nodup_append.mp hndl).2.2 y hy a List.mem_cons_self heq
  · -- the nodes that stood after it: a new link at each end
    refine hR.ends ?_ ?_ (fun y hy => ?_) (fun y hy => ?_)
    · rintro a r' rfl
      exact hpr
    · rintro a r' rfl
      rw [List.getLastD_concat] at hnr
      exact hnr
    · exact hp y (List.mem_append_right l (List.mem_of_mem_tail hy))
        (ne_headD_of_mem_tail hndr hy)
    · have hyr := List.mem_of_mem_dropLast hy
      refine hn y (List.mem_append_right l hyr) (ne_getLastD_of_mem_dropLast hndr hy) ?_
      rintro a l' rfl heq
      exact hlr a (List.mem_append_right l' List.mem_cons_self) y hyr heq.symm
  · exact links_cons.mpr ⟨by rw [hpx, hlast], hnx, links_nil⟩

/-- Dropping the first node: its successor becomes the first. -/
theorem Links.drop_head {x : ι} {r : List ι} (h : Links next prev nil (x :: r) nil)
    (hnd : r.Nodup) (hpr : ∀ a r', r = a :: r' → prev' a = nil)
    (hn : ∀ y ∈ r, next' y = next y)
    (hp : ∀ y ∈ r, y ≠ r.headD nil → prev' y = prev y) :
    Links next' prev' nil r nil := by
  have hR := h.2.2
  refine hR.ends hpr ?_ ?_ (fun y hy => hn y (List.mem_of_mem_dropLast hy))
  · rintro a r' rfl
    rw [hn a (by simp)]
    exact (links_mid.mp hR).2.1.2
  · intro y hy
    exact hp y (List.mem_of_mem_tail hy) (ne_headD_of_mem_tail hnd hy)

/-- Putting one chain before another: the last node of the first names the first
of the second, and the first of the second names it back. -/
theorem Links.join {xs ys : List ι}
    (hx : Links next' prev' nil xs (ys.headD nil)) (hy : Links next prev nil ys nil)
    (hnd : ys.Nodup) (hpy : ∀ a ys', ys = a :: ys' → prev' a = xs.getLastD nil)
    (hn : ∀ y ∈ ys, next' y = next y)
    (hp : ∀ y ∈ ys, y ≠ ys.headD nil → prev' y = prev y) :
    Links next' prev' nil (xs ++ ys) nil := by
  refine links_append.mpr ⟨hx, hy.ends hpy ?_ ?_ (fun y hm => hn y (List.mem_of_mem_dropLast hm))⟩
  · rintro a l rfl
    rw [hn a (by simp)]
    exact (links_mid.mp hy).2.1.2
  · intro y hm
    exact hp y (List.mem_of_mem_tail hm) (ne_headD_of_mem_tail hnd hm)

end Moves

/-! ## Walking a chain -/

section Walk

variable [DecidableEq ι] {next prev : ι → ι} {nil : ι}

/-- The nodes met by following `next` from `x` until `nil`, at most `n` of them. -/
def walk (next : ι → ι) (nil : ι) : ℕ → ι → List ι
  | 0, _ => []
  | n + 1, x => if x = nil then [] else x :: walk next nil n (next x)

/-- Following `next` from the first node visits exactly the nodes of the chain. -/
theorem Links.walk_eq {xs : List ι} {p : ι} : ∀ {n : ℕ}, Links next prev p xs nil → nil ∉ xs →
    xs.length ≤ n → walk next nil n (xs.headD nil) = xs := by
  induction xs generalizing p with
  | nil =>
      intro n _ _ _
      rcases n with _ | n
      · rfl
      · rw [List.headD_nil, walk, if_pos rfl]
  | cons x xs ih =>
      intro n h hnil hlen
      obtain ⟨n, rfl⟩ : ∃ k, n = k + 1 := ⟨n - 1, by simp at hlen; omega⟩
      have hx : x ≠ nil := fun he => hnil (by simp [he])
      rw [List.headD_cons, walk, if_neg hx, h.2.1,
        ih h.2.2 (fun hm => hnil (by simp [hm])) (by simpa using hlen)]

end Walk

end DoublyLinked
