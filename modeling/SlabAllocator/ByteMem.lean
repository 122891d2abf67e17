/-
Little-endian words in a byte-addressed memory.

A memory is a function from addresses to bytes. `loadLE` reads `w` bytes as one
number, lowest byte first, and `storeLE` writes a number the same way, so a
store at width `w` keeps the value modulo `256 ^ w`: the truncation of a C
assignment to a narrower unsigned field is the store itself and needs no
separate step. `copyBytes` is the bulk write.

Everything a client needs is in two kinds of lemma: what a load reads back
after a store at the same place, and that it reads what it read before when
the written range is elsewhere. Nothing here depends on what the memory holds.
-/
import Mathlib.Data.Nat.Basic
import Mathlib.Tactic.Ring
import Mathlib.Tactic.NormNum

set_option autoImplicit false

namespace ByteMem

/-- A byte-addressed memory. -/
abbrev Mem := ℕ → UInt8

/-- The `w` bytes at `a`, read as one little-endian number. -/
def loadLE (m : Mem) : ℕ → ℕ → ℕ
  | _, 0 => 0
  | a, w + 1 => (m a).toNat + 256 * loadLE m (a + 1) w

/-- `v` written little-endian over the `w` bytes at `a`. -/
def storeLE (m : Mem) (a w v : ℕ) : Mem :=
  fun x => if a ≤ x ∧ x < a + w then UInt8.ofNat (v / 256 ^ (x - a)) else m x

/-- The `n` bytes at `src`, as they were, written over those at `dst`. -/
def copyBytes (m : Mem) (dst src n : ℕ) : Mem :=
  fun x => if dst ≤ x ∧ x < dst + n then m (src + (x - dst)) else m x

/-! ## What a load depends on -/

theorem loadLE_lt (m : Mem) (w : ℕ) : ∀ a : ℕ, loadLE m a w < 256 ^ w := by
  induction w with
  | zero => intro a; simp [loadLE]
  | succ w ih =>
      intro a
      have hb : (m a).toNat < 256 := (m a).toNat_lt
      have hr := ih (a + 1)
      rw [loadLE, pow_succ]
      omega

/-- A load reads its own bytes only. -/
theorem loadLE_congr {m m' : Mem} (w : ℕ) : ∀ {a : ℕ},
    (∀ x, a ≤ x → x < a + w → m' x = m x) → loadLE m' a w = loadLE m a w := by
  induction w with
  | zero => intro a _; rfl
  | succ w ih =>
      intro a h
      rw [loadLE, loadLE, h a (le_refl a) (by omega),
        ih (fun x h1 h2 => h x (by omega) (by omega))]

/-- Zero bytes read as zero. -/
theorem loadLE_zero {m : Mem} (w : ℕ) : ∀ {a : ℕ},
    (∀ x, a ≤ x → x < a + w → m x = 0) → loadLE m a w = 0 := by
  induction w with
  | zero => intro a _; rfl
  | succ w ih =>
      intro a h
      rw [loadLE, h a (le_refl a) (by omega), ih (fun x h1 h2 => h x (by omega) (by omega))]
      rfl

/-! ## Loads after stores -/

theorem storeLE_apply_of_not_mem (m : Mem) {a w v x : ℕ} (h : x < a ∨ a + w ≤ x) :
    storeLE m a w v x = m x := by
  rw [storeLE, if_neg (by omega)]

/-- A store read back at its own address and width is the value, truncated. -/
theorem loadLE_storeLE_same (m : Mem) (w : ℕ) : ∀ a v : ℕ,
    loadLE (storeLE m a w v) a w = v % 256 ^ w := by
  induction w generalizing m with
  | zero => intro a v; simp [loadLE, Nat.mod_one]
  | succ w ih =>
      intro a v
      have htail : loadLE (storeLE m a (w + 1) v) (a + 1) w
          = loadLE (storeLE m (a + 1) w (v / 256)) (a + 1) w := by
        refine loadLE_congr w (fun x h1 h2 => ?_)
        rw [storeLE, storeLE, if_pos (by omega), if_pos (by omega), Nat.div_div_eq_div_mul,
          ← pow_succ', show x - (a + 1) + 1 = x - a by omega]
      have hhead : storeLE m a (w + 1) v a = UInt8.ofNat v := by
        rw [storeLE, if_pos (by omega), Nat.sub_self, pow_zero, Nat.div_one]
      have hsplit : v % 256 ^ (w + 1) = v % 256 + 256 * (v / 256 % 256 ^ w) := by
        rw [pow_succ', Nat.mod_mul]
      rw [loadLE, hhead, htail, ih, UInt8.toNat_ofNat', hsplit]

/-- A store elsewhere is invisible to a load. -/
theorem loadLE_storeLE_of_disjoint (m : Mem) {a w b u v : ℕ} (h : a + w ≤ b ∨ b + u ≤ a) :
    loadLE (storeLE m b u v) a w = loadLE m a w :=
  loadLE_congr w (fun _ h1 h2 => storeLE_apply_of_not_mem m (by omega))

/-! ## Bulk writes -/

theorem copyBytes_apply_of_not_mem (m : Mem) {dst src n x : ℕ} (h : x < dst ∨ dst + n ≤ x) :
    copyBytes m dst src n x = m x := by
  rw [copyBytes, if_neg (by omega)]

theorem copyBytes_apply (m : Mem) {dst src n k : ℕ} (h : k < n) :
    copyBytes m dst src n (dst + k) = m (src + k) := by
  rw [copyBytes, if_pos (by omega), Nat.add_sub_cancel_left]

end ByteMem
