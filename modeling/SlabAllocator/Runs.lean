/-
Runs of a labelled transition relation.

`Run step s₀ t s` is a finite run from `s₀` to `s`. The list `t` records the
steps, latest first, each as the state it was taken in together with its event,
so a side condition on the steps of a run is a condition on the members of `t`.
A condition of that form is what a conditional invariant needs: the invariant
has to survive only the steps that meet it.
-/
import Mathlib.Data.List.Basic

set_option autoImplicit false

namespace Runs

variable {σ ε : Type*} {step : σ → ε → σ → Prop} {s₀ s : σ} {t : List (σ × ε)}

/-- A finite run, with its steps listed latest first. -/
inductive Run (step : σ → ε → σ → Prop) (s₀ : σ) : List (σ × ε) → σ → Prop
  | start : Run step s₀ [] s₀
  | next {t : List (σ × ε)} {s s' : σ} {e : ε} :
      Run step s₀ t s → step s e s' → Run step s₀ ((s, e) :: t) s'

/-- **The invariant rule.** What holds at the start and survives every step that
meets `c` holds at the end of every run whose steps all meet `c`. -/
theorem Run.invariant {P : σ → Prop} {c : σ → ε → Prop} (h₀ : P s₀)
    (hstep : ∀ s e s', P s → c s e → step s e s' → P s')
    (hrun : Run step s₀ t s) (hok : ∀ x ∈ t, c x.1 x.2) : P s := by
  induction hrun with
  | start => exact h₀
  | next _ hs ih =>
      exact hstep _ _ _ (ih fun x hx => hok x (List.mem_cons_of_mem _ hx))
        (hok _ List.mem_cons_self) hs

/-- An invariant of every run, whatever its steps. -/
theorem Run.always {P : σ → Prop} (h₀ : P s₀)
    (hstep : ∀ s e s', P s → step s e s' → P s') (hrun : Run step s₀ t s) : P s :=
  hrun.invariant (c := fun _ _ => True) h₀ (fun s e s' hi _ => hstep s e s' hi)
    (fun _ _ => trivial)

/-- The same run of another relation, when each step that meets `c` is one of its steps. -/
theorem Run.mono {step' : σ → ε → σ → Prop} {P : σ → Prop} {c : σ → ε → Prop} (h₀ : P s₀)
    (hstep : ∀ s e s', P s → c s e → step s e s' → P s' ∧ step' s e s')
    (hrun : Run step s₀ t s) (hok : ∀ x ∈ t, c x.1 x.2) : Run step' s₀ t s := by
  have hinv : P s ∧ Run step' s₀ t s := by
    induction hrun with
    | start => exact ⟨h₀, .start⟩
    | next _ hs ih =>
        obtain ⟨hp, hr⟩ := ih fun x hx => hok x (List.mem_cons_of_mem _ hx)
        obtain ⟨hp', hs'⟩ := hstep _ _ _ hp (hok _ List.mem_cons_self) hs
        exact ⟨hp', hr.next hs'⟩
  exact hinv.2

/-- A run followed by a run. -/
theorem Run.append {t' : List (σ × ε)} {s' : σ} (h : Run step s₀ t s) (h' : Run step s t' s') :
    Run step s₀ (t' ++ t) s' := by
  induction h' with
  | start => exact h
  | next _ hs ih => exact ih.next hs

/-- The labels `f` gives the steps of a run that ends in `s`, latest first: a step is labelled
by its event and the state it leads to. -/
def labels {δ : Type*} (f : ε → σ → δ) : List (σ × ε) → σ → List δ
  | [], _ => []
  | (s, e) :: t, s' => f e s' :: labels f t s

/-- **Forward simulation.** If each step that meets `c` is a step of another system under its
label, then each run is a run of the other system under its labels. -/
theorem Run.simulate {τ δ : Type*} {step' : τ → δ → τ → Prop} {u₀ : τ} {R : σ → τ → Prop}
    {f : ε → σ → δ} {c : σ → ε → Prop} (h₀ : R s₀ u₀)
    (hstep : ∀ s e s' u, R s u → c s e → step s e s' → ∃ u', step' u (f e s') u' ∧ R s' u')
    (hrun : Run step s₀ t s) (hok : ∀ x ∈ t, c x.1 x.2) :
    ∃ t' u, Run step' u₀ t' u ∧ R s u ∧ t'.map Prod.snd = labels f t s := by
  induction hrun with
  | start => exact ⟨[], u₀, .start, h₀, rfl⟩
  | next _ hs ih =>
      obtain ⟨t', u, hr, hR, hl⟩ := ih fun x hx => hok x (List.mem_cons_of_mem _ hx)
      obtain ⟨u', hs', hR'⟩ := hstep _ _ _ _ hR (hok _ List.mem_cons_self) hs
      exact ⟨_, u', hr.next hs', hR', by rw [List.map_cons, hl, labels]⟩

/-- **Forward simulation, many for one.** The other system takes the steps `f` says for each
step of a run. -/
theorem Run.simulate_many {τ δ : Type*} {step' : τ → δ → τ → Prop} {u₀ : τ} {R : σ → τ → Prop}
    {f : ε → List δ} {c : σ → ε → Prop} (h₀ : R s₀ u₀)
    (hstep : ∀ s e s' u, R s u → c s e → step s e s' →
      ∃ t' u', Run step' u t' u' ∧ t'.map Prod.snd = f e ∧ R s' u')
    (hrun : Run step s₀ t s) (hok : ∀ x ∈ t, c x.1 x.2) :
    ∃ t' u, Run step' u₀ t' u ∧ t'.map Prod.snd = t.flatMap (fun x => f x.2) ∧ R s u := by
  induction hrun with
  | start => exact ⟨[], u₀, .start, rfl, h₀⟩
  | next _ hs ih =>
      obtain ⟨t', u, hr, hl, hR⟩ := ih fun x hx => hok x (List.mem_cons_of_mem _ hx)
      obtain ⟨t'', u', hr', hl', hR'⟩ := hstep _ _ _ _ hR (hok _ List.mem_cons_self) hs
      exact ⟨t'' ++ t', u', hr.append hr', by rw [List.map_append, hl, hl', List.flatMap_cons], hR'⟩

/-- **Two runs side by side.** A relation between the starts that every pair of steps that match
keeps holds between the ends of every two runs whose steps match. -/
theorem Run.pair {τ δ : Type*} {step' : τ → δ → τ → Prop} {u₀ u : τ} {t' : List (τ × δ)}
    {R : σ → τ → Prop} {c : σ × ε → τ × δ → Prop} (h₀ : R s₀ u₀)
    (hstep : ∀ s e s' u d u', R s u → c (s, e) (u, d) → step s e s' → step' u d u' → R s' u')
    (hrun : Run step s₀ t s) (hrun' : Run step' u₀ t' u) (hc : List.Forall₂ c t t') : R s u := by
  induction hrun generalizing t' u with
  | start =>
      cases hc
      cases hrun'
      exact h₀
  | next _ hs ih =>
      obtain _ | ⟨hx, ht⟩ := hc
      cases hrun' with
      | next hr' hs' => exact hstep _ _ _ _ _ _ (ih hr' ht) hx hs hs'

/-- The labels of a run come in two parts where the run does. -/
theorem labels_append {δ : Type*} (f : ε → σ → δ) (t' t : List (σ × ε)) (s : σ) (e : ε) (s' : σ) :
    ∃ s₁, labels f (t' ++ (s, e) :: t) s' = labels f t' s' ++ f e s₁ :: labels f t s := by
  induction t' generalizing s' with
  | nil => exact ⟨s', rfl⟩
  | cons x t' ih =>
      obtain ⟨s₁, h⟩ := ih x.1
      exact ⟨s₁, by rw [List.cons_append, labels, h, labels, List.cons_append]⟩

/-- The two parts of a run. -/
theorem Run.split {t' : List (σ × ε)} {s' : σ} (h : Run step s₀ (t' ++ t) s') :
    ∃ s, Run step s₀ t s ∧ Run step s t' s' := by
  induction t' generalizing s' with
  | nil => exact ⟨s', h, .start⟩
  | cons x t' ih =>
      cases h with
      | next hr hs =>
          obtain ⟨s, h₁, h₂⟩ := ih hr
          exact ⟨s, h₁, h₂.next hs⟩

end Runs
