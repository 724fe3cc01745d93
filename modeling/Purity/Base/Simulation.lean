import Mathlib.Data.List.Perm.Basic
import Purity.Base.Run

set_option relaxedAutoImplicit false
set_option autoImplicit false

/-!
# Simulation between two systems

A concrete system is simulated by an abstract one along a relation of their states if every
concrete step is matched by a run of the abstract system: no event at all when the concrete step
changes nothing that the relation sees, one event or more otherwise. Every concrete run is then
matched by an abstract one.

## Main definitions

* `Run.Simulates` — each concrete step is matched by an abstract run.

## Main results

* `Run.Simulates.exec` — so is each concrete run.
* `Run.exec_map` — a function of the states that the steps respect takes runs to runs.
* `Run.exists_getElem?_of_perm` — a task in a list that is kept up to the order.
-/

namespace Run

variable {σ ε τ δ : Type*} (step : σ → ε → Option σ) (astep : τ → δ → Option τ)

/-- **Simulation.** From related states, every step of `step` with an event in `E` is matched by a
run of `astep` over events in `F`, to related states again. -/
def Simulates (E : ε → Prop) (F : δ → Prop) (R : σ → τ → Prop) : Prop :=
  ∀ s e s' t, E e → R s t → step s e = some s' →
    ∃ fs t', (∀ f ∈ fs, F f) ∧ exec astep t fs = some t' ∧ R s' t'

variable {step astep} {E : ε → Prop} {F : δ → Prop}

/-- **Runs are simulated.** From related states, every run is matched by a run of the abstract
system.

**Proof sketch.** Induction on the events; the abstract runs of the steps are put one after the
other. -/
lemma Simulates.exec {R : σ → τ → Prop} (h : Simulates step astep E F R) {s s' : σ} {t : τ}
    {es : List ε} (hes : ∀ e ∈ es, E e) (hR : R s t) (hs : Run.exec step s es = some s') :
    ∃ fs t', (∀ f ∈ fs, F f) ∧ Run.exec astep t fs = some t' ∧ R s' t' := by
  induction es generalizing s t with
  | nil =>
    obtain rfl : s = s' := by simpa using hs
    exact ⟨[], t, nofun, rfl, hR⟩
  | cons e es ih =>
    obtain ⟨u, hu, hrest⟩ := exec_cons_eq_some.1 hs
    obtain ⟨fs, t₁, hfs, ht₁, hR₁⟩ := h s e u t (hes e List.mem_cons_self) hR hu
    obtain ⟨gs, t', hgs, ht', hR'⟩ := ih (fun f hf => hes f (List.mem_cons_of_mem e hf)) hR₁ hrest
    refine ⟨fs ++ gs, t', fun f hf => ?_, ?_, hR'⟩
    · rcases List.mem_append.1 hf with hf | hf
      · exact hfs f hf
      · exact hgs f hf
    · rw [exec_append, ht₁]
      exact ht'

/-- **A function of the states that the steps respect**: if it takes each step, or its not being
possible, to that of the abstract system, it takes each run to the abstract run.

**Proof sketch.** Induction on the events. -/
lemma exec_map {f : σ → τ} {g : ε → δ} (h : ∀ s e, astep (f s) (g e) = (step s e).map f) (s : σ)
    (es : List ε) : Run.exec astep (f s) (es.map g) = (Run.exec step s es).map f := by
  induction es generalizing s with
  | nil => rfl
  | cons e es ih =>
    rw [List.map_cons, exec_cons, exec_cons, h]
    cases step s e with
    | none => rfl
    | some t => exact ih t

/-- Where a list of tasks is kept up to the order: a task in it is at some place, and the others are
the rest. -/
lemma exists_getElem?_of_perm {α : Type*} {as bs : List α} {a : α} (h : as.Perm (a :: bs)) :
    ∃ i : ℕ, as[i]? = some a ∧ (as.eraseIdx i).Perm bs := by
  obtain ⟨i, hi, rfl⟩ := List.getElem_of_mem (h.symm.subset List.mem_cons_self)
  refine ⟨i, List.getElem?_eq_getElem hi, ?_⟩
  exact ((List.getElem_cons_eraseIdx_perm hi).trans h).cons_inv

end Run
