import Mathlib.Tactic.Common
import Mathlib.Data.List.Induction

set_option relaxedAutoImplicit false
set_option autoImplicit false

/-!
# Finite runs of a partial step function

A system is given by its step function `step : σ → ε → Option σ`: in state `s` the event `e` is
enabled when `step s e` is defined, and then leads to that state. All nondeterminism (which
handler runs next, how it ends) is in the choice of the events, so a run is a list of events and
a statement about every interleaving is a statement about every list.

## Main definitions

* `Run.exec` — the state after a list of events, `none` if one of them is not enabled.
* `Run.Always` — a property holds in every state a run visits.
* `Run.StepsMeet` — a condition on the state before a step and its event holds at every step.
* `Run.NeverAfter` — after a step of one kind, none of another kind is made.
* `Run.Leads` — a computation with several outcomes has one, and all are as wanted.

## Main results

* `Run.exec_invariant` — a property that every step keeps holds at the end of every run;
  `Run.exec_induction` is the same for a property that also sees the events so far.
* `Run.latched_iff` — a property that certain steps set and none undoes holds exactly after them.
* `Run.exists_exec_of_decreasing` — progress: where a measure can always be made smaller, it can be
  made zero.
* `Run.Always.exec` — what a run always satisfies holds in every state a prefix reaches.
* `Run.always_iff_stepsMeet` — if a step keeps a property exactly when it meets a condition, a
  run always has the property exactly when all its steps meet the condition.
* `Run.Leads.bind` — such computations can be made one after the other.
* `Run.stepsMeet_iff_neverAfter` — the same for a system that one kind of step moves from a good
  phase to a bad one for ever.
-/

namespace Run

variable {σ ε : Type*} (step : σ → ε → Option σ)

/-- The state after the events `es` from `s`; undefined if one of them is not enabled. -/
def exec : σ → List ε → Option σ
  | s, [] => some s
  | s, e :: es => (step s e).bind fun s' => exec s' es

/-- `P` holds in every state visited by the events `es` from `s`, the first state included. -/
def Always (P : σ → Prop) : σ → List ε → Prop
  | s, [] => P s
  | s, e :: es => P s ∧ ∀ s', step s e = some s' → Always P s' es

/-- Every step the events `es` make from `s` meets the condition `ok`, which sees the state
before the step and the event. -/
def StepsMeet (ok : σ → ε → Prop) : σ → List ε → Prop
  | _, [] => True
  | s, e :: es => ∀ s', step s e = some s' → ok s e ∧ StepsMeet ok s' es

/-- After a step of the run that is an `A`, no step is a `B`. -/
def NeverAfter (A B : σ → ε → Prop) : σ → List ε → Prop
  | _, [] => True
  | s, e :: es => ∀ s', step s e = some s' →
      (A s e → StepsMeet step (fun t f => ¬ B t f) s' es) ∧ NeverAfter A B s' es

/-- **Total correctness** of a computation with the outcomes `R`: there is an outcome, and every
outcome satisfies `P`. -/
def Leads {α : Type*} (R P : α → Prop) : Prop := (∃ a, R a) ∧ ∀ a, R a → P a

/-- Whether all steps of a run meet a condition can be decided by making them. -/
instance decidableStepsMeet (ok : σ → ε → Prop) [∀ s e, Decidable (ok s e)] :
    ∀ s es, Decidable (StepsMeet step ok s es)
  | _, [] => isTrue trivial
  | s, e :: es =>
    match h : step s e with
    | none => isTrue fun s' hs' => by rw [h] at hs'; cases hs'
    | some t =>
      have := decidableStepsMeet ok t es
      decidable_of_iff (ok s e ∧ StepsMeet step ok t es)
        ⟨fun hok s' hs' => by rw [h] at hs'; cases hs'; exact hok, fun hok => hok t h⟩

variable {step}

@[simp] lemma exec_nil (s : σ) : exec step s [] = some s := rfl

@[simp] lemma exec_cons (s : σ) (e : ε) (es : List ε) :
    exec step s (e :: es) = (step s e).bind fun s' => exec step s' es := rfl

/-- A run over `es ++ fs` is a run over `es` followed by one over `fs`. -/
lemma exec_append (s : σ) (es fs : List ε) :
    exec step s (es ++ fs) = (exec step s es).bind fun s' => exec step s' fs := by
  induction es generalizing s with
  | nil => rfl
  | cons e es ih =>
    simp only [List.cons_append, exec_cons, Option.bind_assoc]
    congr 1
    funext s'
    exact ih s'

/-- The first step of a run and the run after it. -/
lemma exec_cons_eq_some {s s' : σ} {e : ε} {es : List ε} :
    exec step s (e :: es) = some s' ↔ ∃ t, step s e = some t ∧ exec step t es = some s' := by
  simp only [exec_cons, Option.bind_eq_some_iff]

/-- **The invariant rule**: what every step keeps holds after every run.

**Proof sketch.** Induction on the events, for all start states. -/
lemma exec_invariant {I : σ → Prop} (hstep : ∀ s e s', I s → step s e = some s' → I s')
    {s s' : σ} {es : List ε} (hs : I s) (h : exec step s es = some s') : I s' := by
  induction es generalizing s with
  | nil =>
    obtain rfl : s = s' := by simpa using h
    exact hs
  | cons e es ih =>
    obtain ⟨t, ht, hrest⟩ := exec_cons_eq_some.1 h
    exact ih (hstep s e t hs ht) hrest

/-- **The invariant rule with history**: a property of the events so far and the state they lead
to, if it holds at the start and every further step keeps it, holds after every run.

**Proof sketch.** Induction on the events from the end of the run. -/
lemma exec_induction {s : σ} {P : List ε → σ → Prop} (hnil : P [] s)
    (hstep : ∀ es e t t', P es t → step t e = some t' → P (es ++ [e]) t')
    {s' : σ} {es : List ε} (h : exec step s es = some s') : P es s' := by
  induction es using List.reverseRecOn generalizing s' with
  | nil =>
    obtain rfl : s = s' := by simpa using h
    exact hnil
  | append_singleton es e ih =>
    rw [exec_append] at h
    obtain ⟨t, ht, hlast⟩ := Option.bind_eq_some_iff.1 h
    obtain ⟨t', ht', heq⟩ := exec_cons_eq_some.1 hlast
    obtain rfl : t' = s' := by simpa using heq
    exact hstep es e t t' (ih ht) ht'

/-- **The rule for a latch**: a property `M` that no step undoes holds at the end of a run from a
state without it exactly if some step of the run was one that sets it, by `T`.

**Proof sketch.** Induction on the events from the end of the run: the last step sets `M`, or it
held before. -/
lemma latched_iff {I M : σ → Prop} {T : σ → ε → Prop}
    (hI : ∀ s e s', I s → step s e = some s' → I s')
    (hM : ∀ s e s', I s → step s e = some s' → (M s' ↔ M s ∨ T s e))
    {s s' : σ} (hIs : I s) (hMs : ¬ M s) {es : List ε} (h : exec step s es = some s') :
    M s' ↔ ∃ fs e gs t, es = fs ++ e :: gs ∧ exec step s fs = some t ∧ T t e := by
  induction es using List.reverseRecOn generalizing s' with
  | nil =>
    obtain rfl : s = s' := by simpa using h
    simp [hMs]
  | append_singleton es e ih =>
    rw [exec_append] at h
    obtain ⟨t, ht, hlast⟩ := Option.bind_eq_some_iff.1 h
    obtain ⟨t', hstep, heq⟩ := exec_cons_eq_some.1 hlast
    obtain rfl : t' = s' := by simpa using heq
    rw [hM t e t' (exec_invariant hI hIs ht) hstep, ih ht]
    constructor
    · rintro (⟨fs, f, gs, u, rfl, hu, hT⟩ | hT)
      · exact ⟨fs, f, gs ++ [e], u, by simp, hu, hT⟩
      · exact ⟨es, e, [], t, rfl, ht, hT⟩
    · rintro ⟨fs, f, gs, u, hes, hu, hT⟩
      cases gs using List.reverseRecOn with
      | nil =>
        obtain ⟨rfl, heq⟩ := List.append_inj' hes rfl
        obtain rfl : e = f := by simpa using heq
        obtain rfl : t = u := Option.some.inj (ht.symm.trans hu)
        exact .inr hT
      | append_singleton gs g =>
        rw [← List.cons_append, ← List.append_assoc] at hes
        exact .inl ⟨fs, f, gs, u, (List.append_inj' hes rfl).1, hu, hT⟩

/-- **The rule for progress**: if in every state with `I` in which `μ` is not yet zero some event
with `E` is possible that keeps `I` and makes `μ` smaller, then such events alone can make it zero.

**Proof sketch.** Strong induction on `μ s`. -/
lemma exists_exec_of_decreasing {I : σ → Prop} {E : ε → Prop} {μ : σ → ℕ}
    (hstep : ∀ s, I s → μ s ≠ 0 → ∃ e s', E e ∧ step s e = some s' ∧ I s' ∧ μ s' < μ s)
    {s : σ} (hs : I s) :
    ∃ es s', (∀ e ∈ es, E e) ∧ exec step s es = some s' ∧ I s' ∧ μ s' = 0 := by
  obtain ⟨m, hm⟩ : ∃ m, μ s = m := ⟨_, rfl⟩
  induction m using Nat.strongRecOn generalizing s with
  | ind m ih =>
    by_cases hzero : μ s = 0
    · exact ⟨[], s, by simp, rfl, hs, hzero⟩
    · obtain ⟨e, t, he, ht, hI, hlt⟩ := hstep s hs hzero
      obtain ⟨es, s', hes, hrun, hI', hzero'⟩ := ih (μ t) (hm ▸ hlt) hI rfl
      exact ⟨e :: es, s', List.forall_mem_cons.2 ⟨he, hes⟩,
        exec_cons_eq_some.2 ⟨t, ht, hrun⟩, hI', hzero'⟩

/-- What a run always satisfies holds in its first state. -/
lemma Always.head {P : σ → Prop} {s : σ} {es : List ε} (h : Always step P s es) : P s := by
  cases es with
  | nil => exact h
  | cons e es => exact h.1

/-- A run that always satisfies a property always satisfies a weaker one. -/
lemma Always.imp {P Q : σ → Prop} (hPQ : ∀ s, P s → Q s) {s : σ} {es : List ε}
    (h : Always step P s es) : Always step Q s es := by
  induction es generalizing s with
  | nil => exact hPQ s h
  | cons e es ih => exact ⟨hPQ s h.1, fun s' hs' => ih (h.2 s' hs')⟩

/-- What a run over `es ++ fs` always satisfies holds in the state reached after `es`. -/
lemma Always.exec {P : σ → Prop} {s s' : σ} {es fs : List ε}
    (h : Always step P s (es ++ fs)) (hs : exec step s es = some s') : P s' := by
  induction es generalizing s with
  | nil =>
    obtain rfl : s = s' := by simpa using hs
    exact h.head
  | cons e es ih =>
    obtain ⟨t, ht, hrest⟩ := exec_cons_eq_some.1 hs
    exact ih (h.2 t ht) hrest

/-- What a run always satisfies holds in its last state. -/
lemma Always.last {P : σ → Prop} {s s' : σ} {es : List ε} (h : Always step P s es)
    (hs : Run.exec step s es = some s') : P s' := by
  rw [← List.append_nil es] at h
  exact h.exec hs

/-- **A property with an exact step condition.** Let `I` be an invariant, and let each step
from a state with `I` and `P` lead to a state with `P` exactly when the step meets `ok`. Then a
run from such a state always has `P` exactly when all its steps meet `ok`. Only events with `E` are
considered.

**Proof sketch.** Induction on the events. In both directions the first step meets `ok` and leads
to a state with `P`, so the induction hypothesis applies to the rest of the run. -/
lemma always_iff_stepsMeet_of_mem {I P : σ → Prop} {ok : σ → ε → Prop} {E : ε → Prop}
    (hI : ∀ s e s', E e → I s → step s e = some s' → I s')
    (hP : ∀ s e s', E e → I s → P s → step s e = some s' → (P s' ↔ ok s e))
    {s : σ} (hIs : I s) (hPs : P s) {es : List ε} (hes : ∀ e ∈ es, E e) :
    Always step P s es ↔ StepsMeet step ok s es := by
  induction es generalizing s with
  | nil => simpa [Always, StepsMeet] using hPs
  | cons e es ih =>
    have he : E e := hes e List.mem_cons_self
    have hrest : ∀ f ∈ es, E f := fun f hf => hes f (List.mem_cons_of_mem e hf)
    constructor
    · intro h s' hs'
      have hP' : P s' := (h.2 s' hs').head
      exact ⟨(hP s e s' he hIs hPs hs').1 hP',
        (ih (hI s e s' he hIs hs') hP' hrest).1 (h.2 s' hs')⟩
    · intro h
      refine ⟨hPs, fun s' hs' => ?_⟩
      obtain ⟨hok, hmeet⟩ := h s' hs'
      have hP' : P s' := (hP s e s' he hIs hPs hs').2 hok
      exact (ih (hI s e s' he hIs hs') hP' hrest).2 hmeet

/-- The same for every event. -/
lemma always_iff_stepsMeet {I P : σ → Prop} {ok : σ → ε → Prop}
    (hI : ∀ s e s', I s → step s e = some s' → I s')
    (hP : ∀ s e s', I s → P s → step s e = some s' → (P s' ↔ ok s e))
    {s : σ} (hIs : I s) (hPs : P s) (es : List ε) :
    Always step P s es ↔ StepsMeet step ok s es :=
  always_iff_stepsMeet_of_mem (E := fun _ => True) (fun s e s' _ => hI s e s')
    (fun s e s' _ => hP s e s') hIs hPs fun _ _ => trivial

/-- Every run meets a condition that always holds. -/
lemma stepsMeet_of_forall {ok : σ → ε → Prop} (hok : ∀ s e, ok s e) (s : σ) (es : List ε) :
    StepsMeet step ok s es := by
  induction es generalizing s with
  | nil => trivial
  | cons e es ih => exact fun s' _ => ⟨hok s e, ih s'⟩

/-- If all steps over `es ++ fs` meet a condition, so do those over `fs` after `es`. -/
lemma StepsMeet.exec {ok : σ → ε → Prop} {s s' : σ} {es fs : List ε}
    (h : StepsMeet step ok s (es ++ fs)) (hs : Run.exec step s es = some s') :
    StepsMeet step ok s' fs := by
  induction es generalizing s with
  | nil =>
    obtain rfl : s = s' := by simpa using hs
    exact h
  | cons e es ih =>
    obtain ⟨t, ht, hrest⟩ := exec_cons_eq_some.1 hs
    exact ih (h t ht).2 hrest

/-- Two conditions that agree in the states with `I`, which the steps that meet them keep, are met
by the same runs. -/
lemma stepsMeet_congr_of_meets {I : σ → Prop} {ok ok' : σ → ε → Prop}
    (hI : ∀ s e s', I s → ok' s e → step s e = some s' → I s')
    (hok : ∀ s e s', I s → step s e = some s' → (ok s e ↔ ok' s e)) {s : σ} (hs : I s)
    (es : List ε) : StepsMeet step ok s es ↔ StepsMeet step ok' s es := by
  induction es generalizing s with
  | nil => rfl
  | cons e es ih =>
    refine forall_congr' fun s' => forall_congr' fun hstep => ?_
    rw [hok s e s' hs hstep]
    exact and_congr_right fun hmeets => ih (hI s e s' hs hmeets hstep)

/-- Two conditions that agree in the states with the invariant `I` are met by the same runs. -/
lemma stepsMeet_congr {I : σ → Prop} {ok ok' : σ → ε → Prop}
    (hI : ∀ s e s', I s → step s e = some s' → I s')
    (hok : ∀ s e s', I s → step s e = some s' → (ok s e ↔ ok' s e)) {s : σ} (hs : I s)
    (es : List ε) : StepsMeet step ok s es ↔ StepsMeet step ok' s es :=
  stepsMeet_congr_of_meets (fun s e s' h _ => hI s e s' h) hok hs es

/-- The half of `always_iff_stepsMeet` that needs no converse: if steps that meet `ok` keep `P`,
a run whose steps all meet `ok` always has `P`. -/
lemma always_of_stepsMeet {P : σ → Prop} {ok : σ → ε → Prop}
    (hP : ∀ s e s', P s → ok s e → step s e = some s' → P s')
    {s : σ} (hPs : P s) {es : List ε} (h : StepsMeet step ok s es) : Always step P s es := by
  induction es generalizing s with
  | nil => exact hPs
  | cons e es ih =>
    refine ⟨hPs, fun s' hs' => ?_⟩
    obtain ⟨hok, hrest⟩ := h s' hs'
    exact ih (hP s e s' hPs hok hs') hrest

/-- A run without a `B` has none after an `A`. -/
lemma StepsMeet.neverAfter {A B : σ → ε → Prop} {s : σ} {es : List ε}
    (h : StepsMeet step (fun t f => ¬ B t f) s es) : NeverAfter step A B s es := by
  induction es generalizing s with
  | nil => trivial
  | cons e es ih =>
    intro s' hs'
    obtain ⟨-, hrest⟩ := h s' hs'
    exact ⟨fun _ => hrest, ih hrest⟩

/-- **Two phases.** Let an `A` move the system from the phase `Z` to the phase `W`, let other steps
stay in `Z` and no step leave `W`, and let a `B` be good in `Z` and bad in `W`. Then all the `B`s of
a run from `Z` are good exactly when none comes after an `A`.

**Proof sketch.** Induction on the events. The first step is good in either case; if it is an `A`,
the rest of the run is in `W`, where a good `B` is no `B`. -/
lemma stepsMeet_iff_neverAfter {Z W : σ → Prop} {A B : σ → ε → Prop} {G : σ → Prop}
    (hA : ∀ s e s', Z s → step s e = some s' → A s e → W s')
    (hZ : ∀ s e s', Z s → step s e = some s' → ¬ A s e → Z s')
    (hW : ∀ s e s', W s → step s e = some s' → W s')
    (hgood : ∀ s, Z s → G s) (hbad : ∀ s, W s → ¬ G s) {s : σ} (hs : Z s) (es : List ε) :
    StepsMeet step (fun t f => B t f → G t) s es ↔ NeverAfter step A B s es := by
  induction es generalizing s with
  | nil => rfl
  | cons e es ih =>
    refine forall_congr' fun s' => forall_congr' fun hs' => ?_
    by_cases hAs : A s e
    · have hrest : StepsMeet step (fun t f => B t f → G t) s' es ↔
          StepsMeet step (fun t f => ¬ B t f) s' es := by
        refine stepsMeet_congr hW (fun t f _ ht _ => ?_) (hA s e s' hs hs' hAs) es
        exact ⟨fun h hB => hbad t ht (h hB), fun h hB => absurd hB h⟩
      rw [hrest]
      exact ⟨fun h => ⟨fun _ => h.2, h.2.neverAfter⟩, fun h => ⟨fun _ => hgood s hs, h.1 hAs⟩⟩
    · rw [ih (hZ s e s' hs hs' hAs)]
      exact ⟨fun h => ⟨fun hAs' => absurd hAs' hAs, h.2⟩, fun h => ⟨fun _ => hgood s hs, h.2⟩⟩

/-! ## Computations with several outcomes -/

section Leads

variable {α β : Type*} {R P : α → Prop}

/-- A computation that returns a value has that outcome only. -/
lemma leads_of_eq_some {r : Option α} {a : α} (h : r = some a) (ha : P a) :
    Leads (fun b => r = some b) P := by
  refine ⟨⟨a, h⟩, fun b hb => ?_⟩
  obtain rfl : a = b := Option.some.inj (h.symm.trans hb)
  exact ha

/-- Each outcome has what follows from what each outcome has. -/
lemma Leads.imp {Q : α → Prop} (h : Leads R P) (hPQ : ∀ a, P a → Q a) : Leads R Q :=
  ⟨h.1, fun a ha => hPQ a (h.2 a ha)⟩

/-- **One computation after the other.** -/
lemma Leads.bind {S : α → β → Prop} {Q : β → Prop} (h : Leads R P)
    (hS : ∀ a, R a → P a → Leads (S a) Q) : Leads (fun b => ∃ a, R a ∧ S a b) Q := by
  obtain ⟨a, ha⟩ := h.1
  obtain ⟨b, hb⟩ := (hS a ha (h.2 a ha)).1
  refine ⟨⟨b, a, ha, hb⟩, ?_⟩
  rintro b ⟨a, ha, hb⟩
  exact (hS a ha (h.2 a ha)).2 b hb

/-- The same, if the first outcome is kept. -/
lemma Leads.pair {S : α → β → Prop} {Q : β × α → Prop} (h : Leads R P)
    (hS : ∀ a, R a → P a → Leads (S a) fun b => Q (b, a)) :
    Leads (fun r : β × α => R r.2 ∧ S r.2 r.1) Q := by
  obtain ⟨a, ha⟩ := h.1
  obtain ⟨b, hb⟩ := (hS a ha (h.2 a ha)).1
  refine ⟨⟨(b, a), ha, hb⟩, ?_⟩
  rintro ⟨b, a⟩ ⟨ha, hb⟩
  exact (hS a ha (h.2 a ha)).2 b hb

end Leads

end Run
