import Mathlib.Data.List.Basic

/-!
# Machines that answer each input

A deterministic machine is its step function.  A property of its runs comes from what one step
does: an invariant (`run_inv`), a property of the answers (`run_out`), the agreement of two
machines on every input (`run_refines`).  `Along` restricts a run to inputs that meet a condition
on the state they find.
-/

namespace Mealy

variable {σ τ ι ω : Type*}

/-- The state after the inputs, and what each of them was answered. -/
def run (step : σ → ι → σ × ω) : σ → List ι → σ × List ω
  | s, [] => (s, [])
  | s, i :: is => ((run step (step s i).1 is).1, (step s i).2 :: (run step (step s i).1 is).2)

/-- Every input of the run meets `Q` in the state it finds. -/
def Along (step : σ → ι → σ × ω) (Q : σ → ι → Prop) : σ → List ι → Prop
  | _, [] => True
  | s, i :: is => Q s i ∧ Along step Q (step s i).1 is

/-- What the inputs of the run cost, each in the state it finds. -/
def cost (step : σ → ι → σ × ω) (c : σ → ι → ℕ) : σ → List ι → ℕ
  | _, [] => 0
  | s, i :: is => c s i + cost step c (step s i).1 is

variable {step : σ → ι → σ × ω} {Q : σ → ι → Prop}

@[simp] theorem run_nil (s : σ) : run step s [] = (s, []) := rfl

@[simp] theorem run_cons (s : σ) (i : ι) (is : List ι) :
    run step s (i :: is)
      = ((run step (step s i).1 is).1, (step s i).2 :: (run step (step s i).1 is).2) := rfl

theorem run_append (s : σ) (is js : List ι) :
    run step s (is ++ js) = ((run step (run step s is).1 js).1,
      (run step s is).2 ++ (run step (run step s is).1 js).2) := by
  induction is generalizing s with
  | nil => rfl
  | cons i is ih => simp [ih]

/-- Inputs that stand for others. -/
theorem run_comap {κ : Type*} (f : κ → ι) (s : σ) (ks : List κ) :
    run (fun s k => step s (f k)) s ks = run step s (ks.map f) := by
  induction ks generalizing s with
  | nil => rfl
  | cons k ks ih => simp [ih]

instance Along.decidable [∀ s i, Decidable (Q s i)] :
    ∀ (s : σ) (is : List ι), Decidable (Along step Q s is)
  | _, [] => inferInstanceAs (Decidable True)
  | s, i :: is =>
    have := Along.decidable (step s i).1 is
    inferInstanceAs (Decidable (_ ∧ _))

theorem Along.append {is js : List ι} {s : σ} :
    Along step Q s (is ++ js) ↔ Along step Q s is ∧ Along step Q (run step s is).1 js := by
  induction is generalizing s with
  | nil => simp [Along]
  | cons i is ih => simp [Along, ih, and_assoc]

theorem Along.and {Q' : σ → ι → Prop} {is : List ι} {s : σ} (h : Along step Q s is)
    (h' : Along step Q' s is) : Along step (fun s i => Q s i ∧ Q' s i) s is := by
  induction is generalizing s with
  | nil => trivial
  | cons i is ih => exact ⟨⟨h.1, h'.1⟩, ih h.2 h'.2⟩

theorem along_of_forall {P : ι → Prop} :
    ∀ {is : List ι} {s : σ}, (∀ i ∈ is, P i) → Along step (fun _ i => P i) s is
  | [], _, _ => trivial
  | i :: _, _, h => ⟨h i (by simp), along_of_forall fun j hj => h j (by simp [hj])⟩

/-- What every step preserves holds after the run. -/
theorem run_inv {P : σ → Prop} (hstep : ∀ s i, P s → Q s i → P (step s i).1) :
    ∀ (is : List ι) (s : σ), P s → Along step Q s is → P (run step s is).1
  | [], _, h, _ => h
  | _ :: is, _, h, hq => run_inv hstep is _ (hstep _ _ h hq.1) hq.2

/-- What every step's answer has, under an invariant, every answer of the run has. -/
theorem run_out {P : σ → Prop} {G : ω → Prop}
    (hstep : ∀ s i, P s → Q s i → P (step s i).1 ∧ G (step s i).2) :
    ∀ (is : List ι) (s : σ), P s → Along step Q s is → ∀ o ∈ (run step s is).2, G o
  | [], _, _, _, o, ho => by simp at ho
  | i :: is, s, h, hq, o, ho => by
    obtain ⟨hP, hG⟩ := hstep s i h hq.1
    rcases List.mem_cons.1 ho with rfl | ho
    · exact hG
    · exact run_out hstep is _ hP hq.2 o ho

/-- Every answer of the run has `G` exactly when every input meets, in the state it finds, the
condition under which one step's answer does. -/
theorem run_out_iff {G : ω → Prop} (hstep : ∀ s i, G (step s i).2 ↔ Q s i) :
    ∀ (is : List ι) (s : σ), (∀ o ∈ (run step s is).2, G o) ↔ Along step Q s is
  | [], _ => by simp [Along]
  | i :: is, s => by
    have ih := run_out_iff hstep is (step s i).1
    simp only [run_cons, List.forall_mem_cons, Along, ih, hstep]

/-- If from a good state a step stays good exactly when the input meets `Q`, a run over inputs of
the kind `A` goes through good states only exactly when its inputs meet `Q`. -/
theorem run_states_iff {A : ι → Prop} {I P : σ → Prop} (hI : ∀ s i, A i → I s → I (step s i).1)
    (hstep : ∀ s i, A i → I s → P s → (P (step s i).1 ↔ Q s i)) :
    ∀ (is : List ι) (s : σ), (∀ i ∈ is, A i) → I s → P s →
      ((∀ pre, pre <+: is → P (run step s pre).1) ↔ Along step Q s is)
  | [], s, _, _, hP => by simpa [Along] using hP
  | i :: is, s, hA, hs, hP => by
    obtain ⟨hi, his⟩ := List.forall_mem_cons.1 hA
    have ih := run_states_iff hI hstep is (step s i).1 his (hI s i hi hs)
    constructor
    · intro h
      have hnext : P (step s i).1 := h [i] ⟨is, rfl⟩
      refine ⟨(hstep s i hi hs hP).1 hnext, (ih hnext).1 fun pre hpre => ?_⟩
      exact h (i :: pre) (List.cons_prefix_cons.2 ⟨rfl, hpre⟩)
    · rintro ⟨hq, hqs⟩ pre hpre
      cases pre with
      | nil => exact hP
      | cons j pre =>
        obtain ⟨rfl, hpre'⟩ := List.cons_prefix_cons.1 hpre
        exact (ih ((hstep s j hi hs hP).2 hq)).2 hqs pre hpre'

/-- A run costs no more than it has to begin with and is paid on the way, if every step does. -/
theorem run_cost {P : σ → Prop} {c : σ → ι → ℕ} {has paid : σ → ℕ}
    (hstep : ∀ s i, P s → Q s i → P (step s i).1
      ∧ c s i + has (step s i).1 + paid s ≤ has s + paid (step s i).1) :
    ∀ (is : List ι) (s : σ), P s → Along step Q s is →
      cost step c s is + has (run step s is).1 + paid s ≤ has s + paid (run step s is).1
  | [], s, _, _ => by simp [cost]
  | i :: is, s, h, hq => by
    obtain ⟨hP, hc⟩ := hstep s i h hq.1
    have hrest := run_cost hstep is _ hP hq.2
    rw [cost, run_cons]
    dsimp only
    omega

/-- Two machines whose related states answer every input alike and stay related answer every run
alike. -/
theorem run_refines {spec : τ → ι → τ × ω} {R : σ → τ → Prop}
    (hstep : ∀ s t i, R s t → Q s i →
      (step s i).2 = (spec t i).2 ∧ R (step s i).1 (spec t i).1) :
    ∀ (is : List ι) (s : σ) (t : τ), R s t → Along step Q s is →
      (run step s is).2 = (run spec t is).2 ∧ R (run step s is).1 (run spec t is).1
  | [], _, _, h, _ => ⟨rfl, h⟩
  | i :: is, s, t, h, hq => by
    obtain ⟨ho, hR⟩ := hstep s t i h hq.1
    obtain ⟨hos, hRs⟩ := run_refines hstep is _ _ hR hq.2
    exact ⟨by rw [run_cons, run_cons, ho, hos], hRs⟩

end Mealy
