import Mathlib.Data.List.Basic

/-! # Runs of deterministic machines

A machine is a total function `step : σ → ι → ρ × σ`: an input, which carries
the outcome of everything the environment decides, gives a result and the next
state. Runs are lists of inputs; what a run emits is collected in order. The body of a
step is often a chain of checks, each of which may return early. -/

namespace Machine

variable {σ ι ρ β : Type*}

/-- A check that returns early was passed when the result is another one. -/
theorem check_passed {c : Prop} [Decidable c] {early rest result : ρ}
    (h : (if c then early else rest) = result) (hne : early ≠ result) : ¬ c ∧ rest = result := by
  by_cases hc : c
  · rw [if_pos hc] at h
    exact absurd h hne
  · rw [if_neg hc] at h
    exact ⟨hc, h⟩

/-- The state reached by a list of inputs. -/
def run (step : σ → ι → ρ × σ) (s : σ) (ops : List ι) : σ :=
  ops.foldl (fun t op => (step t op).2) s

/-- Every input of the run meets `G` in the state in which it is given. -/
def Along (step : σ → ι → ρ × σ) (G : σ → ι → Prop) : σ → List ι → Prop
  | _, [] => True
  | s, op :: ops => G s op ∧ Along step G (step s op).2 ops

/-- What the steps of a run emit, oldest first. -/
def collect (step : σ → ι → ρ × σ) (emit : σ → ι → Option β) : σ → List ι → List β
  | _, [] => []
  | s, op :: ops => (emit s op).toList ++ collect step emit (step s op).2 ops

@[simp] theorem run_nil (step : σ → ι → ρ × σ) (s : σ) : run step s [] = s := rfl

@[simp] theorem run_cons (step : σ → ι → ρ × σ) (s : σ) (op : ι) (ops : List ι) :
    run step s (op :: ops) = run step (step s op).2 ops := rfl

theorem run_append (step : σ → ι → ρ × σ) (s : σ) (ops rest : List ι) :
    run step s (ops ++ rest) = run step (run step s ops) rest := by
  simp [run, List.foldl_append]

/-- The simulation rule: if every step is a list of admitted steps of another machine on the same
states, so is every run. -/
theorem run_simulates {κ τ : Type*} {step : σ → ι → ρ × σ} {target : σ → κ → τ × σ} {Q : κ → Prop}
    (h : ∀ s op, ∃ moves, (∀ move ∈ moves, Q move) ∧ (step s op).2 = run target s moves) (s : σ)
    (ops : List ι) : ∃ moves, (∀ move ∈ moves, Q move) ∧ run step s ops = run target s moves := by
  induction ops generalizing s with
  | nil => exact ⟨[], by simp, rfl⟩
  | cons op ops ih =>
      obtain ⟨first, hfirst, hstep⟩ := h s op
      obtain ⟨rest, hrest, hrun⟩ := ih (step s op).2
      refine ⟨first ++ rest, fun move hmove => ?_, ?_⟩
      · rcases List.mem_append.mp hmove with hmove | hmove
        · exact hfirst move hmove
        · exact hrest move hmove
      · rw [run_cons, hrun, run_append, hstep]

/-- The rule for two runs: what relates two states through every step relates them after the same
inputs. -/
theorem run_related {σ' ρ' : Type*} {step : σ → ι → ρ × σ} {step' : σ' → ι → ρ' × σ'}
    {R : σ → σ' → Prop} (h : ∀ s t op, R s t → R (step s op).2 (step' t op).2) {s : σ} {t : σ'}
    (ops : List ι) (hst : R s t) : R (run step s ops) (run step' t ops) := by
  induction ops generalizing s t with
  | nil => exact hst
  | cons op ops ih => exact ih (h s t op hst)

theorem along_append {step : σ → ι → ρ × σ} {G : σ → ι → Prop} {s : σ} {ops ops' : List ι} :
    Along step G s (ops ++ ops') ↔ Along step G s ops ∧ Along step G (run step s ops) ops' := by
  induction ops generalizing s with
  | nil => exact (iff_of_eq (true_and _)).symm
  | cons op ops ih => rw [List.cons_append, Along, ih, Along, run_cons, and_assoc]

instance decidableAlong (step : σ → ι → ρ × σ) (G : σ → ι → Prop)
    [∀ s op, Decidable (G s op)] : ∀ s ops, Decidable (Along step G s ops)
  | _, [] => .isTrue trivial
  | s, op :: ops =>
      haveI := decidableAlong step G (step s op).2 ops
      inferInstanceAs (Decidable (_ ∧ _))

theorem along_true (step : σ → ι → ρ × σ) (G : σ → ι → Prop) (hG : ∀ s op, G s op) (s : σ)
    (ops : List ι) : Along step G s ops := by
  induction ops generalizing s with
  | nil => trivial
  | cons op ops ih => exact ⟨hG s op, ih _⟩

theorem along_of_forall_mem (step : σ → ι → ρ × σ) {Q : ι → Prop} {ops : List ι}
    (h : ∀ op ∈ ops, Q op) (s : σ) : Along step (fun _ op => Q op) s ops := by
  induction ops generalizing s with
  | nil => trivial
  | cons op ops ih =>
      exact ⟨h op List.mem_cons_self, ih (fun o ho => h o (List.mem_cons_of_mem op ho)) _⟩

@[simp] theorem collect_nil (step : σ → ι → ρ × σ) (emit : σ → ι → Option β) (s : σ) :
    collect step emit s [] = [] := rfl

theorem collect_append (step : σ → ι → ρ × σ) (emit : σ → ι → Option β) (s : σ)
    (ops rest : List ι) :
    collect step emit s (ops ++ rest) =
      collect step emit s ops ++ collect step emit (run step s ops) rest := by
  induction ops generalizing s with
  | nil => rfl
  | cons op ops ih => simp [collect, ih]

/-- The invariant rule with a log: what relates a state to everything emitted so
far holds after every run if it holds at the start and every admitted step
keeps it. -/
theorem run_collect_induction {step : σ → ι → ρ × σ} {G : σ → ι → Prop}
    {emit : σ → ι → Option β} {P : σ → List β → Prop}
    (hstep : ∀ s op log, G s op → P s log → P (step s op).2 (log ++ (emit s op).toList))
    {s : σ} {log : List β} {ops : List ι} (hG : Along step G s ops) (h : P s log) :
    P (run step s ops) (log ++ collect step emit s ops) := by
  induction ops generalizing s log with
  | nil => simpa using h
  | cons op ops ih =>
      have hnext := ih hG.2 (hstep s op log hG.1 h)
      simpa [collect, List.append_assoc] using hnext

theorem run_collect {step : σ → ι → ρ × σ} {G : σ → ι → Prop} {emit : σ → ι → Option β}
    {P : σ → List β → Prop}
    (hstep : ∀ s op log, G s op → P s log → P (step s op).2 (log ++ (emit s op).toList))
    {s : σ} {ops : List ι} (hG : Along step G s ops) (h : P s []) :
    P (run step s ops) (collect step emit s ops) :=
  run_collect_induction hstep hG h

/-- The same rule with two logs. -/
theorem run_collect_both {γ : Type*} {step : σ → ι → ρ × σ} {G : σ → ι → Prop}
    {emit : σ → ι → Option β} {mark : σ → ι → Option γ} {P : σ → List β → List γ → Prop}
    (hstep : ∀ s op log marks, G s op → P s log marks →
      P (step s op).2 (log ++ (emit s op).toList) (marks ++ (mark s op).toList))
    {s : σ} {log : List β} {marks : List γ} {ops : List ι} (hG : Along step G s ops)
    (h : P s log marks) :
    P (run step s ops) (log ++ collect step emit s ops) (marks ++ collect step mark s ops) := by
  induction ops generalizing s log marks with
  | nil => simpa using h
  | cons op ops ih =>
      have hnext := ih hG.2 (hstep s op log marks hG.1 h)
      simpa [collect, List.append_assoc] using hnext

/-- The plain invariant rule. -/
theorem run_induction {step : σ → ι → ρ × σ} {G : σ → ι → Prop} {P : σ → Prop}
    (hstep : ∀ s op, G s op → P s → P (step s op).2)
    {s : σ} {ops : List ι} (hG : Along step G s ops) (h : P s) : P (run step s ops) := by
  induction ops generalizing s with
  | nil => exact h
  | cons op ops ih => exact ih hG.2 (hstep s op hG.1 h)

/-- An invariant that every step keeps, whatever its input. -/
theorem run_invariant {step : σ → ι → ρ × σ} {P : σ → Prop}
    (hstep : ∀ s op, P s → P (step s op).2) {s : σ} (ops : List ι) (h : P s) :
    P (run step s ops) :=
  run_induction (fun s op _ => hstep s op)
    (along_true step (fun _ _ => True) (fun _ _ => trivial) s ops) h

end Machine
