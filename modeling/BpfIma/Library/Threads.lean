import Mathlib.Logic.Function.Basic
import BpfIma.Library.Machine

/-! # Threads over a shared state

Any number of threads act on a shared state, one action at a time and in any order, and
an environment acts on it in between. A thread sees the shared state and its own local
one. The rely-guarantee rule reduces an invariant of all runs to three facts about single
actions. -/

namespace Threads

open Machine

variable {σ τ α ω β : Type*}

structure State (σ τ : Type*) where
  shared : σ
  locals : ℕ → τ

/-- An action of the thread `n`, or one of the environment. -/
inductive Op (α ω : Type*) where
  | act (n : ℕ) (a : α)
  | other (w : ω)

section

variable (act : σ → τ → α → τ × σ) (other : σ → ω → σ)

def step (s : State σ τ) : Op α ω → Unit × State σ τ
  | .act n a =>
      ((), ⟨(act s.shared (s.locals n) a).2,
        Function.update s.locals n (act s.shared (s.locals n) a).1⟩)
  | .other w => ((), ⟨other s.shared w, s.locals⟩)

/-- The log of a run: only threads write to it. -/
def emitted (emit : σ → τ → α → Option β) (s : State σ τ) : Op α ω → Option β
  | .act n a => emit s.shared (s.locals n) a
  | .other _ => none

/-! ## One thread alone -/

/-- What a thread does that nobody interrupts. -/
def solo (x : σ) (l : τ) : List α → τ × σ
  | [] => (l, x)
  | a :: as => solo (act x l a).2 (act x l a).1 as

theorem run_solo (s : State σ τ) (n : ℕ) (as : List α) :
    run (step act other) s (as.map (Op.act n)) =
      ⟨(solo act s.shared (s.locals n) as).2,
        Function.update s.locals n (solo act s.shared (s.locals n) as).1⟩ := by
  induction as generalizing s with
  | nil => simp [solo]
  | cons a as ih =>
      rw [List.map_cons, run_cons, ih]
      simp [step, solo]

/-! ## Rely and guarantee -/

/-- `I` relates the shared state to the log, `J` to the local state of each thread. Every
action keeps them and changes the shared state as `R` allows; a thread relies on the others
to do no more. -/
structure RelyGuarantee (emit : σ → τ → α → Option β) (I : σ → List β → Prop)
    (J : σ → τ → Prop) (R : σ → σ → Prop) : Prop where
  act : ∀ {x l log} (a : α), I x log → J x l →
    I (act x l a).2 (log ++ (emit x l a).toList) ∧ J (act x l a).2 (act x l a).1 ∧
      R x (act x l a).2
  other : ∀ {x log} (w : ω), I x log → I (other x w) log ∧ R x (other x w)
  stable : ∀ {x y l}, R x y → J x l → J y l

end

/-- The state of the system as the rule sees it. -/
structure Holds (I : σ → List β → Prop) (J : σ → τ → Prop) (s : State σ τ) (log : List β) :
    Prop where
  shared : I s.shared log
  locals : ∀ n, J s.shared (s.locals n)

namespace RelyGuarantee

variable {act : σ → τ → α → τ × σ} {other : σ → ω → σ} {emit : σ → τ → α → Option β}
  {I : σ → List β → Prop} {J : σ → τ → Prop} {R : σ → σ → Prop}

theorem step (h : RelyGuarantee act other emit I J R) {s : State σ τ} {log : List β}
    (hs : Holds I J s log) (op : Op α ω) :
    Holds I J (step act other s op).2 (log ++ (emitted emit s op).toList) ∧
      R s.shared (Threads.step act other s op).2.shared := by
  cases op with
  | act n a =>
      obtain ⟨hshared, hlocal, hguarantee⟩ := h.act a hs.shared (hs.locals n)
      refine ⟨⟨hshared, ?_⟩, hguarantee⟩
      intro m
      by_cases hm : m = n
      · subst hm
        simpa [Threads.step] using hlocal
      · simpa [Threads.step, hm] using h.stable hguarantee (hs.locals m)
  | other w =>
      obtain ⟨hshared, hguarantee⟩ := h.other w hs.shared
      refine ⟨⟨?_, fun m => h.stable hguarantee (hs.locals m)⟩, hguarantee⟩
      simpa [emitted, Threads.step] using hshared

/-- The rely-guarantee rule for runs. -/
theorem run (h : RelyGuarantee act other emit I J R) {s : State σ τ} {log : List β}
    (hs : Holds I J s log) (ops : List (Op α ω)) :
    Holds I J (run (Threads.step act other) s ops)
      (log ++ collect (Threads.step act other) (emitted emit) s ops) :=
  run_collect_induction (P := Holds I J) (fun _ op _ _ hlog => (h.step hlog op).1)
    (along_true _ (fun _ _ => True) (fun _ _ => trivial) s ops) hs

/-- What every action guarantees, a run guarantees. -/
theorem guarantee (h : RelyGuarantee act other emit I J R) (hrefl : ∀ x, R x x)
    (htrans : ∀ {x y z}, R x y → R y z → R x z) {s : State σ τ} {log : List β}
    (hs : Holds I J s log) (ops : List (Op α ω)) :
    R s.shared (Machine.run (Threads.step act other) s ops).shared := by
  induction ops generalizing s log with
  | nil => exact hrefl _
  | cons op ops ih =>
      obtain ⟨hnext, hguarantee⟩ := h.step hs op
      exact htrans hguarantee (ih hnext)

end RelyGuarantee

end Threads
