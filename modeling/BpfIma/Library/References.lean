import Mathlib.Data.Set.Card

/-! # Counted references

Each of any number of holders has at most one reference at a time. The count of an object
tallies when it is the number of its holders plus the references of its own, which belong to
no holder. -/

namespace References

variable {ι κ : Type*}

/-- How many hold `x`. -/
noncomputable def held (refs : ι → Option κ) (x : κ) : ℕ :=
  {n | refs n = some x}.ncard

theorem held_eq_zero {refs : ι → Option κ} {x : κ} (h : ∀ n, refs n ≠ some x) :
    held refs x = 0 := by
  have hempty : {n | refs n = some x} = ∅ := Set.eq_empty_of_forall_notMem h
  rw [held, hempty, Set.ncard_empty]

section

variable {refs : ι → Option κ} (hfinite : {n | refs n ≠ none}.Finite)

include hfinite

theorem finite_holders (x : κ) : {n | refs n = some x}.Finite := by
  refine hfinite.subset ?_
  intro n hn
  have href : refs n = some x := hn
  change refs n ≠ none
  rw [href]
  exact Option.some_ne_none x

theorem held_pos {n : ι} {x : κ} (hn : refs n = some x) : 0 < held refs x :=
  (Set.ncard_pos (finite_holders hfinite x)).mpr ⟨n, hn⟩

variable [DecidableEq ι]

theorem finite_update (n : ι) (ref : Option κ) :
    {m | Function.update refs n ref m ≠ none}.Finite := by
  refine (hfinite.insert n).subset ?_
  intro m hm
  by_cases hmn : m = n
  · exact .inl hmn
  · right
    simpa [hmn] using hm

theorem held_acquire {n : ι} {x : κ} (hn : refs n ≠ some x) :
    held (Function.update refs n (some x)) x = held refs x + 1 := by
  have hset : {m | Function.update refs n (some x) m = some x} =
      insert n {m | refs m = some x} := by
    ext m
    by_cases hmn : m = n <;> simp [hmn]
  have hnotMem : n ∉ {m | refs m = some x} := hn
  rw [held, hset, Set.ncard_insert_of_notMem hnotMem (finite_holders hfinite x), held]

theorem held_release {n : ι} {x : κ} (hn : refs n = some x) :
    held (Function.update refs n none) x + 1 = held refs x := by
  have hset : {m | Function.update refs n none m = some x} = {m | refs m = some x} \ {n} := by
    ext m
    by_cases hmn : m = n <;> simp [hmn]
  have hmem : n ∈ {m | refs m = some x} := hn
  rw [held, hset, Set.ncard_sdiff_singleton_add_one hmem (finite_holders hfinite x), held]

end

theorem held_update_of_ne [DecidableEq ι] {refs : ι → Option κ} {n : ι} {x : κ} {ref : Option κ}
    (hn : refs n ≠ some x) (href : ref ≠ some x) :
    held (Function.update refs n ref) x = held refs x := by
  have hset : {m | Function.update refs n ref m = some x} = {m | refs m = some x} := by
    ext m
    by_cases hmn : m = n
    · subst hmn
      simp [hn, href]
    · simp [hmn]
  rw [held, hset, held]

/-- The counts of the objects in `dom` tally, and only those objects are held. -/
structure Tallies (dom : Set κ) (count own : κ → ℕ) (refs : ι → Option κ) : Prop where
  finite : {n | refs n ≠ none}.Finite
  mem : ∀ {n x}, refs n = some x → x ∈ dom
  count : ∀ x ∈ dom, count x = held refs x + own x

namespace Tallies

variable {dom : Set κ} {count count' own own' : κ → ℕ} {refs : ι → Option κ} {n : ι} {x : κ}

theorem held_le (h : Tallies dom count own refs) (hx : x ∈ dom) : held refs x ≤ count x := by
  rw [h.count x hx]
  exact Nat.le_add_right _ _

/-- What a holder has is alive. -/
theorem count_ne_zero (h : Tallies dom count own refs) (hn : refs n = some x) : count x ≠ 0 := by
  have hpos := held_pos h.finite hn
  have hle := h.held_le (h.mem hn)
  omega

variable [DecidableEq ι]

theorem acquire (h : Tallies dom count own refs) (hn : refs n = none) (hx : x ∈ dom)
    (hcount : count' x = count x + 1) (hother : ∀ y ≠ x, count' y = count y) :
    Tallies dom count' own (Function.update refs n (some x)) := by
  refine ⟨finite_update h.finite n _, ?_, ?_⟩
  · intro m y hm
    by_cases hmn : m = n
    · subst hmn
      rw [Function.update_self] at hm
      rwa [← Option.some.inj hm]
    · rw [Function.update_of_ne hmn] at hm
      exact h.mem hm
  · intro y hy
    by_cases hyx : y = x
    · subst hyx
      rw [held_acquire h.finite (by simp [hn]), hcount, h.count y hy]
      omega
    · rw [held_update_of_ne (by simp [hn]) (by simpa using Ne.symm hyx), hother y hyx,
        h.count y hy]

/-- The reference of `n` goes away, or becomes one of the object's own. -/
theorem surrender (h : Tallies dom count own refs) (hn : refs n = some x)
    (hcount : count' x + own x + 1 = count x + own' x)
    (hother : ∀ y ≠ x, count' y = count y ∧ own' y = own y) :
    Tallies dom count' own' (Function.update refs n none) := by
  refine ⟨finite_update h.finite n _, ?_, ?_⟩
  · intro m y hm
    by_cases hmn : m = n
    · subst hmn
      simp at hm
    · rw [Function.update_of_ne hmn] at hm
      exact h.mem hm
  · intro y hy
    by_cases hyx : y = x
    · subst hyx
      have hheld := held_release h.finite hn
      have hbefore := h.count y hy
      omega
    · have hyn : refs n ≠ some y := by
        rw [hn]
        simpa using Ne.symm hyx
      rw [held_update_of_ne hyn (by simp), (hother y hyx).1, (hother y hyx).2, h.count y hy]

/-- A new object, with one reference for its maker. -/
theorem allocate {dom' : Set κ} (h : Tallies dom count own refs) (hn : refs n = none)
    (hx : x ∉ dom) (hdom : ∀ y, y ∈ dom' ↔ y = x ∨ y ∈ dom) (hcount : count' x = 1)
    (hown : own x = 0) (hother : ∀ y ≠ x, count' y = count y) :
    Tallies dom' count' own (Function.update refs n (some x)) := by
  have hnew : held refs x = 0 := held_eq_zero fun m hm => hx (h.mem hm)
  refine ⟨finite_update h.finite n _, ?_, ?_⟩
  · intro m y hm
    rw [hdom]
    by_cases hmn : m = n
    · subst hmn
      rw [Function.update_self] at hm
      exact .inl (Option.some.inj hm).symm
    · rw [Function.update_of_ne hmn] at hm
      exact .inr (h.mem hm)
  · intro y hy
    by_cases hyx : y = x
    · subst hyx
      rw [held_acquire h.finite (by simp [hn]), hnew, hcount, hown]
    · rw [held_update_of_ne (by simp [hn]) (by simpa using Ne.symm hyx), hother y hyx,
        h.count y (((hdom y).mp hy).resolve_left hyx)]

omit [DecidableEq ι] in
/-- One of the object's own references goes away. -/
theorem dropOwn (h : Tallies dom count own refs) (hcount : count' x + own x = count x + own' x)
    (hother : ∀ y ≠ x, count' y = count y ∧ own' y = own y) : Tallies dom count' own' refs := by
  refine ⟨h.finite, h.mem, ?_⟩
  intro y hy
  by_cases hyx : y = x
  · subst hyx
    have hbefore := h.count y hy
    omega
  · rw [(hother y hyx).1, (hother y hyx).2, h.count y hy]

end Tallies

end References
