import Mathlib.Data.UInt

/-! # Flag words

Sets of flags as the bits of a 32-bit word. -/

namespace Bits

/-- Every flag of `a` is one of `b`. -/
def Subset (a b : UInt32) : Prop := a &&& ~~~b = 0

instance (a b : UInt32) : Decidable (Subset a b) := inferInstanceAs (Decidable (_ = _))

variable {a b c : UInt32}

theorem subset_iff_getLsbD :
    Subset a b ↔ ∀ i, a.toBitVec.getLsbD i = true → b.toBitVec.getLsbD i = true := by
  rw [Subset, ← UInt32.toBitVec_inj]
  constructor
  · intro h i ha
    have hbit := congrArg (fun v => BitVec.getLsbD v i) h
    have hi : i < 32 := BitVec.lt_of_getLsbD ha
    rw [BitVec.getLsbD_eq_getElem hi]
    simpa [ha, hi] using hbit
  · intro h
    refine BitVec.eq_of_getLsbD_eq fun i hi => ?_
    have hi' := h i
    cases ha : a.toBitVec.getLsbD i <;> simp_all

theorem Subset.refl (a : UInt32) : Subset a a := by simp [Subset]

theorem subset_or_left (a b : UInt32) : Subset a (a ||| b) := by
  rw [subset_iff_getLsbD]
  intro i ha
  simp [ha]

theorem and_subset_left (a b : UInt32) : Subset (a &&& b) a := by
  rw [subset_iff_getLsbD]
  intro i h
  exact (by simpa using h : _ ∧ _).1

theorem Subset.or_eq (h : Subset a b) : a ||| b = b := by
  rw [subset_iff_getLsbD] at h
  rw [← UInt32.toBitVec_inj]
  refine BitVec.eq_of_getLsbD_eq fun i _ => ?_
  have hi := h i
  cases ha : a.toBitVec.getLsbD i <;> simp_all

theorem Subset.and_eq (h : Subset a b) : b &&& a = a := by
  rw [subset_iff_getLsbD] at h
  rw [← UInt32.toBitVec_inj]
  refine BitVec.eq_of_getLsbD_eq fun i _ => ?_
  have hi := h i
  cases ha : a.toBitVec.getLsbD i <;> simp_all

/-- A flag that is set stays set in a larger set. -/
theorem Subset.and_ne_zero (h : Subset a b) (ha : a &&& c ≠ 0) : b &&& c ≠ 0 := by
  intro hb
  apply ha
  rw [← h.and_eq, UInt32.and_comm b, UInt32.and_assoc, hb, UInt32.and_zero]

theorem or_and (a b c : UInt32) : (a ||| b) &&& c = a &&& c ||| b &&& c := by
  rw [← UInt32.toBitVec_inj]
  refine BitVec.eq_of_getLsbD_eq fun i _ => ?_
  simp [Bool.and_or_distrib_right]

theorem Subset.or (ha : Subset a c) (hb : Subset b c) : Subset (a ||| b) c := by
  rw [Subset, or_and, ha, hb, UInt32.or_zero]

/-! ## Switches -/

/-- `if (on) word |= flag;` for each switch in turn. -/
def assemble (switches : List (Bool × UInt32)) : UInt32 :=
  switches.foldl (fun word switch => if switch.1 then word ||| switch.2 else word) 0

theorem assemble_cons (switch : Bool × UInt32) (switches : List (Bool × UInt32)) :
    assemble (switch :: switches) = (if switch.1 then switch.2 else 0) ||| assemble switches := by
  have hfrom (word : UInt32) : switches.foldl
      (fun word switch => if switch.1 then word ||| switch.2 else word) word =
        word ||| assemble switches := by
    induction switches generalizing word with
    | nil => exact UInt32.or_zero.symm
    | cons s l ih =>
        rw [assemble, List.foldl_cons, List.foldl_cons, ih, ih]
        cases s.1 <;> simp [UInt32.or_assoc]
  rw [assemble, List.foldl_cons, hfrom]
  cases switch.1 <;> simp

theorem assemble_subset {switches : List (Bool × UInt32)} {mask : UInt32}
    (h : ∀ switch ∈ switches, Subset switch.2 mask) : Subset (assemble switches) mask := by
  induction switches with
  | nil => exact UInt32.zero_and
  | cons s l ih =>
      rw [assemble_cons]
      refine Subset.or ?_ (ih fun switch hswitch => h switch (List.mem_cons_of_mem s hswitch))
      cases s.1 with
      | false => exact UInt32.zero_and
      | true => exact h s List.mem_cons_self

theorem assemble_and_of_disjoint {switches : List (Bool × UInt32)} {flag : UInt32}
    (h : ∀ switch ∈ switches, switch.2 &&& flag = 0) : assemble switches &&& flag = 0 := by
  induction switches with
  | nil => exact UInt32.zero_and
  | cons s l ih =>
      rw [assemble_cons, or_and, ih fun switch hswitch => h switch (List.mem_cons_of_mem s hswitch)]
      cases s.1 with
      | false => simp
      | true => simp [h s List.mem_cons_self]

/-- Each switch decides over its own flag. -/
theorem assemble_and {switches : List (Bool × UInt32)}
    (hdisjoint : switches.Pairwise fun s t => s.2 &&& t.2 = 0) {switch : Bool × UInt32}
    (h : switch ∈ switches) :
    assemble switches &&& switch.2 = if switch.1 then switch.2 else 0 := by
  induction switches with
  | nil => cases h
  | cons s l ih =>
      obtain ⟨hs, hl⟩ := List.pairwise_cons.mp hdisjoint
      rw [assemble_cons, or_and]
      rcases List.mem_cons.mp h with rfl | h
      · have hrest : assemble l &&& switch.2 = 0 :=
          assemble_and_of_disjoint fun t ht => by rw [UInt32.and_comm, hs t ht]
        rw [hrest]
        cases switch.1 <;> simp
      · rw [ih hl h]
        cases s.1 <;> simp [hs switch h]

end Bits
