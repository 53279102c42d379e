import Mathlib.Data.List.OfFn
import Mathlib.Order.Fin.Basic

/-! # Values that occur in order

The values of one list occur in another from left to right. Unlike in a sublist, one
position may serve several equal values in a row. -/

namespace Occurrence

variable {α : Type*}

/-- The values occur in the list, each at the position of the one before it or later. -/
inductive Occurs : List α → List α → Prop where
  | nil (l : List α) : Occurs [] l
  | here {x : α} {values l : List α} (h : Occurs values (x :: l)) : Occurs (x :: values) (x :: l)
  | later {x : α} {values l : List α} (h : Occurs values l) : Occurs values (x :: l)

namespace Occurs

variable {x y : α} {values l : List α}

theorem tail (h : Occurs (x :: values) l) : Occurs values l := by
  induction l with
  | nil => cases h
  | cons y l ih =>
      cases h with
      | here h => exact h
      | later h => exact .later (ih h)

theorem of_ne (h : Occurs (x :: values) (y :: l)) (hne : y ≠ x) : Occurs (x :: values) l := by
  cases h with
  | here => exact absurd rfl hne
  | later h => exact h

theorem mem (h : Occurs values l) (hx : x ∈ values) : x ∈ l := by
  induction h with
  | nil l => cases hx
  | here _ ih =>
      rcases List.mem_cons.mp hx with rfl | hx
      · exact List.mem_cons_self
      · exact ih hx
  | later _ ih => exact List.mem_cons_of_mem _ (ih hx)

theorem append_left (front : List α) (h : Occurs values l) : Occurs values (front ++ l) := by
  induction front with
  | nil => exact h
  | cons x front ih => exact .later ih

theorem append_right (back : List α) (h : Occurs values l) : Occurs values (l ++ back) := by
  induction h with
  | nil l => exact .nil _
  | here _ ih => exact .here ih
  | later _ ih => exact .later ih

theorem of_sublist (h : values.Sublist l) : Occurs values l := by
  induction h with
  | slnil => exact .nil []
  | cons x _ ih => exact .later ih
  | cons_cons x _ ih => exact .here (.later ih)

theorem exists_index {n : ℕ} {f : Fin n → α} (h : Occurs (List.ofFn f) l) :
    ∃ index : Fin n → Fin l.length, Monotone index ∧ ∀ j, l.get (index j) = f j := by
  generalize hvalues : List.ofFn f = values at h
  induction h generalizing n with
  | nil l =>
      obtain rfl := List.ofFn_eq_nil_iff.mp hvalues
      exact ⟨Fin.elim0, fun j => j.elim0, fun j => j.elim0⟩
  | here _ ih =>
      cases n with
      | zero => simp at hvalues
      | succ n =>
          rw [List.ofFn_succ] at hvalues
          obtain ⟨hx, hvalues⟩ := List.cons.inj hvalues
          obtain ⟨index, hmono, hget⟩ := ih hvalues
          refine ⟨Fin.cases 0 index, ?_, Fin.cases hx.symm hget⟩
          refine Fin.cases (fun j _ => Fin.zero_le _) fun i => Fin.cases ?_ fun j hij => ?_
          · exact fun hij => absurd hij (Fin.not_le.mpr i.succ_pos)
          · exact hmono (Fin.succ_le_succ_iff.mp hij)
  | later _ ih =>
      obtain ⟨index, hmono, hget⟩ := ih hvalues
      exact ⟨fun j => (index j).succ, fun i j hij => Fin.succ_le_succ_iff.mpr (hmono hij), hget⟩

theorem of_index {n : ℕ} {f : Fin n → α} (index : Fin n → Fin l.length) (hmono : Monotone index)
    (hget : ∀ j, l.get (index j) = f j) : Occurs (List.ofFn f) l := by
  -- The head of the list serves the values with position 0; the others are in its tail.
  induction l generalizing n with
  | nil =>
      cases n with
      | zero => exact .nil []
      | succ n => exact (index 0).elim0
  | cons y l ih =>
      induction n with
      | zero => exact .nil _
      | succ n ihn =>
          by_cases hzero : index 0 = 0
          · have hy : y = f 0 := by
              have hfirst := hget 0
              rwa [hzero] at hfirst
            rw [List.ofFn_succ, ← hy]
            exact .here (ihn _ (fun i j hij => hmono (Fin.succ_le_succ_iff.mpr hij))
              fun j => hget j.succ)
          · have hpos : ∀ j, index j ≠ 0 := fun j hj =>
              hzero (Fin.le_zero_iff.mp (hj ▸ hmono (Fin.zero_le j)))
            refine .later (ih (fun j => (index j).pred (hpos j)) ?_ ?_)
            · exact fun i j hij => Fin.pred_le_pred_iff.mpr (hmono hij)
            · intro j
              rw [← hget j]
              conv_rhs => rw [← Fin.succ_pred (index j) (hpos j)]
              rfl

end Occurs

/-- The values occur if there are positions for them, from left to right. -/
theorem occurs_ofFn_map_iff {β : Type*} {n : ℕ} {f : Fin n → α} {value : β → α} {l : List β} :
    Occurs (List.ofFn f) (l.map value) ↔
      ∃ index : Fin n → Fin l.length, Monotone index ∧ ∀ j, value (l.get (index j)) = f j := by
  constructor
  · intro h
    obtain ⟨index, hmono, hget⟩ := h.exists_index
    refine ⟨fun j => (index j).cast (List.length_map _), fun i j hij => hmono hij, fun j => ?_⟩
    rw [← hget j]
    simp
  · rintro ⟨index, hmono, hget⟩
    refine .of_index (fun j => (index j).cast (List.length_map _).symm)
      (fun i j hij => hmono hij) fun j => ?_
    rw [← hget j]
    simp

end Occurrence
