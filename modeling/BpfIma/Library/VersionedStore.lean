import Mathlib.Data.List.Basic
import Mathlib.Logic.Function.Basic

/-! # Versioned stores

A table in which a change writes one key and raises the version by one, and the
histories of such changes. -/

/-- A table of values by key, with the number of the last change. -/
@[ext] structure VersionedStore (κ ν : Type*) where
  version : ℕ
  value : κ → Option ν

namespace VersionedStore

variable {κ ν : Type*} [DecidableEq κ]

/-- One change. -/
def publish (store : VersionedStore κ ν) (k : κ) (v : ν) : VersionedStore κ ν :=
  ⟨store.version + 1, Function.update store.value k (some v)⟩

@[simp] theorem value_publish_self (store : VersionedStore κ ν) (k : κ) (v : ν) :
    (store.publish k v).value k = some v :=
  Function.update_self _ _ _

theorem value_publish_of_ne (store : VersionedStore κ ν) {k k' : κ} (v : ν) (h : k' ≠ k) :
    (store.publish k v).value k' = store.value k' :=
  Function.update_of_ne h _ _

/-- `after` comes from `before` by the changes of the log, oldest first, each of them
admitted by the store it was made to. -/
inductive Evolves (admits : VersionedStore κ ν → κ → ν → Prop) (before : VersionedStore κ ν) :
    List (κ × ν) → VersionedStore κ ν → Prop where
  | refl : Evolves admits before [] before
  | publish {log : List (κ × ν)} {after : VersionedStore κ ν} {k : κ} {v : ν}
      (h : Evolves admits before log after) (hadmits : admits after k v) :
      Evolves admits before (log ++ [(k, v)]) (after.publish k v)

namespace Evolves

variable {admits : VersionedStore κ ν → κ → ν → Prop} {a b c : VersionedStore κ ν}
  {log log' : List (κ × ν)}

theorem trans (hab : Evolves admits a log b) (hbc : Evolves admits b log' c) :
    Evolves admits a (log ++ log') c := by
  induction hbc with
  | refl => simpa using hab
  | publish _ hadmits ih =>
      rw [← List.append_assoc]
      exact ih.publish hadmits

/-- The version counts the changes. -/
theorem version (h : Evolves admits a log b) : b.version = a.version + log.length := by
  induction h with
  | refl => rfl
  | publish _ _ ih =>
      rw [VersionedStore.publish, ih, List.length_append]
      rfl

/-- A key that the log does not mention keeps its value. -/
theorem value_of_notMem (h : Evolves admits a log b) {k : κ} (hk : k ∉ log.map Prod.fst) :
    b.value k = a.value k := by
  induction h with
  | refl => rfl
  | publish _ _ ih =>
      simp only [List.map_append, List.map_cons, List.map_nil, List.mem_append,
        List.mem_singleton, not_or] at hk
      rw [value_publish_of_ne _ _ hk.2, ih hk.1]

/-- No key is removed. -/
theorem isSome_value (h : Evolves admits a log b) {k : κ} (hk : (a.value k).isSome = true) :
    (b.value k).isSome = true := by
  induction h with
  | refl => exact hk
  | @publish _ after k' v _ _ ih =>
      by_cases heq : k = k'
      · simp [heq]
      · rw [value_publish_of_ne _ _ heq]
        exact ih

/-- What is admitted only of good values keeps all values good. -/
theorem forall_value (h : Evolves admits a log b) {good : κ → ν → Prop}
    (hadmits : ∀ store k v, admits store k v → good k v)
    (ha : ∀ k v, a.value k = some v → good k v) : ∀ k v, b.value k = some v → good k v := by
  induction h with
  | refl => exact ha
  | @publish _ after k' v' _ hadmitted ih =>
      intro k v hv
      by_cases heq : k = k'
      · rw [heq, value_publish_self, Option.some.injEq] at hv
        rw [heq, ← hv]
        exact hadmits _ _ _ hadmitted
      · rw [value_publish_of_ne _ _ heq] at hv
        exact ih k v hv

end Evolves

end VersionedStore
