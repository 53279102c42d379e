import BpfIma.Library.Machine
import BpfIma.Model.Policy

/-! # Normal snapshots

`normalize_snapshot` accepts its own output and leaves it as it is. -/

namespace BpfIma

open CString

/-- All that `normalize_snapshot` checks. -/
structure PolicySnapshot.Accepted (input : PolicySnapshot) : Prop where
  supported : input.config.actionFlags &&& (PolicyAction.alertSuspicious ||| PolicyAction.block) = 0
  config : input.config.accepted
  cgroups : ∀ i, (input.cgroups.get i).accepted
  paths : ∀ i, (input.paths.get i).accepted
  hooks : ∀ i, (input.hooks.get i).accepted

/-- What it returns then. -/
def PolicySnapshot.normalize (input : PolicySnapshot) : PolicySnapshot where
  config := input.config.normalize
  cgroups := input.cgroups.map PatternEntry.normalize
  paths := input.paths.map PatternEntry.normalize
  hooks := input.hooks.map HookConfig.normalize

theorem normalizeSnapshot_eq_ok {input out : PolicySnapshot} :
    normalizeSnapshot input = .ok out ↔ input.Accepted ∧ input.normalize = out := by
  constructor
  · intro h
    unfold normalizeSnapshot at h
    obtain ⟨hsupported, h⟩ := Machine.check_passed h (by simp)
    obtain ⟨hconfig, h⟩ := Machine.check_passed h (by simp)
    obtain ⟨hpatterns, h⟩ := Machine.check_passed h (by simp)
    obtain ⟨hhooks, h⟩ := Machine.check_passed h (by simp)
    rw [not_not] at hsupported hconfig hpatterns hhooks
    exact ⟨⟨hsupported, hconfig, hpatterns.1, hpatterns.2, hhooks⟩, Except.ok.inj h⟩
  · rintro ⟨h, rfl⟩
    rw [normalizeSnapshot, if_neg (not_not.mpr h.supported), if_neg (not_not.mpr h.config),
      if_neg (not_not.mpr ⟨h.cgroups, h.paths⟩), if_neg (not_not.mpr h.hooks)]
    rfl

theorem PatternEntry.accepted_normalize {entry : PatternEntry} (h : entry.accepted) :
    entry.normalize.accepted ∧ entry.normalize.normalize = entry.normalize := by
  obtain ⟨henabled, htype, -, hterminated, hpattern⟩ := h
  unfold PatternEntry.normalize
  by_cases hdisabled : entry.enabled = 0
  · simp only [hdisabled, ne_eq, not_true_eq_false, if_false]
    exact ⟨by decide, by decide⟩
  · have hlength := length_cstr_lt hterminated
    have hcopy : cstr (strscpy PatternEntry.zero.pattern (cstr entry.pattern)) =
        cstr entry.pattern :=
      cstr_strscpy hlength (zero_notMem_cstr _)
    simp only [ne_eq, hdisabled, not_false_eq_true, if_true]
    refine ⟨⟨UInt8.le_refl 1, htype, rfl, terminated_strscpy hlength, fun _ => ?_⟩, ?_⟩
    · rw [ne_eq, ← cstr_eq_nil_iff, hcopy, cstr_eq_nil_iff]
      exact hpattern hdisabled
    · rw [if_pos (by decide)]
      simp only [hcopy]

theorem HookConfig.accepted_normalize {hook : HookConfig} (h : hook.accepted) :
    hook.normalize.accepted ∧ hook.normalize.normalize = hook.normalize :=
  ⟨⟨h.1, rfl, rfl, rfl⟩, rfl⟩

theorem map_eq_self_iff {α : Type*} {n : ℕ} {f : α → α} {v : List.Vector α n} :
    v.map f = v ↔ ∀ i, f (v.get i) = v.get i := by
  constructor
  · intro h i
    exact (List.Vector.get_map v f i).symm.trans (by rw [h])
  · intro h
    refine List.Vector.ext fun i => ?_
    rw [List.Vector.get_map, h i]

theorem map_map_self {α : Type*} {n : ℕ} {f : α → α} {v : List.Vector α n}
    (h : ∀ i, f (f (v.get i)) = f (v.get i)) : (v.map f).map f = v.map f := by
  rw [map_eq_self_iff]
  simpa only [List.Vector.get_map] using h

/-- The output of a normalisation is normal. -/
theorem normalizeSnapshot_idempotent {input out : PolicySnapshot}
    (h : normalizeSnapshot input = .ok out) : normalizeSnapshot out = .ok out := by
  obtain ⟨haccepted, rfl⟩ := normalizeSnapshot_eq_ok.mp h
  rw [normalizeSnapshot_eq_ok]
  refine ⟨⟨haccepted.supported, ?_, ?_, ?_, ?_⟩, ?_⟩
  · obtain ⟨h1, h2, h3, h4, h5, h6, h7, -⟩ := haccepted.config
    exact ⟨h1, h2, h3, h4, h5, h6, h7, rfl⟩
  · intro i
    rw [PolicySnapshot.normalize, List.Vector.get_map]
    exact (PatternEntry.accepted_normalize (haccepted.cgroups i)).1
  · intro i
    rw [PolicySnapshot.normalize, List.Vector.get_map]
    exact (PatternEntry.accepted_normalize (haccepted.paths i)).1
  · intro i
    rw [PolicySnapshot.normalize, List.Vector.get_map]
    exact (HookConfig.accepted_normalize (haccepted.hooks i)).1
  · simp only [PolicySnapshot.normalize, PolicySnapshot.mk.injEq]
    refine ⟨rfl, map_map_self ?_, map_map_self ?_, map_map_self ?_⟩
    · exact fun i => (PatternEntry.accepted_normalize (haccepted.cgroups i)).2
    · exact fun i => (PatternEntry.accepted_normalize (haccepted.paths i)).2
    · exact fun i => (HookConfig.accepted_normalize (haccepted.hooks i)).2

end BpfIma
