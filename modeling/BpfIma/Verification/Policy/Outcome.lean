import BpfIma.Verification.Policy.LongRun

/-! # What an edit comes to

Every outcome of a scalar edit has its reason in the edited field; and edits of different
fields do not get in each other's way. -/

namespace BpfIma

open CString Errno Machine

/-! ## The outcome of an edit -/

theorem candidateFor_eq_none {state : PolicyState} {id : Bytes} (h : candidateFor state id = none) :
    state.store.value id = none ∧ state.namespaceCount = 32 := by
  unfold candidateFor at h
  split at h
  · cases h
  · rename_i hindex
    split at h
    · rename_i hcount
      exact ⟨by rw [value_store, hindex, Option.map_none], hcount⟩
    · cases h

/-- All that an edit of `field` in the namespace `id` can come to, from the policy before it
and after it: each return value with its reason. -/
inductive EditContract (before after : BpfMap) (id field : Bytes) (value : UInt32) :
    Ret → Prop where
  | success (f : ScalarField) (hfield : f.text = field)
      (hvalue : after.active.store.value = Function.update before.active.store.value id
        (some (f.edit (before.active.editBase id) value))) :
      EditContract before after id field value 0
  | weaker (f : ScalarField) (hfield : f.text = field)
      (hweaker : f.WeakerThan before.active.root.config value) :
      EditContract before after id field value (-eperm)
  | forbidden {ret : Ret} (hret : ret = -einval ∨ ret = -eopnotsupp)
      (hforbids : ∀ f : ScalarField, f.text = field → f.Forbids value) :
      EditContract before after id field value ret
  | full (hmissing : before.active.store.value id = none)
      (hcount : before.active.namespaceCount = 32) :
      EditContract before after id field value (-enospc)
  | exhausted (hmax : before.generation = 0xffffffffffffffff) :
      EditContract before after id field value (-eoverflow)

theorem ScalarField.text_injective {f g : ScalarField} (h : f.text = g.text) : f = g := by
  cases f <;> cases g <;> first | rfl | exact absurd h (by decide)

theorem EditOutcome.contract {s t : KernelState} {m : ℕ} {id : Bytes} {f : ScalarField}
    {value : UInt32} {ret : Ret} (h : EditOutcome s m id f value ret t) :
    EditContract (s.maps m) (t.maps m) id f.text value ret := by
  have hforbidden (hforbids : f.Forbids value) {ret : Ret}
      (hret : ret = -einval ∨ ret = -eopnotsupp) :
      EditContract (s.maps m) (t.maps m) id f.text value ret := by
    refine .forbidden hret fun g hg => ?_
    rw [ScalarField.text_injective hg]
    exact hforbids
  cases h with
  | refused hrefusal =>
      unfold PolicyState.editRefusal at hrefusal
      split at hrefusal
      · rename_i hlarge
        obtain rfl := Option.some.inj hrefusal
        refine hforbidden ?_ (.inl rfl)
        obtain ⟨rfl, hlarge⟩ := hlarge
        exact hlarge
      · split at hrefusal
        · rename_i hroom
          obtain rfl := Option.some.inj hrefusal
          obtain ⟨hmissing, hcount⟩ := candidateFor_eq_none hroom
          exact .full hmissing hcount
        · split at hrefusal
          · rename_i hforbids
            obtain rfl := Option.some.inj hrefusal
            exact hforbidden hforbids (f.refusal_cases value)
          · split at hrefusal
            · rename_i hweaker
              obtain rfl := Option.some.inj hrefusal
              exact .weaker f rfl hweaker.2
            · cases hrefusal
  | same namespaces haccepted hkept =>
      refine .success f rfl ?_
      rw [← hkept, Function.update_eq_self]
  | exhausted namespaces haccepted hchanged hmax => exact .exhausted hmax
  | published haccepted hmax hgeneration hvalue hcommitted => exact .success f rfl hvalue

/-- In every reachable state, what an edit of a namespace comes to depends on the field, its
value and the root's value of that field; and the snapshot it starts from always passes the
checks by itself. -/
theorem scalar_edit_outcome (P : Platform) (maps : ℕ → BpfMap) (tpmPcrIndex : ℤ)
    (ops : List KernelOp) (m : ℕ) (hbound : (kernelRun P maps tpmPcrIndex ops).policyMap = some m)
    (hlatched : (kernelRun P maps tpmPcrIndex ops).engine.commitError = 0) (env : ApplyEnv)
    (henv : env.Succeeds (kernelRun P maps tpmPcrIndex ops).engine) (id : Bytes)
    (hid : validNamespace id = true) (field : Bytes) (value : UInt32) :
    EditContract ((kernelRun P maps tpmPcrIndex ops).maps m)
        ((policyUpdateField P true env (some id) (some field) value
          (kernelRun P maps tpmPcrIndex ops)).2.maps m) id field value
        (policyUpdateField P true env (some id) (some field) value
          (kernelRun P maps tpmPcrIndex ops)).1 ∧
      normalizeSnapshot (((kernelRun P maps tpmPcrIndex ops).maps m).active.editBase id) =
        .ok (((kernelRun P maps tpmPcrIndex ops).maps m).active.editBase id) ∧
      validateExtension ((kernelRun P maps tpmPcrIndex ops).maps m).active.root
        (((kernelRun P maps tpmPcrIndex ops).maps m).active.editBase id) = 0 := by
  have hs := PolicyBound.of_run P maps tpmPcrIndex ops m hbound
  have htfm := tfm_kernelRun P maps tpmPcrIndex ops
  have hne := (validNamespace_spec hid).2.1
  have hwf := hs.active_wellFormed
  have hname : ∀ name ∈ some id, validNamespace name = true := by
    rintro name ⟨⟩
    exact hid
  refine ⟨?_, hwf.editBase_normal id,
    validateExtension_eq_zero_iff.mpr (hwf.editBase_extends hne)⟩
  by_cases hfield : ∃ f : ScalarField, f.text = field
  · obtain ⟨f, rfl⟩ := hfield
    exact (policyUpdateField_edit hbound hs hlatched htfm henv (some id) hname f value).contract
  · push Not at hfield
    rw [policyUpdateField_unknown hbound hname hfield]
    exact .forbidden (.inl rfl) fun f hf => absurd hf (hfield f)

theorem scalar_edit_outcome_extendedManager :
    extendedManager.policyMap = some 0 ∧ extendedManager.engine.commitError = 0 ∧
      validNamespace webId = true ∧
      EditContract (extendedManager.maps 0)
        ((policyUpdateField referencePlatform true workingApply (some webId)
          (some "min_file_size".ascii) 0 extendedManager).2.maps 0) webId "min_file_size".ascii 0
        (policyUpdateField referencePlatform true workingApply (some webId)
          (some "min_file_size".ascii) 0 extendedManager).1 := by
  have hstate : extendedManager.policyMap = some 0 ∧ extendedManager.engine.commitError = 0 ∧
      extendedManager.engine.hardwareAnchored = true ∧
      extendedManager.engine.tpmPcrIndex = 10 := by decide +kernel
  obtain ⟨hbound, hlatched, hanchored, hpcr⟩ := hstate
  have hid : validNamespace webId = true := by decide
  exact ⟨hbound, hlatched, hid, (scalar_edit_outcome referencePlatform (fun _ => unboundPolicyMap)
    10 [.policyBindMap workingBind, .policyApply workingApply (some verboseRequest)] 0 hbound
    hlatched workingApply (workingApply_succeeds hanchored hpcr) webId hid "min_file_size".ascii
    0).1⟩

/-- At the last generation an edit that nothing else stands against is refused. -/
theorem scalar_edit_outcome_last_generation :
    ∃ ops, (referenceRun ops).policyMap = some 0 ∧ (referenceRun ops).engine.commitError = 0 ∧
      workingApply.Succeeds (referenceRun ops).engine ∧ validNamespace webId = true ∧
      ¬ ScalarField.logLevel.WeakerThan ((referenceRun ops).maps 0).active.root.config 2 ∧
      ¬ ScalarField.logLevel.Forbids 2 ∧
      ((referenceRun ops).maps 0).active.store.value webId ≠ none ∧
      (policyUpdateField referencePlatform true workingApply (some webId) (some "log_level".ascii) 2
        (referenceRun ops)).1 = -eoverflow := by
  obtain ⟨ops, h⟩ := exists_toggled (2 ^ 64 - 1) (by decide) (by decide)
  have hs := PolicyBound.of_run _ _ _ _ 0 h.bound
  have htfm := tfm_kernelRun referencePlatform (fun _ => unboundPolicyMap) 10 ops
  have henv := workingApply_succeeds h.anchored h.pcrIndex
  have hedit : EditOutcome _ 0 webId .logLevel 2 _ _ := policyUpdateField_edit
    (P := referencePlatform) h.bound hs h.unlatched htfm henv (some webId) (by decide) .logLevel 2
  refine ⟨ops, h.bound, h.unlatched, henv, by decide, h.webLevel.1, by decide, ?_, ?_⟩
  · rw [h.record]
    exact Option.some_ne_none _
  · refine hedit.ret_eq.trans ?_
    rw [BpfMap.editRet, editRefusal_eq_none_iff.mpr ⟨by decide, candidateFor_of_value h.record,
      by decide, fun _ => h.webLevel.1⟩]
    refine if_pos ⟨UInt64.toNat_inj.mp h.generation, ?_⟩
    rw [h.record]
    exact fun heq => h.webLevel.2 _ (Option.some.inj heq)

/-! ## Two edits -/

namespace EditOutcome

variable {s t : KernelState} {m : ℕ} {id : Bytes} {f : ScalarField} {value : UInt32} {ret : Ret}

theorem unlatched (h : EditOutcome s m id f value ret t) (hs : s.engine.commitError = 0) :
    t.engine.commitError = 0 := by
  cases h with
  | refused | same | exhausted => exact hs
  | published haccepted hmax hgeneration hvalue hcommitted => exact hcommitted.unlatched

/-- The epoch stays anchored to the same PCR. -/
theorem epoch (h : EditOutcome s m id f value ret t) :
    (s.engine.hardwareAnchored = true → t.engine.hardwareAnchored = true) ∧
      t.engine.tpmPcrIndex = s.engine.tpmPcrIndex := by
  cases h with
  | refused | same | exhausted => exact ⟨fun hs => hs, rfl⟩
  | published haccepted hmax hgeneration hvalue hcommitted =>
      exact ⟨hcommitted.anchored, hcommitted.pcrIndex⟩

/-- Nothing is published after the last generation. -/
theorem maps_of_max (h : EditOutcome s m id f value ret t)
    (hmax : (s.maps m).generation = 0xffffffffffffffff) : t.maps m = s.maps m := by
  cases h with
  | refused | same | exhausted => rfl
  | published haccepted hnot => exact absurd hmax hnot

/-- An edit uses up at most one generation. -/
theorem generation_ne_max (h : EditOutcome s m id f value ret t)
    (hlast : (s.maps m).generation ≠ 0xffffffffffffffff)
    (hsecond : (s.maps m).generation ≠ 0xfffffffffffffffe) :
    (t.maps m).generation ≠ 0xffffffffffffffff := by
  cases h with
  | refused | same | exhausted => exact hlast
  | published haccepted hmax hgeneration =>
      rw [hgeneration]
      intro heq
      apply hsecond
      rw [← UInt64.toNat_inj] at heq ⊢
      rw [toNat_succ_of_ne_zero (succ_ne_zero_of_ne_max hmax)] at heq
      exact Nat.succ.inj heq

/-- An edit that changes something uses one. -/
theorem generation_of_changed (h : EditOutcome s m id f value ret t)
    (haccepted : (s.maps m).active.editRefusal id f value = none)
    (hchanged : (s.maps m).active.store.value id ≠
      some (f.edit ((s.maps m).active.editBase id) value))
    (hlast : (s.maps m).generation ≠ 0xffffffffffffffff) :
    (t.maps m).generation = (s.maps m).generation + 1 := by
  cases h with
  | refused hrefusal => cases haccepted.symm.trans hrefusal
  | same namespaces _ hkept => exact absurd hkept hchanged
  | exhausted namespaces _ _ hmax => exact absurd hmax hlast
  | published _ _ hgeneration => exact hgeneration

/-- While there are generations left, an edit is refused or takes effect. -/
theorem effect (h : EditOutcome s m id f value ret t)
    (hlast : (s.maps m).generation ≠ 0xffffffffffffffff) :
    ((s.maps m).active.editRefusal id f value = some ret ∧ t = s) ∨
      (s.maps m).active.editRefusal id f value = none ∧ ret = 0 ∧
        (t.maps m).active.store.value = Function.update (s.maps m).active.store.value id
          (some (f.edit ((s.maps m).active.editBase id) value)) := by
  cases h with
  | refused hrefusal => exact .inl ⟨hrefusal, rfl⟩
  | same namespaces haccepted hkept =>
      refine .inr ⟨haccepted, rfl, ?_⟩
      rw [← hkept, Function.update_eq_self]
  | exhausted namespaces haccepted hchanged hmax => exact absurd hmax hlast
  | published haccepted hmax hgeneration hvalue => exact .inr ⟨haccepted, rfl, hvalue⟩

end EditOutcome

/-- What an accepted edit stores passes the checks by itself. -/
theorem PolicyState.WellFormed.edited {state : PolicyState} {id : Bytes} {f : ScalarField}
    {value : UInt32} (hwf : state.WellFormed) (haccepted : state.editRefusal id f value = none) :
    normalizeSnapshot (f.edit (state.editBase id) value) = .ok (f.edit (state.editBase id) value) ∧
      (id ≠ [] → ExtensionOf state.root (f.edit (state.editBase id) value)) := by
  obtain ⟨hsmall, -, hpermits, hkept⟩ := editRefusal_eq_none_iff.mp haccepted
  refine ⟨?_, fun hid => ?_⟩
  · rw [f.normalizeSnapshot_edit (hwf.editBase_normal id) hsmall, if_neg hpermits]
  · exact (f.extensionOf_edit_iff (hwf.editBase_extends hid) hsmall).mpr (hkept hid)

/-- A state in which only the snapshot of `id` differs: the root is another one only if it was
edited itself. -/
theorem root_of_value {state next : PolicyState} {id : Bytes} {new : PolicySnapshot}
    (hvalue : next.store.value = Function.update state.store.value id (some new)) (hid : id ≠ []) :
    next.root = state.root := by
  have hroot := congrFun hvalue []
  rw [Function.update_of_ne hid.symm, value_store_root, value_store_root, Option.some_inj] at hroot
  exact hroot

/-- After an accepted edit, the next one starts from what the first has stored and is refused
for the same reasons as before it. -/
theorem second_edit {state next : PolicyState} {id : Bytes} {f : ScalarField} {value : UInt32}
    (hwf : state.WellFormed) (haccepted : state.editRefusal id f value = none)
    (hvalue : next.store.value = Function.update state.store.value id
      (some (f.edit (state.editBase id) value))) :
    next.editBase id = f.edit (state.editBase id) value ∧
      ∀ (g : ScalarField) (w : UInt32), next.editRefusal id g w = state.editRefusal id g w := by
  obtain ⟨hnormal, hextends⟩ := hwf.edited haccepted
  have hstored : next.store.value id = some (f.edit (state.editBase id) value) := by
    rw [hvalue, Function.update_self]
  refine ⟨?_, fun g w => ?_⟩
  · rw [PolicyState.editBase, hstored]
    by_cases hid : id = []
    · exact if_pos hid
    · simp only [if_neg hid, root_of_value hvalue hid]
      exact (hextends hid).rebase_eq hwf.root_normal hnormal
  · have hroom := candidateFor_of_value hstored
    have hbefore := (editRefusal_eq_none_iff.mp haccepted).2.1
    unfold PolicyState.editRefusal
    rw [if_neg hroom, if_neg hbefore]
    by_cases hid : id = []
    · simp [hid]
    · rw [root_of_value hvalue hid]

/-- The return values and the snapshots after two edits, the second of which starts where the
first has ended. -/
theorem EditOutcome.both {s t u : KernelState} {m : ℕ} {id : Bytes} {f g : ScalarField}
    {v w : UInt32} {rf rg : Ret} (hwf : (s.maps m).active.WellFormed)
    (hf : EditOutcome s m id f v rf t) (hg : EditOutcome t m id g w rg u)
    (hs : (s.maps m).generation ≠ 0xffffffffffffffff)
    (ht : (t.maps m).generation ≠ 0xffffffffffffffff) :
    rf = ((s.maps m).active.editRefusal id f v).getD 0 ∧
      rg = ((s.maps m).active.editRefusal id g w).getD 0 ∧
      (u.maps m).active.store.value =
        match (s.maps m).active.editRefusal id f v, (s.maps m).active.editRefusal id g w with
        | none, none => Function.update (s.maps m).active.store.value id
            (some (g.edit (f.edit ((s.maps m).active.editBase id) v) w))
        | none, some _ => Function.update (s.maps m).active.store.value id
            (some (f.edit ((s.maps m).active.editBase id) v))
        | some _, none => Function.update (s.maps m).active.store.value id
            (some (g.edit ((s.maps m).active.editBase id) w))
        | some _, some _ => (s.maps m).active.store.value := by
  rcases hf.effect hs with ⟨hrefused, rfl⟩ | ⟨haccepted, rfl, hvalue⟩
  · rcases hg.effect ht with ⟨hrefused', rfl⟩ | ⟨haccepted', rfl, hvalue'⟩
    · simp [hrefused, hrefused']
    · simp [hrefused, haccepted', hvalue']
  · obtain ⟨hbase, hsame⟩ := second_edit hwf haccepted hvalue
    rcases hg.effect ht with ⟨hrefused', rfl⟩ | ⟨haccepted', rfl, hvalue'⟩
    · rw [hsame] at hrefused'
      simp [haccepted, hrefused', hvalue]
    · rw [hsame] at haccepted'
      rw [hbase, hvalue, Function.update_idem] at hvalue'
      simp [haccepted, haccepted', hvalue']

/-- The call that sets `f` to `value`. -/
def editOp (id : Option Bytes) (f : ScalarField) (value : UInt32) (env : ApplyEnv) : KernelOp :=
  .policyUpdateField true env id (some f.text) value

theorem editOp_invalid (P : Platform) {id : Option Bytes}
    (hid : ∃ name ∈ id, validNamespace name = false) (f : ScalarField) (value : UInt32)
    (env : ApplyEnv) (s : KernelState) : kernelStep P s (editOp id f value env) = (-einval, s) := by
  simp only [kernelStep, editOp, policyUpdateField, if_pos hid]

/-- A module with a bound map that a call found in order. -/
structure Editable (m : ℕ) (s : KernelState) : Prop where
  bound : s.policyMap = some m
  published : (s.maps m).Published
  unlatched : s.engine.commitError = 0
  tfm : s.engine.systemMerkleRoot.tfm = true

namespace Editable

variable {P : Platform} {m : ℕ} {s : KernelState} {env : ApplyEnv}

theorem of_run {maps : ℕ → BpfMap} {tpmPcrIndex : ℤ} {ops : List KernelOp}
    (hbound : (kernelRun P maps tpmPcrIndex ops).policyMap = some m)
    (hlatched : (kernelRun P maps tpmPcrIndex ops).engine.commitError = 0) :
    Editable m (kernelRun P maps tpmPcrIndex ops) :=
  ⟨hbound, PolicyBound.of_run P maps tpmPcrIndex ops m hbound, hlatched,
    tfm_kernelRun P maps tpmPcrIndex ops⟩

theorem edit (h : Editable m s) (id : Option Bytes) (hid : ∀ name ∈ id, validNamespace name = true)
    (henv : env.Succeeds s.engine) (f : ScalarField) (value : UInt32) :
    EditOutcome s m (id.getD []) f value (kernelStep P s (editOp id f value env)).1
      (kernelStep P s (editOp id f value env)).2 :=
  policyUpdateField_edit h.bound h.published h.unlatched h.tfm henv id hid f value

theorem step (h : Editable m s) (id : Option Bytes) (hid : ∀ name ∈ id, validNamespace name = true)
    (henv : env.Succeeds s.engine) (f : ScalarField) (value : UInt32) :
    Editable m (kernelStep P s (editOp id f value env)).2 := by
  obtain ⟨hbound, hpublished, -⟩ := (kernelStep_effect P s (editOp id f value env)).activeStep
    h.bound h.published
  exact ⟨hbound, hpublished, (h.edit id hid henv f value).unlatched h.unlatched,
    (kernelStep_effect P s (editOp id f value env)).tfm h.tfm⟩

end Editable

/-- Edits of different fields commute: in either order each of them returns the same, and the
snapshots are the same in the end, unless one generation is left. -/
theorem scalar_edits_commute (P : Platform) (maps : ℕ → BpfMap) (tpmPcrIndex : ℤ)
    (ops : List KernelOp) (m : ℕ) (hbound : (kernelRun P maps tpmPcrIndex ops).policyMap = some m)
    (hlatched : (kernelRun P maps tpmPcrIndex ops).engine.commitError = 0)
    (hgeneration : ((kernelRun P maps tpmPcrIndex ops).maps m).generation ≠ 0xfffffffffffffffe)
    (id : Option Bytes) (f g : ScalarField) (hne : f ≠ g) (v w : UInt32) (e₁ e₂ e₃ e₄ : ApplyEnv)
    (h₁ : e₁.Succeeds (kernelRun P maps tpmPcrIndex ops).engine)
    (h₂ : e₂.Succeeds (kernelRun P maps tpmPcrIndex (ops ++ [editOp id f v e₁])).engine)
    (h₃ : e₃.Succeeds (kernelRun P maps tpmPcrIndex ops).engine)
    (h₄ : e₄.Succeeds (kernelRun P maps tpmPcrIndex (ops ++ [editOp id g w e₃])).engine) :
    (kernelStep P (kernelRun P maps tpmPcrIndex ops) (editOp id f v e₁)).1 =
        (kernelStep P (kernelRun P maps tpmPcrIndex (ops ++ [editOp id g w e₃]))
          (editOp id f v e₄)).1 ∧
      (kernelStep P (kernelRun P maps tpmPcrIndex (ops ++ [editOp id f v e₁]))
          (editOp id g w e₂)).1 =
        (kernelStep P (kernelRun P maps tpmPcrIndex ops) (editOp id g w e₃)).1 ∧
      ((kernelRun P maps tpmPcrIndex
          (ops ++ [editOp id f v e₁] ++ [editOp id g w e₂])).maps m).active.store.value =
        ((kernelRun P maps tpmPcrIndex
          (ops ++ [editOp id g w e₃] ++ [editOp id f v e₄])).maps m).active.store.value := by
  have hs : Editable m (kernelRun P maps tpmPcrIndex ops) := .of_run hbound hlatched
  have hrun (ops : List KernelOp) (op : KernelOp) : kernelRun P maps tpmPcrIndex (ops ++ [op]) =
      (kernelStep P (kernelRun P maps tpmPcrIndex ops) op).2 := by rw [kernelRun, run_append]; rfl
  simp only [hrun] at h₂ h₄ ⊢
  generalize kernelRun P maps tpmPcrIndex ops = s at hs hgeneration h₁ h₂ h₃ h₄ ⊢
  by_cases hvalid : ∃ name ∈ id, validNamespace name = false
  · simp only [editOp_invalid P hvalid, and_self]
  · have hid : ∀ name ∈ id, validNamespace name = true := by simpa using hvalid
    have hf := hs.edit (P := P) id hid h₁ f v
    have hg := hs.edit (P := P) id hid h₃ g w
    have hfg := (hs.step id hid h₁ f v).edit (P := P) id hid h₂ g w
    have hgf := (hs.step id hid h₃ g w).edit (P := P) id hid h₄ f v
    generalize kernelStep P s (editOp id f v e₁) = sf at hf hfg ⊢
    generalize kernelStep P s (editOp id g w e₃) = sg at hg hgf ⊢
    generalize kernelStep P sf.2 (editOp id g w e₂) = sfg at hfg ⊢
    generalize kernelStep P sg.2 (editOp id f v e₄) = sgf at hgf ⊢
    by_cases hmax : (s.maps m).generation = 0xffffffffffffffff
    · -- Nothing is published any more: every call sees the same policy.
      have hsf := hf.maps_of_max hmax
      have hsg := hg.maps_of_max hmax
      have hsfg := hfg.maps_of_max (by rw [hsf]; exact hmax)
      have hsgf := hgf.maps_of_max (by rw [hsg]; exact hmax)
      refine ⟨?_, ?_, ?_⟩
      · rw [hf.ret_eq, hgf.ret_eq, hsg]
      · rw [hfg.ret_eq, hg.ret_eq, hsf]
      · rw [hsfg, hsf, hsgf, hsg]
    · have hwf := hs.published.active_wellFormed
      obtain ⟨hrf, hrg, hvalue⟩ := hf.both hwf hfg hmax (hf.generation_ne_max hmax hgeneration)
      obtain ⟨hrg', hrf', hvalue'⟩ := hg.both hwf hgf hmax (hg.generation_ne_max hmax hgeneration)
      refine ⟨hrf.trans hrf'.symm, hrg.trans hrg'.symm, ?_⟩
      rw [hvalue, hvalue']
      cases (s.maps m).active.editRefusal (id.getD []) f v <;>
        cases (s.maps m).active.editRefusal (id.getD []) g w <;>
        simp only [ScalarField.edit_comm hne]

theorem scalar_edits_commute_extendedManager :
    extendedManager.policyMap = some 0 ∧
      (kernelStep referencePlatform extendedManager
          (editOp (some webId) .logLevel 2 workingApply)).1 =
        (kernelStep referencePlatform (kernelStep referencePlatform extendedManager
          (editOp (some webId) .enabled 0 workingApply)).2
          (editOp (some webId) .logLevel 2 workingApply)).1 := by
  have hstate : extendedManager.policyMap = some 0 ∧ extendedManager.engine.commitError = 0 ∧
      (extendedManager.maps 0).generation ≠ 0xfffffffffffffffe ∧
      extendedManager.engine.hardwareAnchored = true ∧
      extendedManager.engine.tpmPcrIndex = 10 := by decide +kernel
  obtain ⟨hbound, hlatched, hgeneration, hanchored, hpcr⟩ := hstate
  have henv := workingApply_succeeds hanchored hpcr
  have hs : Editable 0 extendedManager := .of_run hbound hlatched
  have hafter (f : ScalarField) (value : UInt32) : workingApply.Succeeds (kernelStep
      referencePlatform extendedManager (editOp (some webId) f value workingApply)).2.engine := by
    obtain ⟨hkept, hsame⟩ := (hs.edit (P := referencePlatform) (some webId) (by decide) henv f
      value).epoch
    exact workingApply_succeeds (hkept hanchored) (hsame.trans hpcr)
  have hcommute := scalar_edits_commute referencePlatform (fun _ => unboundPolicyMap) 10
    [.policyBindMap workingBind, .policyApply workingApply (some verboseRequest)] 0 hbound hlatched
    hgeneration (some webId) .logLevel .enabled (by decide) 2 0 workingApply workingApply
    workingApply workingApply henv (hafter .logLevel 2) henv (hafter .enabled 0)
  exact ⟨hbound, hcommute.1⟩

/-- With one generation left, an edit of the root succeeds when it comes first and is refused
when it comes second. -/
theorem scalar_edits_commute_one_generation_left :
    ∃ ops, (referenceRun ops).policyMap = some 0 ∧ (referenceRun ops).engine.commitError = 0 ∧
      workingApply.Succeeds (referenceRun ops).engine ∧
      workingApply.Succeeds (referenceRun (ops ++ [editOp none .logLevel 3 workingApply])).engine ∧
      workingApply.Succeeds
        (referenceRun (ops ++ [editOp none .filterFlags 1 workingApply])).engine ∧
      (kernelStep referencePlatform (referenceRun ops)
        (editOp none .logLevel 3 workingApply)).1 = 0 ∧
      (kernelStep referencePlatform
        (referenceRun (ops ++ [editOp none .filterFlags 1 workingApply]))
        (editOp none .logLevel 3 workingApply)).1 = -eoverflow := by
  obtain ⟨ops, h⟩ := exists_toggled (2 ^ 64 - 2) (by decide) (by decide)
  have hs : Editable 0 (referenceRun ops) := .of_run h.bound h.unlatched
  have hrun (op : KernelOp) : referenceRun (ops ++ [op]) =
      (kernelStep referencePlatform (referenceRun ops) op).2 := by
    rw [referenceRun, kernelRun, run_append]
    rfl
  refine ⟨ops, ?_⟩
  simp only [hrun]
  generalize referenceRun ops = s at h hs ⊢
  have henv := workingApply_succeeds h.anchored h.pcrIndex
  have hroot : (s.maps 0).active.store.value [] = some (s.maps 0).active.root := value_store_root _
  have hlast : (s.maps 0).generation = 0xfffffffffffffffe := UInt64.toNat_inj.mp h.generation
  have haccepts (f : ScalarField) (value : UInt32) (hsmall : ¬ f.Overlarge value)
      (hpermits : ¬ f.Forbids value) : (s.maps 0).active.editRefusal [] f value = none :=
    editRefusal_eq_none_iff.mpr ⟨hsmall, candidateFor_of_value hroot, hpermits, absurd rfl⟩
  have hstep (f : ScalarField) (value : UInt32) : EditOutcome s 0 [] f value
      (kernelStep referencePlatform s (editOp none f value workingApply)).1
      (kernelStep referencePlatform s (editOp none f value workingApply)).2 :=
    hs.edit none (by simp) henv f value
  have hepoch (f : ScalarField) (value : UInt32) :
      workingApply.Succeeds (kernelStep referencePlatform s (editOp none f value
        workingApply)).2.engine := by
    obtain ⟨hkept, hsame⟩ := (hstep f value).epoch
    exact workingApply_succeeds (hkept h.anchored) (hsame.trans h.pcrIndex)
  refine ⟨h.bound, h.unlatched, henv, hepoch .logLevel 3, hepoch .filterFlags 1, ?_, ?_⟩
  · refine (hstep .logLevel 3).ret_eq.trans ?_
    rw [BpfMap.editRet, haccepts .logLevel 3 (by decide) (by decide), hlast]
    exact if_neg fun hboth => absurd hboth.1 (by decide)
  · have hfilter : (s.maps 0).active.editRefusal [] .filterFlags 1 = none :=
      haccepts .filterFlags 1 (by decide) (by decide)
    have hchanged : (s.maps 0).active.store.value [] ≠
        some (ScalarField.filterFlags.edit ((s.maps 0).active.editBase []) 1) := by
      rw [hroot, Ne, Option.some_inj]
      intro heq
      have hflags : (s.maps 0).active.root.config.filterFlags = 1 :=
        congrArg (fun x : PolicySnapshot => x.config.filterFlags) heq
      exact absurd (h.rootFilter.symm.trans hflags) (by decide)
    have hne : (s.maps 0).generation ≠ 0xffffffffffffffff := by
      rw [hlast]
      decide
    have hg := hstep .filterFlags 1
    have ht := hs.step (P := referencePlatform) none (by simp) henv .filterFlags 1
    have hgf : EditOutcome _ 0 [] .logLevel 3 _ _ := ht.edit (P := referencePlatform) none
      (by simp) (hepoch .filterFlags 1) .logLevel 3
    generalize kernelStep referencePlatform s (editOp none .filterFlags 1 workingApply) = sg
      at hg hgf ⊢
    have hgeneration := hg.generation_of_changed hfilter hchanged hne
    rcases hg.effect hne with ⟨hrefused, -⟩ | ⟨-, -, hvalue⟩
    · cases hfilter.symm.trans hrefused
    · obtain ⟨hbase, hsame⟩ := second_edit hs.published.active_wellFormed hfilter hvalue
      refine hgf.ret_eq.trans ?_
      rw [BpfMap.editRet, hsame, haccepts .logLevel 3 (by decide) (by decide)]
      refine if_pos ⟨by rw [hgeneration, hlast]; decide, ?_⟩
      rw [hbase, hvalue, Function.update_self, Ne, Option.some_inj, editBase_root]
      intro heq
      have hlevel : (s.maps 0).active.root.config.logLevel = 3 :=
        congrArg (fun x : PolicySnapshot => x.config.logLevel) heq
      exact absurd (h.rootLevel.symm.trans hlevel) (by decide)

end BpfIma
