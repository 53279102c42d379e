import Mathlib.Logic.Relation
import BpfIma.Verification.Policy.Effects

/-! # What a call into the module can do

Every call moves the commit engine without a root commit, or is a policy update or a
binding, or leaves the module alone. Whatever every rule of the engine keeps is kept by
every call. -/

namespace BpfIma

open CString Errno Machine Relation

def CommitOp.IsRootCommit : CommitOp → Prop
  | .commitRoot .. => True
  | _ => False

/-- `t` is reached from `s` by rules of the engine other than root commits. -/
def EngineMoves (S : HashSuite) : CommitState → CommitState → Prop :=
  ReflTransGen fun s t => ∃ op ret, ¬ op.IsRootCommit ∧ StepEffect S s op ret t

namespace EngineMoves

variable {S : HashSuite} {s t u : CommitState}

theorem refl (s : CommitState) : EngineMoves S s s := ReflTransGen.refl

theorem trans (hst : EngineMoves S s t) (htu : EngineMoves S t u) : EngineMoves S s u :=
  ReflTransGen.trans hst htu

theorem step (op : CommitOp) (hop : ¬ op.IsRootCommit) : EngineMoves S s (commitStep S s op).2 :=
  ReflTransGen.single ⟨op, _, hop, commitStep_effect S s op⟩

theorem check (available : Bool) (s : CommitState) :
    EngineMoves S s (commitCheckLocked available s).2 :=
  step (.getError available) fun h => h

theorem create (containerId : Bytes) (s : CommitState) :
    EngineMoves S s { s with containers := s.containers ++ [freshContainer containerId] } :=
  step (.createContainer containerId) fun h => h

theorem latch {error ret : Ret} (hret : ret ≠ 0)
    (herror : error = s.commitError ∨ s.commitError = 0 ∧ error = ret)
    (hnonpos : s.commitError ≤ 0 → error ≤ 0) : EngineMoves S s { s with commitError := error } :=
  ReflTransGen.single ⟨.getError true, ret, fun h => h, .refused error hret herror hnonpos⟩

/-- What the rules keep, the moves keep. -/
theorem invariant {I : CommitState → Prop}
    (hstep : ∀ {s t op ret}, ¬ CommitOp.IsRootCommit op → StepEffect S s op ret t → I s → I t)
    (h : EngineMoves S s t) (hs : I s) : I t := by
  induction h with
  | refl => exact hs
  | tail _ hmove ih =>
      obtain ⟨op, ret, hop, heffect⟩ := hmove
      exact hstep hop heffect ih

end EngineMoves

/-- The rules of a call into the module. -/
inductive KernelEffect (P : Platform) (s : KernelState) : Ret → KernelState → Prop where
  | engine {ret : Ret} (engine : CommitState) (namespaces : List PolicyNamespace)
      (hmoves : EngineMoves P.toHashSuite s.engine engine)
      (hgrown : MetadataGrown s.policyNamespaceList namespaces) :
      KernelEffect P s ret { s with engine := engine, policyNamespaceList := namespaces }
  | mapSyscall {ret : Ret} (m : ℕ) (map : BpfMap)
      (hreach : ¬ ((s.maps m).frozen = true ∧ (s.maps m).writecnt = 0)) :
      KernelEffect P s ret (s.setMap m map)
  | bind {ret : Ret} {s' : KernelState} (env : BindEnv) (heffect : BindEffect P env s ret s') :
      KernelEffect P s ret s'
  | update {ret : Ret} {s' : KernelState} (env : ApplyEnv) (heffect : UpdateEffect P env s ret s') :
      KernelEffect P s ret s'

/-- The calls that bind the policy map or update the policy in it. -/
def KernelOp.isPolicyCall : KernelOp → Bool
  | .policyBindMap _ | .policyApply _ _ | .policyUpdateField .. => true
  | _ => false

/-- The rules that apply to a policy call. -/
inductive PolicyEffect (P : Platform) (s : KernelState) : Ret → KernelState → Prop where
  | bind {ret : Ret} {s' : KernelState} (env : BindEnv) (heffect : BindEffect P env s ret s') :
      PolicyEffect P s ret s'
  | update {ret : Ret} {s' : KernelState} (env : ApplyEnv) (heffect : UpdateEffect P env s ret s') :
      PolicyEffect P s ret s'

/-- The rules that apply to every other call. -/
inductive OtherEffect (P : Platform) (s : KernelState) : Ret → KernelState → Prop where
  | engine {ret : Ret} (engine : CommitState) (namespaces : List PolicyNamespace)
      (hmoves : EngineMoves P.toHashSuite s.engine engine)
      (hgrown : MetadataGrown s.policyNamespaceList namespaces) :
      OtherEffect P s ret { s with engine := engine, policyNamespaceList := namespaces }
  | mapSyscall {ret : Ret} (m : ℕ) (map : BpfMap)
      (hreach : ¬ ((s.maps m).frozen = true ∧ (s.maps m).writecnt = 0)) :
      OtherEffect P s ret (s.setMap m map)

theorem PolicyEffect.kernelEffect {P : Platform} {s t : KernelState} {ret : Ret}
    (h : PolicyEffect P s ret t) : KernelEffect P s ret t := by
  cases h with
  | bind env heffect => exact .bind env heffect
  | update env heffect => exact .update env heffect

theorem OtherEffect.kernelEffect {P : Platform} {s t : KernelState} {ret : Ret}
    (h : OtherEffect P s ret t) : KernelEffect P s ret t := by
  cases h with
  | engine engine namespaces hmoves hgrown => exact .engine engine namespaces hmoves hgrown
  | mapSyscall m map hreach => exact .mapSyscall m map hreach

/-- A publication that reaches the engine makes one root commit. -/
theorem PublishEffect.engine_cases {P : Platform} {env : PublishEnv} {s t : KernelState} {m : ℕ}
    {candidate : PolicyState} {index : Fin (policyNamespaces + 1)} {metadata : Option ℕ} {ret : Ret}
    (h : PublishEffect P env s m candidate index metadata ret t) :
    t.engine = s.engine ∨ t.engine = (commitPolicy P env s m candidate index).2 := by
  cases h with
  | refused => exact .inl rfl
  | notCommitted engine hret hcommit => exact .inr (by rw [hcommit])
  | published engine hgeneration hcommit =>
      rw [hcommit]
      exact .inr (engine_publishedState P s m candidate index metadata engine)

/-- What a policy call does to the engine: it leaves it alone, latches an error, or makes one
root commit. -/
theorem PolicyEffect.engine_cases {P : Platform} {s t : KernelState} {ret : Ret}
    (h : PolicyEffect P s ret t) :
    t.engine = s.engine ∨
      (∃ error, ret ≠ 0 ∧
        (error = s.engine.commitError ∨ s.engine.commitError = 0 ∧ error = ret) ∧
        (s.engine.commitError ≤ 0 → error ≤ 0) ∧
        t.engine = { s.engine with commitError := error }) ∨
      ∃ config env value sourceId,
        t.engine = (commitRootLocked P.toHashSuite config env s.engine value sourceId).2 := by
  cases h with
  | bind env hbind =>
      cases hbind with
      | refused error hret herror hnonpos => exact .inr (.inl ⟨error, hret, herror, hnonpos, rfl⟩)
      | alreadyBound => exact .inl rfl
      | notCommitted m engine hret hbound hcommit =>
          exact .inr (.inr ⟨_, _, _, _, (congrArg Prod.snd hcommit).symm⟩)
      | bound m engine hbound hfrozen hzero hcommit =>
          exact .inr (.inr ⟨_, _, _, _, (congrArg Prod.snd hcommit).symm⟩)
  | update env hupdate =>
      cases hupdate with
      | refused => exact .inl rfl
      | applied request hname happly =>
          cases happly with
          | refused error namespaces hret herror hadded hnonpos =>
              exact .inr (.inl ⟨error, hret, herror, hnonpos, rfl⟩)
          | unchanged => exact .inl rfl
          | attempted m namespaces snapshot candidate index metadata hbound hadded hnormal
              hcandidate hvalid haudited hpublish =>
              rcases hpublish.engine_cases with hsame | hcommit
              · exact .inl hsame
              · exact .inr (.inr ⟨_, _, _, _, hcommit⟩)

/-- What a call does to the engine: moves without root commits, or one root commit. -/
theorem KernelEffect.engine_cases {P : Platform} {s t : KernelState} {ret : Ret}
    (h : KernelEffect P s ret t) :
    EngineMoves P.toHashSuite s.engine t.engine ∨ ∃ config env value sourceId,
      t.engine = (commitRootLocked P.toHashSuite config env s.engine value sourceId).2 := by
  have hpolicy (hp : PolicyEffect P s ret t) :
      EngineMoves P.toHashSuite s.engine t.engine ∨ ∃ config env value sourceId,
        t.engine = (commitRootLocked P.toHashSuite config env s.engine value sourceId).2 := by
    rcases hp.engine_cases with hsame | ⟨error, hret, herror, hnonpos, hlatch⟩ | hcommit
    · rw [hsame]
      exact .inl (.refl _)
    · rw [hlatch]
      exact .inl (.latch hret herror hnonpos)
    · exact .inr hcommit
  cases h with
  | engine engine namespaces hmoves hgrown => exact .inl hmoves
  | mapSyscall => exact .inl (.refl _)
  | bind env hbind => exact hpolicy (.bind env hbind)
  | update env hupdate => exact hpolicy (.update env hupdate)

section Steps

variable (P : Platform)

theorem policyNamespaceGetLocked_frame (alloc : Bool) (id : Bytes) (s : KernelState) :
    ∃ namespaces, MetadataGrown s.policyNamespaceList namespaces ∧
      (policyNamespaceGetLocked alloc id s).2 = { s with policyNamespaceList := namespaces } := by
  rcases policyNamespaceGetLocked_spec alloc id s with
    ⟨ret, -, hget⟩ | ⟨i, namespaces, entry, hadded, -, -, hget⟩
  · exact ⟨s.policyNamespaceList, .refl _, by rw [hget]⟩
  · exact ⟨namespaces, ⟨id, hadded⟩, by rw [hget]⟩

/-- The rules of `create_container_node`. -/
inductive CreateEffect (id : Bytes) (s : KernelState) : Except Ret ℕ → KernelState → Prop where
  | found (i : ℕ) (hfind : findContainerById s id = some i) : CreateEffect id s (.ok i) s
  | failed {ret : Ret} (hret : ret ≠ 0) : CreateEffect id s (.error ret) s
  | created (namespaces : List PolicyNamespace) (hfind : findContainerById s id = none)
      (hgrown : MetadataGrown s.policyNamespaceList namespaces) :
      CreateEffect id s (.ok s.engine.containers.length)
        { s with
          engine := { s.engine with containers := s.engine.containers ++ [freshContainer id] }
          policyNamespaceList := namespaces }

theorem createContainerNode_effect (env : CreateEnv) (id : Bytes) (s : KernelState) :
    CreateEffect id s (createContainerNode env id s).1 (createContainerNode env id s).2 := by
  unfold createContainerNode
  split
  · rename_i i hfind
    exact .found i hfind
  · rename_i hfind
    split
    · exact .failed (show -enomem ≠ 0 by decide)
    · split
      · exact .failed (show -enomem ≠ 0 by decide)
      · split
        · rename_i hsecurityfs
          exact .failed hsecurityfs.ne
        · obtain ⟨namespaces, hgrown, hget⟩ := policyNamespaceGetLocked_frame env.metadataAlloc id s
          simp only [hget]
          exact .created namespaces hfind hgrown

/-- Looking a container up, or creating it with its audit metadata. -/
theorem createContainerNode_frame (env : CreateEnv) (id : Bytes) (s : KernelState) :
    ∃ engine namespaces, EngineMoves P.toHashSuite s.engine engine ∧
      MetadataGrown s.policyNamespaceList namespaces ∧
      (createContainerNode env id s).2 =
        { s with engine := engine, policyNamespaceList := namespaces } := by
  have heffect := createContainerNode_effect env id s
  generalize (createContainerNode env id s).1 = result, (createContainerNode env id s).2 = t
    at heffect ⊢
  cases heffect with
  | found | failed => exact ⟨s.engine, s.policyNamespaceList, .refl _, .refl _, rfl⟩
  | created namespaces hfind hgrown =>
      exact ⟨_, namespaces, EngineMoves.create id s.engine, hgrown, rfl⟩

theorem measurementExtend_frame (env : ExtendEnv) (data : Option MeasurementRequest) (dataSize : ℕ)
    (s : KernelState) :
    ∃ engine namespaces, EngineMoves P.toHashSuite s.engine engine ∧
      MetadataGrown s.policyNamespaceList namespaces ∧
      (measurementExtend P env data dataSize s).2 =
        { s with engine := engine, policyNamespaceList := namespaces } := by
  unfold measurementExtend
  generalize prepareMeasurement data dataSize ⟨.zero, List.replicate concatDataSize 0, 0⟩ = prepared
  obtain ⟨ret, mem⟩ := prepared
  simp only
  split
  · exact ⟨s.engine, s.policyNamespaceList, .refl _, .refl _, rfl⟩
  · split
    · exact ⟨s.engine, s.policyNamespaceList, .refl _, .refl _, rfl⟩
    · split
      · exact ⟨_, s.policyNamespaceList, .check env.available s.engine, .refl _, rfl⟩
      · obtain ⟨engine, namespaces, hmoves, hgrown, hcreate⟩ :=
          createContainerNode_frame P env.create mem.request.effectiveNamespace
          { s with engine := (commitCheckLocked env.available s.engine).2 }
        have hboth := (EngineMoves.check env.available s.engine).trans hmoves
        split
        · rename_i ret' t hresult
          rw [hresult] at hcreate
          exact ⟨engine, namespaces, hboth, hgrown, hcreate⟩
        · rename_i i t hresult
          rw [hresult] at hcreate
          simp only at hcreate
          subst hcreate
          refine ⟨_, namespaces, hboth.trans ?_, hgrown, rfl⟩
          exact EngineMoves.step (.addMeasurement _ env.add (some i) _ _ _ _) fun h => h

theorem kernelStep_other (s : KernelState) {op : KernelOp} (hop : op.isPolicyCall = false) :
    OtherEffect P s (kernelStep P s op).1 (kernelStep P s op).2 := by
  cases op with
  | measurementExtend env data dataSize =>
      obtain ⟨engine, namespaces, hmoves, hgrown, hstate⟩ :=
        measurementExtend_frame P env data dataSize s
      simp only [kernelStep, hstate]
      exact .engine engine namespaces hmoves hgrown
  | addMeasurement env container eventName eventData dependencies digest =>
      refine .engine _ s.policyNamespaceList ?_ (.refl _)
      exact EngineMoves.step
        (.addMeasurement (policyGetConfig s) env container eventName eventData dependencies digest)
        fun h => h
  | containerGetOrCreate env containerId =>
      have hkeep : ∀ ret, OtherEffect P s ret s :=
        fun ret => .engine s.engine s.policyNamespaceList (.refl _) (.refl _)
      simp only [kernelStep, containerGetOrCreate]
      split
      · exact hkeep _
      · rename_i id _
        split
        · exact hkeep _
        · obtain ⟨engine, namespaces, hmoves, hgrown, hstate⟩ :=
            createContainerNode_frame P env id s
          split <;> rename_i hresult <;> rw [hresult] at hstate <;> simp only at hstate <;>
            subst hstate
          · exact .engine engine namespaces hmoves hgrown
          · exact .engine engine namespaces hmoves hgrown
  | commitGetError available =>
      exact .engine _ s.policyNamespaceList (.check available s.engine) (.refl _)
  | policyNamespaceGet alloc id =>
      obtain ⟨namespaces, hgrown, hstate⟩ := policyNamespaceGetLocked_frame alloc id s
      simp only [kernelStep]
      split <;> rename_i hresult <;> rw [hresult] at hstate <;> simp only at hstate <;> subst hstate
      · exact .engine s.engine namespaces (.refl _) hgrown
      · exact .engine s.engine namespaces (.refl _) hgrown
  | policyBindMap | policyApply | policyUpdateField => cases hop
  | mapSyscall m map =>
      simp only [kernelStep]
      split
      · exact .engine s.engine s.policyNamespaceList (.refl _) (.refl _)
      · rename_i hreach
        exact .mapSyscall m map hreach

theorem kernelStep_policy (s : KernelState) {op : KernelOp} (hop : op.isPolicyCall = true) :
    PolicyEffect P s (kernelStep P s op).1 (kernelStep P s op).2 := by
  cases op with
  | measurementExtend | addMeasurement | containerGetOrCreate | commitGetError
  | policyNamespaceGet | mapSyscall => cases hop
  | policyBindMap env => exact .bind env (policyBindMap_effect P env s)
  | policyApply env request => exact .update env (policyApply_effect P env request s)
  | policyUpdateField requestAlloc env id field value =>
      exact .update env (policyUpdateField_effect P requestAlloc env id field value s)

theorem kernelStep_effect (s : KernelState) (op : KernelOp) :
    KernelEffect P s (kernelStep P s op).1 (kernelStep P s op).2 := by
  cases hop : op.isPolicyCall with
  | false => exact (kernelStep_other P s hop).kernelEffect
  | true => exact (kernelStep_policy P s hop).kernelEffect

end Steps

/-! ## A host on which nothing fails -/

def workingCreate : CreateEnv := ⟨true, true, 0, true⟩

/-- A map that is no policy map. -/
def otherMap : BpfMap := ⟨0, 0, 0, 0, 0, false, 0, 0, .replicate _ .zero⟩

end BpfIma
