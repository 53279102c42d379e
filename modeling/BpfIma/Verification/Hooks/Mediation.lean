import BpfIma.Verification.Hooks.Programs
import BpfIma.Verification.Hooks.Setattr
import BpfIma.Verification.Measurement.Recorded

/-! # Programs in any order

Any number of threads run programs, and between two sections of one thread the others run and the
other calls of the module do. What old scratch memory holds makes no difference, and an event that
a program lets pass is excused or recorded. -/

namespace BpfIma

open CString Errno Machine

/-! ## One section of a call that is under way -/

def CallPoint.inProgress : CallPoint → Bool
  | .idle | .returned _ => false
  | .hashed .. | .checked .. | .notFound .. | .referenced .. => true

theorem createContainerNode_error {env : CreateEnv} {id : Bytes} {s t : KernelState} {ret : Ret}
    (h : createContainerNode env id s = (.error ret, t)) : ret < 0 := by
  unfold createContainerNode at h
  split at h
  · cases h
  · split at h
    · obtain ⟨hret, -⟩ := Prod.mk.inj h
      rw [← Except.error.inj hret]
      decide
    · split at h
      · obtain ⟨hret, -⟩ := Prod.mk.inj h
        rw [← Except.error.inj hret]
        decide
      · split at h
        · rename_i hsecurityfs
          obtain ⟨hret, -⟩ := Prod.mk.inj h
          rwa [← Except.error.inj hret]
        · cases h

/-- The lists of all containers are the same. -/
def SameLists (s t : KernelState) : Prop :=
  ∀ i, t.engine.measurements i = s.engine.measurements i

theorem SameLists.of_eq {s t : KernelState} (h : t.engine.containers = s.engine.containers) :
    SameLists s t := by
  intro i
  rw [CommitState.measurements, CommitState.measurements, h]

/-- How far a section brings a call that is under way: it goes on, or it returns zero or an error.
Lists change in a section that returns zero only. -/
theorem extendAction_progress {P : Platform} {s : KernelState} {caller : Caller}
    (hregistry : Registry s.engine) (hknows : CallerKnows P s caller)
    (hprogress : caller.point.inProgress = true) (action : ExtendAction) :
    (extendAction P s caller action).1.data = caller.data ∧
      ((extendAction P s caller action).1.point.inProgress = true ∧
          SameLists s (extendAction P s caller action).2 ∨
        ∃ ret, (extendAction P s caller action).1.point = .returned ret ∧ ret ≤ 0 ∧
          (ret ≠ 0 → SameLists s (extendAction P s caller action).2)) := by
  unfold extendAction
  split
  · rename_i hpoint
    rw [hpoint] at hprogress
    cases hprogress
  · rename_i hpoint
    rw [hpoint] at hprogress
    cases hprogress
  · rename_i request hashValue available hpoint
    refine ⟨rfl, ?_⟩
    simp only
    split
    · exact .inr ⟨_, rfl, commitCheckLocked_nonpos hregistry.nonpos, fun _ => .of_eq rfl⟩
    · exact .inl ⟨rfl, .of_eq rfl⟩
  · split
    · exact ⟨rfl, .inl ⟨rfl, .of_eq rfl⟩⟩
    · exact ⟨rfl, .inl ⟨rfl, .of_eq rfl⟩⟩
  · rename_i request hashValue env hpoint
    have hlists : SameLists s (createContainerNode env request.effectiveNamespace s).2 :=
      measurements_createContainerNode env request.effectiveNamespace s
    split
    · rename_i ret t hcreate
      rw [hcreate] at hlists
      exact ⟨rfl, .inr ⟨ret, rfl, (createContainerNode_error hcreate).le, fun _ => hlists⟩⟩
    · rename_i i t hcreate
      rw [hcreate] at hlists
      exact ⟨rfl, .inl ⟨rfl, hlists⟩⟩
  · rename_i request hashValue i env hpoint
    refine ⟨rfl, .inr ⟨_, rfl, ?_⟩⟩
    cases hadd : addContainerMeasurement P.toHashSuite (policyGetConfig s) env s.engine (some i)
        (some (cstr request.eventName)) (some (cstr request.additionalData))
        (some (cstr request.dependencies)) (some hashValue) with
    | mk ret engine =>
      obtain ⟨source, node, -, -, -, -, houtcome⟩ := hknows.added hregistry hpoint hadd
      cases houtcome with
      | failed hret hsame =>
          refine ⟨?_, fun _ => .of_eq hsame.containers⟩
          split
          · exact le_rfl
          · exact hret.le
      | duplicate hexists hsame => exact ⟨le_rfl, fun _ => .of_eq hsame.containers⟩
      | recorded => exact ⟨le_rfl, fun hne => absurd rfl hne⟩
  · exact ⟨rfl, .inl ⟨hprogress, .of_eq rfl⟩⟩

/-- A call returns from its first section with an error of its checks or with that of the hash. -/
theorem enterExtend_returned {P : Platform} {request : MeasurementRequest} {hashRet ret : Ret}
    (h : enterExtend P (some request) measurementRequestSize hashRet = .returned ret) :
    ret ≠ 0 ∧ (ret < 0 ∨ ret = hashRet) := by
  have houtcome := prepareMeasurement_outcome request
    ⟨.zero, List.replicate concatDataSize 0, 0⟩
  unfold enterExtend at h
  generalize prepareMeasurement (some request) measurementRequestSize
    ⟨.zero, List.replicate concatDataSize 0, 0⟩ = prepared at houtcome h
  obtain ⟨error, left⟩ := prepared
  simp only at houtcome h
  split at h
  · rename_i herror
    obtain rfl := CallPoint.returned.inj h
    refine ⟨herror, .inl ?_⟩
    cases houtcome with
    | refused | tooBig | empty => decide
    | prepared => exact absurd rfl herror
  · split at h
    · rename_i hhash
      obtain rfl := CallPoint.returned.inj h
      exact ⟨hhash, .inr rfl⟩
    · cases h

/-! ## What a thread knows -/

theorem hookRet_range (ret : Ret) : -4095 ≤ hookRet ret ∧ hookRet ret ≤ 0 := by
  unfold hookRet
  split_ifs with hlow hhigh
  · decide
  · decide
  · exact ⟨not_lt.mp hlow, not_lt.mp hhigh⟩

theorem hookRet_eq_zero {ret : Ret} (h : hookRet ret = 0) : ret = 0 ∨ 0 < ret := by
  unfold hookRet at h
  split_ifs at h with hlow hhigh
  · exact .inr hhigh
  · exact .inl h

/-- The return value of a program to the security framework. The verdict of an earlier program is
passed on. Otherwise zero means that the event is exempt, that the policy skips it or that its
measurement is in the list of its namespace. -/
structure HookRun.Answers (P : Platform) (s : KernelState) (run : HookRun) (decision : Option Ret)
    (ret : Ret) : Prop where
  passed : run.previousRet ≠ 0 → ret = run.previousRet
  range : run.previousRet = 0 → -4095 ≤ ret ∧ ret ≤ 0
  measured : run.previousRet = 0 → run.env.submit.extend.hashRet ≤ 0 → ret = 0 →
    run.Exempt ∨ (∃ verdict ∈ decision, 0 < verdict) ∨
      ∃ request, run.Measures request ∧ HoldsDigest s request (P.sha256 request.hashedBytes)

def HookKnows (P : Platform) (s : KernelState) (thread : HookThread) : Prop :=
  CallerKnows P s thread.caller ∧
    match thread.point with
    | .idle => True
    | .extending =>
        thread.caller.point.inProgress = true ∧
          ∃ run request, thread.run = some run ∧ run.previousRet = 0 ∧
            thread.caller.data = some request ∧ run.Measures request
    | .returned ret => ∃ run, thread.run = some run ∧ run.Answers P s thread.decision ret
    | .outOfBounds => False

theorem HookRun.Answers.grown {P : Platform} {s t : KernelState} {run : HookRun}
    {decision : Option Ret} {ret : Ret} (h : run.Answers P s decision ret)
    (hgrown : Grown s.engine t.engine) : run.Answers P t decision ret := by
  refine ⟨h.passed, h.range, fun hprevious hhash hret => ?_⟩
  rcases h.measured hprevious hhash hret with hexempt | hskipped | ⟨request, hmeasures, hholds⟩
  · exact .inl hexempt
  · exact .inr (.inl hskipped)
  · exact .inr (.inr ⟨request, hmeasures, hholds.grown hgrown⟩)

theorem HookKnows.grown {P : Platform} {s t : KernelState} {thread : HookThread}
    (h : HookKnows P s thread) (hgrown : Grown s.engine t.engine) : HookKnows P t thread := by
  refine ⟨h.1.grown hgrown, ?_⟩
  have hpoint := h.2
  split at hpoint
  · trivial
  · exact hpoint
  · obtain ⟨run, hrun, hanswers⟩ := hpoint
    exact ⟨run, hrun, hanswers.grown hgrown⟩
  · exact hpoint

/-- What the module returned decides what the program returns. -/
theorem hookPoint_returned {caller : Caller} {ret : Ret} (h : caller.point = .returned ret) :
    hookPoint caller = .returned (hookRet ret) := by
  rw [hookPoint, h]

theorem hookPoint_inProgress {caller : Caller} (h : caller.point.inProgress = true) :
    hookPoint caller = .extending := by
  unfold hookPoint
  split
  · rename_i ret hpoint
    rw [hpoint] at h
    cases h
  · rfl

/-! ## The start of a program -/

theorem HookRun.body_passed {run : HookRun} (h : run.previousRet ≠ 0) (s : KernelState)
    (scratch : Scratch) : run.body s scratch = some ⟨none, .returned run.previousRet, scratch⟩ := by
  unfold HookRun.body
  cases run.call with
  | lsmBprmCheckSecurity bprm => exact if_pos h
  | lsmFilePostOpen file mask => exact congrArg some (if_pos h)
  | bpfMmapFile file prot => exact congrArg some (if_pos h)
  | bpfSocketConnect env sk address addrlen => exact if_pos h
  | bpfInodeSetattr dentry attr => exact congrArg some (if_pos h)

/-- A program without an earlier verdict that returns before the module is called. -/
theorem HookEffect.answers {P : Platform} {s : KernelState} {run : HookRun}
    {decision : Option Ret} {ret : Ret} (h : HookEffect run decision (.returned ret))
    (hprevious : run.previousRet = 0) : run.Answers P s decision ret := by
  refine ⟨fun hne => absurd hprevious hne, fun _ => ?_, fun _ _ hret => ?_⟩
  · cases h with
    | passed hne => exact absurd hprevious hne
    | exempt => decide
    | decided => exact hookRet_range _
    | failed hret => exact ⟨hret.1, hret.2.le⟩
  · cases h with
    | passed hne => exact absurd hprevious hne
    | exempt hexempt => exact .inl hexempt
    | decided hdecision =>
        exact .inr (.inl ⟨_, rfl, (hookRet_eq_zero hret).resolve_left hdecision⟩)
    | failed hfailed => exact absurd hret hfailed.2.ne

theorem startHook_knows {P : Platform} {s : KernelState} {thread : HookThread}
    (h : CallerKnows P s thread.caller) (run : HookRun) :
    HookKnows P s (startHook P s thread run) := by
  by_cases hprevious : run.previousRet = 0
  · obtain ⟨decision, outcome, heffect, hbody⟩ := run.body_effect s
    obtain ⟨scratch', hscratch⟩ := hbody thread.scratch
    cases outcome with
    | returned ret =>
        simp only [startHook, hscratch]
        exact ⟨h, run, rfl, heffect.answers hprevious⟩
    | extending request =>
        simp only [startHook, hscratch]
        cases heffect with
        | submitted hmeasures =>
          rcases enterExtend_cases P (some request) measurementRequestSize
              run.env.submit.extend.hashRet with
            ⟨ret, -, henter⟩ | ⟨stored, hashValue, source, henter, hprepared⟩
          · obtain ⟨hret, hsign⟩ := enterExtend_returned henter
            rw [henter]
            refine ⟨fun hzero => absurd hzero hret, run, rfl, fun hne => absurd hprevious hne,
              fun _ => hookRet_range ret, fun _ hhash hzero => ?_⟩
            -- Only a positive error would be passed on as zero.
            have hpositive : 0 < ret := (hookRet_eq_zero hzero).resolve_left hret
            rcases hsign with hnegative | hfromHash
            · exact absurd hpositive hnegative.not_gt
            · exact absurd (hfromHash ▸ hhash) hpositive.not_ge
          · rw [henter]
            exact ⟨⟨source, hprepared _⟩, rfl, run, request, rfl, hprevious, rfl, hmeasures⟩
  · simp only [startHook, run.body_passed hprevious]
    exact ⟨h, run, rfl, fun _ => rfl, fun hzero => absurd hzero hprevious,
      fun hzero => absurd hzero hprevious⟩

/-! ## Interleavings -/

/-- The request that an action records. -/
def hookRecords (P : Platform) (s : KernelState) (thread : HookThread) :
    HookAction → Option MeasurementRequest
  | .start _ => none
  | .extend action =>
      if thread.point = .extending then recordedRequest P s thread.caller action else none

/-- What holds of the module: every recorded request is the measurement of some program. -/
structure HooksKept (P : Platform) (s : KernelState) (log : List MeasurementRequest) : Prop where
  kept : ModuleKept P s log
  measures : ∀ request ∈ log, ∃ run : HookRun, run.Measures request

theorem hookAction_start {P : Platform} {s : KernelState} {thread : HookThread}
    (h : HookKnows P s thread) (run : HookRun) :
    (hookAction P s thread (.start run)).2 = s ∧
      HookKnows P s (hookAction P s thread (.start run)).1 := by
  simp only [hookAction]
  split
  · exact ⟨rfl, startHook_knows h.1 run⟩
  · exact ⟨rfl, startHook_knows h.1 run⟩
  · exact ⟨rfl, h⟩
  · exact ⟨rfl, h⟩

/-- A section of the module for a thread that is in it. -/
theorem hookAction_extend {P : Platform} {s : KernelState} {thread : HookThread}
    {log : List MeasurementRequest} (hkept : HooksKept P s log) (h : HookKnows P s thread)
    (hpoint : thread.point = .extending) (action : ExtendAction) :
    HooksKept P (extendAction P s thread.caller action).2
        (log ++ (recordedRequest P s thread.caller action).toList) ∧
      HookKnows P (extendAction P s thread.caller action).2
        { thread with
          caller := (extendAction P s thread.caller action).1
          point := hookPoint (extendAction P s thread.caller action).1 } ∧
      Grown s.engine (extendAction P s thread.caller action).2.engine := by
  obtain ⟨hcaller, hthread⟩ := h
  rw [hpoint] at hthread
  obtain ⟨hprogress, run, request, hrun, hprevious, hdata, hmeasures⟩ := hthread
  obtain ⟨hmodule, hcaller', hgrown⟩ :=
    (extendAction_effect P s thread.caller action).keeps hkept.kept hcaller
  obtain ⟨hdata', hnext⟩ :=
    extendAction_progress hkept.kept.registry hcaller hprogress action
  refine ⟨⟨hmodule, fun logged hlogged => ?_⟩, ⟨hcaller', ?_⟩, hgrown⟩
  · rcases List.mem_append.mp hlogged with hlogged | hlogged
    · exact hkept.measures logged hlogged
    · rw [Option.mem_toList, recordedRequest] at hlogged
      cases action with
      | addContainerMeasurement env =>
          rw [recordedBy] at hlogged
          split at hlogged
          · cases hlogged
          · rw [hdata] at hlogged
            obtain rfl := Option.some.inj hlogged
            exact ⟨run, hmeasures⟩
      | enter | commitGetError | findContainerById | createContainerNode => cases hlogged
  · rcases hnext with ⟨hprogress', -⟩ | ⟨ret, hret, hnonpos, -⟩
    · simp only [hookPoint_inProgress hprogress']
      exact ⟨hprogress', run, request, hrun, hprevious, hdata'.trans hdata, hmeasures⟩
    · simp only [hookPoint_returned hret]
      refine ⟨run, hrun, fun hne => absurd hprevious hne, fun _ => hookRet_range ret,
        fun _ _ hzero => .inr (.inr ⟨request, hmeasures, ?_⟩)⟩
      have hsuccess : ret = 0 := (hookRet_eq_zero hzero).resolve_right hnonpos.not_gt
      rw [CallerKnows, hret] at hcaller'
      obtain ⟨stored, hashValue, source, hprepared, hholds⟩ := hcaller' hsuccess
      have hsource : source = request :=
        Option.some.inj (hprepared.data.symm.trans (hdata'.trans hdata))
      rw [hprepared.request, hprepared.hashValue, hsource] at hholds
      exact hholds

theorem hooks_relyGuarantee (P : Platform) :
    Threads.RelyGuarantee (hookAction P) (otherCall P) (hookRecords P) (HooksKept P)
      (HookKnows P) fun s t => Grown s.engine t.engine where
  act {s thread log} action hkept h := by
    cases action with
    | start run =>
        obtain ⟨hstate, hknows⟩ := hookAction_start h run
        rw [hstate, hookRecords, Option.toList_none, List.append_nil]
        exact ⟨hkept, hknows, .refl _⟩
    | extend action =>
        simp only [hookAction, hookRecords]
        split
        · rename_i hpoint
          exact hookAction_extend hkept h hpoint action
        · rw [Option.toList_none, List.append_nil]
          exact ⟨hkept, h, .refl _⟩
  other {s log} op hkept := by
    obtain ⟨hmodule, hgrown⟩ := (callers_relyGuarantee P).other op hkept.kept
    exact ⟨⟨hmodule, hkept.measures⟩, hgrown⟩
  stable hgrown h := h.grown hgrown

/-- The requests that the programs of a run recorded, oldest first. -/
def hookRequests (P : Platform) (maps : ℕ → BpfMap) (tpmPcrIndex : ℤ) (memory : ℕ → Scratch)
    (ops : List HookOp) : List MeasurementRequest :=
  collect (hookStep P) (Threads.emitted (hookRecords P)) (hooksLoaded maps tpmPcrIndex memory) ops

theorem hooksRun_holds (P : Platform) (maps : ℕ → BpfMap) (tpmPcrIndex : ℤ)
    (memory : ℕ → Scratch) (ops : List HookOp) :
    Threads.Holds (HooksKept P) (HookKnows P) (hooksRun P maps tpmPcrIndex memory ops)
      (hookRequests P maps tpmPcrIndex memory ops) := by
  have hmodule : ModuleKept P (moduleLoaded maps tpmPcrIndex) [] :=
    ⟨.of_loaded maps tpmPcrIndex, by simp, by simp [moduleLoaded]⟩
  have hloaded : Threads.Holds (HooksKept P) (HookKnows P)
      (hooksLoaded maps tpmPcrIndex memory) [] :=
    ⟨⟨hmodule, by simp⟩, fun _ => ⟨trivial, trivial⟩⟩
  exact (hooks_relyGuarantee P).run hloaded ops

/-! ## Old memory -/

/-- The two threads differ in their scratch memory at most. -/
def SameButScratch (thread thread' : HookThread) : Prop :=
  ∃ scratch, thread' = { thread with scratch := scratch }

theorem startHook_sameButScratch (P : Platform) (s : KernelState) {thread thread' : HookThread}
    (h : SameButScratch thread thread') (run : HookRun) :
    SameButScratch (startHook P s thread run) (startHook P s thread' run) := by
  obtain ⟨scratch, rfl⟩ := h
  obtain ⟨decision, outcome, -, hbody⟩ := run.body_effect s
  obtain ⟨left, hleft⟩ := hbody thread.scratch
  obtain ⟨left', hleft'⟩ := hbody scratch
  refine ⟨left', ?_⟩
  cases outcome with
  | returned ret => simp only [startHook, hleft, hleft']
  | extending request => simp only [startHook, hleft, hleft']

theorem hookAction_sameButScratch (P : Platform) (s : KernelState) {thread thread' : HookThread}
    (h : SameButScratch thread thread') (action : HookAction) :
    (hookAction P s thread' action).2 = (hookAction P s thread action).2 ∧
      SameButScratch (hookAction P s thread action).1 (hookAction P s thread' action).1 := by
  have hpoint : thread'.point = thread.point := by
    obtain ⟨scratch, rfl⟩ := h
    rfl
  cases action with
  | start run =>
      simp only [hookAction, hpoint]
      split
      · exact ⟨rfl, startHook_sameButScratch P s h run⟩
      · exact ⟨rfl, startHook_sameButScratch P s h run⟩
      · exact ⟨rfl, h⟩
      · exact ⟨rfl, h⟩
  | extend action =>
      obtain ⟨scratch, rfl⟩ := h
      simp only [hookAction]
      split
      · exact ⟨rfl, scratch, rfl⟩
      · exact ⟨rfl, scratch, rfl⟩

/-- Programs that find anything in their scratch memory act as those that find anything else: in
every interleaving the module is in the same state, every thread is at the same point with the same
request and return value, and nobody writes outside of the scratch memory. -/
theorem old_scratch_memory_irrelevant (P : Platform) (maps : ℕ → BpfMap) (tpmPcrIndex : ℤ)
    (memory memory' : ℕ → Scratch) (ops : List HookOp) :
    (hooksRun P maps tpmPcrIndex memory' ops).shared =
        (hooksRun P maps tpmPcrIndex memory ops).shared ∧
      ∀ n, SameButScratch ((hooksRun P maps tpmPcrIndex memory ops).locals n)
          ((hooksRun P maps tpmPcrIndex memory' ops).locals n) ∧
        ((hooksRun P maps tpmPcrIndex memory ops).locals n).point ≠ .outOfBounds := by
  have hrelated : (hooksRun P maps tpmPcrIndex memory' ops).shared =
      (hooksRun P maps tpmPcrIndex memory ops).shared ∧
      ∀ n, SameButScratch ((hooksRun P maps tpmPcrIndex memory ops).locals n)
        ((hooksRun P maps tpmPcrIndex memory' ops).locals n) := by
    refine run_related (R := fun s t : HookState => t.shared = s.shared ∧
      ∀ n, SameButScratch (s.locals n) (t.locals n)) ?_ ops ⟨rfl, fun n => ⟨memory' n, rfl⟩⟩
    rintro s t op ⟨hshared, hlocals⟩
    cases op with
    | act n action =>
        obtain ⟨hstate, hthread⟩ := hookAction_sameButScratch P s.shared (hlocals n) action
        simp only [hookStep, Threads.step, hshared]
        refine ⟨hstate, fun m => ?_⟩
        by_cases hm : m = n
        · subst hm
          simpa only [Function.update_self] using hthread
        · simpa only [Function.update_of_ne hm] using hlocals m
    | other op =>
        simp only [hookStep, Threads.step, hshared]
        exact ⟨trivial, hlocals⟩
  refine ⟨hrelated.1, fun n => ⟨hrelated.2 n, fun hpoint => ?_⟩⟩
  have hthread := ((hooksRun_holds P maps tpmPcrIndex memory ops).locals n).2
  rw [hpoint] at hthread
  exact hthread

/-! ## Mediation -/

/-- A host on which no helper fails. -/
def workingHook : HookEnv where
  policy := workingSetattr.policy
  policyScratch := true
  namespaceScratch := true
  task := true
  scratch := true
  tasks := ⟨fun task => if task = 0 then some 0 else some (task - 1),
    fun task => if task = 0 then "swapper/0".ascii else "bash".ascii⟩
  current := some 2
  nameFault := false
  submit := workingSetattr.submit

/-- A configuration file that is opened for reading. -/
def openedFile : FileObject where
  dPath := some "/etc/passwd".ascii
  dentry := none
  inode := some ⟨0x81a4, 4096⟩
  fMode := 0x1
  hashAlgo := hashAlgoSha256
  digest := ⟨List.replicate 32 0xab, rfl⟩

def openRun : HookRun := ⟨workingHook, .lsmFilePostOpen (some openedFile) 0x4, 0⟩

/-- A connection from 127.0.0.1:4444 to 127.0.0.1:80. -/
def connectRun : HookRun where
  env := workingHook
  call := .bpfSocketConnect ⟨true, some (strscpy (CString.zero _) "/usr/bin/curl".ascii), false⟩
    (some ⟨0x0100007f, 4444⟩)
    (some ⟨afInet, ⟨[0, 80, 127, 0, 0, 1] ++ List.replicate 120 0, rfl⟩⟩) 16
  previousRet := 0

/-- The sections of the module for the thread `n`, on a host on which nothing fails. -/
def moduleSections (n : ℕ) : List HookOp :=
  [.act n (.extend (.commitGetError true)), .act n (.extend .findContainerById),
    .act n (.extend (.createContainerNode workingCreate)),
    .act n (.extend (.addContainerMeasurement workingAdd))]

/-- One thread opens a file while another one connects. -/
def racingPrograms : List HookOp :=
  [.other (.policyBindMap workingBind), .act 0 (.start openRun), .act 1 (.start connectRun)] ++
    List.flatten (List.zipWith (fun a b => [a, b]) (moduleSections 0) (moduleSections 1))

def staleScratch (byte : UInt8) : Scratch where
  buf := ⟨List.replicate _ byte, List.length_replicate⟩
  digestHex := ⟨List.replicate _ byte, List.length_replicate⟩
  measurement := .zero
  policyContext := executionContext
  policyResult := ⟨0, .zero, .zero, 1⟩

end BpfIma
