import BpfIma.Verification.Hooks.Scratch
import BpfIma.Verification.Hooks.Socket
import BpfIma.Verification.Measurement.Template

/-! # What a program does

Every program returns without a measurement for one of a few reasons, or it submits a request that
says what it was called for. Which of them is decided by its arguments and by the policy, not by
what the scratch memory holds. -/

namespace BpfIma

open CString Errno Text

/-! ## The event of a call -/

def HookCall.eventName : HookCall → Bytes
  | .lsmBprmCheckSecurity _ => "bprm_check_security".ascii
  | .lsmFilePostOpen _ _ => "file_post_open".ascii
  | .bpfMmapFile _ _ => "mmap_file".ascii
  | .bpfSocketConnect .. => "socket_connect".ascii
  | .bpfInodeSetattr _ _ => "inode_setattr".ascii

def FileObject.hexDigest (file : FileObject) : Bytes := hexEncode file.digest.toList

theorem FileObject.length_hexDigest (file : FileObject) : file.hexDigest.length = 64 := by
  rw [FileObject.hexDigest, length_hexEncode, List.Vector.toList_length]
  rfl

theorem FileObject.hexDigest_ne_nil (file : FileObject) : file.hexDigest ≠ [] := by
  rw [← List.length_pos_iff, file.length_hexDigest]
  decide

/-- What there is to measure: the hash of the file, the endpoints of the connection, or the list of
changed attributes. -/
def HookCall.data : HookCall → Bytes
  | .lsmBprmCheckSecurity bprm => ((bprm.bind Binprm.file).map FileObject.hexDigest).getD []
  | .lsmFilePostOpen file _ | .bpfMmapFile file _ => (file.map FileObject.hexDigest).getD []
  | .bpfSocketConnect _ sk address _ =>
      match sk, address with
      | some sk, some address => socketText sk address
      | _, _ => []
  | .bpfInodeSetattr _ attr => (attr.map Iattr.list).getD []

/-- The programs that submit dependencies, if only an empty string. -/
def HookCall.chained : HookCall → Bool
  | .lsmBprmCheckSecurity _ | .bpfSocketConnect .. => true
  | _ => false

/-- The request says what the program was called for. It is for the cgroup of the task or for the
default namespace. -/
structure HookRun.Measures (run : HookRun) (request : MeasurementRequest) : Prop where
  eventName : cstr request.eventName = run.call.eventName
  data : request.data = run.call.data
  nonempty : request.data ≠ []
  home : request.effectiveNamespace = cstr (hookNamespace (fetchCgroupName run.env.policy.cgroup)) ∨
    request.effectiveNamespace = "default".ascii
  flag : request.flags = if run.call.chained then measurementHasDependencies else 0
  unchained : run.call.chained = false → cstr request.dependencies = []

/-- The reasons for which a program lets an event pass that the policy does not excuse: there is
nothing to measure, IMA has no SHA-256 hash of the file, the task has no scratch memory, or the
list of attributes does not fit. -/
def HookRun.Exempt (run : HookRun) : Prop :=
  match run.call with
  | .lsmBprmCheckSecurity bprm =>
      ∀ b ∈ bprm, ∀ file ∈ b.file, file.hashAlgo ≠ hashAlgoSha256
  | .lsmFilePostOpen file mask =>
      mask &&& 0x4 = 0 ∨ ∀ f ∈ file,
        f.openedPath run.env.nameFault = none ∨ (∀ inode ∈ f.inode, inode.isReg = false) ∨
        f.fMode &&& 0x1 = 0 ∨ f.fMode &&& 0x2 ≠ 0 ∨ f.hashAlgo ≠ hashAlgoSha256 ∨
        run.env.task = false ∨ run.env.scratch = false
  | .bpfMmapFile file _ =>
      ∀ f ∈ file, (∃ inode ∈ f.inode, inode.isReg = false) ∨ f.hashAlgo ≠ hashAlgoSha256 ∨
        run.env.task = false ∨ run.env.scratch = false
  | .bpfSocketConnect env sk address _ =>
      sk = none ∨ ∀ a ∈ address, a.saFamily ≠ afInet ∧ a.saFamily ≠ afUnix ∨
        a.saFamily = afInet ∧ (env.exeTask = false ∨ env.exeFile = none) ∨
        run.env.task = false ∨ run.env.scratch = false
  | .bpfInodeSetattr dentry attr =>
      dentry = none ∨ ∀ a ∈ attr, (buildAttributes (CString.zero 64) (some a)).1 ≤ 0

/-- The rules of a program up to its return or its call of the module. -/
inductive HookEffect (run : HookRun) : Option Ret → HookOutcome → Prop where
  | passed (hprevious : run.previousRet ≠ 0) : HookEffect run none (.returned run.previousRet)
  | exempt {decision : Option Ret} (hexempt : run.Exempt) : HookEffect run decision (.returned 0)
  | decided {decision : Ret} (hdecision : decision ≠ 0) :
      HookEffect run (some decision) (.returned (hookRet decision))
  | failed {decision : Option Ret} {ret : Ret} (hret : -4095 ≤ ret ∧ ret < 0) :
      HookEffect run decision (.returned ret)
  | submitted {request : MeasurementRequest} (hmeasures : run.Measures request) :
      HookEffect run (some 0) (.extending request)

/-! ## The request -/

/-- A string that was read and fits is there in full. -/
theorem cstr_readInto {fault : Bool} {n : ℕ} {src : Option Bytes}
    (hread : ¬ ((readInto fault n src).1 ≤ 0 ∨ (readInto fault n src).1 ≥ n))
    (hzero : ∀ text ∈ src, 0 ∉ text) : cstr (readInto fault n src).2 = src.getD [] := by
  cases src with
  | none => exact cstr_zero n
  | some text =>
      cases fault with
      | true => exact absurd (.inl (show -efault ≤ 0 by decide)) hread
      | false =>
          have hfits : ¬ (min (text.length + 1 : ℤ) n ≤ 0 ∨ min (text.length + 1 : ℤ) n ≥ n) :=
            hread
          exact cstr_strscpy (show text.length < n by omega) (hzero text rfl)

/-- The texts of a request that was filled in. -/
theorem measurementRequest_texts {env : SubmitEnv} {ctx : MeasurementCtx}
    {request : MeasurementRequest} (h : measurementRequest env ctx = .ok request)
    (hname : ∀ text ∈ ctx.eventName, 0 ∉ text) (hid : ∀ text ∈ ctx.namespaceId, 0 ∉ text)
    (hdeps : ∀ text ∈ ctx.dependencies, 0 ∉ text) :
    some (cstr request.eventName) = ctx.eventName ∧
      cstr request.namespaceId = ctx.namespaceId.getD [] ∧
      cstr request.dependencies = ctx.dependencies.getD [] ∧
      request.flags = if ctx.dependencies.isSome then measurementHasDependencies else 0 := by
  unfold measurementRequest at h
  split at h
  · cases h
  · rename_i eventName heventName
    rw [readOptional_eq (show 1 < namespaceSize by decide),
      readOptional_eq (show 1 < dependenciesSize by decide)] at h
    split at h
    · cases h
    · split at h
      · cases h
      · simp only at h
        split at h
        · cases h
        · rename_i hnameRead
          split at h
          · cases h
          · rename_i namespaceId hnamespace
            split at hnamespace
            · cases hnamespace
            · rename_i hidRead
              split at h
              · cases h
              · rename_i dependencies hdependencies
                split at hdependencies
                · cases hdependencies
                · rename_i hdepsRead
                  split at h
                  · cases h
                  · obtain rfl := Except.ok.inj h
                    obtain rfl := Option.some.inj hnamespace
                    obtain rfl := Option.some.inj hdependencies
                    rw [heventName]
                    refine ⟨congrArg some ?_, cstr_readInto hidRead hid,
                      cstr_readInto hdepsRead hdeps, rfl⟩
                    have hread : ¬ ((readInto env.eventNameFault eventNameSize
                          (some eventName)).1 ≤ 0 ∨
                        (readInto env.eventNameFault eventNameSize (some eventName)).1 ≥
                          eventNameSize) := by
                      rintro (hlow | hhigh)
                      · exact hnameRead (.inl (hlow.trans (by decide)))
                      · exact hnameRead (.inr hhigh)
                    have htexts : ∀ text ∈ some eventName, 0 ∉ text :=
                      fun text htext => hname text (heventName ▸ htext)
                    exact cstr_readInto hread htexts

theorem HookCall.zero_notMem_eventName (call : HookCall) : (0 : UInt8) ∉ call.eventName := by
  cases call <;> exact of_decide_eq_false rfl

/-- A program submits its event, or fails; the bytes behind the data play no part. -/
theorem submitIn_effect (run : HookRun) (env : SubmitEnv) (namespaceId dependencies : Option Bytes)
    (hhome : ∀ id ∈ namespaceId, id = cstr (hookNamespace (fetchCgroupName run.env.policy.cgroup)) ∨
      id = "default".ascii)
    (hchained : dependencies.isSome = run.call.chained) (hdeps : ∀ text ∈ dependencies, 0 ∉ text)
    (hdata : run.call.data ≠ []) :
    ∃ outcome, HookEffect run (some 0) outcome ∧
      ∀ bytes : Bytes, bytes.take run.call.data.length = run.call.data →
        ∀ scratch, ∃ scratch', submitIn env ⟨some run.call.eventName, namespaceId, dependencies,
          some bytes, run.call.data.length⟩ scratch = (outcome, scratch') := by
  have hsubmit (bytes : Bytes) (hbytes : bytes.take run.call.data.length = run.call.data)
      (scratch : Scratch) : submitRequest env ⟨some run.call.eventName, namespaceId, dependencies,
        some bytes, run.call.data.length⟩ scratch.measurement =
      submitRequest env ⟨some run.call.eventName, namespaceId, dependencies,
        some run.call.data, run.call.data.length⟩ scratch.measurement := by
    rw [submitRequest_take env _ rfl]
    simp only [Int.toNat_natCast, hbytes]
  rcases @measurementRequest_cases env ⟨some run.call.eventName, namespaceId, dependencies,
      some run.call.data, run.call.data.length⟩ run.call.data run.call.data.length rfl rfl
      (le_refl _) with hfailed | ⟨request, hrequest, htake⟩
  · refine ⟨.returned (-1), .failed (by decide), fun bytes hbytes scratch => ?_⟩
    have hret := submitRequest_eq env ⟨some run.call.eventName, namespaceId, dependencies,
        some run.call.data, run.call.data.length⟩ scratch.measurement
    rw [hfailed] at hret
    simp only [submitIn, hsubmit bytes hbytes scratch]
    generalize submitRequest env ⟨some run.call.eventName, namespaceId, dependencies,
      some run.call.data, run.call.data.length⟩ scratch.measurement = result at hret ⊢
    split at hret
    · cases hret
    · rw [← Except.error.inj hret]
      exact ⟨_, rfl⟩
  · refine ⟨.extending request, .submitted ?_, fun bytes hbytes scratch => ?_⟩
    · obtain ⟨hname, hid, hchain, hflags⟩ := measurementRequest_texts hrequest
        (fun text htext => Option.some.inj htext ▸ run.call.zero_notMem_eventName)
        (fun text htext => by
          rcases hhome text htext with rfl | rfl
          · exact zero_notMem_cstr _
          · exact of_decide_eq_false rfl) hdeps
      have hequal : request.data = run.call.data := by
        rw [MeasurementRequest.data, htake, List.take_length]
      refine ⟨Option.some.inj hname, hequal, hequal.trans_ne hdata, ?_, ?_, ?_⟩
      · unfold MeasurementRequest.effectiveNamespace
        split
        · rename_i hset
          cases namespaceId with
          | none => exact absurd ((cstr_eq_nil_iff _).mp hid) hset
          | some id =>
              rw [hid]
              exact hhome id rfl
        · exact .inr rfl
      · rw [hflags, hchained]
      · intro hunchained
        rw [hchain]
        rw [hunchained] at hchained
        rw [Option.isSome_eq_false_iff.mp hchained |> Option.isNone_iff_eq_none.mp]
        rfl
    · have hret := submitRequest_eq env ⟨some run.call.eventName, namespaceId, dependencies,
          some run.call.data, run.call.data.length⟩ scratch.measurement
      rw [hrequest] at hret
      simp only [submitIn, hsubmit bytes hbytes scratch]
      generalize submitRequest env ⟨some run.call.eventName, namespaceId, dependencies,
        some run.call.data, run.call.data.length⟩ scratch.measurement = result at hret ⊢
      split at hret
      · rename_i hzero
        rw [← Except.ok.inj hret, if_neg (not_not.mpr hzero)]
        exact ⟨_, rfl⟩
      · cases hret

/-! ## The programs -/

/-- The namespace that a program reads from the memory is that of its own task. -/
theorem currentNamespaceIn_home (available : Bool) {scratch : Scratch} {home : Bytes}
    (hhome : cstr scratch.policyContext.namespaceId = home) :
    ∀ id ∈ currentNamespaceIn available scratch, id = home ∨ id = "default".ascii := by
  intro id hid
  unfold currentNamespaceIn at hid
  split at hid
  · simp only [currentNamespace, Option.map_some, Option.mem_some_iff] at hid
    split at hid
    · exact .inl (hid.symm.trans hhome)
    · exact .inr hid.symm
  · cases hid

section Runs

variable (run : HookRun) {context : PolicyContext} (result : PolicyResult)
  (hhome : context.namespaceId = hookNamespace (fetchCgroupName run.env.policy.cgroup))

include hhome

theorem measureFileHash_effect {file : FileObject} (hdata : run.call.data = file.hexDigest)
    (hchained : run.call.chained = false)
    (hexempt : file.hashAlgo ≠ hashAlgoSha256 ∨ run.env.task = false ∨ run.env.scratch = false →
      run.Exempt) :
    ∃ outcome, HookEffect run (some 0) outcome ∧ ∀ scratch : Scratch, ∃ scratch',
      measureFileHash run.env run.call.eventName file
        { scratch with policyContext := context, policyResult := result } =
          (outcome, scratch') := by
  unfold measureFileHash
  by_cases halgo : file.hashAlgo ≠ hashAlgoSha256
  · exact ⟨_, .exempt (hexempt (.inl halgo)), fun scratch => ⟨_, if_pos halgo⟩⟩
  · simp only [if_neg halgo]
    by_cases hmemory : ¬ run.env.task ∨ ¬ run.env.scratch
    · refine ⟨_, .exempt (hexempt (.inr ?_)), fun scratch => ⟨_, if_pos hmemory⟩⟩
      simpa using hmemory
    · simp only [if_neg hmemory]
      obtain ⟨outcome, heffect, hsubmit⟩ := submitIn_effect run run.env.submit
        (currentNamespaceIn run.env.namespaceScratch
          ⟨CString.zero _, CString.zero _, .zero, context, result⟩) none
        (currentNamespaceIn_home _ (congrArg cstr hhome)) hchained.symm (by simp)
        (hdata ▸ file.hexDigest_ne_nil)
      refine ⟨outcome, heffect, fun scratch => ?_⟩
      obtain ⟨digestHex, hhex, hdigits⟩ := bytesToHexStr_digest file.digest scratch.digestHex
      have hlength : run.call.data.length = 64 := by rw [hdata, file.length_hexDigest]
      have hsign : ¬ (64 : Ret) < 0 := by decide
      simp only [hhex, if_neg hsign]
      rw [hlength] at hsubmit
      exact hsubmit digestHex.toList (by rw [hdigits, hdata]; rfl) _

theorem measureAccessedFile_effect {file : FileObject} {bprm : Binprm}
    (hcall : run.call = .lsmBprmCheckSecurity (some bprm)) (hfile : bprm.file = some file) :
    ∃ outcome, HookEffect run (some 0) outcome ∧ ∀ scratch : Scratch, ∃ scratch',
      measureAccessedFile run.env
        ⟨file.digest, "bprm_check_security".ascii,
          currentNamespaceIn run.env.namespaceScratch
            { scratch with policyContext := context, policyResult := result },
          bprm.interp,
          getPolicy run.env.policyScratch
            { scratch with policyContext := context, policyResult := result }⟩
        { scratch with policyContext := context, policyResult := result } =
          some (outcome, scratch') := by
  unfold measureAccessedFile
  by_cases hmemory : ¬ run.env.task ∨ ¬ run.env.scratch
  · exact ⟨_, .failed (by decide), fun scratch => ⟨_, if_pos hmemory⟩⟩
  · simp only [if_neg hmemory]
    have hname : run.call.eventName = "bprm_check_security".ascii := by rw [hcall]; rfl
    have hdata : run.call.data = file.hexDigest := by
      rw [hcall, HookCall.data, Option.bind_some, hfile]
      rfl
    have hlength : run.call.data.length = 64 := by rw [hdata, file.length_hexDigest]
    have hpolicy (scratch : Scratch) : getPolicy run.env.policyScratch
        { scratch with policyContext := context, policyResult := result } =
        if run.env.policyScratch then some result.config else none := rfl
    simp only [hpolicy]
    generalize (if run.env.policyScratch then some result.config else none) = policy
    obtain ⟨depsActual, text, hactual, hzero, hbuild⟩ := dependencyChain_writes run.env
      (bprm.interp.isSome && run.env.current.isSome && buildsDeps policy) bprm.interp policy
    obtain ⟨outcome, heffect, hsubmit⟩ := submitIn_effect run run.env.submit
      (currentNamespaceIn run.env.namespaceScratch
        ⟨CString.zero _, CString.zero _, .zero, context, result⟩) (some text)
      (currentNamespaceIn_home _ (congrArg cstr hhome)) (by rw [hcall]; rfl) (by simpa using hzero)
      (hdata ▸ file.hexDigest_ne_nil)
    refine ⟨outcome, heffect, fun scratch => ?_⟩
    obtain ⟨deps, hdeps, htext⟩ := hbuild scratch.buf
    obtain ⟨digestHex, hhex, hdigits⟩ := bytesToHexStr_digest file.digest scratch.digestHex
    have hsign : ¬ (64 : Ret) < 0 := by decide
    simp only [hdeps, Option.bind_eq_bind, Option.bind_some, if_neg (not_lt.mpr hactual), hhex,
      if_neg hsign, htext]
    rw [hlength, hname] at hsubmit
    obtain ⟨scratch', hscratch⟩ := hsubmit digestHex.toList (by rw [hdigits, hdata]; rfl)
      { scratch with
        policyContext := context, policyResult := result, buf := deps, digestHex := digestHex }
    exact ⟨scratch', congrArg some hscratch⟩

theorem measureSocketData_effect {env : SocketEnv} {sk : Sock} {address : Sockaddr} {addrlen : ℤ}
    (hcall : run.call = .bpfSocketConnect env (some sk) (some address) addrlen)
    (path : Buffer maxPathLen) :
    ∃ outcome, HookEffect run (some 0) outcome ∧ ∀ scratch : Scratch,
      ∃ depsActual deps scratch',
        dependencyChain run.env (buildsDeps (getPolicy run.env.policyScratch
            { scratch with policyContext := context, policyResult := result })) (some (cstr path))
          (getPolicy run.env.policyScratch
            { scratch with policyContext := context, policyResult := result }) scratch.buf =
          some (depsActual, deps) ∧
        measureSocketData run.env (currentNamespaceIn run.env.namespaceScratch
            { scratch with policyContext := context, policyResult := result }) depsActual
          (socketData sk address)
          { scratch with policyContext := context, policyResult := result, buf := deps } =
            (outcome, scratch') := by
  have hpolicy (scratch : Scratch) : getPolicy run.env.policyScratch
      { scratch with policyContext := context, policyResult := result } =
      if run.env.policyScratch then some result.config else none := rfl
  simp only [hpolicy]
  generalize (if run.env.policyScratch then some result.config else none) = policy
  obtain ⟨depsActual, text, hactual, hzero, hbuild⟩ :=
    dependencyChain_writes run.env (buildsDeps policy) (some (cstr path)) policy
  have hname : run.call.eventName = "socket_connect".ascii := by rw [hcall]; rfl
  have hdata : run.call.data = socketText sk address := by rw [hcall]; rfl
  obtain ⟨hlength, htake⟩ := socketData_eq sk address
  have hshort : ¬ (socketData sk address).1 ≥ eventDataSize := by
    have hle := length_socketText_le sk address
    have hsize : eventDataSize = 256 := rfl
    omega
  obtain ⟨outcome, heffect, hsubmit⟩ := submitIn_effect run run.env.submit
    (currentNamespaceIn run.env.namespaceScratch
      ⟨CString.zero _, CString.zero _, .zero, context, result⟩) (some text)
    (currentNamespaceIn_home _ (congrArg cstr hhome)) (by rw [hcall]; rfl) (by simpa using hzero)
    (by rw [hdata, socketText]; exact List.append_ne_nil_of_right_ne_nil _ (List.cons_ne_nil _ _))
  refine ⟨outcome, heffect, fun scratch => ?_⟩
  obtain ⟨deps, hdeps, htext⟩ := hbuild scratch.buf
  rw [hdata, hname, ← hlength] at hsubmit
  obtain ⟨scratch', hscratch⟩ := hsubmit _ htake
    { scratch with policyContext := context, policyResult := result, buf := deps }
  refine ⟨depsActual, deps, scratch', hdeps, ?_⟩
  rw [measureSocketData, if_neg hshort, if_neg (not_lt.mpr hactual), htext]
  exact hscratch

omit hhome

theorem lsmBprmCheckSecurity_effect {bprm : Option Binprm}
    (hcall : run.call = .lsmBprmCheckSecurity bprm) (s : KernelState) :
    ∃ decision outcome, HookEffect run decision outcome ∧ ∀ scratch, ∃ scratch',
      lsmBprmCheckSecurity run.env bprm run.previousRet s scratch =
        some ⟨decision, outcome, scratch'⟩ := by
  unfold lsmBprmCheckSecurity
  by_cases hprevious : run.previousRet ≠ 0
  · exact ⟨_, _, .passed hprevious, fun scratch => ⟨_, if_pos hprevious⟩⟩
  · simp only [if_neg hprevious]
    cases bprm with
    | none =>
        refine ⟨none, _, .exempt ?_, fun scratch => ⟨_, rfl⟩⟩
        simp [HookRun.Exempt, hcall]
    | some bprm =>
        cases hfile : bprm.file with
        | none =>
            refine ⟨none, _, .exempt ?_, fun scratch => ⟨_, by simp only [hfile]; rfl⟩⟩
            simp [HookRun.Exempt, hcall, hfile]
        | some file =>
            simp only [hfile]
            rcases policyForHookIn_cases run.env.policy hookLsmBprmCheckSecurity bprm.filename
                file.size (ContextFlag.file ||| ContextFlag.readonly ||| ContextFlag.executable) s
              with
              ⟨decision, hdecision, -, hpolicy⟩ | ⟨context, result, -, hhome, hpolicy⟩
            · refine ⟨_, _, .decided hdecision, fun scratch => ?_⟩
              obtain ⟨scratch', hscratch⟩ := hpolicy scratch
              exact ⟨scratch', by simp only [hscratch, if_pos hdecision]⟩
            · simp only [hpolicy, ne_eq, not_true_eq_false, if_false]
              by_cases halgo : file.hashAlgo ≠ hashAlgoSha256
              · refine ⟨some 0, _, .exempt ?_, fun scratch => ⟨_, if_pos halgo⟩⟩
                simpa [HookRun.Exempt, hcall, hfile] using halgo
              · obtain ⟨outcome, heffect, hmeasure⟩ :=
                  measureAccessedFile_effect run result hhome hcall hfile
                refine ⟨_, outcome, heffect, fun scratch => ?_⟩
                obtain ⟨scratch', hscratch⟩ := hmeasure scratch
                exact ⟨scratch', by simp only [ne_eq] at halgo; rw [if_neg halgo, hscratch]; rfl⟩

theorem lsmFilePostOpen_effect {file : Option FileObject} {mask : UInt32}
    (hcall : run.call = .lsmFilePostOpen file mask) (s : KernelState) :
    ∃ decision outcome, HookEffect run decision outcome ∧ ∀ scratch, ∃ scratch',
      lsmFilePostOpen run.env file mask run.previousRet s scratch =
        ⟨decision, outcome, scratch'⟩ := by
  unfold lsmFilePostOpen
  by_cases hprevious : run.previousRet ≠ 0
  · exact ⟨_, _, .passed hprevious, fun scratch => ⟨_, if_pos hprevious⟩⟩
  · simp only [if_neg hprevious]
    by_cases hmask : mask &&& 0x4 = 0
    · refine ⟨none, _, .exempt ?_, fun scratch => ⟨_, if_pos hmask⟩⟩
      simp [HookRun.Exempt, hcall, hmask]
    · simp only [if_neg hmask]
      cases file with
      | none =>
          refine ⟨none, _, .exempt ?_, fun scratch => ⟨_, rfl⟩⟩
          simp [HookRun.Exempt, hcall]
      | some file =>
          cases hpath : file.openedPath run.env.nameFault with
          | none =>
              refine ⟨none, _, .exempt ?_, fun scratch => ⟨_, by simp only [hpath]; rfl⟩⟩
              simp [HookRun.Exempt, hcall, hpath]
          | some path =>
              cases hinode : file.inode with
              | none =>
                  refine ⟨none, _, .exempt ?_, fun scratch =>
                    ⟨_, by simp only [hpath, hinode]; rfl⟩⟩
                  simp [HookRun.Exempt, hcall, hinode]
              | some inode =>
                  simp only [hpath, hinode]
                  by_cases hreg : ¬ inode.isReg
                  · refine ⟨none, _, .exempt ?_, fun scratch => ⟨_, if_pos hreg⟩⟩
                    simp [HookRun.Exempt, hcall, hinode, hreg]
                  · simp only [if_neg hreg]
                    by_cases hmode : file.fMode &&& 0x1 = 0 ∨ file.fMode &&& 0x2 ≠ 0
                    · refine ⟨none, _, .exempt ?_, fun scratch => ⟨_, if_pos hmode⟩⟩
                      rcases hmode with hmode | hmode <;> simp [HookRun.Exempt, hcall, hmode]
                    · simp only [if_neg hmode]
                      rcases policyForHookIn_cases run.env.policy hookLsmFilePostOpen (some path)
                          inode.iSize (ContextFlag.file ||| ContextFlag.readonly |||
                            if mask &&& 1 ≠ 0 then ContextFlag.executable else 0) s with
                        ⟨decision, hdecision, -, hpolicy⟩ | ⟨context, result, -, hhome, hpolicy⟩
                      · refine ⟨_, _, .decided hdecision, fun scratch => ?_⟩
                        obtain ⟨scratch', hscratch⟩ := hpolicy scratch
                        exact ⟨scratch', by simp only [hscratch, if_pos hdecision]⟩
                      · simp only [hpolicy, ne_eq, not_true_eq_false, if_false]
                        have hname : run.call.eventName = "file_post_open".ascii := by
                          rw [hcall]
                          rfl
                        obtain ⟨outcome, heffect, hmeasure⟩ := measureFileHash_effect run result
                          hhome (show run.call.data = file.hexDigest by rw [hcall]; rfl)
                          (by rw [hcall]; rfl) (by
                            rintro (h | h | h) <;> simp [HookRun.Exempt, hcall, h])
                        refine ⟨_, outcome, heffect, fun scratch => ?_⟩
                        obtain ⟨scratch', hscratch⟩ := hmeasure scratch
                        rw [hname] at hscratch
                        exact ⟨scratch', by rw [hscratch]⟩

theorem bpfMmapFile_effect {file : Option FileObject} {prot : UInt64}
    (hcall : run.call = .bpfMmapFile file prot) (s : KernelState) :
    ∃ decision outcome, HookEffect run decision outcome ∧ ∀ scratch, ∃ scratch',
      bpfMmapFile run.env file prot run.previousRet s scratch = ⟨decision, outcome, scratch'⟩ := by
  unfold bpfMmapFile
  by_cases hprevious : run.previousRet ≠ 0
  · exact ⟨_, _, .passed hprevious, fun scratch => ⟨_, if_pos hprevious⟩⟩
  · simp only [if_neg hprevious]
    cases file with
    | none =>
        refine ⟨none, _, .exempt ?_, fun scratch => ⟨_, rfl⟩⟩
        simp [HookRun.Exempt, hcall]
    | some file =>
        by_cases hreg : ∃ inode ∈ file.inode, inode.isReg = false
        · refine ⟨none, _, .exempt ?_, fun scratch => ⟨_, if_pos hreg⟩⟩
          simpa [HookRun.Exempt, hcall] using .inl hreg
        · simp only [if_neg hreg]
          cases hpath : file.dPath with
          | none => exact ⟨none, _, .failed (by decide), fun scratch => ⟨_, rfl⟩⟩
          | some path =>
              simp only
              rcases policyForHookIn_cases run.env.policy hookLsmMmapFile (some path) file.size
                  (ContextFlag.file ||| (if prot &&& 4 ≠ 0 then ContextFlag.executable else 0) |||
                    if file.fMode &&& 2 = 0 then ContextFlag.readonly else 0) s with
                ⟨decision, hdecision, -, hpolicy⟩ | ⟨context, result, -, hhome, hpolicy⟩
              · refine ⟨_, _, .decided hdecision, fun scratch => ?_⟩
                obtain ⟨scratch', hscratch⟩ := hpolicy scratch
                exact ⟨scratch', by simp only [hscratch, if_pos hdecision]⟩
              · simp only [hpolicy, ne_eq, not_true_eq_false, if_false]
                have hname : run.call.eventName = "mmap_file".ascii := by
                  rw [hcall]
                  rfl
                obtain ⟨outcome, heffect, hmeasure⟩ := measureFileHash_effect run result hhome
                  (show run.call.data = file.hexDigest by rw [hcall]; rfl) (by rw [hcall]; rfl) (by
                    rintro (h | h | h) <;> simp [HookRun.Exempt, hcall, h])
                refine ⟨_, outcome, heffect, fun scratch => ?_⟩
                obtain ⟨scratch', hscratch⟩ := hmeasure scratch
                rw [hname] at hscratch
                exact ⟨scratch', by rw [hscratch]⟩

theorem bpfSocketConnect_effect {env : SocketEnv} {sk : Option Sock} {address : Option Sockaddr}
    {addrlen : ℤ} (hcall : run.call = .bpfSocketConnect env sk address addrlen)
    (s : KernelState) :
    ∃ decision outcome, HookEffect run decision outcome ∧ ∀ scratch, ∃ scratch',
      bpfSocketConnect run.env env sk address addrlen run.previousRet s scratch =
        some ⟨decision, outcome, scratch'⟩ := by
  unfold bpfSocketConnect
  by_cases hprevious : run.previousRet ≠ 0
  · exact ⟨_, _, .passed hprevious, fun scratch => ⟨_, if_pos hprevious⟩⟩
  · simp only [if_neg hprevious]
    cases address with
    | none =>
        refine ⟨none, _, .exempt ?_, fun scratch => ⟨_, rfl⟩⟩
        simp [HookRun.Exempt, hcall]
    | some address =>
        by_cases hfamily : address.saFamily ≠ afInet ∧ address.saFamily ≠ afUnix
        · refine ⟨none, _, .exempt ?_, fun scratch => ⟨_, if_pos hfamily⟩⟩
          simp [HookRun.Exempt, hcall, hfamily]
        · simp only [if_neg hfamily]
          by_cases hmemory : ¬ run.env.task ∨ ¬ run.env.scratch
          · refine ⟨none, _, .exempt ?_, fun scratch => ⟨_, if_pos hmemory⟩⟩
            have hmissing : run.env.task = false ∨ run.env.scratch = false := by simpa using hmemory
            simp [HookRun.Exempt, hcall, hmissing]
          · simp only [if_neg hmemory]
            cases sk with
            | none =>
                refine ⟨none, _, .exempt ?_, fun scratch => ⟨_, rfl⟩⟩
                simp [HookRun.Exempt, hcall]
            | some sk =>
                cases hpath : socketPath env address addrlen with
                | none =>
                    refine ⟨none, _, .exempt ?_, fun scratch => ⟨_, rfl⟩⟩
                    have hinet : address.saFamily = afInet ∧
                        (env.exeTask = false ∨ env.exeFile = none) := by
                      unfold socketPath at hpath
                      split at hpath
                      · rename_i hinet
                        refine ⟨hinet, ?_⟩
                        split at hpath
                        · exact .inr hpath
                        · rename_i htask
                          exact .inl (by simpa using htask)
                      · split at hpath <;> cases hpath
                    simp [HookRun.Exempt, hcall, hinet]
                | some path =>
                    simp only
                    rcases policyForHookIn_cases run.env.policy hookLsmSocketConnect
                        (some (cstr path)) 0 0 s with
                      ⟨decision, hdecision, -, hpolicy⟩ | ⟨context, result, -, hhome, hpolicy⟩
                    · refine ⟨_, _, .decided hdecision, fun scratch => ?_⟩
                      obtain ⟨scratch', hscratch⟩ :=
                        hpolicy { scratch with buf := CString.zero depsBufSize }
                      exact ⟨scratch', by simp only [hscratch, if_pos hdecision]⟩
                    · simp only [hpolicy, ne_eq, not_true_eq_false, if_false]
                      obtain ⟨outcome, heffect, hmeasure⟩ :=
                        measureSocketData_effect run result hhome hcall path
                      refine ⟨_, outcome, heffect, fun scratch => ?_⟩
                      obtain ⟨depsActual, deps, scratch', hdeps, hscratch⟩ :=
                        hmeasure { scratch with buf := CString.zero depsBufSize }
                      refine ⟨scratch', ?_⟩
                      rw [hdeps, Option.bind_eq_bind, Option.bind_some, hscratch]
                      rfl

theorem buildAttributes_of_unset {attr : Iattr} (h : attr.selected = []) :
    (buildAttributes (CString.zero 64) (some attr)).1 = 0 := by
  have hempty : Written [] ((0 : ℤ), CString.zero 64) := by simp [Written]
  have hwritten := hempty.fold le_rfl attr.iaValid attr.parts
  rw [formatLlu_selected, List.nil_append, h, List.map_nil, List.flatten_nil] at hwritten
  generalize hstate : attr.parts.foldl _ ((0 : ℤ), CString.zero 64) = state at hwritten
  have hbuild : buildAttributes (CString.zero 64) (some attr) =
      terminateAttributes state.1 state.2 := by
    rw [← hstate]
    rfl
  obtain ⟨off, attrs⟩ := state
  obtain rfl : off = 0 := by simpa [Written] using hwritten
  rw [hbuild]
  simp [terminateAttributes]

theorem bpfInodeSetattrIn_effect {dentry : Option (Option Bytes)} {attr : Option Iattr}
    (hcall : run.call = .bpfInodeSetattr dentry attr) (s : KernelState) :
    ∃ decision outcome, HookEffect run decision outcome ∧ ∀ scratch, ∃ scratch',
      bpfInodeSetattrIn run.env dentry attr run.previousRet s scratch =
        ⟨decision, outcome, scratch'⟩ := by
  unfold bpfInodeSetattrIn
  by_cases hprevious : run.previousRet ≠ 0
  · exact ⟨_, _, .passed hprevious, fun scratch => ⟨_, if_pos hprevious⟩⟩
  · simp only [if_neg hprevious]
    cases dentry with
    | none =>
        refine ⟨none, _, .exempt ?_, fun scratch => ⟨_, rfl⟩⟩
        simp [HookRun.Exempt, hcall]
    | some name =>
        cases attr with
        | none =>
            refine ⟨none, _, .exempt ?_, fun scratch => ⟨_, rfl⟩⟩
            simp [HookRun.Exempt, hcall]
        | some attr =>
            simp only
            rcases policyForHookIn_cases run.env.policy hookLsmInodeSetattr name 0 0 s with
              ⟨decision, hdecision, -, hpolicy⟩ | ⟨context, result, -, hhome, hpolicy⟩
            · refine ⟨_, _, .decided hdecision, fun scratch => ?_⟩
              obtain ⟨scratch', hscratch⟩ := hpolicy scratch
              exact ⟨scratch', by simp only [hscratch, if_pos hdecision]⟩
            · simp only [hpolicy, ne_eq, not_true_eq_false, if_false]
              by_cases hlength : (buildAttributes (CString.zero 64) (some attr)).1 ≤ 0
              · refine ⟨some 0, _, .exempt ?_, fun scratch => ⟨_, if_pos hlength⟩⟩
                simpa [HookRun.Exempt, hcall] using hlength
              · have hset : attr.selected ≠ [] :=
                  fun hunset => hlength (buildAttributes_of_unset hunset).le
                have hfits : attr.list.length ≤ 62 := by
                  by_contra hlong
                  have hspec := buildAttributes_spec attr hset
                  rw [if_neg hlong] at hspec
                  exact hlength (by rw [hspec]; decide)
                obtain ⟨hlen, hlist⟩ := (if_pos hfits).mp (buildAttributes_spec attr hset)
                have hname : run.call.eventName = "inode_setattr".ascii := by rw [hcall]; rfl
                have hdata : run.call.data = attr.list := by rw [hcall]; rfl
                obtain ⟨outcome, heffect, hsubmit⟩ := submitIn_effect run run.env.submit
                  (currentNamespaceIn run.env.namespaceScratch
                    ⟨CString.zero _, CString.zero _, .zero, context, result⟩) none
                  (currentNamespaceIn_home _ (congrArg cstr hhome)) (by rw [hcall]; rfl) (by simp)
                  (hdata ▸ List.length_pos_iff.mp (list_length_pos hset))
                refine ⟨_, outcome, heffect, fun scratch => ?_⟩
                rw [hname, hdata] at hsubmit
                obtain ⟨scratch', hscratch⟩ := hsubmit _ hlist
                  { scratch with policyContext := context, policyResult := result }
                rw [← hlen] at hscratch
                refine ⟨scratch', (if_neg hlength).trans ?_⟩
                exact congrArg (fun r : HookOutcome × Scratch => HookResult.mk (some 0) r.1 r.2)
                  hscratch

/-- For every memory the program decides, returns and submits the same, and it stays inside of its
scratch memory. -/
theorem HookRun.body_effect (s : KernelState) :
    ∃ decision outcome, HookEffect run decision outcome ∧
      ∀ scratch, ∃ scratch', run.body s scratch = some ⟨decision, outcome, scratch'⟩ := by
  unfold HookRun.body
  cases hcall : run.call with
  | lsmBprmCheckSecurity bprm => exact lsmBprmCheckSecurity_effect run hcall s
  | lsmFilePostOpen file mask =>
      obtain ⟨decision, outcome, heffect, hrun⟩ := lsmFilePostOpen_effect run hcall s
      exact ⟨decision, outcome, heffect, fun scratch => (hrun scratch).imp fun _ => congrArg some⟩
  | bpfMmapFile file prot =>
      obtain ⟨decision, outcome, heffect, hrun⟩ := bpfMmapFile_effect run hcall s
      exact ⟨decision, outcome, heffect, fun scratch => (hrun scratch).imp fun _ => congrArg some⟩
  | bpfSocketConnect env sk address addrlen => exact bpfSocketConnect_effect run hcall s
  | bpfInodeSetattr dentry attr =>
      obtain ⟨decision, outcome, heffect, hrun⟩ := bpfInodeSetattrIn_effect run hcall s
      exact ⟨decision, outcome, heffect, fun scratch => (hrun scratch).imp fun _ => congrArg some⟩

/-- The request that the program submits, if it does. -/
def HookRun.submitted (s : KernelState) (scratch : Scratch) : Option MeasurementRequest :=
  match run.body s scratch with
  | some ⟨_, .extending request, _⟩ => some request
  | _ => none

theorem HookRun.submitted_measures {s : KernelState} {scratch : Scratch}
    {request : MeasurementRequest} (h : run.submitted s scratch = some request) :
    run.Measures request := by
  obtain ⟨decision, outcome, heffect, hbody⟩ := run.body_effect s
  obtain ⟨left, hleft⟩ := hbody scratch
  rw [HookRun.submitted, hleft] at h
  cases heffect with
  | submitted hmeasures =>
      obtain rfl := Option.some.inj h
      exact hmeasures
  | passed | exempt | decided | failed => cases h

end Runs

end BpfIma
