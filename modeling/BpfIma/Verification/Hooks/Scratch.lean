import BpfIma.Model.LsmHooks
import BpfIma.Verification.Hooks.Dependencies
import BpfIma.Verification.Hooks.Setattr

/-! # Programs and their scratch memory

A program reads of the scratch memory only what it has written itself. For each function there is
one result that it gives whatever the memory holds at its start, and it never writes outside. -/

namespace BpfIma

open CString Errno Text

/-! ## The dependency string -/

theorem cstr_of_isPrefix {n : ℕ} {b : Buffer n} {text : Bytes} (h : text ++ [0] <+: b.toList) :
    cstr b = upToNul text := by
  obtain ⟨rest, hrest⟩ := h
  rw [cstr, ← hrest, upToNul, List.append_assoc, List.takeWhile_append]
  split
  · rename_i hall
    rw [(List.takeWhile_prefix _).eq_of_length hall]
    simp
  · rfl

section Dependencies

variable {τ : Type} (tasks : TaskTable τ)

/-- A fault clears the memory that was to be written. -/
theorem exists_probeReadStr_fault {n : ℕ} {deps : Buffer n} {text : Bytes}
    (htext : text <+: deps.toList) {size : ℕ} (hroom : text.length + size ≤ n) (src : Bytes) :
    ∃ out : Buffer n, probeReadStr true deps text.length size src = some (-efault, out) ∧
      text <+: out.toList := by
  obtain ⟨out, hstore, hout⟩ :=
    exists_store htext (show text.length + (List.replicate size (0 : UInt8)).length ≤ n by simpa)
  refine ⟨out, ?_, (List.prefix_append _ _).trans hout⟩
  rw [probeReadStr, if_neg (by omega), if_pos rfl, hstore]
  rfl

/-- A name is added behind `text`, or the text stays; either way the offset is its length. -/
theorem appendParentComm_writes {text : Bytes} (hlength : text.length < depsBufSize)
    (ancestor : Option τ) :
    ∃ (offset : ℤ) (next : Option τ) (more : Bytes), (text ++ more).length ≤ depsBufSize ∧
      (offset = -1 ∧ more = [] ∨ offset = (text ++ more).length) ∧
      ∀ deps : Buffer depsBufSize, text <+: deps.toList → ∃ out : Buffer depsBufSize,
        appendParentComm tasks deps text.length depsBufSize ancestor = some (offset, out, next) ∧
        text ++ more <+: out.toList := by
  have hbuf : depsBufSize = 128 := rfl
  cases ancestor with
  | none =>
      refine ⟨-1, none, [], by simpa using hlength.le, .inl ⟨rfl, rfl⟩, fun deps htext => ?_⟩
      exact ⟨deps, rfl, by simpa using htext⟩
  | some task =>
      by_cases hfull : text.length ≥ depsBufSize - 16 ∨ text.length ≥ depsBufSize - 16
      · refine ⟨text.length, tasks.realParent task, [], by simpa using hlength.le, .inr (by simp),
          fun deps htext => ⟨deps, ?_, by simpa using htext⟩⟩
        simp only [appendParentComm, if_pos hfull]
      · have hname : ((tasks.comm task).take (16 - 1)).length ≤ 15 := by
          rw [List.length_take]
          omega
        by_cases hempty : tasks.comm task = []
        · refine ⟨text.length, tasks.realParent task, [], by simpa using hlength.le,
            .inr (by simp), fun deps htext => ?_⟩
          obtain ⟨out, hread, hout⟩ := exists_probeReadStr htext (show 0 < 16 by decide)
            (by omega) (tasks.comm task)
          refine ⟨out, ?_, ?_⟩
          · have hshort : ¬ (min ((tasks.comm task).length + 1 : ℤ) (16 : ℕ) > 1) := by
              simp [hempty]
            simp only [appendParentComm, if_neg hfull, hread, Option.bind_eq_bind,
              Option.bind_some, if_neg hshort]
            rfl
          · simpa [hempty] using hout
        · have hpos := List.length_pos_iff.mpr hempty
          have htake : ((tasks.comm task).take (16 - 1)).length =
              (min ((tasks.comm task).length + 1 : ℤ) (16 : ℕ) - 1).toNat := by
            rw [List.length_take]
            omega
          have hcolon : ":".ascii.length = 1 := by decide
          refine ⟨(text ++ ((tasks.comm task).take (16 - 1) ++ ":".ascii)).length,
            tasks.realParent task, (tasks.comm task).take (16 - 1) ++ ":".ascii, ?_, .inr rfl,
            fun deps htext => ?_⟩
          · rw [List.length_append, List.length_append, hcolon]
            omega
          · obtain ⟨mid, hread, hmid⟩ := exists_probeReadStr htext (show 0 < 16 by decide)
              (by omega) (tasks.comm task)
            obtain ⟨out, hstore, hout⟩ := exists_store hmid
              (show (text ++ (tasks.comm task).take (16 - 1)).length + ":".ascii.length ≤
                depsBufSize by rw [List.length_append, hcolon]; omega)
            rw [List.length_append, htake] at hstore
            refine ⟨out, ?_, by rwa [List.append_assoc] at hout⟩
            have hlong : min ((tasks.comm task).length + 1 : ℤ) (16 : ℕ) > 1 := by omega
            have hinside : text.length +
                  (min ((tasks.comm task).length + 1 : ℤ) (16 : ℕ) - 1).toNat <
                  depsBufSize ∨ text.length +
                  (min ((tasks.comm task).length + 1 : ℤ) (16 : ℕ) - 1).toNat < depsBufSize := by
              omega
            simp only [appendParentComm, if_neg hfull, hread, Option.bind_eq_bind,
              Option.bind_some, if_pos hlong, if_pos hinside, hstore]
            rw [List.length_append, List.length_append, htake, hcolon]
            rfl

variable [DecidableEq τ]

/-- What is left of a loop that starts behind `text`. -/
theorem bpfLoop_writes (rounds : ℕ) {text : Bytes} (hlength : text.length ≤ depsBufSize)
    (ancestor : Option τ) :
    ∃ (ret : ℤ) (more : Bytes), 0 ≤ ret ∧ (text ++ more).length ≤ depsBufSize ∧
      ∀ deps : Buffer depsBufSize, text <+: deps.toList → ∃ ctx : DepsLoopCtx τ depsBufSize,
        bpfLoop (buildDepsCb tasks) rounds ⟨deps, text.length, depsBufSize, ancestor⟩ =
          some (ret, ctx) ∧
        ctx.depsActual = (text ++ more).length ∧ text ++ more <+: ctx.deps.toList := by
  induction rounds generalizing text ancestor with
  | zero =>
      refine ⟨0, [], le_refl _, by simpa using hlength, fun deps htext => ⟨_, rfl, by simp, ?_⟩⟩
      simpa using htext
  | succ rounds ih =>
      by_cases hfull : text.length ≥ depsBufSize
      · refine ⟨1, [], by decide, by simpa using hlength, fun deps htext =>
          ⟨⟨deps, text.length, depsBufSize, ancestor⟩, ?_, by simp, by simpa using htext⟩⟩
        simp only [bpfLoop, buildDepsCb, ge_iff_le, hfull, or_self, if_true]
        rfl
      · obtain ⟨offset, next, more, hmore, hoffset, happend⟩ :=
          appendParentComm_writes tasks (not_le.mp hfull) ancestor
        have hinside : ¬ (text.length ≥ depsBufSize ∨ text.length ≥ depsBufSize) := by omega
        rcases hoffset with ⟨rfl, rfl⟩ | hoffset
        · -- There is no ancestor to read.
          refine ⟨1, [], by decide, hmore, fun deps htext => ?_⟩
          obtain ⟨out, hcall, hout⟩ := happend deps htext
          refine ⟨⟨out, text.length, depsBufSize, ancestor⟩, ?_, by simp, hout⟩
          simp only [bpfLoop, buildDepsCb, if_neg hinside, hcall, Option.bind_eq_bind,
            Option.bind_some]
          rfl
        · have hsign : ¬ offset < 0 := by omega
          have hactual : offset.toNat = (text ++ more).length := by omega
          by_cases hlast : next = none ∨ next = ancestor
          · refine ⟨1, more, by decide, hmore, fun deps htext => ?_⟩
            obtain ⟨out, hcall, hout⟩ := happend deps htext
            refine ⟨⟨out, (text ++ more).length, depsBufSize, ancestor⟩, ?_, rfl, hout⟩
            simp only [bpfLoop, buildDepsCb, if_neg hinside, hcall, Option.bind_eq_bind,
              Option.bind_some, if_neg hsign, hactual, if_pos hlast]
            rfl
          · obtain ⟨ret, rest, hret, hrest, hloop⟩ := ih hmore next
            refine ⟨ret + 1, more ++ rest, by omega, by rwa [← List.append_assoc],
              fun deps htext => ?_⟩
            obtain ⟨out, hcall, hout⟩ := happend deps htext
            obtain ⟨ctx, hrun, hend, htail⟩ := hloop out hout
            refine ⟨ctx, ?_, by rwa [← List.append_assoc], by rwa [← List.append_assoc]⟩
            simp only [bpfLoop, buildDepsCb, if_neg hinside, hcall, Option.bind_eq_bind,
              Option.bind_some, if_neg hsign, hactual, if_neg hlast]
            rw [← hactual] at hrun ⊢
            simp [hrun, pure]

theorem exists_unknown (deps : Buffer depsBufSize) :
    ∃ (ret : Ret) (out : Buffer depsBufSize),
      probeReadStr false deps 0 depsBufSize "unknown:".ascii = some (ret, out) ∧
      "unknown:".ascii <+: out.toList := by
  obtain ⟨out, hread, hout⟩ := exists_probeReadStr (List.nil_prefix : [] <+: deps.toList)
    (show 0 < depsBufSize by decide) (by simp) "unknown:".ascii
  rw [List.length_nil] at hread
  refine ⟨_, out, hread, ?_⟩
  rwa [List.nil_append, List.take_of_length_le (by decide)] at hout

/-- The start of the string is the name of the file, or `unknown`. -/
theorem initialDependency_writes (fault : Bool) (name : Option Bytes) :
    ∃ text : Bytes, text ≠ [] ∧ text.length ≤ depsBufSize ∧
      ∀ deps : Buffer depsBufSize, ∃ out : Buffer depsBufSize,
        initialDependency fault deps depsBufSize name = some (text.length, out) ∧
        text <+: out.toList := by
  have hbuf : depsBufSize = 128 := rfl
  have hlength : "unknown:".ascii.length = 8 := by decide
  -- A name that is missing, empty or out of reach leaves the buffer to `unknown`.
  by_cases hname : fault = false ∧ ∃ text ∈ name, text ≠ []
  · obtain ⟨rfl, text, rfl, hne⟩ := hname
    refine ⟨text.take 127 ++ [dependencySeparator], by simp, ?_, fun deps => ?_⟩
    · rw [List.length_append, List.length_take, List.length_singleton]
      omega
    · obtain ⟨out, hinitial, hout⟩ := initialDependency_name deps hne
      exact ⟨out, by rw [hinitial, List.length_append, List.length_singleton], hout⟩
  · refine ⟨"unknown:".ascii, by decide, by decide, fun deps => ?_⟩
    cases name with
    | none =>
        obtain ⟨ret, out, hunknown, hout⟩ := exists_unknown deps
        refine ⟨out, ?_, hout⟩
        simp only [initialDependency, hunknown, Option.bind_eq_bind, Option.bind_some,
          Option.pure_def, if_true, hlength]
    | some text =>
        obtain ⟨ret, mid, hread, hshort⟩ : ∃ (ret : Ret) (mid : Buffer depsBufSize),
            probeReadStr fault deps 0 depsBufSize text = some (ret, mid) ∧ ¬ ret > 1 := by
          cases fault with
          | true =>
              obtain ⟨mid, hread, -⟩ := exists_probeReadStr_fault
                (List.nil_prefix : [] <+: deps.toList)
                (show ([] : Bytes).length + depsBufSize ≤ depsBufSize by simp) text
              exact ⟨_, mid, hread, by decide⟩
          | false =>
              obtain ⟨mid, hread, -⟩ := exists_probeReadStr (List.nil_prefix : [] <+: deps.toList)
                (show 0 < depsBufSize by decide) (by simp) text
              have hempty : text = [] := by simpa using hname
              exact ⟨_, mid, hread, by simp [hempty]⟩
        obtain ⟨ret', out, hunknown, hout⟩ := exists_unknown mid
        refine ⟨out, ?_, hout⟩
        simp only [initialDependency, hread, hunknown, Option.bind_eq_bind, Option.bind_some,
          Option.pure_def, if_neg hshort, if_true, hlength]

/-- The string that `build_dependencies` leaves does not depend on what the buffer held, and no
write leaves the buffer. -/
theorem buildDependencies_writes (fault : Bool) (name : Option Bytes) (current : Option τ)
    (maxDepth : UInt32) :
    ∃ (ret : Ret) (text : Bytes), 0 ≤ ret ∧
      ∀ deps : Buffer depsBufSize, ∃ out : Buffer depsBufSize,
        buildDependencies tasks fault deps depsBufSize name current maxDepth = some (ret, out) ∧
        cstr out = text := by
  obtain ⟨first, hne, hfirst, hinitial⟩ := initialDependency_writes fault name
  obtain ⟨loopRet, more, hloopRet, hlength, hloop⟩ := bpfLoop_writes tasks
    (if maxDepth > 32 then 32 else maxDepth).toNat hfirst (current.bind tasks.realParent)
  have hpos : 0 < (first ++ more).length := by
    rw [List.length_append]
    have := List.length_pos_iff.mpr hne
    omega
  refine ⟨((first ++ more).length - 1 : ℕ), upToNul (first ++ more).dropLast,
    Int.natCast_nonneg _, fun deps => ?_⟩
  obtain ⟨start, hstart, hprefix⟩ := hinitial deps
  obtain ⟨ctx, hrun, hactual, hwritten⟩ := hloop start hprefix
  have hdrop : (first ++ more).dropLast <+: ctx.deps.toList :=
    (List.dropLast_prefix _).trans hwritten
  obtain ⟨out, hstore, hout⟩ := exists_store hdrop
    (show (first ++ more).dropLast.length + [(0 : UInt8)].length ≤ depsBufSize by
      rw [List.length_dropLast, List.length_singleton]
      omega)
  refine ⟨out, ?_, cstr_of_isPrefix hout⟩
  rw [List.length_dropLast] at hstore
  have hsign : ¬ loopRet < 0 := not_lt.mpr hloopRet
  simp only [buildDependencies, hstart, hrun, Option.bind_eq_bind, Option.bind_some, if_neg hsign,
    hactual, hpos, hlength, gt_iff_lt, and_self, if_true, hstore]
  rfl

end Dependencies

/-- Built or not, the dependency string of a program is the same for every memory. -/
theorem dependencyChain_writes (env : HookEnv) (asked : Bool) (name : Option Bytes)
    (policy : Option PolicyConfig) :
    ∃ (ret : Ret) (text : Bytes), 0 ≤ ret ∧ 0 ∉ text ∧
      ∀ deps : Buffer depsBufSize, ∃ out : Buffer depsBufSize,
        dependencyChain env asked name policy deps = some (ret, out) ∧ cstr out = text := by
  cases asked with
  | true =>
      obtain ⟨ret, text, hret, hbuild⟩ := buildDependencies_writes env.tasks env.nameFault name
        env.current (depsDepth policy)
      refine ⟨ret, text, hret, ?_, fun deps => hbuild (deps.set 0 0)⟩
      obtain ⟨out, -, htext⟩ := hbuild (CString.zero _)
      rw [← htext]
      exact zero_notMem_cstr out
  | false =>
      refine ⟨0, [], le_refl _, by simp, fun deps => ⟨deps.set 0 0, rfl, ?_⟩⟩
      exact (cstr_eq_nil_iff _).mpr (List.Vector.get_set_same _ _ _)

/-! ## The digest -/

theorem hexLoop_writes {n : ℕ} {bytes : Bytes} {out : Buffer n} {text : Bytes}
    (htext : text <+: out.toList) (hroom : text.length + 2 * bytes.length < n) :
    ∃ out' : Buffer n, hexLoop out text.length bytes =
        (some (text.length + 2 * bytes.length), out') ∧
      text ++ hexEncode bytes <+: out'.toList := by
  induction bytes generalizing out text with
  | nil => exact ⟨out, rfl, by simpa [hexEncode] using htext⟩
  | cons b bytes ih =>
      rw [List.length_cons] at hroom
      have hfits : text.length + 2 < n := by omega
      have hwritten : text ++ hexByte b <+: ((out.set ⟨text.length, by omega⟩
          (hexDigit (b.toNat / 16))).set ⟨text.length + 1, by omega⟩
            (hexDigit (b.toNat % 16))).toList := by
        obtain ⟨rest, hrest⟩ := htext
        have hlength := congrArg List.length hrest
        rw [List.length_append, List.Vector.toList_length] at hlength
        rw [List.Vector.toList_set, List.Vector.toList_set, ← hrest]
        match rest with
        | [] | [_] =>
            simp at hlength
            omega
        | c :: d :: rest => exact ⟨rest, by simp [hexByte]⟩
      have hlength : (text ++ hexByte b).length = text.length + 2 := by
        rw [List.length_append]
        rfl
      obtain ⟨out', hloop, hout⟩ := ih hwritten (by omega)
      refine ⟨out', ?_, by simpa [hexEncode, List.append_assoc] using hout⟩
      rw [hlength] at hloop
      rw [hexLoop, dif_pos hfits, hloop, List.length_cons]
      congr 2
      omega

/-- The digest becomes 64 digits at the start of the buffer. -/
theorem bytesToHexStr_digest (digest : Digest) (out : Buffer 68) :
    ∃ out' : Buffer 68, bytesToHexStr digest.toList 32 out = (64, out') ∧
      out'.toList.take 64 = hexEncode digest.toList := by
  have hlength : digest.toList.length = 32 := digest.toList_length
  obtain ⟨mid, hloop, hmid⟩ := hexLoop_writes (List.nil_prefix : [] <+: out.toList)
    (show ([] : Bytes).length + 2 * digest.toList.length < 68 by simp [hlength])
  rw [List.length_nil, hlength] at hloop
  refine ⟨mid.set ⟨64, by decide⟩ 0, ?_, ?_⟩
  · have htake : digest.toList.take (if 32 > 32 then 32 else 32) = digest.toList :=
      List.take_of_length_le (by simp [hlength])
    simp only [bytesToHexStr, htake, hloop]
    rfl
  · have hdigits : (hexEncode digest.toList).length = 64 := by rw [length_hexEncode, hlength]
    rw [List.Vector.toList_set, List.take_set_of_le (le_refl _)]
    rw [List.nil_append] at hmid
    rw [List.prefix_iff_eq_take.mp hmid, hdigits]

/-! ## The policy -/

theorem readOptional_eq {n : ℕ} (hn : 1 < n) (fault : Bool) (src : Option Bytes) :
    readOptional fault n src =
      if (readInto fault n src).1 ≤ 0 ∨ (readInto fault n src).1 ≥ n then none
      else some (readInto fault n src).2 := by
  cases src with
  | none =>
      have hfits : ¬ ((1 : ℤ) ≤ 0 ∨ (1 : ℤ) ≥ n) := by omega
      rw [readInto, if_neg hfits]
      rfl
  | some src => rfl

section Policy

variable (env : ResolveEnv) (hook : UInt32) (path : Option Bytes) (size : UInt64) (flags : UInt32)
  (s : KernelState)

/-- The decision in the scratch memory is that of the policy. If it is to measure, the memory
holds the context and the result of this call. -/
theorem policyForHookIn_cases :
    (∃ decision, decision ≠ 0 ∧ (policyForHook env hook path size flags s).1 = decision ∧
        ∀ scratch, ∃ scratch',
          policyForHookIn env hook path size flags s scratch = (decision, scratch')) ∨
      ∃ context result, policyForHook env hook path size flags s = (0, some (context, result)) ∧
        context.namespaceId = hookNamespace (fetchCgroupName env.cgroup) ∧
        ∀ scratch, policyForHookIn env hook path size flags s scratch =
          (0, { scratch with policyContext := context, policyResult := result }) := by
  unfold policyForHook policyForHookIn
  by_cases hscratch : ¬ env.scratch
  · rw [if_pos hscratch]
    exact .inl ⟨-12, by decide, rfl, fun scratch => ⟨scratch, if_pos hscratch⟩⟩
  · simp only [if_neg hscratch]
    rw [readOptional_eq (show 1 < pathSize by decide)]
    by_cases hread : (readInto env.pathFault pathSize path).1 ≤ 0 ∨
        (readInto env.pathFault pathSize path).1 ≥ pathSize
    · rw [if_pos hread]
      exact .inl ⟨-36, by decide, rfl, fun scratch => ⟨_, if_pos hread⟩⟩
    · rw [if_neg hread]
      simp only [if_neg hread]
      generalize hcontext : (⟨hookNamespace (fetchCgroupName env.cgroup),
        fetchCgroupName env.cgroup, (readInto env.pathFault pathSize path).2, size, hook, flags⟩ :
        PolicyContext) = context
      cases hresolve : policyResolveContext context s with
      | error ret =>
          refine .inl ⟨ret, ?_, rfl, fun scratch => ⟨_, rfl⟩⟩
          rintro rfl
          unfold policyResolveContext at hresolve
          split at hresolve
          · cases Except.error.inj hresolve
          · split at hresolve
            · cases Except.error.inj hresolve
            · cases hresolve
      | ok result =>
          by_cases hskip : (result.skip.toNat : Ret) = 0
          · exact .inr ⟨context, result, by simp only [hskip], by rw [← hcontext],
              fun scratch => by simp only [hskip]⟩
          · exact .inl ⟨_, hskip, rfl, fun scratch => ⟨_, rfl⟩⟩

end Policy

/-! ## The request -/

/-- The request in the scratch memory is the one of the memory-free model. -/
theorem submitRequest_eq (env : SubmitEnv) (ctx : MeasurementCtx) (memory : MeasurementRequest) :
    measurementRequest env ctx =
      if (submitRequest env ctx memory).1 = 0 then .ok (submitRequest env ctx memory).2
      else .error (submitRequest env ctx memory).1 := by
  have hfailed : ¬ ((-1 : Ret) = 0) := by decide
  unfold measurementRequest submitRequest
  cases ctx.eventName with
  | none => simp only [hfailed, if_false]
  | some eventName =>
      simp only [readOptional_eq (show 1 < namespaceSize by decide),
        readOptional_eq (show 1 < dependenciesSize by decide)]
      split
      · rfl
      · split
        · rfl
        · split
          · rfl
          · by_cases hnamespace :
                (readInto env.namespaceFault namespaceSize ctx.namespaceId).1 ≤ 0 ∨
                (readInto env.namespaceFault namespaceSize ctx.namespaceId).1 ≥ namespaceSize
            · simp only [if_pos hnamespace, hfailed, if_false]
            · simp only [if_neg hnamespace]
              by_cases hdeps :
                  (readInto env.dependenciesFault dependenciesSize ctx.dependencies).1 ≤ 0 ∨
                  (readInto env.dependenciesFault dependenciesSize ctx.dependencies).1 ≥
                    dependenciesSize
              · simp only [if_pos hdeps, hfailed, if_false]
              · simp only [if_neg hdeps]
                split
                · rfl
                · rfl

/-- Only the bytes that count are read of the data. -/
theorem submitRequest_take (env : SubmitEnv) (ctx : MeasurementCtx) {data : Bytes}
    (hdata : ctx.additionalData = some data) (memory : MeasurementRequest) :
    submitRequest env ctx memory = submitRequest env
      { ctx with additionalData := some (data.take ctx.additionalDataLen.toNat) } memory := by
  simp only [submitRequest, hdata, Option.getD_some, List.take_take, min_self, reduceCtorEq]

end BpfIma
