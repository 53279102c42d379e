import BpfIma.Verification.Hooks.Mediation
import BpfIma.Verification.Measurement.Framing

/-! # The lines of the programs

What the verifier makes of the lists that the programs fill, in any order. Events of programs that
submit no dependencies always pass; the others pass when the dependencies are there. Which
connections have the same line is decided by six bytes of the address. -/

namespace BpfIma

open CString Text

/-! ## The texts of an event -/

theorem notMem_endpointText {c : UInt8} (h : c.toNat ≤ 32) (addr : UInt32) (port : UInt16) :
    c ∉ endpointText addr port := by
  have hdecimal (n : ℕ) : c ∉ decimal n := notMem_decimal (.inl (by omega)) n
  have hdot : c ≠ 46 := by
    rintro rfl
    exact absurd h (by decide)
  have hcolon : c ≠ 58 := by
    rintro rfl
    exact absurd h (by decide)
  simp [endpointText, hdecimal, hdot, hcolon]

theorem notMem_socketText {c : UInt8} (h : c.toNat ≤ 32) (sk : Sock) (address : Sockaddr) :
    c ∉ socketText sk address := by
  have hdash : c ≠ 45 := by
    rintro rfl
    exact absurd h (by decide)
  simp [socketText, notMem_endpointText h, hdash]

theorem notMem_attributeList {c : UInt8} (h : c.toNat ≤ 32) (attr : Iattr) : c ∉ attr.list := by
  have hplain {text : Bytes} (htext : text.all (32 < ·.toNat) = true) : c ∉ text := by
    intro hc
    have hgreater := List.all_eq_true.mp htext c hc
    rw [decide_eq_true_iff] at hgreater
    omega
  have hnumber {label : Bytes} (hlabel : label.all (32 < ·.toNat) = true) (n : ℕ) :
      c ∉ label ++ decimal n := by
    rw [List.mem_append, not_or]
    exact ⟨hplain hlabel, notMem_decimal (.inl (by omega)) n⟩
  have hparts : ∀ a ∈ attr.attributes, c ∉ a.2 := by
    simp only [Iattr.attributes, List.forall_mem_cons, List.not_mem_nil, false_implies,
      implies_true, and_true]
    exact ⟨hnumber rfl _, hnumber rfl _, hnumber rfl _, hnumber rfl _, hplain rfl, hplain rfl,
      hplain rfl⟩
  intro hc
  have hset : attr.selected ≠ [] := by
    intro hunset
    simp [Iattr.list, hunset] at hc
  have hterminated : c ∈ (attr.selected.map (· ++ [44])).flatten := by
    rw [flatten_map_concat hset]
    exact List.mem_append_left _ hc
  obtain ⟨part, hpart, hc⟩ := List.mem_flatten.mp hterminated
  obtain ⟨text, htext, rfl⟩ := List.mem_map.mp hpart
  obtain ⟨a, ha, rfl⟩ := List.mem_map.mp htext
  rcases List.mem_append.mp hc with hc | hc
  · exact hparts a (List.mem_filter.mp ha).1 hc
  · exact hplain rfl hc

/-- No byte of the data ends a field, a line or the text. -/
theorem HookCall.notMem_data {c : UInt8} (h : c.toNat ≤ 32) (call : HookCall) : c ∉ call.data := by
  have hdigest (file : Option FileObject) : c ∉ (file.map FileObject.hexDigest).getD [] := by
    cases file with
    | none => exact List.not_mem_nil
    | some file => exact notMem_hexEncode (by omega) _
  cases call with
  | lsmBprmCheckSecurity bprm => exact hdigest _
  | lsmFilePostOpen file mask => exact hdigest _
  | bpfMmapFile file prot => exact hdigest _
  | bpfSocketConnect env sk address addrlen =>
      cases sk with
      | none => exact List.not_mem_nil
      | some sk =>
          cases address with
          | none => exact List.not_mem_nil
          | some address => exact notMem_socketText h sk address
  | bpfInodeSetattr dentry attr =>
      cases attr with
      | none => exact List.not_mem_nil
      | some attr => exact notMem_attributeList h attr

theorem HookCall.oneField_eventName (call : HookCall) : OneField call.eventName := by
  cases call <;> exact of_decide_eq_true rfl

theorem HookCall.oneField_data (call : HookCall) : OneField call.data := by
  intro c hc
  have hgreater : 32 < c.toNat := by
    by_contra hle
    exact call.notMem_data (not_lt.mp hle) hc
  refine ⟨?_, ?_, ?_⟩ <;> rintro rfl <;> exact absurd hgreater (by decide)

theorem HookRun.Measures.hookText {run : HookRun} {request : MeasurementRequest}
    (h : run.Measures request) : request.HookText where
  eventName := h.eventName ▸ run.call.oneField_eventName
  data := h.data ▸ run.call.oneField_data
  nonempty := h.nonempty
  zero_notMem := h.data ▸ run.call.notMem_data (by decide)

/-! ## The verdict on a line -/

theorem StaysInLine.trimRight_lineFields {data dependencies : Bytes} (hdata : OneField data)
    (h : StaysInLine dependencies) :
    trimRight (lineFields data dependencies) = lineFields data dependencies := by
  have htrim := (StaysInLine.iff_trimRight h.1).mp h
  unfold lineFields
  split
  · rw [trimRight_append (by decide) (by decide), htrim]
  · rename_i hone
    by_cases hempty : data = []
    · rw [hempty, List.nil_append, htrim]
    · have hnone : dependencies = [] := by_contra fun hne => hone ⟨hempty, hne⟩
      rw [hnone, List.append_nil, hdata.oneLine.trimRight_eq]

theorem EntryOf.verifies_iff {P : Platform} {request : MeasurementRequest}
    {entry : MeasurementEntry} (h : EntryOf P request entry) (htext : request.HookText)
    (hstays : StaysInLine (cstr request.dependencies)) :
    entry.Verifies P.toHashSuite ↔ P.sum .sha256 request.hashedBytes =
      P.sum .sha256 (verifiedBytes (lineFields request.data (cstr request.dependencies))) := by
  obtain ⟨r, hr, -, haccepted, -, hne⟩ := preparedBytes_eq_some h.prepared
  obtain rfl := Option.some.inj hr
  obtain ⟨hname, hdata, hdeps, hdigest⟩ :=
    createMeasurementEntry_texts haccepted htext.zero_notMem h.created
  have hline := @BpfIma.verifies_iff P.toHashSuite entry
  rw [hname, hdata, hdeps, hdigest] at hline
  exact hline htext.eventName.separator_notMem (hstays.trimRight_lineFields htext.data)
    (request.lineFields_ne_nil hne)

/-- What the verifier says to a recorded event of a program. -/
theorem HookRun.Measures.verifies {P : Platform} {run : HookRun} {request : MeasurementRequest}
    {entry : MeasurementEntry} (h : run.Measures request) (hentry : EntryOf P request entry) :
    (run.call.chained = false →
      cstr request.dependencies = [] ∧ entry.Verifies P.toHashSuite) ∧
      (run.call.chained = true → StaysInLine (cstr request.dependencies) →
        (cstr request.dependencies ≠ [] → entry.Verifies P.toHashSuite) ∧
        (P.sum .sha256 run.call.data ≠ P.sum .sha256 (run.call.data ++ [separator]) →
          entry.Verifies P.toHashSuite → cstr request.dependencies ≠ [])) := by
  have htext := h.hookText
  have hseparator := htext.data.separator_notMem
  refine ⟨fun hchained => ?_, fun hchained hstays => ?_⟩
  · have hempty := h.unchained hchained
    have hunset : ¬ request.hasDependencies := by
      rw [MeasurementRequest.hasDependencies, h.flag, hchained]
      decide
    have hends : ¬ request.EndsInSeparator := by
      rintro (hset | ⟨hnone, -⟩)
      · exact hunset hset.2.1
      · exact h.nonempty hnone
    refine ⟨hempty, (hentry.verifies_iff htext (by rw [hempty]; decide)).mpr ?_⟩
    rw [request.verifiedBytes_eq_hashedBytes hseparator hends (.inr hempty)]
  · have hset : request.hasDependencies := by
      rw [MeasurementRequest.hasDependencies, h.flag, hchained]
      decide
    rw [hentry.verifies_iff htext hstays]
    refine ⟨fun hne => ?_, fun hdistinct hhash hempty => ?_⟩
    · have hends : ¬ request.EndsInSeparator := by
        rintro (⟨-, -, hnone⟩ | ⟨hnone, -⟩)
        · exact hne hnone
        · exact h.nonempty hnone
      rw [request.verifiedBytes_eq_hashedBytes hseparator hends (.inl hset)]
    · have hends : request.EndsInSeparator := .inl ⟨h.nonempty, hset, hempty⟩
      have hhashed : request.hashedBytes = run.call.data ++ [separator] := by
        rw [MeasurementRequest.hashedBytes, hempty, if_pos ⟨h.nonempty, hset⟩, h.data,
          List.append_nil]
        rfl
      rw [request.verifiedBytes_eq_dropLast hseparator hends, hhashed, List.dropLast_concat]
        at hhash
      exact hdistinct hhash.symm

/-- Every list that the programs fill, in any interleaving. Its text has one line for each entry,
with the digest and the dependencies of the entry, exactly if no dependencies break a line. Every
entry shows the event of a program: without dependencies in the program its line passes the
verifier; with dependencies that stay in the line it passes if they are not empty, and only then
if the hash function tells the data from the data with a blank behind it. -/
theorem hook_lists_verify (P : Platform) (maps : ℕ → BpfMap) (tpmPcrIndex : ℤ)
    (memory : ℕ → Scratch) (ops : List HookOp) (c : ContainerNode)
    (hc : c ∈ (hooksRun P maps tpmPcrIndex memory ops).shared.engine.containers) :
    (Framed (renderMeasurements c.measurementList) (c.measurementList.map MeasurementEntry.digest)
        (c.measurementList.map fun entry => cstr entry.dependencies) ↔
      ∀ entry ∈ c.measurementList, StaysInLine (cstr entry.dependencies)) ∧
      ∀ entry ∈ c.measurementList, ∃ call : HookCall,
        cstr entry.eventName = call.eventName ∧ cstr entry.eventData = call.data ∧
        (call.chained = false →
          cstr entry.dependencies = [] ∧ entry.Verifies P.toHashSuite) ∧
        (call.chained = true → StaysInLine (cstr entry.dependencies) →
          (cstr entry.dependencies ≠ [] → entry.Verifies P.toHashSuite) ∧
          (P.sum .sha256 call.data ≠ P.sum .sha256 (call.data ++ [separator]) →
            entry.Verifies P.toHashSuite → cstr entry.dependencies ≠ [])) := by
  have hkept := (hooksRun_holds P maps tpmPcrIndex memory ops).shared
  have hlists := hkept.kept.journal.lists c hc
  have hsource : ∀ entry ∈ c.measurementList, ∃ run : HookRun, ∃ request,
      run.Measures request ∧ EntryOf P request entry := by
    intro entry hentry
    obtain ⟨i, hi, rfl⟩ := List.mem_iff_getElem.mp hentry
    have hrequest := hlists.length_eq ▸ hi
    obtain ⟨hlogged, -⟩ := List.mem_filter.mp (List.get_mem _ ⟨i, hrequest⟩)
    obtain ⟨run, hmeasures⟩ := hkept.measures _ hlogged
    exact ⟨run, _, hmeasures, hlists.get hrequest hi⟩
  refine ⟨framed_iff fun entry hentry => ?_, fun entry hentry => ?_⟩
  · obtain ⟨run, request, hmeasures, hof⟩ := hsource entry hentry
    exact (hof.hookText hmeasures.hookText).1
  · obtain ⟨run, request, hmeasures, hof⟩ := hsource entry hentry
    obtain ⟨r, hr, -, haccepted, -⟩ := preparedBytes_eq_some hof.prepared
    obtain rfl := Option.some.inj hr
    obtain ⟨hname, hdata, hdeps, -⟩ :=
      createMeasurementEntry_texts haccepted hmeasures.hookText.zero_notMem hof.created
    refine ⟨run.call, hname.trans hmeasures.eventName, hdata.trans hmeasures.data, ?_⟩
    rw [hdeps]
    exact hmeasures.verifies hof

theorem hook_lists_verify_racingPrograms :
    (hooksRun referencePlatform (fun _ => unboundPolicyMap) 10 (fun _ => staleScratch 0xff)
        racingPrograms).shared.engine.containers.length = 1 ∧
      ∀ c ∈ (hooksRun referencePlatform (fun _ => unboundPolicyMap) 10
          (fun _ => staleScratch 0xff) racingPrograms).shared.engine.containers,
        Framed (renderMeasurements c.measurementList)
          (c.measurementList.map MeasurementEntry.digest)
          (c.measurementList.map fun entry => cstr entry.dependencies) := by
  have hrun : (hooksRun referencePlatform (fun _ => unboundPolicyMap) 10
        (fun _ => staleScratch 0xff) racingPrograms).shared.engine.containers.length = 1 ∧
      ∀ c ∈ (hooksRun referencePlatform (fun _ => unboundPolicyMap) 10
          (fun _ => staleScratch 0xff) racingPrograms).shared.engine.containers,
        ∀ entry ∈ c.measurementList, StaysInLine (cstr entry.dependencies) := by decide +kernel
  exact ⟨hrun.1, fun c hc => (hook_lists_verify referencePlatform (fun _ => unboundPolicyMap) 10
    (fun _ => staleScratch 0xff) racingPrograms c hc).1.mpr (hrun.2 c hc)⟩

/-! ## Connections -/

/-- Whatever the programs find in their memory and whatever the policy is: two connections for
which measurements are submitted have the same data exactly if they come from the same source and
the first six bytes behind the address family agree. The family itself makes no difference, and of
the path of a unix socket only these six bytes count. -/
theorem connections_told_apart {run run' : HookRun} {env env' : SocketEnv} {sk sk' : Sock}
    {address address' : Sockaddr} {addrlen addrlen' : ℤ}
    (hcall : run.call = .bpfSocketConnect env (some sk) (some address) addrlen)
    (hcall' : run'.call = .bpfSocketConnect env' (some sk') (some address') addrlen')
    {s s' : KernelState} {scratch scratch' : Scratch} {request request' : MeasurementRequest}
    (hsubmitted : run.submitted s scratch = some request)
    (hsubmitted' : run'.submitted s' scratch' = some request') :
    request.data = request'.data ↔
      sk = sk' ∧ address.saData.toList.take 6 = address'.saData.toList.take 6 := by
  rw [(run.submitted_measures hsubmitted).data, (run'.submitted_measures hsubmitted').data, hcall,
    hcall']
  exact socketText_eq_iff sk sk' address address'

/-- The socket of a daemon, connected to by its path. -/
def daemonSocket (path : Bytes) (h : path.length ≤ 126) : Sockaddr where
  saFamily := afUnix
  saData := ⟨path ++ List.replicate (126 - path.length) 0, by
    rw [List.length_append, List.length_replicate]
    omega⟩

def dockerSocket : Sockaddr := daemonSocket "/var/run/docker.sock".ascii (by decide)

def containerdSocket : Sockaddr :=
  daemonSocket "/var/run/containerd/containerd.sock".ascii (by decide)

def daemonRun (socket : Sockaddr) : HookRun where
  env := workingHook
  call := .bpfSocketConnect ⟨true, none, false⟩ (some ⟨0, 0⟩) (some socket) 37
  previousRet := 0

/-- Both paths start with the same six bytes. -/
theorem connections_told_apart_daemons :
    ∃ request request',
      (daemonRun dockerSocket).submitted (kernelRun referencePlatform (fun _ => unboundPolicyMap)
        10 [.policyBindMap workingBind]) (staleScratch 0) = some request ∧
      (daemonRun containerdSocket).submitted (kernelRun referencePlatform
        (fun _ => unboundPolicyMap) 10 [.policyBindMap workingBind]) (staleScratch 0) =
          some request' ∧
      request.data = request'.data := by
  have hsubmitted : ((daemonRun dockerSocket).submitted (kernelRun referencePlatform
        (fun _ => unboundPolicyMap) 10 [.policyBindMap workingBind]) (staleScratch 0)).isSome ∧
      ((daemonRun containerdSocket).submitted (kernelRun referencePlatform
        (fun _ => unboundPolicyMap) 10 [.policyBindMap workingBind]) (staleScratch 0)).isSome := by
    decide +kernel
  obtain ⟨request, hrequest⟩ := Option.isSome_iff_exists.mp hsubmitted.1
  obtain ⟨request', hrequest'⟩ := Option.isSome_iff_exists.mp hsubmitted.2
  exact ⟨request, request', hrequest, hrequest',
    (connections_told_apart rfl rfl hrequest hrequest').mpr ⟨rfl, by decide⟩⟩

end BpfIma
