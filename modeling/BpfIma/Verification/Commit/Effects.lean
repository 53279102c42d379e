import BpfIma.Library.Machine
import BpfIma.Model.Commit

/-! # What a call of the commit engine can do

Every call either refuses the event, or starts a TPM command that fails, or
commits. The three rules below say all that each of them changes; the proofs about
runs use the rules and never unfold the engine. -/

namespace BpfIma

open CString Errno

/-! ## The TPM call -/

theorem sha256BankValue_bankDigest (hashValue : Digest) (banks : List AlgId)
    (h : tpmAlgSha256 ∈ banks) :
    sha256BankValue (banks.map (bankDigest hashValue)) = some hashValue := by
  induction banks with
  | nil => simp at h
  | cons algId banks ih =>
      by_cases halg : algId = tpmAlgSha256
      · have hvalue : (bankDigest hashValue algId).digest.take merkleHashSize = hashValue := by
          apply List.Vector.eq
          rw [List.Vector.toList_take, bankDigest, if_pos halg, List.Vector.toList_append]
          exact List.take_left' hashValue.toList_length
        simp only [List.map_cons, sha256BankValue, List.find?_cons]
        have hid : ((bankDigest hashValue algId).algId == tpmAlgSha256) = true := by
          simp [bankDigest, halg]
        simp [hid, hvalue]
      · have hid : ((bankDigest hashValue algId).algId == tpmAlgSha256) = false := by
          simp [bankDigest, halg]
        have htail := ih (by simpa [Ne.symm halg] using h)
        simpa [sha256BankValue, List.find?_cons, hid] using htail

/-- The call either does not reach the device, or starts one command that succeeds
and extends the value, or starts one that fails and extends at most one value. -/
inductive TpmOutcome (tpm : Tpm) (hashValue : Digest) (hardwareAllowed : Bool) :
    Ret → Bool → Tpm → Prop where
  | notStarted {ret : Ret} (hret : ret < 0) :
      TpmOutcome tpm hashValue hardwareAllowed ret false tpm
  | succeeded (hallowed : hardwareAllowed = true) :
      TpmOutcome tpm hashValue hardwareAllowed 0 true
        ⟨tpm.extended ++ [hashValue], tpm.commands + 1⟩
  | failed {ret : Ret} (extra : List Digest) (hallowed : hardwareAllowed = true) (hret : ret < 0)
      (hextra : extra.length ≤ 1) :
      TpmOutcome tpm hashValue hardwareAllowed ret true ⟨tpm.extended ++ extra, tpm.commands + 1⟩

theorem extendTpmPcr_outcome (env : TpmEnv) (pcrIndex : ℤ) (tpm : Tpm) (hashValue : Digest)
    (hardwareAllowed : Bool) :
    TpmOutcome tpm hashValue hardwareAllowed
      (extendTpmPcr env pcrIndex tpm hashValue hardwareAllowed).1
      (extendTpmPcr env pcrIndex tpm hashValue hardwareAllowed).2.1
      (extendTpmPcr env pcrIndex tpm hashValue hardwareAllowed).2.2 := by
  unfold extendTpmPcr
  split
  · exact .notStarted (show -eagain < 0 by decide)
  · split
    · exact .notStarted (show -einval < 0 by decide)
    · split
      · exact .notStarted (show -enodev < 0 by decide)
      · rename_i chip hchip
        split
        · exact .notStarted (show -eio < 0 by decide)
        · rename_i hallowed
          have hallowed : hardwareAllowed = true := by simpa using hallowed
          split
          · exact .notStarted (show -eopnotsupp < 0 by decide)
          · rename_i hbank
            have hvalue := sha256BankValue_bankDigest hashValue chip.allocatedBanks
              (by simpa using hbank)
            split
            · exact .notStarted (show -enomem < 0 by decide)
            · simp only [tpmPcrExtend, hvalue]
              by_cases hzero : env.commandRet = 0
              · have hdone := @TpmOutcome.succeeded tpm hashValue hardwareAllowed hallowed
                simpa [hzero] using hdone
              · refine .failed _ hallowed ?_ ?_
                · split
                  · exact (show -eio < 0 by decide)
                  · exact lt_of_le_of_ne (not_lt.mp ‹_›) hzero
                · split <;> simp

/-! ## The check and the latch -/

theorem commitCheckLocked_zero {available : Bool} {s : CommitState}
    (h : (commitCheckLocked available s).1 = 0) :
    s.commitError = 0 ∧ (commitCheckLocked available s).2 = s := by
  have herror : s.commitError = 0 := by
    by_contra hne
    simp [commitCheckLocked, hne] at h
  refine ⟨herror, ?_⟩
  have hself : (commitCheckLocked available s).2 =
      { s with commitError := (commitCheckLocked available s).1 } := rfl
  rw [hself, h, ← herror]

theorem commitCheckLocked_latched {available : Bool} {s : CommitState} (h : s.commitError ≠ 0) :
    commitCheckLocked available s = (s.commitError, s) := by
  simp [commitCheckLocked, h]

/-- A check reports the latched error; only an unlatched engine has a new one. -/
theorem commitCheckLocked_error (available : Bool) (s : CommitState) :
    (commitCheckLocked available s).1 = s.commitError ∨ s.commitError = 0 := by
  by_cases hlatched : s.commitError = 0
  · exact .inr hlatched
  · exact .inl (congrArg Prod.fst (commitCheckLocked_latched hlatched))

theorem commitCheckLocked_nonpos {available : Bool} {s : CommitState} (h : s.commitError ≤ 0) :
    (commitCheckLocked available s).1 ≤ 0 := by
  simp only [commitCheckLocked]
  split
  · exact h
  · split
    · decide
    · split <;> decide

theorem commitFailLocked_unlatched {error : Ret} {s : CommitState} (h : s.commitError = 0)
    (herror : error < 0) : commitFailLocked error s = (error, { s with commitError := error }) := by
  simp [commitFailLocked, h, herror]

/-! ## Preparation -/

/-- The value a commit adds to the history. -/
def eventLeaf (S : HashSuite) (container : Option ContainerRef) (entry : Option MeasurementEntry)
    (value : Digest) : Digest :=
  match container, entry with
  | some (_, node), some entry => S.extendHash node.leafHash entry.digest
  | _, _ => value

theorem committedLeaf_ok {S : HashSuite} {env : CommitEnv} {container : Option ContainerRef}
    {entry : Option MeasurementEntry} {value leaf : Digest}
    (h : committedLeaf S env container entry value = .ok leaf) :
    leaf = eventLeaf S container entry value := by
  match container, entry with
  | some (_, node), some entry =>
      simp only [committedLeaf] at h
      split at h
      · cases h
      · exact (Except.ok.inj h).symm
  | some _, none | none, some _ | none, none => exact (Except.ok.inj h).symm

/-- What a prepared event consists of. -/
structure Prepares (S : HashSuite) (s : CommitState) (container : Option ContainerRef)
    (entry : Option MeasurementEntry) (value : Digest) (deduplicate : Bool) (p : PreparedEvent) :
    Prop where
  leaf : p.newLeaf = eventLeaf S container entry value
  root : p.newRoot = S.extendHash s.systemMerkleRoot.rootHash p.newLeaf
  history_value : p.history.value = p.newLeaf
  history_plain : p.history.isAggregate = false ∧ p.history.aggregatedCount = 0
  hash_some : ∀ c ∈ container, ∀ e ∈ entry, deduplicate = true →
    p.hash = some ⟨e.digest, strscpy (CString.zero _) (cstr c.2.id)⟩ ∧
      hashExists s.sha256HashTable e.digest (cstr c.2.id) = false
  hash_none : deduplicate = false → p.hash = none

theorem reserveHash_ok {env : CommitEnv} {s : CommitState} {container : Option ContainerRef}
    {entry : Option MeasurementEntry} {deduplicate : Bool} {hash : Option HashEntry}
    (h : reserveHash env s container entry deduplicate = .ok hash) :
    (∀ c ∈ container, ∀ e ∈ entry, deduplicate = true →
      hash = some ⟨e.digest, strscpy (CString.zero _) (cstr c.2.id)⟩ ∧
        hashExists s.sha256HashTable e.digest (cstr c.2.id) = false) ∧
      (deduplicate = false → hash = none) := by
  unfold reserveHash at h
  split at h
  · rename_i hd
    have hd : deduplicate = false := by simpa using hd
    cases h
    simp [hd]
  · rename_i hd
    have hd : deduplicate = true := by simpa using hd
    split at h
    · rename_i i node e
      split at h
      · cases h
      · rename_i hex
        split at h
        · cases h
        · rename_i hash' halloc
          cases h
          have hent : hash' = ⟨e.digest, strscpy (CString.zero _) (cstr node.id)⟩ := by
            unfold allocHashEntry at halloc
            split at halloc
            · exact (Option.some.inj halloc).symm
            · cases halloc
          refine ⟨?_, by simp [hd]⟩
          intro c hc e' he' _
          obtain rfl := Option.some.inj hc
          obtain rfl := Option.some.inj he'
          exact ⟨by rw [hent], by simpa using hex⟩
    · cases h

/-- The digest of the entry is already recorded for the container. -/
def IsDuplicate (s : CommitState) (container : Option ContainerRef)
    (entry : Option MeasurementEntry) : Prop :=
  ∃ c ∈ container, ∃ e ∈ entry, hashExists s.sha256HashTable e.digest (cstr c.2.id) = true

theorem reserveHash_error {env : CommitEnv} {s : CommitState} {container : Option ContainerRef}
    {entry : Option MeasurementEntry} {deduplicate : Bool} {ret : Ret}
    (h : reserveHash env s container entry deduplicate = .error ret) :
    ret < 0 ∨ ret = 1 ∧ IsDuplicate s container entry := by
  unfold reserveHash at h
  split at h
  · cases h
  · split at h
    · split at h
      · rename_i hexists
        cases h
        exact .inr ⟨rfl, _, rfl, _, rfl, hexists⟩
      · split at h <;> cases h
        exact .inl (by decide)
    · cases h
      exact .inl (by decide)

theorem freeHistoryRet_neg {ret : Ret} (h : ret ≠ 0) : freeHistoryRet ret < 0 := by
  unfold freeHistoryRet
  split
  · decide
  · exact lt_of_le_of_ne (not_lt.mp ‹_›) h

theorem freeHistoryRet_of_neg {ret : Ret} (h : ret < 0) : freeHistoryRet ret = ret := by
  rw [freeHistoryRet, if_neg (not_lt.mpr h.le)]

section

variable (S : HashSuite)

theorem prepareEvent_ok {env : CommitEnv} {s : CommitState} {container : Option ContainerRef}
    {entry : Option MeasurementEntry} {value : Option Digest} {sourceId : Option Bytes}
    {deduplicate : Bool} {p : PreparedEvent}
    (h : prepareEvent S env s container entry value sourceId deduplicate = .ok p) :
    (∀ c ∈ container, entry.isSome = true) ∧
      ∃ v, value = some v ∧ Prepares S s container entry v deduplicate p := by
  unfold prepareEvent at h
  split at h
  · cases h
  · rename_i v
    split at h
    · cases h
    · rename_i hargs
      push Not at hargs
      split at h
      · cases h
      · rename_i hash hreserve
        obtain ⟨hsome, hnone⟩ := reserveHash_ok hreserve
        split at h
        · cases h
        · rename_i history hhistory
          split at h
          · cases h
          · rename_i leaf hleaf
            split at h
            · cases h
            · cases h
              have hplain : history.isAggregate = false ∧ history.aggregatedCount = 0 := by
                unfold allocHistoryEntry at hhistory
                split at hhistory
                · cases hhistory
                  exact ⟨rfl, rfl⟩
                · cases hhistory
              exact ⟨fun c hc => Option.isSome_iff_ne_none.mpr (hargs.2 c hc).1, v, rfl,
                committedLeaf_ok hleaf, rfl, rfl, hplain, hsome, hnone⟩

theorem prepareEvent_error {env : CommitEnv} {s : CommitState} {container : Option ContainerRef}
    {entry : Option MeasurementEntry} {value : Option Digest} {sourceId : Option Bytes}
    {deduplicate : Bool} {ret : Ret}
    (h : prepareEvent S env s container entry value sourceId deduplicate = .error ret) :
    ret < 0 ∨ ret = 1 ∧ IsDuplicate s container entry := by
  unfold prepareEvent at h
  split at h
  · cases h
    exact .inl (by decide)
  · split at h
    · cases h
      exact .inl (by decide)
    · split at h
      · rename_i hreserve
        cases h
        exact reserveHash_error hreserve
      · split at h
        · cases h
          exact .inl (by decide)
        · split at h
          · rename_i hleaf
            cases h
            unfold committedLeaf at hleaf
            split at hleaf
            · split at hleaf
              · rename_i hne
                cases hleaf
                exact .inl (freeHistoryRet_neg hne)
              · cases hleaf
            · cases hleaf
          · split at h
            · rename_i hne
              cases h
              exact .inl (freeHistoryRet_neg hne)
            · cases h

/-! ## Publication and trimming -/

theorem forall_mem_modify {α : Type*} {P : α → Prop} {l : List α} {i : ℕ} {f : α → α}
    (hl : ∀ a ∈ l, P a) (hf : ∀ a, l[i]? = some a → P (f a)) : ∀ a ∈ l.modify i f, P a := by
  intro a ha
  obtain ⟨j, hj⟩ := List.mem_iff_getElem?.mp ha
  rw [List.getElem?_modify] at hj
  split at hj
  · subst_vars
    obtain ⟨b, hb, rfl⟩ := Option.map_eq_some_iff.mp hj
    exact hf b hb
  · exact hl a (List.mem_of_getElem? (by simpa using hj))

/-- The state in which the entries `moved` at the front of the history have become one
aggregate. -/
def aggregated (s : CommitState) (moved rest : List MerkleRootEntry) : CommitState :=
  { s with
    merkleRootHistory :=
      ⟨S.foldDigests (moved.map MerkleRootEntry.value),
        strscpy (CString.zero _) "[AGGREGATE]".ascii, true, moved.length⟩ :: rest
    merkleRootHistoryCount := s.merkleRootHistoryCount - UInt32.ofNat moved.length + 1 }

theorem aggregateLoop_ok {env : TrimEnv} {count n : ℕ} {acc hash : Digest}
    {entries : List MerkleRootEntry} (h : aggregateLoop S env count acc entries = .ok (hash, n)) :
    hash = (entries.map MerkleRootEntry.value).foldl S.extendHash acc ∧
      n = count + entries.length ∧ n ≠ 0 := by
  induction entries generalizing count acc with
  | nil =>
      simp only [aggregateLoop] at h
      split at h
      · cases h
      · rename_i hcount
        cases h
        exact ⟨rfl, rfl, hcount⟩
  | cons entry entries ih =>
      simp only [aggregateLoop] at h
      split at h
      · cases h
      · obtain ⟨hhash, hn, hne⟩ := ih h
        refine ⟨hhash, ?_, hne⟩
        rw [hn, List.length_cons]
        omega

theorem aggregateMerkleEntries_ok {env : TrimEnv} {tfm : Bool} {n : ℕ} {hash : Digest}
    {entries : List MerkleRootEntry}
    (h : aggregateMerkleEntries S env tfm entries = .ok (hash, n)) :
    hash = S.foldDigests (entries.map MerkleRootEntry.value) ∧ n = entries.length ∧
      entries ≠ [] := by
  unfold aggregateMerkleEntries at h
  split at h
  · cases h
  · split at h
    · cases h
    · obtain ⟨hhash, hn, hne⟩ := aggregateLoop_ok S h
      rw [Nat.zero_add] at hn
      refine ⟨hhash, hn, ?_⟩
      rintro rfl
      exact hne hn

theorem trimMerkleRootHistoryLocked_spec (env : TrimEnv) (maxSize : UInt32) (s : CommitState) :
    (trimMerkleRootHistoryLocked S env maxSize s).2 = s ∨
      ∃ moved rest, moved ≠ [] ∧ s.merkleRootHistory = moved ++ rest ∧
        (trimMerkleRootHistoryLocked S env maxSize s).2 = aggregated S s moved rest := by
  unfold trimMerkleRootHistoryLocked
  split
  · exact .inl rfl
  · dsimp only
    generalize (trimToDelete s.merkleRootHistoryCount).toNat = n
    split
    · exact .inl rfl
    · split
      · exact .inl (by simp)
      · rename_i hash count haggregate
        obtain ⟨rfl, rfl, hne⟩ := aggregateMerkleEntries_ok S haggregate
        exact .inr ⟨_, _, hne, (List.take_append_drop n _).symm, rfl⟩

omit S in
theorem toNat_trimToDelete (currentCount : UInt32) :
    (trimToDelete currentCount).toNat =
      if currentCount.toNat / 2 = 0 then 1 else currentCount.toNat / 2 := by
  have hhalf : (currentCount / 2).toNat = currentCount.toNat / 2 := UInt32.toNat_div ..
  have hzero : currentCount / 2 = 0 ↔ currentCount.toNat / 2 = 0 := by
    rw [← UInt32.toNat_inj, hhalf]
    rfl
  rw [trimToDelete]
  by_cases h : currentCount.toNat / 2 = 0
  · rw [if_pos h, if_pos (hzero.mpr h)]
    rfl
  · rw [if_neg h, if_neg (mt hzero.mp h), hhalf]

omit S in
theorem toNat_limit_ne_zero {limit : UInt32} (h : limit ≠ 0) : limit.toNat ≠ 0 :=
  fun hzero => h (UInt32.toNat_inj.mp hzero)

/-- Either nothing is trimmed, or more than one entry was there and the oldest of them
became an aggregate. -/
theorem trimHistoryLocked_spec (config : PolicyConfig) (env : TrimEnv) (sourceId : Option Bytes)
    (s : CommitState) :
    trimHistoryLocked S config env sourceId s = s ∨
      1 < s.merkleRootHistoryCount.toNat ∧
        ∃ moved rest, moved ≠ [] ∧ s.merkleRootHistory = moved ++ rest ∧
          trimHistoryLocked S config env sourceId s = aggregated S s moved rest := by
  unfold trimHistoryLocked
  split
  · exact .inl rfl
  · split
    · rename_i hlimit
      have hpositive := toNat_limit_ne_zero hlimit.1
      have hmany := UInt32.lt_iff_toNat_lt.mp hlimit.2
      exact (trimMerkleRootHistoryLocked_spec S env _ s).imp_right (⟨by omega, ·⟩)
    · exact .inl rfl

/-- Trimming touches the history and its count only. -/
theorem trimHistoryLocked_frame (config : PolicyConfig) (env : TrimEnv) (sourceId : Option Bytes)
    (s : CommitState) :
    ∃ history count, trimHistoryLocked S config env sourceId s =
      { s with merkleRootHistory := history, merkleRootHistoryCount := count } := by
  rcases trimHistoryLocked_spec S config env sourceId s with h | ⟨-, moved, rest, -, -, h⟩
  · exact ⟨s.merkleRootHistory, s.merkleRootHistoryCount, h⟩
  · exact ⟨_, _, h⟩

/-- A trim that does not put its entries back leaves an aggregate. -/
theorem trimHistoryLocked_cases (config : PolicyConfig) (env : TrimEnv) (sourceId : Option Bytes)
    (s : CommitState) :
    trimHistoryLocked S config env sourceId s = s ∨
      ∃ entry ∈ (trimHistoryLocked S config env sourceId s).merkleRootHistory,
        entry.isAggregate = true := by
  rcases trimHistoryLocked_spec S config env sourceId s with h | ⟨-, moved, rest, -, -, h⟩
  · exact .inl h
  · rw [h]
    exact .inr ⟨_, List.mem_cons_self, rfl⟩

theorem containers_trimHistoryLocked (config : PolicyConfig) (env : TrimEnv)
    (sourceId : Option Bytes) (s : CommitState) :
    (trimHistoryLocked S config env sourceId s).containers = s.containers := by
  obtain ⟨history, count, h⟩ := trimHistoryLocked_frame S config env sourceId s
  rw [h]

theorem systemMerkleRoot_trimHistoryLocked (config : PolicyConfig) (env : TrimEnv)
    (sourceId : Option Bytes) (s : CommitState) :
    (trimHistoryLocked S config env sourceId s).systemMerkleRoot = s.systemMerkleRoot := by
  obtain ⟨history, count, h⟩ := trimHistoryLocked_frame S config env sourceId s
  rw [h]

theorem trimHistoryLocked_within {config : PolicyConfig} {env : TrimEnv} {sourceId : Option Bytes}
    {s : CommitState}
    (h : config.merkleHistoryMaxSize = 0 ∨
      s.merkleRootHistoryCount ≤ config.merkleHistoryMaxSize) :
    trimHistoryLocked S config env sourceId s = s := by
  unfold trimHistoryLocked
  split
  · rfl
  · rw [if_neg]
    rintro ⟨hne, hlt⟩
    rcases h with h | h
    · exact hne h
    · exact UInt32.not_lt.mpr h hlt

/-! ## Effects -/

/-- The state on which a commit publishes: the extend of the new root by the device,
or the unchanged state of a software-only epoch. -/
def anchorRoot (s : CommitState) (hardware : Bool) (newRoot : Digest) : CommitState :=
  if hardware then
    { s with
      tpm := ⟨s.tpm.extended ++ [newRoot], s.tpm.commands + 1⟩
      hardwareAnchored := true }
  else s

/-- The rules of a commit call. `container` and `entry` are those of a measurement
commit, `value` is that of a root commit. -/
inductive CommitEffect (config : PolicyConfig) (trimEnv : TrimEnv) (sourceId : Option Bytes)
    (s : CommitState) (container : Option ContainerRef) (entry : Option MeasurementEntry)
    (value : Option Digest) (deduplicate : Bool) : Ret → CommitState → Prop where
  | refused {ret : Ret} (error : Ret) (hret : ret ≠ 0)
      (herror : error = s.commitError ∨ s.commitError = 0 ∧ error = ret)
      (hnonpos : s.commitError ≤ 0 → error ≤ 0) :
      CommitEffect config trimEnv sourceId s container entry value deduplicate ret
        { s with commitError := error }
  | commandFailed {ret : Ret} (extra : List Digest) (hunlatched : s.commitError = 0)
      (hallowed : commitHardwareAllowedLocked s = true) (hret : ret < 0)
      (hextra : extra.length ≤ 1) :
      CommitEffect config trimEnv sourceId s container entry value deduplicate ret
        { s with
          commitError := ret
          tpm := ⟨s.tpm.extended ++ extra, s.tpm.commands + 1⟩ }
  | committed (hardware : Bool) (p : PreparedEvent) (v : Digest) (hunlatched : s.commitError = 0)
      (hhardware : hardware = true → commitHardwareAllowedLocked s = true)
      (hsoftware : hardware = false → s.hardwareAnchored = false)
      (hvalue : value = some v) (hentry : ∀ c ∈ container, entry.isSome = true)
      (hprepares : Prepares S s container entry v deduplicate p) :
      CommitEffect config trimEnv sourceId s container entry value deduplicate 0
        (trimHistoryLocked S config trimEnv sourceId
          (publishEvent (anchorRoot s hardware p.newRoot) container entry p))

theorem commitEventLocked_effect (config : PolicyConfig) (env : CommitEnv) (s : CommitState)
    (container : Option ContainerRef) (entry : Option MeasurementEntry) (value : Option Digest)
    (sourceId : Option Bytes) (deduplicate : Bool) :
    CommitEffect S config env.trim sourceId s container entry value deduplicate
      (commitEventLocked S config env s container entry value sourceId deduplicate).1
      (commitEventLocked S config env s container entry value sourceId deduplicate).2 := by
  by_cases hcheck : (commitCheckLocked env.available s).1 = 0
  · obtain ⟨hunlatched, hstate⟩ := commitCheckLocked_zero hcheck
    simp only [commitEventLocked, hcheck, hstate, ne_eq, not_true_eq_false, if_false]
    cases hprep : prepareEvent S env s container entry value sourceId deduplicate with
    | error ret =>
        have hret : ret ≠ 0 := by
          rcases prepareEvent_error S hprep with hneg | ⟨rfl, -⟩
          · exact hneg.ne
          · decide
        exact .refused s.commitError hret (.inl rfl) id
    | ok p =>
        obtain ⟨hentry, v, hvalue, hprepares⟩ := prepareEvent_ok S hprep
        simp only
        have htpm := extendTpmPcr_outcome env.tpm s.tpmPcrIndex s.tpm p.newRoot
          (commitHardwareAllowedLocked s)
        rcases hcall : extendTpmPcr env.tpm s.tpmPcrIndex s.tpm p.newRoot
          (commitHardwareAllowedLocked s) with ⟨ret, started, tpm⟩
        rw [hcall] at htpm
        simp only at htpm ⊢
        cases htpm with
        | notStarted hret =>
            have hne : ret ≠ 0 := hret.ne
            by_cases hfail : ret ≠ -enodev ∨ s.hardwareAnchored = true
            · rw [if_pos ⟨hne, .inr hfail⟩]
              by_cases hlatch : ret ≠ -enomem
              · simp only [Bool.false_eq_true, false_or, hlatch,
                  commitFailLocked_unlatched hunlatched hret, freeHistoryRet_of_neg hret]
                exact .refused ret hne (.inr ⟨hunlatched, rfl⟩) fun _ => hret.le
              · simp only [Bool.false_eq_true, false_or, hlatch, if_false,
                  freeHistoryRet_of_neg hret]
                exact .refused s.commitError hne (.inl rfl) id
            · rw [if_neg (by simpa [hne] using hfail), if_neg hne]
              exact .committed false p v hunlatched (by simp)
                (fun _ => by simpa using (not_or.mp hfail).2) hvalue hentry hprepares
        | succeeded hallowed =>
            rw [if_neg (by simp), if_pos rfl]
            exact .committed true p v hunlatched (fun _ => hallowed) (by simp) hvalue hentry
              hprepares
        | failed extra hallowed hret hextra =>
            have hne : ret ≠ 0 := hret.ne
            rw [if_pos ⟨hne, .inl rfl⟩, if_pos (.inl rfl),
              commitFailLocked_unlatched (by exact hunlatched) hret]
            simp only [freeHistoryRet_of_neg hret]
            exact .commandFailed extra hunlatched hallowed hret hextra
  · simp only [commitEventLocked, ne_eq, hcheck, not_false_eq_true, if_true]
    exact .refused _ hcheck ((commitCheckLocked_error env.available s).imp_right (⟨·, rfl⟩))
      commitCheckLocked_nonpos

theorem createMeasurementEntry_eq_some {alloc : Bool} {name : Bytes} {data deps : Option Bytes}
    {digest : Digest} {entry : MeasurementEntry}
    (h : createMeasurementEntry alloc (some name) data deps (some digest) = some entry) :
    alloc = true ∧ entry.digest = digest := by
  cases alloc with
  | false => simp [createMeasurementEntry] at h
  | true =>
      refine ⟨rfl, ?_⟩
      simp only [createMeasurementEntry, not_true_eq_false, if_false, Option.some.injEq] at h
      rw [← h]

theorem freeHistoryRet_nonpos (ret : Ret) : freeHistoryRet ret ≤ 0 := by
  unfold freeHistoryRet
  split
  · decide
  · exact not_lt.mp ‹_›

/-- The only positive return value is that of a duplicate. -/
theorem commitEventLocked_ret (config : PolicyConfig) (env : CommitEnv) {s : CommitState}
    (hnonpos : s.commitError ≤ 0) (container : Option ContainerRef)
    (entry : Option MeasurementEntry) (value : Option Digest) (sourceId : Option Bytes)
    (deduplicate : Bool) :
    (commitEventLocked S config env s container entry value sourceId deduplicate).1 ≤ 0 ∨
      (commitEventLocked S config env s container entry value sourceId deduplicate).1 = 1 ∧
        IsDuplicate s container entry := by
  by_cases hcheck : (commitCheckLocked env.available s).1 = 0
  · obtain ⟨-, hstate⟩ := commitCheckLocked_zero hcheck
    simp only [commitEventLocked, hcheck, hstate, ne_eq, not_true_eq_false, if_false]
    cases hprep : prepareEvent S env s container entry value sourceId deduplicate with
    | error ret => exact (prepareEvent_error S hprep).imp_left le_of_lt
    | ok p =>
        left
        simp only
        split
        · split <;> exact freeHistoryRet_nonpos _
        · exact le_rfl
  · simp only [commitEventLocked, ne_eq, hcheck, not_false_eq_true, if_true]
    exact .inl (commitCheckLocked_nonpos hnonpos)

theorem addContainerMeasurement_ret (config : PolicyConfig) (env : AddEnv) {s : CommitState}
    (hnonpos : s.commitError ≤ 0) {i : ℕ} {node : ContainerNode}
    (hnode : s.containers[i]? = some node) (name : Bytes) (data dependencies : Option Bytes)
    (digest : Digest) :
    (addContainerMeasurement S config env s (some i) (some name) data dependencies
        (some digest)).1 ≤ 0 ∨
      (addContainerMeasurement S config env s (some i) (some name) data dependencies
          (some digest)).1 = 1 ∧
        hashExists s.sha256HashTable digest (cstr node.id) = true := by
  have href : containerRef s (some i) = some (i, node) := by simp [containerRef, hnode]
  simp only [addContainerMeasurement, href]
  split
  · exact .inl (show -ewouldblock ≤ 0 by decide)
  · by_cases hcheck : (commitCheckLocked env.available s).1 = 0
    · obtain ⟨-, hstate⟩ := commitCheckLocked_zero hcheck
      simp only [hcheck, hstate, ne_eq, not_true_eq_false, if_false]
      split
      · rename_i hexists
        exact .inr ⟨rfl, hexists⟩
      · rename_i hfresh
        split
        · exact .inl (show -enomem ≤ 0 by decide)
        · rename_i entry hentry
          refine (commitEventLocked_ret S config env.commit hnonpos (some (i, node)) (some entry)
            (some entry.digest) (some (cstr node.id)) true).imp_right ?_
          rintro ⟨-, c, hc, e, he, hexists⟩
          obtain rfl := Option.some.inj hc
          obtain rfl := Option.some.inj he
          rw [(createMeasurementEntry_eq_some hentry).2] at hexists
          exact absurd hexists hfresh
    · simp only [ne_eq, hcheck, not_false_eq_true, if_true]
      exact .inl (commitCheckLocked_nonpos hnonpos)

/-- The rules of a step of the engine. -/
inductive StepEffect (s : CommitState) : CommitOp → Ret → CommitState → Prop where
  | refused {op : CommitOp} {ret : Ret} (error : Ret) (hret : ret ≠ 0)
      (herror : error = s.commitError ∨ s.commitError = 0 ∧ error = ret)
      (hnonpos : s.commitError ≤ 0 → error ≤ 0) :
      StepEffect s op ret { s with commitError := error }
  | commandFailed {op : CommitOp} {ret : Ret} (extra : List Digest)
      (hunlatched : s.commitError = 0) (hallowed : commitHardwareAllowedLocked s = true)
      (hret : ret < 0) (hextra : extra.length ≤ 1) :
      StepEffect s op ret
        { s with
          commitError := ret
          tpm := ⟨s.tpm.extended ++ extra, s.tpm.commands + 1⟩ }
  | measured {config : PolicyConfig} {env : AddEnv} {i : ℕ} {name : Bytes}
      {data dependencies : Option Bytes} {digest : Digest} (node : ContainerNode)
      (entry : MeasurementEntry) (hardware : Bool) (p : PreparedEvent)
      (hnode : s.containers[i]? = some node)
      (hentry : createMeasurementEntry true (some name) data dependencies (some digest) =
        some entry)
      (hunlatched : s.commitError = 0)
      (hhardware : hardware = true → commitHardwareAllowedLocked s = true)
      (hsoftware : hardware = false → s.hardwareAnchored = false)
      (hprepares : Prepares S s (some (i, node)) (some entry) entry.digest true p) :
      StepEffect s
        (.addMeasurement config env (some i) (some name) data dependencies (some digest)) 0
        (trimHistoryLocked S config env.commit.trim (some (cstr node.id))
          (publishEvent (anchorRoot s hardware p.newRoot) (some (i, node)) (some entry) p))
  | rootCommitted {config : PolicyConfig} {env : CommitEnv} {sourceId : Option Bytes} (v : Digest)
      (hardware : Bool) (p : PreparedEvent) (hunlatched : s.commitError = 0)
      (hhardware : hardware = true → commitHardwareAllowedLocked s = true)
      (hsoftware : hardware = false → s.hardwareAnchored = false)
      (hprepares : Prepares S s none none v false p) :
      StepEffect s (.commitRoot config env (some v) sourceId) 0
        (trimHistoryLocked S config env.trim sourceId
          (publishEvent (anchorRoot s hardware p.newRoot) none none p))
  | checked {available : Bool} (hunlatched : s.commitError = 0) :
      StepEffect s (.getError available) 0 s
  | created (containerId : Bytes) :
      StepEffect s (.createContainer containerId) 0
        { s with containers := s.containers ++ [freshContainer containerId] }

theorem CommitEffect.addMeasurement {config : PolicyConfig} {env : AddEnv} {s s' : CommitState}
    {c : ContainerRef} {name : Bytes} {data dependencies : Option Bytes} {digest : Digest}
    {entry : MeasurementEntry} {ret : Ret} (hnode : s.containers[c.1]? = some c.2)
    (hentry : createMeasurementEntry true (some name) data dependencies (some digest) = some entry)
    (h : CommitEffect S config env.commit.trim (some (cstr c.2.id)) s (some c) (some entry)
      (some entry.digest) true ret s') :
    StepEffect S s
      (.addMeasurement config env (some c.1) (some name) data dependencies (some digest))
      ret s' := by
  cases h with
  | refused error hret herror hnonpos => exact .refused error hret herror hnonpos
  | commandFailed extra hunlatched hallowed hret hextra =>
      exact .commandFailed extra hunlatched hallowed hret hextra
  | committed hardware p v hunlatched hhardware hsoftware hvalue hsome hprepares =>
      cases hvalue
      exact .measured c.2 entry hardware p hnode hentry hunlatched hhardware hsoftware hprepares

theorem CommitEffect.commitRoot {config : PolicyConfig} {env : CommitEnv} {s s' : CommitState}
    {value : Option Digest} {sourceId : Option Bytes} {ret : Ret}
    (h : CommitEffect S config env.trim sourceId s none none value false ret s') :
    StepEffect S s (.commitRoot config env value sourceId) ret s' := by
  cases h with
  | refused error hret herror hnonpos => exact .refused error hret herror hnonpos
  | commandFailed extra hunlatched hallowed hret hextra =>
      exact .commandFailed extra hunlatched hallowed hret hextra
  | committed hardware p v hunlatched hhardware hsoftware hvalue hsome hprepares =>
      cases hvalue
      exact .rootCommitted v hardware p hunlatched hhardware hsoftware hprepares

theorem commitCheckLocked_effect (available : Bool) (s : CommitState) (op : CommitOp)
    (h : (commitCheckLocked available s).1 ≠ 0) :
    StepEffect S s op (commitCheckLocked available s).1 (commitCheckLocked available s).2 :=
  .refused _ h ((commitCheckLocked_error available s).imp_right (⟨·, rfl⟩)) commitCheckLocked_nonpos

theorem containerRef_eq_some {s : CommitState} {container : Option ℕ} {c : ContainerRef}
    (h : containerRef s container = some c) :
    container = some c.1 ∧ s.containers[c.1]? = some c.2 := by
  cases container with
  | none => simp [containerRef] at h
  | some i =>
      obtain ⟨node, hnode, rfl⟩ : ∃ node, s.containers[i]? = some node ∧ (i, node) = c := by
        simpa [containerRef] using h
      exact ⟨rfl, hnode⟩

theorem addContainerMeasurement_effect (config : PolicyConfig) (env : AddEnv) (s : CommitState)
    (container : Option ℕ) (eventName eventData dependencies : Option Bytes)
    (digest : Option Digest) :
    StepEffect S s (.addMeasurement config env container eventName eventData dependencies digest)
      (addContainerMeasurement S config env s container eventName eventData dependencies digest).1
      (addContainerMeasurement S config env s container eventName eventData dependencies
        digest).2 := by
  have hkeep : ∀ {op : CommitOp} (ret : Ret), ret ≠ 0 → StepEffect S s op ret s :=
    fun _ hret => .refused s.commitError hret (.inl rfl) id
  unfold addContainerMeasurement
  split
  · rename_i c name value hcontainer
    obtain ⟨rfl, hnode⟩ := containerRef_eq_some hcontainer
    split
    · exact hkeep (-ewouldblock) (by decide)
    · by_cases hcheck : (commitCheckLocked env.available s).1 = 0
      · obtain ⟨hunlatched, hstate⟩ := commitCheckLocked_zero hcheck
        simp only [hcheck, hstate, ne_eq, not_true_eq_false, if_false]
        split
        · exact hkeep 1 (by decide)
        · split
          · exact hkeep (-enomem) (by decide)
          · rename_i entry hentry
            obtain ⟨halloc, -⟩ := createMeasurementEntry_eq_some hentry
            rw [halloc] at hentry
            exact (commitEventLocked_effect S config env.commit s (some c) (some entry)
              (some entry.digest) (some (cstr c.2.id)) true).addMeasurement S hnode hentry
      · simp only [ne_eq, hcheck, not_false_eq_true, if_true]
        exact commitCheckLocked_effect S env.available s _ hcheck
  · exact hkeep (-einval) (by decide)

theorem commitStep_effect (s : CommitState) (op : CommitOp) :
    StepEffect S s op (commitStep S s op).1 (commitStep S s op).2 := by
  cases op with
  | addMeasurement config env container eventName eventData dependencies digest =>
      exact addContainerMeasurement_effect S config env s container eventName eventData dependencies
        digest
  | commitRoot config env value sourceId =>
      exact (commitEventLocked_effect S config env s none none value sourceId false).commitRoot S
  | getError available =>
      by_cases hcheck : (commitCheckLocked available s).1 = 0
      · obtain ⟨hunlatched, hstate⟩ := commitCheckLocked_zero hcheck
        simp only [commitStep, hcheck, hstate]
        exact .checked hunlatched
      · exact commitCheckLocked_effect S available s _ hcheck
  | createContainer containerId => exact .created containerId

end

/-! ## A host on which nothing fails -/

/-- A boot state with `n` fresh containers, named by one letter each. -/
def bootState (n : ℕ) : CommitState where
  containers := (List.range n).map fun i => freshContainer [97 + i.toUInt8]
  merkleRootHistory := []
  merkleRootHistoryCount := 0
  systemMerkleRoot := ⟨zeroDigest, true⟩
  sha256HashTable := []
  commitError := 0
  hardwareAnchored := false
  softwareCommitted := false
  tpmPcrIndex := 10
  tpm := ⟨[], 0⟩

def workingTpm : TpmEnv where
  inAtomic := false
  chip := some ⟨[tpmAlgSha256]⟩
  digestsAlloc := true
  commandRet := 0
  appliedOnFailure := false

def workingCommit : CommitEnv where
  available := true
  hashAlloc := true
  historyAlloc := true
  leafHashRet := 0
  rootHashRet := 0
  tpm := workingTpm
  trim := ⟨true, true, fun _ => 0⟩

def workingAdd : AddEnv where
  canSleep := true
  available := true
  entryAlloc := true
  commit := workingCommit

end BpfIma
