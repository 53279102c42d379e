import BpfIma.Library.DoubleBuffer
import BpfIma.Verification.Policy.Representation

/-! # Lock-free readers of the policy map

`publish_policy_locked` and the reader that the documentation asks of external programs, as
single accesses to the memory of the bound map. -/

namespace BpfIma

open CString Machine DoubleBuffer

/-! ## Accesses -/

/-- The keys of the two policy states; key 0 is the control slot. -/
abbrev StateKey := { k : Fin policyMapEntries // k.val ≠ 0 }

def stateKey (generation : UInt64) : StateKey :=
  ⟨stateSlot generation, fun h => stateSlot_ne_zero generation (Fin.ext h)⟩

/-- The next generation, in the other slot; there is none after the last. -/
def policyScheme : Scheme UInt64 StateKey where
  unset := 0
  slotOf := stateKey
  next g := if g = 0xffffffffffffffff then none else some (g + 1)
  rank := UInt64.toNat
  slotOf_next := by
    intro g g' h
    split at h
    · cases h
    · cases h
      exact fun heq => stateSlot_succ_ne g (congrArg Subtype.val heq)
  rank_next := by
    intro g g' h
    split at h
    · cases h
    · rename_i hmax
      cases h
      rw [toNat_succ_of_ne_zero (succ_ne_zero_of_ne_max hmax)]
      exact Nat.lt_succ_self _

section Words

variable {ι α : Type*} (words : PolicyState → ι → α)

/-- The memory of a map, for any way `words` of cutting a policy state into words. -/
def BpfMap.memory (map : BpfMap) : Memory UInt64 StateKey ι α :=
  ⟨map.generation, fun k => words (map.slots.get k.val)⟩

/-- A map between two updates, before anybody reads it. -/
def sharedMap (map : BpfMap) : State UInt64 StateKey ι α PolicyState :=
  ⟨map.memory words, .idle, .idle⟩

/-- One `publish_policy_locked`: the candidate is copied whole, under the next generation. -/
def policyPublication (candidate : PolicyState) (order : Traversal ι) (committed : Bool) :
    Publication UInt64 PolicyState ι :=
  ⟨fun g => { candidate with generation := g }, order, committed⟩

/-- One access of the publisher or of the reader. -/
def mapStep [DecidableEq ι] :
    State UInt64 StateKey ι α PolicyState → Access UInt64 PolicyState ι →
      Option (UInt64 × PolicyState) × State UInt64 StateKey ι α PolicyState :=
  step policyScheme words

/-- The generations of a map and the states committed as such, from the active one on. -/
def committedStates [DecidableEq ι] (map : BpfMap) (accesses : List (Access UInt64 PolicyState ι)) :
    List (UInt64 × PolicyState) :=
  (map.generation, map.active) :: published policyScheme words (sharedMap words map) accesses

/-! ## The publisher is the module -/

theorem next_policyScheme {g : UInt64} (h : g + 1 ≠ 0) : policyScheme.next g = some (g + 1) := by
  refine if_neg ?_
  rintro rfl
  exact h rfl

theorem memory_stage (map : BpfMap) (candidate : PolicyState) :
    (map.stage candidate).memory words =
      { map.memory words with
        slots := Function.update (map.memory words).slots (stateKey candidate.generation)
          (words candidate) } := by
  have hslots : ((map.stage candidate).memory words).slots =
      Function.update (map.memory words).slots (stateKey candidate.generation)
        (words candidate) := by
    funext k
    by_cases hk : k = stateKey candidate.generation
    · rw [hk, Function.update_self]
      exact congrArg words (List.Vector.get_set_same _ _ _)
    · rw [Function.update_of_ne hk]
      refine congrArg words (List.Vector.get_set_of_ne ?_ _)
      exact fun heq => hk (Subtype.ext heq.symm)
  rw [← hslots]
  exact congrArg (Memory.mk · _) (map.generation_stage candidate)

theorem memory_publish (map : BpfMap) (g : UInt64) :
    (map.publish g).memory words = { map.memory words with control := g } := by
  have hslots : ((map.publish g).memory words).slots = (map.memory words).slots := by
    funext k
    refine congrArg words (List.Vector.get_set_of_ne ?_ _)
    exact fun heq => k.property (congrArg Fin.val heq).symm
  change _ = Memory.mk g (map.memory words).slots
  rw [← hslots]
  exact congrArg (Memory.mk · _) (map.generation_publish g)

/-- A publication by the module is one by the publisher, or touches no memory. -/
theorem PublishEffect.performs {P : Platform} {env : PublishEnv} {s t : KernelState} {m : ℕ}
    {candidate : PolicyState} {index : Fin (policyNamespaces + 1)} {metadata : Option ℕ} {ret : Ret}
    (h : PublishEffect P env s m candidate index metadata ret t) (order : Traversal ι) :
    (t.maps m).memory words = (s.maps m).memory words ∨
      (t.maps m).memory words = perform policyScheme words ((s.maps m).memory words)
        (policyPublication candidate order (decide (ret = 0))) := by
  cases h with
  | refused => exact .inl rfl
  | notCommitted engine hret hcommit hgeneration =>
      right
      have hnext : policyScheme.next ((s.maps m).memory words).control = _ :=
        next_policyScheme hgeneration
      simp only [maps_stageCandidate, memory_stage, perform, hnext, policyPublication, hret]
      rfl
  | published engine hgeneration hcommit =>
      right
      have hnext : policyScheme.next ((s.maps m).memory words).control = _ :=
        next_policyScheme hgeneration
      rw [maps_publishedState, memory_publish, memory_stage]
      simp only [perform, hnext, policyPublication]
      rfl

theorem KernelEffect.performs {P : Platform} {s t : KernelState} {ret : Ret} {m : ℕ}
    (hbound : s.policyMap = some m) (hs : (s.maps m).Published) (h : KernelEffect P s ret t)
    (order : Traversal ι) :
    (t.maps m).memory words = (s.maps m).memory words ∨
      ∃ candidate committed, (t.maps m).memory words =
        perform policyScheme words ((s.maps m).memory words)
          (policyPublication candidate order committed) := by
  cases h with
  | engine => exact .inl rfl
  | mapSyscall m' map hreach =>
      have hne : m ≠ m' := by
        rintro rfl
        exact hreach hs.sealed
      rw [s.setMap_maps_of_ne map hne]
      exact .inl rfl
  | bind env hbind =>
      cases hbind with
      | refused | alreadyBound => exact .inl rfl
      | notCommitted m' engine hret hnone | bound m' engine hnone =>
          rw [hbound] at hnone
          cases hnone
  | update env hupdate =>
      cases hupdate with
      | refused => exact .inl rfl
      | applied request hname happly =>
          cases happly with
          | refused | unchanged => exact .inl rfl
          | attempted m' namespaces snapshot candidate index metadata hbound' hadded hnormal
              hcandidate hvalid haudited hpublish =>
              obtain rfl := Option.some.inj (hbound.symm.trans hbound')
              exact (hpublish.performs words order).imp_right fun h => ⟨_, _, h⟩

/-- Whatever calls the module serves, its accesses to the map are those of a publisher. -/
theorem exists_accesses_of_run [DecidableEq ι] (P : Platform) (order : Traversal ι)
    {s : KernelState} {m : ℕ} (hbound : s.policyMap = some m) (hs : (s.maps m).Published)
    (ops : List KernelOp) :
    ∃ accesses, run (mapStep words) (sharedMap words (s.maps m)) accesses =
      sharedMap words ((run (kernelStep P) s ops).maps m) := by
  induction ops generalizing s with
  | nil => exact ⟨[], rfl⟩
  | cons op ops ih =>
      have heffect := kernelStep_effect P s op
      obtain ⟨hbound', hs', -⟩ := heffect.activeStep hbound hs
      obtain ⟨accesses, haccesses⟩ := ih hbound' hs'
      rw [run_cons, ← haccesses]
      rcases heffect.performs words hbound hs order with hsame | ⟨candidate, committed, hperforms⟩
      · refine ⟨accesses, ?_⟩
        rw [sharedMap, sharedMap, hsame]
      · have hpublish := run_publish policyScheme words ((s.maps m).memory words) .idle
          (policyPublication candidate order committed)
        refine ⟨.publish (policyPublication candidate order committed) ::
          (List.replicate order.order.length .store ++ [.store]) ++ accesses, ?_⟩
        rw [run_append, sharedMap, sharedMap, hperforms, ← hpublish]
        rfl

/-! ## Accepted copies -/

/-- From any state of the module with a bound map, in any interleaving of the accesses of a
publisher and of a reader, a copy that the reader accepts under a generation is a copy of the
one state that was committed as that generation. -/
theorem accepted_copy_committed [DecidableEq ι] (P : Platform) (maps : ℕ → BpfMap) (tpmPcrIndex : ℤ)
    (ops : List KernelOp) (m : ℕ) (hbound : (kernelRun P maps tpmPcrIndex ops).policyMap = some m)
    (accesses : List (Access UInt64 PolicyState ι)) (g : UInt64) (copied : List (ι × α))
    (haccepted : (run (mapStep words)
      (sharedMap words ((kernelRun P maps tpmPcrIndex ops).maps m)) accesses).reader =
        .accepted g copied) :
    ∃ state,
      (g, state) ∈ committedStates words ((kernelRun P maps tpmPcrIndex ops).maps m) accesses ∧
      IsCopy (words state) copied ∧
      ∀ other,
        (g, other) ∈ committedStates words ((kernelRun P maps tpmPcrIndex ops).maps m) accesses →
          other = state := by
  have hactive := BpfMap.active_of_ne _
    (PolicyBound.of_run P maps tpmPcrIndex ops m hbound).generation
  have hslot : (BpfMap.memory words ((kernelRun P maps tpmPcrIndex ops).maps m)).slots
      (policyScheme.slotOf
        (BpfMap.memory words ((kernelRun P maps tpmPcrIndex ops).maps m)).control) =
      words ((kernelRun P maps tpmPcrIndex ops).maps m).active := by
    rw [hactive]
    rfl
  exact accepted_of_run policyScheme words hslot accesses haccepted

end Words

/-- A state byte by byte, on a little-endian host. -/
def stateBytes (state : PolicyState) (i : Fin 45560) : UInt8 := (state.image .little).getD i 0

def everyByte : Traversal (Fin 45560) := ⟨List.finRange 45560, List.mem_finRange⟩

/-- The next update has begun when a reader copies the map. -/
def readDuringUpdate : List (Access UInt64 PolicyState (Fin 45560)) :=
  .publish (policyPublication initialPolicyState everyByte true) ::
    .load everyByte :: (List.replicate everyByte.order.length .copy ++ [.check])

theorem accepted_copy_committed_readDuringUpdate :
    ∃ copied, (run (mapStep stateBytes)
        (sharedMap stateBytes ((kernelRun referencePlatform (fun _ => unboundPolicyMap) 10
          [.policyBindMap workingBind]).maps 0)) readDuringUpdate).reader = .accepted 1 copied ∧
      ∃ state, (1, state) ∈ committedStates stateBytes
          ((kernelRun referencePlatform (fun _ => unboundPolicyMap) 10
            [.policyBindMap workingBind]).maps 0) readDuringUpdate ∧
        IsCopy (stateBytes state) copied := by
  have hrun : (kernelRun referencePlatform (fun _ => unboundPolicyMap) 10
      [.policyBindMap workingBind]).policyMap = some 0 ∧
      ((kernelRun referencePlatform (fun _ => unboundPolicyMap) 10
        [.policyBindMap workingBind]).maps 0).generation = 1 := by decide +kernel
  generalize hmap : (kernelRun referencePlatform (fun _ => unboundPolicyMap) 10
    [.policyBindMap workingBind]).maps 0 = map at hrun ⊢
  obtain ⟨publisher, hpublish⟩ : ∃ publisher, (mapStep stateBytes (sharedMap stateBytes map)
      (.publish (policyPublication initialPolicyState everyByte true))).2 =
        ⟨map.memory stateBytes, publisher, .idle⟩ := by
    simp only [mapStep, step, sharedMap]
    split <;> exact ⟨_, rfl⟩
  have hread := run_read policyScheme stateBytes (map.memory stateBytes) publisher .idle everyByte
    (show map.generation ≠ 0 by rw [hrun.2]; decide)
  have haccepted : (run (mapStep stateBytes) (sharedMap stateBytes map) readDuringUpdate).reader =
      .accepted 1 (everyByte.order.map fun i =>
        (i, (map.memory stateBytes).slots (stateKey map.generation) i)) := by
    rw [readDuringUpdate, run_cons, hpublish]
    refine (congrArg State.reader hread).trans ?_
    rw [← hrun.2]
    rfl
  refine ⟨_, haccepted, ?_⟩
  subst hmap
  obtain ⟨state, hstate, hcopy, -⟩ := accepted_copy_committed stateBytes referencePlatform
    (fun _ => unboundPolicyMap) 10 [.policyBindMap workingBind] 0 hrun.1 readDuringUpdate 1 _
    haccepted
  exact ⟨state, hstate, hcopy⟩

end BpfIma
