import BpfIma.Verification.Tool.HandOver

/-! # One authority for the policy

However many tools run at once, they agree on one map with each other and with the module. As long
as no pin is removed between the look-up and the hand-over of another tool, the map that the module
has bound stays pinned, and nobody is refused for having come second. -/

namespace BpfIma

open CString Errno Machine

/-! ## The invariant -/

/-- A pinned map is one that a tool has created and frozen. The bound map is pinned, and a created
map that is not bound is still empty. -/
structure AuthorityKept (first : ℕ) (host : Host) : Prop where
  nonpos : host.kernel.engine.commitError ≤ 0
  next : first ≤ host.nextMap
  pinned : ∀ m, host.pin = some m →
    first ≤ m ∧ m < host.nextMap ∧ (host.kernel.maps m).Protected
  bound : ∀ m, host.kernel.policyMap = some m → host.pin = some m
  zeroed : ∀ m, first ≤ m → m < host.nextMap → host.kernel.policyMap ≠ some m →
    ∀ i, (host.kernel.maps m).slots.get i = PolicyState.zero

/-- What a tool knows at the point it has come to. -/
def ToolKnows (first : ℕ) (host : Host) : ToolPoint → Prop
  | .created m =>
      first ≤ m ∧ m < host.nextMap ∧ (host.kernel.maps m).hasPolicyShape ∧
        (host.kernel.maps m).writecnt = 0
  | .frozen m => first ≤ m ∧ m < host.nextMap ∧ (host.kernel.maps m).Protected
  | .opened m | .checked m => host.pin = some m
  | .ensured m | .reused m => host.kernel.policyMap = some m
  | .inspecting m => host.kernel.policyMap = none ∨ host.kernel.policyMap = some m
  | .removing => host.kernel.policyMap = none
  | .idle | .missing | .existing | .failed | .cleaned _ => True

/-- The points between the look-up of the pin and the hand-over. -/
def ToolPoint.holdsPin : ToolPoint → Bool
  | .opened _ | .checked _ => true
  | _ => false

/-- The points between the look-up of the pin and its removal. -/
def ToolPoint.cleansUp : ToolPoint → Bool
  | .inspecting _ | .removing => true
  | _ => false

def ToolAction.binds : ToolAction → Bool
  | .handOver _ => true
  | _ => false

def ToolAction.unpins : ToolAction → Bool
  | .removePin _ => true
  | _ => false

/-- Cleaning up does not fail on its way to the status, where the bound map has an id, and no
digest of a hand-over reports a positive number. -/
def ToolAction.Regular (host : Host) : ToolAction → Prop
  | .handOver env => env.publish.NonPos
  | .cleanup fault => fault = false
  | .readStatus env =>
      env.infoFault = false ∧ env.statusOpens = true ∧
        ∀ bound ∈ host.kernel.policyMap, env.ids bound ≠ 0
  | _ => True

/-- A call that neither binds a map nor writes to those of the tools. -/
def KernelOp.SparesTools (first : ℕ) : KernelOp → Prop
  | .policyBindMap _ => False
  | .mapSyscall m _ => m < first
  | _ => True

/-- The runs in which cleaning up and handing over do not overlap: no map is handed over while a
tool stands before the removal of the pin, and no pin is removed while a tool stands before the
hand-over. -/
def Apart (first : ℕ) (s : ToolState) : ToolOp → Prop
  | .act _ action =>
      action.Regular s.shared ∧ (action.binds = true → ∀ n, (s.locals n).cleansUp = false) ∧
        (action.unpins = true → ∀ n, (s.locals n).holdsPin = false)
  | .other op => op.SparesTools first

/-- What every section leaves: created maps stay as they are, up to freezing and to what the module
keeps in them, and the binding stays. -/
structure HostMoves (first : ℕ) (host host' : Host) : Prop where
  next : host.nextMap ≤ host'.nextMap
  shape : ∀ m, first ≤ m → m < host.nextMap → (host.kernel.maps m).hasPolicyShape →
    (host'.kernel.maps m).hasPolicyShape
  writecnt : ∀ m, first ≤ m → m < host.nextMap → (host.kernel.maps m).writecnt = 0 →
    (host'.kernel.maps m).writecnt = 0
  frozen : ∀ m, first ≤ m → m < host.nextMap → (host.kernel.maps m).frozen = true →
    (host'.kernel.maps m).frozen = true
  bound : ∀ m, host.kernel.policyMap = some m → host'.kernel.policyMap = some m

theorem HostMoves.refl (first : ℕ) (host : Host) : HostMoves first host host :=
  ⟨le_rfl, fun _ _ _ h => h, fun _ _ _ h => h, fun _ _ _ h => h, fun _ h => h⟩

theorem HostMoves.protected {first : ℕ} {host host' : Host} (h : HostMoves first host host') {m : ℕ}
    (hfirst : first ≤ m) (hnext : m < host.nextMap) (hmap : (host.kernel.maps m).Protected) :
    (host'.kernel.maps m).Protected :=
  ⟨h.shape m hfirst hnext hmap.shape, h.frozen m hfirst hnext hmap.frozen,
    h.writecnt m hfirst hnext hmap.writecnt⟩

theorem HostMoves.of_sameShape {first : ℕ} {host host' : Host}
    (hnext : host'.nextMap = host.nextMap)
    (hshape : ∀ m, first ≤ m → (host.kernel.maps m).SameShape (host'.kernel.maps m))
    (hbound : ∀ m, host.kernel.policyMap = some m → host'.kernel.policyMap = some m) :
    HostMoves first host host' := by
  refine ⟨hnext.ge, fun m hm _ h => ?_, fun m hm _ h => ?_, fun m hm _ h => ?_, hbound⟩
  · rw [hshape m hm]
    exact h
  · rw [hshape m hm]
    exact h
  · rw [hshape m hm]
    exact h

/-- What a tool knows survives the sections of others: those that remove pins if it does not hold
one, and those that bind if it does not clean up. -/
theorem ToolKnows.moves {first : ℕ} {host host' : Host} {point : ToolPoint}
    (h : ToolKnows first host point) (hmoves : HostMoves first host host')
    (hpin : point.holdsPin = true → ∀ m, host.pin = some m → host'.pin = some m)
    (hbound : point.cleansUp = true → host'.kernel.policyMap = host.kernel.policyMap) :
    ToolKnows first host' point := by
  cases point with
  | created m =>
      obtain ⟨hfirst, hnext, hshape, hwriters⟩ := h
      exact ⟨hfirst, hnext.trans_le hmoves.next, hmoves.shape m hfirst hnext hshape,
        hmoves.writecnt m hfirst hnext hwriters⟩
  | frozen m =>
      obtain ⟨hfirst, hnext, hmap⟩ := h
      exact ⟨hfirst, hnext.trans_le hmoves.next, hmoves.protected hfirst hnext hmap⟩
  | opened m | checked m => exact hpin rfl m h
  | ensured m | reused m => exact hmoves.bound m h
  | inspecting m =>
      rw [ToolKnows, hbound rfl]
      exact h
  | removing =>
      rw [ToolKnows, hbound rfl]
      exact h
  | idle | missing | existing | failed | cleaned => trivial

/-! ## One system call -/

/-- The rules of the system calls. -/
inductive ToolEffect (P : Platform) (host : Host) :
    ToolPoint → ToolAction → ToolPoint → Host → Prop where
  | outOfTurn {point : ToolPoint} {action : ToolAction} :
      ToolEffect P host point action point host
  | plain {point point' : ToolPoint} {action : ToolAction}
      (hplain : point' = .failed ∨ point' = .missing ∨ point' = .existing ∨ point' = .cleaned 1) :
      ToolEffect P host point action point' host
  | opened {point : ToolPoint} {action : ToolAction} (m : ℕ) (hpin : host.pin = some m) :
      ToolEffect P host point action (.opened m) host
  | created {fault : Bool} :
      ToolEffect P host .missing (.mapCreate fault) (mapCreate host).1 (mapCreate host).2
  | froze {fault : Bool} (m : ℕ) :
      ToolEffect P host (.created m) (.mapFreeze fault) (mapFreeze m host).1 (mapFreeze m host).2
  | pinned {fault : Bool} (m : ℕ) (hnone : host.pin = none) :
      ToolEffect P host (.frozen m) (.objPin fault) (.opened m) { host with pin := some m }
  | checked {fault : Bool} (m : ℕ) :
      ToolEffect P host (.opened m) (.getInfo fault) (.checked m) host
  | handedOver (env : HandOverEnv) (m : ℕ) :
      ToolEffect P host (.checked m) (.handOver env) (handOver P env m host).1
        (handOver P env m host).2
  | reused {fault : Bool} (m m' : ℕ) (hpin : host.pin = some m') :
      ToolEffect P host (.ensured m) (.reuse fault) (.reused m') host
  | unreadable {point : ToolPoint} : ToolEffect P host point (.cleanup true) .removing host
  | unpinned {point : ToolPoint} {fault : Bool} (hnone : host.pin = none) :
      ToolEffect P host point (.cleanup fault) .removing host
  | inspecting {point : ToolPoint} {fault : Bool} (m : ℕ) (hpin : host.pin = some m) :
      ToolEffect P host point (.cleanup fault) (.inspecting m) host
  | preserved (env : PreserveEnv) (m : ℕ) :
      ToolEffect P host (.inspecting m) (.readStatus env)
        (if (preservePolicyPin env m host.kernel).1 then .cleaned 0 else .removing)
        { host with kernel := (preservePolicyPin env m host.kernel).2 }
  | removed {fault : Bool} :
      ToolEffect P host .removing (.removePin fault) (.cleaned 0) { host with pin := none }

theorem lookUp_effect (P : Platform) (host : Host) (point : ToolPoint) (fault : Bool) :
    ToolEffect P host point (.objGet fault) (lookUp fault host) host := by
  unfold lookUp
  split
  · exact .plain (.inl rfl)
  · split
    · exact .plain (.inr (.inl rfl))
    · rename_i m hpin
      exact .opened m hpin

theorem beginCleanup_effect (P : Platform) (host : Host) (point : ToolPoint) (fault : Bool) :
    ToolEffect P host point (.cleanup fault) (beginCleanup fault host) host := by
  unfold beginCleanup
  split
  · rename_i hfault
    rw [hfault]
    exact .unreadable
  · split
    · rename_i hnone
      exact .unpinned hnone
    · rename_i m hpin
      exact .inspecting m hpin

theorem toolAction_effect (P : Platform) (host : Host) (point : ToolPoint) (action : ToolAction) :
    ToolEffect P host point action (toolAction P host point action).1
      (toolAction P host point action).2 := by
  unfold toolAction
  split
  · exact lookUp_effect ..
  · exact lookUp_effect ..
  · exact lookUp_effect ..
  · exact lookUp_effect ..
  · exact lookUp_effect ..
  · split
    · exact .plain (.inl rfl)
    · exact .created
  · rename_i m fault
    split
    · exact .plain (.inl rfl)
    · exact .froze m
  · rename_i m fault
    split
    · exact .plain (.inl rfl)
    · unfold objPin
      split
      · rename_i hnone
        exact .pinned m hnone
      · exact .plain (.inr (.inr (.inl rfl)))
  · simp only
    split
    · exact .plain (.inl rfl)
    · unfold objGet
      split
      · exact .plain (.inl rfl)
      · rename_i m hpin
        exact .opened m hpin
  · rename_i m fault
    simp only
    split
    · exact .plain (.inl rfl)
    · exact .checked m
  · rename_i m env
    exact .handedOver env m
  · rename_i m fault
    simp only
    split
    · exact .plain (.inl rfl)
    · unfold objGet
      split
      · exact .plain (.inl rfl)
      · rename_i m' hpin
        exact .reused m m' hpin
  · exact beginCleanup_effect ..
  · exact beginCleanup_effect ..
  · exact beginCleanup_effect ..
  · exact beginCleanup_effect ..
  · exact beginCleanup_effect ..
  · rename_i m env
    exact .preserved env m
  · split
    · exact .plain (.inr (.inr (.inr rfl)))
    · exact .removed
  · exact .outOfTurn

/-- What a system call keeps, and what it leaves to the other tools. -/
structure ToolKeeps (first : ℕ) (host : Host) (action : ToolAction) (point' : ToolPoint)
    (host' : Host) : Prop where
  kept : AuthorityKept first host'
  knows : ToolKnows first host' point'
  moves : HostMoves first host host'
  pin : action.unpins = false → ∀ m, host.pin = some m → host'.pin = some m
  bound : action.binds = false → host'.kernel.policyMap = host.kernel.policyMap

theorem ToolKeeps.same {first : ℕ} {host : Host} {action : ToolAction} {point' : ToolPoint}
    (hkept : AuthorityKept first host) (hknows : ToolKnows first host point') :
    ToolKeeps first host action point' host :=
  ⟨hkept, hknows, .refl first host, fun _ _ h => h, fun _ => rfl⟩

theorem ToolKeeps.created {first : ℕ} {host : Host} {action : ToolAction}
    (hkept : AuthorityKept first host) :
    ToolKeeps first host action (mapCreate host).1 (mapCreate host).2 := by
  have hother {m : ℕ} (hm : m < host.nextMap) :
      (host.kernel.setMap host.nextMap createdPolicyMap).maps m = host.kernel.maps m :=
    host.kernel.setMap_maps_of_ne _ hm.ne
  have hself : (host.kernel.setMap host.nextMap createdPolicyMap).maps host.nextMap =
      createdPolicyMap := host.kernel.setMap_maps_self _ _
  constructor
  · refine ⟨hkept.nonpos, hkept.next.trans (Nat.le_succ _), fun m hpin => ?_, hkept.bound,
      fun m hfirst hnext hbound => ?_⟩
    · obtain ⟨hfirst, hnext, hmap⟩ := hkept.pinned m hpin
      refine ⟨hfirst, hnext.trans (Nat.lt_succ_self _), ?_⟩
      change ((host.kernel.setMap host.nextMap createdPolicyMap).maps m).Protected
      rwa [hother hnext]
    · change ∀ i, ((host.kernel.setMap host.nextMap createdPolicyMap).maps m).slots.get i = _
      rcases Nat.lt_succ_iff_lt_or_eq.mp hnext with hold | rfl
      · rw [hother hold]
        exact hkept.zeroed m hfirst hold hbound
      · rw [hself]
        exact fun i => List.Vector.get_replicate _ i
  · refine ⟨hkept.next, Nat.lt_succ_self _, ?_, ?_⟩
    · change ((host.kernel.setMap host.nextMap createdPolicyMap).maps host.nextMap).hasPolicyShape
      rw [hself]
      decide
    · change ((host.kernel.setMap host.nextMap createdPolicyMap).maps host.nextMap).writecnt = 0
      rw [hself]
      rfl
  · refine ⟨Nat.le_succ _, fun m _ hm h => ?_, fun m _ hm h => ?_, fun m _ hm h => ?_, fun _ h => h⟩
    all_goals
      simp only [mapCreate, hother hm]
      exact h
  · exact fun _ _ h => h
  · exact fun _ => rfl

theorem ToolKeeps.froze {first m : ℕ} {host : Host} {action : ToolAction}
    (hkept : AuthorityKept first host) (hknows : ToolKnows first host (.created m)) :
    ToolKeeps first host action (mapFreeze m host).1 (mapFreeze m host).2 := by
  obtain ⟨hfirst, hnext, hshape, hwriters⟩ := hknows
  have hself : (mapFreeze m host).2.kernel.maps m = { host.kernel.maps m with frozen := true } :=
    host.kernel.setMap_maps_self m _
  have hmaps (m' : ℕ) : (mapFreeze m host).2.kernel.maps m' = host.kernel.maps m' ∨
      (mapFreeze m host).2.kernel.maps m' = { host.kernel.maps m' with frozen := true } := by
    by_cases hm : m' = m
    · subst hm
      exact .inr hself
    · exact .inl (host.kernel.setMap_maps_of_ne _ hm)
  have hmoves : HostMoves first host (mapFreeze m host).2 := by
    refine ⟨le_rfl, fun m' _ _ h => ?_, fun m' _ _ h => ?_, fun m' _ _ h => ?_, fun _ h => h⟩
    · rcases hmaps m' with hsame | hfrozen
      · rwa [hsame]
      · rwa [hfrozen]
    · rcases hmaps m' with hsame | hfrozen
      · rwa [hsame]
      · rwa [hfrozen]
    · rcases hmaps m' with hsame | hfrozen
      · rwa [hsame]
      · rw [hfrozen]
  refine ⟨⟨hkept.nonpos, hkept.next, fun m' hpin => ?_, hkept.bound,
      fun m' hfirst' hnext' hbound => ?_⟩,
    ⟨hfirst, hnext, ?_⟩, hmoves, fun _ _ h => h, fun _ => rfl⟩
  · obtain ⟨hfirst', hnext', hmap⟩ := hkept.pinned m' hpin
    exact ⟨hfirst', hnext', hmoves.protected hfirst' hnext' hmap⟩
  · have hzero := hkept.zeroed m' hfirst' hnext' hbound
    rcases hmaps m' with hsame | hfrozen
    · rw [hsame]
      exact hzero
    · rw [hfrozen]
      exact hzero
  · rw [hself]
    exact ⟨hshape, rfl, hwriters⟩

theorem ToolKeeps.handedOver {first m : ℕ} {P : Platform} {host : Host} {env : HandOverEnv}
    (henv : env.publish.NonPos) (hkept : AuthorityKept first host) (hpin : host.pin = some m) :
    ToolKeeps first host (.handOver env) (handOver P env m host).1 (handOver P env m host).2 := by
  obtain ⟨kernel, hhost, hnonpos, hcases⟩ := handOver_cases P henv m hkept.nonpos
  rw [hhost]
  rcases hcases with ⟨hfailed, hsame, hmaps⟩ | ⟨hensured, hbound, hbefore, hframe⟩
  · have hmoves : HostMoves first host { host with kernel := kernel } :=
      .of_sameShape rfl (fun m' _ => .of_eq (congrFun hmaps m')) fun m' h => hsame.trans h
    rw [hfailed]
    refine ⟨⟨hnonpos, hkept.next, fun m' hpin' => ?_, fun m' h => hkept.bound m' (hsame ▸ h),
      fun m' hfirst hnext h => ?_⟩, trivial, hmoves, fun _ _ h => h, fun _ => hsame⟩
    · obtain ⟨hfirst, hnext, hmap⟩ := hkept.pinned m' hpin'
      exact ⟨hfirst, hnext, hmoves.protected hfirst hnext hmap⟩
    · simp only [hmaps]
      exact hkept.zeroed m' hfirst hnext (hsame ▸ h)
  · have hmoves : HostMoves first host { host with kernel := kernel } := by
      refine .of_sameShape rfl (fun m' _ => (hframe m').1) fun m' h => ?_
      rcases hbefore with hnone | hsome
      · rw [hnone] at h
        cases h
      · rw [hsome] at h
        exact hbound.trans h
    rw [hensured]
    refine ⟨⟨hnonpos, hkept.next, fun m' hpin' => ?_, fun m' h => ?_, fun m' hfirst hnext h => ?_⟩,
      hbound, hmoves, fun _ _ h => h, fun h => Bool.noConfusion h⟩
    · obtain ⟨hfirst, hnext, hmap⟩ := hkept.pinned m' hpin'
      exact ⟨hfirst, hnext, hmoves.protected hfirst hnext hmap⟩
    · exact hpin.trans (hbound.symm.trans h)
    · have hne : m' ≠ m := by
        rintro rfl
        exact h hbound
      simp only [(hframe m').2 hne]
      refine hkept.zeroed m' hfirst hnext fun hm' => ?_
      rcases hbefore with hnone | hsome
      · rw [hnone] at hm'
        cases hm'
      · exact hne (Option.some.inj (hm'.symm.trans hsome))

theorem ToolKeeps.preserved {first m : ℕ} {host : Host} {env : PreserveEnv}
    (henv : (ToolAction.readStatus env).Regular host) (hkept : AuthorityKept first host)
    (hknows : ToolKnows first host (.inspecting m)) :
    ToolKeeps first host (.readStatus env)
      (if (preservePolicyPin env m host.kernel).1 then .cleaned 0 else .removing)
      { host with kernel := (preservePolicyPin env m host.kernel).2 } := by
  obtain ⟨hinfo, hstatus, hids⟩ := henv
  -- No other map than the one that is inspected can be bound.
  have hsame (bound : ℕ) (hbound : host.kernel.policyMap = some bound) : bound = m := by
    rcases hknows with hnone | hsome
    · cases hnone.symm.trans hbound
    · exact Option.some.inj (hbound.symm.trans hsome)
  have hspec := preservePolicyPin_spec hinfo hstatus (m := m) (s := host.kernel)
    (fun bound hbound => ⟨hids bound hbound, fun _ => hsame bound hbound⟩)
    fun hbound => (hkept.pinned m (hkept.bound m hbound)).2.2
  obtain ⟨engine, hframe, hnonpos⟩ := preservePolicyPin_frame env m hkept.nonpos
  rw [hframe]
  have hmoves :
      HostMoves first host { host with kernel := { host.kernel with engine := engine } } :=
    .of_sameShape rfl (fun _ _ => .refl _) fun _ h => h
  refine ⟨⟨hnonpos, hkept.next, hkept.pinned, hkept.bound, hkept.zeroed⟩, ?_, hmoves,
    fun _ _ h => h, fun _ => rfl⟩
  by_cases hpreserve : (preservePolicyPin env m host.kernel).1 = true
  · rw [if_pos hpreserve]
    trivial
  · rw [if_neg hpreserve]
    exact hknows.resolve_right (mt hspec.mpr hpreserve)

theorem AuthorityKept.unbound {first : ℕ} {host : Host} (h : AuthorityKept first host)
    (hnone : host.pin = none) : host.kernel.policyMap = none := by
  cases hpolicy : host.kernel.policyMap with
  | none => rfl
  | some m =>
      have hpin := h.bound m hpolicy
      rw [hnone] at hpin
      cases hpin

/-- One system call of a tool. -/
theorem ToolEffect.keeps {first : ℕ} {P : Platform} {host host' : Host} {point point' : ToolPoint}
    {action : ToolAction} (h : ToolEffect P host point action point' host')
    (hregular : action.Regular host) (hkept : AuthorityKept first host)
    (hknows : ToolKnows first host point) : ToolKeeps first host action point' host' := by
  cases h with
  | outOfTurn => exact .same hkept hknows
  | plain hplain =>
      refine .same hkept ?_
      rcases hplain with rfl | rfl | rfl | rfl
      all_goals trivial
  | opened m hpin => exact .same hkept hpin
  | created => exact .created hkept
  | froze m => exact .froze hkept hknows
  | pinned m hnone =>
      obtain ⟨hfirst, hnext, hmap⟩ := hknows
      have hunbound := hkept.unbound hnone
      refine ⟨⟨hkept.nonpos, hkept.next, fun m' hpin => ?_, fun m' hbound => ?_, hkept.zeroed⟩, rfl,
        .of_sameShape rfl (fun _ _ => .refl _) fun _ h => h, fun _ m' hpin => ?_, fun _ => rfl⟩
      · obtain rfl := Option.some.inj hpin
        exact ⟨hfirst, hnext, hmap⟩
      · rw [hunbound] at hbound
        cases hbound
      · rw [hnone] at hpin
        cases hpin
  | checked m => exact .same hkept hknows
  | handedOver env m => exact .handedOver hregular hkept hknows
  | reused m m' hpin =>
      have hbound : host.pin = some m := hkept.bound m hknows
      obtain rfl := Option.some.inj (hbound.symm.trans hpin)
      exact .same hkept hknows
  | unreadable => exact absurd hregular (show true ≠ false by decide)
  | unpinned hnone => exact .same hkept (hkept.unbound hnone)
  | inspecting m hpin =>
      refine .same hkept ?_
      cases hpolicy : host.kernel.policyMap with
      | none => exact .inl hpolicy
      | some m' =>
          obtain rfl := Option.some.inj ((hkept.bound m' hpolicy).symm.trans hpin)
          exact .inr hpolicy
  | preserved env m => exact .preserved hregular hkept hknows
  | removed =>
      have hunbound : host.kernel.policyMap = none := hknows
      refine ⟨⟨hkept.nonpos, hkept.next, fun m hpin => ?_, fun m hbound => ?_, hkept.zeroed⟩,
        trivial, .of_sameShape rfl (fun _ _ => .refl _) fun _ h => h, fun h => Bool.noConfusion h,
        fun _ => rfl⟩
      · cases hpin
      · rw [hunbound] at hbound
        cases hbound

/-! ## Whole runs -/

/-- A call of the module by anybody else. -/
theorem hostCall_keeps {first : ℕ} (P : Platform) {s : ToolState} {op : KernelOp}
    (hapart : Apart first s (.other op)) (hkept : AuthorityKept first s.shared) :
    AuthorityKept first (hostCall P s.shared op) ∧
      HostMoves first s.shared (hostCall P s.shared op) ∧
      (hostCall P s.shared op).kernel.policyMap = s.shared.kernel.policyMap := by
  have hbind : ∀ env, op ≠ .policyBindMap env := by
    rintro env rfl
    exact hapart
  have hsyscall {m : ℕ} (hfirst : first ≤ m) : ∀ map, op ≠ .mapSyscall m map := by
    rintro map rfl
    exact absurd hapart (not_lt.mpr hfirst)
  have hpolicy := policyMap_kernelStep P s.shared.kernel hbind
  have hframe {m : ℕ} (hfirst : first ≤ m) :=
    kernelStep_maps_frame P s.shared.kernel hbind (hsyscall hfirst)
  have hmoves : HostMoves first s.shared (hostCall P s.shared op) :=
    .of_sameShape rfl (fun m hfirst => (hframe hfirst).1) fun m h => hpolicy.trans h
  refine ⟨⟨kernelStep_nonpos P op hkept.nonpos, hkept.next, fun m hpin => ?_,
    fun m h => hkept.bound m (hpolicy.symm.trans h), fun m hfirst hnext h => ?_⟩, hmoves, hpolicy⟩
  · obtain ⟨hfirst, hnext, hmap⟩ := hkept.pinned m hpin
    exact ⟨hfirst, hnext, hmoves.protected hfirst hnext hmap⟩
  · have hunbound : s.shared.kernel.policyMap ≠ some m := fun hm => h (hpolicy.trans hm)
    simp only [hostCall, (hframe hfirst).2 hunbound]
    exact hkept.zeroed m hfirst hnext hunbound

/-- The host keeps its authority, and every tool knows what it should. -/
def ToolsKept (first : ℕ) (s : ToolState) : Prop :=
  AuthorityKept first s.shared ∧ ∀ n, ToolKnows first s.shared (s.locals n)

theorem toolStep_kept {first : ℕ} (P : Platform) (s : ToolState) (op : ToolOp)
    (hapart : Apart first s op) (h : ToolsKept first s) : ToolsKept first (toolStep P s op).2 := by
  obtain ⟨hkept, hknows⟩ := h
  cases op with
  | act n action =>
      obtain ⟨hregular, hbinds, hunpins⟩ := hapart
      have hkeeps :=
        (toolAction_effect P s.shared (s.locals n) action).keeps hregular hkept (hknows n)
      refine ⟨hkeeps.kept, fun n' => ?_⟩
      simp only [toolStep, Threads.step]
      by_cases hn : n' = n
      · subst hn
        rw [Function.update_self]
        exact hkeeps.knows
      · rw [Function.update_of_ne hn]
        -- The others: a removal finds none of them with a pin, a hand-over none cleaning up.
        refine (hknows n').moves hkeeps.moves (fun hholds => hkeeps.pin ?_) fun hcleans =>
          hkeeps.bound ?_
        · exact Bool.eq_false_iff.mpr fun hact => by simp [hunpins hact n'] at hholds
        · exact Bool.eq_false_iff.mpr fun hact => by simp [hbinds hact n'] at hcleans
  | other op =>
      obtain ⟨hkept', hmoves, hpolicy⟩ := hostCall_keeps P hapart hkept
      exact ⟨hkept', fun n => (hknows n).moves hmoves (fun _ _ h => h) fun _ => hpolicy⟩

theorem toolsRun_kept (P : Platform) (maps : ℕ → BpfMap) (nextMap : ℕ) (tpmPcrIndex : ℤ)
    {ops : List ToolOp}
    (hapart : Along (toolStep P) (Apart nextMap) (toolsStarted maps nextMap tpmPcrIndex) ops) :
    ToolsKept nextMap (toolsRun P maps nextMap tpmPcrIndex ops) := by
  refine run_induction (fun s op => toolStep_kept P s op) hapart ⟨?_, fun n => trivial⟩
  refine ⟨le_rfl, le_rfl, fun m hpin => ?_, fun m hbound => ?_, fun m hfirst hnext => ?_⟩
  · cases hpin
  · cases hbound
  · exact absurd hnext (not_lt.mpr hfirst)

/-- The actions of a run in which nobody cleans up. -/
def NoCleanup (first : ℕ) : ToolOp → Prop
  | .act _ (.cleanup _) | .act _ (.readStatus _) | .act _ (.removePin _) => False
  | .act _ (.handOver env) => env.publish.NonPos
  | .act _ _ => True
  | .other op => op.SparesTools first

theorem ToolEffect.not_cleansUp {P : Platform} {host host' : Host} {point point' : ToolPoint}
    {action : ToolAction} {n first : ℕ} (h : ToolEffect P host point action point' host')
    (haction : NoCleanup first (.act n action)) (hpoint : point.cleansUp = false) :
    point'.cleansUp = false := by
  cases h with
  | outOfTurn => exact hpoint
  | plain hplain => rcases hplain with rfl | rfl | rfl | rfl <;> rfl
  | handedOver env m =>
      unfold handOver
      split
      · rfl
      · simp only
        split <;> rfl
  | opened | created | froze | pinned | checked | reused => rfl
  | unreadable | unpinned | inspecting | preserved | removed => exact haction.elim

/-- As long as nobody cleans up, tools may run in any order. -/
theorem apart_of_noCleanup (P : Platform) {first : ℕ} {s : ToolState} {ops : List ToolOp}
    (hops : ∀ op ∈ ops, NoCleanup first op) (hs : ∀ n, (s.locals n).cleansUp = false) :
    Along (toolStep P) (Apart first) s ops := by
  induction ops generalizing s with
  | nil => trivial
  | cons op ops ih =>
      have hop := hops op List.mem_cons_self
      refine ⟨?_, ih (fun o ho => hops o (List.mem_cons_of_mem op ho)) ?_⟩
      · cases op with
        | act n action =>
            cases action with
            | cleanup | readStatus | removePin => exact hop.elim
            | handOver env => exact ⟨hop, fun _ => hs, nofun⟩
            | objGet | mapCreate | mapFreeze | objPin | objGetAgain | getInfo | reuse =>
                exact ⟨trivial, nofun, nofun⟩
        | other op => exact hop
      · intro k
        cases op with
        | act n action =>
            simp only [toolStep, Threads.step]
            by_cases hk : k = n
            · subst hk
              rw [Function.update_self]
              exact (toolAction_effect P s.shared (s.locals k) action).not_cleansUp hop (hs k)
            · rw [Function.update_of_ne hk]
              exact hs k
        | other op => exact hs k

/-- The bound map stays pinned and protected, a tool that has ensured or reused a map has the bound
one, and a tool that has checked a map is refused by the commit engine or not at all. -/
theorem one_policy_authority (P : Platform) (maps : ℕ → BpfMap) (nextMap : ℕ) (tpmPcrIndex : ℤ)
    (ops : List ToolOp)
    (hapart : Along (toolStep P) (Apart nextMap) (toolsStarted maps nextMap tpmPcrIndex) ops) :
    let s := toolsRun P maps nextMap tpmPcrIndex ops
    (∀ m, s.shared.kernel.policyMap = some m →
      s.shared.pin = some m ∧ (s.shared.kernel.maps m).Protected) ∧
    (∀ n m, s.locals n = .ensured m ∨ s.locals n = .reused m →
      s.shared.kernel.policyMap = some m) ∧
    (∀ n m env, s.locals n = .checked m → env.Reaches → env.initialAlloc = true →
      env.publish.NonPos →
      ((toolStep P s (.act n (.handOver env))).2.locals n = .ensured m ↔
        authorityRet P (env.bind m) m s.shared.kernel = 0)) := by
  intro s
  obtain ⟨hkept, hknows⟩ := toolsRun_kept P maps nextMap tpmPcrIndex hapart
  have hknown {n : ℕ} {point : ToolPoint} (hpoint : s.locals n = point) :
      ToolKnows nextMap s.shared point := by
    rw [← hpoint]
    exact hknows n
  refine ⟨fun m hbound => ?_, fun n m hpoint => ?_, fun n m env hpoint hreaches halloc henv => ?_⟩
  · have hpin := hkept.bound m hbound
    exact ⟨hpin, (hkept.pinned m hpin).2.2⟩
  · rcases hpoint with hpoint | hpoint
    · exact hknown hpoint
    · exact hknown hpoint
  · have hpin : s.shared.pin = some m := hknown hpoint
    obtain ⟨hfirst, hnext, hmap⟩ := hkept.pinned m hpin
    have hret : (policyBindMap P (env.bind m) s.shared.kernel).1 =
        authorityRet P (env.bind m) m s.shared.kernel := by
      refine policyBindMap_authority P (env.map_bind m) halloc hmap (fun m' hbound => ?_)
        fun hnone => hkept.zeroed m hfirst hnext (by rw [hnone]; simp)
      exact Option.some.inj ((hkept.bound m' hbound).symm.trans hpin)
    have hstep : (toolStep P s (.act n (.handOver env))).2.locals n =
        (handOver P env m s.shared).1 := by
      simp only [toolStep, Threads.step, Function.update_self, hpoint]
      rfl
    rw [hstep, handOver_reaches P hreaches m _ (policyBindMap_nonpos P henv hkept.nonpos), hret]
    split
    · rename_i hzero
      exact iff_of_true rfl hzero
    · rename_i hzero
      exact iff_of_false (by simp) hzero

def workingHandOver : HandOverEnv := ⟨true, 5, true, false, true, true, workingPublish⟩

def workingPreserve : PreserveEnv := ⟨false, true, fun m => UInt32.ofNat (m + 1), true, true⟩

/-- Two tools that have both found nothing pinned. -/
def racingTools : List ToolOp :=
  [.act 0 (.objGet false), .act 1 (.objGet false), .act 0 (.mapCreate false),
    .act 1 (.mapCreate false), .act 1 (.mapFreeze false), .act 0 (.mapFreeze false),
    .act 1 (.objPin false), .act 0 (.objPin false), .act 0 (.objGetAgain false),
    .act 0 (.getInfo false), .act 1 (.getInfo false), .act 0 (.handOver workingHandOver),
    .act 1 (.handOver workingHandOver), .act 0 (.reuse false)]

/-- A third tool cleans up before them, when nothing is pinned, and after them. -/
def tidiedTools : List ToolOp :=
  [.act 2 (.cleanup false), .act 2 (.removePin false)] ++
    (racingTools ++ [.act 2 (.cleanup false), .act 2 (.readStatus workingPreserve)])

theorem one_policy_authority_tidiedTools :
    let s := toolsRun referencePlatform (fun _ => unboundPolicyMap) 3 10 tidiedTools
    s.locals 0 = .reused 4 ∧ s.locals 1 = .ensured 4 ∧ s.locals 2 = .cleaned 0 ∧
      s.shared.kernel.policyMap = some 4 ∧ s.shared.pin = some 4 := by
  intro s
  have hpoints : s.locals 0 = .reused 4 ∧ s.locals 1 = .ensured 4 ∧ s.locals 2 = .cleaned 0 := by
    decide +kernel
  have hapart : Along (toolStep referencePlatform) (Apart 3)
      (toolsStarted (fun _ => unboundPolicyMap) 3 10) tidiedTools := by
    have hothers (point : ToolPoint) (check : ToolPoint → Bool) (hpoint : check point = false)
        (hidle : check .idle = false) (n : ℕ) :
        check (Function.update (fun _ => ToolPoint.idle) 2 point n) = false := by
      by_cases hn : n = 2
      · rw [hn, Function.update_self, hpoint]
      · rw [Function.update_of_ne hn, hidle]
    have hlocals : (run (toolStep referencePlatform)
        (toolsStarted (fun _ => unboundPolicyMap) 3 10)
        [.act 2 (.cleanup false), .act 2 (.removePin false)]).locals =
        Function.update (fun _ => .idle) 2 (.cleaned 0) :=
      Function.update_idem ..
    refine along_append.mpr ⟨⟨⟨rfl, nofun, nofun⟩, ⟨trivial, nofun, fun _ n => ?_⟩, trivial⟩,
      along_append.mpr ⟨apart_of_noCleanup referencePlatform ?_ fun n => ?_, ?_⟩⟩
    · exact hothers .removing ToolPoint.holdsPin rfl rfl n
    · simp [racingTools, NoCleanup, PublishEnv.NonPos, workingHandOver, workingPublish]
    · rw [hlocals]
      exact hothers (.cleaned 0) ToolPoint.cleansUp rfl rfl n
    · exact ⟨⟨rfl, nofun, nofun⟩, ⟨⟨rfl, rfl, by decide +kernel⟩, nofun, nofun⟩, trivial⟩
  obtain ⟨hpinned, hagree, -⟩ := one_policy_authority referencePlatform (fun _ => unboundPolicyMap)
    3 10 tidiedTools hapart
  have hbound := hagree 1 4 (.inl hpoints.2.1)
  exact ⟨hpoints.1, hpoints.2.1, hpoints.2.2, hbound, (hpinned 4 hbound).1⟩

-- Cleaning up between the look-up and the hand-over leaves a bound map without a pin.
example :
    let s := toolsRun referencePlatform (fun _ => unboundPolicyMap) 3 10
      [.act 0 (.objGet false), .act 0 (.mapCreate false), .act 0 (.mapFreeze false),
        .act 0 (.objPin false), .act 0 (.getInfo false), .act 1 (.cleanup false),
        .act 1 (.readStatus workingPreserve), .act 1 (.removePin false),
        .act 0 (.handOver workingHandOver)]
    s.shared.kernel.policyMap = some 3 ∧ s.shared.pin = none := by
  decide +kernel

end BpfIma
