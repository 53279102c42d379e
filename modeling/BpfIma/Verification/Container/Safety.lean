import BpfIma.Verification.Container.Effects

/-! # Safety of the container registry

One invariant carries the uniqueness of ids, the count of containers and the reference counts
through every interleaving of callers, and through teardown. -/

namespace BpfIma

open CString Errno Machine References

/-! ## The invariant -/

/-- The node that each caller has a reference to. -/
def references (S : RefSystem) (n : ℕ) : Option ℕ := (S.locals n).reference

/-- Every count is the number of its holders, plus one for the list. -/
def ContainerRefs.Tallied (s : ContainerRefs) (refs : ℕ → Option ℕ) : Prop :=
  Tallies {i | i < s.allocated} (fun i => (s.nodes i).refcnt) (fun i => s.owned.count i) refs

/-- The count of containers is one behind between publication and `atomic_inc`. -/
structure Counts (s : ContainerRefs) (locals : ℕ → RefPoint) : Prop where
  behind : ∀ n, (locals n).uncounted = true → s.containerList.length = s.containerCount + 1
  settled : (∀ n, (locals n).uncounted = false) → s.containerList.length = s.containerCount

/-- The log has all published nodes. -/
structure Logged (s : ContainerRefs) (log : List ℕ) : Prop where
  lt : ∀ i ∈ log, i < s.allocated
  owned : ∀ i ∈ s.owned, i ∈ log
  listed : s.cleanup = .notStarted → log = s.containerList

structure Sound (S : RefSystem) (log : List ℕ) : Prop where
  tally : S.shared.Tallied (references S)
  lists : S.shared.ListOk
  nodes : S.shared.NodesOk
  points : ∀ n, (S.locals n).Valid S.shared
  exclusive : ∀ m n, (S.locals m).creating = true → (S.locals n).creating = true → m = n
  counts : S.shared.cleanup = .notStarted → Counts S.shared S.locals
  logged : Logged S.shared log

theorem references_update (S : RefSystem) (t : ContainerRefs) (n : ℕ) (next : RefPoint) :
    references ⟨t, Function.update S.locals n next⟩ =
      Function.update (references S) n next.reference := by
  funext m
  by_cases hm : m = n
  · subst hm
    simp [references]
  · simp [references, hm]

namespace Sound

variable {S : RefSystem} {log : List ℕ} {n : ℕ} {point next : RefPoint} {t : ContainerRefs}

/-- What has a reference of the list's own is alive. -/
theorem alive (h : Sound S log) {i : ℕ} (hi : i ∈ S.shared.owned) :
    (S.shared.nodes i).refcnt ≠ 0 := by
  have hcount := h.tally.count i (h.lists.lt i hi)
  have hown : 0 < S.shared.owned.count i := List.count_pos_iff.mpr hi
  omega

/-- One creator at a time. -/
theorem alone (h : Sound S log) (hn : (S.locals n).creating = true) {m : ℕ} (hm : m ≠ n) :
    (S.locals m).creating = false := by
  by_contra hcreating
  rw [Bool.not_eq_false] at hcreating
  exact hm (h.exclusive m n hcreating hn)

/-- Without the mutex nobody creates. -/
theorem unlocked (h : Sound S log) (hmutex : S.shared.createMutex = false) (m : ℕ) :
    (S.locals m).creating = false := by
  by_contra hcreating
  rw [Bool.not_eq_false] at hcreating
  rw [(h.points m).createMutex hcreating] at hmutex
  cases hmutex

/-- Nobody but the creator has a node that is not counted yet. -/
theorem counted_of_creator (h : Sound S log) (hn : (S.locals n).creating = true) {m : ℕ}
    (hm : m ≠ n) : (S.locals m).uncounted = false := by
  by_contra huncounted
  rw [Bool.not_eq_false] at huncounted
  have hcreating := RefPoint.creating_of_uncounted huncounted
  rw [h.alone hn hm] at hcreating
  cases hcreating

/-- What a lookup finds among the published nodes, which are all alive. -/
theorem find (h : Sound S log) (id : Bytes) :
    (findContainerByIdRcu S.shared id = (none, S.shared) ∧ S.shared.Unlisted id) ∨
      ∃ i ∈ S.shared.containerList, cstr (S.shared.nodes i).id = id ∧
        findContainerByIdRcu S.shared id = (some i, refcountInc S.shared i) := by
  rcases findLoop_cases S.shared id S.shared.containerList with
    ⟨hnone, hdead⟩ | ⟨i, hi, hid, -, hfound⟩
  · exact .inl ⟨hnone, fun i hi hid => h.alive (List.mem_append_left _ hi) (hdead i hi hid)⟩
  · exact .inr ⟨i, hi, hid, hfound⟩

theorem exclusive_update (h : Sound S log)
    (hothers : next.creating = true → ∀ m ≠ n, (S.locals m).creating = false) (m k : ℕ)
    (hm : (Function.update S.locals n next m).creating = true)
    (hk : (Function.update S.locals n next k).creating = true) : m = k := by
  by_cases hmn : m = n <;> by_cases hkn : k = n
  · rw [hmn, hkn]
  · rw [hmn, Function.update_self] at hm
    rw [Function.update_of_ne hkn, hothers hm k hkn] at hk
    cases hk
  · rw [hkn, Function.update_self] at hk
    rw [Function.update_of_ne hmn, hothers hk m hmn] at hm
    cases hm
  · rw [Function.update_of_ne hmn] at hm
    rw [Function.update_of_ne hkn] at hk
    exact h.exclusive m k hm hk

/-! ### Sections that keep the list -/

theorem tally_unmoved (h : Sound S log) (href : next.reference = (S.locals n).reference) :
    S.shared.Tallied (Function.update (references S) n next.reference) := by
  have hsame : Function.update (references S) n next.reference = references S := by
    rw [href]
    exact Function.update_eq_self n (references S)
  rw [hsame]
  exact h.tally

/-- The frame of a section that leaves the list alone. -/
theorem frame (h : Sound S log) (hkeeps : Keeps S.shared t)
    (hcleanup : t.cleanup = S.shared.cleanup)
    (hmutex : t.createMutex = true ∨ t.createMutex = S.shared.createMutex ∨
      (S.locals n).creating = true)
    (hcreating : next.creating = true →
      (S.locals n).creating = true ∨ S.shared.createMutex = false)
    (hcounts : Counts S.shared S.locals → Counts t (Function.update S.locals n next))
    (hnext : next.Valid t) (hnodes : t.NodesOk)
    (htally : t.Tallied (Function.update (references S) n next.reference)) :
    Sound ⟨t, Function.update S.locals n next⟩ log := by
  refine ⟨?_, hkeeps.listOk h.lists, hnodes, ?_, h.exclusive_update ?_, ?_, ?_⟩
  · rw [references_update]
    exact htally
  · intro m
    by_cases hm : m = n
    · subst hm
      simpa using hnext
    · simp only [Function.update_of_ne hm]
      cases hc : (S.locals m).creating with
      | false => exact (h.points m).grow hkeeps.allocated hc
      | true =>
          refine hkeeps.valid h.lists (fun hlocked => ?_) (h.points m)
          rcases hmutex with hlock | hsame | hn
          · exact hlock
          · rw [hsame, hlocked]
          · rw [h.alone hn hm] at hc
            cases hc
  · intro hc m hm
    rcases hcreating hc with hn | hfree
    · exact h.alone hn hm
    · exact h.unlocked hfree m
  · exact fun hstart => hcounts (h.counts (hcleanup ▸ hstart))
  · refine ⟨fun i hi => (h.logged.lt i hi).trans_le hkeeps.allocated, ?_, ?_⟩
    · exact fun i hi => h.logged.owned i (hkeeps.owned.subset hi)
    · intro hstart
      rw [hkeeps.containerList]
      exact h.logged.listed (hcleanup ▸ hstart)

/-- The frame of a section that leaves the count of containers alone, too. -/
theorem keep (h : Sound S log) (hkeeps : Keeps S.shared t)
    (hcount : t.containerCount = S.shared.containerCount)
    (hcleanup : t.cleanup = S.shared.cleanup)
    (hmutex : t.createMutex = true ∨ t.createMutex = S.shared.createMutex ∨
      (S.locals n).creating = true)
    (hcreating : next.creating = true →
      (S.locals n).creating = true ∨ S.shared.createMutex = false)
    (hpoint : (S.locals n).uncounted = false) (huncounted : next.uncounted = false)
    (hnext : next.Valid t) (hnodes : t.NodesOk)
    (htally : t.Tallied (Function.update (references S) n next.reference)) :
    Sound ⟨t, Function.update S.locals n next⟩ log := by
  refine h.frame hkeeps hcleanup hmutex hcreating (fun hcounts => ?_) hnext hnodes htally
  -- `n` was not between publication and count, and is not now
  have hsame (m : ℕ) : (Function.update S.locals n next m).uncounted =
      (S.locals m).uncounted := by
    by_cases hm : m = n
    · subst hm
      rw [Function.update_self, hpoint, huncounted]
    · rw [Function.update_of_ne hm]
  constructor
  · intro m hm
    rw [hkeeps.containerList, hcount]
    exact hcounts.behind m (hsame m ▸ hm)
  · intro hm
    rw [hkeeps.containerList, hcount]
    exact hcounts.settled fun m => hsame m ▸ hm m

/-- The caller only moves on. -/
theorem stay (h : Sound S log) (hn : S.locals n = point)
    (href : next.reference = point.reference)
    (hcreating : next.creating = point.creating)
    (hpoint : point.uncounted = false) (huncounted : next.uncounted = false)
    (hnext : next.Valid S.shared) : Sound ⟨S.shared, Function.update S.locals n next⟩ log := by
  subst hn
  exact h.keep (.refl _) rfl rfl (.inr (.inl rfl)) (fun hc => .inl (hcreating ▸ hc)) hpoint
    huncounted hnext h.nodes (h.tally_unmoved href)

theorem acquire (h : Sound S log) (hn : S.locals n = point) {i : ℕ}
    (hi : i < S.shared.allocated) (hlive : (S.shared.nodes i).refcnt ≠ 0)
    (hnone : point.reference = none) (href : next.reference = some i)
    (hcreating : next.creating = point.creating)
    (hpoint : point.uncounted = false) (huncounted : next.uncounted = false)
    (hnext : next.Valid (refcountInc S.shared i)) :
    Sound ⟨refcountInc S.shared i, Function.update S.locals n next⟩ log := by
  subst hn
  refine h.keep (.refcountInc _ i) rfl rfl (.inr (.inl rfl)) (fun hc => .inl (hcreating ▸ hc))
    hpoint huncounted hnext (h.nodes.refcountInc hlive) ?_
  rw [href]
  refine Tallies.acquire h.tally hnone hi ?_ ?_
  · simp [refcountInc]
  · intro j hj
    simp [refcountInc, ContainerRefs.modify_of_ne _ _ hj]

/-- A lookup acquires what it finds. -/
theorem acquireListed (h : Sound S log) (hn : S.locals n = point) {i : ℕ}
    (hi : i ∈ S.shared.containerList) (hnone : point.reference = none)
    (href : next.reference = some i)
    (hcreating : next.creating = point.creating)
    (hpoint : point.uncounted = false) (huncounted : next.uncounted = false)
    (hnext : next.Valid (refcountInc S.shared i)) :
    Sound ⟨refcountInc S.shared i, Function.update S.locals n next⟩ log :=
  have howned : i ∈ S.shared.owned := List.mem_append_left _ hi
  h.acquire hn (h.lists.lt i howned) (h.alive howned) hnone href hcreating hpoint huncounted hnext

theorem refcnt_putContainer (s : ContainerRefs) (i : ℕ) :
    ((putContainer s i).nodes i).refcnt = (s.nodes i).refcnt - 1 := by
  rw [putContainer, ContainerRefs.modify_self]
  split
  · rename_i hlast
    rw [hlast]
  · rfl

/-- The caller puts its reference and returns. -/
theorem release (h : Sound S log) (hn : S.locals n = point) {i : ℕ} {ret : Ret}
    (href : point.reference = some i) (hpoint : point.uncounted = false) :
    Sound ⟨putContainer S.shared i, Function.update S.locals n (.returned ret)⟩ log := by
  subst hn
  have hlive : (S.shared.nodes i).refcnt ≠ 0 := h.tally.count_ne_zero href
  refine h.keep (.putContainer _ i) rfl rfl (.inr (.inl rfl)) (fun hc => by cases hc) hpoint rfl
    trivial (h.nodes.putContainer hlive) ?_
  refine Tallies.surrender h.tally href ?_ fun j hj => ⟨?_, rfl⟩
  · change ((putContainer S.shared i).nodes i).refcnt + S.shared.owned.count i + 1 =
      (S.shared.nodes i).refcnt + S.shared.owned.count i
    rw [refcnt_putContainer]
    omega
  · simp [putContainer, ContainerRefs.modify_of_ne _ _ hj]

/-! ### Creation -/

theorem lock (h : Sound S log) {call : ContainerCall} {id : Bytes}
    (hn : S.locals n = .missing call id) (hfree : S.shared.createMutex = false) :
    Sound ⟨{ S.shared with createMutex := true },
      Function.update S.locals n (.locked call id)⟩ log := by
  have hid : Storable id := by
    have hvalid := h.points n
    rwa [hn] at hvalid
  exact h.keep ⟨le_rfl, fun _ _ => rfl, rfl, .refl _⟩ rfl rfl (.inl rfl) (fun _ => .inr hfree)
    (by rw [hn]; rfl) rfl ⟨rfl, hid⟩ ⟨h.nodes.file, h.nodes.queued, h.nodes.freed⟩
    (h.tally_unmoved (by rw [hn]; rfl))

theorem unlock (h : Sound S log) (hn : S.locals n = point) (hcreating : point.creating = true)
    (hpoint : point.uncounted = false) (href : next.reference = point.reference)
    (hdone : next.creating = false) (huncounted : next.uncounted = false)
    (hnext : ∀ s, next.Valid s) :
    Sound ⟨{ S.shared with createMutex := false }, Function.update S.locals n next⟩ log := by
  subst hn
  refine h.keep ⟨le_rfl, fun _ _ => rfl, rfl, .refl _⟩ rfl rfl (.inr (.inr hcreating)) ?_ hpoint
    huncounted (hnext _) ⟨h.nodes.file, h.nodes.queued, h.nodes.freed⟩ (h.tally_unmoved href)
  intro hc
  rw [hdone] at hc
  cases hc

theorem allocate (h : Sound S log) {call : ContainerCall} {id : Bytes}
    (hn : S.locals n = .absent call id) :
    Sound ⟨{ S.shared with
        nodes := Function.update S.shared.nodes S.shared.allocated (newNode id)
        allocated := S.shared.allocated + 1 },
      Function.update S.locals n (.created call id S.shared.allocated)⟩ log := by
  obtain ⟨hlocked, hid, hunlisted⟩ : (RefPoint.absent call id).Valid S.shared := hn ▸ h.points n
  have hfresh : S.shared.allocated ∉ S.shared.owned :=
    fun hmem => lt_irrefl _ (h.lists.lt _ hmem)
  have hkeeps : Keeps S.shared { S.shared with
      nodes := Function.update S.shared.nodes S.shared.allocated (newNode id)
      allocated := S.shared.allocated + 1 } := by
    refine ⟨Nat.le_succ _, fun i hi => ?_, rfl, .refl _⟩
    simp [hi.ne]
  refine h.keep hkeeps rfl rfl (.inr (.inl rfl)) (fun _ => .inl (by rw [hn]; rfl))
    (by rw [hn]; rfl) rfl ?_ ?_ ?_
  · refine ⟨hlocked, Nat.lt_succ_self _, ?_, hkeeps.unlisted h.lists hunlisted, hfresh⟩
    simp [cstr_newNode hid]
  · -- the new node, and the others as before
    constructor
    all_goals
      intro i
      by_cases hi : i = S.shared.allocated
    · simp [hi]
    · simp only [Function.update_of_ne hi]
      exact fun hfile => (h.nodes.file i hfile).trans (Nat.lt_succ_self _)
    · simp [hi, newNode]
    · simp only [Function.update_of_ne hi]
      exact fun hlt => h.nodes.queued i (by omega)
    · simp [hi, newNode]
    · simp only [Function.update_of_ne hi]
      exact fun hlt => h.nodes.freed i (by omega)
  · refine Tallies.allocate h.tally (by rw [references, hn]; rfl) (by simp) ?_ ?_ ?_ ?_
    · intro i
      change i < S.shared.allocated + 1 ↔ i = S.shared.allocated ∨ i < S.shared.allocated
      omega
    · simp [newNode]
    · exact List.count_eq_zero.mpr hfresh
    · intro i hi
      simp [hi]

/-- The creator's reference becomes the list's. -/
theorem publish (h : Sound S log) {call : ContainerCall} {id : Bytes} {i : ℕ}
    (hn : S.locals n = .created call id i) :
    Sound ⟨{ S.shared with containerList := S.shared.containerList ++ [i] },
      Function.update S.locals n (.published call i)⟩ (log ++ [i]) := by
  obtain ⟨hlocked, hlt, hid, hunlisted, hnotMem⟩ : (RefPoint.created call id i).Valid S.shared :=
    hn ▸ h.points n
  have hcreating : (S.locals n).creating = true := by rw [hn]; rfl
  have howned : ({ S.shared with containerList := S.shared.containerList ++ [i] } :
      ContainerRefs).owned = S.shared.containerList ++ i :: S.shared.cleanup.pending := by
    simp [ContainerRefs.owned]
  have hperm : (S.shared.containerList ++ i :: S.shared.cleanup.pending).Perm
      (i :: S.shared.owned) := List.perm_middle
  refine ⟨?_, ⟨?_, ?_, ?_⟩, ⟨h.nodes.file, h.nodes.queued, h.nodes.freed⟩, ?_,
    h.exclusive_update fun _ m hm => h.alone hcreating hm, ?_, ⟨?_, ?_, ?_⟩⟩
  · rw [references_update]
    refine Tallies.surrender h.tally (by rw [references, hn]; rfl) ?_ fun j hj => ⟨rfl, ?_⟩
    · simp only [howned, hperm.count_eq, List.count_cons_self]
      omega
    · simp only [howned, hperm.count_eq, List.count_cons_of_ne hj.symm]
  · intro j hj
    rw [howned, hperm.mem_iff, List.mem_cons] at hj
    rcases hj with rfl | hj
    · exact hlt
    · exact h.lists.lt j hj
  · rw [howned, hperm.nodup_iff, List.nodup_cons]
    exact ⟨hnotMem, h.lists.nodup⟩
  · -- no published node had the id
    intro j hj k hk heq
    simp only [List.mem_append, List.mem_singleton] at hj hk
    rcases hj with hj | rfl <;> rcases hk with hk | rfl
    · exact h.lists.unique j hj k hk heq
    · exact absurd (heq.trans hid) (hunlisted j hj)
    · exact absurd (heq.symm.trans hid) (hunlisted k hk)
    · rfl
  · intro m
    by_cases hm : m = n
    · subst hm
      simp only [Function.update_self]
      exact ⟨hlocked, List.mem_append_right _ List.mem_cons_self⟩
    · simp only [Function.update_of_ne hm]
      refine (h.points m).grow ?_ (h.alone hcreating hm)
      exact le_rfl
  · intro hstart
    have hsettled := (h.counts hstart).settled fun m => by
      by_cases hm : m = n
      · rw [hm, hn]
        rfl
      · exact h.counted_of_creator hcreating hm
    constructor
    · intro m _
      simp [hsettled]
    · intro hall
      have hself := hall n
      simp [RefPoint.uncounted] at hself
  · intro j hj
    rcases List.mem_append.mp hj with hj | hj
    · exact h.logged.lt j hj
    · rwa [List.mem_singleton.mp hj]
  · intro j hj
    rw [howned, hperm.mem_iff, List.mem_cons] at hj
    rcases hj with rfl | hj
    · simp
    · exact List.mem_append_left _ (h.logged.owned j hj)
  · intro hstart
    rw [h.logged.listed hstart]

theorem countInc (h : Sound S log) {call : ContainerCall} {i : ℕ}
    (hn : S.locals n = .published call i) :
    Sound ⟨{ S.shared with containerCount := S.shared.containerCount + 1 },
      Function.update S.locals n (.counted call i)⟩ log := by
  have hvalid : (RefPoint.published call i).Valid S.shared := hn ▸ h.points n
  have hcreating : (S.locals n).creating = true := by rw [hn]; rfl
  refine h.frame ⟨le_rfl, fun _ _ => rfl, rfl, .refl _⟩ rfl (.inr (.inl rfl))
    (fun _ => .inl hcreating) (fun hcounts => ?_) hvalid
    ⟨h.nodes.file, h.nodes.queued, h.nodes.freed⟩ (h.tally_unmoved (by rw [hn]; rfl))
  have hbehind := hcounts.behind n (by rw [hn]; rfl)
  constructor
  · intro m hm
    by_cases hmn : m = n
    · rw [hmn, Function.update_self] at hm
      cases hm
    · rw [Function.update_of_ne hmn, h.counted_of_creator hcreating hmn] at hm
      cases hm
  · exact fun _ => hbehind

/-! ### Teardown -/

theorem splice (h : Sound S log) (hstart : S.shared.cleanup = .notStarted)
    (hfree : S.shared.createMutex = false) :
    Sound ⟨{ S.shared with containerList := [], cleanup := .walking S.shared.containerList },
      S.locals⟩ log := by
  have howned : ({ S.shared with
      containerList := [], cleanup := .walking S.shared.containerList } : ContainerRefs).owned =
      S.shared.owned := by
    simp [ContainerRefs.owned, Cleanup.pending, hstart]
  refine ⟨?_, ⟨?_, ?_, ?_⟩, ⟨h.nodes.file, h.nodes.queued, h.nodes.freed⟩, ?_, h.exclusive, ?_,
    ⟨h.logged.lt, ?_, ?_⟩⟩
  · refine ⟨h.tally.finite, h.tally.mem, ?_⟩
    rw [howned]
    exact h.tally.count
  · rw [howned]
    exact h.lists.lt
  · rw [howned]
    exact h.lists.nodup
  · intro i hi
    cases hi
  · intro m
    refine (h.points m).grow ?_ (h.unlocked hfree m)
    exact le_rfl
  · intro hcleanup
    cases hcleanup
  · rw [howned]
    exact h.logged.owned
  · intro hcleanup
    cases hcleanup

/-- Teardown after the splice leaves the list and its mutex alone. -/
theorem tear (h : Sound S log) (hkeeps : Keeps S.shared t)
    (hmutex : t.createMutex = S.shared.createMutex) (hcleanup : t.cleanup ≠ .notStarted)
    (hnodes : t.NodesOk) (htally : t.Tallied (references S)) : Sound ⟨t, S.locals⟩ log := by
  refine ⟨htally, hkeeps.listOk h.lists, hnodes, ?_, h.exclusive, fun hc => absurd hc hcleanup,
    ⟨?_, ?_, fun hc => absurd hc hcleanup⟩⟩
  · exact fun m => hkeeps.valid h.lists (fun hlocked => hmutex.trans hlocked) (h.points m)
  · exact fun i hi => (h.logged.lt i hi).trans_le hkeeps.allocated
  · exact fun i hi => h.logged.owned i (hkeeps.owned.subset hi)

theorem detach (h : Sound S log) {i : ℕ} {tempList : List ℕ}
    (hwalking : S.shared.cleanup = .walking (i :: tempList)) :
    Sound ⟨{ S.shared.modify i fun node => { node with file := false } with
      cleanup := .detached i tempList }, S.locals⟩ log := by
  have howned : ({ S.shared.modify i fun node => { node with file := false } with
      cleanup := .detached i tempList } : ContainerRefs).owned = S.shared.owned := by
    simp [ContainerRefs.owned, ContainerRefs.modify, Cleanup.pending, hwalking]
  have hids := Keeps.modify S.shared i (f := fun node => { node with file := false }) fun _ => rfl
  have hnodes := h.nodes.modify i (f := fun node => { node with file := false })
    (fun hfile => by cases hfile) (h.nodes.queued i) rfl
  refine h.tear ⟨hids.allocated, hids.ids, rfl, ?_⟩ rfl (by simp)
    ⟨hnodes.file, hnodes.queued, hnodes.freed⟩ ⟨h.tally.finite, h.tally.mem, ?_⟩
  · rw [howned]
  · intro j hj
    rw [howned]
    have hcount := h.tally.count j hj
    by_cases hji : j = i
    · subst hji
      simpa using hcount
    · simpa [ContainerRefs.modify_of_ne _ _ hji] using hcount

/-- Teardown drops the list's own reference. -/
theorem putDetached (h : Sound S log) {i : ℕ} {tempList : List ℕ}
    (hdetached : S.shared.cleanup = .detached i tempList) :
    Sound ⟨{ putContainer S.shared i with cleanup := .walking tempList }, S.locals⟩ log := by
  have hbefore : S.shared.owned = S.shared.containerList ++ i :: tempList := by
    simp [ContainerRefs.owned, Cleanup.pending, hdetached]
  have howned : ({ putContainer S.shared i with cleanup := .walking tempList } :
      ContainerRefs).owned = S.shared.containerList ++ tempList := rfl
  have hi : i ∈ S.shared.owned := by
    rw [hbefore]
    exact List.mem_append_right _ List.mem_cons_self
  have hlive := h.alive hi
  have hids := Keeps.putContainer S.shared i
  have hnodes := h.nodes.putContainer hlive
  refine h.tear ⟨hids.allocated, hids.ids, rfl, ?_⟩ rfl (by simp)
    ⟨hnodes.file, hnodes.queued, hnodes.freed⟩ ?_
  · rw [howned, hbefore]
    exact (List.Sublist.refl _).append (List.sublist_cons_self i tempList)
  · refine Tallies.dropOwn (x := i) h.tally ?_ fun j hj => ⟨?_, ?_⟩
    · have hcount : S.shared.owned.count i =
          (S.shared.containerList ++ tempList).count i + 1 := by
        rw [hbefore, List.perm_middle.count_eq, List.count_cons_self]
      change ((putContainer S.shared i).nodes i).refcnt + S.shared.owned.count i =
        (S.shared.nodes i).refcnt + (S.shared.containerList ++ tempList).count i
      rw [refcnt_putContainer, hcount]
      omega
    · change ((putContainer S.shared i).nodes j).refcnt = (S.shared.nodes j).refcnt
      rw [putContainer, ContainerRefs.modify_of_ne _ _ hj]
    · change (S.shared.containerList ++ tempList).count j = S.shared.owned.count j
      rw [hbefore, List.perm_middle.count_eq, List.count_cons_of_ne hj.symm]

theorem finish (h : Sound S log) (hwalking : S.shared.cleanup = .walking []) :
    Sound ⟨{ S.shared with containerCount := 0, cleanup := .finished }, S.locals⟩ log := by
  have howned : ({ S.shared with containerCount := 0, cleanup := .finished } :
      ContainerRefs).owned = S.shared.owned := by
    simp [ContainerRefs.owned, Cleanup.pending, hwalking]
  refine h.tear ⟨le_rfl, fun _ _ => rfl, rfl, ?_⟩ rfl (by simp)
    ⟨h.nodes.file, h.nodes.queued, h.nodes.freed⟩ ⟨h.tally.finite, h.tally.mem, ?_⟩
  · rw [howned]
  · rw [howned]
    exact h.tally.count

theorem teardown (h : Sound S log) (action : CleanupAction)
    (hadmitted : action = .splice → S.shared.createMutex = false) :
    Sound ⟨cleanupAction S.shared action, S.locals⟩ log := by
  unfold cleanupAction
  split
  · rename_i hstart
    exact h.splice hstart (hadmitted rfl)
  · rename_i hwalking
    exact h.detach hwalking
  · rename_i hdetached
    exact h.putDetached hdetached
  · rename_i hwalking
    exact h.finish hwalking
  · exact h

end Sound

/-! ## Runs -/

/-- The node that a caller publishes as it moves on. -/
def publishedBy : RefPoint → RefPoint → Option ℕ
  | .created _ _ i, .published .. => some i
  | _, _ => none

def publication (s : ContainerRefs) (point : RefPoint) (action : RefAction) : Option ℕ :=
  publishedBy point (refAction s point action).1

namespace Sound

variable {S : RefSystem} {log : List ℕ} {n : ℕ} {point next : RefPoint} {t : ContainerRefs}

/-- Nothing is published. -/
theorem silent (hnone : publishedBy point next = none) (h : Sound S log) :
    Sound S (log ++ (publishedBy point next).toList) := by
  rw [hnone, Option.toList_none, List.append_nil]
  exact h

theorem create (h : Sound S log) {call : ContainerCall} {id : Bytes}
    (hn : S.locals n = .absent call id) (env : CreateEnv)
    (hstep : createSecurityfs env call id S.shared = (next, t)) :
    Sound ⟨t, Function.update S.locals n next⟩
      (log ++ (publishedBy (.absent call id) next).toList) := by
  have hvalid : (RefPoint.absent call id).Valid S.shared := hn ▸ h.points n
  unfold createSecurityfs at hstep
  split at hstep
  · obtain ⟨rfl, rfl⟩ := Prod.mk.inj hstep
    exact silent rfl (h.stay hn rfl rfl rfl rfl hvalid.1)
  · split at hstep
    · obtain ⟨rfl, rfl⟩ := Prod.mk.inj hstep
      exact silent rfl (h.stay hn rfl rfl rfl rfl hvalid.1)
    · split at hstep
      · split at hstep
        · obtain ⟨rfl, rfl⟩ := Prod.mk.inj hstep
          exact silent rfl (h.stay hn rfl rfl rfl rfl ⟨hvalid.1, hvalid.2.1⟩)
        · obtain ⟨rfl, rfl⟩ := Prod.mk.inj hstep
          exact silent rfl (h.stay hn rfl rfl rfl rfl hvalid.1)
      · obtain ⟨rfl, rfl⟩ := Prod.mk.inj hstep
        exact silent rfl (h.allocate hn)

/-- Every section of a caller. -/
theorem act (h : Sound S log) (hn : S.locals n = point) {action : RefAction}
    (hstep : refAction S.shared point action = (next, t)) :
    Sound ⟨t, Function.update S.locals n next⟩ (log ++ (publishedBy point next).toList) := by
  have hvalid : point.Valid S.shared := hn ▸ h.points n
  unfold refAction at hstep
  split at hstep
  -- a call begins
  iterate 2
    split at hstep
    · obtain ⟨rfl, rfl⟩ := Prod.mk.inj hstep
      exact silent rfl (h.stay hn rfl rfl rfl rfl trivial)
    · rename_i hid
      obtain ⟨rfl, rfl⟩ := Prod.mk.inj hstep
      exact silent rfl (h.stay hn rfl rfl rfl rfl (ContainerCall.enter_ok hid))
  iterate 2
    obtain ⟨rfl, rfl⟩ := Prod.mk.inj hstep
    exact silent rfl (h.stay hn rfl rfl rfl rfl trivial)
  · rename_i call id
    rcases h.find id with ⟨hfind, -⟩ | ⟨i, hi, -, hfind⟩
    · simp only [hfind] at hstep
      split at hstep
      · obtain ⟨rfl, rfl⟩ := Prod.mk.inj hstep
        exact silent rfl (h.stay hn rfl rfl rfl rfl trivial)
      · obtain ⟨rfl, rfl⟩ := Prod.mk.inj hstep
        exact silent rfl (h.stay hn rfl rfl rfl rfl hvalid)
    · simp only [hfind] at hstep
      obtain ⟨rfl, rfl⟩ := Prod.mk.inj hstep
      exact silent rfl (h.acquireListed hn hi rfl rfl rfl rfl rfl trivial)
  -- creation
  · split at hstep
    · obtain ⟨rfl, rfl⟩ := Prod.mk.inj hstep
      exact silent rfl (h.stay hn rfl rfl rfl rfl hvalid)
    · rename_i hfree
      obtain ⟨rfl, rfl⟩ := Prod.mk.inj hstep
      exact silent rfl (h.lock hn (Bool.eq_false_of_not_eq_true hfree))
  · rename_i call id
    rcases h.find id with ⟨hfind, hunlisted⟩ | ⟨i, hi, -, hfind⟩
    · simp only [hfind] at hstep
      obtain ⟨rfl, rfl⟩ := Prod.mk.inj hstep
      exact silent rfl (h.stay hn rfl rfl rfl rfl ⟨hvalid.1, hvalid.2, hunlisted⟩)
    · simp only [hfind] at hstep
      obtain ⟨rfl, rfl⟩ := Prod.mk.inj hstep
      exact silent rfl (h.acquireListed hn hi rfl rfl rfl rfl rfl hvalid.1)
  · exact h.create hn _ hstep
  · rename_i call id
    rcases h.find id with ⟨hfind, -⟩ | ⟨i, hi, -, hfind⟩
    · simp only [hfind] at hstep
      obtain ⟨rfl, rfl⟩ := Prod.mk.inj hstep
      exact silent rfl (h.stay hn rfl rfl rfl rfl hvalid.1)
    · simp only [hfind] at hstep
      obtain ⟨rfl, rfl⟩ := Prod.mk.inj hstep
      exact silent rfl (h.acquireListed hn hi rfl rfl rfl rfl rfl hvalid.1)
  · rename_i call id i
    rcases h.find id with ⟨hfind, -⟩ | ⟨j, hj, hid, -⟩
    · simp only [publishContainer, hfind] at hstep
      obtain ⟨rfl, rfl⟩ := Prod.mk.inj hstep
      exact h.publish hn
    · -- the mutex rules out a lost race
      exact absurd hid (hvalid.2.2.2.1 j hj)
  · obtain ⟨rfl, rfl⟩ := Prod.mk.inj hstep
    exact silent rfl (h.countInc hn)
  · obtain ⟨rfl, rfl⟩ := Prod.mk.inj hstep
    exact silent rfl (h.acquireListed hn hvalid.2 rfl rfl rfl rfl rfl hvalid.1)
  iterate 2
    obtain ⟨rfl, rfl⟩ := Prod.mk.inj hstep
    exact silent rfl (h.unlock hn rfl rfl rfl rfl rfl fun _ => trivial)
  · obtain ⟨rfl, rfl⟩ := Prod.mk.inj hstep
    exact silent rfl (h.release hn rfl rfl)
  -- the measurements file
  iterate 2
    split at hstep
    · rename_i hfile
      obtain ⟨rfl, rfl⟩ := Prod.mk.inj hstep
      exact silent rfl (h.stay hn rfl rfl rfl rfl (h.nodes.file _ hfile))
    · obtain ⟨rfl, rfl⟩ := Prod.mk.inj hstep
      exact silent rfl (h.stay hn rfl rfl rfl rfl trivial)
  · rename_i i
    by_cases hdead : (S.shared.nodes i).refcnt = 0
    · simp only [getContainer, if_pos hdead] at hstep
      obtain ⟨rfl, rfl⟩ := Prod.mk.inj hstep
      exact silent rfl (h.stay hn rfl rfl rfl rfl trivial)
    · simp only [getContainer, if_neg hdead] at hstep
      obtain ⟨rfl, rfl⟩ := Prod.mk.inj hstep
      exact silent rfl (h.acquire hn hvalid hdead rfl rfl rfl rfl rfl trivial)
  · split at hstep
    · obtain ⟨rfl, rfl⟩ := Prod.mk.inj hstep
      exact silent rfl (h.stay hn rfl rfl rfl rfl trivial)
    · obtain ⟨rfl, rfl⟩ := Prod.mk.inj hstep
      exact silent rfl (h.release hn rfl rfl)
  · obtain ⟨rfl, rfl⟩ := Prod.mk.inj hstep
    exact silent rfl (h.release hn rfl rfl)
  -- out of turn
  · obtain ⟨rfl, rfl⟩ := Prod.mk.inj hstep
    have hsame : (⟨S.shared, Function.update S.locals n point⟩ : RefSystem) = S := by
      rw [← hn, Function.update_eq_self]
    rw [hsame]
    exact silent (by cases point <;> rfl) h

theorem step (h : Sound S log) (op : RefOp) (hop : RefOp.admitted S op) :
    Sound (refStep S op).2 (log ++ (Threads.emitted publication S op).toList) := by
  cases op with
  | act n action => exact h.act rfl rfl
  | other action =>
      have hnext := h.teardown action fun hsplice => hop (hsplice ▸ rfl)
      simpa [refStep, Threads.step, Threads.emitted] using hnext

theorem loaded : Sound refLoaded [] where
  tally := by
    refine ⟨?_, (fun hn => by cases hn), (fun i hi => by cases hi)⟩
    have hempty : {n | references refLoaded n ≠ none} = ∅ :=
      Set.eq_empty_of_forall_notMem fun n hn => hn rfl
    rw [hempty]
    exact Set.finite_empty
  lists := ⟨(fun i hi => by cases hi), List.nodup_nil, (fun i hi => by cases hi)⟩
  nodes := ⟨(fun i hi => by cases hi), (fun i hi => by cases hi), (fun i hi => by cases hi)⟩
  points := fun _ => trivial
  exclusive := fun m n hm => by cases hm
  counts := fun _ => ⟨(fun n hn => by cases hn), fun _ => rfl⟩
  logged := ⟨(fun i hi => by cases hi), (fun i hi => by cases hi), fun _ => rfl⟩

/-- Every run keeps the invariant. -/
theorem of_run {ops : List RefOp} (hops : Along refStep RefOp.admitted refLoaded ops) :
    Sound (run refStep refLoaded ops)
      (collect refStep (Threads.emitted publication) refLoaded ops) :=
  run_collect (P := Sound) (fun _ op _ hop h => h.step op hop) hops loaded

end Sound

/-! ## Safety -/

/-- The node that a caller uses, with a reference of its own or as the creator of a published
one. -/
def RefPoint.node : RefPoint → Option ℕ
  | .published _ i | .counted _ i => some i
  | point => point.reference

/-- What holds of the registry when the nodes in `log` have been published. Until teardown puts
it, a published node has a reference of the list's own. -/
structure RegistrySafe (S : RefSystem) (log : List ℕ) : Prop where
  nodup : S.shared.containerList.Nodup
  unique : ∀ i ∈ S.shared.containerList, ∀ j ∈ S.shared.containerList,
    cstr (S.shared.nodes i).id = cstr (S.shared.nodes j).id → i = j
  count : S.shared.createMutex = false → S.shared.cleanup = .notStarted →
    S.shared.containerCount = S.shared.containerList.length
  listed : S.shared.cleanup = .notStarted → log = S.shared.containerList
  refcnt : ∀ i ∈ log, (S.shared.nodes i).refcnt =
    held (references S) i + if i ∈ S.shared.owned then 1 else 0
  alive : ∀ n i, (S.locals n).node = some i →
    (S.shared.nodes i).queued = 0 ∧ (S.shared.nodes i).freed = false
  queued : ∀ i ∈ log, (S.shared.nodes i).queued =
    if i ∈ S.shared.owned ∨ held (references S) i ≠ 0 then 0 else 1

namespace Sound

variable {S : RefSystem} {log : List ℕ}

theorem refcnt_eq (h : Sound S log) {i : ℕ} (hi : i < S.shared.allocated) :
    (S.shared.nodes i).refcnt =
      held (references S) i + if i ∈ S.shared.owned then 1 else 0 := by
  have hcount := h.tally.count i hi
  rwa [h.lists.nodup.count] at hcount

theorem node_alive (h : Sound S log) {n i : ℕ} (hnode : (S.locals n).node = some i) :
    i < S.shared.allocated ∧ (S.shared.nodes i).refcnt ≠ 0 := by
  have hvalid := h.points n
  have hcounted (href : references S n = some i) :
      i < S.shared.allocated ∧ (S.shared.nodes i).refcnt ≠ 0 :=
    ⟨h.tally.mem href, h.tally.count_ne_zero href⟩
  rw [references] at hcounted
  generalize S.locals n = point at hnode hvalid hcounted
  cases point with
  | published | counted =>
      obtain rfl := Option.some.inj hnode
      have howned := List.mem_append_left S.shared.cleanup.pending hvalid.2
      exact ⟨h.lists.lt _ howned, h.alive howned⟩
  | _ => exact hcounted hnode

theorem safe (h : Sound S log) : RegistrySafe S log where
  nodup := h.lists.nodup.of_append_left
  unique := h.lists.unique
  count := by
    intro hfree hstart
    refine ((h.counts hstart).settled fun n => ?_).symm
    by_contra huncounted
    rw [Bool.not_eq_false] at huncounted
    have hcreating := RefPoint.creating_of_uncounted huncounted
    rw [h.unlocked hfree n] at hcreating
    cases hcreating
  listed := h.logged.listed
  refcnt := fun i hi => h.refcnt_eq (h.logged.lt i hi)
  alive := by
    intro n i hnode
    obtain ⟨hi, hlive⟩ := h.node_alive hnode
    rw [h.nodes.queued i hi, if_neg hlive]
    exact ⟨rfl, h.nodes.freed i hi⟩
  queued := by
    intro i hi
    have hlt := h.logged.lt i hi
    have hcount := h.refcnt_eq hlt
    rw [h.nodes.queued i hlt]
    by_cases howned : i ∈ S.shared.owned
    · rw [if_pos howned] at hcount
      rw [if_neg (by omega), if_pos (.inl howned)]
    · rw [if_neg howned, Nat.add_zero] at hcount
      by_cases hheld : held (references S) i = 0
      · rw [if_pos (hcount.trans hheld), if_neg (not_or.mpr ⟨howned, not_not.mpr hheld⟩)]
      · rw [if_neg (hcount ▸ hheld), if_pos (.inr hheld)]

end Sound

/-- The registry is safe in every interleaving of callers, of processes with measurements files
and of a teardown that starts when no creation is in progress. -/
theorem container_registry_safe (ops : List RefOp)
    (hops : Along refStep RefOp.admitted refLoaded ops) :
    RegistrySafe (run refStep refLoaded ops)
      (collect refStep (Threads.emitted publication) refLoaded ops) :=
  (Sound.of_run hops).safe

/-- Two callers create the same container, while a process opens its file before it is published;
teardown comes before the file is closed. -/
def racingOps : List RefOp :=
  [.act 0 (.enter (.getOrCreate (some ("web".ascii ++ [0])))),
    .act 1 (.enter (.getOrCreate (some ("web".ascii ++ [0])))),
    .act 0 .findContainerById, .act 1 .findContainerById, .act 0 .mutexLock, .act 1 .mutexLock,
    .act 0 .findContainerById, .act 0 (.createSecurityfs workingCreate), .act 2 (.resolveFile 0),
    .act 2 .getContainer, .act 0 .publish, .act 2 (.seqOpen 0), .act 0 .countInc,
    .act 0 .refcountInc, .act 0 .mutexUnlock, .act 1 .mutexLock, .act 1 .findContainerById,
    .act 0 (.put 0), .act 1 .mutexUnlock, .other .splice, .other .detach, .other .put,
    .act 1 (.put 0), .other .finish]

theorem container_registry_safe_racingOps :
    collect refStep (Threads.emitted publication) refLoaded racingOps = [0] ∧
      held (references (run refStep refLoaded racingOps)) 0 = 1 ∧
      ((run refStep refLoaded (racingOps ++ [.act 2 .release])).shared.nodes 0).queued = 1 := by
  have hlog : collect refStep (Threads.emitted publication) refLoaded racingOps = [0] := by
    decide +kernel
  have hcount := (container_registry_safe racingOps (by decide +kernel)).refcnt 0
    (hlog ▸ List.mem_singleton_self 0)
  have hrefcnt : ((run refStep refLoaded racingOps).shared.nodes 0).refcnt = 1 := by
    decide +kernel
  rw [hrefcnt, if_neg (by decide +kernel)] at hcount
  refine ⟨hlog, hcount.symm, ?_⟩
  decide +kernel

end BpfIma
