import Mathlib.Data.List.MinMax
import Mathlib.Data.Prod.Lex
import BpfIma.Model.PolicySelector

/-! # Policy selection does not depend on list order

The two candidates of the selection loop are the greatest elements of the policies that
match and of those without a selector, in the order of creation times and then of names,
backwards. Distinct names make them unique. -/

namespace BpfIma.Operator

/-- Byte strings in lexicographic order, as Go compares them. -/
instance instLinearOrderBytes : LinearOrder Bytes where
  le_refl := Std.le_refl
  le_trans _ _ _ := Std.le_trans
  lt_iff_le_not_ge _ _ := Std.lt_iff_le_and_not_ge
  le_antisymm _ _ := Std.le_antisymm
  le_total _ _ := Std.le_total
  toDecidableLE := inferInstance
  toDecidableLT := inferInstance
  compare a b := compareOfLessAndEq a b
  compare_eq_compareOfLessAndEq _ _ := rfl

section Selection

variable {T L M E : Type*}

/-! ## Candidates -/

section Candidates

variable (labelSelectorAsSelector : L → Except E (M → Bool)) (nodeLabel : M)

/-- The policy has a selector, and the library refuses it. -/
def ListedPolicy.Invalid (policy : ListedPolicy T L) : Prop :=
  ∃ labelSelector ∈ policy.selector, ∃ err, labelSelectorAsSelector labelSelector = .error err

/-- The policy has a selector, and it matches the labels of the node. -/
def ListedPolicy.matchesNode (policy : ListedPolicy T L) : Bool :=
  match policy.selector with
  | none => false
  | some labelSelector =>
      match labelSelectorAsSelector labelSelector with
      | .error _ => false
      | .ok selector => selector nodeLabel

/-- The policy applies to all nodes. -/
def ListedPolicy.isGeneric (policy : ListedPolicy T L) : Bool := policy.selector.isNone

end Candidates

variable [LinearOrder T]

/-- The later of two policies is preferred and, among equals, the one with the least name. -/
def ListedPolicy.rank (policy : ListedPolicy T L) : T ×ₗ Bytesᵒᵈ :=
  toLex (policy.creationTimestamp, OrderDual.toDual policy.name)

theorem supersedes_some {policy current : ListedPolicy T L} :
    supersedes policy (some current) = true ↔ current.rank < policy.rank := by
  rw [ListedPolicy.rank, ListedPolicy.rank, Prod.Lex.lt_iff, supersedes]
  simp only [Bool.or_eq_true, Bool.and_eq_true, decide_eq_true_eq, ofLex_toLex,
    OrderDual.toDual_lt_toDual]
  rw [eq_comm (a := policy.creationTimestamp)]

/-- One candidate of the loop, after a policy that can take its place. -/
def prefer (current : Option (ListedPolicy T L)) (policy : ListedPolicy T L) :
    Option (ListedPolicy T L) :=
  if supersedes policy current then some policy else current

theorem foldl_prefer (policies : List (ListedPolicy T L)) :
    policies.foldl prefer none = policies.argmax ListedPolicy.rank := by
  have hstep : (prefer : Option (ListedPolicy T L) → _ → _) =
      List.argAux fun policy current => current.rank < policy.rank := by
    funext current policy
    cases current with
    | none => rfl
    | some current =>
        simp only [prefer, List.argAux]
        exact if_congr supersedes_some rfl rfl
  rw [hstep]
  rfl

section Loop

variable {labelSelectorAsSelector : L → Except E (M → Bool)} {nodeLabel : M}

/-! One round of the loop, for each kind of policy. -/

theorem identifyFrom_generic {policy : ListedPolicy T L} (hselector : policy.selector = none)
    (genericPolicy specificPolicy : Option (ListedPolicy T L))
    (policies : List (ListedPolicy T L)) :
    identifyFrom labelSelectorAsSelector nodeLabel genericPolicy specificPolicy
        (policy :: policies) =
      identifyFrom labelSelectorAsSelector nodeLabel (prefer genericPolicy policy) specificPolicy
        policies := by
  simp only [identifyFrom, hselector, prefer]
  split <;> rfl

theorem identifyFrom_specific {policy : ListedPolicy T L} {labelSelector : L} {selector : M → Bool}
    (hselector : policy.selector = some labelSelector)
    (hconverted : labelSelectorAsSelector labelSelector = .ok selector)
    (genericPolicy specificPolicy : Option (ListedPolicy T L))
    (policies : List (ListedPolicy T L)) :
    identifyFrom labelSelectorAsSelector nodeLabel genericPolicy specificPolicy
        (policy :: policies) =
      identifyFrom labelSelectorAsSelector nodeLabel genericPolicy
        (if selector nodeLabel then prefer specificPolicy policy else specificPolicy) policies := by
  simp only [identifyFrom, hselector, hconverted, prefer]
  split
  · split <;> rfl
  · rfl

theorem identifyFrom_refused {policy : ListedPolicy T L} {labelSelector : L} {err : E}
    (hselector : policy.selector = some labelSelector)
    (hconverted : labelSelectorAsSelector labelSelector = .error err)
    (genericPolicy specificPolicy : Option (ListedPolicy T L))
    (policies : List (ListedPolicy T L)) :
    identifyFrom labelSelectorAsSelector nodeLabel genericPolicy specificPolicy
        (policy :: policies) = .error ⟨policy.name, err⟩ := by
  simp only [identifyFrom, hselector, hconverted]

/-- With valid selectors the loop reaches the end of the list, and its candidates are folds
over the policies of their kind. -/
theorem identifyFrom_of_valid {policies : List (ListedPolicy T L)}
    (hvalid : ∀ policy ∈ policies, ¬ policy.Invalid labelSelectorAsSelector)
    (genericPolicy specificPolicy : Option (ListedPolicy T L)) :
    identifyFrom labelSelectorAsSelector nodeLabel genericPolicy specificPolicy policies =
      .ok ((policies.filter ListedPolicy.isGeneric).foldl prefer genericPolicy,
        (policies.filter (ListedPolicy.matchesNode labelSelectorAsSelector nodeLabel)).foldl prefer
          specificPolicy) := by
  induction policies generalizing genericPolicy specificPolicy with
  | nil => rfl
  | cons policy policies ih =>
      obtain ⟨hpolicy, hpolicies⟩ := List.forall_mem_cons.mp hvalid
      specialize ih hpolicies
      cases hselector : policy.selector with
      | none =>
          rw [identifyFrom_generic hselector, ih]
          simp [ListedPolicy.isGeneric, ListedPolicy.matchesNode, hselector]
      | some labelSelector =>
          cases hconverted : labelSelectorAsSelector labelSelector with
          | error err => exact absurd ⟨labelSelector, hselector, err, hconverted⟩ hpolicy
          | ok selector =>
              rw [identifyFrom_specific hselector hconverted, ih]
              by_cases hnode : selector nodeLabel = true <;>
                simp [ListedPolicy.isGeneric, ListedPolicy.matchesNode, hselector, hconverted,
                  hnode]

/-- An invalid selector stops the loop. -/
theorem identifyFrom_of_invalid {policies : List (ListedPolicy T L)}
    (hinvalid : ∃ policy ∈ policies, policy.Invalid labelSelectorAsSelector)
    (genericPolicy specificPolicy : Option (ListedPolicy T L)) :
    ∃ err, identifyFrom labelSelectorAsSelector nodeLabel genericPolicy specificPolicy policies =
      .error err := by
  induction policies generalizing genericPolicy specificPolicy with
  | nil => simp at hinvalid
  | cons policy policies ih =>
      rw [List.exists_mem_cons_iff] at hinvalid
      cases hselector : policy.selector with
      | none =>
          rw [identifyFrom_generic hselector]
          apply ih
          exact hinvalid.resolve_left (by simp [ListedPolicy.Invalid, hselector])
      | some labelSelector =>
          cases hconverted : labelSelectorAsSelector labelSelector with
          | error err => exact ⟨_, identifyFrom_refused hselector hconverted _ _ _⟩
          | ok selector =>
              rw [identifyFrom_specific hselector hconverted]
              apply ih
              exact hinvalid.resolve_left (by simp [ListedPolicy.Invalid, hselector, hconverted])

end Loop

/-! ## The order of the list -/

/-- The greatest element is the same in every order if no two elements are equally great. -/
theorem argmax_eq_of_perm {α β : Type*} [LinearOrder β] {f : α → β} {xs ys : List α}
    (hperm : xs.Perm ys) (hinj : ∀ x ∈ xs, ∀ y ∈ xs, f x = f y → x = y) :
    xs.argmax f = ys.argmax f := by
  cases hx : xs.argmax f with
  | none =>
      rw [List.argmax_eq_none] at hx
      subst hx
      rw [hperm.nil_eq.symm]
      rfl
  | some x =>
      cases hy : ys.argmax f with
      | none =>
          rw [List.argmax_eq_none] at hy
          subst hy
          rw [hperm.eq_nil] at hx
          cases hx
      | some y =>
          have hxmem := List.argmax_mem hx
          have hymem := hperm.mem_iff.mpr (List.argmax_mem hy)
          have hle := List.le_of_mem_argmax (hperm.mem_iff.mp hxmem) hy
          have hge := List.le_of_mem_argmax hymem hx
          rw [hinj x hxmem y hymem (le_antisymm hle hge)]

/-- The policy that the rule prefers among the candidates of a list. -/
structure Preferred (candidate : ListedPolicy T L → Bool) (policies : List (ListedPolicy T L))
    (chosen : ListedPolicy T L) : Prop where
  mem : chosen ∈ policies
  isCandidate : candidate chosen = true
  latest : ∀ policy ∈ policies, candidate policy = true →
    policy.creationTimestamp ≤ chosen.creationTimestamp
  least : ∀ policy ∈ policies, candidate policy = true →
    policy.creationTimestamp = chosen.creationTimestamp → chosen.name ≤ policy.name

theorem preferred_of_argmax {candidate : ListedPolicy T L → Bool}
    {policies : List (ListedPolicy T L)} {chosen : ListedPolicy T L}
    (h : (policies.filter candidate).argmax ListedPolicy.rank = some chosen) :
    Preferred candidate policies chosen := by
  obtain ⟨hmem, hcandidate⟩ := List.mem_filter.mp (List.argmax_mem h)
  have hrank : ∀ policy ∈ policies, candidate policy = true →
      policy.creationTimestamp < chosen.creationTimestamp ∨
        policy.creationTimestamp = chosen.creationTimestamp ∧ chosen.name ≤ policy.name := by
    intro policy hpolicy hp
    have hle := List.le_of_mem_argmax (List.mem_filter.mpr ⟨hpolicy, hp⟩) h
    rwa [ListedPolicy.rank, ListedPolicy.rank, Prod.Lex.le_iff] at hle
  refine ⟨hmem, hcandidate, fun policy hpolicy hp => ?_, fun policy hpolicy hp heq => ?_⟩
  · rcases hrank policy hpolicy hp with hlt | ⟨heq, -⟩
    · exact hlt.le
    · exact heq.le
  · rcases hrank policy hpolicy hp with hlt | ⟨-, hname⟩
    · exact absurd heq hlt.ne
    · exact hname

/-- Without a greatest element there is no candidate. -/
theorem no_candidate_of_argmax {candidate : ListedPolicy T L → Bool}
    {policies : List (ListedPolicy T L)}
    (h : (policies.filter candidate).argmax ListedPolicy.rank = none) :
    ∀ policy ∈ policies, candidate policy = false := by
  rw [List.argmax_eq_none, List.filter_eq_nil_iff] at h
  intro policy hpolicy
  exact Bool.eq_false_iff.mpr (h policy hpolicy)

/-- What the selector is for: a policy that matches the node, else one for all nodes, else
the default. -/
inductive Selected [Inhabited T] (labelSelectorAsSelector : L → Except E (M → Bool))
    (nodeLabel : M) (policies : List (ListedPolicy T L)) (chosen : ListedPolicy T L) : Prop where
  | specific
      (h : Preferred (ListedPolicy.matchesNode labelSelectorAsSelector nodeLabel) policies chosen)
  | generic
      (hspecific : ∀ policy ∈ policies,
        policy.matchesNode labelSelectorAsSelector nodeLabel = false)
      (h : Preferred ListedPolicy.isGeneric policies chosen)
  | fallback
      (hspecific : ∀ policy ∈ policies,
        policy.matchesNode labelSelectorAsSelector nodeLabel = false)
      (hgeneric : ∀ policy ∈ policies, policy.isGeneric = false) (h : chosen = defaultPolicy)

variable [Inhabited T] {labelSelectorAsSelector : L → Except E (M → Bool)} {nodeLabel : M}

theorem identifyCorrectPolicy_of_valid {policies : List (ListedPolicy T L)}
    (hvalid : ∀ policy ∈ policies, ¬ policy.Invalid labelSelectorAsSelector) :
    identifyCorrectPolicy labelSelectorAsSelector nodeLabel policies =
      .ok ((((policies.filter (ListedPolicy.matchesNode labelSelectorAsSelector nodeLabel)).argmax
        ListedPolicy.rank).or ((policies.filter ListedPolicy.isGeneric).argmax
          ListedPolicy.rank)).getD defaultPolicy) := by
  rw [identifyCorrectPolicy, identifyFrom_of_valid hvalid, foldl_prefer, foldl_prefer]
  rfl

theorem identifyCorrectPolicy_selected {policies : List (ListedPolicy T L)}
    {chosen : ListedPolicy T L}
    (hvalid : ∀ policy ∈ policies, ¬ policy.Invalid labelSelectorAsSelector)
    (h : identifyCorrectPolicy labelSelectorAsSelector nodeLabel policies = .ok chosen) :
    Selected labelSelectorAsSelector nodeLabel policies chosen := by
  rw [identifyCorrectPolicy_of_valid hvalid] at h
  obtain rfl := Except.ok.inj h
  cases hspecific : (policies.filter
      (ListedPolicy.matchesNode labelSelectorAsSelector nodeLabel)).argmax ListedPolicy.rank with
  | some policy => exact .specific (preferred_of_argmax hspecific)
  | none =>
      cases hgeneric : (policies.filter ListedPolicy.isGeneric).argmax ListedPolicy.rank with
      | some policy =>
          exact .generic (no_candidate_of_argmax hspecific) (preferred_of_argmax hgeneric)
      | none =>
          exact .fallback (no_candidate_of_argmax hspecific) (no_candidate_of_argmax hgeneric) rfl

theorem identifyCorrectPolicy_perm {policies policies' : List (ListedPolicy T L)}
    (hnames : (policies.map ListedPolicy.name).Nodup)
    (hvalid : ∀ policy ∈ policies, ¬ policy.Invalid labelSelectorAsSelector)
    (hperm : policies'.Perm policies) :
    identifyCorrectPolicy labelSelectorAsSelector nodeLabel policies' =
      identifyCorrectPolicy labelSelectorAsSelector nodeLabel policies := by
  have hrank : ∀ p ∈ policies, ∀ q ∈ policies, p.rank = q.rank → p = q := by
    intro p hp q hq heq
    have hname : p.name = q.name :=
      congrArg (fun rank : T ×ₗ Bytesᵒᵈ => (ofLex rank).2) heq
    exact List.inj_on_of_nodup_map hnames hp hq hname
  have hargmax : ∀ candidate : ListedPolicy T L → Bool,
      (policies'.filter candidate).argmax ListedPolicy.rank =
        (policies.filter candidate).argmax ListedPolicy.rank := by
    intro candidate
    refine (argmax_eq_of_perm (hperm.filter candidate).symm fun p hp q hq => ?_).symm
    exact hrank p (List.mem_filter.mp hp).1 q (List.mem_filter.mp hq).1
  rw [identifyCorrectPolicy_of_valid hvalid,
    identifyCorrectPolicy_of_valid fun p hp => hvalid p (hperm.mem_iff.mp hp), hargmax, hargmax]

variable (labelSelectorAsSelector nodeLabel)

/-- Policy selection does not depend on list order: with distinct names and valid selectors
every order selects the policy that the rule asks for, and with an invalid selector every
order fails. -/
theorem identifyCorrectPolicy_order_free (policies : List (ListedPolicy T L))
    (hnames : (policies.map ListedPolicy.name).Nodup) :
    ((∀ policy ∈ policies, ¬ policy.Invalid labelSelectorAsSelector) →
      ∃ chosen, Selected labelSelectorAsSelector nodeLabel policies chosen ∧
        ∀ policies', policies'.Perm policies →
          identifyCorrectPolicy labelSelectorAsSelector nodeLabel policies' = .ok chosen) ∧
    ((∃ policy ∈ policies, policy.Invalid labelSelectorAsSelector) →
      ∀ policies', policies'.Perm policies →
        ∃ err, identifyCorrectPolicy labelSelectorAsSelector nodeLabel policies' = .error err) := by
  constructor
  · intro hvalid
    have hok : identifyCorrectPolicy labelSelectorAsSelector nodeLabel policies = .ok _ :=
      identifyCorrectPolicy_of_valid hvalid
    refine ⟨_, identifyCorrectPolicy_selected hvalid hok, fun policies' hperm => ?_⟩
    rw [identifyCorrectPolicy_perm hnames hvalid hperm]
    exact hok
  · rintro ⟨policy, hmem, hinvalid⟩ policies' hperm
    have hmem' : policy ∈ policies' := hperm.mem_iff.mpr hmem
    obtain ⟨err, herr⟩ : ∃ err,
        identifyFrom labelSelectorAsSelector nodeLabel none none policies' = .error err :=
      identifyFrom_of_invalid ⟨policy, hmem', hinvalid⟩ none none
    refine ⟨err, ?_⟩
    rw [identifyCorrectPolicy, herr]
    rfl

/-- Labels are colours; a selector names one. -/
def colourSelector (colour : ℕ) : Except String (ℕ → Bool) :=
  if colour = 0 then .error "no colour" else .ok fun nodeColour => nodeColour == colour

def colouredPolicy (name : String) (creationTimestamp : ℕ) (selector : Option ℕ) :
    ListedPolicy ℕ ℕ :=
  { (defaultPolicy : ListedPolicy ℕ ℕ) with
    name := name.ascii, creationTimestamp := creationTimestamp, selector := selector }

/-- Two policies of one age match; the generic one is newer. -/
def colouredPolicies : List (ListedPolicy ℕ ℕ) :=
  [colouredPolicy "beta" 5 (some 1), colouredPolicy "alpha" 5 (some 1),
    colouredPolicy "all" 9 none, colouredPolicy "other" 7 (some 2)]

theorem identifyCorrectPolicy_order_free_coloured :
    (colouredPolicies.map ListedPolicy.name).Nodup ∧
      ∀ policies', policies'.Perm colouredPolicies →
        identifyCorrectPolicy colourSelector 1 policies' =
          .ok (colouredPolicy "alpha" 5 (some 1)) := by
  have hnames : (colouredPolicies.map ListedPolicy.name).Nodup := by decide
  have hvalid : ∀ policy ∈ colouredPolicies, ¬ policy.Invalid colourSelector := by
    intro policy hpolicy
    simp only [colouredPolicies, List.mem_cons, List.not_mem_nil, or_false] at hpolicy
    rcases hpolicy with rfl | rfl | rfl | rfl <;>
      simp [ListedPolicy.Invalid, colouredPolicy, colourSelector]
  obtain ⟨chosen, -, hchosen⟩ :=
    (identifyCorrectPolicy_order_free colourSelector 1 colouredPolicies hnames).1 hvalid
  have hlisted : identifyCorrectPolicy colourSelector 1 colouredPolicies =
      .ok (colouredPolicy "alpha" 5 (some 1)) := by rfl
  rw [hchosen colouredPolicies (.refl _)] at hlisted
  obtain rfl := Except.ok.inj hlisted
  exact ⟨hnames, hchosen⟩

end Selection

end BpfIma.Operator
