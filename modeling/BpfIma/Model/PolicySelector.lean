import Mathlib.Order.Defs.LinearOrder
import BpfIma.Model.Operator

/-! # The operator's policy selector

`policyselector`: which of the policies of a cluster applies to a node. Creation times and
label selectors are those of the Kubernetes libraries: any linear order, and any conversion
of a selector into a predicate on label sets, which may fail. -/

namespace BpfIma.Operator

/-- A policy as the API server lists it: what is encoded, and what it is selected by. -/
structure ListedPolicy (T L : Type*) extends V1alpha1.Policy where
  name : Bytes
  creationTimestamp : T
  selector : Option L
deriving DecidableEq

section Selection

variable {T L M E : Type*}

/-- A hook with all its switches on. -/
def measuringHook : V1alpha1.HookConfig := ⟨true, true, true, 0, 0⟩

/-- `defaultPolicy`, created at the zero time. -/
def defaultPolicy [Inhabited T] : ListedPolicy T L where
  name := "bpfima-default".ascii
  creationTimestamp := default
  selector := none
  spec :=
    { policy := ⟨true, 2, 0, 32⟩
      filters := ⟨false, false, false, false, false, false, false, false⟩
      actions := ⟨true, true, true, false, false, true, true⟩
      cgroupPatterns := [⟨"/".ascii, true, 0⟩, ⟨"init.scope".ascii, true, 0⟩]
      pathPatterns := [⟨"/proc/".ascii, true, 1⟩, ⟨"/sys/".ascii, true, 1⟩]
      hooks :=
        { lsmBprmCheckSecurity := some measuringHook
          lsmFileOpen := some measuringHook
          lsmFilePostOpen := some measuringHook
          lsmMmapFile := some measuringHook
          lsmSocketConnect := some measuringHook
          lsmContainerEvents := some measuringHook
          kprobeFileOpen := some ⟨false, false, false, 0, 0⟩
          lsmInodeSetattr := none } }

/-- `failed to convert LabelSelector for policy <name>`. -/
structure SelectorError (E : Type*) where
  name : Bytes
  error : E
deriving DecidableEq, Repr

variable [LinearOrder T]

/-- `policy` takes the place of the candidate `current`: it is newer, or as old and first in
alphabetic order. -/
def supersedes (policy : ListedPolicy T L) (current : Option (ListedPolicy T L)) : Bool :=
  match current with
  | none => true
  | some current =>
      decide (current.creationTimestamp < policy.creationTimestamp) ||
        (decide (policy.creationTimestamp = current.creationTimestamp) &&
          decide (policy.name < current.name))

-- the library's `LabelSelectorAsSelector`, with `Matches` of what it returns
variable (labelSelectorAsSelector : L → Except E (M → Bool)) (nodeLabel : M)

/-- The loop of `IdentifyCorrectPolicy`, with its two candidates. -/
def identifyFrom (genericPolicy specificPolicy : Option (ListedPolicy T L)) :
    List (ListedPolicy T L) →
      Except (SelectorError E) (Option (ListedPolicy T L) × Option (ListedPolicy T L))
  | [] => .ok (genericPolicy, specificPolicy)
  | policy :: policies =>
      match policy.selector with
      | none =>
          if supersedes policy genericPolicy then
            identifyFrom (some policy) specificPolicy policies
          else identifyFrom genericPolicy specificPolicy policies
      | some labelSelector =>
          match labelSelectorAsSelector labelSelector with
          | .error err => .error ⟨policy.name, err⟩
          | .ok selector =>
              if selector nodeLabel then
                if supersedes policy specificPolicy then
                  identifyFrom genericPolicy (some policy) policies
                else identifyFrom genericPolicy specificPolicy policies
              else identifyFrom genericPolicy specificPolicy policies

/-- `IdentifyCorrectPolicy`. -/
def identifyCorrectPolicy [Inhabited T] (policies : List (ListedPolicy T L)) :
    Except (SelectorError E) (ListedPolicy T L) :=
  (identifyFrom labelSelectorAsSelector nodeLabel none none policies).map fun candidates =>
    (candidates.2.or candidates.1).getD defaultPolicy

end Selection

end BpfIma.Operator
