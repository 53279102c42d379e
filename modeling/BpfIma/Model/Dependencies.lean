import BpfIma.Library.CString
import BpfIma.Model.Base

/-! # The dependency string

`build_dependencies` of `utils/utils.h`: the name of a measured file and the names of the
ancestors of the process, in one buffer. Every access to the buffer is checked: `none` is a
write outside of it. -/

namespace BpfIma

open CString Errno

/-- `DEPS_BUF_SIZE`. -/
abbrev depsBufSize : ℕ := 128

/-- The tasks of the kernel, by address: a pointer that is `NULL` or cannot be read is `none`,
a name that cannot be read is empty. -/
structure TaskTable (τ : Type) where
  realParent : τ → Option τ
  comm : τ → Bytes

/-- `bpf_probe_read_kernel_str(&deps[offset], size, src)`. The helper may write all of the
memory that it is given: it clears it on a fault. -/
def probeReadStr {n : ℕ} (fault : Bool) (deps : Buffer n) (offset size : ℕ) (src : Bytes) :
    Option (Ret × Buffer n) :=
  if n < offset + size then none
  else if fault then (store deps offset (List.replicate size 0)).map fun deps => (-efault, deps)
  else
    (store deps offset (src.take (size - 1) ++ [0])).map fun deps =>
      (min (src.length + 1) size, deps)

/-- `bpf_loop` with the callback `step`, which goes on as long as it returns zero: the number of
calls, and the context after them. -/
def bpfLoop {σ : Type} (step : σ → Option (ℕ × σ)) : ℕ → σ → Option (ℤ × σ)
  | 0, ctx => some (0, ctx)
  | nrLoops + 1, ctx =>
      match step ctx with
      | none => none
      | some (ret, ctx) =>
          if ret ≠ 0 then some (1, ctx)
          else (bpfLoop step nrLoops ctx).map fun result => (result.1 + 1, result.2)

section Build

variable {τ : Type} {n : ℕ}

/-- `struct deps_loop_ctx`. -/
structure DepsLoopCtx (τ : Type) (n : ℕ) where
  deps : Buffer n
  depsActual : ℕ
  depsMax : ℕ
  ancestor : Option τ

variable (tasks : TaskTable τ)

/-- `append_parent_comm`: the next offset, the buffer, and `next_out`. -/
def appendParentComm (deps : Buffer n) (depsActual depsMax : ℕ) (ancestor : Option τ) :
    Option (ℤ × Buffer n × Option τ) :=
  match ancestor with
  | none => some (-1, deps, none)
  | some ancestor =>
      let next := tasks.realParent ancestor
      if depsActual ≥ depsMax - 16 ∨ depsActual ≥ depsBufSize - 16 then
        some (depsActual, deps, next)
      else do
        let (ret, deps) ← probeReadStr false deps depsActual 16 (tasks.comm ancestor)
        if ret > 1 then
          let depsActual := depsActual + (ret - 1).toNat
          if depsActual < depsMax ∨ depsActual < depsBufSize then
            let deps ← store deps depsActual ":".ascii
            return (depsActual + 1, deps, next)
          else return (depsActual, deps, next)
        else return (depsActual, deps, next)

/-- `build_deps_cb`. -/
def buildDepsCb [DecidableEq τ] (ctx : DepsLoopCtx τ n) : Option (ℕ × DepsLoopCtx τ n) :=
  if ctx.depsActual ≥ ctx.depsMax ∨ ctx.depsActual ≥ depsBufSize then some (1, ctx)
  else do
    let (nextDeps, deps, next) ←
      appendParentComm tasks ctx.deps ctx.depsActual ctx.depsMax ctx.ancestor
    let ctx := { ctx with deps := deps }
    if nextDeps < 0 then return (1, ctx)
    else
      let ctx := { ctx with depsActual := nextDeps.toNat }
      if next = none ∨ next = ctx.ancestor then return (1, ctx)
      else return (0, { ctx with ancestor := next })

/-- The name of the file at the start of the buffer, or `unknown`. -/
def initialDependency (fault : Bool) (deps : Buffer n) (depsMax : ℕ)
    (initialName : Option Bytes) : Option (ℕ × Buffer n) := do
  let (depsActual, deps) ← match initialName with
    | none => pure (0, deps)
    | some name => do
        let (ret, deps) ← probeReadStr fault deps 0 depsMax name
        if ret > 1 then
          let depsActual := (ret - 1).toNat
          if depsActual < depsMax then
            let deps ← store deps depsActual ":".ascii
            pure (depsActual + 1, deps)
          else pure (depsActual, deps)
        else pure (0, deps)
  if depsActual = 0 then
    let (_, deps) ← probeReadStr false deps 0 depsMax "unknown:".ascii
    return (8, deps)
  else return (depsActual, deps)

/-- `build_dependencies` for a current task that may be `NULL`. -/
def buildDependencies [DecidableEq τ] (fault : Bool) (deps : Buffer n) (depsMax : ℕ)
    (initialName : Option Bytes) (currentTask : Option τ) (maxDepth : UInt32) :
    Option (Ret × Buffer n) := do
  let (depsActual, deps) ← initialDependency fault deps depsMax initialName
  let ancestor := currentTask.bind tasks.realParent
  let maxDepth := if maxDepth > 32 then 32 else maxDepth
  let (loopRet, ctx) ←
    bpfLoop (buildDepsCb tasks) maxDepth.toNat ⟨deps, depsActual, depsMax, ancestor⟩
  if loopRet < 0 then return (-1, ctx.deps)
  else if ctx.depsActual > 0 ∧ ctx.depsActual ≤ depsMax then
    let deps ← store ctx.deps (ctx.depsActual - 1) [0]
    return ((ctx.depsActual - 1 : ℕ), deps)
  else return (ctx.depsActual, ctx.deps)

end Build

end BpfIma
