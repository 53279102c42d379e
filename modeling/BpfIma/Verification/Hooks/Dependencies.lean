import Mathlib.Order.Bounds.Basic
import BpfIma.Model.Dependencies
import BpfIma.Model.Verifier

/-! # Dependency strings

The loop over the ancestors keeps a text followed by a separator at the start of the buffer;
the last separator becomes the terminator. What is written that way the verifier reads back. -/

namespace BpfIma

open CString Errno Text

/-! ## Ancestors -/

/-- The tasks above a pointer, to one without parent or that is its own parent. -/
inductive TaskTable.Ancestors {τ : Type} (tasks : TaskTable τ) : Option τ → List τ → Prop where
  | nil : Ancestors tasks none []
  | root {task : τ} (h : tasks.realParent task = some task) : Ancestors tasks (some task) [task]
  | cons {task : τ} {rest : List τ} (h : tasks.realParent task ≠ some task)
      (hrest : Ancestors tasks (tasks.realParent task) rest) :
      Ancestors tasks (some task) (task :: rest)

/-- A name and the names of its ancestors, as they are written. -/
def dependencyText (name : Bytes) (ancestors : List Bytes) : Bytes :=
  name ++ ancestors.flatMap fun ancestor => dependencySeparator :: ancestor

theorem dependencyText_cons (name ancestor : Bytes) (ancestors : List Bytes) :
    dependencyText name (ancestor :: ancestors) =
      dependencyText (name ++ dependencySeparator :: ancestor) ancestors := by
  simp [dependencyText]

/-- The offset from which on no name is added. -/
def appendLimit : ℕ := depsBufSize - 16

/-- How many names the loop adds to a text within the given rounds. -/
def appended : ℕ → Bytes → List Bytes → ℕ
  | 0, _, _ => 0
  | _ + 1, _, [] => 0
  | rounds + 1, text, name :: names =>
      if text.length + 1 < appendLimit then
        appended rounds (text ++ dependencySeparator :: name) names + 1
      else 0

theorem appended_of_full {text : Bytes} (h : appendLimit ≤ text.length + 1) (rounds : ℕ)
    (names : List Bytes) : appended rounds text names = 0 := by
  cases rounds with
  | zero => rfl
  | succ rounds =>
      cases names with
      | nil => rfl
      | cons name names => exact if_neg (Nat.not_lt.mpr h)

/-- That is the largest number of names of which each starts before the limit. -/
theorem isGreatest_appended (rounds : ℕ) (text : Bytes) (names : List Bytes) :
    IsGreatest {j | j ≤ rounds ∧ j ≤ names.length ∧
      ∀ i < j, (dependencyText text (names.take i)).length + 1 < appendLimit}
      (appended rounds text names) := by
  induction rounds generalizing text names with
  | zero => exact ⟨⟨le_rfl, Nat.zero_le _, fun i hi => absurd hi (Nat.not_lt_zero i)⟩,
      fun j hj => hj.1⟩
  | succ rounds ih =>
      cases names with
      | nil => exact ⟨⟨Nat.zero_le _, le_rfl, fun i hi => absurd hi (Nat.not_lt_zero i)⟩,
          fun j hj => hj.2.1⟩
      | cons name names =>
          by_cases hroom : text.length + 1 < appendLimit
          · rw [appended, if_pos hroom]
            obtain ⟨⟨hrounds, hnames, hstart⟩, hgreatest⟩ :=
              ih (text ++ dependencySeparator :: name) names
            refine ⟨⟨by omega, by simpa using hnames, fun i hi => ?_⟩, fun j hj => ?_⟩
            · cases i with
              | zero => simpa [dependencyText] using hroom
              | succ i =>
                  rw [List.take_succ_cons, dependencyText_cons]
                  exact hstart i (by omega)
            · cases j with
              | zero => exact Nat.zero_le _
              | succ j =>
                  obtain ⟨hjrounds, hjnames, hjstart⟩ := hj
                  refine Nat.succ_le_succ (hgreatest ⟨by omega, by simpa using hjnames, ?_⟩)
                  intro i hi
                  have hnext := hjstart (i + 1) (by omega)
                  rwa [List.take_succ_cons, dependencyText_cons] at hnext
          · rw [appended, if_neg hroom]
            refine ⟨⟨Nat.zero_le _, Nat.zero_le _, fun i hi => absurd hi (Nat.not_lt_zero i)⟩,
              fun j hj => ?_⟩
            by_contra hpos
            have hfirst := hj.2.2 0 (by omega)
            simp [dependencyText] at hfirst
            exact hroom hfirst

/-! ## The buffer -/

theorem separator_ascii : ":".ascii = [dependencySeparator] := by decide

theorem exists_probeReadStr {n : ℕ} {deps : Buffer n} {text : Bytes} (htext : text <+: deps.toList)
    {size : ℕ} (hsize : 0 < size) (hroom : text.length + size ≤ n) (src : Bytes) :
    ∃ out : Buffer n, probeReadStr false deps text.length size src =
        some (min (src.length + 1 : ℤ) size, out) ∧
      text ++ src.take (size - 1) <+: out.toList := by
  have hwritten : (src.take (size - 1) ++ [0]).length ≤ size := by
    simp
    omega
  obtain ⟨out, hstore, hout⟩ : ∃ out, store deps text.length (src.take (size - 1) ++ [0]) =
      some out ∧ text ++ (src.take (size - 1) ++ [0]) <+: out.toList :=
    exists_store htext (by omega)
  refine ⟨out, ?_, ?_⟩
  · rw [probeReadStr, if_neg (by omega), if_neg (by simp), hstore]
    rfl
  · exact ((List.prefix_append_right_inj text).mpr (List.prefix_append _ _)).trans hout

section Build

variable {τ : Type} {tasks : TaskTable τ}

/-- The names of tasks are C strings of up to fifteen bytes. -/
structure TaskTable.Named (tasks : TaskTable τ) (task : τ) : Prop where
  nonempty : tasks.comm task ≠ []
  fits : (tasks.comm task).length ≤ 15
  noNul : 0 ∉ tasks.comm task

/-- The text and a separator stand at the start of the buffer. -/
structure DepsLoopCtx.Holding (ctx : DepsLoopCtx τ depsBufSize) (text : Bytes) : Prop where
  depsMax : ctx.depsMax = depsBufSize
  depsActual : ctx.depsActual = text.length + 1
  written : text ++ [dependencySeparator] <+: ctx.deps.toList

theorem DepsLoopCtx.Holding.length_lt {ctx : DepsLoopCtx τ depsBufSize} {text : Bytes}
    (h : ctx.Holding text) : text.length < depsBufSize := by
  have hle := h.written.length_le
  rw [List.length_append, List.Vector.toList_length] at hle
  exact hle

/-- A name of up to fifteen bytes is added with its separator. -/
theorem appendParentComm_appends {deps : Buffer depsBufSize} {text : Bytes} {task : τ}
    (hwritten : text ++ [dependencySeparator] <+: deps.toList)
    (hroom : text.length + 1 < appendLimit) (hnamed : tasks.Named task) :
    ∃ out : Buffer depsBufSize,
      appendParentComm tasks deps (text.length + 1) depsBufSize (some task) =
        some (((text ++ dependencySeparator :: tasks.comm task).length : ℤ) + 1, out,
          tasks.realParent task) ∧
      text ++ dependencySeparator :: tasks.comm task ++ [dependencySeparator] <+: out.toList := by
  have hlimit : appendLimit = 112 := rfl
  have hbuf : depsBufSize = 128 := rfl
  have hfits := hnamed.fits
  have hpos := List.length_pos_iff.mpr hnamed.nonempty
  have hsize : (text ++ [dependencySeparator]).length = text.length + 1 := by simp
  have htake : (tasks.comm task).take (16 - 1) = tasks.comm task :=
    List.take_of_length_le (by omega)
  -- the name replaces nothing, and the separator replaces the terminator of the name
  obtain ⟨mid, hread, hmid⟩ :=
    exists_probeReadStr hwritten (show 0 < 16 by decide) (by omega) (tasks.comm task)
  rw [htake] at hmid
  rw [hsize] at hread
  have hnext : (text ++ [dependencySeparator] ++ tasks.comm task).length =
      text.length + 1 + (tasks.comm task).length := by rw [List.length_append, hsize]
  obtain ⟨out, hstore, hout⟩ : ∃ out, store mid (text ++ [dependencySeparator] ++
      tasks.comm task).length ":".ascii = some out ∧
      text ++ [dependencySeparator] ++ tasks.comm task ++ ":".ascii <+: out.toList :=
    exists_store hmid (by
      rw [hnext, separator_ascii, List.length_singleton]
      omega)
  rw [hnext] at hstore
  have hret : min ((tasks.comm task).length + 1 : ℤ) (16 : ℕ) = (tasks.comm task).length + 1 := by
    omega
  have hoffset : ((tasks.comm task).length + 1 - 1 : ℤ).toNat = (tasks.comm task).length := by
    omega
  refine ⟨out, ?_, ?_⟩
  · have hlow : ¬ (text.length + 1 ≥ depsBufSize - 16 ∨ text.length + 1 ≥ depsBufSize - 16) := by
      omega
    have hinside : text.length + 1 + (tasks.comm task).length < depsBufSize ∨
        text.length + 1 + (tasks.comm task).length < depsBufSize := by omega
    simp only [appendParentComm, if_neg hlow, hread, hret, Option.bind_eq_bind, Option.bind_some]
    have hlong : ((tasks.comm task).length + 1 : ℤ) > 1 := by omega
    have hlength : (text ++ dependencySeparator :: tasks.comm task).length =
        text.length + 1 + (tasks.comm task).length := by
      rw [List.length_append, List.length_cons]
      omega
    rw [if_pos hlong, hoffset, if_pos hinside, hstore, hlength]
    rfl
  · rw [separator_ascii] at hout
    simpa using hout

/-- The text after a round: near the end of the buffer a round only climbs. -/
def nextText (text name : Bytes) : Bytes :=
  if text.length + 1 < appendLimit then text ++ dependencySeparator :: name else text

theorem appendParentComm_round {deps : Buffer depsBufSize} {text : Bytes} {task : τ}
    (hwritten : text ++ [dependencySeparator] <+: deps.toList) (hnamed : tasks.Named task) :
    ∃ out : Buffer depsBufSize,
      appendParentComm tasks deps (text.length + 1) depsBufSize (some task) =
        some (((nextText text (tasks.comm task)).length : ℤ) + 1, out, tasks.realParent task) ∧
      nextText text (tasks.comm task) ++ [dependencySeparator] <+: out.toList := by
  unfold nextText
  by_cases hroom : text.length + 1 < appendLimit
  · rw [if_pos hroom]
    exact appendParentComm_appends hwritten hroom hnamed
  · rw [if_neg hroom]
    have hskip : text.length + 1 ≥ depsBufSize - 16 ∨ text.length + 1 ≥ depsBufSize - 16 :=
      .inl (Nat.not_lt.mp hroom)
    refine ⟨deps, ?_, hwritten⟩
    simp only [appendParentComm, if_pos hskip]
    rfl

/-! ## The loop -/

section Loop

variable [DecidableEq τ]

/-- One round with room in the buffer: what it adds to the text, and whether it is the last. -/
theorem buildDepsCb_round {ctx : DepsLoopCtx τ depsBufSize} {text : Bytes} {task : τ}
    (h : ctx.Holding text) (hroom : text.length + 1 < depsBufSize)
    (hancestor : ctx.ancestor = some task) (hnamed : tasks.Named task) :
    ∃ next : DepsLoopCtx τ depsBufSize, next.Holding (nextText text (tasks.comm task)) ∧
      if tasks.realParent task = none ∨ tasks.realParent task = some task then
        buildDepsCb tasks ctx = some (1, next)
      else
        buildDepsCb tasks ctx = some (0, next) ∧ next.ancestor = tasks.realParent task := by
  obtain ⟨out, happend, hout⟩ := appendParentComm_round h.written hnamed
  have hinside : ¬ (ctx.depsActual ≥ ctx.depsMax ∨ ctx.depsActual ≥ depsBufSize) := by
    rw [h.depsActual, h.depsMax]
    omega
  have hcall : appendParentComm tasks ctx.deps ctx.depsActual ctx.depsMax ctx.ancestor =
      some (((nextText text (tasks.comm task)).length : ℤ) + 1, out, tasks.realParent task) := by
    rw [h.depsActual, h.depsMax, hancestor]
    exact happend
  have hsign : ¬ (((nextText text (tasks.comm task)).length : ℤ) + 1 < 0) := by omega
  have hactual : (((nextText text (tasks.comm task)).length : ℤ) + 1).toNat =
      (nextText text (tasks.comm task)).length + 1 := by omega
  have hcb : buildDepsCb tasks ctx = if tasks.realParent task = none ∨
        tasks.realParent task = some task then
      some (1, ⟨out, (nextText text (tasks.comm task)).length + 1, ctx.depsMax, some task⟩)
    else
      some (0, ⟨out, (nextText text (tasks.comm task)).length + 1, ctx.depsMax,
        tasks.realParent task⟩) := by
    simp only [buildDepsCb, if_neg hinside, hcall, Option.bind_eq_bind, Option.bind_some,
      if_neg hsign, hactual]
    simp only [hancestor]
    rfl
  by_cases hlast : tasks.realParent task = none ∨ tasks.realParent task = some task
  · rw [if_pos hlast] at hcb
    refine ⟨⟨out, _, ctx.depsMax, some task⟩, ⟨h.depsMax, rfl, hout⟩, ?_⟩
    rw [if_pos hlast]
    exact hcb
  · rw [if_neg hlast] at hcb
    refine ⟨⟨out, _, ctx.depsMax, tasks.realParent task⟩, ⟨h.depsMax, rfl, hout⟩, ?_⟩
    rw [if_neg hlast]
    exact ⟨hcb, rfl⟩

theorem dependencyText_nextText (rounds : ℕ) (text name : Bytes) (names : List Bytes) :
    dependencyText (nextText text name)
        (names.take (appended rounds (nextText text name) names)) =
      dependencyText text ((name :: names).take (appended (rounds + 1) text (name :: names))) := by
  unfold nextText
  by_cases hroom : text.length + 1 < appendLimit
  · rw [if_pos hroom, appended, if_pos hroom, List.take_succ_cons, dependencyText_cons]
  · have hfull := appended_of_full (Nat.not_lt.mp hroom)
    rw [if_neg hroom, hfull, hfull]
    rfl

/-- The loop leaves the text with the names that it can add. -/
theorem bpfLoop_appended {ctx : DepsLoopCtx τ depsBufSize} {text : Bytes} {ancestors : List τ}
    (h : ctx.Holding text) (hancestors : tasks.Ancestors ctx.ancestor ancestors)
    (hnamed : ∀ task ∈ ancestors, tasks.Named task) (rounds : ℕ) :
    ∃ calls final, bpfLoop (buildDepsCb tasks) rounds ctx = some (calls, final) ∧ 0 ≤ calls ∧
      final.Holding (dependencyText text ((ancestors.map tasks.comm).take
        (appended rounds text (ancestors.map tasks.comm)))) := by
  induction rounds generalizing ctx text ancestors with
  | zero => exact ⟨0, ctx, rfl, le_rfl, by simpa [appended, dependencyText] using h⟩
  | succ rounds ih =>
      by_cases hroom : text.length + 1 < depsBufSize
      · generalize hpointer : ctx.ancestor = pointer at hancestors
        cases hancestors with
        | nil =>
            -- the callback stops at a `NULL` pointer
            have hinside : ¬ (ctx.depsActual ≥ ctx.depsMax ∨ ctx.depsActual ≥ depsBufSize) := by
              rw [h.depsActual, h.depsMax]
              omega
            have hcall : appendParentComm tasks ctx.deps ctx.depsActual ctx.depsMax ctx.ancestor =
                some (-1, ctx.deps, none) := by
              rw [hpointer]
              rfl
            refine ⟨1, ctx, ?_, by decide, by simpa [appended, dependencyText] using h⟩
            simp [bpfLoop, buildDepsCb, hinside, hcall]
        | root hself =>
            obtain ⟨next, hnext, hround⟩ :=
              buildDepsCb_round h hroom hpointer (hnamed _ List.mem_cons_self)
            rw [if_pos (.inr hself)] at hround
            refine ⟨1, next, by simp [bpfLoop, hround], by decide, ?_⟩
            rw [List.map_singleton, ← dependencyText_nextText]
            simpa [dependencyText] using hnext
        | cons hparent hrest =>
            obtain ⟨next, hnext, hround⟩ :=
              buildDepsCb_round h hroom hpointer (hnamed _ List.mem_cons_self)
            rw [List.map_cons, ← dependencyText_nextText]
            split at hround
            · rename_i hlast
              have hnone := hlast.resolve_right hparent
              rw [hnone] at hrest
              cases hrest
              refine ⟨1, next, by simp [bpfLoop, hround], by decide, ?_⟩
              simpa [dependencyText] using hnext
            · obtain ⟨hcb, hancestor⟩ := hround
              rw [← hancestor] at hrest
              obtain ⟨calls, final, hloop, hcalls, hfinal⟩ :=
                ih hnext hrest fun task htask => hnamed task (List.mem_cons_of_mem _ htask)
              exact ⟨calls + 1, final, by simp [bpfLoop, hcb, hloop], by omega, hfinal⟩
      · -- the name of the file fills the buffer
        have hfull : ctx.depsActual ≥ ctx.depsMax ∨ ctx.depsActual ≥ depsBufSize := by
          rw [h.depsActual]
          exact .inr (Nat.not_lt.mp hroom)
        have hlimit : appendLimit ≤ text.length + 1 :=
          le_trans (by decide) (Nat.not_lt.mp hroom)
        refine ⟨1, ctx, by simp [bpfLoop, buildDepsCb, hfull], by decide, ?_⟩
        rw [appended_of_full hlimit]
        simpa [dependencyText] using h

/-- The name of the file, cut to what the buffer holds. -/
theorem initialDependency_name (deps : Buffer depsBufSize) {name : Bytes} (hname : name ≠ []) :
    ∃ out : Buffer depsBufSize, initialDependency false deps depsBufSize (some name) =
        some ((name.take 127).length + 1, out) ∧
      name.take 127 ++ [dependencySeparator] <+: out.toList := by
  have hbuf : depsBufSize = 128 := rfl
  have hpos := List.length_pos_iff.mpr hname
  have hlength : (name.take 127).length = min 127 name.length := List.length_take
  obtain ⟨mid, hread, hmid⟩ := exists_probeReadStr (List.nil_prefix : [] <+: deps.toList)
    (show 0 < depsBufSize by decide) (by simp) name
  obtain ⟨out, hstore, hout⟩ : ∃ out, store mid (name.take 127).length ":".ascii = some out ∧
      name.take 127 ++ ":".ascii <+: out.toList :=
    exists_store hmid (by
      rw [separator_ascii, List.length_singleton]
      omega)
  have hlong : min (name.length + 1 : ℤ) depsBufSize > 1 := by omega
  have hactual : (min (name.length + 1 : ℤ) depsBufSize - 1).toNat = (name.take 127).length := by
    omega
  have hinside : (name.take 127).length < depsBufSize := by omega
  refine ⟨out, ?_, by rwa [separator_ascii] at hout⟩
  rw [List.length_nil] at hread
  simp only [initialDependency, hread, Option.bind_eq_bind, Option.bind_some, if_pos hlong,
    hactual, if_pos hinside, hstore, Option.pure_def, Nat.add_one_ne_zero, if_false]

theorem zero_notMem_dependencyText {name : Bytes} {ancestors : List Bytes} (hname : 0 ∉ name)
    (hancestors : ∀ ancestor ∈ ancestors, 0 ∉ ancestor) :
    0 ∉ dependencyText name ancestors := by
  simp only [dependencyText, List.mem_append, List.mem_flatMap, List.mem_cons, not_or, not_exists,
    not_and]
  exact ⟨hname, fun ancestor hmem => ⟨by decide, hancestors ancestor hmem⟩⟩

/-- The text that `build_dependencies` leaves in its buffer. -/
def builtText (tasks : TaskTable τ) (name : Bytes) (ancestors : List τ) (maxDepth : UInt32) :
    Bytes :=
  dependencyText (name.take 127) ((ancestors.map tasks.comm).take
    (appended (min maxDepth.toNat 32) (name.take 127) (ancestors.map tasks.comm)))

/-- The last separator becomes the terminator. -/
theorem exists_buildDependencies (deps : Buffer depsBufSize) {name : Bytes} (hname : name ≠ [])
    (hnul : 0 ∉ name) {currentTask : Option τ} {ancestors : List τ}
    (hancestors : tasks.Ancestors (currentTask.bind tasks.realParent) ancestors)
    (hnamed : ∀ task ∈ ancestors, tasks.Named task) (maxDepth : UInt32) :
    ∃ out : Buffer depsBufSize,
      buildDependencies tasks false deps depsBufSize (some name) currentTask maxDepth =
        some (((builtText tasks name ancestors maxDepth).length : ℤ), out) ∧
      terminated out = true ∧ cstr out = builtText tasks name ancestors maxDepth := by
  obtain ⟨start, hstart, hwritten⟩ := initialDependency_name deps hname
  have hdepth : (if maxDepth > 32 then 32 else maxDepth).toNat = min maxDepth.toNat 32 := by
    split
    · rename_i hdeep
      have := UInt32.lt_iff_toNat_lt.mp hdeep
      simp only [UInt32.reduceToNat] at this ⊢
      omega
    · rename_i hdeep
      have := UInt32.le_iff_toNat_le.mp (UInt32.not_lt.mp hdeep)
      simp only [UInt32.reduceToNat] at this
      omega
  have hctx : (⟨start, (name.take 127).length + 1, depsBufSize,
      currentTask.bind tasks.realParent⟩ : DepsLoopCtx τ depsBufSize).Holding (name.take 127) :=
    ⟨rfl, rfl, hwritten⟩
  obtain ⟨calls, final, hloop, hcalls, hfinal⟩ :=
    bpfLoop_appended hctx hancestors hnamed (min maxDepth.toNat 32)
  change final.Holding (builtText tasks name ancestors maxDepth) at hfinal
  have hroom := hfinal.length_lt
  have htext : builtText tasks name ancestors maxDepth <+: final.deps.toList :=
    (List.prefix_append _ _).trans hfinal.written
  obtain ⟨out, hstore, hout⟩ : ∃ out, store final.deps
      (builtText tasks name ancestors maxDepth).length [0] = some out ∧
      builtText tasks name ancestors maxDepth ++ [0] <+: out.toList := exists_store htext hroom
  refine ⟨out, ?_, ?_, ?_⟩
  · have hend : final.depsActual > 0 ∧ final.depsActual ≤ depsBufSize := by
      rw [hfinal.depsActual]
      omega
    simp only [buildDependencies, hstart, hdepth, hloop, Option.bind_eq_bind, Option.bind_some,
      if_neg (Int.not_lt.mpr hcalls), if_pos hend]
    rw [hfinal.depsActual, Nat.add_sub_cancel, hstore]
    rfl
  · obtain ⟨rest, hrest⟩ := hout
    simp [terminated, ← hrest]
  · obtain ⟨rest, hrest⟩ := hout
    have hzero : 0 ∉ builtText tasks name ancestors maxDepth := by
      refine zero_notMem_dependencyText (fun h => hnul (List.mem_of_mem_take h)) ?_
      intro ancestor hmem
      obtain ⟨task, htask, rfl⟩ := List.mem_map.mp (List.mem_of_mem_take hmem)
      exact (hnamed task htask).noNul
    rw [cstr, ← hrest, List.append_assoc]
    exact takeWhile_append_zero hzero rest

end Loop

end Build

/-! ## Reading it back -/

theorem dependencyText_cons_eq (name ancestor : Bytes) (ancestors : List Bytes) :
    dependencyText name (ancestor :: ancestors) =
      name ++ dependencySeparator :: dependencyText ancestor ancestors := by
  simp [dependencyText]

theorem split_dependencyText {name : Bytes} {ancestors : List Bytes}
    (hname : dependencySeparator ∉ name)
    (hancestors : ∀ ancestor ∈ ancestors, dependencySeparator ∉ ancestor) :
    split dependencySeparator (dependencyText name ancestors) = name :: ancestors := by
  induction ancestors generalizing name with
  | nil => simpa [dependencyText] using split_of_notMem hname
  | cons ancestor ancestors ih =>
      obtain ⟨hancestor, hrest⟩ := List.forall_mem_cons.mp hancestors
      rw [dependencyText_cons_eq, split_append hname, ih hancestor hrest]

/-- `Path` and `Ancestry` of a dependency string; without ancestors there is no ancestry. -/
theorem read_dependencyText {h : HashedFile} {name : Bytes} {ancestors : List Bytes}
    (hpath : h.filePath = dependencyText name ancestors) (hname : dependencySeparator ∉ name)
    (hancestors : ∀ ancestor ∈ ancestors, ancestor ≠ [] ∧ dependencySeparator ∉ ancestor) :
    h.path = name ∧ h.ancestry = if ancestors = [] then none else some ancestors := by
  cases ancestors with
  | nil =>
      have htext : h.filePath = name := by simpa [dependencyText] using hpath
      simp [HashedFile.path, HashedFile.ancestry, htext, cut_eq_none hname]
  | cons ancestor ancestors =>
      obtain ⟨⟨hne, hancestor⟩, hrest⟩ := List.forall_mem_cons.mp hancestors
      have hsplit := split_dependencyText hancestor fun name hmem => (hrest name hmem).2
      rw [dependencyText_cons_eq] at hpath
      have htext : dependencyText ancestor ancestors ≠ [] := by simp [dependencyText, hne]
      simp [HashedFile.path, HashedFile.ancestry, hpath, cut_append hname, htext, hsplit]

/-- Dependency strings are built within the buffer and read back as meant: the name of the
file, then the names of as many ancestors as the depth allows and as start before offset 112.
No write leaves the buffer, and the length of the string is returned. -/
theorem dependencies_read_back {τ : Type} [DecidableEq τ] (tasks : TaskTable τ)
    (deps : Buffer depsBufSize) (name : Bytes) (hname : name ≠ []) (hnul : 0 ∉ name)
    (currentTask : Option τ) (ancestors : List τ)
    (hancestors : tasks.Ancestors (currentTask.bind tasks.realParent) ancestors)
    (hnamed : ∀ task ∈ ancestors, tasks.Named task) (maxDepth : UInt32) :
    ∃ (j : ℕ) (out : Buffer depsBufSize),
      IsGreatest {j | j ≤ min maxDepth.toNat 32 ∧ j ≤ ancestors.length ∧ ∀ i < j,
        (dependencyText (name.take 127) ((ancestors.map tasks.comm).take i)).length + 1 < 112} j ∧
      buildDependencies tasks false deps depsBufSize (some name) currentTask maxDepth =
        some (((dependencyText (name.take 127)
          ((ancestors.map tasks.comm).take j)).length : ℤ), out) ∧
      terminated out = true ∧
      cstr out = dependencyText (name.take 127) ((ancestors.map tasks.comm).take j) ∧
      (dependencySeparator ∉ name → (∀ task ∈ ancestors, dependencySeparator ∉ tasks.comm task) →
        ∀ h : HashedFile, h.filePath = cstr out → h.path = name.take 127 ∧
          h.ancestry = if j = 0 then none else some ((ancestors.map tasks.comm).take j)) := by
  obtain ⟨out, hbuild, hterminated, hcstr⟩ :=
    exists_buildDependencies deps hname hnul hancestors hnamed maxDepth
  have hgreatest := isGreatest_appended (min maxDepth.toNat 32) (name.take 127)
    (ancestors.map tasks.comm)
  rw [List.length_map] at hgreatest
  refine ⟨_, out, hgreatest, hbuild, hterminated, hcstr, fun hfile hcolon h hpath => ?_⟩
  have hread := read_dependencyText (hpath.trans hcstr)
    (fun hmem => hfile (List.mem_of_mem_take hmem)) fun ancestor hmem => by
      obtain ⟨task, htask, rfl⟩ := List.mem_map.mp (List.mem_of_mem_take hmem)
      exact ⟨(hnamed task htask).nonempty, hcolon task htask⟩
  refine ⟨hread.1, ?_⟩
  rw [hread.2]
  refine if_congr ?_ rfl rfl
  rw [List.take_eq_nil_iff, List.map_eq_nil_iff]
  constructor
  · rintro (hzero | hnone)
    · exact hzero
    · exact Nat.le_zero.mp (hgreatest.1.2.1.trans_eq (by rw [hnone, List.length_nil]))
  · exact .inl

/-- A shell below the first process, which is its own parent. -/
def shellTasks : TaskTable ℕ where
  realParent := fun pid => if pid = 0 then some 0 else some (pid - 1)
  comm := fun pid => if pid = 0 then "swapper/0".ascii else if pid = 1 then "systemd".ascii
    else "bash".ascii

theorem dependencies_read_back_shellTasks :
    ∃ (j : ℕ) (out : Buffer depsBufSize),
      buildDependencies shellTasks false (CString.zero _) depsBufSize (some "/bin/ls".ascii)
        (some 3) 2 = some (((dependencyText ("/bin/ls".ascii.take 127)
          (([2, 1, 0].map shellTasks.comm).take j)).length : ℤ), out) ∧
      cstr out = "/bin/ls:bash:systemd".ascii := by
  have hancestors : shellTasks.Ancestors ((some 3).bind shellTasks.realParent) [2, 1, 0] :=
    .cons (by decide) (.cons (by decide) (.root rfl))
  have hnamed : ∀ task ∈ [2, 1, 0], shellTasks.Named task := by
    intro task htask
    simp only [List.mem_cons, List.not_mem_nil, or_false] at htask
    rcases htask with rfl | rfl | rfl <;> exact ⟨by decide, by decide, by decide⟩
  obtain ⟨j, out, hgreatest, hbuild, -, hcstr, -⟩ := dependencies_read_back shellTasks
    (CString.zero _) "/bin/ls".ascii (by decide) (by decide) (some 3) [2, 1, 0] hancestors hnamed 2
  have htwo : j = 2 := hgreatest.unique ⟨by decide, fun i hi => hi.1⟩
  subst htwo
  exact ⟨2, out, hbuild, hcstr.trans (by decide)⟩

end BpfIma
