import Mathlib.Data.List.Nodup
import Mathlib.Data.Nat.Basic
import Mathlib.Logic.Function.Basic
import BpfIma.Library.Machine

/-! # Publication through alternating buffers

A publisher keeps documents in slots of shared memory; a version in a control word says
which slot is current. A document is stored word by word in a slot that is not current and
becomes current by one store of the control word, if it is committed at all. A reader takes
no lock: it copies the current slot and accepts the copy if the version has not moved.
Every single access may be interleaved with those of the other side. -/

namespace DoubleBuffer

/-- How versions follow each other, and the slot of each. -/
structure Scheme (γ κ : Type*) where
  /-- The version of a memory in which nothing is published. -/
  unset : γ
  slotOf : γ → κ
  next : γ → Option γ
  rank : γ → ℕ
  slotOf_next : ∀ {g g'}, next g = some g' → slotOf g' ≠ slotOf g
  rank_next : ∀ {g g'}, next g = some g' → rank g < rank g'

/-- An order in which every word is accessed. -/
structure Traversal (ι : Type*) where
  order : List ι
  complete : ∀ i, i ∈ order

structure Memory (γ κ ι α : Type*) where
  control : γ
  slots : κ → ι → α

/-- A document for whatever version it gets, and whether its commit succeeds. -/
structure Publication (γ β ι : Type*) where
  document : γ → β
  order : Traversal ι
  committed : Bool

inductive Publisher (γ β ι : Type*) where
  | idle
  | staging (version : γ) (document : β) (committed : Bool) (todo : List ι)

inductive Reader (γ ι α : Type*) where
  | idle
  | copying (version : γ) (todo : List ι) (copied : List (ι × α))
  | accepted (version : γ) (copied : List (ι × α))

structure State (γ κ ι α β : Type*) where
  memory : Memory γ κ ι α
  publisher : Publisher γ β ι
  reader : Reader γ ι α

/-- `publish` and `store` are the publisher's, the others the reader's. -/
inductive Access (γ β ι : Type*) where
  | publish (p : Publication γ β ι)
  | store
  | load (order : Traversal ι)
  | copy
  | check

/-- Addresses and the words read there, as a copy of all of `content`. -/
structure IsCopy {ι α : Type*} (content : ι → α) (copied : List (ι × α)) : Prop where
  word : ∀ p ∈ copied, p.2 = content p.1
  complete : ∀ i, i ∈ copied.map Prod.fst

variable {γ κ ι α β : Type*}

def Memory.storeWord [DecidableEq κ] [DecidableEq ι] (mem : Memory γ κ ι α) (k : κ) (i : ι)
    (w : α) : Memory γ κ ι α :=
  { mem with slots := Function.update mem.slots k (Function.update (mem.slots k) i w) }

variable (S : Scheme γ κ) (words : β → ι → α)

/-- One access. The result is the version and document that it publishes. -/
def step [DecidableEq γ] [DecidableEq κ] [DecidableEq ι] (s : State γ κ ι α β) :
    Access γ β ι → Option (γ × β) × State γ κ ι α β
  | .publish p =>
      match s.publisher, S.next s.memory.control with
      | .idle, some g =>
          (none, { s with publisher := .staging g (p.document g) p.committed p.order.order })
      | _, _ => (none, s)
  | .store =>
      match s.publisher with
      | .idle => (none, s)
      | .staging g d c (i :: todo) =>
          (none,
            { s with
              memory := s.memory.storeWord (S.slotOf g) i (words d i)
              publisher := .staging g d c todo })
      | .staging g d c [] =>
          if c then
            (some (g, d), { s with memory := { s.memory with control := g }, publisher := .idle })
          else (none, { s with publisher := .idle })
  | .load order =>
      if s.memory.control = S.unset then (none, { s with reader := .idle })
      else (none, { s with reader := .copying s.memory.control order.order [] })
  | .copy =>
      match s.reader with
      | .copying g (i :: todo) copied =>
          (none,
            { s with reader := .copying g todo (copied ++ [(i, s.memory.slots (S.slotOf g) i)]) })
      | _ => (none, s)
  | .check =>
      match s.reader with
      | .copying g [] copied =>
          (none, { s with reader := if s.memory.control = g then .accepted g copied else .idle })
      | _ => (none, s)

/-- The versions and documents that a run publishes, in order. -/
def published [DecidableEq γ] [DecidableEq κ] [DecidableEq ι] :
    State γ κ ι α β → List (Access γ β ι) → List (γ × β) :=
  Machine.collect (step S words) fun s a => (step S words s a).1

/-! ## Safety -/

/-- The invariant, with all that has been published. -/
structure Consistent (s : State γ κ ι α β) (log : List (γ × β)) : Prop where
  current : ∃ d, (s.memory.control, d) ∈ log ∧
    s.memory.slots (S.slotOf s.memory.control) = words d
  rank_le : ∀ e ∈ log, S.rank e.1 ≤ S.rank s.memory.control
  increasing : log.Pairwise fun a b => S.rank a.1 < S.rank b.1
  staging : ∀ g d c todo, s.publisher = .staging g d c todo →
    S.next s.memory.control = some g ∧ ∀ i, i ∉ todo → s.memory.slots (S.slotOf g) i = words d i
  copying : ∀ g todo copied, s.reader = .copying g todo copied →
    S.rank g ≤ S.rank s.memory.control ∧ (∀ i, i ∈ copied.map Prod.fst ∨ i ∈ todo) ∧
      (s.memory.control = g → ∀ p ∈ copied, p.2 = s.memory.slots (S.slotOf g) p.1)
  accepted : ∀ g copied, s.reader = .accepted g copied →
    ∃ d, (g, d) ∈ log ∧ IsCopy (words d) copied

namespace Consistent

variable {S words} {s : State γ κ ι α β} {log : List (γ × β)}

/-- Both sides idle, over a memory whose current slot holds a document. -/
theorem start {mem : Memory γ κ ι α} {d : β}
    (hmem : mem.slots (S.slotOf mem.control) = words d) :
    Consistent S words ⟨mem, .idle, .idle⟩ [(mem.control, d)] where
  current := ⟨d, by simp, hmem⟩
  rank_le e he := by rw [List.mem_singleton.mp he]
  increasing := List.pairwise_singleton _ _
  staging g d c todo heq := by cases heq
  copying g todo copied heq := by cases heq
  accepted g copied heq := by cases heq

theorem publish (h : Consistent S words s log) (p : Publication γ β ι) {g : γ}
    (hnext : S.next s.memory.control = some g) :
    Consistent S words
      { s with publisher := .staging g (p.document g) p.committed p.order.order } log where
  current := h.current
  rank_le := h.rank_le
  increasing := h.increasing
  staging := by
    intro g' d c todo heq
    cases heq
    exact ⟨hnext, fun i hi => absurd (p.order.complete i) hi⟩
  copying := h.copying
  accepted := h.accepted

/-- A word goes to a slot that no reader of the current version looks at. -/
theorem storeWord [DecidableEq κ] [DecidableEq ι] (h : Consistent S words s log) {g : γ} {d : β}
    {c : Bool} {i : ι} {todo : List ι} (hpublisher : s.publisher = .staging g d c (i :: todo)) :
    Consistent S words
      { s with
        memory := s.memory.storeWord (S.slotOf g) i (words d i)
        publisher := .staging g d c todo } log := by
  obtain ⟨hnext, hstored⟩ := h.staging g d c (i :: todo) hpublisher
  have hslot : (s.memory.storeWord (S.slotOf g) i (words d i)).slots
      (S.slotOf s.memory.control) = s.memory.slots (S.slotOf s.memory.control) :=
    Function.update_of_ne (S.slotOf_next hnext).symm _ _
  refine ⟨?_, h.rank_le, h.increasing, ?_, ?_, h.accepted⟩
  · obtain ⟨d', hd', hcurrent⟩ := h.current
    exact ⟨d', hd', hslot.trans hcurrent⟩
  · intro g' d' c' todo' heq
    cases heq
    refine ⟨hnext, fun j hj => ?_⟩
    simp only [Memory.storeWord, Function.update_self]
    by_cases hij : j = i
    · rw [hij, Function.update_self]
    · rw [Function.update_of_ne hij]
      exact hstored j (by simp [hij, hj])
  · intro g' todo' copied heq
    obtain ⟨hrank, hall, hcopied⟩ := h.copying g' todo' copied heq
    refine ⟨hrank, hall, ?_⟩
    rintro rfl p hp
    exact (hcopied rfl p hp).trans (congrFun hslot p.1).symm

/-- The store of the control word: readers of older versions are too late. -/
theorem commit (h : Consistent S words s log) {g : γ} {d : β} {c : Bool}
    (hpublisher : s.publisher = .staging g d c []) :
    Consistent S words
      { s with memory := { s.memory with control := g }, publisher := .idle }
      (log ++ [(g, d)]) := by
  obtain ⟨hnext, hstored⟩ := h.staging g d c [] hpublisher
  have hrank := S.rank_next hnext
  refine ⟨⟨d, by simp, funext fun i => hstored i (by simp)⟩, ?_, ?_, ?_, ?_, ?_⟩
  · intro e he
    rcases List.mem_append.mp he with he | he
    · exact le_trans (h.rank_le e he) (Nat.le_of_lt hrank)
    · rw [List.mem_singleton.mp he]
  · refine List.pairwise_append.mpr ⟨h.increasing, List.pairwise_singleton _ _, ?_⟩
    intro e he e' he'
    rw [List.mem_singleton.mp he']
    exact lt_of_le_of_lt (h.rank_le e he) hrank
  · intro g' d' c' todo' heq
    cases heq
  · intro g' todo' copied heq
    obtain ⟨hle, hall, -⟩ := h.copying g' todo' copied heq
    refine ⟨le_trans hle (Nat.le_of_lt hrank), hall, ?_⟩
    intro hcontrol
    rw [← hcontrol] at hle
    exact absurd hle (not_le.mpr hrank)
  · intro g' copied heq
    obtain ⟨d', hd', hcopy⟩ := h.accepted g' copied heq
    exact ⟨d', List.mem_append_left _ hd', hcopy⟩

theorem abandon (h : Consistent S words s log) :
    Consistent S words { s with publisher := .idle } log where
  current := h.current
  rank_le := h.rank_le
  increasing := h.increasing
  staging := by
    intro g d c todo heq
    cases heq
  copying := h.copying
  accepted := h.accepted

/-- A reader in a state that the invariant allows. -/
theorem withReader (h : Consistent S words s log) (reader : Reader γ ι α)
    (hcopying : ∀ g todo copied, reader = .copying g todo copied →
      S.rank g ≤ S.rank s.memory.control ∧ (∀ i, i ∈ copied.map Prod.fst ∨ i ∈ todo) ∧
        (s.memory.control = g → ∀ p ∈ copied, p.2 = s.memory.slots (S.slotOf g) p.1))
    (haccepted : ∀ g copied, reader = .accepted g copied →
      ∃ d, (g, d) ∈ log ∧ IsCopy (words d) copied) :
    Consistent S words { s with reader := reader } log :=
  ⟨h.current, h.rank_le, h.increasing, h.staging, hcopying, haccepted⟩

theorem reset (h : Consistent S words s log) :
    Consistent S words { s with reader := .idle } log := by
  refine h.withReader .idle ?_ ?_
  · intro g todo copied heq
    cases heq
  · intro g copied heq
    cases heq

theorem load (h : Consistent S words s log) (order : Traversal ι) :
    Consistent S words { s with reader := .copying s.memory.control order.order [] } log := by
  refine h.withReader _ ?_ ?_
  · intro g todo copied heq
    cases heq
    exact ⟨le_rfl, fun i => .inr (order.complete i), fun _ p hp => by cases hp⟩
  · intro g copied heq
    cases heq

theorem copy (h : Consistent S words s log) {g : γ} {i : ι} {todo : List ι}
    {copied : List (ι × α)} (hreader : s.reader = .copying g (i :: todo) copied) :
    Consistent S words
      { s with
        reader := .copying g todo (copied ++ [(i, s.memory.slots (S.slotOf g) i)]) } log := by
  obtain ⟨hrank, hall, hcopied⟩ := h.copying g (i :: todo) copied hreader
  refine h.withReader _ ?_ ?_
  · intro g' todo' copied' heq
    cases heq
    refine ⟨hrank, fun j => ?_, fun hcontrol p hp => ?_⟩
    · have hj := hall j
      simp only [List.mem_cons] at hj
      simp only [List.map_append, List.mem_append, List.map_cons, List.map_nil,
        List.mem_singleton]
      tauto
    · rcases List.mem_append.mp hp with hp | hp
      · exact hcopied hcontrol p hp
      · rw [List.mem_singleton.mp hp]
  · intro g' copied' heq
    cases heq

/-- If the version has not moved, the slot was current all along. -/
theorem accept (h : Consistent S words s log) {g : γ} {copied : List (ι × α)}
    (hreader : s.reader = .copying g [] copied) (hcontrol : s.memory.control = g) :
    Consistent S words { s with reader := .accepted g copied } log := by
  obtain ⟨-, hall, hcopied⟩ := h.copying g [] copied hreader
  refine h.withReader _ ?_ ?_
  · intro g' todo' copied' heq
    cases heq
  · intro g' copied' heq
    cases heq
    obtain ⟨d, hd, hcurrent⟩ := h.current
    rw [hcontrol] at hd hcurrent
    refine ⟨d, hd, fun p hp => ?_, fun i => ?_⟩
    · rw [← hcurrent]
      exact hcopied hcontrol p hp
    · simpa using hall i

theorem step [DecidableEq γ] [DecidableEq κ] [DecidableEq ι] (h : Consistent S words s log)
    (a : Access γ β ι) :
    Consistent S words (step S words s a).2 (log ++ (step S words s a).1.toList) := by
  cases a with
  | publish p =>
      simp only [DoubleBuffer.step]
      split
      · rename_i g _ hnext
        simpa using h.publish p hnext
      · simpa using h
  | store =>
      simp only [DoubleBuffer.step]
      split
      · simpa using h
      · rename_i g d c i todo hpublisher
        simpa using h.storeWord hpublisher
      · rename_i g d c hpublisher
        split
        · simpa using h.commit hpublisher
        · simpa using h.abandon
  | load order =>
      simp only [DoubleBuffer.step]
      split
      · simpa using h.reset
      · simpa using h.load order
  | copy =>
      simp only [DoubleBuffer.step]
      split
      · rename_i g i todo copied hreader
        simpa using h.copy hreader
      · simpa using h
  | check =>
      simp only [DoubleBuffer.step]
      split
      · rename_i g copied hreader
        by_cases hcontrol : s.memory.control = g
        · simpa [hcontrol] using h.accept hreader hcontrol
        · simpa [hcontrol] using h.reset
      · simpa using h

/-- A version stands for one document. -/
theorem unique (h : Consistent S words s log) {g : γ} {d d' : β} (hd : (g, d) ∈ log)
    (hd' : (g, d') ∈ log) : d = d' := by
  have hnodup : (log.map fun e => S.rank e.1).Nodup :=
    List.pairwise_map.mpr (h.increasing.imp Nat.ne_of_lt)
  exact congrArg Prod.snd (List.inj_on_of_nodup_map hnodup hd hd' rfl)

end Consistent

section Runs

variable [DecidableEq γ] [DecidableEq κ] [DecidableEq ι]

/-- Every copy that is accepted is a copy of the one document that was published under its
version. -/
theorem accepted_of_run {mem : Memory γ κ ι α} {d : β}
    (hmem : mem.slots (S.slotOf mem.control) = words d) (accesses : List (Access γ β ι)) {g : γ}
    {copied : List (ι × α)}
    (haccepted : (Machine.run (step S words) ⟨mem, .idle, .idle⟩ accesses).reader =
      .accepted g copied) :
    ∃ d', (g, d') ∈ (mem.control, d) :: published S words ⟨mem, .idle, .idle⟩ accesses ∧
      IsCopy (words d') copied ∧
      ∀ d'', (g, d'') ∈ (mem.control, d) :: published S words ⟨mem, .idle, .idle⟩ accesses →
        d'' = d' := by
  have hend : Consistent S words (Machine.run (step S words) ⟨mem, .idle, .idle⟩ accesses)
      ([(mem.control, d)] ++ published S words ⟨mem, .idle, .idle⟩ accesses) :=
    Machine.run_collect_induction (G := fun _ _ => True) (fun s a log _ h => h.step a)
      (Machine.along_true _ _ (fun _ _ => trivial) _ accesses) (.start hmem)
  obtain ⟨d', hd', hcopy⟩ := hend.accepted g copied haccepted
  exact ⟨d', hd', hcopy, fun d'' hd'' => hend.unique hd'' hd'⟩

/-! ## Undisturbed accesses -/

/-- The memory after a publication that nothing interrupts. -/
def perform (mem : Memory γ κ ι α) (p : Publication γ β ι) : Memory γ κ ι α :=
  match S.next mem.control with
  | none => mem
  | some g =>
      { control := if p.committed then g else mem.control
        slots := Function.update mem.slots (S.slotOf g) (words (p.document g)) }

theorem run_stores (mem : Memory γ κ ι α) (reader : Reader γ ι α) (g : γ) (d : β) (c : Bool)
    (todo : List ι) :
    Machine.run (step S words) ⟨mem, .staging g d c todo, reader⟩
        (List.replicate todo.length .store) =
      ⟨{ mem with
          slots := Function.update mem.slots (S.slotOf g) fun i =>
            if i ∈ todo then words d i else mem.slots (S.slotOf g) i },
        .staging g d c [], reader⟩ := by
  induction todo generalizing mem with
  | nil => simp
  | cons i todo ih =>
      rw [List.length_cons, List.replicate_succ, Machine.run_cons]
      simp only [step, ih, Memory.storeWord, Function.update_idem, Function.update_self]
      congr 3
      funext j
      by_cases hj : j ∈ todo
      · simp [hj]
      · by_cases hij : j = i
        · simp [hij]
        · simp [hj, hij]

theorem run_store_idle (mem : Memory γ κ ι α) (reader : Reader γ ι α) (n : ℕ) :
    Machine.run (step S words) ⟨mem, .idle, reader⟩ (List.replicate n .store) =
      ⟨mem, .idle, reader⟩ := by
  induction n with
  | zero => rfl
  | succ n ih =>
      rw [List.replicate_succ, Machine.run_cons]
      exact ih

/-- The accesses of one publication do what `perform` says. -/
theorem run_publish (mem : Memory γ κ ι α) (reader : Reader γ ι α) (p : Publication γ β ι) :
    Machine.run (step S words) ⟨mem, .idle, reader⟩
        (.publish p :: (List.replicate p.order.order.length .store ++ [.store])) =
      ⟨perform S words mem p, .idle, reader⟩ := by
  rw [Machine.run_cons, Machine.run_append]
  cases hnext : S.next mem.control with
  | none =>
      simp only [step, hnext, perform, run_store_idle]
      rfl
  | some g =>
      have hall : (fun i => if i ∈ p.order.order then words (p.document g) i
          else mem.slots (S.slotOf g) i) = words (p.document g) := by
        funext i
        rw [if_pos (p.order.complete i)]
      simp only [step, hnext, perform, run_stores, hall, Machine.run_cons, Machine.run_nil]
      cases p.committed <;> rfl

theorem run_copies (mem : Memory γ κ ι α) (publisher : Publisher γ β ι) (g : γ) (todo : List ι)
    (copied : List (ι × α)) :
    Machine.run (step S words) ⟨mem, publisher, .copying g todo copied⟩
        (List.replicate todo.length .copy) =
      ⟨mem, publisher,
        .copying g [] (copied ++ todo.map fun i => (i, mem.slots (S.slotOf g) i))⟩ := by
  induction todo generalizing copied with
  | nil => simp
  | cons i todo ih =>
      rw [List.length_cons, List.replicate_succ, Machine.run_cons]
      simp only [step, ih, List.append_assoc, List.map_cons, List.singleton_append]

/-- An undisturbed reader accepts what is current. -/
theorem run_read (mem : Memory γ κ ι α) (publisher : Publisher γ β ι) (reader : Reader γ ι α)
    (order : Traversal ι) (hset : mem.control ≠ S.unset) :
    Machine.run (step S words) ⟨mem, publisher, reader⟩
        (.load order :: (List.replicate order.order.length .copy ++ [.check])) =
      ⟨mem, publisher, .accepted mem.control
        (order.order.map fun i => (i, mem.slots (S.slotOf mem.control) i))⟩ := by
  rw [Machine.run_cons, Machine.run_append]
  simp only [step, if_neg hset, run_copies, List.nil_append, Machine.run_cons, Machine.run_nil,
    if_true]

end Runs

end DoubleBuffer
