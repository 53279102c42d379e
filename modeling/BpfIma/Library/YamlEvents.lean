import BpfIma.Library.CString

/-! # YAML event streams

The events that libyaml hands to a consumer, the streams of well-formed documents, and
loops that read such streams without counting what is open. -/

namespace LibYaml

/-- `yaml_event_t`, without positions, anchors, tags and styles. -/
inductive Event where
  | streamStart
  | streamEnd
  | documentStart
  | documentEnd
  | aliasEvent
  | scalar (value : Bytes)
  | sequenceStart
  | sequenceEnd
  | mappingStart
  | mappingEnd
deriving DecidableEq, Repr

/-- The events of `n` nodes in a row; a mapping holds its keys and values in turn. -/
inductive Nodes : ℕ → List Event → Prop where
  | nil : Nodes 0 []
  | aliasEvent {n : ℕ} {events : List Event} (h : Nodes n events) :
      Nodes (n + 1) (.aliasEvent :: events)
  | scalar {n : ℕ} {events : List Event} (value : Bytes) (h : Nodes n events) :
      Nodes (n + 1) (.scalar value :: events)
  | sequence {m n : ℕ} {items events : List Event} (hitems : Nodes m items)
      (h : Nodes n events) : Nodes (n + 1) (.sequenceStart :: (items ++ .sequenceEnd :: events))
  | mapping {m n : ℕ} {entries events : List Event} (hentries : Nodes (2 * m) entries)
      (h : Nodes n events) : Nodes (n + 1) (.mappingStart :: (entries ++ .mappingEnd :: events))

/-- Every collection that opens is closed again. What is left of a node of which a part has
been read may close more than it opens. -/
inductive Closed : List Event → Prop where
  | nil : Closed []
  | aliasEvent {events : List Event} (h : Closed events) : Closed (.aliasEvent :: events)
  | scalar {events : List Event} (value : Bytes) (h : Closed events) :
      Closed (.scalar value :: events)
  | sequenceEnd {events : List Event} (h : Closed events) : Closed (.sequenceEnd :: events)
  | mappingEnd {events : List Event} (h : Closed events) : Closed (.mappingEnd :: events)
  | sequence {items events : List Event} (hitems : Closed items) (h : Closed events) :
      Closed (.sequenceStart :: (items ++ .sequenceEnd :: events))
  | mapping {entries events : List Event} (hentries : Closed entries) (h : Closed events) :
      Closed (.mappingStart :: (entries ++ .mappingEnd :: events))

namespace Closed

theorem append {front events : List Event} (hfront : Closed front) (h : Closed events) :
    Closed (front ++ events) := by
  induction hfront with
  | nil => exact h
  | aliasEvent _ ih => exact .aliasEvent ih
  | scalar value _ ih => exact .scalar value ih
  | sequenceEnd _ ih => exact .sequenceEnd ih
  | mappingEnd _ ih => exact .mappingEnd ih
  | sequence hitems _ _ ih =>
      rw [List.cons_append, List.append_assoc, List.cons_append]
      exact .sequence hitems ih
  | mapping hentries _ _ ih =>
      rw [List.cons_append, List.append_assoc, List.cons_append]
      exact .mapping hentries ih

theorem scalars (values : List Bytes) : Closed (values.map .scalar) := by
  induction values with
  | nil => exact .nil
  | cons value values ih => exact .scalar value ih

theorem flatMap {α : Type} {items : List α} {eventsOf : α → List Event}
    (h : ∀ item ∈ items, Closed (eventsOf item)) : Closed (items.flatMap eventsOf) := by
  induction items with
  | nil => exact .nil
  | cons item items ih =>
      rw [List.flatMap_cons]
      exact (h item List.mem_cons_self).append
        (ih fun item hmem => h item (List.mem_cons_of_mem _ hmem))

theorem of_cons {event : Event} {events : List Event} (h : Closed (event :: events)) :
    Closed events := by
  cases h with
  | aliasEvent h | scalar _ h | sequenceEnd h | mappingEnd h => exact h
  | sequence hitems h => exact hitems.append (.sequenceEnd h)
  | mapping hentries h => exact hentries.append (.mappingEnd h)

theorem of_suffix {events rest : List Event} (h : Closed events) (hrest : rest <:+ events) :
    Closed rest := by
  induction events with
  | nil => rwa [List.suffix_nil.mp hrest]
  | cons event events ih =>
      rcases List.suffix_cons_iff.mp hrest with rfl | hrest
      · exact h
      · exact ih h.of_cons hrest

theorem sequence_inv {events : List Event} (h : Closed (.sequenceStart :: events)) :
    ∃ items rest, events = items ++ .sequenceEnd :: rest ∧ Closed items := by
  cases h with
  | sequence hitems _ => exact ⟨_, _, rfl, hitems⟩

theorem mapping_inv {events : List Event} (h : Closed (.mappingStart :: events)) :
    ∃ entries rest, events = entries ++ .mappingEnd :: rest ∧ Closed entries := by
  cases h with
  | mapping hentries _ => exact ⟨_, _, rfl, hentries⟩

end Closed

theorem Nodes.closed {n : ℕ} {events : List Event} (h : Nodes n events) : Closed events := by
  induction h with
  | nil => exact .nil
  | aliasEvent _ ih => exact .aliasEvent ih
  | scalar value _ ih => exact .scalar value ih
  | sequence _ _ hitems ih => exact .sequence hitems ih
  | mapping _ _ hentries ih => exact .mapping hentries ih

/-! ## What is open -/

inductive Collection where
  | sequence
  | mapping
deriving DecidableEq, Repr

def Collection.startEvent : Collection → Event
  | .sequence => .sequenceStart
  | .mapping => .mappingStart

def Collection.endEvent : Collection → Event
  | .sequence => .sequenceEnd
  | .mapping => .mappingEnd

/-- Only the innermost collection can end. -/
def closeInnermost (c : Collection) : List Collection → Option (List Collection)
  | [] => none
  | d :: opened => if d = c then some opened else none

/-- The collections that are open behind one more event of a document, innermost first. -/
def openAfterEvent (opened : List Collection) : Event → Option (List Collection)
  | .aliasEvent | .scalar _ => some opened
  | .sequenceStart => some (.sequence :: opened)
  | .mappingStart => some (.mapping :: opened)
  | .sequenceEnd => closeInnermost .sequence opened
  | .mappingEnd => closeInnermost .mapping opened
  | .streamStart | .streamEnd | .documentStart | .documentEnd => none

def openAfter (opened : List Collection) (events : List Event) : Option (List Collection) :=
  events.foldlM openAfterEvent opened

/-- Events inside a document whose starts and ends match. -/
def Balanced (events : List Event) : Prop := openAfter [] events = some []

instance (events : List Event) : Decidable (Balanced events) :=
  inferInstanceAs (Decidable (_ = _))

theorem openAfter_cons_iff {opened opened' : List Collection} {event : Event}
    {events : List Event} :
    openAfter opened (event :: events) = some opened' ↔
      ∃ next, openAfterEvent opened event = some next ∧ openAfter next events = some opened' := by
  rw [openAfter, List.foldlM_cons]
  exact Option.bind_eq_some_iff

theorem openAfter_append (opened : List Collection) (front events : List Event) :
    openAfter opened (front ++ events) =
      (openAfter opened front).bind fun next => openAfter next events :=
  List.foldlM_append

/-- Whole nodes leave open what was open before them. -/
theorem Nodes.openAfter_eq {n : ℕ} {events : List Event} (h : Nodes n events)
    (opened : List Collection) : openAfter opened events = some opened := by
  induction h generalizing opened with
  | nil => rfl
  | aliasEvent _ ih => exact openAfter_cons_iff.mpr ⟨opened, rfl, ih opened⟩
  | scalar value _ ih => exact openAfter_cons_iff.mpr ⟨opened, rfl, ih opened⟩
  | sequence _ _ hitems ih =>
      refine openAfter_cons_iff.mpr ⟨.sequence :: opened, rfl, ?_⟩
      rw [openAfter_append, hitems, Option.bind_some]
      exact openAfter_cons_iff.mpr ⟨opened, rfl, ih opened⟩
  | mapping _ _ hentries ih =>
      refine openAfter_cons_iff.mpr ⟨.mapping :: opened, rfl, ?_⟩
      rw [openAfter_append, hentries, Option.bind_some]
      exact openAfter_cons_iff.mpr ⟨opened, rfl, ih opened⟩

theorem documentEnd_notMem {opened opened' : List Collection} {events : List Event}
    (h : openAfter opened events = some opened') : Event.documentEnd ∉ events := by
  induction events generalizing opened with
  | nil => exact List.not_mem_nil
  | cons event events ih =>
      obtain ⟨next, hevent, hevents⟩ := openAfter_cons_iff.mp h
      rw [List.mem_cons, not_or]
      refine ⟨?_, ih hevents⟩
      rintro rfl
      cases hevent

theorem openAfterEvent_startEvent (c : Collection) (opened : List Collection) :
    openAfterEvent opened c.startEvent = some (c :: opened) := by
  cases c <;> rfl

theorem openAfterEvent_endEvent {c : Collection} {opened opened' : List Collection}
    (h : openAfterEvent opened c.endEvent = some opened') : opened = c :: opened' := by
  have hclose : closeInnermost c opened = some opened' := by
    cases c <;> exact h
  cases opened with
  | nil => cases hclose
  | cons d opened =>
      rw [closeInnermost] at hclose
      split_ifs at hclose with hd
      rw [hd, Option.some.inj hclose]

/-- An event that is no end closes nothing. -/
theorem openAfterEvent_sublist {event : Event} {opened opened' : List Collection}
    (h : openAfterEvent opened event = some opened') (hend : ∀ c : Collection, event ≠ c.endEvent) :
    opened.Sublist opened' := by
  cases event with
  | aliasEvent | scalar =>
      rw [← Option.some.inj h]
  | sequenceStart | mappingStart =>
      rw [← Option.some.inj h]
      exact List.sublist_cons_self _ _
  | sequenceEnd => exact absurd rfl (hend .sequence)
  | mappingEnd => exact absurd rfl (hend .mapping)
  | streamStart | streamEnd | documentStart | documentEnd => cases h

/-- How an event changes the ends that a reader waits for, innermost first: it goes on waiting,
begins to read a collection, is through with one, or gives one up at a scalar. -/
inductive Shift : List Collection → Event → List Collection → Prop where
  | stays {awaited : List Collection} {event : Event}
      (h : ∀ c rest, awaited = c :: rest → event ≠ c.endEvent) : Shift awaited event awaited
  | enters (c : Collection) {awaited : List Collection} : Shift awaited c.startEvent (c :: awaited)
  | leaves (c : Collection) {awaited : List Collection} : Shift (c :: awaited) c.endEvent awaited
  | abandons {c : Collection} {awaited : List Collection} (value : Bytes) :
      Shift (c :: awaited) (.scalar value) awaited

theorem Shift.stays_cons {c : Collection} {rest : List Collection} {event : Event}
    (h : event ≠ c.endEvent) : Shift (c :: rest) event (c :: rest) := by
  refine .stays fun d rest' heq => ?_
  rwa [← (List.cons.inj heq).1]

/-- The ends that are waited for are still to come: their collections are open. -/
theorem Shift.sublist {awaited awaited' opened opened' : List Collection} {event : Event}
    (h : Shift awaited event awaited') (hevent : openAfterEvent opened event = some opened')
    (hawaited : awaited.Sublist opened) : awaited'.Sublist opened' := by
  cases h with
  | stays h =>
      by_cases hend : ∃ c : Collection, event = c.endEvent
      · obtain ⟨c, rfl⟩ := hend
        rw [openAfterEvent_endEvent hevent] at hawaited
        cases awaited with
        | nil => exact List.nil_sublist _
        | cons d rest =>
            -- the collection that ends is another one than the first that is waited for
            have hne : d ≠ c := fun heq => h d rest rfl (by rw [heq])
            exact hawaited.of_cons_of_ne hne
      · exact hawaited.trans (openAfterEvent_sublist hevent (not_exists.mp hend))
  | enters c =>
      rw [openAfterEvent_startEvent, Option.some.injEq] at hevent
      rw [← hevent]
      exact hawaited.cons_cons c
  | leaves c =>
      rw [openAfterEvent_endEvent hevent] at hawaited
      exact hawaited.of_cons_cons
  | abandons value =>
      rw [← Option.some.inj hevent]
      exact List.sublist_of_cons_sublist hawaited

/-! ## Loops -/

/-- Induction for loops that go on with what a call left of the events behind the first. -/
@[elab_as_elim]
theorem rest_induction {motive : List Event → Prop} (events : List Event) (nil : motive [])
    (cons : ∀ event events, (∀ rest, rest.length ≤ events.length → motive rest) →
      motive (event :: events)) : motive events := by
  induction hn : events.length using Nat.strong_induction_on generalizing events with
  | _ n ih =>
      cases events with
      | nil => exact nil
      | cons event events =>
          subst hn
          exact cons event events fun rest hlength =>
            ih rest.length (Nat.lt_succ_of_le hlength) rest rfl

/-- What a parsing function leaves: its return value, the memory it wrote and the events
that are still to be read. -/
structure Parse (σ : Type) where
  ret : ℤ
  out : σ
  rest : List Event
deriving DecidableEq, Repr

/-- Two calls that read the same events and return the same. -/
structure Parse.SameCourse {σ τ : Type} (p : Parse σ) (q : Parse τ) : Prop where
  ret : p.ret = q.ret
  rest : p.rest = q.rest

/-- They also leave related memory. -/
structure Parse.Agree {σ τ : Type} (R : σ → τ → Prop) (p : Parse σ) (q : Parse τ) : Prop extends
    p.SameCourse q where
  out : R p.out q.out

/-- A call that is over before the end of `events`, whatever comes behind them. -/
structure Within {σ : Type} (call : List Event → Parse σ) (events : List Event)
    (parse : Parse σ) : Prop where
  suffix : parse.rest <:+ events
  eq : ∀ more, call (events ++ more) = { parse with rest := parse.rest ++ more }

section Loop

variable {κ σ : Type} {loop : κ → List Event → Parse σ} {stopped : ℤ → Prop}

/-- A loop with the variables `k` that meets `events` either stops in them, or arrives
behind them with its variables changed. -/
inductive Passes (loop : κ → List Event → Parse σ) (stopped : ℤ → Prop) (k : κ)
    (events : List Event) : Prop where
  | stops (parse : Parse σ) (hstopped : stopped parse.ret) (h : Within (loop k) events parse)
  | crosses (k' : κ) (h : ∀ more, loop k (events ++ more) = loop k' more)

/-- The loop goes on with other variables at a later event. -/
theorem Passes.of_eq {k k' : κ} {events rest : List Event} (hrest : rest <:+ events)
    (h : ∀ more, loop k (events ++ more) = loop k' (rest ++ more))
    (hpasses : Passes loop stopped k' rest) : Passes loop stopped k events := by
  cases hpasses with
  | stops parse hstopped hwithin =>
      exact .stops parse hstopped ⟨hwithin.suffix.trans hrest,
        fun more => (h more).trans (hwithin.eq more)⟩
  | crosses k'' hcrosses => exact .crosses k'' fun more => (h more).trans (hcrosses more)

theorem Passes.cons {k k' : κ} {event : Event} {events : List Event}
    (h : ∀ more, loop k (event :: more) = loop k' more)
    (hpasses : Passes loop stopped k' events) : Passes loop stopped k (event :: events) :=
  .of_eq (List.suffix_cons event events) (fun more => h (events ++ more)) hpasses

theorem Passes.stop {k : κ} {event : Event} {events : List Event} {ret : ℤ} {out : σ}
    (hstopped : stopped ret) (h : ∀ more, loop k (event :: more) = ⟨ret, out, more⟩) :
    Passes loop stopped k (event :: events) :=
  .stops ⟨ret, out, events⟩ hstopped
    ⟨List.suffix_cons event events, fun more => h (events ++ more)⟩

/-- A loop that stops at its end event does not get past it. -/
theorem Passes.within {k : κ} {events rest : List Event} {event : Event}
    (hpasses : Passes loop stopped k events)
    (hend : ∀ k', ∃ ret out, ∀ more, loop k' (event :: more) = ⟨ret, out, more⟩) :
    ∃ parse, Within (loop k) (events ++ event :: rest) parse := by
  cases hpasses with
  | stops parse _ hwithin =>
      refine ⟨{ parse with rest := parse.rest ++ event :: rest }, ?_, fun more => ?_⟩
      · exact (List.suffix_append_inj_of_length_eq rfl).mpr ⟨hwithin.suffix, rfl⟩
      · rw [List.append_assoc, hwithin.eq, List.append_assoc]
  | crosses k' hcrosses =>
      obtain ⟨ret, out, hstop⟩ := hend k'
      refine ⟨⟨ret, out, rest⟩, ?_, fun more => ?_⟩
      · exact (List.suffix_cons event rest).trans (List.suffix_append _ _)
      · rw [List.append_assoc, hcrosses, List.cons_append, hstop]

/-- Induction along a closed stream: a loop may resume at any later event. -/
theorem passes_of_closed
    (hstep : ∀ event events, Closed (event :: events) →
      (∀ rest, rest <:+ events → ∀ k, Passes loop stopped k rest) →
      ∀ k, Passes loop stopped k (event :: events))
    {events : List Event} (h : Closed events) (k : κ) : Passes loop stopped k events := by
  induction events using rest_induction generalizing k with
  | nil => exact .crosses k fun _ => rfl
  | cons event events ih =>
      refine hstep event events h (fun rest hrest k => ?_) k
      exact ih rest hrest.length_le (h.of_cons.of_suffix hrest) k

/-- A call that failed fails its caller; otherwise the caller's loop goes on without a key
behind what was read. -/
def Parse.andThen {τ : Type} (parse : Parse τ) (store : τ → σ)
    (loop : Bytes × σ → List Event → Parse σ) : Parse σ :=
  if parse.ret < 0 then ⟨-1, store parse.out, parse.rest⟩
  else loop ([], store parse.out) parse.rest

theorem Parse.SameCourse.andThen {τ : Type} {p q : Parse τ} (h : p.SameCourse q)
    {store store' : τ → σ} {loop : Bytes × σ → List Event → Parse σ} {R : σ → σ → Prop}
    (hstore : R (store p.out) (store' q.out))
    (hloop : ∀ a b, R a b → (loop ([], a) p.rest).Agree R (loop ([], b) p.rest)) :
    (p.andThen store loop).Agree R (q.andThen store' loop) := by
  unfold Parse.andThen
  rw [← h.ret, ← h.rest]
  split
  · exact ⟨⟨rfl, rfl⟩, hstore⟩
  · exact hloop _ _ hstore

theorem Passes.andThen {τ : Type} {loop : Bytes × σ → List Event → Parse σ} {k : Bytes × σ}
    {event : Event} {events : List Event} {call : List Event → Parse τ} {parse : Parse τ}
    {store : τ → σ} (hwithin : Within call events parse) (hstopped : stopped (-1))
    (h : ∀ more, loop k (event :: more) = (call more).andThen store loop)
    (hpasses : Passes loop stopped ([], store parse.out) parse.rest) :
    Passes loop stopped k (event :: events) := by
  have hsuffix := hwithin.suffix.trans (List.suffix_cons event events)
  have hcall : ∀ more, loop k (event :: events ++ more) =
      { parse with rest := parse.rest ++ more }.andThen store loop := fun more => by
    rw [← hwithin.eq, ← h, List.cons_append]
  by_cases hret : parse.ret < 0
  · refine .stops ⟨-1, store parse.out, parse.rest⟩ hstopped ⟨hsuffix, fun more => ?_⟩
    rw [hcall, Parse.andThen, if_pos hret]
  · refine .of_eq hsuffix (fun more => ?_) hpasses
    rw [hcall, Parse.andThen, if_neg hret]

end Loop

end LibYaml
