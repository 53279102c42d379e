import Mathlib.Data.List.Basic
import Mathlib.Data.List.Induction
import Mathlib.Data.List.Dedup
import Mathlib.Data.List.OfFn
import Mathlib.Data.Set.Function

/-! # Extend chains

A register is extended with a value `v` by replacing its content `a` with
`H (a ++ v)`. Folding that over a list commits to the whole list: two chains from
the same start with the same end have the same values, unless a collision of `H`
among the messages they hash, or a message hashing to the start, is at hand. -/

namespace HashChain

section Links

variable {δ ν : Type*} (ext : δ → ν → δ)

/-- The (content, value) pairs that a chain combines, in order. -/
def links : δ → List ν → List (δ × ν)
  | _, [] => []
  | a, v :: vs => (a, v) :: links (ext a v) vs

theorem links_append (a : δ) (vs ws : List ν) :
    links ext a (vs ++ ws) = links ext a vs ++ links ext (vs.foldl ext a) ws := by
  induction vs generalizing a with
  | nil => rfl
  | cons v vs ih => simp [links, ih]

theorem mem_links_mono {a : δ} {vs ws : List ν} (h : vs <+: ws) {p : δ × ν}
    (hp : p ∈ links ext a vs) : p ∈ links ext a ws := by
  obtain ⟨rest, rfl⟩ := h
  rw [links_append]
  exact List.mem_append_left _ hp

/-- A chain determines its values: `ext` may not merge two of the pairs the chains
combine, nor lead back to the start. -/
theorem foldl_injective {z : δ} {vs ws : List ν}
    (hinj : ∀ p ∈ links ext z vs, ∀ q ∈ links ext z ws, ext p.1 p.2 = ext q.1 q.2 → p = q)
    (hvs : ∀ p ∈ links ext z vs, ext p.1 p.2 ≠ z)
    (hws : ∀ q ∈ links ext z ws, ext q.1 q.2 ≠ z)
    (h : vs.foldl ext z = ws.foldl ext z) : vs = ws := by
  -- Both chains are unwound from their last link: the induction drops one value of each.
  induction vs using List.reverseRecOn generalizing ws with
  | nil =>
      rcases List.eq_nil_or_concat ws with rfl | ⟨ws, w, rfl⟩
      · rfl
      · have hmem : (ws.foldl ext z, w) ∈ links ext z (ws.concat w) := by
          simp [links_append, links]
        exact absurd (by simpa using h.symm) (hws _ hmem)
  | append_singleton vs v ih =>
      have hv : (vs.foldl ext z, v) ∈ links ext z (vs ++ [v]) := by simp [links_append, links]
      rcases List.eq_nil_or_concat ws with rfl | ⟨ws, w, rfl⟩
      · exact absurd (by simpa using h) (hvs _ hv)
      · rw [List.concat_eq_append] at hinj hws h ⊢
        have hw : (ws.foldl ext z, w) ∈ links ext z (ws ++ [w]) := by simp [links_append, links]
        obtain ⟨hfold, rfl⟩ := Prod.mk.inj (hinj _ hv _ hw (by simpa using h))
        have hsub : ∀ us : List ν, ∀ p ∈ links ext z us, p ∈ links ext z (us ++ [v]) :=
          fun us p hp => mem_links_mono ext (List.prefix_append us [v]) hp
        have heq : vs = ws := ih
          (fun p hp q hq => hinj p (hsub vs p hp) q (hsub ws q hq))
          (fun p hp => hvs p (hsub vs p hp)) (fun q hq => hws q (hsub ws q hq)) hfold
        rw [heq]

/-- A chain determines its start and as many values as another one has. -/
theorem foldl_injective_of_length {a b : δ} {vs ws : List ν}
    (hinj : ∀ p ∈ links ext a vs, ∀ q ∈ links ext b ws, ext p.1 p.2 = ext q.1 q.2 → p = q)
    (hlength : vs.length = ws.length) (h : vs.foldl ext a = ws.foldl ext b) :
    a = b ∧ vs = ws := by
  induction vs generalizing a b ws with
  | nil =>
      obtain rfl := List.length_eq_zero_iff.mp hlength.symm
      exact ⟨h, rfl⟩
  | cons v vs ih =>
      obtain ⟨w, ws, rfl⟩ := List.exists_cons_of_length_eq_add_one hlength.symm
      obtain ⟨hext, rfl⟩ := ih
        (fun p hp q hq => hinj p (List.mem_cons_of_mem _ hp) q (List.mem_cons_of_mem _ hq))
        (Nat.succ.inj hlength) h
      obtain ⟨rfl, rfl⟩ := Prod.mk.inj (hinj _ List.mem_cons_self _ List.mem_cons_self hext)
      exact ⟨rfl, rfl⟩

end Links

section Bytes

variable {α : Type*} (H : List α → List α)

/-- One extend of a register. -/
def extend (a v : List α) : List α := H (a ++ v)

/-- The content of a register after extending it with each value in turn. -/
def chain (z : List α) (vs : List (List α)) : List α := vs.foldl (extend H) z

/-- The messages a chain hashes. -/
def messages (z : List α) (vs : List (List α)) : List (List α) :=
  (links (extend H) z vs).map fun p => p.1 ++ p.2

/-- The successive contents of a register, after each of the values. -/
def contents : List α → List (List α) → List (List α)
  | _, [] => []
  | a, v :: vs => extend H a v :: contents (extend H a v) vs

@[simp] theorem chain_nil (z : List α) : chain H z [] = z := rfl

@[simp] theorem chain_cons (z v : List α) (vs : List (List α)) :
    chain H z (v :: vs) = chain H (extend H z v) vs := rfl

theorem chain_append (z : List α) (vs ws : List (List α)) :
    chain H z (vs ++ ws) = chain H (chain H z vs) ws := by
  simp [chain, List.foldl_append]

theorem chain_concat (z v : List α) (vs : List (List α)) :
    chain H z (vs ++ [v]) = H (chain H z vs ++ v) := by
  simp [chain_append, extend]

theorem contents_append (z : List α) (vs ws : List (List α)) :
    contents H z (vs ++ ws) = contents H z vs ++ contents H (chain H z vs) ws := by
  induction vs generalizing z with
  | nil => rfl
  | cons v vs ih => simp [contents, ih]

@[simp] theorem length_contents (z : List α) (vs : List (List α)) :
    (contents H z vs).length = vs.length := by
  induction vs generalizing z with
  | nil => rfl
  | cons v vs ih => simp [contents, ih]

theorem chain_mem_contents (z : List α) {vs : List (List α)} (hne : vs ≠ []) :
    chain H z vs ∈ contents H z vs := by
  obtain ⟨vs, v, rfl⟩ := List.eq_nil_or_concat vs |>.resolve_left hne
  simp [contents_append, chain_append, contents]

/-- The contents are the chains over the prefixes of the values. -/
theorem contents_map_eq_ofFn {β : Type*} (value : β → List α) (z : List α) (xs : List β) :
    contents H z (xs.map value) =
      List.ofFn fun j : Fin xs.length => chain H z ((xs.map value).take (j + 1)) := by
  induction xs generalizing z with
  | nil => rfl
  | cons x xs ih =>
      simp only [List.length_cons, List.ofFn_succ]
      rw [List.map_cons, contents, ih]
      rfl

theorem messages_append (z : List α) (vs ws : List (List α)) :
    messages H z (vs ++ ws) = messages H z vs ++ messages H (chain H z vs) ws := by
  simp [messages, links_append, chain]

theorem messages_concat (z v : List α) (vs : List (List α)) :
    messages H z (vs ++ [v]) = messages H z vs ++ [chain H z vs ++ v] := by
  rw [messages_append]
  simp [messages, links]

theorem mem_messages_mono {z : List α} {vs ws : List (List α)} (h : vs <+: ws) {m : List α}
    (hm : m ∈ messages H z vs) : m ∈ messages H z ws := by
  obtain ⟨p, hp, rfl⟩ := List.mem_map.mp hm
  exact List.mem_map_of_mem (mem_links_mono _ h hp)

/-- `H` has no collision on the messages of `S`, and none of them hashes to `z`. -/
structure CollisionFree (z : List α) (S : Set (List α)) : Prop where
  injOn : Set.InjOn H S
  avoids : ∀ m ∈ S, H m ≠ z

theorem CollisionFree.mono {z : List α} {S T : Set (List α)} (h : CollisionFree H z T)
    (hsub : S ⊆ T) : CollisionFree H z S :=
  ⟨h.injOn.mono hsub, fun m hm => h.avoids m (hsub hm)⟩

/-- For finitely many messages, the digests are compared. -/
theorem collisionFree_iff_nodup [DecidableEq α] {z : List α} {ms : List (List α)} :
    CollisionFree H z {m | m ∈ ms} ↔ (ms.dedup.map H).Nodup ∧ z ∉ ms.map H := by
  rw [List.nodup_map_iff_inj_on (List.nodup_dedup ms)]
  simp only [List.mem_dedup, List.mem_map, not_exists, not_and]
  exact ⟨fun h => ⟨fun m hm m' hm' heq => h.injOn hm hm' heq, fun m hm => h.avoids m hm⟩,
    fun h => ⟨fun m hm m' hm' heq => h.1 m hm m' hm' heq, fun m hm => h.2 m hm⟩⟩

instance [DecidableEq α] {z : List α} {ms : List (List α)} :
    Decidable (CollisionFree H z {m | m ∈ ms}) :=
  decidable_of_iff _ (collisionFree_iff_nodup H).symm

theorem length_chain {size : ℕ} (hH : ∀ m, (H m).length = size) {z : List α}
    (hz : z.length = size) (vs : List (List α)) : (chain H z vs).length = size := by
  rcases List.eq_nil_or_concat vs with rfl | ⟨vs, v, rfl⟩
  · exact hz
  · rw [List.concat_eq_append, chain_concat]
    exact hH _

/-- All contents of a register have the size of its start and of a digest. -/
theorem length_fst_of_mem_links {size : ℕ} (hH : ∀ m, (H m).length = size) {z : List α}
    (hz : z.length = size) {vs : List (List α)} {p : List α × List α}
    (hp : p ∈ links (extend H) z vs) : p.1.length = size := by
  induction vs generalizing z with
  | nil => simp [links] at hp
  | cons v vs ih =>
      rcases List.mem_cons.mp hp with rfl | hp
      · exact hz
      · exact ih (hH _) hp

/-- The messages determine the links. -/
theorem links_eq {size : ℕ} (hH : ∀ m, (H m).length = size) {z : List α} (hz : z.length = size)
    {vs ws : List (List α)} {p q : List α × List α} (hp : p ∈ links (extend H) z vs)
    (hq : q ∈ links (extend H) z ws) (h : p.1 ++ p.2 = q.1 ++ q.2) : p = q := by
  have hlen : p.1.length = q.1.length := by
    rw [length_fst_of_mem_links H hH hz hp, length_fst_of_mem_links H hH hz hq]
  exact Prod.ext (List.append_inj_left h hlen) (List.append_inj_right h hlen)

/-- A collision-free chain determines its values. -/
theorem chain_injective {size : ℕ} (hH : ∀ m, (H m).length = size) {z : List α}
    (hz : z.length = size) {vs ws : List (List α)}
    (hfree : CollisionFree H z {m | m ∈ messages H z vs ∨ m ∈ messages H z ws})
    (h : chain H z vs = chain H z ws) : vs = ws := by
  have hmem : ∀ {us : List (List α)} {p},
      p ∈ links (extend H) z us → p.1 ++ p.2 ∈ messages H z us :=
    fun hp => List.mem_map_of_mem hp
  refine foldl_injective (extend H) ?_ ?_ ?_ h
  · intro p hp q hq heq
    exact links_eq H hH hz hp hq (hfree.injOn (.inl (hmem hp)) (.inr (hmem hq)) heq)
  · exact fun p hp => hfree.avoids _ (.inl (hmem hp))
  · exact fun q hq => hfree.avoids _ (.inr (hmem hq))

/-- Among chains of one length, injectivity on the messages is enough. -/
theorem chain_injective_of_length {size : ℕ} (hH : ∀ m, (H m).length = size) {z : List α}
    (hz : z.length = size) {vs ws : List (List α)}
    (hinj : Set.InjOn H {m | m ∈ messages H z vs ∨ m ∈ messages H z ws})
    (hlength : vs.length = ws.length) (h : chain H z vs = chain H z ws) : vs = ws := by
  refine (foldl_injective_of_length (extend H) (fun p hp q hq heq => ?_) hlength h).2
  exact links_eq H hH hz hp hq
    (hinj (.inl (List.mem_map_of_mem hp)) (.inr (List.mem_map_of_mem hq)) heq)

/-- Equal contents histories come from equal values, when the chain is collision-free. -/
theorem contents_injective {size : ℕ} (hH : ∀ m, (H m).length = size) {z : List α}
    (hz : z.length = size) {vs ws : List (List α)}
    (hfree : CollisionFree H z {m | m ∈ messages H z vs ∨ m ∈ messages H z ws})
    (h : contents H z vs = contents H z ws) : vs = ws := by
  apply chain_injective H hH hz hfree
  rcases List.eq_nil_or_concat vs with rfl | ⟨vs', v, rfl⟩
  · have hlen := congrArg List.length h
    have hws : ws = [] := List.length_eq_zero_iff.mp (by simpa using hlen.symm)
    rw [hws]
  · rcases List.eq_nil_or_concat ws with rfl | ⟨ws', w, rfl⟩
    · have hlen := congrArg List.length h
      simp at hlen
    · simp only [List.concat_eq_append, contents_append] at h ⊢
      have hlast := (List.append_inj' h rfl).2
      simpa [contents, chain_append] using hlast

end Bytes

end HashChain
