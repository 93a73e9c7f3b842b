import Mathlib.Data.List.Basic
import Mathlib.Data.List.Nodup

/-!
# Queues with one entry for each key

Whoever asks again for a key that is still queued changes the entry in its place, so that the
queue is worked off once for each key.
-/

namespace Coalesced

variable {κ β : Type} [DecidableEq κ] {l : List (κ × β)} {k k' : κ} {b : β}

/-- Queues `b` for `k`: in the place of the first entry for `k`, or else at the end. -/
def put : List (κ × β) → κ → β → List (κ × β)
  | [], k, b => [(k, b)]
  | e :: l, k, b => if e.1 = k then (k, b) :: l else e :: put l k b

/-- Takes the first entry for `k` out. -/
def drop (l : List (κ × β)) (k : κ) : List (κ × β) := l.eraseP (fun e => e.1 = k)

def Unique (l : List (κ × β)) : Prop := (l.map Prod.fst).Nodup

lemma lookup_cons_self : ((k, b) :: l).lookup k = some b := by
  rw [List.lookup_cons, beq_self_eq_true]

lemma lookup_cons_of_ne (h : k ≠ k') : ((k', b) :: l).lookup k = l.lookup k := by
  rw [List.lookup_cons, beq_eq_false_iff_ne.mpr h]

lemma lookup_eq_none : l.lookup k = none ↔ k ∉ l.map Prod.fst := by
  rw [List.lookup_eq_none_iff, List.mem_map]
  constructor
  · rintro h ⟨e, he, rfl⟩
    simpa using h e he
  · intro h e he
    rw [bne_iff_ne]
    rintro rfl
    exact h ⟨e, he, rfl⟩

omit [DecidableEq κ] in
lemma Unique.tail {e : κ × β} (h : Unique (e :: l)) : Unique l :=
  (List.nodup_cons.mp h).2

lemma Unique.lookup_tail (h : Unique ((k, b) :: l)) : l.lookup k = none :=
  lookup_eq_none.mpr (List.nodup_cons.mp h).1

lemma lookup_put_self : (put l k b).lookup k = some b := by
  induction l with
  | nil => exact lookup_cons_self
  | cons e l ih =>
    rw [put]
    split
    · exact lookup_cons_self
    · next hne => rw [lookup_cons_of_ne (Ne.symm hne), ih]

lemma lookup_put_of_ne (h : k' ≠ k) : (put l k b).lookup k' = l.lookup k' := by
  induction l with
  | nil => exact lookup_cons_of_ne h
  | cons e l ih =>
    obtain ⟨k'', b''⟩ := e
    rw [put]
    split
    · next heq =>
      cases heq
      rw [lookup_cons_of_ne h, lookup_cons_of_ne h]
    · rw [List.lookup_cons, List.lookup_cons, ih]

lemma mem_keys_put : k' ∈ (put l k b).map Prod.fst → k' = k ∨ k' ∈ l.map Prod.fst := by
  induction l with
  | nil => simp [put]
  | cons e l ih =>
    rw [put]
    split
    · next heq =>
      subst heq
      simp
    · intro hmem
      rw [List.map_cons, List.mem_cons] at hmem ⊢
      rcases hmem with hmem | hmem
      · exact .inr (.inl hmem)
      · exact (ih hmem).imp_right .inr

lemma Unique.put (h : Unique l) : Unique (put l k b) := by
  induction l with
  | nil => exact List.nodup_singleton k
  | cons e l ih =>
    rw [Coalesced.put]
    split
    · next heq =>
      subst heq
      exact h
    · next hne =>
      refine List.nodup_cons.mpr ⟨fun hmem => ?_, ih h.tail⟩
      rcases mem_keys_put hmem with heq | hmem
      · exact hne heq
      · exact (List.nodup_cons.mp h).1 hmem

lemma Unique.drop (h : Unique l) (k : κ) : Unique (Coalesced.drop l k) :=
  h.sublist (List.eraseP_sublist.map Prod.fst)

lemma Unique.lookup_drop_self (h : Unique l) : (Coalesced.drop l k).lookup k = none := by
  induction l with
  | nil => rfl
  | cons e l ih =>
    obtain ⟨k', b'⟩ := e
    rw [Coalesced.drop, List.eraseP_cons]
    by_cases heq : k' = k
    · subst heq
      simpa using h.lookup_tail
    · simp only [heq, decide_false, cond_false]
      rw [lookup_cons_of_ne (Ne.symm heq)]
      exact ih h.tail

lemma lookup_drop_of_ne (h : k' ≠ k) : (drop l k).lookup k' = l.lookup k' := by
  induction l with
  | nil => rfl
  | cons e l ih =>
    obtain ⟨k'', b''⟩ := e
    rw [drop, List.eraseP_cons]
    by_cases heq : k'' = k
    · subst heq
      simp [lookup_cons_of_ne h]
    · simp only [heq, decide_false, cond_false]
      rw [List.lookup_cons, List.lookup_cons, ← ih, drop]

end Coalesced
