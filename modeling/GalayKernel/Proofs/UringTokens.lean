import GalayKernel.UringTokens
import GalayKernel.Lib.Pool
import GalayKernel.Lib.Transition

/-!
# Tokens are recycled once

Every token of an arena is free or held, once: by a request in the kernel, by the completion that is
being processed, or by nobody any more because it was kept after its last completion. Which of its
flags a token has set says which completions are still to come, so the guard of `processCompletion`
recycles it after the last one, with one exception. The result of a zero-copy send that carries no
`IORING_CQE_F_MORE` is not followed by a notification, and the token waits for one forever.
-/

namespace GalayKernel.Proofs

open Transition SqeTokenArena

/-- The flags of a token whose request has these completions to come. -/
def Follows : SqeProtocol → SqeRequestToken → Prop
  | .oneShot, token => token.persistent = false ∧ token.notifyExpected = false
  | .multishot, token => token.persistent = true
  | .zeroCopy, token =>
    token.persistent = false ∧ token.notifyExpected = true ∧ token.notifyReceived = false
  | .notification, token => token.resultCompleted = true

variable {protocol : SqeProtocol} {token : SqeRequestToken} {flags : CqeFlags} {zc : Bool}

lemma posts_more {protocol' : SqeProtocol} (h : protocol.posts flags = some (some protocol')) :
    flags = ⟨false, true⟩ ∧ (protocol = .multishot ∧ protocol' = .multishot ∨
      protocol = .zeroCopy ∧ protocol' = .notification) := by
  revert h
  fun_cases SqeProtocol.posts protocol flags <;> simp [eq_comm]

lemma posts_last (h : protocol.posts flags = some none) :
    protocol = .notification ∧ flags = ⟨true, false⟩ ∨
      protocol ≠ .notification ∧ flags = ⟨false, false⟩ := by
  revert h
  fun_cases SqeProtocol.posts protocol flags <;> simp

lemma Follows.complete_more {protocol' : SqeProtocol} (h : Follows protocol token)
    (hposts : protocol.posts flags = some (some protocol')) :
    (token.complete flags).2 = false ∧ Follows protocol' (token.complete flags).1 := by
  obtain ⟨rfl, ⟨rfl, rfl⟩ | ⟨rfl, rfl⟩⟩ := posts_more hposts
  · have hpersistent : token.persistent = true := h
    simp [SqeRequestToken.complete, hpersistent, Follows]
  · obtain ⟨hpersistent, hexpected, hreceived⟩ := h
    simp [SqeRequestToken.complete, hpersistent, hexpected, hreceived, Follows]

/-- The last completion recycles the token, unless a notification is expected. -/
lemma Follows.complete_last (h : Follows protocol token)
    (hposts : protocol.posts flags = some none) :
    (token.complete flags).2 = true ∨ protocol = .zeroCopy ∧ flags = ⟨false, false⟩ := by
  obtain ⟨rfl, rfl⟩ | ⟨hne, rfl⟩ := posts_last hposts
  · exact .inl h
  · cases protocol with
    | oneShot =>
      obtain ⟨hpersistent, hexpected⟩ := h
      simp [SqeRequestToken.complete, hpersistent, hexpected]
    | multishot =>
      have hpersistent : token.persistent = true := h
      simp [SqeRequestToken.complete, hpersistent]
    | zeroCopy => exact .inr ⟨rfl, rfl⟩
    | notification => exact absurd rfl hne

lemma generation_complete : (token.complete flags).1.generation = token.generation := by
  unfold SqeRequestToken.complete
  split_ifs <;> rfl

lemma follows_prepare (sub : SqeSubmission) (generation : Nat) :
    Follows (sub.protocol zc)
      (sub.prepare zc { SqeRequestToken.cleared with bound := true, generation }) := by
  cases htype : sub.type <;> simp only [SqeSubmission.protocol, SqeSubmission.prepare, htype]
  case accept | recv => split <;> simp [Follows, SqeRequestToken.cleared]
  case send =>
    by_cases hz : shouldUseSendZc zc sub.length = true <;>
      simp [hz, Follows, SqeRequestToken.cleared]
  all_goals simp [Follows, SqeRequestToken.cleared]

/-- The tokens that are not free, where the completion that is being processed holds `busy`. -/
def heldTokens (busy : List Nat) (a : SqeTokenArena) : List Nat :=
  busy ++ (a.requests.map (·.token) ++ a.kept)

structure ArenaOk (busy : List Nat) (a : SqeTokenArena) : Prop where
  splits : Pool.Splits a.size a.free (heldTokens busy a)
  cleared : ∀ t, t ∉ heldTokens busy a → a.tokens t = .cleared
  follows : ∀ r ∈ a.requests, Follows r.protocol (a.tokens r.token)
  generation_le : ∀ r ∈ a.requests, (a.tokens r.token).generation ≤ a.generation
  balance : ∀ t, a.acquired t = a.recycled t + (heldTokens busy a).count t

variable {a a' : SqeTokenArena} {busy : List Nat} {t : Nat} {sub : SqeSubmission}

lemma token_ne {r : SqeRequest} (ht : t ∉ heldTokens busy a) (hr : r ∈ a.requests) :
    r.token ≠ t := by
  rintro rfl
  simp only [heldTokens, List.mem_append, not_or] at ht
  exact ht.2.1 (List.mem_map_of_mem hr)

lemma ArenaOk.request {r : SqeRequest} (h : ArenaOk busy a) (hr : r ∈ a.requests) :
    Follows r.protocol (a.tokens r.token) ∧ (a.tokens r.token).generation ≤ a.generation :=
  ⟨h.follows r hr, h.generation_le r hr⟩

lemma ArenaOk.of_requests (hsplits : Pool.Splits a.size a.free (heldTokens busy a))
    (hcleared : ∀ t, t ∉ heldTokens busy a → a.tokens t = .cleared)
    (hrequests : ∀ r ∈ a.requests, Follows r.protocol (a.tokens r.token) ∧
      (a.tokens r.token).generation ≤ a.generation)
    (hbalance : ∀ t, a.acquired t = a.recycled t + (heldTokens busy a).count t) :
    ArenaOk busy a :=
  ⟨hsplits, hcleared, fun r hr => (hrequests r hr).1, fun r hr => (hrequests r hr).2, hbalance⟩

lemma arenaOk_new : ArenaOk [] SqeTokenArena.new where
  splits :=
    have hempty : Pool.Splits 0 [] [] := .refl _
    hempty.grow (List.reverse_perm _)
  cleared := fun _ _ => rfl
  follows := by simp [SqeTokenArena.new, grow]
  generation_le := by simp [SqeTokenArena.new, grow]
  balance := by simp [SqeTokenArena.new, grow, heldTokens]

lemma ArenaOk.grow (h : ArenaOk busy a) : ArenaOk busy a.grow :=
  { h with splits := h.splits.grow (List.reverse_perm _) }

/-- The generation only grows, so the tokens in flight stay behind it. -/
lemma ArenaOk.newGeneration (h : ArenaOk busy a) (owned : Bool) :
    ArenaOk busy { a with generation := a.generation + 1, owned } :=
  { h with generation_le := fun r hr => (h.generation_le r hr).trans (Nat.le_succ _) }

lemma ArenaOk.take {rest : List Nat} (h : ArenaOk busy a) (hfree : a.free = t :: rest) :
    ArenaOk (t :: busy) { a.setToken t { a.tokens t with
      bound := true, generation := a.generation } with
        free := rest
        acquired := Function.update a.acquired t (a.acquired t + 1) } ∧
    t ∉ heldTokens busy a := by
  have hsplits := h.splits
  rw [hfree] at hsplits
  have hnot : t ∉ heldTokens busy a := by
    have hnodup := hsplits.nodup
    rw [List.cons_append, List.nodup_cons, List.mem_append, not_or] at hnodup
    exact hnodup.1.2
  refine ⟨.of_requests hsplits.take ?_ ?_ ?_, hnot⟩
  · intro u hu
    simp only [heldTokens, setToken, List.cons_append, List.mem_cons, not_or] at hu ⊢
    rw [Function.update_of_ne hu.1]
    exact h.cleared u hu.2
  · intro r hr
    simp only [setToken]
    rw [Function.update_of_ne (token_ne hnot hr)]
    exact h.request hr
  · intro u
    have hu := h.balance u
    simp only [heldTokens, setToken, List.cons_append, List.count_cons] at hu ⊢
    by_cases hut : t = u
    · subst hut
      rw [Function.update_self, if_pos (beq_self_eq_true t), hu]
      omega
    · rw [Function.update_of_ne (Ne.symm hut), if_neg (by simpa using hut), hu]
      omega

lemma ArenaOk.acquire {memory : Bool} (h : ArenaOk busy a)
    (hacquire : a.acquire memory = some (t, a')) :
    ArenaOk (t :: busy) a' ∧ t ∉ heldTokens busy a ∧
      a'.tokens = Function.update a.tokens t
        { SqeRequestToken.cleared with bound := true, generation := a.generation } ∧
      a'.requests = a.requests ∧ a'.generation = a.generation ∧ a'.kept = a.kept := by
  set b := if a.free = [] ∧ memory then a.grow else a with hb
  have hbok : ArenaOk busy b := by
    rw [hb]
    split_ifs
    · exact h.grow
    · exact h
  obtain ⟨htokens, hrequests, hgeneration, hkept⟩ : b.tokens = a.tokens ∧
      b.requests = a.requests ∧ b.generation = a.generation ∧ b.kept = a.kept := by
    rw [hb]
    split_ifs
    · exact ⟨rfl, rfl, rfl, rfl⟩
    · exact ⟨rfl, rfl, rfl, rfl⟩
  cases hfree : b.free with
  | nil => simp [SqeTokenArena.acquire, ← hb, hfree] at hacquire
  | cons u rest =>
    simp only [SqeTokenArena.acquire, ← hb, hfree, Option.some.injEq, Prod.mk.injEq] at hacquire
    obtain ⟨rfl, rfl⟩ := hacquire
    obtain ⟨htake, hnot⟩ := hbok.take hfree
    refine ⟨htake, ?_, ?_, hrequests, hgeneration, hkept⟩
    · rwa [heldTokens, hrequests, hkept] at hnot
    · simp only [setToken]
      rw [hbok.cleared _ hnot, htokens, hgeneration]

lemma ArenaOk.not_held (h : ArenaOk (t :: busy) a) : t ∉ heldTokens busy a :=
  (List.nodup_cons.mp (List.nodup_append.mp h.splits.nodup).2.1).1

lemma ArenaOk.recycle (h : ArenaOk (t :: busy) a) : ArenaOk busy (a.recycle t) := by
  have hnot := h.not_held
  refine .of_requests h.splits.put ?_ ?_ ?_
  · intro u hu
    simp only [SqeTokenArena.recycle, setToken]
    by_cases hut : u = t
    · rw [hut, Function.update_self]
    · rw [Function.update_of_ne hut]
      exact h.cleared u (List.not_mem_cons_of_ne_of_not_mem hut hu)
  · intro r hr
    simp only [SqeTokenArena.recycle, setToken]
    rw [Function.update_of_ne (token_ne hnot hr)]
    exact h.request hr
  · intro u
    have hu := h.balance u
    simp only [heldTokens, SqeTokenArena.recycle, setToken, List.cons_append,
      List.count_cons] at hu ⊢
    by_cases hut : t = u
    · subst hut
      rw [if_pos (beq_self_eq_true t)] at hu
      rw [Function.update_self, hu]
      omega
    · rw [if_neg (by simpa using hut)] at hu
      rw [Function.update_of_ne (Ne.symm hut), hu]
      omega

lemma ArenaOk.enqueue {token : SqeRequestToken} {submitter : Nat} (h : ArenaOk (t :: busy) a)
    (hfollows : Follows protocol token) (hle : token.generation ≤ a.generation) :
    ArenaOk busy { a.setToken t token with
      requests := a.requests ++ [⟨t, protocol, submitter⟩] } := by
  have hnot := h.not_held
  have hperm : (heldTokens busy { a.setToken t token with
      requests := a.requests ++ [⟨t, protocol, submitter⟩] }).Perm (heldTokens (t :: busy) a) := by
    simp only [setToken, List.map_append, List.map_cons, List.map_nil, List.append_assoc,
      List.cons_append, List.nil_append, heldTokens]
    rw [← List.append_assoc, ← List.append_assoc]
    exact List.perm_middle
  refine .of_requests (h.splits.perm hperm) ?_ ?_ ?_
  · intro u hu
    rw [hperm.mem_iff] at hu
    simp only [setToken]
    rw [Function.update_of_ne (List.ne_of_not_mem_cons hu)]
    exact h.cleared u hu
  · intro r hr
    simp only [setToken]
    rcases List.mem_append.mp hr with hr | hr
    · rw [Function.update_of_ne (token_ne hnot hr)]
      exact h.request hr
    · rw [List.mem_singleton.mp hr, Function.update_self]
      exact ⟨hfollows, hle⟩
  · intro u
    rw [hperm.count_eq u]
    exact h.balance u

lemma generation_prepare : (sub.prepare zc token).generation = token.generation := by
  cases htype : sub.type <;> simp only [SqeSubmission.prepare, htype]
  case accept | recv => split <;> rfl

def epochOf (zc : Bool) (a : SqeTokenArena) (sub : SqeSubmission) : SqeTokenArena :=
  if sub.protocol zc = .multishot then a.advanceSqeGeneration else a

lemma ArenaOk.epoch (h : ArenaOk busy a) : ArenaOk busy (epochOf zc a sub) := by
  unfold epochOf
  split_ifs
  · exact h.newGeneration true
  · exact h

/-- The ends of a submission: `-ENOMEM`, `-EAGAIN`, and a request in the kernel. -/
lemma submit_cases (zc : Bool) (a : SqeTokenArena) (sub : SqeSubmission) :
    a.submit zc sub = (-(ENOMEM : Int), epochOf zc a sub) ∨
      ∃ t c, (epochOf zc a sub).acquire sub.memory = some (t, c) ∧
        (a.submit zc sub = (-(EAGAIN : Int), c.recycle t) ∨
          a.submit zc sub = (0, { c.setToken t (sub.prepare zc (c.tokens t)) with
            requests := c.requests ++ [⟨t, sub.protocol zc, sub.submitter⟩] })) := by
  unfold SqeTokenArena.submit epochOf
  dsimp only
  generalize (if sub.protocol zc = .multishot then a.advanceSqeGeneration else a) = b
  cases b.acquire sub.memory with
  | none => exact .inl rfl
  | some p =>
    obtain ⟨t, c⟩ := p
    refine .inr ⟨t, c, rfl, ?_⟩
    cases sub.hasSqe with
    | false => exact .inl rfl
    | true => exact .inr rfl

lemma ArenaOk.submit (h : ArenaOk busy a) : ArenaOk busy (a.submit zc sub).2 := by
  obtain heq | ⟨t, c, hacquire, heq | heq⟩ := submit_cases zc a sub
  · rw [heq]
    exact h.epoch
  · rw [heq]
    exact (h.epoch.acquire hacquire).1.recycle
  · obtain ⟨hc, -, htokens, -, hgeneration, -⟩ := h.epoch.acquire hacquire
    have htoken : c.tokens t = { SqeRequestToken.cleared with
        bound := true, generation := c.generation } := by
      rw [htokens, Function.update_self, hgeneration]
    rw [heq]
    apply hc.enqueue
    · rw [htoken]
      exact follows_prepare sub c.generation
    · rw [generation_prepare, htoken]

section Complete

variable {i : Nat} {r : SqeRequest}

lemma ArenaOk.token_inj (h : ArenaOk busy a) {r' : SqeRequest} (hi : a.requests[i]? = some r)
    {j : Nat} (hj : a.requests[j]? = some r') (hne : j ≠ i) : r'.token ≠ r.token := by
  have hnodup : (a.requests.map (·.token)).Nodup := by
    have hheld := (List.nodup_append.mp h.splits.nodup).2.1
    exact (List.nodup_append.mp (List.nodup_append.mp hheld).2.1).1
  intro heq
  apply hne
  apply (List.getElem?_inj _ hnodup).mp
  · rw [List.getElem?_map, List.getElem?_map, hi, hj, Option.map_some, Option.map_some, heq]
  · rw [List.length_map]
    exact (List.getElem?_eq_some_iff.mp hj).1

lemma ArenaOk.post_last (h : ArenaOk busy a) (hi : a.requests[i]? = some r) :
    ArenaOk (r.token :: busy) (a.post i r flags none) := by
  obtain ⟨hlt, hget⟩ := List.getElem?_eq_some_iff.mp hi
  have hperm : (heldTokens (r.token :: busy) (a.post i r flags none)).Perm
      (heldTokens busy a) := by
    have herase := (List.getElem_cons_eraseIdx_perm hlt).map (·.token)
    rw [List.map_cons, hget] at herase
    simp only [heldTokens, post, setToken, List.cons_append]
    exact List.perm_middle.symm.trans
      ((herase.append_right a.kept).append_left busy)
  have hother : ∀ r' ∈ a.requests.eraseIdx i, r' ∈ a.requests ∧ r'.token ≠ r.token := by
    intro r' hr'
    obtain ⟨j, hj, hr'⟩ := List.mem_eraseIdx_iff_getElem?.mp hr'
    exact ⟨List.mem_of_getElem? hr', h.token_inj hi hr' hj⟩
  refine .of_requests (h.splits.perm hperm) ?_ ?_ ?_
  · intro u hu
    simp only [post, setToken]
    rw [Function.update_of_ne (List.ne_of_not_mem_cons hu)]
    rw [hperm.mem_iff] at hu
    exact h.cleared u hu
  · intro r' hr'
    obtain ⟨hmem, hne⟩ := hother r' hr'
    simp only [post, setToken]
    rw [Function.update_of_ne hne]
    exact h.request hmem
  · intro u
    rw [hperm.count_eq u]
    exact h.balance u

lemma ArenaOk.post_more {protocol' : SqeProtocol} (h : ArenaOk busy a)
    (hi : a.requests[i]? = some r) (hposts : r.protocol.posts flags = some (some protocol')) :
    ArenaOk busy (a.post i r flags (some protocol')) := by
  have hlt : i < a.requests.length := (List.getElem?_eq_some_iff.mp hi).1
  have hmem : r ∈ a.requests := List.mem_of_getElem? hi
  have hheld : heldTokens busy (a.post i r flags (some protocol')) = heldTokens busy a := by
    have hset : (a.requests.set i { r with protocol := protocol' }).map (·.token) =
        a.requests.map (·.token) := by
      apply List.ext_getElem?
      intro j
      rw [List.getElem?_map, List.getElem?_set, List.getElem?_map]
      split_ifs with hij
      · rw [← hij, hi]
        rfl
      · rfl
    simp only [heldTokens, post, setToken, hset]
  have hcases : ∀ r' ∈ a.requests.set i { r with protocol := protocol' },
      r' = { r with protocol := protocol' } ∨ r' ∈ a.requests ∧ r'.token ≠ r.token := by
    intro r' hr'
    obtain ⟨j, hj⟩ := List.mem_iff_getElem?.mp hr'
    rw [List.getElem?_set] at hj
    split_ifs at hj with hij
    · exact .inl (Option.some.inj hj).symm
    · exact .inr ⟨List.mem_of_getElem? hj, h.token_inj hi hj (Ne.symm hij)⟩
  refine .of_requests (hheld ▸ h.splits) ?_ ?_ ?_
  · intro u hu
    rw [hheld] at hu
    simp only [post, setToken]
    rw [Function.update_of_ne (token_ne hu hmem).symm]
    exact h.cleared u hu
  · intro r' hr'
    simp only [post, setToken]
    rcases hcases r' hr' with rfl | ⟨hmem', hne⟩
    · rw [Function.update_self, generation_complete]
      exact ⟨((h.follows r hmem).complete_more hposts).2, h.generation_le r hmem⟩
    · rw [Function.update_of_ne hne]
      exact h.request hmem'
  · intro u
    rw [hheld]
    exact h.balance u

lemma ArenaOk.leave_last (h : ArenaOk (t :: busy) a) (recycles : Bool) :
    ArenaOk busy (a.leave t recycles none) := by
  cases recycles with
  | true => exact h.recycle
  | false =>
    have hperm : (heldTokens busy (a.leave t false none)).Perm (heldTokens (t :: busy) a) := by
      simp only [heldTokens, leave, List.cons_append, Option.isNone_none, Bool.false_eq_true,
        if_false, if_true]
      simpa only [List.append_assoc] using
        List.perm_append_singleton t (busy ++ (a.requests.map (·.token) ++ a.kept))
    refine ⟨h.splits.perm hperm, ?_, h.follows, h.generation_le, ?_⟩
    · intro u hu
      rw [hperm.mem_iff] at hu
      exact h.cleared u hu
    · intro u
      rw [hperm.count_eq u]
      exact h.balance u

/-- The token that the guard has in hand between the update of the token and its destructor. -/
def guardTokens (t : Nat) (remaining : Option SqeProtocol) : List Nat :=
  if remaining.isNone then [t] else []

variable {remaining : Option SqeProtocol} {b : SqeTokenArena}
  (h : ArenaOk [] a) (hi : a.requests[i]? = some r)
  (hposts : r.protocol.posts flags = some remaining)

include h hi hposts

lemma ArenaOk.post : ArenaOk (guardTokens r.token remaining) (a.post i r flags remaining) := by
  cases remaining with
  | none => exact h.post_last hi
  | some protocol' => exact h.post_more hi hposts

lemma ArenaOk.leave (hb : ArenaOk (guardTokens r.token remaining) b) :
    ArenaOk [] (b.leave r.token ((a.tokens r.token).complete flags).2 remaining) := by
  cases remaining with
  | none => exact hb.leave_last _
  | some protocol' =>
    obtain ⟨hkeeps, -⟩ := (h.follows r (List.mem_of_getElem? hi)).complete_more hposts
    rw [hkeeps]
    exact hb

end Complete

variable {s s' : UringTokens} {slot : IOSlot}

/-- The completion that is being processed holds the tokens `busy`. -/
def TokensOk (busy : IOSlot → List Nat) (s : UringTokens) : Prop :=
  ∀ slot, ArenaOk (busy slot) (s.arena slot)

lemma arena_setArena : (s.setArena slot a).arena slot = a := Function.update_self ..

lemma arena_setArena_of_ne {slot' : IOSlot} (h : slot' ≠ slot) :
    (s.setArena slot a).arena slot' = s.arena slot' := Function.update_of_ne h ..

lemma TokensOk.setArena {busy busy' : IOSlot → List Nat} (h : TokensOk busy s)
    (ha : ArenaOk (busy' slot) a) (hother : ∀ slot', slot' ≠ slot → busy' slot' = busy slot') :
    TokensOk busy' (s.setArena slot a) := by
  intro slot'
  by_cases hslot : slot' = slot
  · subst hslot
    rw [arena_setArena]
    exact ha
  · rw [arena_setArena_of_ne hslot, hother slot' hslot]
    exact h slot'

lemma TokensOk.call {busy : IOSlot → List Nat} (h : TokensOk busy s) (c : SqeCall) :
    TokensOk busy (s.call zc c) := by
  cases c with
  | advanceSqeGeneration slot => exact h.setArena ((h slot).newGeneration true) fun _ _ => rfl
  | invalidateSqeRequests => exact fun slot => (h slot).newGeneration false
  | rebindSqeState => exact fun slot => { h slot with }
  | submit sub => exact h.setArena (h sub.type.slot).submit fun _ _ => rfl

lemma TokensOk.calls {busy : IOSlot → List Nat} (h : TokensOk busy s) (zc : Bool)
    (calls : List SqeCall) : TokensOk busy (calls.foldl (UringTokens.call zc) s) := by
  induction calls generalizing s with
  | nil => exact h
  | cons c calls ih => exact ih (h.call c)

section Complete

variable {i : Nat} {r : SqeRequest} {remaining : Option SqeProtocol}
  (h : TokensOk (fun _ => []) s) (hi : (s.arena slot).requests[i]? = some r)
  (hposts : r.protocol.posts flags = some remaining)

include h hi hposts

lemma TokensOk.post :
    TokensOk (Function.update (fun _ => []) slot (guardTokens r.token remaining))
      (s.setArena slot ((s.arena slot).post i r flags remaining)) := by
  refine h.setArena ?_ fun slot' hslot => Function.update_of_ne hslot _ _
  rw [Function.update_self]
  exact (h slot).post hi hposts

lemma TokensOk.complete (calls : List SqeCall) :
    TokensOk (fun _ => []) (s.complete zc slot i r flags remaining calls) := by
  have hcalled := (h.post hi hposts).calls zc calls
  refine hcalled.setArena ?_ fun slot' hslot => by rw [Function.update_of_ne hslot]
  have hslot := hcalled slot
  rw [Function.update_self] at hslot
  exact (h slot).leave hi hposts hslot

end Complete

lemma step_cases {act : TokenAction} (hs : s.step zc act = some s') :
    (∃ c, act = .call c ∧ s' = s.call zc c) ∨
      ∃ slot i flags calls r remaining, act = .complete slot i flags calls ∧
        (s.arena slot).requests[i]? = some r ∧ r.protocol.posts flags = some remaining ∧
        s' = s.complete zc slot i r flags remaining calls := by
  cases act with
  | call c => exact .inl ⟨c, rfl, (Option.some.inj hs).symm⟩
  | complete slot i flags calls =>
    rw [UringTokens.step] at hs
    split at hs
    · cases hs
    · next r hi =>
      split at hs
      · cases hs
      · next remaining hposts =>
        split at hs
        · cases hs
        · exact .inr ⟨slot, i, flags, calls, r, remaining, rfl, hi, hposts,
            (Option.some.inj hs).symm⟩

lemma TokensOk.step {act : TokenAction} (h : TokensOk (fun _ => []) s)
    (hs : s.step zc act = some s') : TokensOk (fun _ => []) s' := by
  obtain ⟨c, -, rfl⟩ | ⟨slot, i, flags, calls, r, remaining, -, hi, hposts, rfl⟩ := step_cases hs
  · exact h.call c
  · exact h.complete hi hposts calls

lemma ArenaOk.kept_submit (h : ArenaOk busy a) : (a.submit zc sub).2.kept = a.kept := by
  have hepoch : (epochOf zc a sub).kept = a.kept := by
    unfold epochOf
    split_ifs <;> rfl
  obtain heq | ⟨t, c, hacquire, heq | heq⟩ := submit_cases zc a sub
  · rw [heq, hepoch]
  · obtain ⟨-, -, -, -, -, hkept⟩ := h.epoch.acquire hacquire
    rw [heq, SqeTokenArena.recycle, setToken, hkept, hepoch]
  · obtain ⟨-, -, -, -, -, hkept⟩ := h.epoch.acquire hacquire
    rw [heq, setToken, hkept, hepoch]

lemma TokensOk.kept_call {busy : IOSlot → List Nat} (h : TokensOk busy s) (c : SqeCall)
    (slot : IOSlot) : ((s.call zc c).arena slot).kept = (s.arena slot).kept := by
  cases c with
  | advanceSqeGeneration slot' =>
    by_cases hslot : slot = slot'
    · rw [hslot, UringTokens.call, arena_setArena]
      rfl
    · rw [UringTokens.call, arena_setArena_of_ne hslot]
  | invalidateSqeRequests => rfl
  | rebindSqeState => rfl
  | submit sub =>
    by_cases hslot : slot = sub.type.slot
    · rw [hslot, UringTokens.call, arena_setArena]
      exact (h _).kept_submit
    · rw [UringTokens.call, arena_setArena_of_ne hslot]

lemma TokensOk.kept_calls {busy : IOSlot → List Nat} (h : TokensOk busy s) (zc : Bool)
    (calls : List SqeCall) (slot : IOSlot) :
    ((calls.foldl (UringTokens.call zc) s).arena slot).kept = (s.arena slot).kept := by
  induction calls generalizing s with
  | nil => rfl
  | cons c calls ih => rw [List.foldl_cons, ih (h.call c), h.kept_call c]

/-- A notification follows the result of every zero-copy send: the result has the flag. -/
def notificationFollows (s : UringTokens) : TokenAction → Bool
  | .call _ => true
  | .complete slot i flags _ =>
    (s.arena slot).requests[i]?.all fun r => r.protocol != .zeroCopy || flags.more

lemma TokensOk.kept_step {act : TokenAction} (h : TokensOk (fun _ => []) s)
    (hfollows : notificationFollows s act) (hs : s.step zc act = some s')
    (hkept : ∀ slot, (s.arena slot).kept = []) (slot : IOSlot) : (s'.arena slot).kept = [] := by
  obtain ⟨c, -, rfl⟩ | ⟨slot', i, flags, calls, r, remaining, rfl, hi, hposts, rfl⟩ := step_cases hs
  · rw [h.kept_call c slot, hkept slot]
  · have hcalled := (h.post hi hposts).kept_calls zc calls
    by_cases hslot : slot = slot'
    · subst hslot
      have hrecycles : (((s.arena slot).tokens r.token).complete flags).2 = true ∨
          remaining.isNone = false := by
        cases remaining with
        | some _ => exact .inr rfl
        | none =>
          refine .inl ((((h slot).follows r (List.mem_of_getElem? hi)).complete_last
            hposts).resolve_right ?_)
          rintro ⟨hzc, rfl⟩
          simp [notificationFollows, hi, hzc] at hfollows
      have hleave : ∀ b : SqeTokenArena, (b.leave r.token
          (((s.arena slot).tokens r.token).complete flags).2 remaining).kept = b.kept := by
        intro b
        unfold leave
        split_ifs with h1 h2
        · rfl
        · simp_all
        · rfl
      rw [UringTokens.complete, arena_setArena, hleave, hcalled slot, arena_setArena]
      exact hkept slot
    · rw [UringTokens.complete, arena_setArena_of_ne hslot, hcalled slot,
        arena_setArena_of_ne hslot]
      exact hkept slot

/-- A token is on the free list exactly when no completion is still to come for it, and it has come
back as often as it was handed out, except for a completion that is still to come. -/
structure RecycledOnce (a : SqeTokenArena) : Prop where
  mem_free_iff : ∀ t < a.size, t ∈ a.free ↔ ∀ r ∈ a.requests, r.token ≠ t
  free_nodup : a.free.Nodup
  requests_nodup : (a.requests.map (·.token)).Nodup
  balance : ∀ t, a.acquired t = a.recycled t + (a.requests.map (·.token)).count t

lemma ArenaOk.recycledOnce (h : ArenaOk [] a) (hkept : a.kept = []) : RecycledOnce a := by
  have hheld : heldTokens [] a = a.requests.map (·.token) := by
    rw [heldTokens, hkept, List.nil_append, List.append_nil]
  have hsplits := hheld ▸ h.splits
  refine ⟨?_, (List.nodup_append.mp hsplits.nodup).1, (List.nodup_append.mp hsplits.nodup).2.1, ?_⟩
  · intro t ht
    rw [hsplits.mem_free_iff ht, List.mem_map, not_exists]
    simp only [not_and]
  · intro t
    rw [h.balance t, hheld]

/-- Tokens are recycled exactly once as long as the results of zero-copy sends announce a
notification. -/
theorem tokens_recycled_once (h : Reaches (UringTokens.step zc)
      (fun s act => notificationFollows s act = true) .new s) (slot : IOSlot) :
    RecycledOnce (s.arena slot) := by
  have hok : TokensOk (fun _ => []) s ∧ ∀ slot, (s.arena slot).kept = [] := by
    refine h.invariant (P := fun s => TokensOk (fun _ => []) s ∧ ∀ slot, (s.arena slot).kept = [])
      ⟨fun _ => arenaOk_new, fun _ => rfl⟩ ?_
    intro s act s' hs hfollows hstep
    exact ⟨hs.1.step hstep, hs.1.kept_step hfollows hstep hs.2⟩
  exact (hok.1 slot).recycledOnce (hok.2 slot)

/-- A zero-copy send would block, the send is tried again without zero-copy, and the controller is
closed before the rest is posted; a multishot receive runs beside it. -/
def retriedSend : List TokenAction :=
  [.call (.submit ⟨.send, false, 4096, true, true, 0⟩),
    .call (.submit ⟨.recv, false, 0, true, true, 1⟩),
    .complete .write 0 ⟨false, true⟩ [.submit ⟨.send, false, 100, true, true, 0⟩],
    .complete .read 0 ⟨false, true⟩ [],
    .call .invalidateSqeRequests,
    .complete .write 0 ⟨true, false⟩ [],
    .complete .write 0 ⟨false, false⟩ [],
    .complete .read 0 ⟨false, false⟩ []]

theorem retriedSend_recycled_once : ∃ s,
    run (guarded notificationFollows (UringTokens.step true)) .new retriedSend = some s ∧
      (s.arena .write).free = [6, 7, 5, 4, 3, 2, 1, 0] ∧
      RecycledOnce (s.arena .write) ∧ RecycledOnce (s.arena .read) := by
  have hrun : ∃ s, run (guarded notificationFollows (UringTokens.step true)) .new retriedSend =
      some s ∧ (s.arena .write).free = [6, 7, 5, 4, 3, 2, 1, 0] := ⟨_, rfl, rfl⟩
  obtain ⟨s, hs, hfree⟩ := hrun
  have hreach : Reaches (UringTokens.step true)
      (fun s act => notificationFollows s act = true) .new s :=
    .of_run notificationFollows (fun _ _ h => h) retriedSend .start hs
  exact ⟨s, hs, hfree, tokens_recycled_once hreach .write, tokens_recycled_once hreach .read⟩

/-- A zero-copy send fails without a notification. -/
def failedSend : List TokenAction :=
  [.call (.submit ⟨.send, false, 4096, true, true, 0⟩), .complete .write 0 ⟨false, false⟩ []]

/-- Its token is lost: it is not free, and nothing is to come for it. -/
theorem tokens_can_be_lost : ¬∀ s : UringTokens,
    Reaches (UringTokens.step true) (fun _ _ => True) .new s →
      ∀ slot, RecycledOnce (s.arena slot) := by
  intro hall
  have hreach : ∃ s : UringTokens, Reaches (UringTokens.step true) (fun _ _ => True) .new s ∧
      (s.arena .write).free = [6, 5, 4, 3, 2, 1, 0] ∧ (s.arena .write).requests = [] ∧
      (s.arena .write).size = 8 :=
    ⟨_, .of_replay failedSend .start rfl, rfl, rfl, rfl⟩
  obtain ⟨s, hs, hfree, hrequests, hsize⟩ := hreach
  have hmem := ((hall s hs .write).mem_free_iff 7 (by omega)).mpr (by simp [hrequests])
  simp [hfree] at hmem

end GalayKernel.Proofs
