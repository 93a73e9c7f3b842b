import GalayKernel.FileWatcher
import Mathlib.Tactic.Common

namespace GalayKernel.Proofs

open Bytes

variable {w : FileWatcher} {backend : WatchBackend} {r : InotifyEvent} {batch : List InotifyEvent}
  {batches more : List (List InotifyEvent)}

def batchRead (batch : List InotifyEvent) : WatchRead :=
  .bytes (batch.flatMap InotifyEvent.bytes)

/-- The result of `watch()` for a record. -/
def reported (r : InotifyEvent) : Except IOError FileWatchResult := .ok r.toResult

/-- Once enough further calls have been made, the records of the batches have been returned, in
their order. -/
def AllReported (backend : WatchBackend) (batches : List (List InotifyEvent)) : Prop :=
  ∃ calls, ∀ (w : FileWatcher) (more : List (List InotifyEvent)), (∀ batch ∈ more, batch ≠ []) →
    calls ≤ more.length →
    (batches.flatten.map reported).Sublist (w.watches backend ((batches ++ more).map batchRead))

lemma number_mask (r : InotifyEvent) (after : List UInt8) :
    number (r.bytes ++ after) 4 4 = r.mask.toNat := by
  have hlayout : r.bytes ++ after = toLE 4 r.wd ++ (toLE 4 r.mask.toNat ++ (toLE 4 r.cookie ++
      (toLE 4 r.len ++ (r.name ++ List.replicate r.padding 0)) ++ after)) := by
    simp only [InotifyEvent.bytes, List.append_assoc]
  rw [hlayout]
  exact number_append (toLE 4 r.wd) _ r.mask.toNat_lt

lemma number_len (r : InotifyEvent) (after : List UInt8) :
    number (r.bytes ++ after) 12 4 = r.len := by
  have hlayout : r.bytes ++ after = (toLE 4 r.wd ++ toLE 4 r.mask.toNat ++ toLE 4 r.cookie) ++
      (toLE 4 r.len ++ (r.name ++ List.replicate r.padding 0 ++ after)) := by
    simp only [InotifyEvent.bytes, List.append_assoc]
  rw [hlayout]
  exact number_append (toLE 4 r.wd ++ toLE 4 r.mask.toNat ++ toLE 4 r.cookie) _ r.len_lt

lemma drop_header (r : InotifyEvent) (after : List UInt8) :
    (r.bytes ++ after).drop 16 = r.name ++ (List.replicate r.padding 0 ++ after) := by
  have hlayout : r.bytes ++ after =
      (toLE 4 r.wd ++ toLE 4 r.mask.toNat ++ toLE 4 r.cookie ++ toLE 4 r.len) ++
        (r.name ++ (List.replicate r.padding 0 ++ after)) := by
    simp only [InotifyEvent.bytes, List.append_assoc]
  rw [hlayout]
  exact List.drop_left' (by simp)

/-- The reader gets back what the kernel has written. -/
theorem firstEvent_bytes (r : InotifyEvent) (after : List UInt8) :
    firstEvent (r.bytes ++ after) = r.toResult := by
  have hname : (if 0 < r.len then cString (r.name ++ (List.replicate r.padding 0 ++ after)) else []) =
      r.name := by
    cases hpadding : r.padding with
    | zero =>
      have hnil : r.name = [] := by
        by_contra hne
        exact absurd hpadding (Nat.ne_of_gt (r.terminated hne))
      rw [InotifyEvent.len, hpadding, hnil]
      rfl
    | succ padding =>
      rw [if_pos (by rw [InotifyEvent.len, hpadding]; omega), List.replicate_succ, List.cons_append]
      exact cString_terminated r.name_ne_zero _
  simp only [firstEvent, number_mask, number_len, drop_header, hname, UInt32.ofNat_toNat,
    InotifyEvent.toResult]

lemma bytes_ne_nil (r : InotifyEvent) : r.bytes ≠ [] := by
  simp [InotifyEvent.bytes, toLE]

lemma read_batch (w : FileWatcher) (backend : WatchBackend) (r : InotifyEvent)
    (rest : List InotifyEvent) :
    ∃ w', w.read backend (batchRead (r :: rest)) = (w', some (reported r)) := by
  obtain ⟨b, data, hdata⟩ : ∃ b data, (r :: rest).flatMap InotifyEvent.bytes = b :: data := by
    apply List.exists_cons_of_ne_nil
    rw [List.flatMap_cons]
    simp [bytes_ne_nil]
  have hfirst : firstEvent (w.fill (b :: data)).buffer = r.toResult := by
    rw [FileWatcher.fill, ← hdata, List.flatMap_cons, List.append_assoc]
    exact firstEvent_bytes r _
  refine ⟨w.fill (b :: data), ?_⟩
  rw [batchRead, hdata]
  cases backend <;>
    simp only [FileWatcher.read, FileWatcher.processEvent, FileWatcher.handleFileWatch, hfirst,
      reported]

/-- The calls of `watch()` return the first record of every read. -/
theorem watches_batches (hne : ∀ batch ∈ batches, batch ≠ []) (w : FileWatcher)
    (backend : WatchBackend) :
    w.watches backend (batches.map batchRead) = (batches.filterMap List.head?).map reported := by
  induction batches generalizing w with
  | nil => rfl
  | cons batch batches ih =>
    have ih' := ih fun batch' hbatch => hne batch' (List.mem_cons_of_mem batch hbatch)
    cases batch with
    | nil => exact absurd rfl (hne [] List.mem_cons_self)
    | cons r rest =>
      obtain ⟨w', hread⟩ := read_batch w backend r rest
      rw [List.map_cons, FileWatcher.watches, hread, ih' w']
      rfl

lemma filterMap_head_of_single (hone : ∀ batch ∈ batches, batch.length = 1) :
    batches.filterMap List.head? = batches.flatten := by
  induction batches with
  | nil => rfl
  | cons batch batches ih =>
    obtain ⟨r, rfl⟩ := List.length_eq_one_iff.mp (hone batch List.mem_cons_self)
    rw [List.flatten_cons, ← ih fun batch' hbatch => hone batch' (List.mem_cons_of_mem _ hbatch)]
    rfl

lemma length_le_flatten (hne : ∀ batch ∈ batches, batch ≠ []) :
    batches.length ≤ batches.flatten.length := by
  induction batches with
  | nil => exact Nat.le_refl 0
  | cons batch batches ih =>
    have hpos := List.length_pos_of_ne_nil (hne batch List.mem_cons_self)
    have hrest := ih fun batch' hbatch => hne batch' (List.mem_cons_of_mem _ hbatch)
    rw [List.flatten_cons, List.length_append, List.length_cons]
    omega

lemma single_of_length_flatten (hne : ∀ batch ∈ batches, batch ≠ [])
    (hlen : batches.flatten.length ≤ batches.length) : ∀ batch ∈ batches, batch.length = 1 := by
  induction batches with
  | nil => exact fun _ hbatch => absurd hbatch List.not_mem_nil
  | cons batch batches ih =>
    have hpos := List.length_pos_of_ne_nil (hne batch List.mem_cons_self)
    have hne' : ∀ batch' ∈ batches, batch' ≠ [] := fun batch' hbatch =>
      hne batch' (List.mem_cons_of_mem _ hbatch)
    have hrest := length_le_flatten hne'
    rw [List.flatten_cons, List.length_append, List.length_cons] at hlen
    exact List.forall_mem_cons.mpr ⟨by omega, ih hne' (by omega)⟩

lemma sublist_of_last_notMem {α : Type} {xs ys zs : List α} {x : α}
    (h : (xs ++ [x]).Sublist (ys ++ zs)) (hx : x ∉ zs) : (xs ++ [x]).Sublist ys := by
  obtain ⟨front, back, heq, hfront, hback⟩ := List.sublist_append_iff.mp h
  obtain rfl | ⟨back', y, rfl⟩ := List.eq_nil_or_concat' back
  · rwa [heq, List.append_nil]
  · rw [← List.append_assoc, List.append_singleton_inj] at heq
    rw [heq.2] at hx
    exact absurd (hback.subset (List.mem_append_right _ List.mem_cons_self)) hx

def created : InotifyEvent where
  wd := 1
  mask := 0x100
  cookie := 0
  name := [97]
  padding := 15
  name_ne_zero := List.forall_mem_singleton.mpr (by decide)
  terminated := by decide
  len_lt := by decide

def deleted : InotifyEvent where
  wd := 1
  mask := 0x200
  cookie := 0
  name := [97]
  padding := 15
  name_ne_zero := List.forall_mem_singleton.mpr (by decide)
  terminated := by decide
  len_lt := by decide

lemma exists_reported_ne (result : Except IOError FileWatchResult) : ∃ r, reported r ≠ result := by
  by_cases hcreated : reported created = result
  · refine ⟨deleted, ?_⟩
    rw [← hcreated]
    rintro ⟨⟩
  · exact ⟨created, hcreated⟩

/-- A record behind the first one of a read is lost: the last record may never be read again, and
up to it there are not more results than reads. -/
lemma single_of_allReported (hne : ∀ batch ∈ batches, batch ≠ [])
    (h : AllReported backend batches) : ∀ batch ∈ batches, batch.length = 1 := by
  obtain ⟨calls, hcalls⟩ := h
  refine single_of_length_flatten hne ?_
  obtain hnil | ⟨records, last, hlast⟩ := List.eq_nil_or_concat' batches.flatten
  · rw [hnil]
    exact Nat.zero_le _
  · obtain ⟨other, hother⟩ := exists_reported_ne (reported last)
    have hmore : ∀ batch ∈ List.replicate calls [other], batch ≠ [] := by
      intro batch hbatch
      rw [List.eq_of_mem_replicate hbatch]
      exact List.cons_ne_nil _ _
    have hsub := hcalls ⟨[]⟩ (List.replicate calls [other]) hmore (List.length_replicate ..).ge
    rw [watches_batches fun batch hbatch => (List.mem_append.mp hbatch).elim (hne batch)
      (hmore batch), List.filterMap_append, List.map_append, hlast, List.map_append] at hsub
    have hnot : reported last ∉
        ((List.replicate calls [other]).filterMap List.head?).map reported := by
      rw [List.filterMap_replicate_of_some List.head?_cons, List.map_replicate]
      exact fun hmem => hother (List.eq_of_mem_replicate hmem).symm
    have hheads := sublist_of_last_notMem hsub hnot
    rw [← List.map_singleton, ← List.map_append, ← hlast] at hheads
    calc batches.flatten.length = (batches.flatten.map reported).length := by rw [List.length_map]
      _ ≤ ((batches.filterMap List.head?).map reported).length := hheads.length_le
      _ = (batches.filterMap List.head?).length := List.length_map _
      _ ≤ batches.length := List.length_filterMap_le ..

lemma allReported_of_single (backend : WatchBackend) (hne : ∀ batch ∈ batches, batch ≠ [])
    (hone : ∀ batch ∈ batches, batch.length = 1) : AllReported backend batches := by
  refine ⟨0, fun w more hmore _ => ?_⟩
  rw [watches_batches fun batch hbatch => (List.mem_append.mp hbatch).elim (hne batch)
    (hmore batch), List.filterMap_append, List.map_append, filterMap_head_of_single hone]
  exact List.sublist_append_left ..

/-- Every record is reported if and only if every read returns one record; then the results of the
reads are the records, in order and once each. -/
theorem records_reported_iff (backend : WatchBackend) (batches : List (List InotifyEvent))
    (hne : ∀ batch ∈ batches, batch ≠ []) :
    (AllReported backend batches ↔ ∀ batch ∈ batches, batch.length = 1) ∧
      ∀ w : FileWatcher, w.watches backend (batches.map batchRead) =
        batches.flatten.map reported ↔ ∀ batch ∈ batches, batch.length = 1 := by
  refine ⟨⟨single_of_allReported hne, allReported_of_single backend hne⟩, fun w => ?_⟩
  rw [watches_batches hne]
  refine ⟨fun heq => single_of_length_flatten hne ?_, fun hone => ?_⟩
  · have hlen := congrArg List.length heq
    rw [List.length_map, List.length_map] at hlen
    rw [← hlen]
    exact List.length_filterMap_le ..
  · rw [filterMap_head_of_single hone]

theorem created_deleted_reported :
    FileWatcher.watches ⟨[]⟩ .ioUring ([[created], [deleted]].map batchRead) =
      [.ok ⟨0x100, [97], false⟩, .ok ⟨0x200, [97], false⟩] :=
  (((records_reported_iff .ioUring [[created], [deleted]] (by decide)).2 ⟨[]⟩).mpr
    (by decide)).trans (by rfl)

theorem record_can_be_dropped : ¬∀ (backend : WatchBackend) (batches : List (List InotifyEvent)),
    (∀ batch ∈ batches, batch ≠ [] ∧
      (batch.flatMap InotifyEvent.bytes).length ≤ FileWatcher.BUFFER_SIZE) →
    AllReported backend batches := by
  intro hall
  have hfits : ∀ batch ∈ [[created, deleted]], batch ≠ [] ∧
      (batch.flatMap InotifyEvent.bytes).length ≤ FileWatcher.BUFFER_SIZE :=
    List.forall_mem_singleton.mpr (by decide)
  have hone := single_of_allReported (fun batch hbatch => (hfits batch hbatch).1)
    (hall .epoll [[created, deleted]] hfits)
  exact absurd (hone _ List.mem_cons_self) (by decide)

end GalayKernel.Proofs
