import Belayer.Exec.CheckpointManager
import Belayer.Framework.Marking
import Mathlib.Data.List.Sort
import Mathlib.Data.Prod.Lex
import Mathlib.Data.Rat.Defs
import Mathlib.Algebra.Order.Ring.Rat

namespace Belayer.Exec

open Belayer.Framework

/-- `_checkpoint_sort_key`. -/
def CheckpointRecord.sortKey (r : CheckpointRecord) : ℤ ×ₗ ℤ ×ₗ ℚ :=
  toLex (r.generation, toLex (r.stepIdx, r.createdAt))

namespace Gc

def ascending (records : List CheckpointRecord) : List CheckpointRecord :=
  records.insertionSort (fun a b => a.sortKey ≤ b.sortKey)

def descending (records : List CheckpointRecord) : List CheckpointRecord :=
  records.insertionSort (fun a b => b.sortKey ≤ a.sortKey)

/-- The parent that a checkpoint names, if that is among the items too. -/
def parentIn (items : List CheckpointRecord) (checkpointId : String) : Option String :=
  ((items.find? (·.checkpointId = checkpointId)).bind (·.parentCheckpointId)).filter
    fun p => items.any (·.checkpointId = p)

/-- The latest ready checkpoints, the pending ones and those whose image is active. -/
def retainedIds (items : List CheckpointRecord) (keepLatest : Nat) (activeImages : List String) :
    List String :=
  let ready := ascending (items.filter (·.status = .ready))
  (ready.drop (ready.length - keepLatest)).map (·.checkpointId) ++
    (items.filter fun r =>
      r.status = .pending ∨ ∃ image ∈ r.checkpointImage, image ∈ activeImages).map
        (·.checkpointId)

/-- The retained checkpoints and their ancestors. -/
def protectedIds (items : List CheckpointRecord) (keepLatest : Nat)
    (activeImages : List String) : List String :=
  let retained := retainedIds items keepLatest activeImages
  mark (parentIn items) (retained.length + items.length) retained retained

/-- What goes of the checkpoints of one lease: unprotected ready ones, then failed ones. -/
def leaseDeletions (items : List CheckpointRecord) (keepLatest : Nat)
    (activeImages : List String) : List CheckpointRecord :=
  descending ((ascending (items.filter (·.status = .ready))).filter
      (·.checkpointId ∉ protectedIds items keepLatest activeImages)) ++
    descending (items.filter (·.status = .failed))

def leaseIds (records : List CheckpointRecord) : List String :=
  (keepFirst (·.leaseId) [] records).map (·.leaseId)

/-- `_checkpoint_gc_plan`: the deletions. -/
def plan (records : List CheckpointRecord) (keepLatest : Nat) (activeImages : List String) :
    List CheckpointRecord :=
  keepFirst (·.checkpointId) [] ((leaseIds records).flatMap fun leaseId =>
    leaseDeletions (records.filter (·.leaseId = leaseId)) keepLatest activeImages)

variable {records items : List CheckpointRecord} {keepLatest : Nat} {activeImages : List String}
  {d r : CheckpointRecord}

theorem mem_ascending : r ∈ ascending records ↔ r ∈ records := List.mem_insertionSort _

theorem mem_descending : r ∈ descending records ↔ r ∈ records := List.mem_insertionSort _

theorem descending_pairwise :
    (descending records).Pairwise (fun a b => b.sortKey ≤ a.sortKey) := by
  have : Std.Total (fun a b : CheckpointRecord => b.sortKey ≤ a.sortKey) :=
    ⟨fun a b => le_total b.sortKey a.sortKey⟩
  have : IsTrans CheckpointRecord (fun a b => b.sortKey ≤ a.sortKey) :=
    ⟨fun _ _ _ hab hbc => hbc.trans hab⟩
  exact List.pairwise_insertionSort _ _

theorem mem_leaseDeletions :
    d ∈ leaseDeletions items keepLatest activeImages ↔
      d ∈ items ∧ (d.status = .ready ∧ d.checkpointId ∉ protectedIds items keepLatest activeImages ∨
        d.status = .failed) := by
  simp only [leaseDeletions, List.mem_append, mem_descending, mem_ascending, List.mem_filter,
    decide_eq_true_eq]
  tauto

theorem mem_leaseIds (h : r ∈ records) : r.leaseId ∈ leaseIds records := by
  obtain ⟨c, hc, he⟩ := exists_mem_keepFirst (·.leaseId) h List.not_mem_nil
  exact List.mem_map.mpr ⟨c, hc, he⟩

theorem eq_of_checkpointId (hn : (items.map (·.checkpointId)).Nodup) (hd : d ∈ items)
    (hr : r ∈ items) (he : d.checkpointId = r.checkpointId) : d = r :=
  List.inj_on_of_nodup_map hn hd hr he

theorem find?_eq_some (hn : (items.map (·.checkpointId)).Nodup) (hr : r ∈ items) :
    items.find? (·.checkpointId = r.checkpointId) = some r := by
  cases hf : items.find? (·.checkpointId = r.checkpointId) with
  | none => exact absurd (List.find?_eq_none.mp hf r hr) (by simp)
  | some c =>
    have hid : c.checkpointId = r.checkpointId := by simpa using List.find?_some hf
    rw [eq_of_checkpointId hn (List.mem_of_find?_eq_some hf) hr hid]

theorem parentIn_eq_some (hn : (items.map (·.checkpointId)).Nodup) (hr : r ∈ items)
    (hd : d ∈ items) (hp : r.parentCheckpointId = some d.checkpointId) :
    parentIn items r.checkpointId = some d.checkpointId := by
  rw [parentIn, find?_eq_some hn hr, Option.bind_some, hp, Option.filter_some, if_pos]
  exact List.any_eq_true.mpr ⟨d, hd, by simp⟩

theorem mem_of_parentIn {checkpointId p : String} (h : parentIn items checkpointId = some p) :
    p ∈ items.map (·.checkpointId) := by
  rw [parentIn, Option.filter_eq_some_iff] at h
  obtain ⟨d, hd, he⟩ := List.any_eq_true.mp h.2
  exact List.mem_map.mpr ⟨d, hd, by simpa using he⟩

/-- The parent of a protected checkpoint is protected. -/
theorem parent_mem_protectedIds (hn : (items.map (·.checkpointId)).Nodup) (hr : r ∈ items)
    (hd : d ∈ items) (hp : r.parentCheckpointId = some d.checkpointId)
    (h : r.checkpointId ∈ protectedIds items keepLatest activeImages) :
    d.checkpointId ∈ protectedIds items keepLatest activeImages := by
  refine mark_closed (items.map (·.checkpointId)) (fun _ _ => mem_of_parentIn)
    (fun _ ha => .inl ha) ?_ _ h _ (parentIn_eq_some hn hr hd hp)
  have hle : (items.map (·.checkpointId)).countP
      (· ∉ retainedIds items keepLatest activeImages) ≤ items.length := by
    simpa using List.countP_le_length (l := items.map (·.checkpointId))
  omega

theorem mem_protectedIds_of_pending (hr : r ∈ items) (hs : r.status = .pending) :
    r.checkpointId ∈ protectedIds items keepLatest activeImages := by
  refine mem_mark_of_mem (List.mem_append_right _ (List.mem_map.mpr ⟨r, ?_, rfl⟩))
  simp [hr, hs]

theorem mem_protectedIds_of_active {image : String} (hr : r ∈ items)
    (hi : r.checkpointImage = some image) (ha : image ∈ activeImages) :
    r.checkpointId ∈ protectedIds items keepLatest activeImages := by
  refine mem_mark_of_mem (List.mem_append_right _ (List.mem_map.mpr ⟨r, ?_, rfl⟩))
  simp [hr, hi, ha]

/-- What the plan deletes: failed checkpoints, and ready ones that their lease does not
protect. -/
theorem mem_plan (h : d ∈ plan records keepLatest activeImages) :
    d ∈ records ∧ (d.status = .ready ∧ d.checkpointId ∉ protectedIds
      (records.filter (·.leaseId = d.leaseId)) keepLatest activeImages ∨ d.status = .failed) := by
  obtain ⟨leaseId, -, hd⟩ := List.mem_flatMap.mp (keepFirst_sublist.subset h)
  rw [mem_leaseDeletions] at hd
  obtain ⟨hmem, hd⟩ := hd
  simp only [List.mem_filter, decide_eq_true_eq] at hmem
  obtain ⟨hmem, rfl⟩ := hmem
  exact ⟨hmem, hd⟩

theorem mem_plan_of_deletion (hn : (records.map (·.checkpointId)).Nodup) (hr : r ∈ records)
    (h : r.status = .ready ∧ r.checkpointId ∉ protectedIds
      (records.filter (·.leaseId = r.leaseId)) keepLatest activeImages ∨ r.status = .failed) :
    r ∈ plan records keepLatest activeImages := by
  have hmem : r ∈ (leaseIds records).flatMap fun leaseId =>
      leaseDeletions (records.filter (·.leaseId = leaseId)) keepLatest activeImages :=
    List.mem_flatMap.mpr ⟨r.leaseId, mem_leaseIds hr, mem_leaseDeletions.mpr ⟨by simp [hr], h⟩⟩
  obtain ⟨c, hc, he⟩ :=
    exists_mem_keepFirst (·.checkpointId) hmem List.not_mem_nil
  have hcr : c ∈ records := (mem_plan hc).1
  rw [eq_of_checkpointId hn hcr hr he] at hc
  exact hc

/-- A child of a planned ready checkpoint is planned too. -/
theorem child_mem_plan (hn : (records.map (·.checkpointId)).Nodup)
    (hd : d ∈ plan records keepLatest activeImages) (hready : d.status = .ready)
    (hr : r ∈ records) (hp : r.parentCheckpointId = some d.checkpointId)
    (hl : r.leaseId = d.leaseId) : r ∈ plan records keepLatest activeImages := by
  obtain ⟨hmem, h⟩ := mem_plan hd
  have hprot := (h.resolve_right (by simp [hready])).2
  have hsub : (records.filter (·.leaseId = d.leaseId)).Sublist records := List.filter_sublist
  have hri : r ∈ records.filter (·.leaseId = d.leaseId) := by simp [hr, hl]
  have hdi : d ∈ records.filter (·.leaseId = d.leaseId) := by simp [hmem]
  have hrprot : r.checkpointId ∉ protectedIds (records.filter (·.leaseId = d.leaseId))
      keepLatest activeImages :=
    fun hrp => hprot (parent_mem_protectedIds (hn.sublist (hsub.map _)) hri hdi hp hrp)
  refine mem_plan_of_deletion hn hr ?_
  cases hs : r.status with
  | pending => exact absurd (mem_protectedIds_of_pending hri hs) hrprot
  | ready =>
    rw [hl]
    exact .inl ⟨rfl, hrprot⟩
  | failed => exact .inr rfl

theorem inactive_of_mem_plan {image : String} (hd : d ∈ plan records keepLatest activeImages)
    (hready : d.status = .ready) (hi : d.checkpointImage = some image) :
    image ∉ activeImages := by
  obtain ⟨hmem, h⟩ := mem_plan hd
  have hprot := (h.resolve_right (by simp [hready])).2
  exact fun ha => hprot (mem_protectedIds_of_active (by simp [hmem]) hi ha)

/-- Within a lease the planned ready checkpoints go from the latest to the earliest. -/
theorem plan_pairwise : (plan records keepLatest activeImages).Pairwise fun a b =>
    a.leaseId = b.leaseId → a.status = .ready → b.status = .ready → b.sortKey ≤ a.sortKey := by
  refine List.Pairwise.sublist keepFirst_sublist ?_
  rw [List.pairwise_flatMap]
  constructor
  · intro leaseId _
    refine List.pairwise_append.mpr ⟨?_, ?_, ?_⟩
    · exact descending_pairwise.imp fun h _ _ _ => h
    · refine List.pairwise_of_forall_mem_list ?_
      intro a ha b _ _ hready
      simp [(by simpa using (List.mem_filter.mp (mem_descending.mp ha)).2 : a.status = .failed)]
        at hready
    · intro a _ b hb _ _ hready
      simp [(by simpa using (List.mem_filter.mp (mem_descending.mp hb)).2 : b.status = .failed)]
        at hready
  · have hnodup : (leaseIds records).Nodup := nodup_keys_keepFirst
    refine List.Pairwise.imp ?_ hnodup
    intro k l hkl a ha b hb hab
    have hak := (mem_leaseDeletions.mp ha).1
    have hbl := (mem_leaseDeletions.mp hb).1
    simp only [List.mem_filter, decide_eq_true_eq] at hak hbl
    exact absurd (hak.2.symm.trans (hab.trans hbl.2)) hkl

theorem nodup_plan : ((plan records keepLatest activeImages).map (·.checkpointId)).Nodup :=
  nodup_keys_keepFirst

end Gc

end Belayer.Exec
