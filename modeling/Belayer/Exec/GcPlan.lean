import Belayer.Exec.Gc
import Mathlib.Data.List.Dedup

namespace Belayer.Exec

open Belayer.Framework

namespace Gc

/-- `_checkpoint_gc_plan`: the ids that are kept. -/
def keptIds (records : List CheckpointRecord) (keepLatest : Nat) (activeImages : List String) :
    List String :=
  ((leaseIds records).flatMap fun leaseId =>
    protectedIds (records.filter (·.leaseId = leaseId)) keepLatest activeImages).dedup.insertionSort
      (· ≤ ·)

/-- The newest ready checkpoints of a lease in the sort order. -/
def newest (records : List CheckpointRecord) (leaseId : String) (keepLatest : Nat) :
    List CheckpointRecord :=
  let ready := ascending ((records.filter (·.leaseId = leaseId)).filter (·.status = .ready))
  ready.drop (ready.length - keepLatest)

/-- A checkpoint that is kept for its own sake. -/
def IsRetained (records : List CheckpointRecord) (keepLatest : Nat) (activeImages : List String)
    (r : CheckpointRecord) : Prop :=
  r.status = .pending ∨ (∃ image ∈ r.checkpointImage, image ∈ activeImages) ∨
    r ∈ newest records r.leaseId keepLatest

/-- The ids are distinct and not empty, and each parent is a ready checkpoint of the lease. -/
structure IsWellFormed (records : List CheckpointRecord) : Prop where
  nodup : (records.map (·.checkpointId)).Nodup
  nonempty : ∀ r ∈ records, r.checkpointId ≠ ""
  parents : ∀ r ∈ records, ∀ p ∈ r.parentCheckpointId,
    ∃ parent ∈ records, parent.checkpointId = p ∧ parent.status = .ready ∧
      parent.leaseId = r.leaseId

/-- A set of ids that holds the parents of its members. -/
def ClosedUnderParents (records : List CheckpointRecord) (S : String → Prop) : Prop :=
  ∀ r ∈ records, S r.checkpointId → ∀ p ∈ r.parentCheckpointId, S p

/-- What is kept is the least closed set with the retained checkpoints, and the others that are
ready, and those that have failed, are deleted once each, children before parents. -/
structure IsPlan (records : List CheckpointRecord) (keepLatest : Nat) (activeImages : List String)
    (kept : List String) (deletions : List CheckpointRecord) : Prop where
  closed : ClosedUnderParents records (· ∈ kept)
  retained : ∀ r ∈ records, IsRetained records keepLatest activeImages r → r.checkpointId ∈ kept
  least : ∀ S : String → Prop, ClosedUnderParents records S →
    (∀ r ∈ records, IsRetained records keepLatest activeImages r → S r.checkpointId) →
      ∀ id ∈ kept, S id
  disjoint : ∀ d ∈ deletions, d.checkpointId ∉ kept
  mem_deletions : ∀ r, r ∈ deletions ↔
    r ∈ records ∧ (r.status = .failed ∨ r.status = .ready ∧ r.checkpointId ∉ kept)
  once : (deletions.map (·.checkpointId)).Nodup
  childrenFirst : (∀ child ∈ records, ∀ parent ∈ records,
      child.parentCheckpointId = some parent.checkpointId → parent.sortKey < child.sortKey) →
    ∀ parent ∈ deletions, parent.status = .ready → ∀ child ∈ records, child.status = .ready →
      child.parentCheckpointId = some parent.checkpointId → [child, parent].Sublist deletions

variable {records items : List CheckpointRecord} {keepLatest : Nat} {activeImages : List String}
  {d r : CheckpointRecord}

theorem mem_keptIds {id : String} : id ∈ keptIds records keepLatest activeImages ↔
    ∃ leaseId ∈ leaseIds records,
      id ∈ protectedIds (records.filter (·.leaseId = leaseId)) keepLatest activeImages := by
  rw [keptIds, List.mem_insertionSort, List.mem_dedup, List.mem_flatMap]

/-- The roots of a lease are its retained checkpoints. -/
theorem mem_retainedIds_iff {leaseId id : String} :
    id ∈ retainedIds (records.filter (·.leaseId = leaseId)) keepLatest activeImages ↔
      ∃ r ∈ records, r.leaseId = leaseId ∧ r.checkpointId = id ∧
        IsRetained records keepLatest activeImages r := by
  simp only [retainedIds, List.mem_append, List.mem_map, List.mem_filter, decide_eq_true_eq]
  constructor
  · rintro (⟨r, hr, rfl⟩ | ⟨r, ⟨⟨hr, hlease⟩, hkept⟩, rfl⟩)
    · have hmem := mem_ascending.mp (List.mem_of_mem_drop hr)
      simp only [List.mem_filter, decide_eq_true_eq] at hmem
      obtain ⟨⟨hmem, rfl⟩, -⟩ := hmem
      exact ⟨r, hmem, rfl, rfl, .inr (.inr hr)⟩
    · rcases hkept with hpending | hactive
      · exact ⟨r, hr, hlease, rfl, .inl hpending⟩
      · exact ⟨r, hr, hlease, rfl, .inr (.inl hactive)⟩
  · rintro ⟨r, hr, rfl, rfl, hpending | hactive | hnewest⟩
    · exact .inr ⟨r, ⟨⟨hr, rfl⟩, .inl hpending⟩, rfl⟩
    · exact .inr ⟨r, ⟨⟨hr, rfl⟩, .inr hactive⟩, rfl⟩
    · exact .inl ⟨r, hnewest, rfl⟩

theorem mem_retainedIds {id : String} (h : id ∈ retainedIds items keepLatest activeImages) :
    id ∈ items.map (·.checkpointId) := by
  simp only [retainedIds, List.mem_append, List.mem_map, List.mem_filter] at h
  rcases h with ⟨r, hr, rfl⟩ | ⟨r, hr, rfl⟩
  · exact List.mem_map_of_mem (List.mem_filter.mp (mem_ascending.mp (List.mem_of_mem_drop hr))).1
  · exact List.mem_map_of_mem hr.1

theorem mem_of_mem_protectedIds {id : String}
    (h : id ∈ protectedIds items keepLatest activeImages) : id ∈ items.map (·.checkpointId) :=
  mem_of_mem_mark (fun _ _ _ hparent => mem_of_parentIn hparent) (fun _ => mem_retainedIds)
    (fun _ => mem_retainedIds) id h

/-- A checkpoint is kept where its own lease protects it. -/
theorem checkpointId_mem_keptIds (hn : (records.map (·.checkpointId)).Nodup) (hr : r ∈ records) :
    r.checkpointId ∈ keptIds records keepLatest activeImages ↔
      r.checkpointId ∈ protectedIds (records.filter (·.leaseId = r.leaseId)) keepLatest
        activeImages := by
  rw [mem_keptIds]
  constructor
  · rintro ⟨leaseId, -, h⟩
    obtain ⟨other, hother, hid⟩ := List.mem_map.mp (mem_of_mem_protectedIds h)
    simp only [List.mem_filter, decide_eq_true_eq] at hother
    rw [eq_of_checkpointId hn hother.1 hr hid] at hother
    rwa [hother.2]
  · intro h
    exact ⟨r.leaseId, mem_leaseIds hr, h⟩

theorem keptIds_closed (hw : IsWellFormed records) :
    ClosedUnderParents records (· ∈ keptIds records keepLatest activeImages) := by
  intro r hr hkept p hp
  obtain ⟨parent, hparent, rfl, -, hlease⟩ := hw.parents r hr p hp
  rw [checkpointId_mem_keptIds hw.nodup hr] at hkept
  rw [checkpointId_mem_keptIds hw.nodup hparent, hlease]
  have hsublist : (records.filter (·.leaseId = r.leaseId)).Sublist records := List.filter_sublist
  exact parent_mem_protectedIds (hw.nodup.sublist (hsublist.map _)) (by simp [hr])
    (by simp [hparent, hlease]) hp hkept

theorem keptIds_retained (hr : r ∈ records) (h : IsRetained records keepLatest activeImages r) :
    r.checkpointId ∈ keptIds records keepLatest activeImages := by
  refine mem_keptIds.mpr ⟨r.leaseId, mem_leaseIds hr, mem_mark_of_mem ?_⟩
  exact mem_retainedIds_iff.mpr ⟨r, hr, rfl, rfl, h⟩

/-- Nothing is kept that need not be. -/
theorem keptIds_least {S : String → Prop} (hclosed : ClosedUnderParents records S)
    (hretained : ∀ r ∈ records, IsRetained records keepLatest activeImages r → S r.checkpointId) :
    ∀ id ∈ keptIds records keepLatest activeImages, S id := by
  intro id hid
  obtain ⟨leaseId, -, hid⟩ := mem_keptIds.mp hid
  have hroots : ∀ id ∈ retainedIds (records.filter (·.leaseId = leaseId)) keepLatest activeImages,
      S id := by
    intro id hid
    obtain ⟨r, hr, -, rfl, hkept⟩ := mem_retainedIds_iff.mp hid
    exact hretained r hr hkept
  refine mem_of_mem_mark ?_ hroots hroots id hid
  intro a p ha hparent
  rw [parentIn, Option.filter_eq_some_iff] at hparent
  obtain ⟨r, hfind, hp⟩ := Option.bind_eq_some_iff.mp hparent.1
  have hr : r ∈ records := (List.mem_filter.mp (List.mem_of_find?_eq_some hfind)).1
  have hid : r.checkpointId = a := by simpa using List.find?_some hfind
  exact hclosed r hr (hid ▸ ha) p hp

/-- A checkpoint that has failed is not kept. -/
theorem failed_not_mem_keptIds (hw : IsWellFormed records)
    (hactive : ∀ r ∈ records, r.status = .failed → ∀ image ∈ r.checkpointImage,
      image ∉ activeImages) (hd : d ∈ records) (hfailed : d.status = .failed) :
    d.checkpointId ∉ keptIds records keepLatest activeImages := by
  intro hkept
  have hclosed : ClosedUnderParents records fun id =>
      ∃ r ∈ records, r.checkpointId = id ∧ r.status ≠ .failed := by
    intro r hr _ p hp
    obtain ⟨parent, hparent, hid, hready, -⟩ := hw.parents r hr p hp
    exact ⟨parent, hparent, hid, by simp [hready]⟩
  have hretained : ∀ r ∈ records, IsRetained records keepLatest activeImages r →
      ∃ c ∈ records, c.checkpointId = r.checkpointId ∧ c.status ≠ .failed := by
    rintro r hr (hpending | ⟨image, himage, hin⟩ | hnewest)
    · exact ⟨r, hr, rfl, by simp [hpending]⟩
    · exact ⟨r, hr, rfl, fun hfailed => hactive r hr hfailed image himage hin⟩
    · have hready := (List.mem_filter.mp (mem_ascending.mp (List.mem_of_mem_drop hnewest))).2
      exact ⟨r, hr, rfl, by simp_all⟩
  obtain ⟨r, hr, hid, hstatus⟩ := keptIds_least hclosed hretained _ hkept
  rw [eq_of_checkpointId hw.nodup hr hd hid] at hstatus
  exact hstatus hfailed

theorem mem_plan_iff (hw : IsWellFormed records) :
    r ∈ plan records keepLatest activeImages ↔ r ∈ records ∧ (r.status = .failed ∨
      r.status = .ready ∧ r.checkpointId ∉ keptIds records keepLatest activeImages) := by
  constructor
  · intro h
    obtain ⟨hr, h⟩ := mem_plan h
    rw [← checkpointId_mem_keptIds hw.nodup hr] at h
    exact ⟨hr, h.symm⟩
  · rintro ⟨hr, h⟩
    rw [checkpointId_mem_keptIds hw.nodup hr] at h
    exact mem_plan_of_deletion hw.nodup hr h.symm

/-- Two members of a list stand in one order or the other. -/
theorem pair_sublist {α : Type*} {a b : α} {l : List α} (ha : a ∈ l) (hb : b ∈ l) (hne : a ≠ b) :
    [a, b].Sublist l ∨ [b, a].Sublist l := by
  induction l with
  | nil => simp at ha
  | cons c l ih =>
    rcases List.mem_cons.mp ha with rfl | hal
    · have hbl := (List.mem_cons.mp hb).resolve_left (Ne.symm hne)
      exact .inl ((List.singleton_sublist.mpr hbl).cons_cons _)
    · rcases List.mem_cons.mp hb with rfl | hbl
      · exact .inr ((List.singleton_sublist.mpr hal).cons_cons _)
      · exact (ih hal hbl).imp (·.cons c) (·.cons c)

/-- A ready child goes before its ready parent. -/
theorem child_before_parent (hw : IsWellFormed records)
    (hkeys : ∀ child ∈ records, ∀ parent ∈ records,
      child.parentCheckpointId = some parent.checkpointId → parent.sortKey < child.sortKey)
    (hd : d ∈ plan records keepLatest activeImages) (hready : d.status = .ready) (hr : r ∈ records)
    (hchild : r.status = .ready) (hp : r.parentCheckpointId = some d.checkpointId) :
    [r, d].Sublist (plan records keepLatest activeImages) := by
  have hdr := (mem_plan hd).1
  have hlt := hkeys r hr d hdr hp
  obtain ⟨parent, hparent, hid, -, hlease⟩ := hw.parents r hr _ hp
  rw [eq_of_checkpointId hw.nodup hparent hdr hid] at hlease
  have hrd := child_mem_plan hw.nodup hd hready hr hp hlease.symm
  have hne : r ≠ d := fun heq => lt_irrefl _ (heq ▸ hlt)
  rcases pair_sublist hrd hd hne with hfirst | hsecond
  · exact hfirst
  · have hpair := plan_pairwise.sublist hsecond
    have hle := (List.pairwise_cons.mp hpair).1 r (by simp) hlease hready hchild
    exact absurd hlt (not_lt.mpr hle)

/-- The plan is safe and complete. -/
theorem isPlan_plan (hw : IsWellFormed records)
    (hactive : ∀ r ∈ records, r.status = .failed → ∀ image ∈ r.checkpointImage,
      image ∉ activeImages) (keepLatest : Nat) :
    IsPlan records keepLatest activeImages (keptIds records keepLatest activeImages)
      (plan records keepLatest activeImages) where
  closed := keptIds_closed hw
  retained _ hr h := keptIds_retained hr h
  least _ hclosed hretained := keptIds_least hclosed hretained
  disjoint d hd := by
    obtain ⟨hdr, hfailed | hready⟩ := (mem_plan_iff hw).mp hd
    · exact failed_not_mem_keptIds hw hactive hdr hfailed
    · exact hready.2
  mem_deletions _ := mem_plan_iff hw
  once := nodup_plan
  childrenFirst hkeys _ hd hready _ hr hchild hp := child_before_parent hw hkeys hd hready hr hchild hp

/-- A checkpoint on the image of the first, and one that has failed. -/
def threeCheckpoints : List CheckpointRecord :=
  [⟨"c1", .legacy, "l1", 0, "img", some "ckpt-1", none, 0, 1, .ready⟩,
    ⟨"c2", .legacy, "l1", 0, "ckpt-1", some "ckpt-2", some "c1", 1, 2, .ready⟩,
    ⟨"c3", .legacy, "l1", 0, "ckpt-1", none, some "c1", 2, 3, .failed⟩]

theorem isPlan_plan_threeCheckpoints :
    IsPlan threeCheckpoints 1 ["ckpt-2"] (keptIds threeCheckpoints 1 ["ckpt-2"])
      (plan threeCheckpoints 1 ["ckpt-2"]) :=
  isPlan_plan ⟨by decide, by decide, by decide⟩ (by decide) 1

end Gc

end Belayer.Exec
