import Belayer.Rollout.WholeGroups

namespace Belayer.Rollout

open Belayer.Framework

/-- The rollout in which a sample got its first response is noted. -/
def noteStart (rolloutId : Nat) (sample : Sample) : Sample :=
  if sample.response ≠ "" ∧ sample.startRolloutId = none then
    { sample with startRolloutId := some rolloutId }
  else sample

/-- `abort`, with what the tasks that were still running return. -/
def abort (args : RolloutArgs) (rolloutId : Nat) (results : List (Sample × GenerateResult)) :
    List (List Sample) :=
  if args.partialRollout then
    results.map fun task => task.2.completedSamples.map (noteStart rolloutId)
  else []

/-- `RolloutDataSourceWithBuffer.add_samples`; `none` where its assertion fails. -/
def addSamples (nSamplesPerPrompt : Nat) (buffer samples : List (List Sample)) :
    Option (List (List Sample)) :=
  if samples = [] then some buffer
  else if ∀ group ∈ samples, group.length = nSamplesPerPrompt then some (buffer ++ samples)
  else none

/-- What identifies a sample. -/
def sampleKey (sample : Sample) : Nat × Nat := (sample.groupIndex, sample.index)

theorem sampleKey_noteStart (rolloutId : Nat) (sample : Sample) :
    sampleKey (noteStart rolloutId sample) = sampleKey sample := by
  unfold noteStart
  split_ifs <;> rfl

theorem addSamples_eq_some_iff {n : Nat} {buffer samples added : List (List Sample)} :
    addSamples n buffer samples = some (buffer ++ added) ↔
      added = samples ∧ ∀ group ∈ samples, group.length = n := by
  unfold addSamples
  split_ifs with hnil hall
  · rw [Option.some.injEq, hnil]
    constructor
    · intro h
      exact ⟨List.append_cancel_left (h.symm.trans (List.append_nil buffer).symm),
        fun _ hgroup => absurd hgroup List.not_mem_nil⟩
    · rintro ⟨rfl, -⟩
      exact (List.append_nil buffer).symm
  · rw [Option.some.injEq]
    constructor
    · intro h
      exact ⟨(List.append_cancel_left h).symm, hall⟩
    · rintro ⟨rfl, -⟩
      rfl
  · constructor
    · intro h
      cases h
    · rintro ⟨-, h⟩
      exact absurd h hall

namespace RolloutState

variable {args : RolloutArgs} {keep : Nat → Bool} {s : RolloutState} {rolloutId : Nat}
  {results : List (Sample × GenerateResult)}

/-- The data have a group of the prompt group. -/
def IsReturned (s : RolloutState) (prompts : List Sample) : Prop :=
  ∃ group ∈ s.data, isFrom prompts group = true

instance (s : RolloutState) (prompts : List Sample) : Decidable (s.IsReturned prompts) :=
  inferInstanceAs (Decidable (∃ group ∈ s.data, _))

/-- The tasks that were running, with what they return. -/
def IsDrained (s : RolloutState) (results : List (Sample × GenerateResult)) : Prop :=
  (results.map Prod.fst).Perm s.pendings ∧ ∀ task ∈ results, IsResult task.1 task.2

instance (s : RolloutState) (results : List (Sample × GenerateResult)) :
    Decidable (s.IsDrained results) :=
  inferInstanceAs (Decidable (_ ∧ _))

/-- What is aborted is added to the buffer, and each submitted group that is not in the data is
there once, with its samples and no others. -/
def PutsBack (args : RolloutArgs) (s : RolloutState) (rolloutId : Nat)
    (results : List (Sample × GenerateResult)) (buffer : List (List Sample)) : Prop :=
  ∃ added, addSamples args.nSamplesPerPrompt buffer (abort args rolloutId results) =
      some (buffer ++ added) ∧
    ∀ prompts ∈ s.submitted, ¬s.IsReturned prompts →
      ∃ group, added.filter (isFrom prompts) = [group] ∧
        (group.map sampleKey).Perm (prompts.map sampleKey)

/-- Each running task returns as many samples as a group has, and each submitted group is in the
data, or it has a single sample and its task runs. -/
def IsWhole (args : RolloutArgs) (s : RolloutState) (results : List (Sample × GenerateResult)) :
    Prop :=
  (∀ task ∈ results, task.2.completedSamples.length = args.nSamplesPerPrompt) ∧
    ∀ prompts ∈ s.submitted, s.IsReturned prompts ∨
      args.nSamplesPerPrompt = 1 ∧ ∀ task ∈ prompts, task ∈ s.pendings

/-- What a task returned is of the group of its sample. -/
theorem isFrom_noteStart {prompts : List Sample} {k rolloutId : Nat} (hne : prompts ≠ [])
    (hk : ∀ sample ∈ prompts, sample.groupIndex = k) {task : Sample × GenerateResult}
    (htask : IsResult task.1 task.2) :
    isFrom prompts (task.2.completedSamples.map (noteStart rolloutId)) = hasIndex k task.1 := by
  rw [isFrom_eq hne hk]
  refine Batching.isOf_eq ?_ fun sample hsample => ?_
  · exact fun h => htask.1 (List.map_eq_nil_iff.mp h)
  · obtain ⟨returned, hreturned, rfl⟩ := List.mem_map.mp hsample
    exact (congrArg Prod.fst (sampleKey_noteStart rolloutId returned)).trans
      (htask.2 returned hreturned).1

theorem filter_abort (hkept : args.partialRollout = true) {prompts : List Sample}
    {k rolloutId : Nat} (hne : prompts ≠ []) (hk : ∀ sample ∈ prompts, sample.groupIndex = k)
    {results : List (Sample × GenerateResult)} (hresults : ∀ task ∈ results, IsResult task.1 task.2) :
    (abort args rolloutId results).filter (isFrom prompts) =
      (results.filter fun task => hasIndex k task.1).map fun task =>
        task.2.completedSamples.map (noteStart rolloutId) := by
  rw [abort, if_pos hkept, List.filter_map]
  congr 1
  refine List.filter_congr fun task htask => ?_
  exact isFrom_noteStart hne hk (hresults task htask)

/-- The samples of a task that was running have the keys of its sample. -/
theorem map_sampleKey {task : Sample × GenerateResult} (htask : IsResult task.1 task.2)
    (rolloutId : Nat) :
    (task.2.completedSamples.map (noteStart rolloutId)).map sampleKey =
      List.replicate task.2.completedSamples.length (sampleKey task.1) := by
  rw [List.map_map, List.eq_replicate_iff, List.length_map]
  refine ⟨rfl, fun key hkey => ?_⟩
  obtain ⟨sample, hsample, rfl⟩ := List.mem_map.mp hkey
  obtain ⟨hgroup, hindex⟩ := htask.2 sample hsample
  exact (sampleKey_noteStart rolloutId sample).trans (Prod.ext hgroup hindex)

/-- A group of one task is the prompt group where it has one sample and its task runs. -/
theorem group_of_task (h : Collected args keep s) (hdrained : s.IsDrained results)
    {prompts : List Sample} (hprompts : prompts ∈ s.submitted) {task : Sample × GenerateResult}
    (htask : task ∈ results) (hindex : hasIndex (indexOf prompts) task.1 = true)
    (hperm : ((task.2.completedSamples.map (noteStart rolloutId)).map sampleKey).Perm
      (prompts.map sampleKey)) :
    args.nSamplesPerPrompt = 1 ∧ ∀ prompt ∈ prompts, prompt ∈ s.pendings := by
  obtain ⟨htasks, hresults⟩ := hdrained
  obtain ⟨hne, hk⟩ := h.index_of_submitted hprompts
  obtain ⟨hsize, hindices, -⟩ := h.groups prompts hprompts
  -- all samples of a task have one key, and those of a prompt group differ in theirs
  have hnodup : (prompts.map sampleKey).Nodup := by
    refine List.Nodup.of_map Prod.snd ?_
    rw [List.map_map]
    exact hindices
  rw [map_sampleKey (hresults task htask)] at hperm
  have hlength := hperm.length_eq
  rw [List.length_replicate, List.length_map, hsize] at hlength
  have hle : args.nSamplesPerPrompt ≤ 1 := by
    rw [← hlength]
    exact List.nodup_replicate.mp (hperm.nodup_iff.mpr hnodup)
  have hone : args.nSamplesPerPrompt = 1 := Nat.le_antisymm hle args.nSamplesPerPrompt_pos
  refine ⟨hone, ?_⟩
  obtain ⟨only, rfl⟩ := List.length_eq_one_iff.mp (hsize.trans hone)
  have hpending : task.1 ∈ s.pendings := htasks.mem_iff.mp (List.mem_map_of_mem htask)
  have hmem : task.1 ∈ s.submitted.flatten.filter (hasIndex (indexOf [only])) :=
    List.mem_filter.mpr ⟨h.tasks.mem_iff.mp (List.mem_append_left _ hpending), hindex⟩
  rw [h.filter_submitted hprompts hk, List.mem_singleton] at hmem
  intro prompt hprompt
  rw [List.mem_singleton.mp hprompt, ← hmem]
  exact hpending

/-- A prompt group of one sample whose task runs has this one task. -/
theorem task_of_group (h : Collected args keep s) (hdrained : s.IsDrained results)
    {prompts : List Sample} (hprompts : prompts ∈ s.submitted) (hone : args.nSamplesPerPrompt = 1)
    (hrunning : ∀ prompt ∈ prompts, prompt ∈ s.pendings) :
    ∃ task ∈ results, prompts = [task.1] ∧
      (results.filter fun task => hasIndex (indexOf prompts) task.1) = [task] := by
  obtain ⟨htasks, -⟩ := hdrained
  obtain ⟨-, hk⟩ := h.index_of_submitted hprompts
  obtain ⟨only, rfl⟩ := List.length_eq_one_iff.mp ((h.groups prompts hprompts).1.trans hone)
  have hin : only ∈ s.pendings.filter (hasIndex (indexOf [only])) :=
    List.mem_filter.mpr ⟨hrunning only (List.mem_singleton_self only),
      decide_eq_true (hk only (List.mem_singleton_self only))⟩
  have hall := (h.tasks_of_group hprompts hk).length_eq
  rw [List.length_append, List.length_singleton] at hall
  have hfiltered := htasks.filter (hasIndex (indexOf [only]))
  rw [List.filter_map] at hfiltered
  have hlength := hfiltered.length_eq
  rw [List.length_map] at hlength
  have hpos := List.length_pos_of_mem hin
  obtain ⟨task, htask⟩ := List.length_eq_one_iff.mp
    (show (results.filter (hasIndex (indexOf [only]) ∘ Prod.fst)).length = 1 by omega)
  rw [htask, List.map_singleton] at hfiltered
  have honly : only = task.1 := List.mem_singleton.mp (hfiltered.mem_iff.mpr hin)
  have hmem : task ∈ results := by
    refine List.mem_of_mem_filter (p := hasIndex (indexOf [only]) ∘ Prod.fst) ?_
    rw [htask]
    exact List.mem_singleton_self task
  exact ⟨task, hmem, congrArg (fun sample => [sample]) honly, htask⟩

/-- What is aborted has the length of a group exactly where each running task returns this many
samples. -/
theorem length_abort (hkept : args.partialRollout = true) :
    (∀ group ∈ abort args rolloutId results, group.length = args.nSamplesPerPrompt) ↔
      ∀ task ∈ results, task.2.completedSamples.length = args.nSamplesPerPrompt := by
  rw [abort, if_pos hkept, List.forall_mem_map]
  simp only [List.length_map]

/-- Every submitted group that is not in the data is put back exactly where no group was caught
in the middle. -/
theorem putsBack_iff (hkept : args.partialRollout = true) {run : List RolloutAction}
    (hrun : exec (RolloutState.step args keep) init run = some s)
    {results : List (Sample × GenerateResult)} (hdrained : s.IsDrained results) (rolloutId : Nat)
    (buffer : List (List Sample)) :
    PutsBack args s rolloutId results buffer ↔ IsWhole args s results := by
  have h := Collected.of_run hrun
  constructor
  · rintro ⟨added, hadded, hback⟩
    obtain ⟨rfl, hall⟩ := addSamples_eq_some_iff.mp hadded
    refine ⟨(length_abort hkept).mp hall, fun prompts hprompts => ?_⟩
    by_cases hreturned : s.IsReturned prompts
    · exact .inl hreturned
    · right
      obtain ⟨hne, hk⟩ := h.index_of_submitted hprompts
      obtain ⟨group, hgroup, hperm⟩ := hback prompts hprompts hreturned
      rw [filter_abort hkept hne hk hdrained.2, List.map_eq_singleton_iff] at hgroup
      obtain ⟨task, htask, rfl⟩ := hgroup
      have hmem : task ∈ results.filter fun task => hasIndex (indexOf prompts) task.1 := by
        rw [htask]
        exact List.mem_singleton_self task
      obtain ⟨hresult, hindex⟩ := List.mem_filter.mp hmem
      exact group_of_task h hdrained hprompts hresult hindex hperm
  · rintro ⟨hall, hwhole⟩
    refine ⟨_, addSamples_eq_some_iff.mpr ⟨rfl, (length_abort hkept).mpr hall⟩,
      fun prompts hprompts hnot => ?_⟩
    obtain ⟨hone, hrunning⟩ := (hwhole prompts hprompts).resolve_left hnot
    obtain ⟨hne, hk⟩ := h.index_of_submitted hprompts
    obtain ⟨task, hresult, heq, htask⟩ := task_of_group h hdrained hprompts hone hrunning
    refine ⟨task.2.completedSamples.map (noteStart rolloutId), ?_, ?_⟩
    · rw [filter_abort hkept hne hk hdrained.2, htask, List.map_singleton]
    · rw [map_sampleKey (hdrained.2 task hresult), hall task hresult, hone, heq]
      exact List.Perm.refl _

/-- Two prompt groups are asked for and the batch needs one. -/
def twoGroups (nSamplesPerPrompt : Nat) (h : 0 < nSamplesPerPrompt) : RolloutArgs where
  rolloutBatchSize := 1
  overSamplingBatchSize := 2
  nSamplesPerPrompt := nSamplesPerPrompt
  partialRollout := true
  rollingRefill := true
  onlineScheduler := false
  pendingGroupWindowMultiplier := 2
  pendingGroupWindowExtra := 0
  pendingGroupWindowCap := 0
  rolloutBatchSize_pos := Nat.one_pos
  nSamplesPerPrompt_pos := h
  le_overSamplingBatchSize := Nat.le_succ 1

/-- The second group's task runs when the first one's is done. -/
def singleDone : List RolloutAction :=
  [.refill [[⟨0, 0, "", none⟩], [⟨1, 1, "", none⟩]],
    .wait [(⟨0, 0, "", none⟩, .one ⟨0, 0, "a", none⟩)]]

theorem putsBack_iff_singleDone : ∃ s,
    exec (RolloutState.step (twoGroups 1 Nat.one_pos) fun _ => true) init singleDone = some s ∧
      PutsBack (twoGroups 1 Nat.one_pos) s 5 [(⟨1, 1, "", none⟩, .one ⟨1, 1, "b", none⟩)] [] := by
  obtain ⟨s, hs⟩ : ∃ s, exec (RolloutState.step (twoGroups 1 Nat.one_pos) fun _ => true) init
      singleDone = some s := ⟨_, rfl⟩
  have hdrained : s.IsDrained [(⟨1, 1, "", none⟩, .one ⟨1, 1, "b", none⟩)] := by
    cases hs
    decide
  refine ⟨s, hs, (putsBack_iff rfl hs hdrained 5 []).mpr ?_⟩
  cases hs
  exact ⟨by decide, by decide⟩

/-- The first group is complete, and of the second one the first task is done. -/
def halfDone : List RolloutAction :=
  [.refill [[⟨0, 0, "", none⟩, ⟨0, 1, "", none⟩], [⟨1, 2, "", none⟩, ⟨1, 3, "", none⟩]],
    .wait [(⟨1, 2, "", none⟩, .one ⟨1, 2, "c", none⟩),
      (⟨0, 0, "", none⟩, .one ⟨0, 0, "a", none⟩), (⟨0, 1, "", none⟩, .one ⟨0, 1, "b", none⟩)]]

/-- The second group's last sample is aborted as a group of its own, which the buffer refuses. -/
theorem not_putsBack_halfDone : ∃ s,
    exec (RolloutState.step (twoGroups 2 Nat.two_pos) fun _ => true) init halfDone = some s ∧
      s.isCollecting (twoGroups 2 Nat.two_pos) = false ∧
      s.IsDrained [(⟨1, 3, "", none⟩, .one ⟨1, 3, "d", none⟩)] ∧
      ¬PutsBack (twoGroups 2 Nat.two_pos) s 5 [(⟨1, 3, "", none⟩, .one ⟨1, 3, "d", none⟩)] [] := by
  refine ⟨_, rfl, rfl, by decide, ?_⟩
  rintro ⟨added, hadded, -⟩
  have hall := (addSamples_eq_some_iff.mp hadded).2
  exact absurd hall (by decide)

end RolloutState

end Belayer.Rollout
