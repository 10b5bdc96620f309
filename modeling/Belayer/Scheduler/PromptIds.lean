import Belayer.Scheduler.Prompts

namespace Belayer.Scheduler

open Belayer.Framework

/-- `uuid4().hex[:8]`. -/
structure HexSuffix where
  text : String
  length_text : text.length = 8
  hex : ∀ c ∈ text.toList, c ∈ "0123456789abcdef".toList

/-- The instance that a prompt id names; without an instance id it is "unknown". -/
def promptStem (iid : Option String) : String := (iid.filter (· ≠ "")).getD "unknown"

/-- `rollout_sample_key`. -/
def rolloutSampleKey (instanceId : String) (groupIndex sampleIndex : Option Int) : String :=
  instanceId ++ "__g" ++ (groupIndex.map toString).getD "na" ++ "__i" ++
    (sampleIndex.map toString).getD "na"

/-- `extract_data_key`, with the key that it falls back to without an instance id. -/
def extractDataKey (lower : String → String) (instanceId repoKey : String) : String :=
  if Text.strip instanceId ≠ "" then lower (Text.strip instanceId) else repoKey

theorem buildPromptId_eq (iid : Option String) (groupIndex sampleIndex : Option Int)
    (suffix : String) : buildPromptId iid groupIndex sampleIndex suffix =
      rolloutSampleKey (promptStem iid) groupIndex sampleIndex ++ "__" ++ suffix := rfl

theorem underscore_notMem_index (i : Option Int) :
    '_' ∉ ((i.map toString).getD "na").toList := by
  cases i with
  | none => decide
  | some n => exact Text.notMem_toString (by decide) (by decide) n

theorem underscore_notMem_suffix (suffix : HexSuffix) : '_' ∉ suffix.text.toList := fun h =>
  absurd (suffix.hex _ h) (by decide)

/-- The texts of two indexes differ; no number is written "na". -/
theorem index_injective {i j : Option Int}
    (h : ((i.map toString).getD "na").toList = ((j.map toString).getD "na").toList) : i = j := by
  have hna : ∀ n : Int, (toString n).toList ≠ "na".toList := fun n hn =>
    Text.notMem_toString (c := 'n') (by decide) (by decide) n (hn ▸ by decide)
  cases i with
  | none =>
    cases j with
    | none => rfl
    | some n => exact absurd h.symm (hna n)
  | some m =>
    cases j with
    | none => exact absurd h (hna m)
    | some n => exact congrArg some (Text.toString_int_injective h)

/-- A text and an index behind a marker of two underscores and a letter. -/
theorem marked_injective {l l' : List Char} {i j : Option Int} {c : Char} (hc : c ≠ '_')
    (h : l ++ ['_', '_', c] ++ ((i.map toString).getD "na").toList =
      l' ++ ['_', '_', c] ++ ((j.map toString).getD "na").toList) : l = l' ∧ i = j := by
  have hmark : ∀ (k : List Char) (n : Option Int),
      k ++ ['_', '_', c] ++ ((n.map toString).getD "na").toList =
        (k ++ ['_']) ++ '_' :: c :: ((n.map toString).getD "na").toList := by simp
  have hfree : ∀ n : Option Int, '_' ∉ c :: ((n.map toString).getD "na").toList := fun n hn =>
    (List.mem_cons.mp hn).elim (fun hcn => hc hcn.symm) (underscore_notMem_index n)
  rw [hmark, hmark] at h
  obtain ⟨hl, hij⟩ := Text.append_cons_inj_of_notMem_right (hfree i) (hfree j) h
  exact ⟨List.append_cancel_right hl, index_injective (List.cons.inj hij).2⟩

theorem rolloutSampleKey_injective {instanceId instanceId' : String}
    {groupIndex groupIndex' sampleIndex sampleIndex' : Option Int}
    (h : rolloutSampleKey instanceId groupIndex sampleIndex =
      rolloutSampleKey instanceId' groupIndex' sampleIndex') :
    instanceId = instanceId' ∧ groupIndex = groupIndex' ∧ sampleIndex = sampleIndex' := by
  have htext := congrArg String.toList h
  simp only [rolloutSampleKey, String.toList_append] at htext
  obtain ⟨hgroup, hsample⟩ := marked_injective (c := 'i') (by decide) htext
  obtain ⟨hinstance, hgroup⟩ := marked_injective (c := 'g') (by decide) hgroup
  exact ⟨String.toList_inj.mp hinstance, hgroup, hsample⟩

theorem buildPromptId_injective {iid iid' : Option String}
    {groupIndex groupIndex' sampleIndex sampleIndex' : Option Int} {suffix suffix' : HexSuffix}
    (h : buildPromptId iid groupIndex sampleIndex suffix.text =
      buildPromptId iid' groupIndex' sampleIndex' suffix'.text) :
    promptStem iid = promptStem iid' ∧ groupIndex = groupIndex' ∧ sampleIndex = sampleIndex' := by
  rw [buildPromptId_eq, buildPromptId_eq] at h
  have htext := congrArg String.toList h
  have hmark : ∀ (key : String) (s : HexSuffix), (key ++ "__" ++ s.text).toList =
      (key.toList ++ ['_']) ++ '_' :: s.text.toList := by simp
  rw [hmark, hmark] at htext
  obtain ⟨hkey, -⟩ := Text.append_cons_inj_of_notMem_right (underscore_notMem_suffix suffix)
    (underscore_notMem_suffix suffix') htext
  exact rolloutSampleKey_injective (String.toList_inj.mp (List.append_cancel_right hkey))

/-- The marker of the group index is found behind an instance id that does not have it. -/
theorem find_marker {iid : String} (hne : iid ≠ "") (hmarker : Text.contains "__g" iid = false)
    (groupIndex sampleIndex : Option Int) (suffix : String) :
    Text.find "__g" (buildPromptId (some iid) groupIndex sampleIndex suffix) =
      some iid.toList.length := by
  have hstem : promptStem (some iid) = iid := by simp [promptStem, Option.filter, hne]
  have hfree : ¬['_', '_'] ++ ['g'] <:+: iid.toList := fun h => by
    rw [← Bool.not_eq_true, Text.contains_iff] at hmarker
    exact hmarker h
  have htext : buildPromptId (some iid) groupIndex sampleIndex suffix =
      String.ofList (iid.toList ++ (['_', '_'] ++ ['g']) ++
        ((groupIndex.map toString).getD "na" ++ "__i" ++ (sampleIndex.map toString).getD "na" ++
          "__" ++ suffix).toList) := by
    rw [← String.toList_inj, buildPromptId_eq, rolloutSampleKey, hstem, String.toList_ofList]
    simp only [String.toList_append, List.append_assoc]
    rfl
  have hsub : "__g" = String.ofList (['_', '_'] ++ ['g']) := by decide
  rw [htext, hsub]
  exact Text.find_append (by decide) hfree

/-- What the prompt id of an instance gives back. -/
theorem dataKeyFromPromptId_buildPromptId (lower : String → String) {iid : String}
    (hne : iid ≠ "") (hmarker : Text.contains "__g" iid = false)
    (groupIndex sampleIndex : Option Int) (suffix : String) :
    dataKeyFromPromptId lower (buildPromptId (some iid) groupIndex sampleIndex suffix) =
      if lower (Text.strip iid) = "" ∨ lower (Text.strip iid) = "unknown" then none
      else some (lower (Text.strip iid)) := by
  have hstem : promptStem (some iid) = iid := by simp [promptStem, Option.filter, hne]
  have htake : Text.take (buildPromptId (some iid) groupIndex sampleIndex suffix)
      iid.toList.length = iid := by
    rw [Text.take, buildPromptId_eq, rolloutSampleKey, hstem]
    simp only [String.toList_append, List.append_assoc, List.take_left, String.ofList_toList]
  obtain ⟨n, hn⟩ : ∃ n, iid.toList.length = n + 1 := by
    refine Nat.exists_eq_succ_of_ne_zero fun hzero => hne ?_
    rw [← String.toList_inj, List.length_eq_zero_iff.mp hzero]
    rfl
  rw [hn] at htake
  rw [dataKeyFromPromptId, find_marker hne hmarker, hn]
  simp only [htake]

/-- An id with text of its own and without the marker leads back to the data key of its requests,
and no two triples of instance, group and index have one id. -/
theorem promptIds_decode (lower : String → String) :
    (∀ (iid repoKey : String) (groupIndex sampleIndex : Option Int) (suffix : HexSuffix),
      Text.strip iid ≠ "" → Text.contains "__g" iid = false →
        dataKeyFromPromptId lower (buildPromptId (some iid) groupIndex sampleIndex suffix.text) =
          if extractDataKey lower iid repoKey ∈ ["", "unknown"] then none
          else some (extractDataKey lower iid repoKey)) ∧
    ∀ (iid iid' : Option String) (groupIndex groupIndex' sampleIndex sampleIndex' : Option Int)
      (suffix suffix' : HexSuffix),
      buildPromptId iid groupIndex sampleIndex suffix.text =
        buildPromptId iid' groupIndex' sampleIndex' suffix'.text →
      promptStem iid = promptStem iid' ∧ groupIndex = groupIndex' ∧
        sampleIndex = sampleIndex' := by
  constructor
  · intro iid repoKey groupIndex sampleIndex suffix hstrip hmarker
    have hne : iid ≠ "" := by
      rintro rfl
      exact hstrip (by decide)
    have hkey : extractDataKey lower iid repoKey = lower (Text.strip iid) := if_pos hstrip
    rw [hkey, dataKeyFromPromptId_buildPromptId lower hne hmarker]
    simp only [List.mem_cons, List.not_mem_nil, or_false]
  · intro iid iid' groupIndex groupIndex' sampleIndex sampleIndex' suffix suffix' h
    exact buildPromptId_injective h

def someSuffix : HexSuffix := ⟨"0a1b2c3d", rfl, by simp⟩

theorem promptIds_decode_separators :
    dataKeyFromPromptId String.toLower
        (buildPromptId (some "a__b__i0__c-1") (some (-1)) none someSuffix.text) =
      some "a__b__i0__c-1" ∧
    promptStem (some "a__b") = promptStem (some "a__b") :=
  ⟨((promptIds_decode String.toLower).1 "a__b__i0__c-1" "" (some (-1)) none someSuffix
      (by decide +kernel) (by decide +kernel)).trans (by decide +kernel),
    ((promptIds_decode String.toLower).2 (some "a__b") (some "a__b") none none (some 2) (some 2)
      someSuffix someSuffix rfl).1⟩

/-- The key of an id is in lower case. -/
theorem not_promptIds_decode :
    dataKeyFromPromptId String.toLower
        (buildPromptId (some "Project-MONAI__MONAI-1") (some 0) (some 0) someSuffix.text) ≠
      some "Project-MONAI__MONAI-1" := by
  decide +kernel

end Belayer.Scheduler
