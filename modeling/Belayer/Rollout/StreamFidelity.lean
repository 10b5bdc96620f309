import Belayer.Rollout.PostStream
import Belayer.Router.WorkerStream

namespace Belayer.Rollout.PostStream

open Belayer.Framework

/-- A token that a worker generates, with its logprob and its text. -/
structure GeneratedToken where
  id : Int
  logprob : Json
  text : Json

/-- The token's entry in `output_token_logprobs`. -/
def GeneratedToken.entry (t : GeneratedToken) : Json := .arr [t.logprob, .int t.id, t.text]

def idsOf (tokens : List GeneratedToken) : List Int := tokens.map GeneratedToken.id

def entriesOf (tokens : List GeneratedToken) : List Json := tokens.map GeneratedToken.entry

/-- Whether the `output_ids` of a chunk have all tokens so far or only the new ones. -/
inductive Streaming where
  | cumulative
  | disjoint
  deriving DecidableEq

/-- The tokens in the `output_ids` of a chunk that brings a part. -/
def Streaming.reported : Streaming → List GeneratedToken → List GeneratedToken → List GeneratedToken
  | .cumulative, before, part => before ++ part
  | .disjoint, _, part => part

/-- Behind the tokens before, every part is empty, or has the first tokens of all, or repeats the
first of them, though not all. -/
def Repeats : List GeneratedToken → List (List GeneratedToken) → Prop
  | _, [] => True
  | before, part :: parts =>
    (part = [] ∨ before = [] ∨ (part <+: before ∧ part.length < before.length)) ∧
      Repeats (before ++ part) parts

/-! What is made of the chunks -/

/-- The ids and the logprobs that the reader has. -/
structure Reading where
  ids : List Int
  entries : List Json

namespace Reading

/-- Some ids are taken for the tokens so far where they extend those that are there. -/
def take (r : Reading) (chunk all : List GeneratedToken) : Reading :=
  if r.ids <+: idsOf chunk then
    ⟨idsOf chunk, r.entries ++ ((entriesOf all).take chunk.length).drop r.ids.length⟩
  else ⟨r.ids ++ idsOf chunk, r.entries ++ (entriesOf all).take chunk.length⟩

/-- What a chunk adds. Without ids of its own, those in its logprobs are read. -/
def next (r : Reading) (reported all : List GeneratedToken) : Reading :=
  r.take (if reported.isEmpty then all else reported) all

/-- What the chunks of all parts add, behind the tokens before them. -/
def run (mode : Streaming) : List GeneratedToken → List (List GeneratedToken) → Reading → Reading
  | _, [], r => r
  | before, part :: parts, r =>
    run mode (before ++ part) parts (r.next (mode.reported before part) (before ++ part))

/-- All that there is of some tokens. -/
def whole (tokens : List GeneratedToken) : Reading := ⟨idsOf tokens, entriesOf tokens⟩

end Reading

section Tokens

variable {before part tokens tokens' : List GeneratedToken} {parts : List (List GeneratedToken)}
  {r : Reading}

@[simp] theorem idsOf_append : idsOf (tokens ++ tokens') = idsOf tokens ++ idsOf tokens' :=
  List.map_append

@[simp] theorem entriesOf_append :
    entriesOf (tokens ++ tokens') = entriesOf tokens ++ entriesOf tokens' :=
  List.map_append

@[simp] theorem length_idsOf : (idsOf tokens).length = tokens.length := List.length_map _

@[simp] theorem length_entriesOf (tokens : List GeneratedToken) :
    (entriesOf tokens).length = tokens.length := List.length_map _

theorem length_reported_le (mode : Streaming) (before part : List GeneratedToken) :
    (mode.reported before part).length ≤ (before ++ part).length := by
  cases mode with
  | cumulative => exact Nat.le_refl _
  | disjoint =>
    rw [Streaming.reported, List.length_append]
    exact Nat.le_add_left ..

theorem entry_injective : Function.Injective GeneratedToken.entry := by
  rintro ⟨id, logprob, text⟩ ⟨id', logprob', text'⟩ h
  simp only [GeneratedToken.entry, Json.arr.injEq, List.cons.injEq, Json.int.injEq] at h
  obtain ⟨rfl, rfl, rfl, -⟩ := h
  rfl

theorem entriesOf_injective : Function.Injective entriesOf :=
  List.map_injective_iff.mpr entry_injective

theorem entriesOf_take (k : Nat) : entriesOf (tokens.take k) = (entriesOf tokens).take k :=
  List.map_take

theorem take_nil : r.take [] tokens = r := by
  unfold Reading.take
  split_ifs with hprefix
  · have hids : r.ids = [] := List.prefix_nil.mp hprefix
    rw [List.length_nil, List.take_zero, List.drop_nil, List.append_nil]
    exact congrArg (fun ids => (⟨ids, r.entries⟩ : Reading)) hids.symm
  · rw [List.length_nil, List.take_zero, List.append_nil]
    exact congrArg (fun ids => (⟨ids, r.entries⟩ : Reading)) (List.append_nil r.ids)

/-- A chunk with all tokens so far completes what has been read of them. -/
theorem take_whole : (Reading.whole before).take (before ++ part) (before ++ part) =
    Reading.whole (before ++ part) := by
  have hprefix : (Reading.whole before).ids <+: idsOf (before ++ part) := by
    rw [idsOf_append]
    exact List.prefix_append _ _
  have htake : (entriesOf (before ++ part)).take (before ++ part).length =
      entriesOf (before ++ part) :=
    List.take_of_length_le (by rw [length_entriesOf])
  rw [Reading.take, if_pos hprefix, htake]
  simp only [Reading.whole, length_idsOf, entriesOf_append]
  rw [← length_entriesOf before, List.drop_left]

theorem run_cumulative : Reading.run .cumulative before parts (Reading.whole before) =
    Reading.whole (before ++ parts.flatten) := by
  induction parts generalizing before with
  | nil => rw [Reading.run, List.flatten_nil, List.append_nil]
  | cons part parts ih =>
    rw [Reading.run, Streaming.reported, Reading.next, ite_self, take_whole, ih, List.flatten_cons,
      List.append_assoc]

theorem next_of_ne_nil (hpart : part ≠ []) : r.next part tokens = r.take part tokens := by
  have hempty : ¬part.isEmpty = true := fun h => hpart (List.isEmpty_iff.mp h)
  rw [Reading.next, if_neg hempty]

/-- A part is read well where it is empty, has the first tokens, or repeats the first of those
before it, though not all. -/
theorem next_disjoint (h : part = [] ∨ before = [] ∨
    (part <+: before ∧ part.length < before.length)) :
    (Reading.whole before).next part (before ++ part) = Reading.whole (before ++ part) := by
  rcases eq_or_ne part [] with rfl | hpart
  · -- the ids in the logprobs are then read
    rw [Reading.next, List.isEmpty_nil, if_pos rfl, take_whole]
  rcases h with rfl | rfl | ⟨⟨rest, rfl⟩, hlength⟩
  · exact absurd rfl hpart
  · rw [next_of_ne_nil hpart]
    exact take_whole
  · have hlong : ¬(Reading.whole (part ++ rest)).ids <+: idsOf part := by
      intro hprefix
      have hle := hprefix.length_le
      rw [Reading.whole, length_idsOf, length_idsOf] at hle
      omega
    have htake : (entriesOf (part ++ rest ++ part)).take part.length = entriesOf part := by
      rw [List.append_assoc, entriesOf_append, ← length_entriesOf part, List.take_left]
    rw [next_of_ne_nil hpart, Reading.take, if_neg hlong, htake]
    simp only [Reading.whole, idsOf_append, entriesOf_append]

theorem run_disjoint (h : Repeats before parts) :
    Reading.run .disjoint before parts (Reading.whole before) =
      Reading.whole (before ++ parts.flatten) := by
  induction parts generalizing before with
  | nil => rw [Reading.run, List.flatten_nil, List.append_nil]
  | cons part parts ih =>
    obtain ⟨hpart, hparts⟩ := h
    rw [Reading.run, Streaming.reported, next_disjoint hpart, ih hparts, List.flatten_cons,
      List.append_assoc]

/-- What has been read of the logprobs stays. -/
theorem entries_prefix_run (mode : Streaming) (before : List GeneratedToken)
    (parts : List (List GeneratedToken)) (r : Reading) :
    r.entries <+: (Reading.run mode before parts r).entries := by
  induction parts generalizing before r with
  | nil => exact List.prefix_refl _
  | cons part parts ih =>
    refine List.IsPrefix.trans ?_ (ih (before ++ part) _)
    rw [Reading.next, Reading.take]
    split_ifs <;> exact List.prefix_append _ _

theorem length_entries_take {chunk all : List GeneratedToken} (hchunk : chunk.length ≤ all.length)
    (h : r.entries.length = r.ids.length) :
    (r.take chunk all).entries.length = (r.take chunk all).ids.length := by
  unfold Reading.take
  split_ifs with hprefix
  · have hle := hprefix.length_le
    rw [length_idsOf] at hle
    simp only [List.length_append, List.length_drop, List.length_take, length_entriesOf,
      length_idsOf, h]
    omega
  · simp only [List.length_append, List.length_take, length_entriesOf, length_idsOf, h]
    omega

/-- There are as many logprobs as ids. -/
theorem length_entries_run (mode : Streaming) (before : List GeneratedToken)
    (parts : List (List GeneratedToken)) (h : r.entries.length = r.ids.length) :
    (Reading.run mode before parts r).entries.length =
      (Reading.run mode before parts r).ids.length := by
  induction parts generalizing before r with
  | nil => exact h
  | cons part parts ih =>
    refine ih _ (length_entries_take ?_ h)
    split_ifs
    · exact Nat.le_refl _
    · exact length_reported_le mode before part

/-- Parts with tokens add at most their own number of ids. -/
theorem length_run_disjoint_le (before : List GeneratedToken) (r : Reading)
    (hparts : ∀ part ∈ parts, part ≠ []) :
    (Reading.run .disjoint before parts r).ids.length ≤ r.ids.length + parts.flatten.length := by
  induction parts generalizing before r with
  | nil => exact Nat.le_refl _
  | cons part parts ih =>
    obtain ⟨hpart, hrest⟩ := List.forall_mem_cons.mp hparts
    have hnext : (r.next part (before ++ part)).ids.length ≤ r.ids.length + part.length := by
      rw [next_of_ne_nil hpart, Reading.take]
      split_ifs
      · rw [length_idsOf]
        omega
      · rw [List.length_append, length_idsOf]
    rw [Reading.run, Streaming.reported, List.flatten_cons, List.length_append]
    exact (ih _ _ hrest).trans (by omega)

/-- Where all is read in the end, no part with tokens was misread on the way. -/
theorem repeats_of_run (hparts : ∀ part ∈ parts, part ≠ [])
    (h : Reading.run .disjoint before parts (Reading.whole before) =
      Reading.whole (before ++ parts.flatten)) : Repeats before parts := by
  induction parts generalizing before with
  | nil => trivial
  | cons part parts ih =>
    obtain ⟨hpart, hrest⟩ := List.forall_mem_cons.mp hparts
    rw [Reading.run, Streaming.reported, List.flatten_cons, ← List.append_assoc] at h
    have hgood : part = [] ∨ before = [] ∨ (part <+: before ∧ part.length < before.length) := by
      rcases eq_or_ne before [] with hbefore | hbefore
      · exact .inr (.inl hbefore)
      have hpos : 0 < before.length := List.length_pos_iff.mpr hbefore
      have hcontinued : ¬(Reading.whole before).ids <+: idsOf part := by
        -- the ids that a chunk taken for a cumulative one leaves out are never made up for
        intro hprefix
        have hle := length_run_disjoint_le (before ++ part)
          ((Reading.whole before).next part (before ++ part)) hrest
        rw [h, next_of_ne_nil hpart, Reading.take, if_pos hprefix, Reading.whole] at hle
        simp only [length_idsOf, List.length_append] at hle
        omega
      have hentries := entries_prefix_run .disjoint (before ++ part) parts
        ((Reading.whole before).next part (before ++ part))
      rw [h, next_of_ne_nil hpart, Reading.take, if_neg hcontinued] at hentries
      have htake : (before ++ part).take part.length = part := by
        apply entriesOf_injective
        rw [entriesOf_take, entriesOf_append]
        simp only [Reading.whole, entriesOf_append, List.append_assoc] at hentries
        refine (List.prefix_of_prefix_length_le ((List.prefix_append_right_inj _).mp hentries)
          (List.prefix_append _ _) ?_).eq_of_length ?_
        · simp
        · simp
      rcases Nat.lt_or_ge part.length before.length with hlt | hge
      · rw [List.take_append_of_le_length hlt.le] at htake
        exact .inr (.inr ⟨htake ▸ List.take_prefix _ _, hlt⟩)
      · rw [List.take_append, List.take_of_length_le hge] at htake
        refine absurd ?_ hcontinued
        rw [← htake, idsOf_append]
        exact List.prefix_append _ _
    refine ⟨hgood, ih hrest ?_⟩
    rwa [next_disjoint hgood] at h

end Tokens

/-! Chunks -/

/-- A chunk that reports some tokens in its ids and has the logprobs of all tokens so far. -/
structure CarriesTokens (reported all : List GeneratedToken) (data : JsonObject) : Prop where
  noError : data.get "error" = none
  outputIds : data.get "output_ids" = some (.arr ((idsOf reported).map .int))
  entries : ∃ metaInfo : JsonObject, data.get "meta_info" = some (.obj metaInfo) ∧
    metaInfo.get "output_token_logprobs" = some (.arr (entriesOf all))

/-- The reader's state is a reading. -/
structure Holds (s : StreamState) (r : Reading) : Prop where
  outputIds : s.aggregatedOutputIds = r.ids.map .int
  entries : s.aggregatedOutputTokenLogprobs = r.entries
  current : s.currentChunkOutputIds = r.ids.map .int

section Chunks

variable {reported all : List GeneratedToken} {data : JsonObject} {s : StreamState} {r : Reading}

theorem extendsKnown_int {known chunk : List Int} :
    extendsKnown (known.map .int) (chunk.map .int) = true ↔ known <+: chunk := by
  rw [extendsKnown, Bool.and_eq_true, decide_eq_true_iff, List.length_map, List.length_map,
    ← List.map_take, Json.pyEqList_int, List.prefix_iff_eq_take]
  constructor
  · exact fun h => h.2.symm
  · intro h
    refine ⟨?_, h.symm⟩
    rw [h, List.length_take]
    exact Nat.min_le_right ..

theorem listOrRaise_arr (xs : List Json) : listOrRaise (some (.arr xs)) = .ok xs := by
  cases xs <;> rfl

theorem extractOutputIdsFromMetaInfo_eq {metaInfo : JsonObject}
    (h : metaInfo.get "output_token_logprobs" = some (.arr (entriesOf all))) :
    extractOutputIdsFromMetaInfo metaInfo = (idsOf all).map .int := by
  rw [extractOutputIdsFromMetaInfo, h]
  change (entriesOf all).filterMap _ = _
  rw [entriesOf, List.filterMap_map, idsOf, List.map_map, ← List.filterMap_eq_map]
  rfl

theorem extendLogprobs_of_le {aggregated entries : List Json} {startIdx endIdx newTokens : Nat}
    (h : endIdx ≤ entries.length) :
    Router.extendLogprobs aggregated entries startIdx endIdx newTokens =
      aggregated ++ (entries.take endIdx).drop startIdx := by
  unfold Router.extendLogprobs
  split_ifs with hempty
  · rw [List.isEmpty_iff.mp hempty]
    simp
  · rfl

/-- A chunk's ids are taken for the tokens so far where they extend the known ones. -/
theorem appendChunk_int {metaInfo : JsonObject} {chunk : List GeneratedToken} (hs : Holds s r)
    (h : metaInfo.get "output_token_logprobs" = some (.arr (entriesOf all)))
    (hlength : chunk.length ≤ all.length) :
    ∃ s', appendChunk s metaInfo ((idsOf chunk).map .int) = .ok s' ∧
      s'.latestMetaInfo = s.latestMetaInfo ∧
      Holds s' (r.take chunk all) := by
  have hend : ((idsOf chunk).map Json.int).length = chunk.length := by simp
  have hle : chunk.length ≤ (entriesOf all).length := by rwa [length_entriesOf]
  have hknown : (r.ids.map Json.int).length = r.ids.length := List.length_map _
  unfold appendChunk Reading.take
  rw [hs.current, h, listOrRaise_arr]
  dsimp only
  by_cases hext : r.ids <+: idsOf chunk
  · obtain ⟨new, hnew⟩ := id hext
    have hdrop : ((idsOf chunk).map Json.int).drop (r.ids.map Json.int).length =
        new.map Json.int := by
      rw [← hnew, List.map_append, List.drop_left]
    rw [if_pos hext, extendsKnown_int.mpr hext]
    simp only [if_true]
    rw [hdrop, hknown, hend]
    cases new with
    | nil =>
      rw [List.append_nil] at hnew
      refine ⟨_, rfl, rfl, ?_, ?_, rfl⟩
      · rw [← hnew]
        exact hs.outputIds
      · have hdone : ((entriesOf all).take chunk.length).drop r.ids.length = [] := by
          rw [List.drop_eq_nil_iff, hnew, length_idsOf]
          exact List.length_take_le ..
        rw [hdone, List.append_nil]
        exact hs.entries
    | cons id new =>
      refine ⟨_, rfl, rfl, ?_, ?_, rfl⟩
      · change s.aggregatedOutputIds ++ _ = _
        rw [hs.outputIds, ← hnew, List.map_append]
      · change Router.extendLogprobs _ _ _ _ _ = _
        rw [extendLogprobs_of_le hle, hs.entries]
  · have hnot : extendsKnown (r.ids.map .int) ((idsOf chunk).map .int) = false :=
      Bool.eq_false_iff.mpr fun h => hext (extendsKnown_int.mp h)
    rw [if_neg hext, hnot]
    simp only [Bool.false_eq_true, if_false]
    rw [hend]
    cases chunk with
    | nil =>
      refine ⟨_, rfl, rfl, ?_, ?_, ?_⟩
      · rw [hs.outputIds]
        simp [idsOf]
      · rw [hs.entries]
        simp
      · simp [idsOf]
    | cons token chunk =>
      refine ⟨_, rfl, rfl, ?_, ?_, ?_⟩
      · change s.aggregatedOutputIds ++ _ = _
        rw [hs.outputIds, List.map_append]
      · change Router.extendLogprobs _ _ _ _ _ = _
        rw [extendLogprobs_of_le hle, hs.entries, List.drop_zero]
      · rw [List.map_append]

theorem takeChunk_carries (h : CarriesTokens reported all data) (hs : Holds s r)
    (hlength : reported.length ≤ all.length) :
    ∃ s', takeChunk s data = .ok s' ∧ Holds s' (r.next reported all) ∧
      s'.latestMetaInfo.get "output_token_logprobs" = some (.arr (entriesOf all)) := by
  obtain ⟨metaInfo, hmeta, hentries⟩ := h.entries
  have hdict : Json.toDict (data.get "meta_info") = .ok metaInfo := by
    rw [hmeta]
    exact Router.toDict_of_get hentries
  have hids : extractChunkOutputIds data metaInfo =
      .ok ((idsOf (if reported.isEmpty then all else reported)).map .int) := by
    rw [extractChunkOutputIds, h.outputIds, listOrRaise_arr]
    cases reported with
    | nil =>
      rw [List.isEmpty_nil, if_pos rfl, ← extractOutputIdsFromMetaInfo_eq hentries]
      rfl
    | cons token reported => rfl
  have hchunk : (if reported.isEmpty then all else reported).length ≤ all.length := by
    split_ifs
    · exact Nat.le_refl _
    · exact hlength
  obtain ⟨s', happend, hmeta', hholds⟩ := appendChunk_int (s := { s with
      latestText := (data.get "text").getD s.latestText
      latestMetaInfo := metaInfo }) ⟨hs.outputIds, hs.entries, hs.current⟩ hentries hchunk
  unfold takeChunk
  rw [hdict]
  simp only [bind, Except.bind, pure, Except.pure]
  rw [hids, Reading.next]
  dsimp only
  cases hempty : ((idsOf (if reported.isEmpty then all else reported)).map Json.int).isEmpty with
  | true =>
    have hnone : (if reported.isEmpty then all else reported) = [] := by
      have hlist := List.isEmpty_iff.mp hempty
      exact List.map_eq_nil_iff.mp (List.map_eq_nil_iff.mp hlist)
    rw [hnone, take_nil]
    exact ⟨_, rfl, ⟨hs.outputIds, hs.entries, hs.current⟩, hentries⟩
  | false =>
    rw [if_neg Bool.false_ne_true]
    exact ⟨s', happend, hholds, by rw [hmeta']; exact hentries⟩

end Chunks

/-! The event stream -/

/-- The bytes of an event. -/
def eventBytes (text : String) : Bytes := Text.encode ("data: " ++ text) ++ [newline, newline]

/-- What a worker sends: an event for each chunk, and the end marker. -/
def streamBytes (texts : List String) : Bytes := (texts ++ ["[DONE]"]).flatMap eventBytes

/-- A text that stands on a line as it is. -/
structure IsLineText (text : String) : Prop where
  stripped : Text.strip text = text
  not_empty : text ≠ ""
  single : '\n' ∉ text.toList

section Lines

variable {text : String} {texts : List String} {loads : String → Option Json} {s : StreamState}

theorem isLineText_done : IsLineText "[DONE]" := ⟨by decide, by decide, by decide⟩

/-- Neither end of the text is a space. -/
theorem IsLineText.dropWhile_eq (h : IsLineText text) :
    text.toList.dropWhile Text.isSpace = text.toList ∧
      text.toList.reverse.dropWhile Text.isSpace = text.toList.reverse := by
  have hchars : ((text.toList.dropWhile Text.isSpace).reverse.dropWhile Text.isSpace).reverse =
      text.toList := by
    have hstrip := congrArg String.toList h.stripped
    rwa [Text.strip, String.toList_ofList] at hstrip
  have hfront : text.toList.dropWhile Text.isSpace = text.toList := by
    refine (List.dropWhile_suffix _).eq_of_length_le ?_
    have hle := (List.dropWhile_suffix Text.isSpace
      (l := (text.toList.dropWhile Text.isSpace).reverse)).length_le
    rw [List.length_reverse, ← List.length_reverse, hchars] at hle
    exact hle
  rw [hfront] at hchars
  exact ⟨hfront, List.reverse_injective (by rw [hchars, List.reverse_reverse])⟩

/-- What is stripped of a text that ends well stands at its front. -/
theorem strip_of_dropWhile {front front' : List Char} (h : IsLineText text)
    (hfront : (front ++ text.toList).dropWhile Text.isSpace = front' ++ text.toList) :
    Text.strip (String.ofList (front ++ text.toList)) = String.ofList (front' ++ text.toList) := by
  have hlast : (front' ++ text.toList).reverse.dropWhile Text.isSpace =
      (front' ++ text.toList).reverse := by
    have hnil : ¬text.toList.reverse.isEmpty = true := by
      rw [List.isEmpty_reverse, List.isEmpty_iff]
      exact fun hnil => h.not_empty (String.toList_eq_nil_iff.mp hnil)
    rw [List.reverse_append, List.dropWhile_append, h.dropWhile_eq.2, if_neg hnil]
  rw [Text.strip, String.toList_ofList, hfront, hlast, List.reverse_reverse]

/-- The text of an event's line. -/
theorem lineText_event (h : IsLineText text) :
    lineText (Text.encode ("data: " ++ text)) = text := by
  have hdata : ("data: " ++ text).toList = "data: ".toList ++ text.toList := String.toList_append
  have hstrip : Text.strip ("data: " ++ text) = "data: " ++ text := by
    have hline : Text.strip (String.ofList ("data: ".toList ++ text.toList)) =
        String.ofList ("data: ".toList ++ text.toList) := strip_of_dropWhile h rfl
    rwa [← hdata, String.ofList_toList] at hline
  have hstart : Text.startsWith "data:" ("data: " ++ text) = true := by
    rw [Text.startsWith, List.isPrefixOf_iff_prefix, hdata]
    exact (by decide : "data:".toList <+: "data: ".toList).trans (List.prefix_append _ _)
  have hdrop : ("data: " ++ text).toList.drop 5 = [' '] ++ text.toList := by
    rw [hdata]
    rfl
  have hspace : ([' '] ++ text.toList).dropWhile Text.isSpace = [] ++ text.toList := by
    rw [List.singleton_append, List.dropWhile_cons_of_pos (by decide), h.dropWhile_eq.1,
      List.nil_append]
  rw [lineText, Text.decode_encode]
  dsimp only
  rw [hstrip, hstart, if_pos rfl, hdrop, strip_of_dropWhile h hspace, List.nil_append,
    String.ofList_toList]

theorem handleLine_blank : handleLine loads s [] = .ok s := by
  have hblank : lineText [] = "" := by decide
  rw [handleLine, hblank]
  rfl

/-- The lines of the events: each is followed by a blank one. -/
theorem isLines_events (h : ∀ text ∈ texts, IsLineText text) :
    LineBuffer.IsLines newline (texts.flatMap eventBytes)
      (texts.flatMap fun text => [Text.encode ("data: " ++ text), []]) [] := by
  induction texts with
  | nil => exact LineBuffer.isLines_nil List.not_mem_nil
  | cons text texts ih =>
    obtain ⟨htext, hrest⟩ := List.forall_mem_cons.mp h
    have hline : newline ∉ Text.encode ("data: " ++ text) := by
      refine Text.notMem_encode (by decide) ?_
      rw [String.toList_append, List.mem_append]
      rintro (hmem | hmem)
      · exact absurd hmem (by decide)
      · exact htext.single hmem
    have hlines := ((ih hrest).cons List.not_mem_nil).cons hline
    rw [List.flatMap_cons, List.flatMap_cons, eventBytes]
    simpa using hlines

theorem foldlM_events : (texts.flatMap fun text => [Text.encode ("data: " ++ text), []]).foldlM
      (handleLine loads) s =
    texts.foldlM (fun s text => handleLine loads s (Text.encode ("data: " ++ text))) s := by
  induction texts generalizing s with
  | nil => rfl
  | cons text texts ih =>
    rw [List.flatMap_cons, List.foldlM_append, List.foldlM_cons, List.foldlM_cons]
    cases handleLine loads s (Text.encode ("data: " ++ text)) with
    | error attemptEnd => rfl
    | ok s =>
      change (do let s ← [[]].foldlM (handleLine loads) s; _) = _
      rw [List.foldlM_cons, handleLine_blank]
      exact ih

end Lines

/-! Divisions -/

/-- The text of an event with a chunk, and what `json.loads` makes of it. -/
structure IsChunkText (loads : String → Option Json) (text : String) (data : JsonObject) : Prop
    extends IsLineText text where
  not_done : text ≠ "[DONE]"
  loads_eq : loads text = some (.obj data)

/-- The events of a token sequence divided into parts: each reports its part as the way of
streaming has it, with the logprobs of all tokens so far. -/
def Streams (loads : String → Option Json) (mode : Streaming) :
    List GeneratedToken → List (List GeneratedToken) → List String → Prop
  | _, [], [] => True
  | before, part :: parts, text :: texts =>
    (∃ data, IsChunkText loads text data ∧
      CarriesTokens (mode.reported before part) (before ++ part) data) ∧
      Streams loads mode (before ++ part) parts texts
  | _, _, _ => False

/-- In whatever reads the stream comes, and after whatever attempts that fail, the output has
all tokens' ids, and their logprobs at the same places. -/
def Yields (loads : String → Option Json) (stream : Bytes) (tokens : List GeneratedToken) : Prop :=
  ∃ output metaInfo : JsonObject,
    output.get "output_ids" = some (.arr ((idsOf tokens).map .int)) ∧
      output.get "meta_info" = some (.obj metaInfo) ∧
      Json.listOrEmpty (metaInfo.get "output_token_logprobs") = entriesOf tokens ∧
      ∀ (attempts : Nat → StreamAttempt) (maxRetries k : Nat), k < maxRetries →
        (∀ j < k, Retried loads (attempts j)) →
          (∃ reads ending, attempts k = .streamed reads ending ∧ reads.flatten = stream) →
            postStream loads attempts maxRetries = .returned (.obj output)

section Runs

variable {loads : String → Option Json} {mode : Streaming} {before tokens : List GeneratedToken}
  {parts : List (List GeneratedToken)} {text : String} {texts : List String} {s : StreamState}
  {r : Reading} {data : JsonObject}

theorem Streams.isLineText (h : Streams loads mode before parts texts) :
    ∀ text ∈ texts, IsLineText text := by
  induction texts generalizing before parts with
  | nil => exact fun _ htext => absurd htext List.not_mem_nil
  | cons text texts ih =>
    cases parts with
    | nil => exact h.elim
    | cons part parts =>
      obtain ⟨⟨data, htext, -⟩, hrest⟩ := h
      exact List.forall_mem_cons.mpr ⟨htext.toIsLineText, ih hrest⟩

theorem handleLine_chunk (h : IsChunkText loads text data) :
    handleLine loads s (Text.encode ("data: " ++ text)) =
      takeData { s with allDataLines := s.allDataLines ++ [text] } (.obj data) := by
  rw [handleLine, lineText_event h.toIsLineText]
  rw [if_neg h.not_empty, if_neg h.not_done, h.loads_eq]

theorem takeData_of_noError {s' : StreamState} (hdata : data.get "error" = none)
    (htake : takeChunk s data = .ok s') : takeData s (.obj data) = .ok s' := by
  have herror : hasError (.obj data) = .ok false := by
    change Except.ok (data.get "error").isSome = _
    rw [hdata]
    rfl
  unfold takeData
  rw [herror]
  dsimp only
  rw [htake]

/-- The chunks of a division are read as their parts are. -/
theorem foldlM_streams (h : Streams loads mode before parts texts) (hs : Holds s r)
    (hmeta : Json.listOrEmpty (s.latestMetaInfo.get "output_token_logprobs") = entriesOf before) :
    ∃ s', texts.foldlM (fun s text => handleLine loads s (Text.encode ("data: " ++ text))) s =
        .ok s' ∧ Holds s' (Reading.run mode before parts r) ∧
      Json.listOrEmpty (s'.latestMetaInfo.get "output_token_logprobs") =
        entriesOf (before ++ parts.flatten) := by
  induction texts generalizing before parts s r with
  | nil =>
    cases parts with
    | nil => exact ⟨s, rfl, hs, by rw [List.flatten_nil, List.append_nil]; exact hmeta⟩
    | cons part parts => exact h.elim
  | cons text texts ih =>
    cases parts with
    | nil => exact h.elim
    | cons part parts =>
      obtain ⟨⟨data, htext, hcarries⟩, hrest⟩ := h
      obtain ⟨s₁, htake, hs₁, hmeta₁⟩ := takeChunk_carries hcarries
        (s := { s with allDataLines := s.allDataLines ++ [text] })
        ⟨hs.outputIds, hs.entries, hs.current⟩ (length_reported_le mode before part)
      have hline : handleLine loads s (Text.encode ("data: " ++ text)) = .ok s₁ := by
        rw [handleLine_chunk htext, takeData_of_noError hcarries.noError htake]
      obtain ⟨s₂, hfold, hs₂, hmeta₂⟩ := ih hrest hs₁ (by rw [hmeta₁]; rfl)
      refine ⟨s₂, ?_, hs₂, ?_⟩
      · rw [List.foldlM_cons, hline]
        exact hfold
      · rw [hmeta₂, List.flatten_cons, List.append_assoc]

/-- The stream of a division is read up to its end marker, in whatever reads it comes. -/
theorem runAttempt_streams (h : Streams loads mode [] parts texts) :
    ∃ s, Holds s (Reading.run mode [] parts (Reading.whole [])) ∧
      Json.listOrEmpty (s.latestMetaInfo.get "output_token_logprobs") =
        entriesOf parts.flatten ∧
      ∀ reads ending, reads.flatten = streamBytes texts →
        runAttempt loads (.streamed reads ending) = .returned (.obj (finalOutput s)) := by
  have hstart : Holds {} (Reading.whole []) := ⟨rfl, rfl, rfl⟩
  obtain ⟨s, hfold, hs, hmeta⟩ := foldlM_streams h hstart rfl
  refine ⟨s, hs, hmeta, fun reads ending hreads => ?_⟩
  have htexts : ∀ text ∈ texts ++ ["[DONE]"], IsLineText text := by
    intro text htext
    rcases List.mem_append.mp htext with htext | htext
    · exact h.isLineText text htext
    · rw [List.mem_singleton.mp htext]
      exact isLineText_done
  have hlines := isLines_events htexts
  rw [← streamBytes, ← hreads] at hlines
  have hdone : handleLine loads s (Text.encode ("data: " ++ "[DONE]")) =
      .error (.returned (.obj (finalOutput s))) := by
    rw [handleLine, lineText_event isLineText_done, if_neg (by decide), if_pos rfl]
  rw [runAttempt_streamed hlines, foldlM_events, List.foldlM_append, hfold]
  simp only [bind, Except.bind, List.foldlM_cons]
  rw [hdone]

theorem get_finalOutput (hs : Holds s r) :
    (finalOutput s).get "output_ids" = some (.arr (r.ids.map .int)) ∧
      ∃ metaInfo : JsonObject, (finalOutput s).get "meta_info" = some (.obj metaInfo) ∧
        Json.listOrEmpty (metaInfo.get "output_token_logprobs") =
          if r.entries.isEmpty then
            Json.listOrEmpty (s.latestMetaInfo.get "output_token_logprobs")
          else r.entries := by
  refine ⟨by rw [← hs.outputIds]; rfl, _, rfl, ?_⟩
  rw [hs.entries]
  split_ifs
  · rw [JsonObject.get_set_other _ _ (by decide)]
  · rw [JsonObject.get_set_same]
    rfl

/-- The output is right if and only if the reading is. -/
theorem yields_iff (h : Streams loads mode [] parts texts) :
    Yields loads (streamBytes texts) parts.flatten ↔
      Reading.run mode [] parts (Reading.whole []) = Reading.whole parts.flatten := by
  obtain ⟨s, hs, hmeta, hrun⟩ := runAttempt_streams h
  obtain ⟨hids, metaInfo, hmetaInfo, hentries⟩ := get_finalOutput hs
  have hlength := length_entries_run mode [] parts (r := Reading.whole []) rfl
  rw [hmeta] at hentries
  constructor
  · rintro ⟨output, metaInfo', hids', hmetaInfo', hentries', hreturned⟩
    have hfirst := hreturned (fun _ => .streamed [streamBytes texts] .closed) 1 0 Nat.one_pos
      (fun j hj => absurd hj (Nat.not_lt_zero j)) ⟨_, _, rfl, List.flatten_singleton⟩
    rw [postStream_of_returned Nat.one_pos (fun j hj => absurd hj (Nat.not_lt_zero j))
      (hrun _ _ List.flatten_singleton)] at hfirst
    obtain rfl : finalOutput s = output := by simpa using hfirst
    obtain rfl : metaInfo = metaInfo' := by
      simpa using hmetaInfo.symm.trans hmetaInfo'
    have hsame : (Reading.run mode [] parts (Reading.whole [])).ids = idsOf parts.flatten := by
      have hmap := hids.symm.trans hids'
      simp only [Option.some.injEq, Json.arr.injEq] at hmap
      exact List.map_injective_iff.mpr (fun _ _ h => Json.int.inj h) hmap
    rw [hentries] at hentries'
    split_ifs at hentries' with hempty
    · rw [List.isEmpty_iff] at hempty
      rw [hempty, List.length_nil, hsame, length_idsOf] at hlength
      have hnone : parts.flatten = [] := List.length_eq_zero_iff.mp hlength.symm
      rw [hnone] at hsame ⊢
      exact congrArg₂ Reading.mk hsame hempty
    · exact congrArg₂ Reading.mk hsame hentries'
  · intro hwhole
    rw [hwhole] at hids hentries
    refine ⟨finalOutput s, metaInfo, hids, hmetaInfo, ?_, ?_⟩
    · rw [hentries]
      exact ite_self _
    · rintro attempts maxRetries k hk hbefore ⟨reads, ending, hattempt, hreads⟩
      refine postStream_of_returned hk hbefore ?_
      rw [hattempt]
      exact hrun reads ending hreads

end Runs

/-! Streams without an end marker -/

/-- An output that tells of an error. -/
def isErrorOutput : Json → Bool
  | .obj fields => (JsonObject.get fields "error").isSome
  | _ => false

/-- A dict that is no error, and of which the fields that the reader uses have their types. -/
structure IsChunkData (data : JsonObject) : Prop where
  noError : data.get "error" = none
  outputIds : ∃ ids, listOrRaise (data.get "output_ids") = .ok ids
  metaInfo : ∃ metaInfo entries, Json.toDict (data.get "meta_info") = .ok metaInfo ∧
    listOrRaise (metaInfo.get "output_token_logprobs") = .ok entries

/-- A stream of some lines and a rest that no line end follows. The lines are blank or have chunks;
the end marker is not among them. -/
structure Unfinished (loads : String → Option Json) (lines : List Bytes) (rest : Bytes) : Prop where
  ended : ∀ line ∈ lines, newline ∉ line
  unended : newline ∉ rest
  chunks : ∀ line ∈ lines, lineText line = "" ∨ (lineText line ≠ "[DONE]" ∧
    ∃ data, loads (lineText line) = some (.obj data) ∧ IsChunkData data)
  rest_not_done : lineText rest ≠ "[DONE]"

/-- The rest is JSON and no error; or it is not JSON, and a chunk came before it. -/
def LeavesOutput (loads : String → Option Json) (lines : List Bytes) (rest : Bytes) : Prop :=
  match if lineText rest = "" then none else loads (lineText rest) with
  | some data => isErrorOutput data = false
  | none => ∃ line ∈ lines, lineText line ≠ ""

/-- The attempt returns an output that is no error. -/
def Succeeds (loads : String → Option Json) (attempt : StreamAttempt) : Prop :=
  ∃ output, runAttempt loads attempt = .returned output ∧ isErrorOutput output = false

section Unended

variable {loads : String → Option Json} {lines : List Bytes} {rest : Bytes} {data : JsonObject}
  {s : StreamState}

theorem appendChunk_ok {metaInfo : JsonObject} {entries : List Json}
    (h : listOrRaise (metaInfo.get "output_token_logprobs") = .ok entries) (chunk : List Json) :
    ∃ s', appendChunk s metaInfo chunk = .ok s' ∧ s'.allDataLines = s.allDataLines := by
  unfold appendChunk
  rw [h]
  simp only [bind, Except.bind, pure, Except.pure]
  split_ifs <;> exact ⟨_, rfl, rfl⟩

theorem takeChunk_ok (h : IsChunkData data) :
    ∃ s', takeChunk s data = .ok s' ∧ s'.allDataLines = s.allDataLines := by
  obtain ⟨ids, hids⟩ := h.outputIds
  obtain ⟨metaInfo, entries, hmeta, hentries⟩ := h.metaInfo
  unfold takeChunk extractChunkOutputIds
  rw [hids, hmeta]
  simp only [bind, Except.bind, pure, Except.pure]
  split_ifs
  · exact ⟨_, rfl, rfl⟩
  · exact appendChunk_ok hentries _
  · exact appendChunk_ok hentries _

/-- The texts of the chunks among some lines. -/
def dataTexts (lines : List Bytes) : List String := (lines.map lineText).filter (· ≠ "")

theorem foldlM_unfinished (h : ∀ line ∈ lines, lineText line = "" ∨ (lineText line ≠ "[DONE]" ∧
      ∃ data, loads (lineText line) = some (.obj data) ∧ IsChunkData data)) :
    ∃ s', lines.foldlM (handleLine loads) s = .ok s' ∧
      s'.allDataLines = s.allDataLines ++ dataTexts lines := by
  induction lines generalizing s with
  | nil => exact ⟨s, rfl, (List.append_nil _).symm⟩
  | cons line lines ih =>
    obtain ⟨hline, hrest⟩ := List.forall_mem_cons.mp h
    by_cases hblank : lineText line = ""
    · obtain ⟨s', hfold, hlines⟩ := ih hrest (s := s)
      refine ⟨s', ?_, ?_⟩
      · rw [List.foldlM_cons, handleLine, if_pos hblank]
        exact hfold
      · rw [hlines, dataTexts, dataTexts, List.map_cons,
          List.filter_cons_of_neg (by simpa using hblank)]
    · obtain ⟨hdone, data, hloads, hdata⟩ := hline.resolve_left hblank
      obtain ⟨s₁, htake, hlines₁⟩ := takeChunk_ok hdata
        (s := { s with allDataLines := s.allDataLines ++ [lineText line] })
      obtain ⟨s₂, hfold, hlines₂⟩ := ih hrest (s := s₁)
      refine ⟨s₂, ?_, ?_⟩
      · rw [List.foldlM_cons, handleLine, if_neg hblank, if_neg hdone, hloads]
        dsimp only
        rw [takeData_of_noError hdata.noError htake]
        exact hfold
      · rw [hlines₂, hlines₁, dataTexts, dataTexts, List.map_cons,
          List.filter_cons_of_pos (by simpa using hblank), List.append_assoc, List.singleton_append]

/-- Of some texts that are all chunks the last one is found. -/
theorem findSome?_chunks {texts : List String}
    (h : ∀ text ∈ texts, ∃ data : JsonObject, loads text = some (.obj data) ∧
      data.get "error" = none) :
    (∃ output, texts.reverse.findSome? loads = some output ∧ isErrorOutput output = false) ↔
      texts ≠ [] := by
  constructor
  · rintro ⟨output, hfound, -⟩ rfl
    cases hfound
  · intro hne
    obtain ⟨texts, text, rfl⟩ := List.eq_nil_or_concat' texts |>.resolve_left hne
    obtain ⟨data, hloads, hdata⟩ := h text (List.mem_append_right _ (List.mem_singleton_self _))
    refine ⟨.obj data, ?_, ?_⟩
    · rw [List.reverse_append, List.reverse_singleton, List.singleton_append,
        List.findSome?_cons, hloads]
    · rw [isErrorOutput, hdata]
      rfl

/-- What is returned when a stream is closed: the rest, or where that is not JSON, the last chunk. -/
theorem closedOutput_iff (h : Unfinished loads lines rest) (hs : s.allDataLines = dataTexts lines) :
    (∃ output, closedOutput loads s rest = .returned output ∧ isErrorOutput output = false) ↔
      LeavesOutput loads lines rest := by
  have hchunks : ∀ text ∈ dataTexts lines, ∃ data : JsonObject, loads text = some (.obj data) ∧
      data.get "error" = none := by
    intro text htext
    obtain ⟨hmem, hne⟩ := List.mem_filter.mp htext
    obtain ⟨line, hline, rfl⟩ := List.mem_map.mp hmem
    obtain ⟨-, data, hloads, hdata⟩ := (h.chunks line hline).resolve_left (by simpa using hne)
    exact ⟨data, hloads, hdata.noError⟩
  have hsome : dataTexts lines ≠ [] ↔ ∃ line ∈ lines, lineText line ≠ "" := by
    rw [dataTexts, ne_eq, List.filter_eq_nil_iff]
    simp
  have hlast := (findSome?_chunks hchunks).trans hsome
  have hreturned : ∀ found : Option Json,
      (∃ output, (match found with
        | some data => AttemptEnd.returned data
        | none => .raised .streamConsumed) = .returned output ∧ isErrorOutput output = false) ↔
        ∃ output, found = some output ∧ isErrorOutput output = false := by
    intro found
    cases found <;> simp
  unfold closedOutput LeavesOutput
  rw [hs]
  by_cases hblank : lineText rest = ""
  · rw [if_pos hblank]
    dsimp only
    rw [if_pos (Or.inl hblank)]
    exact (hreturned _).trans hlast
  · have hnot : ¬(lineText rest = "" ∨ lineText rest = "[DONE]") :=
      not_or_intro hblank h.rest_not_done
    rw [if_neg hblank]
    dsimp only
    rw [if_neg hnot]
    refine (hreturned _).trans ?_
    rw [List.reverse_append, List.reverse_singleton, List.singleton_append, List.findSome?_cons]
    cases loads (lineText rest) with
    | some data => simp
    | none => exact hlast

/-- A stream that ends without its marker is an output where it is closed and leaves one. -/
theorem succeeds_iff (h : Unfinished loads lines rest) {reads : List Bytes} {ending : StreamEnding}
    (hreads : reads.flatten = lines.flatMap (· ++ [newline]) ++ rest) :
    Succeeds loads (.streamed reads ending) ↔
      ending = .closed ∧ LeavesOutput loads lines rest := by
  obtain ⟨s, hfold, hlines⟩ := foldlM_unfinished h.chunks (s := {})
  rw [Succeeds, runAttempt_streamed ⟨hreads, h.ended, h.unended⟩, hfold]
  cases ending with
  | failed => simp
  | closed =>
    rw [← closedOutput_iff h hlines]
    simp

end Unended

/-- The stream of a division ends as an output with all tokens and their logprobs where the chunks
are cumulative, or where no disjoint part is misread; with tokens in every chunk only there. A
stream without the end marker is no successful output where it fails, or leaves nothing to return. -/
theorem postStream_faithful {loads : String → Option Json} {mode : Streaming}
    {parts : List (List GeneratedToken)} {texts : List String} {lines : List Bytes} {rest : Bytes}
    (hstream : Streams loads mode [] parts texts) (hunfinished : Unfinished loads lines rest) :
    (mode = .cumulative ∨ Repeats [] parts → Yields loads (streamBytes texts) parts.flatten) ∧
      ((∀ part ∈ parts, part ≠ []) → Yields loads (streamBytes texts) parts.flatten →
        mode = .cumulative ∨ Repeats [] parts) ∧
      ∀ reads ending, reads.flatten = lines.flatMap (· ++ [newline]) ++ rest →
        (¬Succeeds loads (.streamed reads ending) ↔
          ending = .failed ∨ ¬LeavesOutput loads lines rest) := by
  have hyields := yields_iff hstream
  refine ⟨?_, ?_, ?_⟩
  · rintro (rfl | hrepeats)
    · exact hyields.mpr run_cumulative
    · refine hyields.mpr ?_
      cases mode with
      | cumulative => exact run_cumulative
      | disjoint => exact run_disjoint hrepeats
  · intro hparts hright
    cases mode with
    | cumulative => exact .inl rfl
    | disjoint => exact .inr (repeats_of_run hparts (hyields.mp hright))
  · intro reads ending hreads
    rw [succeeds_iff hunfinished hreads]
    cases ending <;> simp

/-! Two tokens in two chunks -/

def firstToken : GeneratedToken := ⟨7, .float (-1 / 2), .null⟩

def secondToken : GeneratedToken := ⟨8, .float (-1), .null⟩

def firstChunk : String :=
  "\x7b\"output_ids\": [7], \"meta_info\": \x7b\"output_token_logprobs\": [[-0.5, 7, null]]\x7d\x7d"

def secondChunk : String :=
  "\x7b\"output_ids\": [8], \"meta_info\": \x7b\"output_token_logprobs\": [[-0.5, 7, null], " ++
    "[-1.0, 8, null]]\x7d\x7d"

def chunkData (reported all : List GeneratedToken) : JsonObject :=
  [("output_ids", .arr ((idsOf reported).map .int)),
    ("meta_info", .obj [("output_token_logprobs", .arr (entriesOf all))])]

/-- `json.loads` on the two chunks. -/
def loadChunks (text : String) : Option Json :=
  if text = firstChunk then some (.obj (chunkData [firstToken] [firstToken]))
  else if text = secondChunk then
    some (.obj (chunkData [secondToken] [firstToken, secondToken]))
  else none

theorem chunkData_carries (reported all : List GeneratedToken) :
    CarriesTokens reported all (chunkData reported all) :=
  ⟨rfl, rfl, _, rfl, rfl⟩

theorem chunkData_isChunkData (reported all : List GeneratedToken) :
    IsChunkData (chunkData reported all) :=
  ⟨rfl, ⟨_, listOrRaise_arr _⟩, _, _, rfl, listOrRaise_arr _⟩

theorem isChunkText_firstChunk :
    IsChunkText loadChunks firstChunk (chunkData [firstToken] [firstToken]) :=
  { stripped := by decide +kernel
    not_empty := by decide +kernel
    single := by decide +kernel
    not_done := by decide +kernel
    loads_eq := if_pos rfl }

theorem isChunkText_secondChunk :
    IsChunkText loadChunks secondChunk (chunkData [secondToken] [firstToken, secondToken]) :=
  { stripped := by decide +kernel
    not_empty := by decide +kernel
    single := by decide +kernel
    not_done := by decide +kernel
    loads_eq := by rw [loadChunks, if_neg (by decide +kernel), if_pos rfl] }

theorem streams_twoChunks :
    Streams loadChunks .disjoint [] [[firstToken], [secondToken]] [firstChunk, secondChunk] :=
  ⟨⟨_, isChunkText_firstChunk, chunkData_carries _ _⟩,
    ⟨_, isChunkText_secondChunk, chunkData_carries _ _⟩, trivial⟩

/-- The first chunk's line, after which the stream ends. -/
def firstLine : Bytes := Text.encode ("data: " ++ firstChunk)

theorem unfinished_firstLine : Unfinished loadChunks [firstLine] [] := by
  have htext : lineText firstLine = firstChunk := lineText_event isChunkText_firstChunk.toIsLineText
  refine ⟨?_, List.not_mem_nil, ?_, by decide⟩
  · intro line hline
    rw [List.mem_singleton.mp hline]
    have htexts : ∀ text ∈ [firstChunk], IsLineText text :=
      List.forall_mem_singleton.mpr isChunkText_firstChunk.toIsLineText
    exact (isLines_events htexts).ended _ (List.mem_cons_self ..)
  · intro line hline
    rw [List.mem_singleton.mp hline, htext]
    exact .inr ⟨isChunkText_firstChunk.not_done, _, isChunkText_firstChunk.loads_eq,
      chunkData_isChunkData _ _⟩

theorem postStream_faithful_twoChunks :
    Streams loadChunks .disjoint [] [[firstToken], [secondToken]] [firstChunk, secondChunk] ∧
      Unfinished loadChunks [firstLine] [] ∧
      (¬Succeeds loadChunks (.streamed [firstLine ++ [newline]] .failed) ↔
        StreamEnding.failed = .failed ∨ ¬LeavesOutput loadChunks [firstLine] []) :=
  ⟨streams_twoChunks, unfinished_firstLine,
    (postStream_faithful streams_twoChunks unfinished_firstLine).2.2 [firstLine ++ [newline]] .failed
      (by simp)⟩

/-- The second token gets the first one's logprob; and a stream that is closed after the first
chunk is returned as an output. -/
theorem not_postStream_faithful_twoChunks :
    Streams loadChunks .disjoint [] [[firstToken], [secondToken]] [firstChunk, secondChunk] ∧
      ¬Yields loadChunks (streamBytes [firstChunk, secondChunk]) [firstToken, secondToken] ∧
      Succeeds loadChunks (.streamed [firstLine ++ [newline]] .closed) := by
  refine ⟨streams_twoChunks, fun hyields => ?_, ?_⟩
  · have hrepeats := repeats_of_run (by simp) ((yields_iff streams_twoChunks).mp hyields)
    have hrepeated := hrepeats.2.1
    simp at hrepeated
  · refine (succeeds_iff unfinished_firstLine (by simp)).mpr ⟨rfl, ?_⟩
    have hblank : lineText [] = "" := by decide
    rw [LeavesOutput, if_pos hblank]
    refine ⟨firstLine, List.mem_singleton_self _, ?_⟩
    rw [firstLine, lineText_event isChunkText_firstChunk.toIsLineText]
    exact isChunkText_firstChunk.not_empty

end Belayer.Rollout.PostStream
