import Belayer.Agent.Samples
import Belayer.Framework.Traverse

namespace Belayer.Agent

open Belayer.Framework

variable {c : ChatTemplate} {info : RunInfo} {args : GenerateArgs} {sample : TrainSample}

/-- Before it is cut, the sample is the rendering of its conversation, with 1 in the loss mask on
what the assistant has written after the prompt; cut, both are cut at one place. -/
def IsTranscript (c : ChatTemplate) (conversation : List Message × List Message)
    (sample : TrainSample) : Prop :=
  ∃ e, encode c.tokenizer conversation.1 conversation.2 = .ok e ∧
    e.promptIds ++ e.responseIds = c.renderAll (conversation.1 ++ conversation.2) ∧
    e.lossMask = c.maskAll conversation.2 ∧
    ∃ kept, sample.tokens = e.promptIds ++ e.responseIds.take kept ∧
      sample.lossMask = some (e.lossMask.take kept)

/-- The samples are made, each from its conversation. -/
def AreTranscripts (c : ChatTemplate) (info : RunInfo) (args : GenerateArgs)
    (sample : TrainSample) : Prop :=
  ∃ built, info.samples c.tokenizer args sample = .ok built ∧
    ∀ i : Nat, ∀ conversation ∈ (info.conversations args)[i]?,
      ∃ b ∈ built[i]?, IsTranscript c conversation b

/-! The tokens and the mask of one conversation -/

/-- What the code makes of a conversation before the cut. -/
def encodedOf (c : ChatTemplate) (conversation : List Message × List Message) : Encoded :=
  ⟨c.renderAll conversation.1 ++ c.generationPrompt, c.renderAll conversation.2,
    conversation.2.flatMap c.builtMask⟩

theorem encode_eq (c : ChatTemplate) (conversation : List Message × List Message)
    (hne : conversation.2 ≠ [])
    (hroles : ∀ message ∈ conversation.2, message.role ≠ .system) :
    encode c.tokenizer conversation.1 conversation.2 = .ok (encodedOf c conversation) := by
  unfold encode
  rw [ChatTemplate.responseIdsAndLossMask_eq hne hroles]
  rfl

theorem exists_encode_error (c : ChatTemplate) (prompt : List Message) {response : List Message}
    (hsystem : ∃ message ∈ response, message.role = .system) :
    ∃ error, encode c.tokenizer prompt response = .error error := by
  obtain ⟨message, hmessage, hrole⟩ := hsystem
  unfold encode Tokenizer.responseIdsAndLossMask
  rw [if_neg (List.ne_nil_of_mem hmessage)]
  refine exists_bind_error (exists_foldlM_error (fun built => ?_) response ([], []) hmessage) _
  refine ⟨"Expected message role to be 'user' or 'assistant', got system", ?_⟩
  unfold Tokenizer.encodeMessage
  rw [hrole]
  rfl

theorem length_builtMask (message : Message) :
    (c.builtMask message).length = (c.render message).length := by
  have hle := c.overshoot_le
  unfold ChatTemplate.builtMask ChatTemplate.render
  cases message.role with
  | assistant =>
    simp only [List.length_append, List.length_replicate]
    omega
  | system | user => exact List.length_replicate ..

theorem length_lossMask (conversation : List Message × List Message) :
    (encodedOf c conversation).lossMask.length = (encodedOf c conversation).responseIds.length := by
  unfold encodedOf ChatTemplate.renderAll
  dsimp only
  rw [List.length_flatMap, List.length_flatMap]
  congr 1
  exact List.map_congr_left fun message _ => length_builtMask message

/-- With the generation prompt at the end of the prompt and at the start of the response it stands
there twice. -/
theorem tokens_eq_iff (conversation : List Message × List Message) :
    (encodedOf c conversation).promptIds ++ (encodedOf c conversation).responseIds =
        c.renderAll (conversation.1 ++ conversation.2) ↔ c.generationPrompt = [] := by
  unfold encodedOf
  dsimp only
  rw [ChatTemplate.renderAll_append, List.append_assoc, List.append_right_inj]
  exact List.append_left_eq_self

theorem builtMask_eq_iff {message : Message} (h : message.role = .assistant) :
    c.builtMask message = c.mask message ↔ c.overshoot = 0 := by
  unfold ChatTemplate.builtMask ChatTemplate.mask
  rw [h]
  dsimp only
  constructor
  · intro heq
    have hones := congrArg (List.count 1) heq
    simp only [List.count_append, List.count_replicate] at hones
    simpa using hones
  · intro hzero
    rw [hzero, Nat.add_zero, Nat.sub_zero]

theorem builtMask_eq_mask (h : c.overshoot = 0) (message : Message) :
    c.builtMask message = c.mask message := by
  by_cases hrole : message.role = .assistant
  · exact (builtMask_eq_iff hrole).mpr h
  · unfold ChatTemplate.builtMask ChatTemplate.mask
    cases hrole' : message.role with
    | assistant => exact absurd hrole' hrole
    | system | user => rfl

/-- The mask is that of the content and the EOS where no EOS stands behind it. -/
theorem mask_eq_iff {conversation : List Message × List Message}
    (hassistant : ∃ message ∈ conversation.2, message.role = .assistant) :
    (encodedOf c conversation).lossMask = c.maskAll conversation.2 ↔
      c.eosTokenId ∉ c.trailer := by
  unfold encodedOf ChatTemplate.maskAll
  dsimp only
  rw [flatMap_eq_flatMap_iff fun message _ =>
    (length_builtMask message).trans (ChatTemplate.length_mask message).symm,
    ← ChatTemplate.overshoot_eq_zero_iff]
  constructor
  · intro h
    obtain ⟨message, hmessage, hrole⟩ := hassistant
    exact (builtMask_eq_iff hrole).mp (h message hmessage)
  · exact fun hzero message _ => builtMask_eq_mask hzero message

/-- A cut takes as much of the response as of the mask. -/
theorem exists_cut {e : Encoded} (h : e.lossMask.length = e.responseIds.length)
    (limit : Option Int) : (e.cut limit).promptIds = e.promptIds ∧
      ∃ kept, (e.cut limit).responseIds = e.responseIds.take kept ∧
        (e.cut limit).lossMask = e.lossMask.take kept := by
  have hwhole : e.responseIds = e.responseIds.take e.responseIds.length ∧
      e.lossMask = e.lossMask.take e.responseIds.length :=
    ⟨List.take_length.symm, by rw [← h, List.take_length]⟩
  unfold Encoded.cut
  cases limit with
  | none => exact ⟨rfl, _, hwhole⟩
  | some maxResponseTokens =>
    dsimp only
    split_ifs with hover
    · refine ⟨rfl, _, rfl, ?_⟩
      unfold sliceTo
      rw [h]
    · exact ⟨rfl, _, hwhole⟩

/-- The sample has the tokens of the conversation, cut or not. -/
def IsBuilt (c : ChatTemplate) (conversation : List Message × List Message) (sample : TrainSample) :
    Prop :=
  ∃ limit, sample.tokens = ((encodedOf c conversation).cut limit).promptIds ++
      ((encodedOf c conversation).cut limit).responseIds ∧
    sample.lossMask = some ((encodedOf c conversation).cut limit).lossMask

theorem isTranscript_iff {conversation : List Message × List Message} (hne : conversation.2 ≠ [])
    (hroles : ∀ message ∈ conversation.2, message.role ≠ .system)
    (hassistant : ∃ message ∈ conversation.2, message.role = .assistant)
    (hbuilt : IsBuilt c conversation sample) :
    IsTranscript c conversation sample ↔
      c.generationPrompt = [] ∧ c.eosTokenId ∉ c.trailer := by
  rw [← tokens_eq_iff conversation, ← mask_eq_iff hassistant]
  constructor
  · rintro ⟨e, he, htokens, hmask, -⟩
    rw [encode_eq c _ hne hroles] at he
    cases he
    exact ⟨htokens, hmask⟩
  · rintro ⟨htokens, hmask⟩
    obtain ⟨limit, hcut, hcutMask⟩ := hbuilt
    obtain ⟨hprompt, kept, hresponse, hkept⟩ := exists_cut (length_lossMask conversation) limit
    refine ⟨_, encode_eq c _ hne hroles, htokens, hmask, kept, ?_, ?_⟩
    · rw [hcut, hprompt, hresponse]
    · rw [hcutMask, hkept]

/-! The samples of a run -/

/-- What is left of the messages ends with the assistant. -/
theorem exists_assistant {conversation : List Message × List Message}
    (h : conversation ∈ info.conversations args)
    (hroles : ∀ message ∈ conversation.2, message.role ≠ .system) :
    conversation.2 ≠ [] ∧ ∃ message ∈ conversation.2, message.role = .assistant := by
  unfold RunInfo.conversations at h
  split_ifs at h with hmessages hdynamic hnone
  · exact absurd h List.not_mem_nil
  · obtain ⟨step, -, rfl⟩ := List.mem_map.mp h
    exact ⟨List.cons_ne_nil _ _, _, List.mem_singleton_self _, rfl⟩
  · exact absurd h List.not_mem_nil
  · rw [List.mem_singleton] at h
    subst h
    refine ⟨hnone, info.responseMessages.getLast hnone, List.getLast_mem hnone, ?_⟩
    have hlast := List.rdropWhile_last_not _ _ hnone
    rw [decide_eq_true_iff] at hlast
    have hsystem := hroles _ (List.getLast_mem hnone)
    cases hrole : (info.responseMessages.getLast hnone).role with
    | assistant => rfl
    | user => exact absurd hrole hlast
    | system => exact absurd hrole hsystem

/-- The sample of a step. -/
def stepSample (c : ChatTemplate) (info : RunInfo) (args : GenerateArgs) (sample : TrainSample)
    (step : (List Message × String) × Nat) : TrainSample :=
  let e := encodedOf c (step.1.1, [⟨.assistant, step.1.2⟩])
  info.childOf args sample (info.managedContexts.zip info.assistantTexts).length step.2 step.1.2
    (e.cut (RunInfo.dynamicLimit args e.promptIds))

theorem dynamicSamples_eq : info.dynamicSamples c.tokenizer args sample =
    .ok ((info.managedContexts.zip info.assistantTexts).zipIdx.map
      (stepSample c info args sample)) := by
  refine mapM_eq_ok fun step _ => ?_
  have hencode := encode_eq c (step.1.1, [⟨.assistant, step.1.2⟩])
    (List.cons_ne_nil _ _) fun message hmessage => by
      rw [List.mem_singleton.mp hmessage]
      exact Role.noConfusion
  unfold RunInfo.dynamicSample
  rw [hencode]
  rfl

/-- The sample of the whole run. -/
theorem defaultSample_eq (hne : info.responseMessages ≠ [])
    (hroles : ∀ message ∈ info.responseMessages, message.role ≠ .system) :
    info.defaultSample c.tokenizer args sample =
      .ok (let e := encodedOf c (info.messages.take 2, info.responseMessages)
        let limit := some (RunInfo.defaultLimit args e.promptIds)
        info.sampleOf args sample info.responseMessages (e.cut limit) (e.isOver limit)) := by
  have hencode := encode_eq c (info.messages.take 2, info.responseMessages) hne hroles
  unfold RunInfo.defaultSample
  rw [if_neg hne, hencode]
  rfl

theorem exists_samples (c : ChatTemplate) (sample : TrainSample)
    (hroles : ∀ conversation ∈ info.conversations args, ∀ message ∈ conversation.2,
      message.role ≠ .system) :
    ∃ built, info.samples c.tokenizer args sample = .ok built ∧
      ∀ i : Nat, ∀ conversation ∈ (info.conversations args)[i]?,
        ∃ b ∈ built[i]?, IsBuilt c conversation b := by
  unfold RunInfo.samples
  unfold RunInfo.conversations at hroles ⊢
  by_cases hmessages : info.messages = []
  · rw [if_pos hmessages]
    rw [if_pos hmessages]
    exact ⟨_, rfl, fun i conversation h => by cases h⟩
  rw [if_neg hmessages] at hroles ⊢
  rw [if_neg hmessages]
  by_cases hdynamic : info.useDynamicHistory args = true
  · rw [if_pos hdynamic]
    rw [if_pos hdynamic, dynamicSamples_eq]
    refine ⟨_, rfl, fun i conversation h => ?_⟩
    rw [List.getElem?_map] at h
    obtain ⟨step, hstep, rfl⟩ := Option.map_eq_some_iff.mp h
    refine ⟨stepSample c info args sample (step, 0 + i), ?_, _, rfl, rfl⟩
    rw [List.getElem?_map, List.getElem?_zipIdx, hstep]
    rfl
  rw [if_neg hdynamic] at hroles ⊢
  rw [if_neg hdynamic]
  by_cases hnone : info.responseMessages = []
  · rw [if_pos hnone]
    unfold RunInfo.defaultSample
    rw [if_pos hnone]
    exact ⟨_, rfl, fun i conversation h => by cases h⟩
  · rw [if_neg hnone] at hroles ⊢
    rw [defaultSample_eq hnone (hroles _ (List.mem_singleton_self _))]
    refine ⟨_, rfl, fun i conversation h => ?_⟩
    obtain ⟨rfl, rfl⟩ : i = 0 ∧ (info.messages.take 2, info.responseMessages) = conversation := by
      cases i with
      | zero => exact ⟨rfl, Option.some.inj h⟩
      | succ i => cases h
    exact ⟨_, rfl, _, rfl, rfl⟩

/-- A message of the system that is not in the prompt is refused. -/
theorem exists_samples_error (c : ChatTemplate) (sample : TrainSample)
    {conversation : List Message × List Message}
    (h : conversation ∈ info.conversations args)
    (hsystem : ∃ message ∈ conversation.2, message.role = .system) :
    ∃ error, info.samples c.tokenizer args sample = .error error := by
  unfold RunInfo.conversations at h
  unfold RunInfo.samples
  by_cases hmessages : info.messages = []
  · rw [if_pos hmessages] at h
    exact absurd h List.not_mem_nil
  rw [if_neg hmessages] at h ⊢
  by_cases hdynamic : info.useDynamicHistory args = true
  · rw [if_pos hdynamic] at h
    obtain ⟨step, -, rfl⟩ := List.mem_map.mp h
    obtain ⟨message, hmessage, hrole⟩ := hsystem
    rw [List.mem_singleton.mp hmessage] at hrole
    cases hrole
  rw [if_neg hdynamic] at h ⊢
  by_cases hnone : info.responseMessages = []
  · rw [if_pos hnone] at h
    exact absurd h List.not_mem_nil
  · rw [if_neg hnone, List.mem_singleton] at h
    subst h
    obtain ⟨error, herror⟩ := exists_encode_error c (info.messages.take 2) hsystem
    refine ⟨error, ?_⟩
    unfold RunInfo.defaultSample
    rw [if_neg hnone, herror]
    rfl

/-- The samples are the transcripts exactly where nothing stands before an assistant message and
no EOS behind its own, or no sample is made. -/
theorem areTranscripts_iff :
    AreTranscripts c info args sample ↔ info.conversations args = [] ∨
      c.generationPrompt = [] ∧ c.eosTokenId ∉ c.trailer ∧
        ∀ conversation ∈ info.conversations args, ∀ message ∈ conversation.2,
          message.role ≠ .system := by
  by_cases hroles : ∀ conversation ∈ info.conversations args, ∀ message ∈ conversation.2,
      message.role ≠ .system
  · obtain ⟨built, hbuilt, hsamples⟩ := exists_samples c sample hroles
    have hiff : ∀ i : Nat, ∀ conversation ∈ (info.conversations args)[i]?, ∀ b,
        IsBuilt c conversation b → (IsTranscript c conversation b ↔
          c.generationPrompt = [] ∧ c.eosTokenId ∉ c.trailer) := by
      intro i conversation hi b hb
      have hmem := List.mem_of_getElem? hi
      obtain ⟨hne, hassistant⟩ := exists_assistant hmem (hroles conversation hmem)
      exact isTranscript_iff hne (hroles conversation hmem) hassistant hb
    constructor
    · rintro ⟨built', hbuilt', htranscripts⟩
      rw [hbuilt] at hbuilt'
      cases hbuilt'
      rcases hconversations : info.conversations args with _ | ⟨conversation, rest⟩
      · exact .inl rfl
      · have hfirst : conversation ∈ (info.conversations args)[0]? := by
          rw [hconversations]
          rfl
        obtain ⟨b, hb, htranscript⟩ := htranscripts 0 conversation hfirst
        obtain ⟨b', hb', hof⟩ := hsamples 0 conversation hfirst
        rw [Option.mem_def.mp hb] at hb'
        cases hb'
        obtain ⟨hprompt, heos⟩ := (hiff 0 conversation hfirst b hof).mp htranscript
        rw [hconversations] at hroles
        exact .inr ⟨hprompt, heos, hroles⟩
    · intro h
      refine ⟨built, hbuilt, fun i conversation hi => ?_⟩
      obtain ⟨b, hb, hof⟩ := hsamples i conversation hi
      rcases h with hnone | ⟨hprompt, heos, -⟩
      · rw [hnone] at hi
        cases hi
      · exact ⟨b, hb, (hiff i conversation hi b hof).mpr ⟨hprompt, heos⟩⟩
  · constructor
    · rintro ⟨built, hbuilt, -⟩
      push Not at hroles
      obtain ⟨conversation, hconversation, message, hmessage, hrole⟩ := hroles
      obtain ⟨error, herror⟩ := exists_samples_error c sample hconversation
        ⟨message, hmessage, hrole⟩
      rw [herror] at hbuilt
      cases hbuilt
    · rintro (hnone | ⟨-, -, h⟩)
      · refine absurd (fun conversation hconversation => ?_) hroles
        rw [hnone] at hconversation
        exact absurd hconversation List.not_mem_nil
      · exact absurd h hroles

/-- A header of two tokens before each message, and a line break behind its EOS. -/
def headerTemplate : ChatTemplate where
  generationPrompt := [1, 2]
  content text := text.toList.map Char.toNat
  eosTokenId := 3
  trailer := [10]
  renderOther message := [1, 5] ++ message.content.toList.map Char.toNat ++ [3, 10]

/-- A run of one turn. -/
def oneTurn : RunInfo where
  messages := [⟨.system, "a"⟩, ⟨.user, "b"⟩, ⟨.assistant, "c"⟩]
  reward := 1
  managedContexts := [[⟨.system, "a"⟩, ⟨.user, "b"⟩]]
  assistantTexts := ["c"]
  prmStepScores := []
  prmStepDetails := []

def defaultArgs : GenerateArgs := ⟨false, false, some 100, 100⟩

def pendingSample : TrainSample := ⟨[], "", 0, none, .pending, none, false, none, none, none⟩

/-- The tokens of the sample have the generation prompt of the assistant's message twice. -/
theorem not_areTranscripts_oneTurn :
    ¬AreTranscripts headerTemplate oneTurn defaultArgs pendingSample := by
  rintro ⟨built, -, h⟩
  obtain ⟨b, -, e, he, htokens, -⟩ := h 0 (oneTurn.messages.take 2, [⟨.assistant, "c"⟩]) rfl
  cases he
  revert htokens
  decide

end Belayer.Agent
