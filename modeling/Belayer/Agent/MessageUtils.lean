import Belayer.Agent.RunAgentRemote

namespace Belayer.Agent

/-- What is used of a tokenizer: the token ids of a conversation, with the generation prompt or
without. -/
structure Tokenizer where
  applyChatTemplate : List Message → Bool → List Nat
  eosTokenId : Nat

namespace Tokenizer

variable (t : Tokenizer)

/-- `get_generation_prompt_ids`. -/
def generationPromptIds : List Nat :=
  let emptyUser := t.applyChatTemplate [⟨.user, ""⟩] false
  let emptyUserWithGenerationPrompt := t.applyChatTemplate [⟨.user, ""⟩] true
  emptyUserWithGenerationPrompt.drop emptyUser.length

def baseConversation : List Message :=
  [⟨.system, "You are a helpful assistant."⟩, ⟨.user, "I am a user."⟩]

/-- `encode_messages_subset`. -/
def encodeMessagesSubset (messages : List Message) : List Nat :=
  let baseConversationTokenIds := t.applyChatTemplate baseConversation false
  let fullConversationTokenIds := t.applyChatTemplate (baseConversation ++ messages) false
  fullConversationTokenIds.drop baseConversationTokenIds.length

/-- What the model has generated of an assistant message, and what the template puts behind. -/
def splitAtEos (curTokenIds : List Nat) : List Nat × List Nat :=
  let g := t.generationPromptIds.length
  if t.eosTokenId ∈ curTokenIds then
    let lastEosTokenIndex := curTokenIds.length - 1 - curTokenIds.reverse.idxOf t.eosTokenId
    ((curTokenIds.take (lastEosTokenIndex + 1)).drop g, curTokenIds.drop (lastEosTokenIndex + 1))
  else (curTokenIds.drop g, [])

/-- The tokens of one message, and their loss mask. -/
def encodeMessage (message : Message) : Except String (List Nat × List Nat) :=
  let curTokenIds := t.encodeMessagesSubset [message]
  match message.role with
  | .user => .ok (curTokenIds, List.replicate curTokenIds.length 0)
  | .assistant =>
    let generationPromptIds := t.generationPromptIds
    let start := curTokenIds.take generationPromptIds.length
    if start = generationPromptIds then
      let (generatedTokenIds, tokensAfterEos) := t.splitAtEos curTokenIds
      if generationPromptIds.length + generatedTokenIds.length + tokensAfterEos.length =
          curTokenIds.length then
        .ok (curTokenIds, List.replicate generationPromptIds.length 0 ++
          List.replicate generatedTokenIds.length 1 ++ List.replicate tokensAfterEos.length 0)
      else
        .error ("The sum of the lengths of the generation prompt IDs, the generated tokens, and " ++
          "the tokens after the EOS token should equal the length of the current token IDs")
    else
      .error ("Assistant message tokens should start with generation prompt. Expected " ++
        toString generationPromptIds ++ ", got " ++ toString start)
  | .system => .error "Expected message role to be 'user' or 'assistant', got system"

/-- `get_response_ids_and_loss_mask_from_messages`, without log probabilities. -/
def responseIdsAndLossMask (messages : List Message) : Except String (List Nat × List Nat) :=
  if messages = [] then .error "messages list cannot be empty"
  else messages.foldlM (fun built message => do
    let (curTokenIds, mask) ← t.encodeMessage message
    return (built.1 ++ curTokenIds, built.2 ++ mask)) ([], [])

end Tokenizer

/-! The templates that put the messages one behind the other -/

/-- A chat template by its parts: an assistant message is the generation prompt, the content with
its EOS, and the trailer. -/
structure ChatTemplate where
  generationPrompt : List Nat
  content : String → List Nat
  eosTokenId : Nat
  trailer : List Nat
  renderOther : Message → List Nat

namespace ChatTemplate

variable (c : ChatTemplate)

/-- The tokens of a message. -/
def render (message : Message) : List Nat :=
  match message.role with
  | .assistant =>
    c.generationPrompt ++ (c.content message.content ++ [c.eosTokenId]) ++ c.trailer
  | .system | .user => c.renderOther message

/-- The tokens of a conversation. -/
def renderAll (messages : List Message) : List Nat := messages.flatMap c.render

def tokenizer : Tokenizer where
  applyChatTemplate messages addGenerationPrompt :=
    c.renderAll messages ++ if addGenerationPrompt then c.generationPrompt else []
  eosTokenId := c.eosTokenId

/-- 1 on the content and the EOS of an assistant message. -/
def mask (message : Message) : List Nat :=
  match message.role with
  | .assistant =>
    List.replicate c.generationPrompt.length 0 ++
      List.replicate (c.content message.content ++ [c.eosTokenId]).length 1 ++
        List.replicate c.trailer.length 0
  | .system | .user => List.replicate (c.renderOther message).length 0

def maskAll (messages : List Message) : List Nat := messages.flatMap c.mask

variable {c}

theorem renderAll_append (messages more : List Message) :
    c.renderAll (messages ++ more) = c.renderAll messages ++ c.renderAll more :=
  List.flatMap_append

theorem length_mask (message : Message) : (c.mask message).length = (c.render message).length := by
  unfold mask render
  cases message.role <;> simp only [List.length_append, List.length_replicate]

theorem generationPromptIds_eq : c.tokenizer.generationPromptIds = c.generationPrompt := by
  unfold Tokenizer.generationPromptIds tokenizer
  dsimp only
  rw [if_neg Bool.false_ne_true, if_pos rfl, List.append_nil]
  exact List.drop_left

theorem encodeMessagesSubset_eq (messages : List Message) :
    c.tokenizer.encodeMessagesSubset messages = c.renderAll messages := by
  unfold Tokenizer.encodeMessagesSubset tokenizer
  dsimp only
  rw [if_neg Bool.false_ne_true, List.append_nil, List.append_nil, renderAll_append]
  exact List.drop_left

/-- How many tokens behind the content are counted as generated: those up to an EOS. -/
def overshoot (c : ChatTemplate) : Nat :=
  c.trailer.length - c.trailer.reverse.idxOf c.eosTokenId

theorem overshoot_eq_zero_iff : c.overshoot = 0 ↔ c.eosTokenId ∉ c.trailer := by
  unfold overshoot
  rw [Nat.sub_eq_zero_iff_le]
  constructor
  · intro h hmem
    have hlt := List.idxOf_lt_length_of_mem (List.mem_reverse.mpr hmem)
    rw [List.length_reverse] at hlt
    omega
  · intro h
    rw [List.idxOf_eq_length (fun hmem => h (List.mem_reverse.mp hmem)), List.length_reverse]

/-- The last EOS of an assistant message is that of its content, or one in the trailer. -/
theorem splitAtEos_eq (text : String) :
    c.tokenizer.splitAtEos (c.render ⟨.assistant, text⟩) =
      (c.content text ++ [c.eosTokenId] ++ c.trailer.take c.overshoot,
        c.trailer.drop c.overshoot) := by
  have hsplit : c.render ⟨.assistant, text⟩ =
      (c.generationPrompt ++ c.content text) ++ c.eosTokenId :: c.trailer := by
    unfold render
    simp
  have hindex : (c.render ⟨.assistant, text⟩).reverse.idxOf c.eosTokenId =
      c.trailer.reverse.idxOf c.eosTokenId := by
    rw [hsplit, List.reverse_append, List.reverse_cons, List.append_assoc, List.idxOf_append]
    split_ifs with hmem
    · rfl
    · rw [List.idxOf_eq_length hmem]
      simp
  have hle : c.trailer.reverse.idxOf c.eosTokenId ≤ c.trailer.length := by
    rw [← List.length_reverse]
    exact List.idxOf_le_length
  have hlength : (c.render ⟨.assistant, text⟩).length - 1 -
      c.trailer.reverse.idxOf c.eosTokenId + 1 =
        (c.generationPrompt ++ (c.content text ++ [c.eosTokenId])).length + c.overshoot := by
    unfold overshoot
    rw [hsplit]
    simp only [List.length_append, List.length_cons, List.length_nil]
    omega
  have hmem : c.tokenizer.eosTokenId ∈ c.render ⟨.assistant, text⟩ := by
    rw [hsplit]
    exact List.mem_append_right _ (List.mem_cons_self ..)
  unfold Tokenizer.splitAtEos
  dsimp only
  rw [if_pos hmem, generationPromptIds_eq]
  change (((c.render ⟨.assistant, text⟩).take ((c.render ⟨.assistant, text⟩).length - 1 -
      (c.render ⟨.assistant, text⟩).reverse.idxOf c.eosTokenId + 1)).drop _,
    (c.render ⟨.assistant, text⟩).drop ((c.render ⟨.assistant, text⟩).length - 1 -
      (c.render ⟨.assistant, text⟩).reverse.idxOf c.eosTokenId + 1)) = _
  rw [hindex, hlength]
  have hrender : c.render ⟨.assistant, text⟩ =
      (c.generationPrompt ++ (c.content text ++ [c.eosTokenId])) ++ c.trailer := rfl
  rw [hrender, List.take_length_add_append, List.drop_length_add_append, List.append_assoc,
    List.drop_left]

/-- The loss mask that the code makes: 1 also on what it takes of the trailer. -/
def builtMask (c : ChatTemplate) (message : Message) : List Nat :=
  match message.role with
  | .assistant =>
    List.replicate c.generationPrompt.length 0 ++
      List.replicate ((c.content message.content ++ [c.eosTokenId]).length + c.overshoot) 1 ++
        List.replicate (c.trailer.length - c.overshoot) 0
  | .system | .user => List.replicate (c.renderOther message).length 0

theorem overshoot_le (c : ChatTemplate) : c.overshoot ≤ c.trailer.length := Nat.sub_le ..

theorem encodeMessage_eq {message : Message} (h : message.role ≠ .system) :
    c.tokenizer.encodeMessage message = .ok (c.render message, c.builtMask message) := by
  have hids : c.tokenizer.encodeMessagesSubset [message] = c.render message := by
    rw [encodeMessagesSubset_eq]
    exact List.append_nil _
  obtain ⟨role, text⟩ := message
  unfold Tokenizer.encodeMessage
  dsimp only
  rw [hids]
  cases role with
  | system => exact absurd rfl h
  | user => rfl
  | assistant =>
    have hstart : (c.render ⟨.assistant, text⟩).take c.generationPrompt.length =
        c.generationPrompt := by
      unfold render
      rw [List.append_assoc]
      exact List.take_left
    have hle := c.overshoot_le
    have htake : (c.trailer.take c.overshoot).length = c.overshoot := List.length_take_of_le hle
    dsimp only
    rw [generationPromptIds_eq, if_pos hstart, splitAtEos_eq]
    dsimp only
    have hsum : c.generationPrompt.length +
        (c.content text ++ [c.eosTokenId] ++ c.trailer.take c.overshoot).length +
          (c.trailer.drop c.overshoot).length = (c.render ⟨.assistant, text⟩).length := by
      unfold render
      simp only [List.length_append, List.length_drop, htake]
      omega
    rw [if_pos hsum]
    unfold builtMask
    simp only [List.length_append, List.length_drop, htake]

/-- The tokens of a response are those of its messages. -/
theorem responseIdsAndLossMask_eq {messages : List Message} (hne : messages ≠ [])
    (hroles : ∀ message ∈ messages, message.role ≠ .system) :
    c.tokenizer.responseIdsAndLossMask messages =
      .ok (c.renderAll messages, messages.flatMap c.builtMask) := by
  have hfold : ∀ (l : List Message) (ids mask : List Nat), (∀ message ∈ l, message.role ≠ .system) →
      l.foldlM (fun built message => do
        let (curTokenIds, mask) ← c.tokenizer.encodeMessage message
        return (built.1 ++ curTokenIds, built.2 ++ mask)) (ids, mask) =
      (.ok (ids ++ c.renderAll l, mask ++ l.flatMap c.builtMask) : Except String _) := by
    intro l
    induction l with
    | nil =>
      intro ids mask _
      rw [renderAll, List.flatMap_nil, List.flatMap_nil, List.append_nil, List.append_nil]
      rfl
    | cons message l ih =>
      intro ids mask hl
      obtain ⟨hmessage, hrest⟩ := List.forall_mem_cons.mp hl
      rw [List.foldlM_cons, encodeMessage_eq hmessage]
      refine (ih _ _ hrest).trans ?_
      have hids : c.renderAll (message :: l) = c.render message ++ c.renderAll l :=
        List.flatMap_cons
      rw [hids, List.flatMap_cons, List.append_assoc, List.append_assoc]
  unfold Tokenizer.responseIdsAndLossMask
  rw [if_neg hne]
  exact hfold messages [] [] hroles

end ChatTemplate

end Belayer.Agent
