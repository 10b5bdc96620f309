import Belayer.Agent.Samples

namespace Belayer.Agent

variable {c : ChatTemplate}

/-! Runs of zeros and of ones -/

theorem spansFrom_zeros (i z : Nat) (l : List Nat) :
    spansFrom i none (List.replicate z 0 ++ l) = spansFrom (i + z) none l := by
  induction z generalizing i with
  | zero => rfl
  | succ z ih =>
    rw [List.replicate_succ, List.cons_append, spansFrom, if_neg (by decide), ih]
    congr 1
    omega

theorem spansFrom_ones (i start n : Nat) (l : List Nat) :
    spansFrom i (some start) (List.replicate n 1 ++ l) = spansFrom (i + n) (some start) l := by
  induction n generalizing i with
  | zero => rfl
  | succ n ih =>
    rw [List.replicate_succ, List.cons_append, spansFrom, if_neg (by decide), ih]
    congr 1
    omega

/-- A span ends where no one follows. -/
theorem spansFrom_close (i start : Nat) {l : List Nat} (h : ∀ m ∈ l.head?, m = 0) :
    spansFrom i (some start) l = (start, i) :: spansFrom i none l := by
  cases l with
  | nil => rfl
  | cons m l =>
    obtain rfl : m = 0 := h m rfl
    have hzero : spansFrom i none (0 :: l) = spansFrom (i + 1) none l := spansFrom_zeros i 1 l
    rw [hzero]
    rfl

/-- The span of a run of ones. -/
theorem spansFrom_run (i : Nat) {n : Nat} (hn : 0 < n) {l : List Nat} (h : ∀ m ∈ l.head?, m = 0) :
    spansFrom i none (List.replicate n 1 ++ l) = (i, i + n) :: spansFrom (i + n) none l := by
  obtain ⟨n, rfl⟩ : ∃ k, n = k + 1 := ⟨n - 1, by omega⟩
  rw [List.replicate_succ, List.cons_append, spansFrom, if_pos rfl, spansFrom_ones,
    spansFrom_close _ _ h, Nat.add_assoc, Nat.add_comm 1 n]

/-! Whose the tokens are -/

/-- For each token of a response the number of the assistant message that it was generated in,
counted from `k`. -/
def owners (c : ChatTemplate) : Nat → List Message → List (Option Nat)
  | _, [] => []
  | k, message :: rest =>
    match message.role with
    | .assistant =>
      List.replicate c.generationPrompt.length none ++
        (List.replicate (c.content message.content ++ [c.eosTokenId]).length (some k) ++
          (List.replicate c.trailer.length none ++ owners c (k + 1) rest))
    | .system | .user => List.replicate (c.renderOther message).length none ++ owners c k rest

/-- All tokens of the span have been generated in this message. -/
def Covers (owned : List (Option Nat)) (span : Nat × Nat) (k : Nat) : Prop :=
  span.1 < span.2 ∧ ∀ x, span.1 ≤ x → x < span.2 → owned[x]? = some (some k)

/-- The spans from a position on cover the messages one by one. -/
def CoversFrom (owned : List (Option Nat)) (i k : Nat) (spans : List (Nat × Nat)) : Prop :=
  ∀ j span, spans[j]? = some span → i ≤ span.1 ∧ span.1 < span.2 ∧
    ∀ x, span.1 ≤ x → x < span.2 → owned[x - i]? = some (some (k + j))

theorem coversFrom_nil (owned : List (Option Nat)) (i k : Nat) : CoversFrom owned i k [] :=
  fun _ _ h => by cases h

theorem CoversFrom.skip {owned : List (Option Nat)} {i k z : Nat} {spans : List (Nat × Nat)}
    (h : CoversFrom owned (i + z) k spans) :
    CoversFrom (List.replicate z none ++ owned) i k spans := by
  intro j span hspan
  obtain ⟨hle, hlt, hall⟩ := h j span hspan
  refine ⟨by omega, hlt, fun x hx hx' => ?_⟩
  rw [List.getElem?_append_right (by rw [List.length_replicate]; omega), List.length_replicate,
    Nat.sub_sub]
  exact hall x hx hx'

/-- A message's own span and those of the messages behind it. -/
theorem CoversFrom.run {owned : List (Option Nat)} {i k n kept : Nat} {spans : List (Nat × Nat)}
    (hpos : 0 < kept) (hkept : kept ≤ n) (h : CoversFrom owned (i + n) (k + 1) spans) :
    CoversFrom (List.replicate n (some k) ++ owned) i k ((i, i + kept) :: spans) := by
  intro j span hspan
  cases j with
  | zero =>
    obtain rfl : (i, i + kept) = span := Option.some.inj hspan
    refine ⟨Nat.le_refl i, Nat.lt_add_of_pos_right hpos, fun x hx hx' => ?_⟩
    dsimp only at hx hx'
    rw [List.getElem?_append_left (by rw [List.length_replicate]; omega),
      List.getElem?_replicate_of_lt (by omega)]
    rfl
  | succ j =>
    rw [List.getElem?_cons_succ] at hspan
    obtain ⟨hle, hlt, hall⟩ := h j span hspan
    refine ⟨by omega, hlt, fun x hx hx' => ?_⟩
    rw [List.getElem?_append_right (by rw [List.length_replicate]; omega), List.length_replicate,
      Nat.sub_sub, hall x hx hx', Nat.add_assoc, Nat.add_comm 1 j]

/-! The spans of a loss mask -/

theorem take_replicate_append {α : Type*} (a : α) (n kept : Nat) (l : List α) :
    (List.replicate n a ++ l).take kept =
      List.replicate (min kept n) a ++ l.take (kept - n) := by
  rw [List.take_append, List.take_replicate, List.length_replicate]

/-- No mask starts with a one. -/
theorem head?_maskAll (hprompt : c.generationPrompt ≠ []) (messages : List Message) :
    ∀ m ∈ (c.maskAll messages).head?, m = 0 := by
  have hzeros : ∀ (n : Nat) (l : List Nat), (∀ m ∈ l.head?, m = 0) →
      ∀ m ∈ (List.replicate n 0 ++ l).head?, m = 0 := by
    intro n l hl m hm
    cases n with
    | zero => exact hl m hm
    | succ n => exact (Option.some.inj hm).symm
  induction messages with
  | nil => exact fun m hm => by cases hm
  | cons message rest ih =>
    have hcons : c.maskAll (message :: rest) = c.mask message ++ c.maskAll rest := List.flatMap_cons
    rw [hcons]
    unfold ChatTemplate.mask
    cases message.role with
    | assistant =>
      obtain ⟨first, more, hfirst⟩ := List.exists_cons_of_ne_nil hprompt
      rw [hfirst]
      exact fun m hm => (Option.some.inj hm).symm
    | system | user => exact hzeros _ _ ih

theorem head?_take {l : List Nat} (h : ∀ m ∈ l.head?, m = 0) (kept : Nat) :
    ∀ m ∈ (l.take kept).head?, m = 0 := by
  intro m hm
  cases kept with
  | zero => cases hm
  | succ kept =>
    rw [List.head?_take, if_neg (Nat.succ_ne_zero kept)] at hm
    exact h m hm

/-- However the mask is cut, its spans are those of the assistant messages one by one. -/
theorem coversFrom_take (hprompt : c.generationPrompt ≠ []) (messages : List Message)
    (kept i k : Nat) : CoversFrom (owners c k messages) i k
      (spansFrom i none ((c.maskAll messages).take kept)) := by
  induction messages generalizing kept i k with
  | nil =>
    have hnil : (c.maskAll []).take kept = [] := List.take_nil
    rw [hnil]
    exact coversFrom_nil _ _ _
  | cons message rest ih =>
    have hcons : c.maskAll (message :: rest) = c.mask message ++ c.maskAll rest := List.flatMap_cons
    rw [hcons]
    have hzeros : ∀ (n kept i k : Nat) (l : List Nat) (owned : List (Option Nat)),
        (∀ kept i, CoversFrom owned i k (spansFrom i none (l.take kept))) →
          CoversFrom (List.replicate n none ++ owned) i k
            (spansFrom i none ((List.replicate n 0 ++ l).take kept)) := by
      intro n kept i k l owned h
      rw [take_replicate_append, spansFrom_zeros]
      rcases Nat.le_total kept n with hle | hle
      · rw [Nat.sub_eq_zero_of_le hle]
        exact coversFrom_nil _ _ _
      · rw [min_eq_right hle]
        exact (h _ _).skip
    unfold ChatTemplate.mask
    rw [owners]
    cases message.role with
    | system | user => exact hzeros _ _ _ _ _ _ fun kept i => ih kept i k
    | assistant =>
      dsimp only
      rw [List.append_assoc, List.append_assoc]
      refine hzeros _ _ _ _ _ _ fun kept i => ?_
      -- the message's own tokens, and then the trailer and the rest
      have hrest : ∀ kept i, CoversFrom (List.replicate c.trailer.length none ++
          owners c (k + 1) rest) i (k + 1) (spansFrom i none
            ((List.replicate c.trailer.length 0 ++ c.maskAll rest).take kept)) :=
        fun kept i => hzeros _ _ _ _ _ _ fun kept i => ih kept i (k + 1)
      have hhead : ∀ m ∈ (List.replicate c.trailer.length 0 ++ c.maskAll rest).head?, m = 0 := by
        intro m hm
        cases htrailer : c.trailer.length with
        | zero =>
          rw [htrailer] at hm
          exact head?_maskAll hprompt rest m hm
        | succ n =>
          rw [htrailer] at hm
          exact (Option.some.inj hm).symm
      have hpos : 0 < (c.content message.content ++ [c.eosTokenId]).length := by
        rw [List.length_append, List.length_singleton]
        exact Nat.succ_pos _
      rw [take_replicate_append]
      rcases Nat.eq_zero_or_pos kept with rfl | hkept
      · rw [Nat.zero_min, Nat.zero_sub]
        exact coversFrom_nil _ _ _
      · rw [spansFrom_run i (lt_min hkept hpos) (head?_take hhead _)]
        rcases Nat.le_total kept (c.content message.content ++ [c.eosTokenId]).length with hle | hle
        · rw [Nat.sub_eq_zero_of_le hle, min_eq_left hle]
          exact CoversFrom.run hkept hle (coversFrom_nil _ _ _)
        · rw [min_eq_right hle]
          exact CoversFrom.run hpos (Nat.le_refl _) (hrest _ _)

/-- The span at a place covers the assistant message of this number. -/
theorem covers_span (hprompt : c.generationPrompt ≠ []) {messages : List Message} {kept j : Nat}
    {span : Nat × Nat}
    (h : (extractAssistantTurnSpans ((c.maskAll messages).take kept))[j]? = some span) :
    Covers (owners c 0 messages) span j := by
  obtain ⟨-, hlt, hall⟩ := coversFrom_take hprompt messages kept 0 0 j span h
  refine ⟨hlt, fun x hx hx' => ?_⟩
  have hx := hall x hx hx'
  rwa [Nat.sub_zero, Nat.zero_add] at hx

end Belayer.Agent
