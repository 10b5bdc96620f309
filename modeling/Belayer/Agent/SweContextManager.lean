import Belayer.Agent.RunAgentRemote
import Mathlib.Algebra.Order.BigOperators.Group.List
import Mathlib.Algebra.Order.Floor.Ring
import Mathlib.Data.Rat.Floor
import Mathlib.Tactic.Linarith

namespace Belayer.Agent

/-- The marker in place of the turns that are left out. -/
def omitMessage (n : Nat) : Message :=
  ⟨.user, "[... " ++ toString n ++
    " turn(s) of interaction history omitted due to context window limit ...]"⟩

/-- `_count_tokens_for_turn`; `countTokens` is the tokenizer behind its chat template. -/
def countTokensForTurn (countTokens : List Message → Nat) (turn : List Message) : Nat :=
  let wrapper : List Message := [⟨.system, "S"⟩, ⟨.user, "U"⟩]
  countTokens (wrapper ++ turn) - countTokens wrapper

/-- `_split_into_turn_pairs` of the messages behind the first two. -/
def splitIntoTurnPairs : List Message → List (List Message)
  | [] => []
  | [message] => [[message]]
  | message :: next :: rest =>
    if message.role = .assistant ∧ next.role = .user then
      [message, next] :: splitIntoTurnPairs rest
    else [message] :: splitIntoTurnPairs (next :: rest)

/-- How many turns from the front fit the budget, with `used` tokens of it already used. -/
def greedyFill (cost : List Message → Nat) (budget : Int) : List (List Message) → Nat → Nat
  | [], _ => 0
  | turn :: turns, used =>
    if (used + cost turn : Int) ≤ budget then greedyFill cost budget turns (used + cost turn) + 1
    else 0

/-- The budget of the tokens that the fixed messages and the placeholder leave. -/
def availableTokens (countTokens : List Message → Nat) (fixed : List Message)
    (maxInputTokens : Int) : Int :=
  maxInputTokens - countTokens (fixed ++ [omitMessage 0])

def headBudget (available : Int) (headRatio : ℚ) : Int := ⌊available * headRatio⌋

/-- The numbers of turns before and behind the marker; none where the list is returned as it is. -/
def selectTurns (countTokens : List Message → Nat) (messages : List Message) (maxInputTokens : Int)
    (headRatio : ℚ) : Option (Nat × Nat) :=
  let turns := splitIntoTurnPairs (messages.drop 2)
  if countTokens messages ≤ maxInputTokens then none
  else if turns.length ≤ 1 then none
  else
    let available := availableTokens countTokens (messages.take 2) maxInputTokens
    if available ≤ 0 then some (0, 0)
    else
      let budget := headBudget available headRatio
      let cost := countTokensForTurn countTokens
      let headEnd := greedyFill cost budget turns 0
      let kept := greedyFill cost (available - budget) (turns.drop headEnd).reverse 0
      if turns.length ≤ headEnd + kept then none else some (headEnd, kept)

/-- The messages with a marker between the first turns and the last ones. -/
def withMarker (messages : List Message) (headEnd kept : Nat) : List Message :=
  let turns := splitIntoTurnPairs (messages.drop 2)
  messages.take 2 ++ (turns.take headEnd).flatten ++ [omitMessage (turns.length - headEnd - kept)] ++
    (turns.drop (turns.length - kept)).flatten

/-- `get_context_messages`. -/
def getContextMessages (countTokens : List Message → Nat) (messages : List Message)
    (maxInputTokens : Int) (headRatio : ℚ := 3 / 10) : List Message :=
  match selectTurns countTokens messages maxInputTokens headRatio with
  | none => messages
  | some (headEnd, kept) => withMarker messages headEnd kept

/-- The marker that is inserted, if any. -/
def insertedMarker (countTokens : List Message → Nat) (messages : List Message)
    (maxInputTokens : Int) (headRatio : ℚ := 3 / 10) : List Message :=
  match selectTurns countTokens messages maxInputTokens headRatio with
  | none => []
  | some (headEnd, kept) =>
    [omitMessage ((splitIntoTurnPairs (messages.drop 2)).length - headEnd - kept)]

/-- The tokens of a list are those of its messages and those of the generation prompt. -/
def IsAdditive (countTokens : List Message → Nat) : Prop :=
  ∃ (tokens : Message → Nat) (prompt : Nat),
    ∀ messages, countTokens messages = prompt + (messages.map tokens).sum

/-- The list as it is, or the fixed messages, the first turns, a marker with the number of the
turns that are left out, and the last turns. -/
def IsShortened (messages result : List Message) : Prop :=
  result = messages ∨ ∃ first omitted last : List (List Message),
    (first ++ omitted ++ last).flatten = messages.drop 2 ∧
    first ++ omitted ++ last = splitIntoTurnPairs (messages.drop 2) ∧ omitted ≠ [] ∧
    result = messages.take 2 ++ first.flatten ++ [omitMessage omitted.length] ++ last.flatten

/-- The result is a shortened list, and it is within the budget where the fixed messages and the
inserted marker are. -/
structure Managed (countTokens : List Message → Nat) (messages : List Message)
    (maxInputTokens : Int) : Prop where
  shortened : IsShortened messages (getContextMessages countTokens messages maxInputTokens)
  within : (countTokens (messages.take 2 ++ insertedMarker countTokens messages maxInputTokens) : Int)
      ≤ maxInputTokens →
    (countTokens (getContextMessages countTokens messages maxInputTokens) : Int) ≤ maxInputTokens

/-- So many turns from the front fit the budget, and no more do. -/
structure FitsUpTo (cost : List Message → Nat) (budget : Int) (turns : List (List Message))
    (k : Nat) : Prop where
  le : k ≤ turns.length
  fits : k ≠ 0 → (((turns.take k).map cost).sum : Int) ≤ budget
  full : k < turns.length → budget < (((turns.take (k + 1)).map cost).sum : Int)

/-- The marker takes no more tokens than its placeholder and what the kept turns leave over. -/
def MarkerFits (countTokens : List Message → Nat) (messages : List Message)
    (maxInputTokens : Int) : Prop :=
  let turns := splitIntoTurnPairs (messages.drop 2)
  let cost := countTokensForTurn countTokens
  let available := availableTokens countTokens (messages.take 2) maxInputTokens
  let budget := headBudget available (3 / 10)
  ∀ headEnd kept, FitsUpTo cost budget turns headEnd →
    FitsUpTo cost (available - budget) (turns.drop headEnd).reverse kept →
    let fixedTokens := countTokens (messages.take 2 ++ [omitMessage (turns.length - headEnd - kept)])
    maxInputTokens < fixedTokens ∨
      (fixedTokens + ((turns.take headEnd).map cost).sum +
        ((turns.drop (turns.length - kept)).map cost).sum : Int) ≤ maxInputTokens

variable {countTokens : List Message → Nat} {messages : List Message} {maxInputTokens : Int}
  {cost : List Message → Nat} {budget : Int} {turns : List (List Message)} {k k' : Nat}

/-! The greedy fill -/

theorem flatten_splitIntoTurnPairs (messages : List Message) :
    (splitIntoTurnPairs messages).flatten = messages := by
  induction messages using splitIntoTurnPairs.induct with
  | case1 => rfl
  | case2 message => rfl
  | case3 message next rest h ih =>
    rw [splitIntoTurnPairs, if_pos h, List.flatten_cons, ih]
    rfl
  | case4 message next rest h ih =>
    rw [splitIntoTurnPairs, if_neg h, List.flatten_cons, ih]
    rfl

theorem greedyFill_spec (cost : List Message → Nat) (budget : Int) (turns : List (List Message))
    (used : Nat) :
    let k := greedyFill cost budget turns used
    k ≤ turns.length ∧ (k ≠ 0 → (used + ((turns.take k).map cost).sum : Int) ≤ budget) ∧
      (k < turns.length → budget < (used + ((turns.take (k + 1)).map cost).sum : Int)) := by
  induction turns generalizing used with
  | nil => simp [greedyFill]
  | cons turn turns ih =>
    obtain ⟨hle, hfits, hfull⟩ := ih (used + cost turn)
    by_cases hturn : (used + cost turn : Int) ≤ budget
    · simp only [greedyFill, if_pos hturn, List.length_cons, List.take_succ_cons, List.map_cons,
        List.sum_cons]
      refine ⟨by omega, fun _ => ?_, fun hlt => ?_⟩
      · by_cases hk : greedyFill cost budget turns (used + cost turn) = 0
        · simpa [hk] using hturn
        · have hsum := hfits hk
          push_cast at hsum ⊢
          omega
      · have hsum := hfull (by omega)
        push_cast at hsum ⊢
        omega
    · simp only [greedyFill, if_neg hturn]
      refine ⟨Nat.zero_le _, fun hk => absurd rfl hk, fun _ => ?_⟩
      simp only [List.take_succ_cons, List.take_zero, List.map_cons, List.map_nil, List.sum_cons,
        List.sum_nil]
      push_cast
      omega

theorem fitsUpTo_greedyFill (cost : List Message → Nat) (budget : Int)
    (turns : List (List Message)) : FitsUpTo cost budget turns (greedyFill cost budget turns 0) := by
  obtain ⟨hle, hfits, hfull⟩ := greedyFill_spec cost budget turns 0
  exact ⟨hle, by simpa using hfits, by simpa using hfull⟩

theorem sum_take_mono (cost : List Message → Nat) (turns : List (List Message)) {i j : Nat}
    (h : i ≤ j) : ((turns.take i).map cost).sum ≤ ((turns.take j).map cost).sum := by
  have hsublist : ((turns.take i).map cost).Sublist ((turns.take j).map cost) :=
    (List.take_prefix_take_left h).sublist.map cost
  exact hsublist.sum_le_sum fun _ _ => Nat.zero_le _

/-- The number of turns that fit is determined. -/
theorem FitsUpTo.le_of (h : FitsUpTo cost budget turns k) (h' : FitsUpTo cost budget turns k') :
    k ≤ k' := by
  by_contra hlt
  have hfull := h'.full (by have := h.le; omega)
  have hfits := h.fits (by omega)
  have hmono := sum_take_mono cost turns (show k' + 1 ≤ k by omega)
  omega

theorem FitsUpTo.eq_greedyFill (h : FitsUpTo cost budget turns k) :
    k = greedyFill cost budget turns 0 :=
  le_antisymm (h.le_of (fitsUpTo_greedyFill cost budget turns))
    ((fitsUpTo_greedyFill cost budget turns).le_of h)

/-- What fits a budget that is not negative is within it. -/
theorem FitsUpTo.sum_le (h : FitsUpTo cost budget turns k) (hbudget : 0 ≤ budget) :
    (((turns.take k).map cost).sum : Int) ≤ budget := by
  by_cases hk : k = 0
  · simpa [hk] using hbudget
  · exact h.fits hk

/-! The tokens of the parts -/

section Additive

variable {tokens : Message → Nat} {prompt : Nat}
  (hcount : ∀ messages, countTokens messages = prompt + (messages.map tokens).sum)

include hcount

theorem countTokensForTurn_eq (turn : List Message) :
    countTokensForTurn countTokens turn = (turn.map tokens).sum := by
  simp only [countTokensForTurn, hcount, List.map_append, List.sum_append]
  omega

theorem sum_flatten (turns : List (List Message)) :
    (turns.flatten.map tokens).sum = (turns.map (countTokensForTurn countTokens)).sum := by
  induction turns with
  | nil => rfl
  | cons turn turns ih =>
    rw [List.flatten_cons, List.map_append, List.sum_append, ih, List.map_cons, List.sum_cons,
      countTokensForTurn_eq hcount]

/-- The whole list is the fixed messages and the turns. -/
theorem countTokens_eq (messages : List Message) :
    countTokens messages = countTokens (messages.take 2) +
      ((splitIntoTurnPairs (messages.drop 2)).map (countTokensForTurn countTokens)).sum := by
  rw [← sum_flatten hcount, flatten_splitIntoTurnPairs, hcount, hcount (messages.take 2),
    Nat.add_assoc, ← List.sum_append, ← List.map_append, List.take_append_drop]

theorem countTokens_withMarker (messages : List Message) (headEnd kept : Nat) :
    let turns := splitIntoTurnPairs (messages.drop 2)
    countTokens (withMarker messages headEnd kept) =
      countTokens (messages.take 2 ++ [omitMessage (turns.length - headEnd - kept)]) +
        ((turns.take headEnd).map (countTokensForTurn countTokens)).sum +
        ((turns.drop (turns.length - kept)).map (countTokensForTurn countTokens)).sum := by
  dsimp only
  rw [← sum_flatten hcount, ← sum_flatten hcount]
  simp only [withMarker, hcount, List.map_append, List.sum_append]
  omega

end Additive

theorem sum_take_reverse (turns : List (List Message)) (k : Nat) :
    ((turns.reverse.take k).map cost).sum = ((turns.drop (turns.length - k)).map cost).sum := by
  rw [List.take_reverse, List.map_reverse, List.sum_reverse]

/-! The choice of the turns -/

theorem headBudget_bounds {available : Int} (h : 0 ≤ available) :
    0 ≤ headBudget available (3 / 10) ∧ headBudget available (3 / 10) ≤ available := by
  have hcast : (0 : ℚ) ≤ available := by exact_mod_cast h
  constructor
  · exact Int.floor_nonneg.mpr (by linarith)
  · have hle := Int.floor_le ((available : ℚ) * (3 / 10))
    have hbound : ((headBudget available (3 / 10) : Int) : ℚ) ≤ available := by
      unfold headBudget
      linarith
    exact_mod_cast hbound

/-- The marker stands between disjoint parts. -/
theorem isShortened_withMarker {headEnd kept : Nat}
    (h : headEnd + kept < (splitIntoTurnPairs (messages.drop 2)).length) :
    IsShortened messages (withMarker messages headEnd kept) := by
  set turns := splitIntoTurnPairs (messages.drop 2) with hturns
  have hdrop : (turns.drop headEnd).drop (turns.length - headEnd - kept) =
      turns.drop (turns.length - kept) := by
    rw [List.drop_drop]
    congr 1
    omega
  have hsplit : turns.take headEnd ++ (turns.drop headEnd).take (turns.length - headEnd - kept) ++
      turns.drop (turns.length - kept) = turns := by
    rw [List.append_assoc, ← hdrop, List.take_append_drop, List.take_append_drop]
  have hlength : ((turns.drop headEnd).take (turns.length - headEnd - kept)).length =
      turns.length - headEnd - kept := by
    rw [List.length_take, List.length_drop]
    omega
  refine .inr ⟨_, _, _, ?_, hsplit, ?_, ?_⟩
  · rw [hsplit, hturns, flatten_splitIntoTurnPairs]
  · rw [← List.length_pos_iff, hlength]
    omega
  · rw [hlength]
    rfl

/-- The ways in which the turns are chosen. -/
theorem selectTurns_cases (countTokens : List Message → Nat) (messages : List Message)
    (maxInputTokens : Int) :
    let turns := splitIntoTurnPairs (messages.drop 2)
    let cost := countTokensForTurn countTokens
    let available := availableTokens countTokens (messages.take 2) maxInputTokens
    let budget := headBudget available (3 / 10)
    let headEnd := greedyFill cost budget turns 0
    let kept := greedyFill cost (available - budget) (turns.drop headEnd).reverse 0
    let selected := selectTurns countTokens messages maxInputTokens (3 / 10)
    (countTokens messages : Int) ≤ maxInputTokens ∧ selected = none ∨
    maxInputTokens < countTokens messages ∧
      (turns.length ≤ 1 ∧ selected = none ∨
      1 < turns.length ∧
        (available ≤ 0 ∧ selected = some (0, 0) ∨
        0 < available ∧
          (turns.length ≤ headEnd + kept ∧ selected = none ∨
          headEnd + kept < turns.length ∧ selected = some (headEnd, kept)))) := by
  dsimp only [selectTurns]
  split_ifs <;> simp_all

/-- Where everything would be kept, everything fits. -/
theorem countTokens_le_of_kept (hcount : IsAdditive countTokens)
    (havailable : 0 < availableTokens countTokens (messages.take 2) maxInputTokens)
    {headEnd kept : Nat} (turns : List (List Message))
    (hturns : turns = splitIntoTurnPairs (messages.drop 2))
    (hhead : FitsUpTo (countTokensForTurn countTokens)
      (headBudget (availableTokens countTokens (messages.take 2) maxInputTokens) (3 / 10))
      turns headEnd)
    (hkept : FitsUpTo (countTokensForTurn countTokens)
      (availableTokens countTokens (messages.take 2) maxInputTokens -
        headBudget (availableTokens countTokens (messages.take 2) maxInputTokens) (3 / 10))
      (turns.drop headEnd).reverse kept)
    (hall : turns.length ≤ headEnd + kept) : (countTokens messages : Int) ≤ maxInputTokens := by
  obtain ⟨tokens, prompt, hcount⟩ := hcount
  obtain ⟨hbudget, hbudget'⟩ := headBudget_bounds (le_of_lt havailable)
  have hfirst := hhead.sum_le hbudget
  have hlast := hkept.sum_le (by omega)
  have hrest : ((turns.drop headEnd).reverse.take kept) = (turns.drop headEnd).reverse := by
    refine List.take_of_length_le ?_
    rw [List.length_reverse, List.length_drop]
    omega
  rw [hrest, List.map_reverse, List.sum_reverse] at hlast
  have hsum : (turns.map (countTokensForTurn countTokens)).sum =
      ((turns.take headEnd).map (countTokensForTurn countTokens)).sum +
        ((turns.drop headEnd).map (countTokensForTurn countTokens)).sum := by
    rw [← List.sum_append, ← List.map_append, List.take_append_drop]
  have htotal := countTokens_eq hcount messages
  have hfixed : countTokens (messages.take 2) ≤ countTokens (messages.take 2 ++ [omitMessage 0]) := by
    rw [hcount, hcount, List.map_append, List.sum_append]
    omega
  rw [← hturns, hsum] at htotal
  unfold availableTokens at hfirst hlast
  omega

/-- A marker of no more tokens than its placeholder finds room. -/
theorem markerFits_of_le
    (hmarker : ∀ n, countTokens (messages.take 2 ++ [omitMessage n]) ≤
      countTokens (messages.take 2 ++ [omitMessage 0]))
    (havailable : 0 < availableTokens countTokens (messages.take 2) maxInputTokens) :
    MarkerFits countTokens messages maxInputTokens := by
  unfold MarkerFits
  dsimp only
  intro headEnd kept hhead hkept
  obtain ⟨hbudget, hbudget'⟩ := headBudget_bounds (le_of_lt havailable)
  have hfirst := hhead.sum_le hbudget
  have hlast := hkept.sum_le (sub_nonneg.mpr hbudget')
  set turns := splitIntoTurnPairs (messages.drop 2)
  have hfixed := hmarker (turns.length - headEnd - kept)
  have hbehind : ((turns.drop (turns.length - kept)).map (countTokensForTurn countTokens)).sum ≤
      (((turns.drop headEnd).reverse.take kept).map (countTokensForTurn countTokens)).sum := by
    have hle := hkept.le
    rw [List.length_reverse, List.length_drop] at hle
    rw [sum_take_reverse, List.drop_drop, List.length_drop]
    by_cases hnone : kept = 0
    · simp [hnone]
    · have hplace : headEnd + (turns.length - headEnd - kept) = turns.length - kept := by omega
      rw [hplace]
  have hspace : availableTokens countTokens (messages.take 2) maxInputTokens =
    maxInputTokens - countTokens (messages.take 2 ++ [omitMessage 0]) := rfl
  right
  omega

/-- The context is managed exactly where it fits as it is, or has one turn at most behind fixed
messages that do not fit, or the inserted marker finds room. -/
theorem managed_iff (hcount : IsAdditive countTokens) (messages : List Message)
    (maxInputTokens : Int) :
    Managed countTokens messages maxInputTokens ↔
      (countTokens messages : Int) ≤ maxInputTokens ∨
      ((splitIntoTurnPairs (messages.drop 2)).length ≤ 1 ∧
        maxInputTokens < countTokens (messages.take 2)) ∨
      (1 < (splitIntoTurnPairs (messages.drop 2)).length ∧
        (availableTokens countTokens (messages.take 2) maxInputTokens ≤ 0 ∨
          MarkerFits countTokens messages maxInputTokens)) := by
  have hadditive := hcount
  obtain ⟨tokens, prompt, hcount⟩ := hcount
  have hcases := selectTurns_cases countTokens messages maxInputTokens
  dsimp only at hcases
  have hhead := fitsUpTo_greedyFill (countTokensForTurn countTokens)
    (headBudget (availableTokens countTokens (messages.take 2) maxInputTokens) (3 / 10))
    (splitIntoTurnPairs (messages.drop 2))
  have hkept := fitsUpTo_greedyFill (countTokensForTurn countTokens)
    (availableTokens countTokens (messages.take 2) maxInputTokens -
      headBudget (availableTokens countTokens (messages.take 2) maxInputTokens) (3 / 10))
    ((splitIntoTurnPairs (messages.drop 2)).drop (greedyFill (countTokensForTurn countTokens)
      (headBudget (availableTokens countTokens (messages.take 2) maxInputTokens) (3 / 10))
      (splitIntoTurnPairs (messages.drop 2)) 0)).reverse
  rcases hcases with ⟨hfits, hnone⟩ | ⟨hover, ⟨hfew, hnone⟩ | ⟨hmany, ⟨hempty, hsome⟩ |
    ⟨havailable, ⟨hall, -⟩ | ⟨hsome, hselected⟩⟩⟩⟩
  · have hresult : getContextMessages countTokens messages maxInputTokens = messages := by
      rw [getContextMessages, hnone]
    refine iff_of_true ⟨.inl hresult, fun _ => ?_⟩ (.inl hfits)
    rwa [hresult]
  · have hresult : getContextMessages countTokens messages maxInputTokens = messages := by
      rw [getContextMessages, hnone]
    have hmarker : insertedMarker countTokens messages maxInputTokens = [] := by
      rw [insertedMarker, hnone]
    constructor
    · intro h
      have hwithin := h.within
      rw [hresult, hmarker, List.append_nil] at hwithin
      exact .inr (.inl ⟨hfew, by omega⟩)
    · rintro (hfits | ⟨-, hfixed⟩ | ⟨hmany, -⟩)
      · omega
      · refine ⟨.inl hresult, fun hwithin => ?_⟩
        rw [hmarker, List.append_nil] at hwithin
        omega
      · omega
  · have hresult : getContextMessages countTokens messages maxInputTokens =
        withMarker messages 0 0 := by
      rw [getContextMessages, hsome]
    refine iff_of_true ⟨?_, fun hwithin => ?_⟩ (.inr (.inr ⟨hmany, .inl hempty⟩))
    · rw [hresult]
      exact isShortened_withMarker (by omega)
    · rw [hresult, countTokens_withMarker hcount]
      rw [insertedMarker, hsome] at hwithin
      simpa using hwithin
  · exact absurd (countTokens_le_of_kept hadditive havailable _ rfl hhead hkept hall) (by omega)
  · -- the marker stands between the first turns and the last ones
    set turns := splitIntoTurnPairs (messages.drop 2) with hturns
    set headEnd := greedyFill (countTokensForTurn countTokens)
      (headBudget (availableTokens countTokens (messages.take 2) maxInputTokens) (3 / 10)) turns 0
    set kept := greedyFill (countTokensForTurn countTokens)
      (availableTokens countTokens (messages.take 2) maxInputTokens -
        headBudget (availableTokens countTokens (messages.take 2) maxInputTokens) (3 / 10))
      (turns.drop headEnd).reverse 0
    have hresult : getContextMessages countTokens messages maxInputTokens =
        withMarker messages headEnd kept := by
      rw [getContextMessages, hselected]
    have hmarker : insertedMarker countTokens messages maxInputTokens =
        [omitMessage (turns.length - headEnd - kept)] := by
      rw [insertedMarker, hselected]
    have htokens := countTokens_withMarker hcount messages headEnd kept
    dsimp only at htokens
    rw [← hturns] at htokens
    constructor
    · intro h
      refine .inr (.inr ⟨hmany, .inr fun headEnd' kept' hhead' hkept' => ?_⟩)
      obtain rfl := hhead'.eq_greedyFill
      obtain rfl := hkept'.eq_greedyFill
      have hwithin := h.within
      rw [hresult, hmarker, htokens] at hwithin
      dsimp only
      rw [Nat.cast_add, Nat.cast_add] at hwithin
      by_cases hfixed : maxInputTokens < countTokens (messages.take 2 ++
          [omitMessage (turns.length - headEnd - kept)])
      · exact .inl hfixed
      · exact .inr (hwithin (by omega))
    · rintro (hfits | ⟨hfew, -⟩ | ⟨-, hempty | hroom⟩)
      · omega
      · omega
      · omega
      · refine ⟨?_, fun hwithin => ?_⟩
        · rw [hresult]
          exact isShortened_withMarker hsome
        · rw [hresult, htokens]
          rw [hmarker] at hwithin
          have hroom' := hroom headEnd kept hhead hkept
          dsimp only at hroom'
          rw [← hturns] at hroom'
          rw [Nat.cast_add, Nat.cast_add]
          rcases hroom' with hfixed | hfits
          · omega
          · exact hfits

/-- The number of words of the conversation. -/
def countWords (messages : List Message) : Nat :=
  (messages.map fun message => (message.content.toList.filter (· = ' ')).length + 1).sum

theorem isAdditive_countWords : IsAdditive countWords :=
  ⟨fun message => (message.content.toList.filter (· = ' ')).length + 1, 0, fun _ => by
    rw [Nat.zero_add, countWords]⟩

def oneLongTurn : List Message :=
  [⟨.system, "s"⟩, ⟨.user, "p"⟩, ⟨.assistant, "a b c d e f g h i j k l m n o p q r s t"⟩,
    ⟨.user, "o"⟩]

theorem managed_iff_oneLongTurn : Managed countWords oneLongTurn 30 :=
  (managed_iff isAdditive_countWords oneLongTurn 30).mpr (.inl (by decide))

/-- A single turn is kept whatever its length, though the fixed messages have room for more. -/
theorem not_managed_oneLongTurn : ¬Managed countWords oneLongTurn 20 := by
  intro h
  have hwithin := h.within (by decide)
  revert hwithin
  decide

end Belayer.Agent
