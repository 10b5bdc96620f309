import Belayer.Weights.PackLayers

namespace Belayer.Weights

open Belayer.Framework

/-- A name in a decoder's layer. -/
def layerName (layer : Nat) (rest : String) : String := layerStart ("model.", layer) ++ rest

theorem toList_layerName (layer : Nat) (rest : String) :
    (layerName layer rest).toList =
      "model.layers.".toList ++ Nat.toDigits 10 layer ++ '.' :: rest.toList := by
  have hstart : layerStart ("model.", layer) = "model." ++ s!"layers.{layer}." := by
    have hdot : ¬("model." ≠ "" ∧ ¬Text.endsWith "." "model." = true) := by decide
    rw [layerStart]
    dsimp only
    rw [if_neg hdot]
  have hdigits : (toString layer).toList = Nat.toDigits 10 layer := Nat.toList_repr
  rw [layerName, hstart]
  simp only [String.toList_append, hdigits, List.append_assoc]
  rfl

theorem isDigit_of_mem {layer : Nat} {c : Char} (hc : c ∈ Nat.toDigits 10 layer) : c.isDigit :=
  Nat.isDigit_of_mem_toDigits (by decide) (by decide) hc

/-- A text without digits is in every layer's name or in none. -/
theorem contains_layerName {text : String} (htext : text ≠ "")
    (hdigits : text.toList.all fun c => !c.isDigit) (layer : Nat) (rest : String) :
    Text.contains text (layerName layer rest) = Text.contains text (layerName 0 rest) := by
  have hne : text.toList ≠ [] := fun h => htext (String.toList_inj.mp h)
  have hnot : ∀ layer : Nat, ∀ c ∈ Nat.toDigits 10 layer, c ∉ text.toList := by
    intro layer c hc hmem
    have hdigit := List.all_eq_true.mp hdigits c hmem
    rw [isDigit_of_mem hc] at hdigit
    cases hdigit
  rw [Bool.eq_iff_iff, Text.contains_iff, Text.contains_iff, toList_layerName, toList_layerName,
    Text.infix_around Nat.toDigits_ne_nil hne (hnot layer),
    Text.infix_around Nat.toDigits_ne_nil hne (hnot 0)]

theorem Part.of_layerName (layer : Nat) (rest : String) :
    Part.of (layerName layer rest) = Part.of (layerName 0 rest) := by
  have hcontains : (fun part : Part => Text.contains part.text (layerName layer rest)) =
      fun part => Text.contains part.text (layerName 0 rest) := by
    funext part
    refine contains_layerName ?_ ?_ layer rest
    · cases part <;> decide
    · cases part <;> decide
  rw [Part.of, Part.of, hcontains]

theorem findSome?_tails_cons {α β : Type} (f : List α → Option β) (c : α) (s : List α) :
    (c :: s).tails.findSome? f = (f (c :: s)).or (s.tails.findSome? f) := by
  rw [List.tails_cons, List.findSome?_cons]
  cases f (c :: s) <;> rfl

/-- The number of a layer stands in its names. -/
theorem layerIdAt_layerName (layer : Nat) (rest : List Char) :
    layerIdAt ("layers.".toList ++ (Nat.toDigits 10 layer ++ '.' :: rest)) = some layer := by
  have htake : (Nat.toDigits 10 layer ++ '.' :: rest).takeWhile Text.isDecimal =
      Nat.toDigits 10 layer := by
    rw [List.takeWhile_append_of_pos fun c hc => Text.isDecimal_of_isDigit (isDigit_of_mem hc),
      List.takeWhile_cons, if_neg (by decide), List.append_nil]
  have hprefix : "layers.".toList.isPrefixOf
      ("layers.".toList ++ (Nat.toDigits 10 layer ++ '.' :: rest)) = true :=
    List.isPrefixOf_iff_prefix.mpr (List.prefix_append _ _)
  unfold layerIdAt
  rw [if_pos hprefix, List.drop_left]
  dsimp only
  rw [htake, List.drop_left, if_pos ⟨Nat.toDigits_ne_nil, rfl⟩, Text.decimalValue_toDigits]

theorem getLayerId_layerName (layer : Nat) (rest : String) :
    getLayerId (layerName layer rest) = some layer := by
  have hsplit : (layerName layer rest).toList = 'm' :: 'o' :: 'd' :: 'e' :: 'l' :: '.' ::
      ("layers.".toList ++ (Nat.toDigits 10 layer ++ '.' :: rest.toList)) := by
    rw [toList_layerName, List.append_assoc]
    rfl
  have hskip : ∀ (c : Char) (s : List Char), "layers.".toList.isPrefixOf (c :: s) = false →
      (c :: s).tails.findSome? layerIdAt = s.tails.findSome? layerIdAt := by
    intro c s hc
    rw [findSome?_tails_cons, layerIdAt, if_neg (by rw [hc]; exact Bool.false_ne_true),
      Option.none_or]
  rw [getLayerId, hsplit]
  iterate 6 rw [hskip _ _ (by rfl)]
  have hhead : "layers.".toList ++ (Nat.toDigits 10 layer ++ '.' :: rest.toList) =
      'l' :: ("ayers.".toList ++ (Nat.toDigits 10 layer ++ '.' :: rest.toList)) := rfl
  rw [hhead, findSome?_tails_cons, ← hhead, layerIdAt_layerName, Option.some_or]

theorem getLayerPrefix_layerName (layer : Nat) (rest : String) :
    getLayerPrefix (layerName layer rest) layer = "model." := by
  have hmarker : s!"layers.{layer}.".toList = "layers.".toList ++ (Nat.toDigits 10 layer ++ ['.']) := by
    have hdigits : (toString layer).toList = Nat.toDigits 10 layer := Nat.toList_repr
    simp only [String.toList_append, hdigits]
    rfl
  have hsplit : (layerName layer rest).toList = "model.".toList ++
      ("layers.".toList ++ (Nat.toDigits 10 layer ++ '.' :: rest.toList)) := by
    rw [toList_layerName, List.append_assoc]
    rfl
  have hfind : Text.find s!"layers.{layer}." (layerName layer rest) = some 6 := by
    rw [Text.find, List.find?_range_eq_some, hmarker, hsplit]
    refine ⟨List.isPrefixOf_iff_prefix.mpr ⟨rest.toList, ?_⟩, ?_, fun j hj => ?_⟩
    · rw [List.append_assoc, List.append_assoc]
      rfl
    · rw [List.mem_range, List.length_append]
      exact Nat.lt_succ_of_le (Nat.le_add_right 6 _)
    · obtain rfl | rfl | rfl | rfl | rfl | rfl :
          j = 0 ∨ j = 1 ∨ j = 2 ∨ j = 3 ∨ j = 4 ∨ j = 5 := by omega
      all_goals rfl
  rw [getLayerPrefix, hfind]
  dsimp only
  rw [Text.take, hsplit]
  rfl

theorem layerKey_layerName (layer : Nat) (rest : String) :
    layerKey (layerName layer rest) = some ("model.", layer) := by
  rw [layerKey, getLayerId_layerName, Option.map_some, getLayerPrefix_layerName]

/-! The first layer -/

/-- A text can only start where its first character stands. -/
theorem infix_append_of_ne {β : Type} {c : β} {s l m : List β} (h : ∀ d ∈ l, d ≠ c) :
    (c :: s) <:+: l ++ m ↔ (c :: s) <:+: m := by
  induction l with
  | nil => rw [List.nil_append]
  | cons d l ih =>
    obtain ⟨hd, hl⟩ := List.forall_mem_cons.mp h
    rw [List.cons_append, List.infix_cons_iff, ih hl]
    constructor
    · rintro (⟨t, ht⟩ | hin)
      · exact absurd (List.cons.inj ht).1.symm hd
      · exact hin
    · exact .inr

/-- A name with `.layers.0.` in it has a layer. -/
theorem isSome_getLayerId {name : String} (h : Text.contains ".layers.0." name = true) :
    (getLayerId name).isSome := by
  obtain ⟨t, ⟨u, hu⟩, hsuffix⟩ := List.infix_iff_prefix_suffix.mp (Text.contains_iff.mp h)
  have hsplit : t = '.' :: ("layers.".toList ++ (Nat.toDigits 10 0 ++ '.' :: u)) := hu.symm
  rw [getLayerId, List.findSome?_isSome_iff]
  refine ⟨"layers.".toList ++ (Nat.toDigits 10 0 ++ '.' :: u), ?_, ?_⟩
  · refine (List.mem_tails _ _).mpr (List.IsSuffix.trans ?_ hsuffix)
    rw [hsplit]
    exact List.suffix_cons '.' _
  · rw [layerIdAt_layerName]
    rfl

/-- The names of the first layer are those with `.layers.0.` in them. -/
theorem eq_zero_of_contains {layer : Nat} {rest : String}
    (h : Text.contains ".layers.0." (layerName layer rest) = true)
    (hrest : Text.contains ".layers.0." ("." ++ rest) = false) : layer = 0 := by
  have hne : ∀ c ∈ Nat.toDigits 10 layer, c ≠ '.' := by
    rintro c hc rfl
    exact absurd (isDigit_of_mem hc) (by decide)
  have hmodel : (layerName layer rest).toList = "model".toList ++
      '.' :: ("layers".toList ++ '.' :: (Nat.toDigits 10 layer ++ ("." ++ rest).toList)) := by
    rw [toList_layerName, String.toList_append]
    rfl
  have htext : ".layers.0.".toList = '.' :: "layers.0.".toList := rfl
  have hnot : ¬('.' :: "layers.0.".toList) <:+: ("." ++ rest).toList := by
    rw [← htext, ← Text.contains_iff, hrest]
    exact Bool.false_ne_true
  have hdots : ∀ s : String, (s.toList.all fun c => decide (c ≠ '.')) = true →
      ∀ c ∈ s.toList, c ≠ '.' :=
    fun s hs c hc => of_decide_eq_true (List.all_eq_true.mp hs c hc)
  rw [Text.contains_iff, hmodel, htext, infix_append_of_ne (hdots "model" (by decide)),
    List.infix_cons_iff, infix_append_of_ne (hdots "layers" (by decide)), List.infix_cons_iff,
    infix_append_of_ne hne] at h
  obtain ⟨d, digits, hdigits⟩ := List.exists_cons_of_ne_nil (@Nat.toDigits_ne_nil layer 10)
  rw [hdigits] at h
  rcases h with ⟨u, hu⟩ | ⟨u, hu⟩ | hrest
  · have hlayers : "layers.".toList ++ ('0' :: '.' :: u) =
        "layers.".toList ++ (d :: (digits ++ ("." ++ rest).toList)) := (List.cons.inj hu).2
    obtain ⟨rfl, htail⟩ := List.cons.inj (List.append_cancel_left hlayers)
    cases digits with
    | nil => rw [← Text.decimalValue_toDigits layer, hdigits]; rfl
    | cons d digits =>
      have hd := hne d (by rw [hdigits]; exact List.mem_cons_of_mem _ (List.mem_cons_self ..))
      exact absurd (List.cons.inj htail).1.symm hd
  · have hd : d = 'l' := (List.cons.inj (List.cons.inj hu).2).1.symm
    have hmem : d ∈ Nat.toDigits 10 layer := by
      rw [hdigits]
      exact List.mem_cons_self ..
    exact absurd (hd ▸ isDigit_of_mem hmem) (by decide)
  · exact absurd hrest hnot

end Belayer.Weights
