import Belayer.Weights.Decoder

namespace Belayer.Weights

open Belayer.Framework

variable {α : Type} {a : Attention} {weights out : TensorDict α}

/-- The name of a fused tensor of a decoder's layer. -/
def fusedName (layer : Nat) (fused : Fused) : String := packedName ("model.", layer) fused

theorem fusedName_eq (layer : Nat) (fused : Fused) :
    fusedName layer fused = layerName layer (fused.path ++ fused.text) :=
  String.append_assoc ..

theorem Part.mem_lists (part : Part) : part ∈ weightParts ++ biasParts ∨ part ∈ mlpParts := by
  cases part <;> decide

theorem layerName_inj {layer layer' : Nat} {rest rest' : String}
    (h : layerName layer rest = layerName layer' rest') : layer = layer' ∧ rest = rest' := by
  have hlayer : layer = layer' := by
    have hid := getLayerId_layerName layer rest
    rw [h, getLayerId_layerName] at hid
    exact (Option.some.inj hid).symm
  subst hlayer
  exact ⟨rfl, String.append_right_inj _ |>.mp h⟩

theorem fusedName_inj {layer layer' : Nat} {fused fused' : Fused}
    (h : fusedName layer fused = fusedName layer' fused') : layer = layer' ∧ fused = fused' := by
  rw [fusedName_eq, fusedName_eq] at h
  obtain ⟨hlayer, hrest⟩ := layerName_inj h
  have hfused : ∀ fused ∈ Fused.all, ∀ fused' ∈ Fused.all,
      fused.path ++ fused.text = fused'.path ++ fused'.text → fused = fused' := by decide
  exact ⟨hlayer, hfused fused fused.mem_all fused' fused'.mem_all hrest⟩

/-- The projections of the decoder's layers have its shapes. -/
theorem DenseDecoder.shape_of_lookup (hdec : DenseDecoder a (shapes weights)) {id : Nat}
    (hid : id < a.numLayers) {part : Part} (hpart : part ∈ weightParts ++ biasParts)
    {tensor : Tensor α} (h : weights.lookup (attnName id part) = some tensor) :
    tensor.shape = a.rows part :: a.inner part := by
  have hshape : (shapes weights).lookup (attnName id part) = some tensor.shape := by
    rw [lookup_shapes, h]
    rfl
  rcases List.mem_append.mp hpart with hweight | hbias
  · exact Option.some.inj (hshape.symm.trans (hdec.weights id hid part hweight))
  · rcases hdec.biases id hid with hall | hnone
    · exact Option.some.inj (hshape.symm.trans (hall part hbias))
    · rw [hnone part hbias] at hshape
      cases hshape

/-- What a variable of a layer is set to. -/
theorem DenseDecoder.of_collect (hdec : DenseDecoder a (shapes weights))
    {layer : (String × Nat) × NamedTensors α} (hlayer : layer ∈ (layerToTensors weights).items)
    {part : Part} {tensor : Tensor α} (h : collect layer.2 part = some tensor) :
    ∃ id, layer.1 = ("model.", id) ∧ (∃ rows, 0 < rows ∧ tensor.shape = rows :: a.inner part) ∧
      (part ∈ weightParts ++ biasParts →
        id < a.numLayers ∧ weights.lookup (attnName id part) = some tensor) := by
  obtain ⟨name, hentry, hof⟩ := exists_of_collect h
  obtain ⟨htensor, hkey⟩ := (mem_layer hlayer).mp hentry
  have hshape : (shapes weights).lookup name = some tensor.shape := by
    rw [lookup_shapes, htensor]
    rfl
  have hmem : name ∈ shapes weights := AList.lookup_isSome.mp (by rw [hshape]; rfl)
  have hid : (getLayerId name).isSome := by
    rw [layerKey] at hkey
    obtain ⟨id, hid, -⟩ := Option.map_eq_some_iff.mp hkey
    rw [hid]
    rfl
  have hpositive : ∀ {rows : Nat} {inner : List Nat}, tensor.shape = rows :: inner → 0 < rows := by
    intro rows inner hrows
    refine Nat.pos_of_ne_zero fun hzero => (hdec.regular name tensor.shape hshape).2.1 ?_
    rw [hrows, hzero]
    exact List.mem_cons_self ..
  rcases part.mem_lists with hattention | hmlp
  · obtain ⟨id, hlt, rfl⟩ := hdec.attention name hmem hid part hattention hof
    have hrows := hdec.shape_of_lookup hlt hattention htensor
    refine ⟨id, ?_, ⟨a.rows part, hpositive hrows, hrows⟩, fun _ => ⟨hlt, htensor⟩⟩
    exact (Option.some.inj ((layerKey_layerName id _).symm.trans hkey)).symm
  · obtain ⟨⟨id, hmodel⟩, rows, hrows⟩ := hdec.gateUp name tensor.shape hshape hid part hmlp hof
    have hdisjoint : ∀ part ∈ mlpParts, part ∉ weightParts ++ biasParts := by decide
    exact ⟨id, (Option.some.inj (hmodel.symm.trans hkey)).symm, ⟨rows, hpositive hrows, hrows⟩,
      fun hattention => absurd hattention (hdisjoint part hmlp)⟩

/-- The attention of a layer is what its projections are collected to. -/
theorem DenseDecoder.collect_eq (hdec : DenseDecoder a (shapes weights)) {id : Nat}
    {entries : NamedTensors α} (hlayer : (("model.", id), entries) ∈ (layerToTensors weights).items)
    {part : Part} (hpart : part ∈ weightParts ++ biasParts) :
    collect entries part = weights.lookup (attnName id part) := by
  have hfrom : ∀ tensor, collect entries part = some tensor →
      weights.lookup (attnName id part) = some tensor := by
    intro tensor h
    obtain ⟨id', hkey, -, hattention⟩ := hdec.of_collect hlayer h
    cases hkey
    exact (hattention hpart).2
  cases hlookup : weights.lookup (attnName id part) with
  | none =>
    cases hcollect : collect entries part with
    | none => rfl
    | some tensor =>
      have hsome := hfrom tensor hcollect
      rw [hlookup] at hsome
      cases hsome
  | some tensor =>
    have hentry : (attnName id part, tensor) ∈ entries :=
      (mem_layer hlayer).mpr ⟨hlookup, layerKey_layerName id _⟩
    obtain ⟨tensor', htensor'⟩ := Option.isSome_iff_exists.mp
      (isSome_collect hentry (part_of_attnName hpart id))
    rw [htensor', ← hfrom tensor' htensor', hlookup]

/-- The parts of a fused tensor that is built, and their rows. -/
theorem DenseDecoder.shapes_of_parts (hdec : DenseDecoder a (shapes weights))
    {layer : (String × Nat) × NamedTensors α} (hlayer : layer ∈ (layerToTensors weights).items)
    {fused : Fused} {parts : List (Tensor α)}
    (h : fused.parts.mapM (collect layer.2) = some parts) :
    ∃ id, layer.1 = ("model.", id) ∧ parts ≠ [] ∧ ∃ part ∈ fused.parts,
      ∀ tensor ∈ parts, ∃ rows, 0 < rows ∧ tensor.shape = rows :: a.inner part := by
  have hmap := mapM_eq_some_iff.mp h
  have hinner : ∀ part ∈ fused.parts, a.inner part = a.inner (fused.parts.headD .qWeight) := by
    cases fused <;> simp [Fused.parts, Attention.inner]
  have hhead : fused.parts.headD .qWeight ∈ fused.parts := by cases fused <;> decide
  have hall : ∀ tensor ∈ parts, ∃ part ∈ fused.parts, collect layer.2 part = some tensor := by
    intro tensor htensor
    have hmem : some tensor ∈ fused.parts.map (collect layer.2) := by
      rw [hmap]
      exact List.mem_map_of_mem htensor
    exact List.mem_map.mp hmem
  obtain ⟨first, hfirst⟩ := Option.isSome_iff_exists.mp (isSome_of_mapM h hhead)
  obtain ⟨id, hkey, -, -⟩ := hdec.of_collect hlayer hfirst
  refine ⟨id, hkey, ?_, _, hhead, ?_⟩
  · rintro rfl
    rw [List.map_nil, List.map_eq_nil_iff] at hmap
    rw [hmap] at hhead
    exact List.not_mem_nil hhead
  · intro tensor htensor
    obtain ⟨part, hpart, hcollect⟩ := hall tensor htensor
    obtain ⟨_, -, ⟨rows, hpos, hrows⟩, -⟩ := hdec.of_collect hlayer hcollect
    exact ⟨rows, hpos, by rw [hrows, hinner part hpart]⟩

/-- Packing a decoder does not raise. -/
theorem DenseDecoder.exists_packLayers (hdec : DenseDecoder a (shapes weights)) :
    ∃ out, packLayers weights = some out := by
  refine Weights.exists_packLayers fun layer hlayer fused parts hparts => ?_
  obtain ⟨_, -, hne, part, -, hshapes⟩ := hdec.shapes_of_parts hlayer hparts
  obtain ⟨packed, hpacked, -⟩ := Tensor.cat_of_shapes hne fun tensor htensor => by
    obtain ⟨rows, -, hrows⟩ := hshapes tensor htensor
    exact ⟨rows, hrows⟩
  rw [hpacked]
  rfl

/-- A decoder has no tensor with the name of a fused attention tensor. -/
theorem DenseDecoder.fusedName_not_mem (hdec : DenseDecoder a (shapes weights)) {id : Nat}
    {fused : Fused} (hfused : fused = .qkvWeight ∨ fused = .qkvBias) :
    fusedName id fused ∉ weights := by
  intro hmem
  have hpart : ∃ part ∈ weightParts ++ biasParts, Part.of (fusedName id fused) = some part ∧
      fused.path ++ fused.text ≠ "self_attn." ++ part.text := by
    rw [fusedName_eq, Part.of_layerName]
    rcases hfused with rfl | rfl
    · exact ⟨.vWeight, by decide, by decide, by decide⟩
    · exact ⟨.vBias, by decide, by decide, by decide⟩
  obtain ⟨part, hpart, hof, hne⟩ := hpart
  have hid : (getLayerId (fusedName id fused)).isSome := by
    rw [fusedName_eq, getLayerId_layerName]
    rfl
  obtain ⟨id', -, hname⟩ := hdec.attention _ (mem_shapes.mpr hmem) hid part hpart hof
  rw [fusedName_eq, attnName] at hname
  exact hne (layerName_inj hname).2

/-- A layer's fused attention is its projections one after the other. -/
theorem DenseDecoder.lookup_fused (hdec : DenseDecoder a (shapes weights))
    (hpack : packLayers weights = some out) {id : Nat} {fused : Fused}
    (hfused : fused = .qkvWeight ∨ fused = .qkvBias) {parts : List (Tensor α)}
    (hparts : fused.parts.mapM (fun part => weights.lookup (attnName id part)) = some parts) :
    ∃ packed, Tensor.cat parts = some packed ∧ out.lookup (fusedName id fused) = some packed := by
  have hattention : ∀ part ∈ fused.parts, part ∈ weightParts ++ biasParts := by
    rcases hfused with rfl | rfl <;> decide
  have hhead : fused.parts.headD .qWeight ∈ fused.parts := by cases fused <;> decide
  obtain ⟨first, hfirst⟩ := Option.isSome_iff_exists.mp (isSome_of_mapM hparts hhead)
  obtain ⟨entries, hlayer⟩ := exists_layer (e := (attnName id (fused.parts.headD .qWeight), first))
    hfirst (layerKey_layerName id _)
  have hcollect : fused.parts.mapM (collect entries) = some parts := by
    rw [mapM_eq_some_iff, ← mapM_eq_some_iff.mp hparts]
    exact List.map_congr_left fun part hpart => hdec.collect_eq hlayer (hattention part hpart)
  have hkept : ∀ other ∈ (layerToTensors weights).items,
      fusedName id fused ∉ (partEntries other.2).map Prod.fst := by
    intro other hother hmem
    obtain ⟨e, he, hname⟩ := List.mem_map.mp hmem
    have htensor := ((mem_layer hother).mp (List.mem_of_mem_filter he)).1
    have hweights : fusedName id fused ∈ weights := by
      rw [← hname]
      exact AList.lookup_isSome.mp (by rw [htensor]; rfl)
    exact hdec.fusedName_not_mem hfused hweights
  have hunique : ∀ other ∈ (layerToTensors weights).items, ∀ f : Fused,
      f.parts.mapM (collect other.2) ≠ none → fusedName id fused = packedName other.1 f →
        other = (("model.", id), entries) ∧ f = fused := by
    intro other hother f hf hname
    obtain ⟨parts', hparts'⟩ := Option.ne_none_iff_exists'.mp hf
    obtain ⟨id', hkey, -⟩ := hdec.shapes_of_parts hother hparts'
    rw [hkey] at hname
    obtain ⟨rfl, rfl⟩ := fusedName_inj hname
    refine ⟨?_, rfl⟩
    have hsame := Dict.mem_items.mp hother
    rw [hkey, Dict.mem_items.mp hlayer] at hsame
    exact Prod.ext hkey (Option.some.inj hsame).symm
  have hlookup := lookup_packLayers hpack hlayer hcollect hkept hunique
  exact hlookup

/-- Each tensor of a packed decoder has the dimensions that sharding cuts. -/
theorem DenseDecoder.regular_of_packed (hdec : DenseDecoder a (shapes weights))
    (hpack : packLayers weights = some out) {name : String} {tensor : Tensor α}
    (hname : out.lookup name = some tensor) :
    ∃ rows inner, 0 < rows ∧ tensor.shape = rows :: inner ∧ 0 ∉ inner ∧
      (isRowParallel name = true → inner ≠ []) := by
  rcases origin_of_packLayers hpack hname with hold | ⟨layer, hlayer, fused, parts, hparts, hcat, rfl⟩
  · have hshape : (shapes weights).lookup name = some tensor.shape := by
      rw [lookup_shapes, hold]
      rfl
    obtain ⟨hne, hzero, hrow⟩ := hdec.regular name tensor.shape hshape
    cases hdims : tensor.shape with
    | nil => exact absurd hdims hne
    | cons rows inner =>
      rw [hdims] at hzero hrow
      rw [List.mem_cons, not_or] at hzero
      refine ⟨rows, inner, Nat.pos_of_ne_zero fun h => hzero.1 h.symm, rfl, hzero.2, fun h => ?_⟩
      rintro rfl
      exact Nat.not_succ_le_self 1 (hrow h)
  · obtain ⟨id, hkey, hne, part, hpart, hshapes⟩ := hdec.shapes_of_parts hlayer hparts
    obtain ⟨packed, hpacked, hshape, -⟩ := Tensor.cat_of_shapes hne fun tensor htensor => by
      obtain ⟨rows, -, hrows⟩ := hshapes tensor htensor
      exact ⟨rows, hrows⟩
    obtain rfl : packed = tensor := Option.some.inj (hpacked.symm.trans hcat)
    refine ⟨_, _, ?_, hshape, ?_, ?_⟩
    · obtain ⟨first, rest, rfl⟩ := List.exists_cons_of_ne_nil hne
      obtain ⟨rows, hpos, hrows⟩ := hshapes first (List.mem_cons_self ..)
      have hfirst : first.rows = rows := by
        rw [Tensor.rows, hrows]
        rfl
      rw [List.map_cons, List.sum_cons, hfirst]
      exact Nat.add_pos_left hpos _
    · have hpos := a.hiddenSize_pos
      cases part <;> simp [Attention.inner] <;> omega
    · intro hrow
      rw [hkey] at hrow
      have hnot : isRowParallel (fusedName id fused) = false := by
        have htexts : ∀ text ∈ ["o_proj.weight", "down_proj.weight", "attn.proj.weight", "linear_fc"],
            text ≠ "" ∧ (text.toList.all fun c => !c.isDigit) ∧ ∀ fused ∈ Fused.all,
              Text.contains text (layerName 0 (fused.path ++ fused.text)) = false := by decide
        have hnone : ∀ text ∈ ["o_proj.weight", "down_proj.weight", "attn.proj.weight", "linear_fc"],
            Text.contains text (fusedName id fused) = false := by
          intro text htext
          obtain ⟨hne, hdigits, hzero⟩ := htexts text htext
          rw [fusedName_eq, contains_layerName hne hdigits]
          exact hzero fused fused.mem_all
        have hlinear : Text.contains "linear_fc2.weight" (fusedName id fused) = false := by
          by_contra hcontains
          have hlonger := Text.contains_iff.mp (Bool.eq_true_of_not_eq_false hcontains)
          have hshorter : "linear_fc".toList <:+: "linear_fc2.weight".toList :=
            Text.contains_iff.mp (by decide)
          have hnot := hnone "linear_fc" (by decide)
          rw [Text.contains_iff.mpr (hshorter.trans hlonger)] at hnot
          cases hnot
        simp [isRowParallel, containsAny, hlinear, hnone]
      rw [fusedName] at hnot
      rw [hnot] at hrow
      cases hrow

end Belayer.Weights
