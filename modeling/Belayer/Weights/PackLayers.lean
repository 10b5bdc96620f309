import Belayer.Framework.Traverse
import Belayer.Weights.PersistentPs
import Mathlib.Data.List.Perm.Subperm
import Mathlib.Data.List.Nodup

namespace Belayer.Weights

open Belayer.Framework

variable {α : Type} {tensors out : TensorDict α}

/-- The name of the fused tensor of a projection's own module: the projection's text in the
name becomes that of the fused one, and the layer stays. -/
def OwnFused (name fusedName : String) : Prop :=
  ∃ fused : Fused, ∃ part ∈ fused.parts, ∃ before after,
    name = before ++ part.text ++ after ∧ fusedName = before ++ fused.text ++ after ∧
      getLayerId fusedName = getLayerId name

/-- A tensor is there under its own name or inside the fused tensor of its own module. -/
def Kept (out : TensorDict α) (name : String) (tensor : Tensor α) : Prop :=
  out.lookup name = some tensor ∨
    ∃ fusedName packed, OwnFused name fusedName ∧ out.lookup fusedName = some packed ∧
      tensor.data <:+: packed.data

/-- Packing loses no tensor, and a second time changes nothing. -/
def PacksLossless (tensors : TensorDict α) : Prop :=
  ∃ out, packLayers tensors = some out ∧
    (∀ name tensor, tensors.lookup name = some tensor → Kept out name tensor) ∧
    packLayers out = some out

/-! What a name is taken for -/

theorem Part.mem_all (part : Part) : part ∈ Part.all := by cases part <;> decide

theorem Fused.mem_all (fused : Fused) : fused ∈ Fused.all := by cases fused <;> decide

theorem Part.isSome_of_iff {name : String} :
    (Part.of name).isSome ↔ ∃ part : Part, Text.contains part.text name = true := by
  rw [Part.of, List.find?_isSome]
  exact ⟨fun ⟨part, _, h⟩ => ⟨part, h⟩, fun ⟨part, h⟩ => ⟨part, part.mem_all, h⟩⟩

/-- The name of a fused tensor has the text of a part. -/
theorem Part.isSome_of_fused {fused : Fused} {name : String}
    (h : fused.text.toList <:+: name.toList) : (Part.of name).isSome := by
  have hpart : ∃ part : Part, part.text.toList <:+: fused.text.toList := by
    cases fused with
    | qkvWeight => exact ⟨.vWeight, Text.contains_iff.mp (by decide)⟩
    | gateUpWeight => exact ⟨.upProj, Text.contains_iff.mp (by decide)⟩
    | qkvBias => exact ⟨.vBias, Text.contains_iff.mp (by decide)⟩
    | gateUpBias => exact ⟨.upProjBias, Text.contains_iff.mp (by decide)⟩
  obtain ⟨part, hp⟩ := hpart
  exact Part.isSome_of_iff.mpr ⟨part, Text.contains_iff.mpr (hp.trans h)⟩

/-- A tensor of a layer that is taken for a part. -/
def isPart (name : String) : Bool := (getLayerId name).isSome && (Part.of name).isSome

def numParts (tensors : TensorDict α) : Nat := tensors.keys.countP isPart

theorem OwnFused.isPart {name fusedName : String} (h : OwnFused name fusedName)
    (hlayer : (getLayerId name).isSome) : isPart fusedName = true := by
  obtain ⟨fused, part, -, before, after, -, rfl, hid⟩ := h
  rw [Weights.isPart, hid, hlayer, Bool.true_and]
  refine Part.isSome_of_fused (⟨before.toList, after.toList, ?_⟩ : fused.text.toList <:+: _)
  rw [String.toList_append, String.toList_append]

/-! The layers -/

/-- The layers have the tensors with a layer id, each once. -/
theorem perm_layerToTensors (tensors : TensorDict α) :
    ((layerToTensors tensors).items.flatMap Prod.snd).Perm
      (tensors.items.filter fun e => (getLayerId e.1).isSome) := by
  have hkey : (fun e : String × Tensor α => (getLayerId e.1).isSome) =
      fun e => (layerKey e.1).isSome := by
    funext e
    rw [layerKey, Option.isSome_map]
  rw [hkey]
  exact Dict.perm_groupBy _ tensors.items

/-- The entries of a layer that are taken for a part. -/
def partEntries (layerTensors : NamedTensors α) : NamedTensors α :=
  layerTensors.filter fun e => (Part.of e.1).isSome

theorem mem_deleteParts {layerTensors : NamedTensors α} {name : String} :
    name ∈ deleteParts layerTensors tensors ↔
      name ∈ tensors ∧ name ∉ (partEntries layerTensors).map Prod.fst := by
  unfold deleteParts partEntries
  induction layerTensors generalizing tensors with
  | nil => simp
  | cons e layerTensors ih =>
    rw [List.foldl_cons, ih]
    by_cases h : (Part.of e.1).isSome
    · rw [if_pos h, AList.mem_erase, List.filter_cons, if_pos h, List.map_cons, List.mem_cons,
        not_or]
      tauto
    · rw [if_neg h, List.filter_cons, if_neg h]

theorem collect_concat (layerTensors : NamedTensors α) (e : String × Tensor α) :
    collect (layerTensors ++ [e]) = collectEntry (collect layerTensors) e :=
  List.foldl_concat ..

/-- A variable of a layer that is set comes from an entry. -/
theorem exists_of_collect {layerTensors : NamedTensors α} {part : Part} {tensor : Tensor α}
    (h : collect layerTensors part = some tensor) :
    ∃ name, (name, tensor) ∈ layerTensors ∧ Part.of name = some part := by
  induction layerTensors using List.reverseRecOn with
  | nil => cases h
  | append_singleton layerTensors e ih =>
    have hearlier : collect layerTensors part = some tensor →
        ∃ name, (name, tensor) ∈ layerTensors ++ [e] ∧ Part.of name = some part := by
      intro h
      obtain ⟨name, hmem, hname⟩ := ih h
      exact ⟨name, List.mem_append_left _ hmem, hname⟩
    rw [collect_concat, collectEntry] at h
    cases hpart : Part.of e.1 with
    | none =>
      rw [hpart] at h
      exact hearlier h
    | some p =>
      rw [hpart] at h
      dsimp only at h
      by_cases hp : part = p
      · subst hp
        rw [Function.update_self] at h
        cases h
        exact ⟨e.1, List.mem_append_right _ (List.mem_singleton_self e), hpart⟩
      · rw [Function.update_of_ne hp] at h
        exact hearlier h

/-- A layer has an entry for each variable that is set. -/
theorem count_collect_le (layerTensors : NamedTensors α) :
    Part.all.countP (fun part => (collect layerTensors part).isSome) ≤
      (partEntries layerTensors).length := by
  have hsub : (Part.all.filter fun part => (collect layerTensors part).isSome) ⊆
      (partEntries layerTensors).filterMap fun e => Part.of e.1 := by
    intro part hpart
    obtain ⟨tensor, htensor⟩ := Option.isSome_iff_exists.mp (List.mem_filter.mp hpart).2
    obtain ⟨name, hmem, hname⟩ := exists_of_collect htensor
    refine List.mem_filterMap.mpr ⟨(name, tensor), List.mem_filter.mpr ⟨hmem, ?_⟩, hname⟩
    rw [hname]
    rfl
  have hnodup : (Part.all.filter fun part => (collect layerTensors part).isSome).Nodup :=
    List.Nodup.filter _ (by decide)
  rw [List.countP_eq_length_filter]
  exact (List.subperm_of_subset hnodup hsub).length_le.trans (List.length_filterMap_le _ _)

/-- The fused tensors that a layer has all parts of. -/
def builtFused (layerTensors : NamedTensors α) : List Fused :=
  Fused.all.filter fun fused => fused.parts.all fun part => (collect layerTensors part).isSome

/-- Two or more parts go into each fused tensor, and each part goes into one. -/
theorem two_mul_length_builtFused_le (layerTensors : NamedTensors α) :
    2 * (builtFused layerTensors).length ≤ (partEntries layerTensors).length := by
  refine Nat.le_trans ?_ (count_collect_le layerTensors)
  have hthree : ∀ a b c : Bool, 2 * (if (a && (b && c)) = true then 1 else 0) ≤
      (if a = true then 1 else 0) + (if b = true then 1 else 0) + if c = true then 1 else 0 := by
    decide
  have htwo : ∀ a b : Bool, 2 * (if (a && b) = true then 1 else 0) ≤
      (if a = true then 1 else 0) + if b = true then 1 else 0 := by
    decide
  unfold builtFused
  generalize collect layerTensors = found
  have hqkvWeight := hthree (found .qWeight).isSome (found .kWeight).isSome (found .vWeight).isSome
  have hgateUpWeight := htwo (found .gateProj).isSome (found .upProj).isSome
  have hqkvBias := hthree (found .qBias).isSome (found .kBias).isSome (found .vBias).isSome
  have hgateUpBias := htwo (found .gateProjBias).isSome (found .upProjBias).isSome
  rw [← List.countP_eq_length_filter]
  simp only [Fused.all, Part.all, Fused.parts, List.countP_cons, List.countP_nil, List.all_cons,
    List.all_nil, Bool.and_true]
  omega

/-! One layer, and all of them -/

/-- A fused tensor is added under its name, and only when all its parts were found. -/
theorem packFused_keys {layerKey : String × Nat} {found : Part → Option (Tensor α)}
    {fused : Fused} (h : packFused layerKey found tensors fused = some out) {name : String}
    (hname : name ∈ out) :
    name ∈ tensors ∨
      (fused.parts.all fun part => (found part).isSome) ∧ name = packedName layerKey fused := by
  unfold packFused at h
  cases hparts : fused.parts.mapM found with
  | none =>
    rw [hparts] at h
    cases h
    exact .inl hname
  | some parts =>
    rw [hparts] at h
    obtain ⟨packed, -, rfl⟩ := Option.map_eq_some_iff.mp h
    rcases Dict.mem_set.mp hname with rfl | hmem
    · refine .inr ⟨List.all_eq_true.mpr fun part hpart => ?_, rfl⟩
      exact isSome_of_mapM hparts hpart
    · exact .inl hmem

/-- What a layer leaves: the names that it took for no part, and the fused ones it built. -/
theorem packLayer_keys {layer : (String × Nat) × NamedTensors α}
    (h : packLayer tensors layer = some out) {name : String} (hname : name ∈ out) :
    (name ∈ tensors ∧ name ∉ (partEntries layer.2).map Prod.fst) ∨
      name ∈ (builtFused layer.2).map (packedName layer.1) := by
  have hfold : ∀ (all : List Fused) (tensors out : TensorDict α),
      all.foldlM (packFused layer.1 (collect layer.2)) tensors = some out → name ∈ out →
      name ∈ tensors ∨ ∃ fused ∈ all,
        (fused.parts.all fun part => (collect layer.2 part).isSome) ∧
          name = packedName layer.1 fused := by
    intro all
    induction all with
    | nil =>
      intro tensors out hrun hmem
      cases hrun
      exact .inl hmem
    | cons fused all ih =>
      intro tensors out hrun hmem
      rw [List.foldlM_cons] at hrun
      obtain ⟨next, hnext, hrest⟩ := Option.bind_eq_some_iff.mp hrun
      rcases ih next out hrest hmem with hin | ⟨f, hf, hbuilt⟩
      · rcases packFused_keys hnext hin with hin | hbuilt
        · exact .inl hin
        · exact .inr ⟨fused, List.mem_cons_self .., hbuilt⟩
      · exact .inr ⟨f, List.mem_cons_of_mem _ hf, hbuilt⟩
  rcases hfold Fused.all _ out h hname with hin | ⟨fused, hmem, hall, rfl⟩
  · exact .inl (mem_deleteParts.mp hin)
  · exact .inr (List.mem_map_of_mem (List.mem_filter.mpr ⟨hmem, hall⟩))

/-- The names that packing leaves or makes, over the layers. -/
theorem packLayers_keys {layers : List ((String × Nat) × NamedTensors α)}
    (h : layers.foldlM packLayer tensors = some out) {name : String} (hname : name ∈ out) :
    (name ∈ tensors ∧ ∀ layer ∈ layers, name ∉ (partEntries layer.2).map Prod.fst) ∨
      name ∈ layers.flatMap fun layer => (builtFused layer.2).map (packedName layer.1) := by
  induction layers generalizing tensors with
  | nil =>
    cases h
    exact .inl ⟨hname, fun _ hmem => absurd hmem List.not_mem_nil⟩
  | cons layer layers ih =>
    rw [List.foldlM_cons] at h
    obtain ⟨next, hnext, hrest⟩ := Option.bind_eq_some_iff.mp h
    rw [List.flatMap_cons, List.mem_append]
    rcases ih hrest with ⟨hin, hnot⟩ | hbuilt
    · rcases packLayer_keys hnext hin with ⟨hin, hne⟩ | hbuilt
      · exact .inl ⟨hin, List.forall_mem_cons.mpr ⟨hne, hnot⟩⟩
      · exact .inr (.inl hbuilt)
    · exact .inr (.inr hbuilt)

/-- Each packing leaves at most half as many tensors that are taken for a part. -/
theorem two_mul_numParts_le (h : packLayers tensors = some out) :
    2 * numParts out ≤ numParts tensors := by
  have hperm := perm_layerToTensors tensors
  have hkeys := fun (name : String) (hname : name ∈ out) => packLayers_keys h hname
  generalize (layerToTensors tensors).items = layers at hperm hkeys
  have hparts : (layers.flatMap fun layer => partEntries layer.2).Perm
      (tensors.items.filter fun e => isPart e.1) := by
    have hfilter := hperm.filter fun e => (Part.of e.1).isSome
    rw [List.filter_flatMap, List.filter_filter] at hfilter
    simpa only [isPart, partEntries, Bool.and_comm] using hfilter
  -- A part that is left has been built: each part that was there went with its layer.
  have hbuilt : (out.keys.filter isPart) ⊆
      layers.flatMap fun layer => (builtFused layer.2).map (packedName layer.1) := by
    intro name hname
    obtain ⟨hmem, hpart⟩ := List.mem_filter.mp hname
    rcases hkeys name hmem with ⟨hin, hnot⟩ | hbuilt
    · obtain ⟨tensor, htensor⟩ := Option.isSome_iff_exists.mp (AList.lookup_isSome.mpr hin)
      have hentry : (name, tensor) ∈ layers.flatMap fun layer => partEntries layer.2 :=
        hparts.mem_iff.mpr (List.mem_filter.mpr ⟨Dict.mem_items.mpr htensor, hpart⟩)
      obtain ⟨layer, hlayer, he⟩ := List.mem_flatMap.mp hentry
      exact absurd (List.mem_map_of_mem he) (hnot layer hlayer)
    · exact hbuilt
  have hcount : numParts out ≤
      (layers.flatMap fun layer => (builtFused layer.2).map (packedName layer.1)).length := by
    rw [numParts, List.countP_eq_length_filter]
    exact (List.subperm_of_subset (out.keys_nodup.filter _) hbuilt).length_le
  have hhalf : ∀ layers : List ((String × Nat) × NamedTensors α),
      2 * (layers.flatMap fun layer => (builtFused layer.2).map (packedName layer.1)).length ≤
        (layers.flatMap fun layer => partEntries layer.2).length := by
    intro layers
    induction layers with
    | nil => exact Nat.le_refl _
    | cons layer layers ih =>
      have hlayer := two_mul_length_builtFused_le layer.2
      simp only [List.flatMap_cons, List.length_append, List.length_map]
      omega
  have hlength : (layers.flatMap fun layer => partEntries layer.2).length = numParts tensors := by
    rw [hparts.length_eq, numParts, ← Dict.map_fst_items, List.countP_map,
      List.countP_eq_length_filter]
    rfl
  have := hhalf layers
  omega

theorem collect_of_no_parts {layerTensors : NamedTensors α}
    (h : ∀ e ∈ layerTensors, Part.of e.1 = none) : collect layerTensors = fun _ => none := by
  induction layerTensors using List.reverseRecOn with
  | nil => rfl
  | append_singleton layerTensors e ih =>
    obtain ⟨hentries, he⟩ := List.forall_mem_append.mp h
    rw [collect_concat, collectEntry, he e (List.mem_singleton_self e)]
    exact ih hentries

theorem deleteParts_of_no_parts {layerTensors : NamedTensors α}
    (h : ∀ e ∈ layerTensors, Part.of e.1 = none) : deleteParts layerTensors tensors = tensors := by
  induction layerTensors with
  | nil => rfl
  | cons e layerTensors ih =>
    obtain ⟨he, hentries⟩ := List.forall_mem_cons.mp h
    rw [deleteParts, List.foldl_cons, he]
    exact ih hentries

/-- With no part among the names of layers there is nothing to pack. -/
theorem packLayers_of_no_parts
    (h : ∀ name ∈ tensors, (getLayerId name).isSome → Part.of name = none) :
    packLayers tensors = some tensors := by
  have hlayers : ∀ layer ∈ (layerToTensors tensors).items, ∀ e ∈ layer.2, Part.of e.1 = none := by
    intro layer hlayer e he
    have hmem : e ∈ (layerToTensors tensors).items.flatMap Prod.snd :=
      List.mem_flatMap.mpr ⟨layer, hlayer, he⟩
    obtain ⟨hitem, hid⟩ := List.mem_filter.mp ((perm_layerToTensors tensors).mem_iff.mp hmem)
    have hname : e.1 ∈ tensors := AList.lookup_isSome.mp (by rw [Dict.mem_items.mp hitem]; rfl)
    exact h e.1 hname hid
  unfold packLayers
  generalize (layerToTensors tensors).items = layers at hlayers
  induction layers with
  | nil => rfl
  | cons layer layers ih =>
    obtain ⟨hlayer, hrest⟩ := List.forall_mem_cons.mp hlayers
    have hsame : packLayer tensors layer = some tensors := by
      rw [packLayer, collect_of_no_parts hlayer, deleteParts_of_no_parts hlayer]
      rfl
    rw [List.foldlM_cons, hsame]
    exact ih hrest

/-- Packing is lossless and idempotent exactly where no tensor of a layer has a name that is
taken for a part, so that nothing is packed. -/
theorem packsLossless_iff : PacksLossless tensors ↔
    ∀ name ∈ tensors, (getLayerId name).isSome → Part.of name = none := by
  constructor
  · rintro ⟨out, hpack, hkept, hagain⟩ name hname hlayer
    have hzero : numParts out = 0 := by
      have := two_mul_numParts_le hagain
      omega
    have hnone : ∀ other ∈ out, isPart other = false := fun other hother =>
      Bool.eq_false_iff.mpr (List.countP_eq_zero.mp hzero other hother)
    by_contra hpart
    obtain ⟨tensor, htensor⟩ := Option.isSome_iff_exists.mp (AList.lookup_isSome.mpr hname)
    rcases hkept name tensor htensor with hsame | ⟨fusedName, packed, hown, hpacked, -⟩
    · have hfalse := hnone name (AList.lookup_isSome.mp (by rw [hsame]; rfl))
      rw [isPart, hlayer, Bool.true_and, Option.isSome_eq_false_iff, Option.isNone_iff_eq_none]
        at hfalse
      exact hpart hfalse
    · have hfalse := hnone fusedName (AList.lookup_isSome.mp (by rw [hpacked]; rfl))
      rw [hown.isPart hlayer] at hfalse
      cases hfalse
  · intro h
    have hsame := packLayers_of_no_parts h
    exact ⟨tensors, hsame, fun name tensor ht => .inl ht, hsame⟩

/-! What packing makes of a layer -/

theorem nodup_layers (tensors : TensorDict α) : (layerToTensors tensors).items.Nodup :=
  List.Nodup.of_map _ (layerToTensors tensors).nodup_items

/-- A layer has the tensors with its key. -/
theorem mem_layer {layer : (String × Nat) × NamedTensors α}
    (hlayer : layer ∈ (layerToTensors tensors).items) {e : String × Tensor α} :
    e ∈ layer.2 ↔ tensors.lookup e.1 = some e.2 ∧ layerKey e.1 = some layer.1 := by
  have hgroup := Dict.getD_groupBy (fun e : String × Tensor α => layerKey e.1) tensors.items layer.1
  have hget : (layerToTensors tensors).getD layer.1 [] = layer.2 := by
    rw [Dict.getD, Dict.mem_items.mp hlayer]
    rfl
  rw [← hget, layerToTensors, hgroup, List.mem_filter, decide_eq_true_iff, Dict.mem_items]

/-- A tensor with a key is in a layer. -/
theorem exists_layer {e : String × Tensor α} {key : String × Nat}
    (he : tensors.lookup e.1 = some e.2) (hkey : layerKey e.1 = some key) :
    ∃ entries, (key, entries) ∈ (layerToTensors tensors).items := by
  have hgroup := Dict.getD_groupBy (fun e : String × Tensor α => layerKey e.1) tensors.items key
  have hmem : e ∈ (layerToTensors tensors).getD key [] := by
    rw [layerToTensors, hgroup, List.mem_filter, decide_eq_true_iff, Dict.mem_items]
    exact ⟨he, hkey⟩
  unfold Dict.getD at hmem
  cases hlookup : (layerToTensors tensors).lookup key with
  | none =>
    rw [hlookup] at hmem
    exact absurd hmem List.not_mem_nil
  | some entries => exact ⟨entries, Dict.mem_items.mpr hlookup⟩

/-- A variable of a layer is set when a tensor is taken for its part. -/
theorem isSome_collect {layerTensors : NamedTensors α} {e : String × Tensor α} {part : Part}
    (he : e ∈ layerTensors) (hpart : Part.of e.1 = some part) :
    (collect layerTensors part).isSome := by
  induction layerTensors using List.reverseRecOn with
  | nil => exact absurd he List.not_mem_nil
  | append_singleton layerTensors last ih =>
    rw [collect_concat, collectEntry]
    rcases List.mem_append.mp he with hmem | hlast
    · cases hof : Part.of last.1 with
      | none => exact ih hmem
      | some p =>
        dsimp only
        by_cases hp : part = p
        · rw [hp, Function.update_self]
          rfl
        · rw [Function.update_of_ne hp]
          exact ih hmem
    · rw [← List.mem_singleton.mp hlast, hpart]
      dsimp only
      rw [Function.update_self]
      rfl

theorem lookup_packFused_of_ne {layerKey : String × Nat} {found : Part → Option (Tensor α)}
    {fused : Fused} (h : packFused layerKey found tensors fused = some out) {name : String}
    (hne : fused.parts.mapM found ≠ none → name ≠ packedName layerKey fused) :
    out.lookup name = tensors.lookup name := by
  unfold packFused at h
  cases hparts : fused.parts.mapM found with
  | none =>
    rw [hparts] at h
    cases h
    rfl
  | some parts =>
    rw [hparts] at h
    obtain ⟨packed, -, rfl⟩ := Option.map_eq_some_iff.mp h
    have hname : name ≠ packedName layerKey fused :=
      hne (by rw [hparts]; exact Option.some_ne_none parts)
    rw [Dict.lookup_set_ite, if_neg hname]

theorem lookup_deleteParts {layerTensors : NamedTensors α} {name : String}
    (hname : name ∉ (partEntries layerTensors).map Prod.fst) :
    (deleteParts layerTensors tensors).lookup name = tensors.lookup name := by
  unfold deleteParts partEntries at *
  induction layerTensors generalizing tensors with
  | nil => rfl
  | cons e layerTensors ih =>
    rw [List.filter_cons] at hname
    rw [List.foldl_cons]
    by_cases h : (Part.of e.1).isSome
    · rw [if_pos h, List.map_cons, List.mem_cons, not_or] at hname
      rw [if_pos h, ih hname.2, Dict.lookup_erase_ite, if_neg hname.1]
    · rw [if_neg h] at hname
      rw [if_neg h, ih hname]

/-- A layer leaves the tensors alone that it takes for no part and builds nothing under. -/
theorem lookup_packLayer_of_ne {layer : (String × Nat) × NamedTensors α}
    (h : packLayer tensors layer = some out) {name : String}
    (hpart : name ∉ (partEntries layer.2).map Prod.fst)
    (hne : ∀ fused : Fused, fused.parts.mapM (collect layer.2) ≠ none →
      name ≠ packedName layer.1 fused) :
    out.lookup name = tensors.lookup name := by
  refine (foldlM_induction (fun T : TensorDict α => T.lookup name = tensors.lookup name) h
    (lookup_deleteParts hpart) ?_)
  intro fused _ before after hbefore hstep
  rw [lookup_packFused_of_ne hstep (hne fused), hbefore]

/-- A fused tensor is what `torch.cat` makes of its parts, where nothing else has its name. -/
theorem lookup_packLayers {layer : (String × Nat) × NamedTensors α} {fused : Fused}
    {parts : List (Tensor α)} (h : packLayers tensors = some out)
    (hlayer : layer ∈ (layerToTensors tensors).items)
    (hparts : fused.parts.mapM (collect layer.2) = some parts)
    (hkept : ∀ other ∈ (layerToTensors tensors).items,
      packedName layer.1 fused ∉ (partEntries other.2).map Prod.fst)
    (hunique : ∀ other ∈ (layerToTensors tensors).items, ∀ f : Fused,
      f.parts.mapM (collect other.2) ≠ none → packedName layer.1 fused = packedName other.1 f →
        other = layer ∧ f = fused) :
    ∃ packed, Tensor.cat parts = some packed ∧
      out.lookup (packedName layer.1 fused) = some packed := by
  have hnodup := nodup_layers tensors
  unfold packLayers at h
  generalize (layerToTensors tensors).items = layers at h hlayer hkept hunique hnodup
  obtain ⟨l, m, rfl⟩ := List.append_of_mem hlayer
  obtain ⟨t, u, -, hstep, hrest⟩ := foldlM_split h
  have hlater : out.lookup (packedName layer.1 fused) = u.lookup (packedName layer.1 fused) := by
    refine foldlM_induction (fun T : TensorDict α =>
      T.lookup (packedName layer.1 fused) = u.lookup (packedName layer.1 fused)) hrest rfl ?_
    intro other hother before after hbefore hpack
    have hmem : other ∈ l ++ layer :: m :=
      List.mem_append_right l (List.mem_cons_of_mem layer hother)
    rw [lookup_packLayer_of_ne hpack (hkept other hmem), hbefore]
    intro f hf hname
    obtain ⟨rfl, -⟩ := hunique other hmem f hf hname
    exact (List.nodup_cons.mp (List.nodup_append.mp hnodup).2.1).1 hother
  rw [hlater]
  unfold packLayer at hstep
  obtain ⟨l', m', hall⟩ := List.append_of_mem fused.mem_all
  have hnodupAll : Fused.all.Nodup := by decide
  rw [hall] at hstep hnodupAll
  obtain ⟨t', u', -, hbuild, hrest'⟩ := foldlM_split hstep
  have hlater' : u.lookup (packedName layer.1 fused) = u'.lookup (packedName layer.1 fused) := by
    refine foldlM_induction (fun T : TensorDict α =>
      T.lookup (packedName layer.1 fused) = u'.lookup (packedName layer.1 fused)) hrest' rfl ?_
    intro f hf before after hbefore hpack
    rw [lookup_packFused_of_ne hpack, hbefore]
    intro hsome hname
    obtain ⟨-, rfl⟩ := hunique layer hlayer f hsome hname
    exact (List.nodup_cons.mp (List.nodup_append.mp hnodupAll).2.1).1 hf
  rw [hlater']
  unfold packFused at hbuild
  rw [hparts] at hbuild
  obtain ⟨packed, hpacked, rfl⟩ := Option.map_eq_some_iff.mp hbuild
  exact ⟨packed, hpacked, by rw [Dict.lookup_set_ite, if_pos rfl]⟩

/-- Packing raises only where the parts of a fused tensor do not go together. -/
theorem exists_packLayers (h : ∀ layer ∈ (layerToTensors tensors).items, ∀ fused : Fused, ∀ parts,
    fused.parts.mapM (collect layer.2) = some parts → (Tensor.cat parts).isSome) :
    ∃ out, packLayers tensors = some out := by
  refine exists_foldlM (fun layer hlayer T => ?_) tensors
  refine exists_foldlM (fun fused _ T => ?_) _
  unfold packFused
  cases hparts : fused.parts.mapM (collect layer.2) with
  | none => exact ⟨T, rfl⟩
  | some parts =>
    obtain ⟨packed, hpacked⟩ := Option.isSome_iff_exists.mp (h layer hlayer fused parts hparts)
    exact ⟨_, by dsimp only; rw [hpacked]; rfl⟩

/-- A tensor is there before packing or is built by it. -/
def Origin (tensors : TensorDict α) (name : String) (tensor : Tensor α) : Prop :=
  tensors.lookup name = some tensor ∨
    ∃ layer ∈ (layerToTensors tensors).items, ∃ (fused : Fused) (parts : List (Tensor α)),
      fused.parts.mapM (collect layer.2) = some parts ∧ Tensor.cat parts = some tensor ∧
        name = packedName layer.1 fused

theorem origin_of_packLayers (h : packLayers tensors = some out) {name : String}
    {tensor : Tensor α} (hname : out.lookup name = some tensor) : Origin tensors name tensor := by
  refine foldlM_induction (fun T : TensorDict α => ∀ name tensor, T.lookup name = some tensor →
    Origin tensors name tensor) h (fun _ _ h => .inl h) ?_ name tensor hname
  intro layer hlayer before after hbefore hpack
  refine foldlM_induction (fun T : TensorDict α => ∀ name tensor, T.lookup name = some tensor →
    Origin tensors name tensor) hpack ?_ ?_
  · intro name tensor hname
    have hmem : name ∈ deleteParts layer.2 before := AList.lookup_isSome.mp (by rw [hname]; rfl)
    rw [lookup_deleteParts (mem_deleteParts.mp hmem).2] at hname
    exact hbefore name tensor hname
  · intro fused _ T T' hT hstep name tensor hname
    unfold packFused at hstep
    cases hparts : fused.parts.mapM (collect layer.2) with
    | none =>
      rw [hparts] at hstep
      cases hstep
      exact hT name tensor hname
    | some parts =>
      rw [hparts] at hstep
      obtain ⟨packed, hpacked, rfl⟩ := Option.map_eq_some_iff.mp hstep
      rw [Dict.lookup_set_ite] at hname
      split_ifs at hname with hsame
      · cases hname
        exact .inr ⟨layer, hlayer, fused, parts, hparts, hpacked, hsame⟩
      · exact hT name tensor hname

/-- A checkpoint with one tensor, which is fused already. -/
def fusedCheckpoint : TensorDict Nat :=
  Dict.set ∅ "model.layers.0.self_attn.qkv_proj.weight" ⟨[1], [7], rfl⟩

/-- Packing takes the fused tensor for a V projection and deletes it. -/
theorem not_packsLossless_fusedCheckpoint : ¬PacksLossless fusedCheckpoint := by
  have hpack : packLayers fusedCheckpoint = some ∅ := by rfl
  rintro ⟨out, hout, hkept, -⟩
  obtain rfl : ∅ = out := Option.some.inj (hpack.symm.trans hout)
  rcases hkept "model.layers.0.self_attn.qkv_proj.weight" ⟨[1], [7], rfl⟩ rfl with
    h | ⟨fusedName, packed, -, h, -⟩
  · cases h
  · cases h

end Belayer.Weights
