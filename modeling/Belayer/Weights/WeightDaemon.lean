import Belayer.Weights.Reshard

namespace Belayer.Weights

open Belayer.Framework

variable {α H : Type}

/-! The server. An IPC handle is what `reduce_tensor` makes of a tensor. -/

/-- `PersistentParameterServer`, started. -/
structure PersistentParameterServer (α H : Type) where
  weightsList : List (TensorDict α)
  tensorHandles : List (Dict String H)

/-- The handles of one rank's tensors; `none` where `reduce_tensor` raises. -/
def prepareHandles (reduceTensor : Tensor α → Option H) (tensors : TensorDict α) :
    Option (Dict String H) :=
  tensors.items.foldlM (fun handles e => (reduceTensor e.2).map (handles.set e.1)) ∅

/-- `_prepare_all_handles` over the shards. -/
def startServer (reduceTensor : Tensor α → Option H) (weightsList : List (TensorDict α)) :
    Option (PersistentParameterServer α H) :=
  (weightsList.mapM (prepareHandles reduceTensor)).map fun tensorHandles =>
    { weightsList, tensorHandles }

inductive DaemonRequest where
  | getIpcHandle (name : Option String) (rank : Int)
  | getInfo (name : Option String) (rank : Int)
  | list (rank : Int)
  | getAllHandles (rank : Int)
  | shutdown
  | other (command : String)

/-- What a client is told about a tensor. -/
structure TensorInfo where
  name : String
  shape : List Nat

inductive DaemonResponse (H : Type) where
  | error (message : String)
  | ipcHandle (handle : H) (info : Option TensorInfo)
  | info (info : TensorInfo)
  | tensors (names : List String)
  | allHandles (handles : Dict String H) (info : List (String × Option TensorInfo)) (rank : Int)
  | stopping (message : String)

namespace PersistentParameterServer

/-- An element of a list that a request's rank is in the range of. -/
def atRank {β : Type} (l : List β) (rank : Int) : Option β :=
  if rank < 0 ∨ (l.length : Int) ≤ rank then none else l[rank.toNat]?

/-- `get_tensor_info`. -/
def getTensorInfo (server : PersistentParameterServer α H) (name : String) (rank : Int) :
    Option TensorInfo := do
  let tensor ← (← atRank server.weightsList rank).lookup name
  return { name, shape := tensor.shape }

/-- `_handle_request`. -/
def handleRequest (server : PersistentParameterServer α H) : DaemonRequest → DaemonResponse H
  | .getIpcHandle none _ | .getInfo none _ => .error "Missing name"
  | .getIpcHandle (some name) rank =>
    match (atRank server.tensorHandles rank).bind (·.lookup name) with
    | none => .error s!"Tensor '{name}' not found in rank {rank}"
    | some handle => .ipcHandle handle (server.getTensorInfo name rank)
  | .getInfo (some name) rank =>
    match server.getTensorInfo name rank with
    | none => .error s!"Tensor '{name}' not found"
    | some info => .info info
  | .list rank => .tensors ((atRank server.weightsList rank).elim [] fun weights => weights.keys)
  | .getAllHandles rank =>
    match atRank server.tensorHandles rank with
    | none =>
      .error s!"Invalid rank {rank}. Must be in range [0, {server.tensorHandles.length})"
    | some handles =>
      .allHandles handles (handles.keys.map fun name => (name, server.getTensorInfo name rank)) rank
  | .shutdown => .stopping "Shutting down server"
  | .other command => .error s!"Unknown command: {command}"

end PersistentParameterServer

/-! The loader of the engine -/

/-- The lists that the loop over the handles fills; a parameter that is not among the loaded
ones is as the model was initialized. -/
structure LoadState (α : Type) where
  loaded : TensorDict α := ∅
  skippedErrors : List String := []
  unknownHandleNames : List String := []

section Loader

variable (rebuild : String → H → Option (Tensor α)) (accepts : String → Tensor α → Bool)

/-- One turn of the loop: `rebuild` is the call of a handle's function, and `accepts` says that
`set_model_parameter` does not raise. -/
def applyHandle (expectedParams : List String) (s : LoadState α) (e : String × H) : LoadState α :=
  if e.1 ∉ expectedParams then { s with unknownHandleNames := s.unknownHandleNames ++ [e.1] }
  else
    match (rebuild e.1 e.2).filter (accepts e.1) with
    | none => { s with skippedErrors := s.skippedErrors ++ [e.1] }
    | some tensor => { s with loaded := s.loaded.set e.1 tensor }

/-- `initialize_weights_from_handles` on the daemon's response: the parameters it replaces, or
`none` where it raises. -/
def initializeWeightsFromHandles (strict : Bool) (expectedParams : List String)
    (response : DaemonResponse H) : Option (TensorDict α) :=
  match response with
  | .error _ => none
  | .allHandles handles _ _ =>
    let s := handles.items.foldl (applyHandle rebuild accepts expectedParams) {}
    let missingParams := expectedParams.filter fun name => (s.loaded.lookup name).isNone
    if strict && (!s.skippedErrors.isEmpty || !missingParams.isEmpty) then none else some s.loaded
  | _ =>
    if strict && !expectedParams.isEmpty then none else some ∅

/-- What a worker's parameters become: it asks for the handles of its tensor-parallel rank. -/
def loadWorker (strict : Bool) (expectedParams : List String)
    (server : PersistentParameterServer α H) (tpRank : Nat) : Option (TensorDict α) :=
  initializeWeightsFromHandles rebuild accepts strict expectedParams
    (server.handleRequest (.getAllHandles tpRank))

end Loader

/-! What the loaded parameters are -/

variable {reduceTensor : Tensor α → Option H} {rebuild : String → H → Option (Tensor α)}
  {accepts : String → Tensor α → Bool} {expectedParams : List String} {strict : Bool}

/-- A handle is made of the tensor with its name. -/
theorem exists_of_prepareHandles {tensors : TensorDict α} {handles : Dict String H}
    (h : prepareHandles reduceTensor tensors = some handles) {name : String} {handle : H}
    (hname : handles.lookup name = some handle) :
    ∃ tensor, tensors.lookup name = some tensor ∧ reduceTensor tensor = some handle := by
  refine foldlM_induction (fun handles => ∀ name handle, handles.lookup name = some handle →
    ∃ tensor, tensors.lookup name = some tensor ∧ reduceTensor tensor = some handle)
    h ?_ ?_ name handle hname
  · intro name handle hempty
    cases hempty
  · intro e he before after hbefore hstep other made hmade
    obtain ⟨made', hreduce, rfl⟩ := Option.map_eq_some_iff.mp hstep
    rw [Dict.lookup_set_ite] at hmade
    split_ifs at hmade with hother
    · cases hmade
      exact ⟨e.2, by rw [hother, Dict.mem_items.mp he], hreduce⟩
    · exact hbefore other made hmade

/-- A loaded parameter is one of the model's, and its handle was rebuilt. -/
theorem exists_of_loaded {handles : Dict String H} {name : String} {tensor : Tensor α}
    (h : (handles.items.foldl (applyHandle rebuild accepts expectedParams) {}).loaded.lookup name =
      some tensor) :
    ∃ handle, handles.lookup name = some handle ∧ rebuild name handle = some tensor := by
  have hfold : ∀ (items : List (String × H)) (s : LoadState α),
      (items.foldl (applyHandle rebuild accepts expectedParams) s).loaded.lookup name =
        some tensor →
      s.loaded.lookup name = some tensor ∨
        ∃ handle, (name, handle) ∈ items ∧ rebuild name handle = some tensor := by
    intro items
    induction items with
    | nil => exact fun s hs => .inl hs
    | cons e items ih =>
      intro s hs
      rcases ih _ hs with hstep | ⟨handle, hmem, hrebuild⟩
      · unfold applyHandle at hstep
        by_cases hunknown : e.1 ∉ expectedParams
        · rw [if_pos hunknown] at hstep
          exact .inl hstep
        · rw [if_neg hunknown] at hstep
          cases happly : (rebuild e.1 e.2).filter (accepts e.1) with
          | none =>
            rw [happly] at hstep
            exact .inl hstep
          | some made =>
            rw [happly] at hstep
            dsimp only at hstep
            rw [Dict.lookup_set_ite] at hstep
            split_ifs at hstep with hname
            · cases hstep
              subst hname
              exact .inr ⟨e.2, List.mem_cons_self .., (Option.filter_eq_some_iff.mp happly).1⟩
            · exact .inl hstep
      · exact .inr ⟨handle, List.mem_cons_of_mem _ hmem, hrebuild⟩
  rcases hfold handles.items {} h with hempty | ⟨handle, hmem, hrebuild⟩
  · cases hempty
  · exact ⟨handle, Dict.mem_items.mp hmem, hrebuild⟩

/-- A load that does not raise goes through the handles of its rank; in strict mode it leaves
no parameter as it was. -/
theorem handles_of_loadWorker {server : PersistentParameterServer α H} {r : Nat}
    {loaded : TensorDict α}
    (h : loadWorker rebuild accepts strict expectedParams server r = some loaded) :
    ∃ handles, server.tensorHandles[r]? = some handles ∧
      loaded = (handles.items.foldl (applyHandle rebuild accepts expectedParams) {}).loaded ∧
      (strict = true → ∀ name ∈ expectedParams, (loaded.lookup name).isSome) := by
  unfold loadWorker PersistentParameterServer.handleRequest at h
  cases hrank : PersistentParameterServer.atRank server.tensorHandles r with
  | none =>
    simp only [hrank, initializeWeightsFromHandles] at h
    cases h
  | some handles =>
    simp only [hrank, initializeWeightsFromHandles] at h
    split_ifs at h with hfail
    cases h
    unfold PersistentParameterServer.atRank at hrank
    split_ifs at hrank with hrange
    refine ⟨handles, hrank, rfl, fun hstrict name hname => ?_⟩
    subst hstrict
    simp only [Bool.true_and, Bool.or_eq_true, Bool.not_eq_true', not_or, Bool.not_eq_false,
      List.isEmpty_iff] at hfail
    have hmissing := List.filter_eq_nil_iff.mp hfail.2 name hname
    rwa [Bool.not_eq_true, Option.isNone_eq_false_iff] at hmissing

/-- What a worker loads is in the shard of the first pipeline rank. -/
theorem lookup_of_loadWorker {sharded : List (TensorDict α)} {tp r : Nat}
    {server : PersistentParameterServer α H} {loaded : TensorDict α}
    (hipc : ∀ tensor handle name rebuilt, reduceTensor tensor = some handle →
      rebuild name handle = some rebuilt → rebuilt = tensor)
    (hserver : startServer reduceTensor sharded = some server)
    (h : loadWorker rebuild accepts strict expectedParams server r = some loaded) {name : String}
    {tensor : Tensor α} (hname : loaded.lookup name = some tensor) :
    (shardOf sharded tp 0 r).lookup name = some tensor := by
  obtain ⟨tensorHandles, hhandles, rfl⟩ := Option.map_eq_some_iff.mp hserver
  obtain ⟨handles, hrank, rfl, -⟩ := handles_of_loadWorker h
  obtain ⟨handle, hhandle, hrebuild⟩ := exists_of_loaded hname
  have hprepared : (sharded[r]?).map (prepareHandles reduceTensor) = some (some handles) := by
    rw [← List.getElem?_map, mapM_eq_some_iff.mp hhandles, List.getElem?_map, hrank]
    rfl
  obtain ⟨tensors, htensors, hprepare⟩ := Option.map_eq_some_iff.mp hprepared
  obtain ⟨made, hmade, hreduce⟩ := exists_of_prepareHandles hprepare hhandle
  rw [shardOf, Nat.zero_mul, Nat.zero_add, List.getD_eq_getElem?_getD, htensors, Option.getD_some,
    hmade, hipc made handle name tensor hreduce hrebuild]

/-! The layers of a stage -/

/-- The layer parameters of a worker's model are those that the engine builds for its
pipeline rank. -/
def StageParams (numLayers ppRank ppSize : Nat) (expectedParams : List String) : Prop :=
  ∀ name ∈ expectedParams, ∀ layer, getLayerId name = some layer →
    ∃ range ∈ getPpIndices none numLayers ppRank ppSize,
      range.1 ≤ (layer : Int) ∧ (layer : Int) < range.2

/-- The number of layers that the weight server cuts into stages. -/
def serverNumLayers (lower : String → String) (str : Json → String) (weights : TensorDict α)
    (modelConfig : Option Json) : Option Int := do
  number (← prepareWeights lower str weights modelConfig).2.numLayers

/-- A later stage of the engine has no layer of the server's first stage. -/
theorem zero_not_mem_targetPpRanks {numLayers p pp layer : Nat} {name : String}
    (hp : 0 < p) (hlt : p < pp) (hlayer : getLayerId name = some layer)
    (hrange : ∃ range ∈ getPpIndices none numLayers p pp,
      range.1 ≤ (layer : Int) ∧ (layer : Int) < range.2) :
    0 ∉ targetPpRanks (computePpBoundaries numLayers pp) name := by
  intro hmem
  have hrank : 1 < pp := Nat.lt_of_le_of_lt hp hlt
  obtain ⟨-, hfirst⟩ := layer_of_targetPpRanks hlayer hmem (Nat.zero_lt_of_lt hrank)
  rw [ppStart, if_pos hrank] at hfirst
  obtain ⟨range, hindices, hstart, -⟩ := hrange
  have hle := le_of_getPpIndices hp hindices
  push_cast at hfirst hle
  omega

/-- Every parameter is the tensor of the worker's own shard. -/
def OwnShard (sharded : List (TensorDict α)) (tp p r : Nat) (expectedParams : List String)
    (loaded : TensorDict α) : Prop :=
  ∀ name ∈ expectedParams, ∃ tensor, (shardOf sharded tp p r).lookup name = some tensor ∧
    loaded.lookup name = some tensor

/-- What the first pipeline rank has of a worker's parameters, the worker's own shard has. -/
theorem lookup_of_first {lower : String → String} {str : Json → String} {weights : TensorDict α}
    {modelConfig : Option Json} {tp pp p r : Nat} {sharded : List (TensorDict α)}
    (hsharded : reshardWeights lower str weights tp pp modelConfig = some sharded)
    (hp : p < pp) (hr : r < tp)
    (hstage : 0 < p → ∃ numLayers : Nat,
      serverNumLayers lower str weights modelConfig = some (numLayers : Int) ∧
        StageParams numLayers p pp expectedParams) {name : String}
    (hname : name ∈ expectedParams) {tensor : Tensor α}
    (hfirst : (shardOf sharded tp 0 r).lookup name = some tensor) :
    (shardOf sharded tp p r).lookup name = some tensor := by
  rcases Nat.eq_zero_or_pos p with rfl | hpos
  · exact hfirst
  · obtain ⟨numLayers, hlayers, hstage⟩ := hstage hpos
    obtain ⟨⟨packed, config⟩, hprepare, hshard⟩ := Option.bind_eq_some_iff.mp hsharded
    have hranks : ¬(tp = 1 ∧ pp = 1) := fun h => by omega
    obtain ⟨numLayers', hnumber, -, hspec⟩ := shardWeights_spec hranks hshard
    have hsame : numLayers' = numLayers := by
      rw [serverNumLayers, hprepare] at hlayers
      exact Option.some.inj (hnumber.symm.trans hlayers)
    subst hsame
    rw [hspec 0 (hpos.trans hp) r hr name] at hfirst
    rw [hspec p hp r hr name]
    split_ifs at hfirst with hzero
    cases hid : getLayerId name with
    | none =>
      have hmem : p ∈ targetPpRanks (computePpBoundaries numLayers pp) name := by
        rw [mem_targetPpRanks_of_none hid, length_computePpBoundaries]
        exact hp
      rw [if_pos hmem]
      exact hfirst
    | some layer =>
      exact absurd hzero (zero_not_mem_targetPpRanks hpos hp hid (hstage name hname layer hid))

/-- A model of one parameter, which every stage has. -/
def oneWeight : TensorDict Nat := Dict.set ∅ "lm_head.weight" ⟨[1], [5], rfl⟩

end Belayer.Weights
