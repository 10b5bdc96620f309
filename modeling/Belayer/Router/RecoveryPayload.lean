import Belayer.Router.WorkerStream

namespace Belayer.Router

open Belayer.Framework

/-- How a worker reads a prompt: its tokenizer, and whether it refuses a request with both a
text and ids. If it does not, the ids are its prompt. -/
structure PromptReader where
  tokenize : String → List Int
  refusesBoth : Bool

/-- A list of ids. -/
def toInts : List Json → Option (List Int)
  | [] => some []
  | .int n :: xs => (toInts xs).map (n :: ·)
  | _ => none

/-- The prompt of a request; `none` where the worker refuses it. -/
def PromptReader.prompt (w : PromptReader) (payload : JsonObject) : Option (List Int) :=
  match payload.getNotNone "text", payload.getNotNone "input_ids" with
  | some (.str text), none => some (w.tokenize text)
  | none, some (.arr ids) => if ids = [] then none else toInts ids
  | some (.str _), some (.arr ids) => if w.refusesBoth then none else toInts ids
  | _, _ => none

/-- A request that the worker accepts, with its prompt and its sampling parameters; the cap, if
there is one, is a number of tokens. -/
structure IsGeneratePayload (w : PromptReader) (payload : JsonObject) (prompt : List Int)
    (params : JsonObject) : Prop where
  seen : w.prompt payload = some prompt
  dict : Json.toDict (payload.get "sampling_params") = .ok params
  cap : ∀ v, params.getNotNone "max_new_tokens" = some v → ∃ n : Nat, v = .int n

/-- The request asks for what follows the retained ids of another one. -/
structure AsksForRest (cfg : GenerateConfig) (w : PromptReader) (payload : JsonObject)
    (generated : List Int) (recovery : JsonObject) : Prop where
  seen : ∀ prompt, w.prompt payload = some prompt → w.prompt recovery = some (prompt ++ generated)
  sampling : ∀ params : JsonObject, Json.toDict (payload.get "sampling_params") = .ok params →
    ∃ params' : JsonObject, recovery.get "sampling_params" = some (.obj params') ∧
      (∀ key ≠ "max_new_tokens", params'.get key = params.get key) ∧
      (params.getNotNone "max_new_tokens" = none → params'.getNotNone "max_new_tokens" = none) ∧
      ∀ n : Nat, params.getNotNone "max_new_tokens" = some (.int n) →
        params'.getNotNone "max_new_tokens" = some (.int (n - generated.length : Nat))
  again : ∀ more, buildGenerateRecoveryPayload cfg recovery more =
    buildGenerateRecoveryPayload cfg payload (generated ++ more)

/-- Recovery preserves the prompt of a request. -/
def RecoversPrompt (cfg : GenerateConfig) (w : PromptReader) (payload : JsonObject)
    (generated : List Int) : Prop :=
  ∃ recovery, buildGenerateRecoveryPayload cfg payload generated = .ok recovery ∧
    AsksForRest cfg w payload generated recovery

variable {cfg : GenerateConfig} {w : PromptReader} {payload params : JsonObject}
  {prompt generated : List Int}

theorem toInts_eq_some_iff {xs : List Json} {ids : List Int} :
    toInts xs = some ids ↔ xs = ids.map .int := by
  induction xs generalizing ids with
  | nil => cases ids <;> simp [toInts]
  | cons x xs ih =>
    cases x with
    | int n =>
      rw [toInts, Option.map_eq_some_iff]
      constructor
      · rintro ⟨ids', h, rfl⟩
        rw [ih.mp h]
        rfl
      · intro h
        cases ids with
        | nil => cases h
        | cons n' ids =>
          obtain ⟨hn, hxs⟩ := List.cons.inj h
          cases hn
          exact ⟨ids, ih.mpr hxs, rfl⟩
    | _ =>
      refine iff_of_false (by simp [toInts]) fun h => ?_
      cases ids <;> cases h

theorem get_of_getNotNone {o : JsonObject} {k : String} {v : Json} (h : o.getNotNone k = some v) :
    o.get k = some v := by
  unfold JsonObject.getNotNone at h
  split at h
  · cases h
  · cases h
  · rename_i hget
    rw [hget]
    exact h

/-- The ids that a request starts from: those that it gives, or none. -/
theorem toList_inputIds (h : w.prompt payload = some prompt) :
    ∃ ids : List Int, Json.toList (payload.get "input_ids") = .ok (ids.map .int) ∧
      (payload.getNotNone "input_ids" = some (.arr (ids.map .int)) ∧ ids = prompt ∨
        payload.getNotNone "input_ids" = none ∧ ids = []) := by
  have hids : ∀ ids : List Json, payload.getNotNone "input_ids" = some (.arr ids) →
      toInts ids = some prompt → Json.toList (payload.get "input_ids") = .ok (prompt.map .int) ∧
        payload.getNotNone "input_ids" = some (.arr (prompt.map .int)) := by
    intro ids hget hints
    obtain rfl := toInts_eq_some_iff.mp hints
    rw [get_of_getNotNone hget]
    exact ⟨toList_int prompt, hget⟩
  have hnone : payload.getNotNone "input_ids" = none →
      Json.toList (payload.get "input_ids") = .ok [] := by
    intro hget
    unfold JsonObject.getNotNone at hget
    split at hget
    · rename_i h
      rw [h]
      rfl
    · rename_i h
      rw [h]
      rfl
    · cases hget
  unfold PromptReader.prompt at h
  split at h
  · rename_i hget
    exact ⟨[], hnone hget, .inr ⟨hget, rfl⟩⟩
  · rename_i ids _ hget
    split_ifs at h
    exact ⟨prompt, (hids ids hget h).1, .inl ⟨(hids ids hget h).2, rfl⟩⟩
  · rename_i text ids _ hget
    split_ifs at h
    exact ⟨prompt, (hids ids hget h).1, .inl ⟨(hids ids hget h).2, rfl⟩⟩
  · cases h

/-- The request that is built from the ids and the parameters. -/
theorem buildGenerateRecoveryPayload_eq (cfg : GenerateConfig) {ids : List Int}
    {params' : JsonObject} (hids : Json.toList (payload.get "input_ids") = .ok (ids.map .int))
    (hparams : Json.toDict (payload.get "sampling_params") = .ok params)
    (hreduce : reduceMaxNewTokens cfg params generated.length = .ok params') :
    buildGenerateRecoveryPayload cfg payload generated =
      .ok (((payload.set "stream" (.bool true)).set "input_ids"
        (.arr ((ids ++ if cfg.disableTokenLevelRecovery then [] else generated).map .int))).set
        "sampling_params" (.obj params')) := by
  have hget : (payload.set "stream" (.bool true)).get "input_ids" = payload.get "input_ids" :=
    JsonObject.get_set_other _ _ (by decide)
  have hsampling (v : Json) : ((payload.set "stream" (.bool true)).set "input_ids" v).get
      "sampling_params" = payload.get "sampling_params" := by
    rw [JsonObject.get_set_other _ _ (by decide), JsonObject.get_set_other _ _ (by decide)]
  have hmap : (if cfg.disableTokenLevelRecovery then [] else generated.map Json.int) =
      (if cfg.disableTokenLevelRecovery then [] else generated).map .int := by
    split_ifs <;> rfl
  simp only [buildGenerateRecoveryPayload, hget, hids, hsampling, hparams, hreduce, hmap,
    List.map_append, bind, Except.bind, pure, Except.pure]

/-- The parameters with the cap reduced. -/
theorem reduceMaxNewTokens_spec (cfg : GenerateConfig)
    (hcap : ∀ v, params.getNotNone "max_new_tokens" = some v → ∃ n : Nat, v = .int n) (k : Nat) :
    ∃ params' : JsonObject, reduceMaxNewTokens cfg params k = .ok params' ∧
      (∀ m, reduceMaxNewTokens cfg params' m = reduceMaxNewTokens cfg params (k + m)) ∧
      ((cfg.disableTokenLevelRecovery = true → k = 0) →
        (∀ key ≠ "max_new_tokens", params'.get key = params.get key) ∧
        (params.getNotNone "max_new_tokens" = none → params'.getNotNone "max_new_tokens" = none) ∧
        ∀ n : Nat, params.getNotNone "max_new_tokens" = some (.int n) →
          params'.getNotNone "max_new_tokens" = some (.int (n - k : Nat))) := by
  cases hget : params.getNotNone "max_new_tokens" with
  | none =>
    refine ⟨params, by simp [reduceMaxNewTokens, hget], fun m => by simp [reduceMaxNewTokens, hget],
      fun _ => ⟨fun _ _ => rfl, fun _ => hget, fun n h => by cases h⟩⟩
  | some v =>
    obtain ⟨n, rfl⟩ := hcap v hget
    by_cases hdis : cfg.disableTokenLevelRecovery = true
    · refine ⟨params, by simp [reduceMaxNewTokens, hget, hdis],
        fun m => by simp [reduceMaxNewTokens, hget, hdis], fun hk => ⟨fun _ _ => rfl, ?_, ?_⟩⟩
      · intro h
        cases h
      · intro n' h
        cases h
        rw [hget, hk hdis, Nat.sub_zero]
    · have hcapped (o : JsonObject) (m : Int) :
          (o.set "max_new_tokens" (.int m)).getNotNone "max_new_tokens" = some (.int m) := by
        simp [JsonObject.getNotNone]
      have hreduce (o : JsonObject) (n k : Nat)
          (ho : o.getNotNone "max_new_tokens" = some (.int n)) :
          reduceMaxNewTokens cfg o k = .ok (o.set "max_new_tokens" (.int (n - k : Nat))) := by
        have hrest : max 0 ((n : Int) - k) = ((n - k : Nat) : Int) := by omega
        simp [reduceMaxNewTokens, ho, hdis, Json.toInt, Except.map, hrest]
      refine ⟨_, hreduce params n k hget, fun m => ?_, fun _ => ⟨fun key hkey => ?_, fun h => ?_,
        fun n' h => ?_⟩⟩
      · rw [hreduce _ (n - k) m (hcapped _ _), hreduce params n (k + m) hget, JsonObject.set_set,
          Nat.sub_sub]
      · exact JsonObject.get_set_other _ _ hkey
      · cases h
      · cases h
        exact hcapped _ _

/-- The keys that a recovery sets are there already, so setting them again replaces them. -/
theorem set_again (payload : JsonObject) (b a a' p p' : Json) :
    (((((payload.set "stream" b).set "input_ids" a).set "sampling_params" p).set "stream" b).set
      "input_ids" a').set "sampling_params" p' =
    ((payload.set "stream" b).set "input_ids" a').set "sampling_params" p' := by
  have hstream : (((payload.set "stream" b).set "input_ids" a).get "stream").isSome := by
    rw [JsonObject.get_set_other _ _ (by decide), JsonObject.get_set_same]
    rfl
  have hstream' : ((payload.set "stream" b).get "stream").isSome := by
    rw [JsonObject.get_set_same]
    rfl
  have hids : (((payload.set "stream" b).set "input_ids" a).get "input_ids").isSome := by
    rw [JsonObject.get_set_same]
    rfl
  rw [JsonObject.set_comm _ (by decide) hstream, JsonObject.set_comm _ (by decide) hstream',
    JsonObject.set_set, JsonObject.set_comm _ (by decide) hids, JsonObject.set_set,
    JsonObject.set_set]

theorem getNotNone_set_ite (o : JsonObject) (k k' : String) (v : Json) (hv : v ≠ .null) :
    (o.set k v).getNotNone k' = if k' = k then some v else o.getNotNone k' := by
  unfold JsonObject.getNotNone
  rw [JsonObject.get_set_ite]
  split_ifs with h
  · cases v with
    | null => exact absurd rfl hv
    | _ => rfl
  · rfl

/-- What a worker makes of the request that is built. -/
theorem prompt_recovery (w : PromptReader) (payload : JsonObject) (ids : List Int) (p : JsonObject) :
    let recovery := ((payload.set "stream" (.bool true)).set "input_ids"
      (.arr (ids.map .int))).set "sampling_params" (.obj p)
    (payload.getNotNone "text" = none →
      w.prompt recovery = if ids = [] then none else some ids) ∧
    ∀ text, payload.getNotNone "text" = some (.str text) →
      w.prompt recovery = if w.refusesBoth then none else some ids := by
  intro recovery
  have htext : recovery.getNotNone "text" = payload.getNotNone "text" := by
    rw [getNotNone_set_ite _ _ _ _ (by simp), getNotNone_set_ite _ _ _ _ (by simp),
      getNotNone_set_ite _ _ _ _ (by simp)]
    simp
  have hids : recovery.getNotNone "input_ids" = some (.arr (ids.map .int)) := by
    rw [getNotNone_set_ite _ _ _ _ (by simp), getNotNone_set_ite _ _ _ _ (by simp)]
    simp
  have hints : toInts (ids.map .int) = some ids := toInts_eq_some_iff.mpr rfl
  rw [PromptReader.prompt, htext, hids]
  constructor
  · intro h
    simp [h, hints]
  · intro text h
    simp [h, hints]

theorem toDict_obj (params : JsonObject) : Json.toDict (some (.obj params)) = .ok params := by
  cases params <;> rfl

/-- The ways in which a request gives its prompt. -/
theorem prompt_cases (h : w.prompt payload = some prompt) :
    payload.getNotNone "input_ids" = some (.arr (prompt.map .int)) ∧
      (payload.getNotNone "text" = none ∧ prompt ≠ [] ∨
        w.refusesBoth = false ∧ ∃ text, payload.getNotNone "text" = some (.str text)) ∨
    payload.getNotNone "input_ids" = none ∧
      ∃ text, payload.getNotNone "text" = some (.str text) := by
  unfold PromptReader.prompt at h
  split at h
  · rename_i text htext hids
    exact .inr ⟨hids, text, htext⟩
  · rename_i ids htext hids
    split_ifs at h with hne
    obtain rfl := toInts_eq_some_iff.mp h
    exact .inl ⟨hids, .inl ⟨htext, fun hnil => hne (by rw [hnil]; rfl)⟩⟩
  · rename_i text ids htext hids
    split_ifs at h with hboth
    obtain rfl := toInts_eq_some_iff.mp h
    exact .inl ⟨hids, .inr ⟨by simpa using hboth, text, htext⟩⟩
  · cases h

/-- Recovery preserves a prompt that is given as ids, and an empty text for a worker that then
takes the ids. -/
theorem recoversPrompt_iff (h : IsGeneratePayload w payload prompt params) :
    RecoversPrompt cfg w payload generated ↔
      (cfg.disableTokenLevelRecovery = true → generated = []) ∧
        (payload.getNotNone "input_ids" ≠ none ∨ w.refusesBoth = false ∧ prompt = []) := by
  set appended := if cfg.disableTokenLevelRecovery then [] else generated with happended
  have happended_iff : appended = generated ↔
      (cfg.disableTokenLevelRecovery = true → generated = []) := by
    by_cases hdis : cfg.disableTokenLevelRecovery = true
    · simp [happended, hdis, eq_comm]
    · simp [happended, hdis]
  obtain ⟨params', hreduce, hreduceAgain, hsampling⟩ :=
    reduceMaxNewTokens_spec cfg h.cap generated.length
  obtain ⟨ids, htoList, hids⟩ := toList_inputIds h.seen
  have hbuild := buildGenerateRecoveryPayload_eq cfg htoList h.dict hreduce
  rw [← happended] at hbuild
  have hprompt := prompt_recovery w payload (ids ++ appended) params'
  set recovery := ((payload.set "stream" (.bool true)).set "input_ids"
    (.arr ((ids ++ appended).map .int))).set "sampling_params" (.obj params') with hrecovery
  -- what the worker sees decides, the rest follows
  have hseen : w.prompt recovery = some (prompt ++ generated) ↔
      (cfg.disableTokenLevelRecovery = true → generated = []) ∧
        (payload.getNotNone "input_ids" ≠ none ∨ w.refusesBoth = false ∧ prompt = []) := by
    rw [← happended_iff]
    obtain ⟨hgiven, hkind⟩ | ⟨hmissing, text, htext⟩ := prompt_cases h.seen
    · have hprompts : ids = prompt := by
        obtain ⟨-, hids⟩ | ⟨hnone, -⟩ := hids
        · exact hids
        · rw [hgiven] at hnone
          cases hnone
      have hvalue : w.prompt recovery = some (prompt ++ appended) := by
        obtain ⟨htext, hne⟩ | ⟨hboth, text, htext⟩ := hkind
        · rw [hprompt.1 htext, hprompts, if_neg (by simp [hne])]
        · rw [hprompt.2 text htext, hprompts, hboth]
          rfl
      simp [hvalue, hgiven]
    · have hprompts : ids = [] := by
        obtain ⟨hsome, -⟩ | ⟨-, hids⟩ := hids
        · rw [hmissing] at hsome
          cases hsome
        · exact hids
      rw [hprompt.2 text htext, hprompts, hmissing]
      by_cases hboth : w.refusesBoth = true
      · simp [hboth]
      · simp only [hboth, Bool.false_eq_true, if_false, List.nil_append, Option.some.injEq, ne_eq,
          not_true, false_or, true_and]
        constructor
        · intro heq
          have hlength := congrArg List.length heq
          have hle : appended.length ≤ generated.length := by
            rw [happended]
            split_ifs <;> simp
          rw [List.length_append] at hlength
          have hempty : prompt = [] := List.length_eq_zero_iff.mp (by omega)
          rw [hempty] at heq
          exact ⟨heq, hempty⟩
        · rintro ⟨heq, hempty⟩
          rw [heq, hempty]
          rfl
  rw [← hseen]
  constructor
  · rintro ⟨recovery', hbuild', hasks⟩
    rw [hbuild] at hbuild'
    cases hbuild'
    exact hasks.seen prompt h.seen
  · intro hvalue
    have hdis := (hseen.mp hvalue).1
    refine ⟨recovery, hbuild, ⟨?_, ?_, ?_⟩⟩
    · intro prompt' hprompt'
      rw [h.seen] at hprompt'
      cases hprompt'
      exact hvalue
    · intro params₁ hdict
      rw [h.dict] at hdict
      cases hdict
      refine ⟨params', JsonObject.get_set_same _ _ _, hsampling fun hd => ?_⟩
      rw [hdis hd]
      rfl
    · intro more
      have hget : recovery.get "input_ids" = some (.arr ((ids ++ appended).map .int)) := by
        rw [hrecovery, JsonObject.get_set_other _ _ (by decide), JsonObject.get_set_same]
      have hdict : Json.toDict (recovery.get "sampling_params") = .ok params' := by
        rw [hrecovery, JsonObject.get_set_same]
        exact toDict_obj params'
      obtain ⟨params₂, hreduce₂, -⟩ := reduceMaxNewTokens_spec cfg h.cap (generated ++ more).length
      have hreduce₃ : reduceMaxNewTokens cfg params' more.length = .ok params₂ := by
        rw [hreduceAgain, ← List.length_append, hreduce₂]
      rw [buildGenerateRecoveryPayload_eq cfg (by rw [hget]; exact toList_int _) hdict hreduce₃,
        buildGenerateRecoveryPayload_eq cfg htoList h.dict hreduce₂, hrecovery, set_again]
      by_cases hd : cfg.disableTokenLevelRecovery = true
      · simp [happended, hd]
      · simp [happended, hd]

def recoveringConfig : GenerateConfig := ⟨2, 1, 1, false, Nat.one_pos, Nat.one_pos⟩

def idsPayload : JsonObject :=
  [("input_ids", .arr [.int 4, .int 5]), ("sampling_params", .obj [("max_new_tokens", .int 9)])]

def textPayload : JsonObject :=
  [("text", .str "hi"), ("sampling_params", .obj [("max_new_tokens", .int 9)])]

/-- A tokenizer with an id for every character. -/
def charReader (refusesBoth : Bool) : PromptReader :=
  ⟨fun text => text.toList.map fun c => (c.toNat : Int), refusesBoth⟩

theorem recoversPrompt_iff_ids :
    RecoversPrompt recoveringConfig (charReader true) idsPayload [6, 7] ↔
      (recoveringConfig.disableTokenLevelRecovery = true → ([6, 7] : List Int) = []) ∧
        (idsPayload.getNotNone "input_ids" ≠ none ∨
          (charReader true).refusesBoth = false ∧ ([4, 5] : List Int) = []) :=
  have hpayload : IsGeneratePayload (charReader true) idsPayload [4, 5]
      [("max_new_tokens", .int 9)] :=
    ⟨rfl, rfl, fun _ hv => ⟨9, (Option.some.inj hv).symm⟩⟩
  recoversPrompt_iff hpayload

/-- The text is lost: one worker refuses the recovery request, the other takes the two retained
ids for its prompt. -/
theorem not_recoversPrompt_text :
    ¬RecoversPrompt recoveringConfig (charReader true) textPayload [6, 7] ∧
      ¬RecoversPrompt recoveringConfig (charReader false) textPayload [6, 7] := by
  have hbuild : buildGenerateRecoveryPayload recoveringConfig textPayload [6, 7] =
      .ok [("text", .str "hi"), ("sampling_params", .obj [("max_new_tokens", .int 7)]),
        ("stream", .bool true), ("input_ids", .arr [.int 6, .int 7])] := rfl
  constructor
  · rintro ⟨recovery, hrecovery, hasks⟩
    rw [hbuild] at hrecovery
    cases hrecovery
    cases hasks.seen [104, 105] rfl
  · rintro ⟨recovery, hrecovery, hasks⟩
    rw [hbuild] at hrecovery
    cases hrecovery
    have hseen : (some [6, 7] : Option (List Int)) = some [104, 105, 6, 7] :=
      hasks.seen [104, 105] rfl
    simp at hseen

end Belayer.Router
