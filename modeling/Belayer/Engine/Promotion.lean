import Belayer.Engine.Interference

namespace Belayer.Engine

open Belayer.Framework Belayer.Router

/-- Where an engine stands with its router: it is not registered yet, it serves, a promotion has
registered the new url and removes the old one next, or its shadow is promoted. -/
inductive PromotionPhase where
  | starting
  | serving
  | unregistering (oldUrl newUrl reason : String) (args : ServerArgs)
  | promoted (newUrl : String)
  deriving DecidableEq

/-- What a request does with the router. -/
inductive RequestCall where
  | useUrl (excludeWorkers : List String)
  | reserveUrl (url : String)
  | finishUrl (url : String) (expectedSeq : Option Nat)
  | recordFailure (url : String)

/-- The router after the call; a reservation that raises changes nothing. -/
def RequestCall.apply (r : SlimeRouter) : RequestCall → SlimeRouter
  | .useUrl excludeWorkers =>
    match r.useUrl excludeWorkers with
    | .error _ => r
    | .ok (r', _, _) => r'
  | .reserveUrl url =>
    match r.reserveUrl url with
    | .error _ => r
    | .ok (r', _) => r'
  | .finishUrl url expectedSeq => (r.finishUrl url expectedSeq).1
  | .recordFailure url => r.recordFailure url

/-- An engine and the router that all engines and requests share. -/
structure PromotionState where
  engine : SGLangEngine
  router : SlimeRouter
  phase : PromotionPhase

/-- A step of the engine, with the answers that it meets, a call of another engine or of a
request, or the crash of a process. -/
inductive PromotionAction where
  | start (o : HttpOutcome)
  | promote (reason : String) (probes : List (Option Nat)) (o : HttpOutcome)
  | unregister (o : HttpOutcome)
  | other (call : RegistryCall)
  | request (call : RequestCall)
  | crash
  | crashShadow

namespace LaunchedEngine

/-- A call of another engine, which registers under its own key and removes urls of its own. -/
def isForeign (c : LaunchedEngine) (r : SlimeRouter) : RegistryCall → Bool
  | .addWorker req => (SlimeRouter.addArgs req).all fun p => p.2 ≠ c.engine.workerKey
  | .removeWorker req =>
    (r.removeArgs req).all fun p => p.1 ≠ c.activeUrl && p.1 ≠ c.shadowUrl

/-- The launched engine before the end of its `init`. -/
def launched (c : LaunchedEngine) (r : SlimeRouter) : PromotionState :=
  ⟨c.engine.launch c.pid ⟨c.host, c.port⟩ (some ⟨c.host, c.shadowPort⟩), r, .starting⟩

/-- `_promote_shadow_worker_impl` in two steps, up to the registration of the new url and from
there on. -/
def next (c : LaunchedEngine) (s : PromotionState) : PromotionAction → Option PromotionState
  | .start o =>
    match s.phase with
    | .starting =>
      let url := SGLangEngine.workerUrl s.engine.serverHost s.engine.serverPort
      match s.engine.registerWorker s.router url o with
      | (r, .error _) => some { s with router := r }
      | (r, .ok ()) => some { s with router := r, phase := .serving }
    | _ => none
  | .promote reason probes o =>
    match s.phase, s.engine.shadowServerArgs with
    | .serving, some args =>
      if s.engine.pendingShadowHandoverReconnect || !s.engine.shadowWorkerReadyForHandover probes
      then some s
      else
        let oldUrl := SGLangEngine.workerUrl s.engine.serverHost s.engine.serverPort
        let newUrl := SGLangEngine.workerUrl args.host args.port
        match s.engine.registerWorker s.router newUrl o with
        | (r, .error _) => some { s with router := r }
        | (r, .ok ()) =>
          some { s with router := r, phase := .unregistering oldUrl newUrl reason args }
    | .serving, none | .promoted _, _ => some s
    | _, _ => none
  | .unregister o =>
    match s.phase with
    | .unregistering oldUrl newUrl reason args =>
      some ⟨s.engine.adoptShadow args reason, (s.engine.unregisterWorker s.router oldUrl o).1,
        .promoted newUrl⟩
    | _ => none
  | .other call =>
    if c.isForeign s.router call then some { s with router := call.apply s.router } else none
  | .request call => some { s with router := call.apply s.router }
  | .crash => some { s with engine := s.engine.crash }
  | .crashShadow => some { s with engine := s.engine.crashShadow }

/-- The key maps to the url, and the url is registered. -/
structure Routes (r : SlimeRouter) (key url : String) : Prop where
  mapped : r.workerUrlsByKey.lookup key = some url
  registered : url ∈ r.workerRequestCounts

/-- From its registration on the key of the engine maps to a registered url of the engine, and
from the registration of the new url on to that one. -/
def Agrees (c : LaunchedEngine) (s : PromotionState) : Prop :=
  match s.phase with
  | .starting => True
  | .serving => ∃ url ∈ [c.activeUrl, c.shadowUrl], Routes s.router c.engine.workerKey url
  | .unregistering _ newUrl _ _ => Routes s.router c.engine.workerKey newUrl
  | .promoted newUrl =>
    newUrl = SGLangEngine.workerUrl s.engine.serverHost s.engine.serverPort ∧
      newUrl = c.shadowUrl ∧ Routes s.router c.engine.workerKey newUrl

end LaunchedEngine

namespace SGLangEngine

variable {e : SGLangEngine} {r : SlimeRouter} {key url : String}

theorem workerKey_ne_empty (e : SGLangEngine) : e.workerKey ≠ "" := by
  intro h
  have hl := congrArg String.toList h
  simp [workerKey] at hl

theorem truthy_of_ne {text : String} (h : text ≠ "") : truthy (some text) = some text := by
  simp [truthy, Option.filter, h]

theorem addArgs_workerRequest (e : SGLangEngine) (hu : url ≠ "") :
    SlimeRouter.addArgs (e.workerRequest url) = some (url, e.workerKey) := by
  simp [SlimeRouter.addArgs, workerRequest, truthy_of_ne hu, truthy_of_ne e.workerKey_ne_empty]

theorem removeArgs_ownKey (e : SGLangEngine) (r : SlimeRouter) (hu : url ≠ "") :
    r.removeArgs (e.workerRequest url) = some (url, e.workerKey) := by
  simp [SlimeRouter.removeArgs, workerRequest, truthy_of_ne hu, truthy_of_ne e.workerKey_ne_empty]

/-- A registration that is not refused routes the key of the engine to the url, and one that is
refused changes nothing. -/
theorem routes_registerWorker (hr : e.usesRouter = true) (ht : e.workerType = "regular")
    (hu : url ≠ "") (o : HttpOutcome) :
    (e.registerWorker r url o).1 = r ∧ (e.registerWorker r url o).2 ≠ .ok () ∨
      LaunchedEngine.Routes (e.registerWorker r url o).1 e.workerKey url := by
  have hadd : (r.addWorker (e.workerRequest url)).1 = r.registerWorker url e.workerKey :=
    RegistryCall.apply_addWorker (e.addArgs_workerRequest hu)
  have hroutes : LaunchedEngine.Routes (r.registerWorker url e.workerKey) e.workerKey url :=
    ⟨by simp, by simp⟩
  unfold registerWorker
  rw [if_neg (by simp [hr]), if_neg (by simp [ht])]
  cases o with
  | ok => exact .inr (hadd ▸ hroutes)
  | refused => exact .inl ⟨rfl, by simp⟩
  | lost => exact .inr (hadd ▸ hroutes)

/-- The removal of one url leaves the route to another one. -/
theorem routes_unregisterWorker {oldUrl : String} (hold : oldUrl ≠ "") (hne : oldUrl ≠ url)
    (h : LaunchedEngine.Routes r e.workerKey url) (o : HttpOutcome) :
    LaunchedEngine.Routes (e.unregisterWorker r oldUrl o).1 e.workerKey url := by
  have hremove : (r.removeWorker (e.workerRequest oldUrl)).1 =
      r.unregisterWorker oldUrl e.workerKey :=
    RegistryCall.apply_removeWorker (e.removeArgs_ownKey r hold)
  have hroutes : LaunchedEngine.Routes (r.unregisterWorker oldUrl e.workerKey) e.workerKey url := by
    constructor
    · rw [SlimeRouter.urlsByKey_unregisterWorker, h.mapped, if_neg]
      exact fun hold' => hne (Option.some.inj hold'.2).symm
    · exact (SlimeRouter.mem_counts_unregisterWorker ..).mpr ⟨hne.symm, h.registered⟩
  unfold unregisterWorker
  split_ifs
  · exact h
  · cases o with
    | ok => exact hremove ▸ hroutes
    | refused => exact h
    | lost => exact hremove ▸ hroutes

end SGLangEngine

namespace LaunchedEngine

variable {c : LaunchedEngine} {s s' : PromotionState} {r : SlimeRouter} {key url : String}

/-- No request touches a route. -/
theorem Routes.request (h : Routes r key url) (call : RequestCall) :
    Routes (call.apply r) key url := by
  cases call with
  | useUrl excludeWorkers =>
    simp only [RequestCall.apply]
    split
    · exact h
    · rename_i hu
      obtain ⟨-, -, -, rfl⟩ := SlimeRouter.useUrl_ok hu
      exact ⟨h.mapped, (SlimeRouter.mem_counts_countRequest ..).mpr (.inr h.registered)⟩
  | reserveUrl u =>
    simp only [RequestCall.apply]
    split
    · exact h
    · rename_i hu
      obtain ⟨-, -, rfl⟩ := SlimeRouter.reserveUrl_ok hu
      exact ⟨h.mapped, (SlimeRouter.mem_counts_countRequest ..).mpr (.inr h.registered)⟩
  | finishUrl u expectedSeq =>
    have hcount : ∀ n : Int, Routes
        { r with workerRequestCounts := r.workerRequestCounts.insert u n } key url :=
      fun n => ⟨h.mapped, (AList.mem_insert _).mpr (.inr h.registered)⟩
    simp only [RequestCall.apply, SlimeRouter.finishUrl]
    split_ifs
    all_goals first
      | exact h
      | exact hcount _
  | recordFailure u => exact ⟨h.mapped, h.registered⟩

/-- No call of another engine touches a route of this one. -/
theorem Routes.other (h : Routes r c.engine.workerKey url) (hurl : url ∈ [c.activeUrl, c.shadowUrl])
    {call : RegistryCall} (hforeign : c.isForeign r call = true) :
    Routes (call.apply r) c.engine.workerKey url := by
  cases call with
  | addWorker req =>
    cases hargs : SlimeRouter.addArgs req with
    | none =>
      have hrefused : (RegistryCall.addWorker req).apply r = r := RegistryCall.apply_refused hargs
      rw [hrefused]
      exact h
    | some p =>
      have hkey : p.2 ≠ c.engine.workerKey := by simpa [isForeign, hargs] using hforeign
      rw [RegistryCall.apply_addWorker hargs]
      constructor
      · rw [SlimeRouter.urlsByKey_registerWorker, if_neg hkey.symm]
        exact h.mapped
      · exact (SlimeRouter.mem_counts_registerWorker ..).mpr (.inr h.registered)
  | removeWorker req =>
    cases hargs : r.removeArgs req with
    | none =>
      have hrefused : (RegistryCall.removeWorker req).apply r = r :=
        RegistryCall.apply_refused hargs
      rw [hrefused]
      exact h
    | some p =>
      have hne : p.1 ≠ c.activeUrl ∧ p.1 ≠ c.shadowUrl := by
        simpa [isForeign, hargs] using hforeign
      have hurl' : url ≠ p.1 := by
        rintro rfl
        simp only [List.mem_cons, List.not_mem_nil, or_false] at hurl
        exact hurl.elim hne.1 hne.2
      rw [RegistryCall.apply_removeWorker hargs]
      constructor
      · rw [SlimeRouter.urlsByKey_unregisterWorker, if_neg]
        · exact h.mapped
        · rintro ⟨hkey, hmapped⟩
          rw [← hkey, h.mapped] at hmapped
          exact hurl' (Option.some.inj hmapped)
      · exact (SlimeRouter.mem_counts_unregisterWorker ..).mpr ⟨hurl', h.registered⟩

/-- What holds of the engine and the router in each phase. -/
def At (c : LaunchedEngine) (e : SGLangEngine) (r : SlimeRouter) : PromotionPhase → Prop
  | .starting =>
    SGLangEngine.workerUrl e.serverHost e.serverPort = c.activeUrl ∧
      ∀ args ∈ e.shadowServerArgs, SGLangEngine.workerUrl args.host args.port = c.shadowUrl
  | .serving =>
    SGLangEngine.workerUrl e.serverHost e.serverPort = c.activeUrl ∧
      (∀ args ∈ e.shadowServerArgs, SGLangEngine.workerUrl args.host args.port = c.shadowUrl) ∧
      ∃ url ∈ [c.activeUrl, c.shadowUrl], Routes r c.engine.workerKey url
  | .unregistering oldUrl newUrl _ args =>
    oldUrl = c.activeUrl ∧ newUrl = c.shadowUrl ∧
      SGLangEngine.workerUrl args.host args.port = newUrl ∧ Routes r c.engine.workerKey newUrl
  | .promoted newUrl =>
    newUrl = SGLangEngine.workerUrl e.serverHost e.serverPort ∧ newUrl = c.shadowUrl ∧
      Routes r c.engine.workerKey newUrl

/-- The engine keeps its key and its use of the router. -/
structure Promoting (c : LaunchedEngine) (s : PromotionState) : Prop where
  key : s.engine.workerKey = c.engine.workerKey
  usesRouter : s.engine.usesRouter = true
  regular : s.engine.workerType = "regular"
  phase : c.At s.engine s.router s.phase

theorem Promoting.agrees (h : c.Promoting s) : c.Agrees s := by
  obtain ⟨e, r, phase⟩ := s
  have hphase := h.phase
  cases phase with
  | starting => trivial
  | serving => exact hphase.2.2
  | unregistering => exact hphase.2.2.2
  | promoted => exact hphase

/-- What the calls of others do to the router keeps the phase. -/
theorem At.router {e : SGLangEngine} {r r' : SlimeRouter} {phase : PromotionPhase}
    (hr : ∀ url ∈ [c.activeUrl, c.shadowUrl], Routes r c.engine.workerKey url →
      Routes r' c.engine.workerKey url) (h : c.At e r phase) : c.At e r' phase := by
  have hshadow : c.shadowUrl ∈ [c.activeUrl, c.shadowUrl] := by simp
  cases phase with
  | starting => exact h
  | serving =>
    obtain ⟨hactive, hargs, url, hurl, hroutes⟩ := h
    exact ⟨hactive, hargs, url, hurl, hr url hurl hroutes⟩
  | unregistering =>
    obtain ⟨hold, rfl, hargs, hroutes⟩ := h
    exact ⟨hold, rfl, hargs, hr _ hshadow hroutes⟩
  | promoted =>
    obtain ⟨hserver, rfl, hroutes⟩ := h
    exact ⟨hserver, rfl, hr _ hshadow hroutes⟩

/-- A registration of the engine, by whether it raises. -/
theorem Promoting.registers (h : c.Promoting s) (hurl : url ∈ [c.activeUrl, c.shadowUrl])
    (o : HttpOutcome) :
    ((s.engine.registerWorker s.router url o).2 = .ok () →
      Routes (s.engine.registerWorker s.router url o).1 c.engine.workerKey url) ∧
    ((∃ u ∈ [c.activeUrl, c.shadowUrl], Routes s.router c.engine.workerKey u) →
      ∃ u ∈ [c.activeUrl, c.shadowUrl],
        Routes (s.engine.registerWorker s.router url o).1 c.engine.workerKey u) := by
  have hne : url ≠ "" := by
    simp only [List.mem_cons, List.not_mem_nil, or_false] at hurl
    obtain rfl | rfl := hurl
    · exact SGLangEngine.workerUrl_ne_empty _ _
    · exact SGLangEngine.workerUrl_ne_empty _ _
  obtain ⟨hsame, herror⟩ | hroutes :=
    SGLangEngine.routes_registerWorker (r := s.router) h.usesRouter h.regular hne o
  · exact ⟨fun hok => absurd hok herror, fun hbefore => by rw [hsame]; exact hbefore⟩
  · rw [h.key] at hroutes
    exact ⟨fun _ => hroutes, fun _ => ⟨url, hurl, hroutes⟩⟩

theorem Promoting.next (h : c.Promoting s) {a : PromotionAction} (hn : c.next s a = some s') :
    c.Promoting s' := by
  have hphase := h.phase
  cases a with
  | start o =>
    simp only [LaunchedEngine.next] at hn
    split at hn
    · rename_i hstart
      rw [hstart] at hphase
      obtain ⟨hactive, hargs⟩ := hphase
      have hurl : c.activeUrl ∈ [c.activeUrl, c.shadowUrl] := by simp
      have hregisters := (h.registers hurl o).1
      rw [hactive] at hn
      split at hn
      · cases hn
        exact ⟨h.key, h.usesRouter, h.regular, by rw [hstart]; exact ⟨hactive, hargs⟩⟩
      · rename_i hcall
        cases hn
        rw [hcall] at hregisters
        exact ⟨h.key, h.usesRouter, h.regular, hactive, hargs, c.activeUrl, by simp,
          hregisters rfl⟩
    · cases hn
  | promote reason probes o =>
    simp only [LaunchedEngine.next] at hn
    split at hn
    · rename_i args hserving hshadow
      rw [hserving] at hphase
      obtain ⟨hactive, hargs, hroutes⟩ := hphase
      have hnew := hargs args hshadow
      have hurl : c.shadowUrl ∈ [c.activeUrl, c.shadowUrl] := by simp
      have hregisters := h.registers hurl o
      rw [hnew] at hn
      split_ifs at hn with hready
      · cases hn
        exact h
      · split at hn
        · rename_i hcall
          cases hn
          rw [hcall] at hregisters
          refine ⟨h.key, h.usesRouter, h.regular, ?_⟩
          rw [hserving]
          exact ⟨hactive, hargs, hregisters.2 hroutes⟩
        · rename_i hcall
          cases hn
          rw [hcall] at hregisters
          exact ⟨h.key, h.usesRouter, h.regular, hactive, rfl, hnew, hregisters.1 rfl⟩
    · cases hn
      exact h
    · cases hn
      exact h
    · cases hn
  | unregister o =>
    simp only [LaunchedEngine.next] at hn
    split at hn
    · rename_i oldUrl newUrl reason args hunregistering
      rw [hunregistering] at hphase
      obtain ⟨rfl, rfl, hargs, hroutes⟩ := hphase
      cases hn
      rw [← h.key] at hroutes
      have hkept := SGLangEngine.routes_unregisterWorker (SGLangEngine.workerUrl_ne_empty _ _)
        c.activeUrl_ne hroutes o
      rw [h.key] at hkept
      exact ⟨h.key, h.usesRouter, h.regular, hargs.symm, rfl, hkept⟩
    · cases hn
  | other call =>
    simp only [LaunchedEngine.next] at hn
    split_ifs at hn with hforeign
    cases hn
    exact ⟨h.key, h.usesRouter, h.regular,
      hphase.router fun url hurl hroutes => hroutes.other hurl hforeign⟩
  | request call =>
    cases hn
    exact ⟨h.key, h.usesRouter, h.regular,
      hphase.router fun url _ hroutes => hroutes.request call⟩
  | crash =>
    cases hn
    exact ⟨h.key, h.usesRouter, h.regular, hphase⟩
  | crashShadow =>
    cases hn
    exact ⟨h.key, h.usesRouter, h.regular, hphase⟩

/-- The two steps, with nothing between them, are the whole promotion. -/
theorem exec_promote {e : SGLangEngine} {reason : String} {probes : List (Option Nat)}
    {o o' : HttpOutcome} (hserving : s.phase = .serving)
    (hpending : s.engine.pendingShadowHandoverReconnect = false)
    (h : s.engine.promoteShadowWorkerImpl s.router reason probes o o' = (e, r, .ok true)) :
    exec c.next s [.promote reason probes o, .unregister o'] =
      some ⟨e, r, .promoted (SGLangEngine.workerUrl e.serverHost e.serverPort)⟩ := by
  unfold SGLangEngine.promoteShadowWorkerImpl at h
  rw [if_neg (by simp [hpending])] at h
  split_ifs at h with hready
  · cases h
  · cases hargs : s.engine.shadowServerArgs with
    | none =>
      rw [hargs] at h
      cases h
    | some args =>
      rw [hargs] at h
      dsimp only at h
      split at h
      · cases h
      · rename_i r' hcall
        cases h
        have hpromote : c.next s (.promote reason probes o) =
            some { s with
              router := r'
              phase := .unregistering
                (SGLangEngine.workerUrl s.engine.serverHost s.engine.serverPort)
                (SGLangEngine.workerUrl args.host args.port) reason args } := by
          simp only [LaunchedEngine.next, hserving, hargs, hpending, Bool.false_or, hcall]
          rw [if_neg hready]
        rw [exec_cons_some hpromote]
        rfl

/-- The calls of an engine with another key and other urls are those of another engine. -/
theorem isForeign_workerRequest {e : SGLangEngine} (hkey : e.workerKey ≠ c.engine.workerKey)
    (hurl : url ≠ "") (hactive : url ≠ c.activeUrl) (hshadow : url ≠ c.shadowUrl) :
    c.isForeign r (.addWorker (e.workerRequest url)) = true ∧
      c.isForeign r (.removeWorker (e.workerRequest url)) = true := by
  simp [isForeign, e.addArgs_workerRequest hurl, e.removeArgs_ownKey r hurl, hkey, hactive, hshadow]

theorem promoting_launched (h : c.engine.usesRouter = true) (r : SlimeRouter) :
    c.Promoting (c.launched r) where
  key := rfl
  usesRouter := h
  regular := c.regular
  phase := ⟨rfl, by simp [launched, SGLangEngine.launch, shadowUrl]⟩

theorem idleEngine_workerType : HandoverState.idleEngine.workerType = "regular" := rfl

theorem idleEngine_rolloutExternal : HandoverState.idleEngine.rolloutExternal = false := rfl

/-- An engine of node 0 with a router. -/
def routedEngine : LaunchedEngine :=
  ⟨HandoverState.idleEngine, 1, "h", 15000, 0, idleEngine_workerType, idleEngine_rolloutExternal⟩

/-- Another engine registers and a request is under way on the old url while the engine moves. -/
def movingRun : List PromotionAction :=
  [.start .ok, .request (.useUrl []), .crash, .promote "dead" [some 200] .ok,
    .other (.addWorker { queryUrl := some "http://h:15001", queryWorkerKey := some "k" }),
    .request (.useUrl []), .unregister .lost, .request (.finishUrl "http://h:15000" (some 1))]

end LaunchedEngine

end Belayer.Engine
