import Belayer.Router.SlimeRouter

namespace Belayer.Router

open Belayer.Framework

/-- The two calls that change the registry. -/
inductive RegistryCall where
  | addWorker (req : WorkerRequest)
  | removeWorker (req : WorkerRequest)
  deriving DecidableEq

namespace RegistryCall

def apply (r : SlimeRouter) : RegistryCall → SlimeRouter
  | .addWorker req => (r.addWorker req).1
  | .removeWorker req => (r.removeWorker req).1

/-- The url and the key the call works with; `none` when it is refused. -/
def target (r : SlimeRouter) : RegistryCall → Option (String × String)
  | .addWorker req => SlimeRouter.addArgs req
  | .removeWorker req => r.removeArgs req

/-- The url and the key an accepted `add_worker` registers. -/
def added : RegistryCall → Option (String × String)
  | .addWorker req => SlimeRouter.addArgs req
  | .removeWorker _ => none

/-- The call registers the url under the key. -/
def Registers (url key : String) (c : RegistryCall) : Prop := c.added = some (url, key)

instance (url key : String) (c : RegistryCall) : Decidable (c.Registers url key) :=
  inferInstanceAs (Decidable (_ = _))

theorem apply_addWorker {r : SlimeRouter} {req : WorkerRequest} {url key : String}
    (h : SlimeRouter.addArgs req = some (url, key)) :
    (addWorker req).apply r = r.registerWorker url key := by
  simp [apply, SlimeRouter.addWorker, h]

theorem apply_removeWorker {r : SlimeRouter} {req : WorkerRequest} {url key : String}
    (h : r.removeArgs req = some (url, key)) :
    (removeWorker req).apply r = r.unregisterWorker url key := by
  simp [apply, SlimeRouter.removeWorker, h]

/-- A refused call changes nothing. -/
theorem apply_refused {r : SlimeRouter} {c : RegistryCall} (h : c.target r = none) :
    c.apply r = r := by
  cases c <;> simp_all [apply, target, SlimeRouter.addWorker, SlimeRouter.removeWorker]

/-- A call is refused, registers its url or unregisters it. -/
theorem apply_cases (r : SlimeRouter) (c : RegistryCall) :
    (c.target r = none ∧ c.added = none ∧ c.apply r = r) ∨
    (∃ url key, c.target r = some (url, key) ∧ c.Registers url key ∧
      c.apply r = r.registerWorker url key) ∨
    (∃ url key, c.target r = some (url, key) ∧ c.added = none ∧
      c.apply r = r.unregisterWorker url key) := by
  cases ht : c.target r with
  | none =>
    refine .inl ⟨rfl, ?_, apply_refused ht⟩
    cases c with
    | addWorker req => exact ht
    | removeWorker req => rfl
  | some p =>
    obtain ⟨url, key⟩ := p
    cases c with
    | addWorker req => exact .inr (.inl ⟨url, key, rfl, ht, apply_addWorker ht⟩)
    | removeWorker req => exact .inr (.inr ⟨url, key, rfl, rfl, apply_removeWorker ht⟩)

theorem not_registers {c : RegistryCall} (h : c.added = none) (url key : String) :
    ¬c.Registers url key := by
  simp [Registers, h]

/-- A call registers at most one url, under one key. -/
theorem Registers.unique {c : RegistryCall} {url url' key key' : String}
    (h : c.Registers url key) (h' : c.Registers url' key') : url = url' ∧ key = key' :=
  Prod.mk.inj (Option.some.inj (h.symm.trans h'))

end RegistryCall

/-- The registry after a sequence of calls. -/
def runCalls (calls : List RegistryCall) : SlimeRouter :=
  calls.foldl RegistryCall.apply .init

theorem runCalls_snoc (calls : List RegistryCall) (c : RegistryCall) :
    runCalls (calls ++ [c]) = c.apply (runCalls calls) := by
  simp [runCalls]

/-- Full agreement of the two indexes: a key maps only to a registered url of
that key, and a registered url is mapped to by exactly its recorded key. -/
structure SlimeRouter.Consistent (r : SlimeRouter) : Prop where
  mapped : ∀ key url, r.workerUrlsByKey.lookup key = some url →
    url ∈ r.workerRequestCounts ∧ r.workerKeysByUrl.lookup url = some key
  exact : ∀ url ∈ r.workerRequestCounts, ∀ key,
    r.workerUrlsByKey.lookup key = some url ↔ r.workerKeysByUrl.lookup url = some key

/-- The url `_resolve_failed_worker_url` may give: a selected healthy worker, or
the url the request's key maps to after a recovery wait. -/
def SlimeRouter.Resolves (r : SlimeRouter) (workerKey failedUrl url : String) : Prop :=
  (∃ r', r.selectLeastLoadedWorkerUrl [failedUrl] = .ok (url, r')) ∨
    r.workerUrlsByKey.lookup workerKey = some url

/-- While the key maps to the url, a call names the url under another key, and
the key is not registered again after that. -/
def Diverted (calls : List RegistryCall) (key url : String) : Prop :=
  ∃ before c after, calls = before ++ c :: after ∧
    (runCalls before).workerUrlsByKey.lookup key = some url ∧
    (∃ key', key' ≠ key ∧ c.target (runCalls before) = some (url, key')) ∧
    ∀ d ∈ after, ∀ url', ¬RegistryCall.Registers url' key d

/-- While the key is recorded for the url, it is registered on another url, as a
handover does, and the url is not registered again after that. -/
def MovedOn (calls : List RegistryCall) (key url : String) : Prop :=
  ∃ before c after, calls = before ++ c :: after ∧
    (runCalls before).workerKeysByUrl.lookup url = some key ∧
    (∃ url', url' ≠ url ∧ c.Registers url' key) ∧
    ∀ d ∈ after, ∀ key', ¬RegistryCall.Registers url key' d

theorem Diverted.snoc {calls : List RegistryCall} {key url : String} {c : RegistryCall}
    (h : Diverted calls key url) (hc : ∀ url', ¬c.Registers url' key) :
    Diverted (calls ++ [c]) key url := by
  obtain ⟨before, d, after, rfl, hm, hd, ha⟩ := h
  refine ⟨before, d, after ++ [c], by simp, hm, hd, ?_⟩
  exact List.forall_mem_append.mpr ⟨ha, List.forall_mem_singleton.mpr hc⟩

theorem MovedOn.snoc {calls : List RegistryCall} {key url : String} {c : RegistryCall}
    (h : MovedOn calls key url) (hc : ∀ key', ¬c.Registers url key') :
    MovedOn (calls ++ [c]) key url := by
  obtain ⟨before, d, after, rfl, hm, hd, ha⟩ := h
  refine ⟨before, d, after ++ [c], by simp, hm, hd, ?_⟩
  exact List.forall_mem_append.mpr ⟨ha, List.forall_mem_singleton.mpr hc⟩

/-- A url is registered exactly when a key is recorded for it. -/
theorem mem_counts_iff_key (calls : List RegistryCall) (url : String) :
    url ∈ (runCalls calls).workerRequestCounts ↔
      ∃ key, (runCalls calls).workerKeysByUrl.lookup url = some key := by
  induction calls using List.reverseRecOn with
  | nil => simp [runCalls, SlimeRouter.init]
  | append_singleton calls c ih =>
    rw [runCalls_snoc]
    rcases c.apply_cases (runCalls calls) with ⟨-, -, he⟩ | ⟨u, k, -, -, he⟩ | ⟨u, k, -, -, he⟩
    · rw [he]; exact ih
    · rw [he, SlimeRouter.mem_counts_registerWorker, SlimeRouter.keysByUrl_registerWorker]
      by_cases hu : url = u <;> simp [hu, ih]
    · rw [he, SlimeRouter.mem_counts_unregisterWorker, SlimeRouter.keysByUrl_unregisterWorker]
      by_cases hu : url = u <;> simp [hu, ih]

/-- A key maps to a registered url of that key, or the url was named under
another key since. -/
theorem mapped_or_diverted (calls : List RegistryCall) (key url : String)
    (h : (runCalls calls).workerUrlsByKey.lookup key = some url) :
    (runCalls calls).workerKeysByUrl.lookup url = some key ∨ Diverted calls key url := by
  induction calls using List.reverseRecOn with
  | nil => simp [runCalls, SlimeRouter.init] at h
  | append_singleton calls c ih =>
    rw [runCalls_snoc] at h ⊢
    have named (k : String) (hk : k ≠ key) (ht : c.target (runCalls calls) = some (url, k))
        (hm : (runCalls calls).workerUrlsByKey.lookup key = some url) :
        Diverted (calls ++ [c]) key url :=
      ⟨calls, c, [], rfl, hm, ⟨k, hk, ht⟩, by simp⟩
    rcases c.apply_cases (runCalls calls) with ⟨-, hn, he⟩ | ⟨u, k, ht, hr, he⟩ | ⟨u, k, ht, hn, he⟩
    · rw [he] at h ⊢
      rcases ih h with hk | hd
      · exact .inl hk
      · exact .inr (hd.snoc (fun _ => RegistryCall.not_registers hn _ _))
    · rw [he, SlimeRouter.urlsByKey_registerWorker] at h
      rw [he, SlimeRouter.keysByUrl_registerWorker]
      by_cases hk : key = k
      · have hu : u = url := by simpa [hk] using h
        exact .inl (by simp [hu, hk])
      · rw [if_neg hk] at h
        rcases ih h with hm | hd
        · by_cases hu : url = u
          · exact .inr (named k (Ne.symm hk) (hu ▸ ht) h)
          · exact .inl (by rw [if_neg hu]; exact hm)
        · exact .inr (hd.snoc (fun _ hc => hk (hc.unique hr).2))
    · rw [he, SlimeRouter.urlsByKey_unregisterWorker] at h
      rw [he, SlimeRouter.keysByUrl_unregisterWorker]
      split_ifs at h with hx
      rcases ih h with hm | hd
      · by_cases hu : url = u
        · have hk : k ≠ key := by
            intro hk
            exact hx ⟨hk.symm, by rw [hk, ← hu]; exact h⟩
          exact .inr (named k hk (hu ▸ ht) h)
        · exact .inl (by rw [if_neg hu]; exact hm)
      · exact .inr (hd.snoc (fun _ => RegistryCall.not_registers hn _ _))

/-- The recorded key of a url maps to it, or has moved on to another url. -/
theorem recorded_or_movedOn (calls : List RegistryCall) (key url : String)
    (h : (runCalls calls).workerKeysByUrl.lookup url = some key) :
    (runCalls calls).workerUrlsByKey.lookup key = some url ∨ MovedOn calls key url := by
  induction calls using List.reverseRecOn with
  | nil => simp [runCalls, SlimeRouter.init] at h
  | append_singleton calls c ih =>
    rw [runCalls_snoc] at h ⊢
    rcases c.apply_cases (runCalls calls) with ⟨-, hn, he⟩ | ⟨u, k, -, hr, he⟩ | ⟨u, k, -, hn, he⟩
    · rw [he] at h ⊢
      rcases ih h with hm | hd
      · exact .inl hm
      · exact .inr (hd.snoc (fun _ => RegistryCall.not_registers hn _ _))
    · rw [he, SlimeRouter.keysByUrl_registerWorker] at h
      rw [he, SlimeRouter.urlsByKey_registerWorker]
      by_cases hu : url = u
      · have hk : k = key := by simpa [hu] using h
        exact .inl (by simp [hu, hk])
      · rw [if_neg hu] at h
        rcases ih h with hm | hd
        · by_cases hk : key = k
          · exact .inr ⟨calls, c, [], rfl, h, ⟨u, Ne.symm hu, hk ▸ hr⟩, by simp⟩
          · exact .inl (by rw [if_neg hk]; exact hm)
        · exact .inr (hd.snoc (fun _ hc => hu (hc.unique hr).1))
    · rw [he, SlimeRouter.keysByUrl_unregisterWorker] at h
      rw [he, SlimeRouter.urlsByKey_unregisterWorker]
      split_ifs at h with hu
      rcases ih h with hm | hd
      · have hx : ¬(key = k ∧ (runCalls calls).workerUrlsByKey.lookup k = some u) := by
          intro hx
          obtain ⟨rfl, hk⟩ := hx
          exact hu (Option.some.inj (hm.symm.trans hk))
        exact .inl (by rw [if_neg hx]; exact hm)
      · exact .inr (hd.snoc (fun _ => RegistryCall.not_registers hn _ _))

end Belayer.Router
