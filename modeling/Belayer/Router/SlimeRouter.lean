import Belayer.Framework.Dict
import Mathlib.Data.List.Sort
import Mathlib.Data.String.Basic
import Mathlib.Order.Lattice.Nat

namespace Belayer.Router

open Belayer.Framework

/-- The registry and the load state of the router. Worker urls and worker keys
are both plain strings, as a missing key defaults to the url. -/
structure SlimeRouter where
  workerRequestCounts : Dict String Int
  workerKeysByUrl : Dict String String
  workerUrlsByKey : Dict String String
  workerRegistrationSeqByKey : Dict String Nat
  workerRegistrationSeqByUrl : Dict String Nat
  workerRecoveryEventsByKey : Dict String Bool
  workerFailureCounts : Dict String Nat
  workerSelectionCursor : Nat

/-- The state that `__init__` builds. -/
def SlimeRouter.init : SlimeRouter := ⟨∅, ∅, ∅, ∅, ∅, ∅, ∅, 0⟩

/-- The query parameters and the JSON body of an `/add_worker` or
`/remove_worker` request. -/
structure WorkerRequest where
  queryUrl : Option String := none
  queryWorkerUrl : Option String := none
  queryWorkerKey : Option String := none
  bodyUrl : Option String := none
  bodyWorkerUrl : Option String := none
  bodyWorkerKey : Option String := none
  deriving DecidableEq

/-- A missing and an empty string are both false in Python. -/
def truthy (s : Option String) : Option String := s.filter (· ≠ "")

/-- What the two endpoints answer. -/
inductive WorkerReply where
  | badRequest (error : String)
  | added (workerUrls : Dict String Int)
  | removed (removed : Bool) (workerUrls : List String)

def workerUrlRequired : String := "worker_url is required (use query ?url=... or JSON body)"

namespace SlimeRouter

/-- The url and the key `add_worker` works with; `none` when no url is given.
The body is read when the query leaves out either of them. -/
def addArgs (req : WorkerRequest) : Option (String × String) :=
  let workerUrl := truthy req.queryUrl <|> truthy req.queryWorkerUrl
  let workerKey := truthy req.queryWorkerKey
  let fromBody := workerUrl.isNone || workerKey.isNone
  let workerUrl := if fromBody then
    workerUrl <|> truthy req.bodyUrl <|> truthy req.bodyWorkerUrl else workerUrl
  let workerKey := if fromBody then workerKey <|> truthy req.bodyWorkerKey else workerKey
  workerUrl.map fun url => (url, workerKey.getD url)

/-- The url and the key `remove_worker` works with. Here the body is read only
when the query has no url, and a missing key defaults to the recorded one. -/
def removeArgs (r : SlimeRouter) (req : WorkerRequest) : Option (String × String) :=
  let workerUrl := truthy req.queryUrl <|> truthy req.queryWorkerUrl
  let workerKey := truthy req.queryWorkerKey
  let fromBody := workerUrl.isNone
  let workerUrl := if fromBody then
    workerUrl <|> truthy req.bodyUrl <|> truthy req.bodyWorkerUrl else workerUrl
  let workerKey := if fromBody then workerKey <|> truthy req.bodyWorkerKey else workerKey
  workerUrl.map fun url =>
    (url, (workerKey <|> truthy (r.workerKeysByUrl.lookup url)).getD url)

/-- The state change of `add_worker` once its arguments are known. A url that
is already registered keeps its request count. -/
def registerWorker (r : SlimeRouter) (workerUrl workerKey : String) : SlimeRouter :=
  let seq := Dict.getD r.workerRegistrationSeqByKey workerKey 0 + 1
  { r with
    workerRequestCounts :=
      if workerUrl ∈ r.workerRequestCounts then r.workerRequestCounts
      else r.workerRequestCounts.insert workerUrl 0
    workerFailureCounts := r.workerFailureCounts.insert workerUrl 0
    workerKeysByUrl := r.workerKeysByUrl.insert workerUrl workerKey
    workerUrlsByKey := r.workerUrlsByKey.insert workerKey workerUrl
    workerRegistrationSeqByKey := r.workerRegistrationSeqByKey.insert workerKey seq
    workerRegistrationSeqByUrl := r.workerRegistrationSeqByUrl.insert workerUrl seq
    workerRecoveryEventsByKey := r.workerRecoveryEventsByKey.insert workerKey true }

/-- The state change of `remove_worker` once its arguments are known. -/
def unregisterWorker (r : SlimeRouter) (workerUrl workerKey : String) : SlimeRouter :=
  { r with
    workerRequestCounts := r.workerRequestCounts.erase workerUrl
    workerFailureCounts := r.workerFailureCounts.erase workerUrl
    workerRegistrationSeqByUrl := r.workerRegistrationSeqByUrl.erase workerUrl
    workerKeysByUrl := r.workerKeysByUrl.erase workerUrl
    workerUrlsByKey :=
      if r.workerUrlsByKey.lookup workerKey = some workerUrl then
        r.workerUrlsByKey.erase workerKey
      else r.workerUrlsByKey }

def addWorker (r : SlimeRouter) (req : WorkerRequest) : SlimeRouter × WorkerReply :=
  match addArgs req with
  | none => (r, .badRequest workerUrlRequired)
  | some (workerUrl, workerKey) =>
    let r' := r.registerWorker workerUrl workerKey
    (r', .added r'.workerRequestCounts)

def removeWorker (r : SlimeRouter) (req : WorkerRequest) : SlimeRouter × WorkerReply :=
  match r.removeArgs req with
  | none => (r, .badRequest workerUrlRequired)
  | some (workerUrl, workerKey) =>
    let existed := decide (workerUrl ∈ r.workerRequestCounts)
    let r' := r.unregisterWorker workerUrl workerKey
    (r', .removed existed r'.workerRequestCounts.keys)

/-- `worker_request_counts[url]`. -/
def requestCount (r : SlimeRouter) (url : String) : Int := Dict.getD r.workerRequestCounts url 0

/-- `worker_registration_seq_by_url.get(url, 0)`. -/
def seqByUrl (r : SlimeRouter) (url : String) : Nat := Dict.getD r.workerRegistrationSeqByUrl url 0

/-- `worker_registration_seq_by_key.get(key, 0)`. -/
def seqByKey (r : SlimeRouter) (key : String) : Nat := Dict.getD r.workerRegistrationSeqByKey key 0

/-- The registered workers a selection may choose from. -/
def candidates (r : SlimeRouter) (excludeWorkers : List String) : List String :=
  r.workerRequestCounts.keys.filter (· ∉ excludeWorkers)

/-- Pick among the least loaded candidates, in sorted order, by a cursor that
moves on with every selection. -/
def selectLeastLoadedWorkerUrl (r : SlimeRouter) (excludeWorkers : List String) :
    Except String (String × SlimeRouter) :=
  let candidates := r.candidates excludeWorkers
  match (candidates.map r.requestCount).min? with
  | none => .error "No workers available in the pool"
  | some minRequestCount =>
    let leastLoadedWorkers :=
      (candidates.filter (r.requestCount · = minRequestCount)).insertionSort (· ≤ ·)
    match leastLoadedWorkers[r.workerSelectionCursor % leastLoadedWorkers.length]? with
    | none => .error "list index out of range"
    | some url => .ok (url, { r with workerSelectionCursor := r.workerSelectionCursor + 1 })

/-- One more active request on the url. -/
def countRequest (r : SlimeRouter) (url : String) : SlimeRouter :=
  { r with workerRequestCounts := r.workerRequestCounts.insert url (r.requestCount url + 1) }

/-- `_use_url`: reserve the selected worker; the registration number of its url
goes with the reservation. -/
def useUrl (r : SlimeRouter) (excludeWorkers : List String) :
    Except String (SlimeRouter × String × Nat) :=
  match r.selectLeastLoadedWorkerUrl excludeWorkers with
  | .error e => .error e
  | .ok (url, r') => .ok (r'.countRequest url, url, r.seqByUrl url)

/-- `_reserve_url`: reserve one given worker. -/
def reserveUrl (r : SlimeRouter) (url : String) : Except String (SlimeRouter × Nat) :=
  if url ∉ r.workerRequestCounts then .error s!"Cannot reserve unknown worker url {url}"
  else .ok (r.countRequest url, r.seqByUrl url)

/-- `_finish_url`: a completion counts only on the registration it was reserved
on. The decrement stands even when the assertion after it fails. -/
def finishUrl (r : SlimeRouter) (url : String) (expectedSeq : Option Nat) :
    SlimeRouter × Except String Unit :=
  if url ∉ r.workerRequestCounts then (r, .ok ())
  else if expectedSeq.any (r.seqByUrl url ≠ ·) then (r, .ok ())
  else
    let count := r.requestCount url - 1
    let r' := { r with workerRequestCounts := r.workerRequestCounts.insert url count }
    if 0 ≤ count then (r', .ok ()) else (r', .error s!"URL {url} count went negative")

/-- A failure seen by a proxied request. -/
def recordFailure (r : SlimeRouter) (url : String) : SlimeRouter :=
  { r with
    workerFailureCounts :=
      r.workerFailureCounts.insert url (Dict.getD r.workerFailureCounts url 0 + 1) }

/-! ### What the operations change -/

section Register

variable (r : SlimeRouter) (url key : String)

@[simp] theorem mem_counts_registerWorker (u : String) :
    u ∈ (r.registerWorker url key).workerRequestCounts ↔
      u = url ∨ u ∈ r.workerRequestCounts := by
  unfold registerWorker
  dsimp only
  split_ifs with h
  · constructor
    · exact Or.inr
    · intro hx
      rcases hx with rfl | hu
      · exact h
      · exact hu
  · simp

@[simp] theorem keysByUrl_registerWorker (u : String) :
    (r.registerWorker url key).workerKeysByUrl.lookup u =
      if u = url then some key else r.workerKeysByUrl.lookup u :=
  Dict.lookup_insert_ite _ _ _ _

@[simp] theorem urlsByKey_registerWorker (k : String) :
    (r.registerWorker url key).workerUrlsByKey.lookup k =
      if k = key then some url else r.workerUrlsByKey.lookup k :=
  Dict.lookup_insert_ite _ _ _ _

@[simp] theorem seqByKey_registerWorker (k : String) :
    (r.registerWorker url key).seqByKey k = if k = key then r.seqByKey key + 1 else r.seqByKey k :=
  Dict.getD_insert_ite _ _ _ _ _

@[simp] theorem seqByUrl_registerWorker (u : String) :
    (r.registerWorker url key).seqByUrl u = if u = url then r.seqByKey key + 1 else r.seqByUrl u :=
  Dict.getD_insert_ite _ _ _ _ _

@[simp] theorem requestCount_registerWorker (u : String) :
    (r.registerWorker url key).requestCount u = r.requestCount u := by
  unfold requestCount registerWorker
  dsimp only
  split_ifs with h
  · rfl
  · by_cases hu : u = url
    · subst u
      simp [Dict.getD_insert_ite, Dict.getD_of_not_mem h]
    · simp [Dict.getD_insert_ite, hu]

end Register

section Unregister

variable (r : SlimeRouter) (url key : String)

@[simp] theorem mem_counts_unregisterWorker (u : String) :
    u ∈ (r.unregisterWorker url key).workerRequestCounts ↔
      u ≠ url ∧ u ∈ r.workerRequestCounts := by
  simp [unregisterWorker]

@[simp] theorem keysByUrl_unregisterWorker (u : String) :
    (r.unregisterWorker url key).workerKeysByUrl.lookup u =
      if u = url then none else r.workerKeysByUrl.lookup u :=
  Dict.lookup_erase_ite _ _ _

@[simp] theorem urlsByKey_unregisterWorker (k : String) :
    (r.unregisterWorker url key).workerUrlsByKey.lookup k =
      if k = key ∧ r.workerUrlsByKey.lookup key = some url then none
      else r.workerUrlsByKey.lookup k := by
  by_cases h : r.workerUrlsByKey.lookup key = some url
  · simp [unregisterWorker, h, Dict.lookup_erase_ite]
  · simp [unregisterWorker, h]

@[simp] theorem seqByKey_unregisterWorker (k : String) :
    (r.unregisterWorker url key).seqByKey k = r.seqByKey k := rfl

@[simp] theorem seqByUrl_unregisterWorker (u : String) :
    (r.unregisterWorker url key).seqByUrl u = if u = url then 0 else r.seqByUrl u :=
  Dict.getD_erase_ite _ _ _ _

@[simp] theorem requestCount_unregisterWorker (u : String) :
    (r.unregisterWorker url key).requestCount u = if u = url then 0 else r.requestCount u :=
  Dict.getD_erase_ite _ _ _ _

end Unregister

section Reserve

variable (r : SlimeRouter) (url : String)

theorem mem_counts_countRequest (u : String) :
    u ∈ (r.countRequest url).workerRequestCounts ↔ u = url ∨ u ∈ r.workerRequestCounts := by
  simp [countRequest]

@[simp] theorem requestCount_countRequest (u : String) :
    (r.countRequest url).requestCount u =
      if u = url then r.requestCount url + 1 else r.requestCount u :=
  Dict.getD_insert_ite _ _ _ _ _

@[simp] theorem keysByUrl_countRequest :
    (r.countRequest url).workerKeysByUrl = r.workerKeysByUrl := rfl

@[simp] theorem urlsByKey_countRequest :
    (r.countRequest url).workerUrlsByKey = r.workerUrlsByKey := rfl

@[simp] theorem seqByKey_countRequest (k : String) :
    (r.countRequest url).seqByKey k = r.seqByKey k := rfl

@[simp] theorem seqByUrl_countRequest (u : String) :
    (r.countRequest url).seqByUrl u = r.seqByUrl u := rfl

end Reserve

/-- A selection finds a registered worker outside the excluded ones and only
moves the cursor. -/
theorem selectLeastLoadedWorkerUrl_ok {r r' : SlimeRouter} {excluded : List String} {url : String}
    (h : r.selectLeastLoadedWorkerUrl excluded = .ok (url, r')) :
    url ∈ r.workerRequestCounts ∧ url ∉ excluded ∧
      r' = { r with workerSelectionCursor := r.workerSelectionCursor + 1 } := by
  unfold selectLeastLoadedWorkerUrl at h
  dsimp only at h
  split at h
  · cases h
  · split at h
    · cases h
    · rename_i hget
      cases h
      have hmem := (List.mem_insertionSort _).mp (List.mem_of_getElem? hget)
      have hc := (List.mem_filter.mp hmem).1
      simp only [candidates, List.mem_filter, decide_eq_true_eq] at hc
      exact ⟨AList.mem_keys.mpr hc.1, hc.2, rfl⟩

/-- A selection fails only when every registered worker is excluded. -/
theorem selectLeastLoadedWorkerUrl_error {r : SlimeRouter} {excluded : List String} {e : String}
    (h : r.selectLeastLoadedWorkerUrl excluded = .error e) :
    ∀ url ∈ r.workerRequestCounts, url ∈ excluded := by
  unfold selectLeastLoadedWorkerUrl at h
  dsimp only at h
  split at h
  · rename_i hmin
    have hnil : r.candidates excluded = [] := by simpa using hmin
    intro url hu
    by_contra hx
    have hc : url ∈ r.candidates excluded := by
      simp [candidates, hx, AList.mem_keys.mp hu]
    simp [hnil] at hc
  · rename_i m hmin
    split at h
    · -- the minimum is attained, so the index stays inside the sorted list
      rename_i hget
      exfalso
      obtain ⟨url, hu, hm⟩ := List.mem_map.mp (List.min?_mem hmin)
      have hlen : 0 < ((r.candidates excluded).filter (r.requestCount · = m)).length :=
        List.length_pos_of_mem (List.mem_filter.mpr ⟨hu, by simpa using hm⟩)
      rw [List.getElem?_eq_none_iff, List.length_insertionSort] at hget
      exact absurd (Nat.mod_lt r.workerSelectionCursor hlen) (by omega)
    · cases h

theorem useUrl_ok {r r' : SlimeRouter} {excluded : List String} {url : String} {seq : Nat}
    (h : r.useUrl excluded = .ok (r', url, seq)) :
    url ∈ r.workerRequestCounts ∧ url ∉ excluded ∧ seq = r.seqByUrl url ∧
      r' = { r.countRequest url with workerSelectionCursor := r.workerSelectionCursor + 1 } := by
  unfold useUrl at h
  split at h
  · cases h
  · rename_i hs
    cases h
    obtain ⟨hm, hx, rfl⟩ := selectLeastLoadedWorkerUrl_ok hs
    exact ⟨hm, hx, rfl, rfl⟩

theorem reserveUrl_ok {r r' : SlimeRouter} {url : String} {seq : Nat}
    (h : r.reserveUrl url = .ok (r', seq)) :
    url ∈ r.workerRequestCounts ∧ seq = r.seqByUrl url ∧ r' = r.countRequest url := by
  unfold reserveUrl at h
  split_ifs at h with hm
  cases h
  exact ⟨hm, rfl, rfl⟩

/-- Exactly the registered urls can be reserved. -/
theorem reserveUrl_isOk_iff (r : SlimeRouter) (url : String) :
    (∃ p, r.reserveUrl url = .ok p) ↔ url ∈ r.workerRequestCounts := by
  unfold reserveUrl
  split_ifs with h <;> simp [h]

end SlimeRouter

end Belayer.Router
