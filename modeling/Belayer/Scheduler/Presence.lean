import Belayer.Scheduler.Conservation

namespace Belayer.Scheduler

open Belayer.Framework

/-- What is known of a request apart from its prediction. -/
def PendingPrompt.key (r : PendingPrompt) : Nat × String := (r.call, r.promptId)

namespace OnlineEnvDockerScheduler

/-- The scheduler has something of the prompt: a pending entry, an active reservation, or a lease
that is mapped to it. -/
def Holds (s : OnlineEnvDockerScheduler) (promptId : String) : Prop :=
  (∃ r ∈ s.pending, r.promptId = promptId) ∨ promptId ∈ s.activePrompts ∨
    ∃ leaseId, s.leaseToPrompt.lookup leaseId = some promptId

instance (s : OnlineEnvDockerScheduler) (promptId : String) : Decidable (s.Holds promptId) :=
  decidable_of_iff ((∃ r ∈ s.pending, r.promptId = promptId) ∨ promptId ∈ s.activePrompts ∨
    ∃ e ∈ s.leaseToPrompt.entries, e.2 = promptId) (by
      have hleases : (∃ e ∈ s.leaseToPrompt.entries, e.2 = promptId) ↔
          ∃ leaseId, s.leaseToPrompt.lookup leaseId = some promptId := by
        constructor
        · rintro ⟨⟨leaseId, q⟩, he, rfl⟩
          exact ⟨leaseId, AList.mem_lookup_iff.mpr he⟩
        · rintro ⟨leaseId, hlease⟩
          exact ⟨⟨leaseId, promptId⟩, AList.mem_lookup_iff.mp hlease, rfl⟩
      rw [hleases]
      rfl)

/-- Every lease is mapped to an active prompt that has it. -/
def Mapped (s : OnlineEnvDockerScheduler) : Prop :=
  ∀ leaseId promptId, s.leaseToPrompt.lookup leaseId = some promptId →
    ∃ active, s.activePrompts.lookup promptId = some active ∧ leaseId ∈ active.leases

/-- What the scheduler has of the prompt of a call. -/
def CallAt (s : OnlineEnvDockerScheduler) (j : Nat) (promptId : String) : AdmitCall → Prop
  | .requested r => r.call = j ∧ r.promptId = promptId ∧ promptId ∉ s.activePrompts
  | .waiting => (∃ r ∈ s.pending, r.promptId = promptId) ∧ promptId ∉ s.activePrompts
  | .admitted r => r.promptId = promptId ∧ promptId ∈ s.activePrompts
  | .returned ticket => ticket.promptId = promptId
  | .cancelled => True

/-- The pending and active prompts are those of the calls, whose ids are given in order. -/
structure Placed (s : OnlineEnvDockerScheduler) (ids : List String) : Prop where
  stored : s.Stored fun _ => True
  nodup : ids.Nodup
  length : s.calls.length = ids.length
  calls : ∀ j c promptId, s.calls[j]? = some c → ids[j]? = some promptId → s.CallAt j promptId c
  pending : ∀ r ∈ s.pending, ids[r.call]? = some r.promptId ∧ r.promptId ∉ s.activePrompts ∧
    (s.calls[r.call]? = some .waiting ∨ s.calls[r.call]? = some .cancelled)
  active : ∀ promptId ∈ s.activePrompts, promptId ∈ ids
  mapped : s.Mapped

variable {lower : String → String} {s s' : OnlineEnvDockerScheduler} {ids : List String}
  {promptId leaseId : String} {active : ActivePrompt} {now : ℚ}
  {aggregated : List (String × RepoResourceProfile)} {j : Nat}

/-- A mapped lease says nothing that the active prompts do not. -/
theorem Mapped.holds_iff (hm : s.Mapped) :
    s.Holds promptId ↔ (∃ r ∈ s.pending, r.promptId = promptId) ∨ promptId ∈ s.activePrompts := by
  unfold Holds
  constructor
  · rintro (hpending | hactive | ⟨leaseId, hlease⟩)
    · exact .inl hpending
    · exact .inr hactive
    · obtain ⟨active, hlookup, -⟩ := hm leaseId promptId hlease
      refine .inr ?_
      rw [← AList.lookup_isSome, hlookup]
      rfl
  · rintro (hpending | hactive)
    · exact .inl hpending
    · exact .inr (.inl hactive)

/-- The calls of different places have different ids. -/
theorem Placed.eq_of_id (h : s.Placed ids) {i : Nat} (hi : ids[i]? = some promptId)
    (hj : ids[j]? = some promptId) : i = j := by
  obtain ⟨hlt, -⟩ := List.getElem?_eq_some_iff.mp hi
  exact (List.getElem?_inj hlt h.nodup).mp (hi.trans hj.symm)

theorem Placed.id_of_call (h : s.Placed ids) {c : AdmitCall} (hc : s.calls[j]? = some c) :
    ∃ promptId, ids[j]? = some promptId := by
  obtain ⟨hlt, -⟩ := List.getElem?_eq_some_iff.mp hc
  rw [h.length] at hlt
  exact ⟨ids[j], List.getElem?_eq_getElem hlt⟩

/-- The request of a call is pending only as long as the call waits, or when it is cancelled. -/
theorem Placed.call_of_pending (h : s.Placed ids) (hj : ids[j]? = some promptId)
    (hp : ∃ r ∈ s.pending, r.promptId = promptId) :
    s.calls[j]? = some .waiting ∨ s.calls[j]? = some .cancelled := by
  obtain ⟨r, hr, hid⟩ := hp
  obtain ⟨hcall, -, hphase⟩ := h.pending r hr
  rw [hid] at hcall
  rw [← h.eq_of_id hcall hj]
  exact hphase

section Frame

/-- The calls are as they were, and no prompt of an admitted call is lost. -/
theorem Placed.frame (h : s.Placed ids) (hstored : s'.Stored fun _ => True)
    (hpending : (s'.pending.map (·.key)).Perm (s.pending.map (·.key)))
    (hcalls : s'.calls = s.calls) (hsub : ∀ q ∈ s'.activePrompts, q ∈ s.activePrompts)
    (hkeep : ∀ r, .admitted r ∈ s.calls → r.promptId ∈ s.activePrompts →
      r.promptId ∈ s'.activePrompts) (hmapped : s'.Mapped) : s'.Placed ids := by
  have hkey : ∀ r ∈ s'.pending, ∃ q ∈ s.pending, q.call = r.call ∧ q.promptId = r.promptId := by
    intro r hr
    obtain ⟨q, hq, he⟩ := List.mem_map.mp (hpending.subset (List.mem_map_of_mem hr))
    exact ⟨q, hq, congrArg Prod.fst he, congrArg Prod.snd he⟩
  have hkey' : ∀ r ∈ s.pending, ∃ q ∈ s'.pending, q.promptId = r.promptId := by
    intro r hr
    obtain ⟨q, hq, he⟩ := List.mem_map.mp (hpending.symm.subset (List.mem_map_of_mem hr))
    exact ⟨q, hq, congrArg Prod.snd he⟩
  refine ⟨hstored, h.nodup, ?_, ?_, ?_, ?_, hmapped⟩
  · rw [hcalls]
    exact h.length
  · intro j c q hc hq
    rw [hcalls] at hc
    have hat := h.calls j c q hc hq
    cases c with
    | requested r =>
      obtain ⟨hcall, hid, hnot⟩ := hat
      exact ⟨hcall, hid, fun hmem => hnot (hsub q hmem)⟩
    | waiting =>
      obtain ⟨⟨r, hr, hid⟩, hnot⟩ := hat
      obtain ⟨r', hr', hsame⟩ := hkey' r hr
      exact ⟨⟨r', hr', hsame.trans hid⟩, fun hmem => hnot (hsub q hmem)⟩
    | admitted r =>
      obtain ⟨hid, hmem⟩ := hat
      refine ⟨hid, ?_⟩
      rw [← hid] at hmem ⊢
      exact hkeep r (List.mem_of_getElem? hc) hmem
    | returned ticket => exact hat
    | cancelled => trivial
  · intro r hr
    obtain ⟨q, hq, hcall, hid⟩ := hkey r hr
    rw [hcalls, ← hcall, ← hid]
    obtain ⟨hat, hnot, hphase⟩ := h.pending q hq
    exact ⟨hat, fun hmem => hnot (hsub _ hmem), hphase⟩
  · intro q hq
    exact h.active q (hsub q hq)

theorem Touched.mem_activePrompts (h : s.Touched s') :
    promptId ∈ s'.activePrompts ↔ promptId ∈ s.activePrompts := by
  obtain ⟨-, -, -, -, he | ⟨q, active, active', hl, -, he⟩⟩ := h
  · rw [he]
  · rw [he]
    exact Dict.mem_insert_of_lookup hl

theorem Placed.touched (h : s.Placed ids) (ht : s.Touched s') (hm : s'.Mapped) : s'.Placed ids := by
  have hactive : ∀ q, q ∈ s'.activePrompts ↔ q ∈ s.activePrompts := fun q => ht.mem_activePrompts
  apply h.frame (h.stored.touched ht) _ ht.2.2.1 (fun q hq => (hactive q).mp hq)
    (fun r _ hr => (hactive _).mpr hr) hm
  rw [ht.2.1]

end Frame

section Leases

theorem lookup_setActive (q : String) :
    (s.setActive promptId active).activePrompts.lookup q =
      if q = promptId then some active else s.activePrompts.lookup q :=
  Dict.lookup_insert_ite _ _ _ _

/-- An active prompt that keeps its leases. -/
theorem Mapped.setActive (hm : s.Mapped) {active' : ActivePrompt}
    (hl : s.activePrompts.lookup promptId = some active)
    (hsub : ∀ l ∈ active.leases, l ∈ active'.leases) : (s.setActive promptId active').Mapped := by
  intro l q hlookup
  obtain ⟨a, ha, hmem⟩ := hm l q hlookup
  rw [lookup_setActive]
  split_ifs with hq
  · rw [hq, hl] at ha
    obtain rfl := Option.some.inj ha
    exact ⟨active', rfl, hsub l hmem⟩
  · exact ⟨a, ha, hmem⟩

theorem Mapped.attachLease (hm : s.Mapped) : (s.attachLease promptId leaseId).Mapped := by
  unfold OnlineEnvDockerScheduler.attachLease
  split_ifs
  · exact hm
  · split
    · exact hm
    · rename_i active hactive
      have hmore : (s.setActive promptId (active.addLease leaseId)).Mapped := by
        apply hm.setActive hactive
        intro l hl
        exact List.mem_insert_of_mem hl
      intro l q hlookup
      rw [Dict.lookup_insert_ite] at hlookup
      split_ifs at hlookup with hsame
      · cases hlookup
        refine ⟨active.addLease leaseId, ?_, ?_⟩
        · exact AList.lookup_insert _
        · rw [hsame]
          exact List.mem_insert_self
      · exact hmore l q hlookup

/-- A lease that is unmapped, and may be taken from its prompt. -/
theorem Mapped.drop (hm : s.Mapped) {active' : ActivePrompt}
    (hl : s.activePrompts.lookup promptId = some active)
    (hsub : ∀ l ∈ active.leases, l ≠ leaseId → l ∈ active'.leases) :
    Mapped { s.setActive promptId active' with
      leaseToPrompt := AList.erase leaseId s.leaseToPrompt } := by
  intro l q hlookup
  rw [Dict.lookup_erase_ite] at hlookup
  split_ifs at hlookup with hsame
  obtain ⟨a, ha, hmem⟩ := hm l q hlookup
  change ∃ a, (s.setActive promptId active').activePrompts.lookup q = some a ∧ l ∈ a.leases
  rw [lookup_setActive]
  split_ifs with hq
  · rw [hq, hl] at ha
    obtain rfl := Option.some.inj ha
    exact ⟨active', rfl, hsub l hmem hsame⟩
  · exact ⟨a, ha, hmem⟩

theorem Mapped.detachLease (hm : s.Mapped) : (s.detachLease leaseId).Mapped := by
  unfold OnlineEnvDockerScheduler.detachLease
  split_ifs
  · exact hm
  · split
    · exact hm
    · rename_i q hq
      dsimp only
      split
      · intro l q' hlookup
        rw [Dict.lookup_erase_ite] at hlookup
        split_ifs at hlookup
        exact hm l q' hlookup
      · rename_i active hactive
        apply hm.drop hactive
        intro l hl hne
        exact (List.mem_erase_of_ne hne).mpr hl

theorem Mapped.recordLeaseStatsPayload (hm : s.Mapped) {payload : LeaseStatsPayload} :
    (s.recordLeaseStatsPayload leaseId promptId payload).Mapped := by
  unfold OnlineEnvDockerScheduler.recordLeaseStatsPayload
  split
  · exact hm
  · rename_i active hactive
    exact hm.setActive hactive fun _ hl => hl

theorem Mapped.recordLeaseStatsError (hm : s.Mapped) {isUnknownLease : Bool} :
    (s.recordLeaseStatsError leaseId promptId isUnknownLease).Mapped := by
  unfold OnlineEnvDockerScheduler.recordLeaseStatsError
  split
  · exact hm
  · rename_i active hactive
    cases hdropped : isUnknownLease || 3 ≤ active.failures leaseId with
    | true =>
      simp only [↓reduceIte]
      apply hm.drop hactive
      intro l hl hne
      exact (List.mem_erase_of_ne hne).mpr hl
    | false =>
      simp only [Bool.false_eq_true, ↓reduceIte]
      exact hm.setActive hactive fun _ hl => hl

theorem lookup_foldl_erase (leases : List String) (d : Dict String String) (l : String) :
    (leases.foldl (fun d l => AList.erase l d) d).lookup l =
      if l ∈ leases then none else d.lookup l := by
  induction leases generalizing d with
  | nil => rfl
  | cons a leases ih =>
    rw [List.foldl_cons, ih, Dict.lookup_erase_ite]
    by_cases hmem : l ∈ leases
    · rw [if_pos hmem, if_pos (List.mem_cons_of_mem a hmem)]
    · by_cases hsame : l = a
      · rw [if_neg hmem, if_pos hsame, if_pos (hsame ▸ List.mem_cons_self)]
      · rw [if_neg hmem, if_neg hsame, if_neg (by simp [hsame, hmem])]

/-- The leases of a prompt go with it. -/
theorem Mapped.release (hm : s.Mapped) (hl : s.activePrompts.lookup promptId = some active) :
    (s.release promptId active).Mapped := by
  intro l q hlookup
  change (active.leases.foldl (fun d l => AList.erase l d) s.leaseToPrompt).lookup l = some q
    at hlookup
  rw [lookup_foldl_erase] at hlookup
  split_ifs at hlookup with hmem
  obtain ⟨a, ha, hla⟩ := hm l q hlookup
  refine ⟨a, ?_, hla⟩
  have hne : q ≠ promptId := by
    intro hq
    rw [hq, hl] at ha
    obtain rfl := Option.some.inj ha
    exact hmem hla
  change (AList.erase promptId s.activePrompts).lookup q = some a
  rw [Dict.lookup_erase_ite, if_neg hne]
  exact ha

end Leases

section Finish

theorem keys_finishPrompt (lower : String → String) (now : ℚ)
    (aggregated : List (String × RepoResourceProfile))
    (hl : s.activePrompts.lookup promptId = some active) :
    let s' := s.finishPrompt lower promptId now aggregated
    s'.pending.map (·.key) = s.pending.map (·.key) ∧ s'.calls = s.calls ∧
      s'.activePrompts = (s.release promptId active).activePrompts ∧
        s'.leaseToPrompt = (s.release promptId active).leaseToPrompt := by
  unfold finishPrompt
  rw [hl]
  dsimp only
  split_ifs
  · refine ⟨?_, ?_, ?_, ?_⟩
    · rw [refreshPendingPredictionsForKey]
      simp only [predictForKey, refreshResourceProfiles]
      rw [Ledger.map_renewPredictions _ fun _ => rfl]
      split_ifs <;> rfl
    all_goals
      simp only [refreshPendingPredictionsForKey, predictForKey, refreshResourceProfiles]
      split_ifs <;> rfl
  · exact ⟨rfl, rfl, rfl, rfl⟩

/-- A prompt whose call has returned leaves. -/
theorem Placed.remove (h : s.Placed ids) {ticket : PromptAdmissionTicket}
    (hj : ids[j]? = some promptId) (hc : s.calls[j]? = some (.returned ticket))
    (hl : s.activePrompts.lookup promptId = some active) (hstored : s'.Stored fun _ => True)
    (hpending : s'.pending.map (·.key) = s.pending.map (·.key)) (hcalls : s'.calls = s.calls)
    (hactive : s'.activePrompts = (s.release promptId active).activePrompts)
    (hleases : s'.leaseToPrompt = (s.release promptId active).leaseToPrompt) : s'.Placed ids := by
  have hmem : ∀ q, q ∈ s'.activePrompts ↔ q ≠ promptId ∧ q ∈ s.activePrompts := by
    intro q
    rw [hactive]
    exact AList.mem_erase
  apply h.frame hstored _ hcalls (fun q hq => ((hmem q).mp hq).2)
  · intro r hr hbefore
    refine (hmem _).mpr ⟨?_, hbefore⟩
    intro hsame
    obtain ⟨i, hi⟩ := List.mem_iff_getElem?.mp hr
    obtain ⟨q, hq⟩ := h.id_of_call hi
    obtain ⟨hid, -⟩ := h.calls i _ q hi hq
    rw [← hid, hsame] at hq
    rw [h.eq_of_id hq hj, hc] at hi
    cases hi
  · have hm := h.mapped.release hl
    intro l q hlookup
    rw [hleases] at hlookup
    rw [hactive]
    exact hm l q hlookup
  · rw [hpending]

theorem Placed.finishPrompt (h : s.Placed ids) {ticket : PromptAdmissionTicket}
    (hj : ids[j]? = some promptId) (hc : s.calls[j]? = some (.returned ticket)) :
    (s.finishPrompt lower promptId now aggregated).Placed ids := by
  cases hl : s.activePrompts.lookup promptId with
  | none =>
    unfold OnlineEnvDockerScheduler.finishPrompt
    rw [hl]
    exact h
  | some active =>
    obtain ⟨hpending, hcalls, hactive, hleases⟩ := keys_finishPrompt lower now aggregated hl
    exact h.remove hj hc hl h.stored.finishPrompt hpending hcalls hactive hleases

theorem Placed.release (h : s.Placed ids) {ticket : PromptAdmissionTicket}
    (hj : ids[j]? = some promptId) (hc : s.calls[j]? = some (.returned ticket))
    (hl : s.activePrompts.lookup promptId = some active) :
    (s.release promptId active).Placed ids :=
  h.remove hj hc hl h.stored.release rfl rfl rfl rfl

/-- Of the prompt nothing is active any more, and all else is as it was. -/
structure Frees (s s' : OnlineEnvDockerScheduler) (promptId : String) : Prop where
  calls : s'.calls = s.calls
  active : ∀ q, q ∈ s'.activePrompts ↔ q ≠ promptId ∧ q ∈ s.activePrompts
  pending : s'.pending.map (·.key) = s.pending.map (·.key)

theorem frees_of_lookup_none (hl : s.activePrompts.lookup promptId = none) : s.Frees s promptId := by
  refine ⟨rfl, fun q => ⟨fun hq => ⟨?_, hq⟩, fun hq => hq.2⟩, rfl⟩
  rintro rfl
  exact AList.lookup_eq_none.mp hl hq

theorem frees_release : s.Frees (s.release promptId active) promptId :=
  ⟨rfl, fun _ => AList.mem_erase, rfl⟩

theorem frees_finishPrompt :
    s.Frees (s.finishPrompt lower promptId now aggregated) promptId := by
  cases hl : s.activePrompts.lookup promptId with
  | none =>
    unfold OnlineEnvDockerScheduler.finishPrompt
    rw [hl]
    exact frees_of_lookup_none hl
  | some active =>
    obtain ⟨hpending, hcalls, hactive, -⟩ := keys_finishPrompt lower now aggregated hl
    refine ⟨hcalls, ?_, hpending⟩
    intro q
    rw [hactive]
    exact AList.mem_erase

/-- What is left of a prompt after another has ended was there before. -/
theorem Frees.holds (hf : s.Frees s' promptId) (h : s'.Placed ids) {q : String}
    (hq : s'.Holds q) : q ≠ promptId ∧ s.Holds q ∨ ∃ r ∈ s.pending, r.promptId = q := by
  rcases h.mapped.holds_iff.mp hq with ⟨r, hmem, hid⟩ | hactive
  · have hkey : r.key ∈ s.pending.map (·.key) := by
      rw [← hf.pending]
      exact List.mem_map_of_mem hmem
    obtain ⟨r', hmem', he⟩ := List.mem_map.mp hkey
    have hsame : r'.promptId = r.promptId := congrArg Prod.snd he
    exact .inr ⟨r', hmem', hsame.trans hid⟩
  · obtain ⟨hne, hbefore⟩ := (hf.active q).mp hactive
    exact .inl ⟨hne, .inr (.inl hbefore)⟩

end Finish

section Admission

/-- A call is made, and nothing else happens. -/
theorem admitPrompt_cases (s : OnlineEnvDockerScheduler) (promptId repo dataKey : String)
    (rolloutId : Option Int) (now : ℚ) (aggregated : List (String × RepoResourceProfile)) :
    let s' := s.admitPrompt promptId repo dataKey rolloutId now aggregated
    (∃ r, s'.calls = s.calls ++ [.requested r]) ∧ s'.pending = s.pending ∧
      s'.activePrompts = s.activePrompts ∧ s'.leaseToPrompt = s.leaseToPrompt := by
  unfold OnlineEnvDockerScheduler.admitPrompt predictForKey refreshResourceProfiles
  split_ifs
  · exact ⟨⟨_, rfl⟩, rfl, rfl, rfl⟩
  · exact ⟨⟨_, rfl⟩, rfl, rfl, rfl⟩

/-- A new request under a new id. -/
theorem Placed.admitPrompt (h : s.Placed ids) {repo dataKey : String} {rolloutId : Option Int}
    (hnew : promptId ∉ ids) :
    (s.admitPrompt promptId repo dataKey rolloutId now aggregated).Placed (ids ++ [promptId]) := by
  have hr : (s.refreshResourceProfiles aggregated).Placed ids := by
    apply h.touched touched_refreshResourceProfiles
    unfold refreshResourceProfiles
    split_ifs <;> exact h.mapped
  have hlast : ∀ {i : Nat} {q : String}, i < ids.length → (ids ++ [promptId])[i]? = some q →
      ids[i]? = some q := by
    intro i q hi hq
    rw [List.getElem?_append_left hi] at hq
    exact hq
  refine ⟨h.stored.admitPrompt, ?_, ?_, ?_, ?_, ?_, hr.mapped⟩
  · refine List.nodup_append.mpr ⟨h.nodup, List.nodup_singleton _, ?_⟩
    rintro a ha b hb rfl
    rw [List.mem_singleton.mp hb] at ha
    exact hnew ha
  · change ((s.refreshResourceProfiles aggregated).calls ++ [_]).length = _
    rw [List.length_append, List.length_append, hr.length]
    rfl
  · intro i c q hc hq
    rcases getElem?_concat_cases hc with hold | ⟨hi, he⟩
    · obtain ⟨hlt, -⟩ := List.getElem?_eq_some_iff.mp hold
      have hlt' : i < ids.length := Nat.lt_of_lt_of_le hlt hr.length.le
      exact hr.calls i c q hold (hlast hlt' hq)
    · have hi' : i = ids.length := hi.trans hr.length
      rw [hi', List.getElem?_concat_length] at hq
      obtain rfl := Option.some.inj hq
      rw [he]
      refine ⟨hi.symm, rfl, ?_⟩
      intro hmem
      exact hnew (hr.active promptId hmem)
  · intro r hmem
    obtain ⟨hid, hnot, hphase⟩ := hr.pending r hmem
    obtain ⟨hlt, -⟩ := List.getElem?_eq_some_iff.mp hid
    refine ⟨?_, hnot, ?_⟩
    · rw [List.getElem?_append_left hlt]
      exact hid
    · change ((s.refreshResourceProfiles aggregated).calls ++ [_])[r.call]? = _ ∨
        ((s.refreshResourceProfiles aggregated).calls ++ [_])[r.call]? = _
      rw [List.getElem?_append_left (by rw [hr.length]; exact hlt)]
      exact hphase
  · intro q hq
    exact List.mem_append_left _ (hr.active q hq)

/-- A call moves on while queue and active prompts stay. -/
theorem Placed.set_call (h : s.Placed ids) {c c' : AdmitCall} (hc : s.calls[j]? = some c)
    (hwaits : c = .waiting → c' = .cancelled) (hstored : c'.request? = none)
    (hat : ∀ q, ids[j]? = some q → s.CallAt j q c') (hcancelled : c ≠ .cancelled) :
    Placed { s with calls := s.calls.set j c' } ids := by
  obtain ⟨hlt, -⟩ := List.getElem?_eq_some_iff.mp hc
  refine ⟨h.stored.set_call hstored, h.nodup, ?_, ?_, ?_, h.active, h.mapped⟩
  · exact List.length_set.trans h.length
  · intro i b q hb hq
    by_cases hij : j = i
    · subst hij
      rw [List.getElem?_set_self hlt] at hb
      obtain rfl := Option.some.inj hb
      exact hat q hq
    · rw [List.getElem?_set_ne hij] at hb
      exact h.calls i b q hb hq
  · intro r hr
    obtain ⟨hid, hnot, hphase⟩ := h.pending r hr
    refine ⟨hid, hnot, ?_⟩
    dsimp only
    by_cases hij : j = r.call
    · rw [← hij, hc] at hphase
      rw [← hij, List.getElem?_set_self hlt]
      rcases hphase with hphase | hphase
      · exact .inr (congrArg some (hwaits (Option.some.inj hphase)))
      · exact absurd (Option.some.inj hphase) hcancelled
    · rw [List.getElem?_set_ne hij]
      exact hphase

theorem Placed.cancelAdmit (h : s.Placed ids) (hn : s.next lower (.cancelAdmit j) = some s') :
    s'.Placed ids ∧ s' = { s with calls := s.calls.set j .cancelled } := by
  simp only [OnlineEnvDockerScheduler.next] at hn
  split at hn
  · cases hn
  · cases hn
  · cases hn
  · rename_i c hnone hreturned hcancelled
    cases hn
    cases hc : s.calls[j]? with
    | none => exact absurd hc hnone
    | some c =>
      refine ⟨h.set_call hc (fun _ => rfl) rfl (fun _ _ => trivial) ?_, rfl⟩
      intro hsame
      rw [hsame] at hc
      exact hcancelled hc

/-- The request of a call joins the queue. -/
theorem Placed.enqueue (h : s.Placed ids) (hn : s.next lower (.enqueue j) = some s') :
    s'.Placed ids ∧ ∃ request, s.calls[j]? = some (.requested request) ∧
      s' = { s with pending := s.pending ++ [request], calls := s.calls.set j .waiting } := by
  simp only [OnlineEnvDockerScheduler.next] at hn
  split at hn
  · rename_i request hc
    cases hn
    refine ⟨?_, request, hc, rfl⟩
    obtain ⟨hlt, -⟩ := List.getElem?_eq_some_iff.mp hc
    obtain ⟨q, hq⟩ := h.id_of_call hc
    obtain ⟨hcall, hid, hnot⟩ := h.calls j _ q hc hq
    refine ⟨h.stored.enqueue hc, h.nodup, ?_, ?_, ?_, h.active, h.mapped⟩
    · exact List.length_set.trans h.length
    · intro i b q' hb hq'
      by_cases hij : j = i
      · subst hij
        rw [List.getElem?_set_self hlt] at hb
        obtain rfl := Option.some.inj hb
        obtain rfl : q = q' := Option.some.inj (hq.symm.trans hq')
        exact ⟨⟨request, List.mem_append_right _ (List.mem_singleton_self _), hid⟩, hnot⟩
      · rw [List.getElem?_set_ne hij] at hb
        have hat := h.calls i b q' hb hq'
        cases b with
        | waiting =>
          obtain ⟨⟨r, hr, hrid⟩, hactive⟩ := hat
          exact ⟨⟨r, List.mem_append_left _ hr, hrid⟩, hactive⟩
        | requested r => exact hat
        | admitted r => exact hat
        | returned ticket => exact hat
        | cancelled => exact hat
    · intro r hr
      rcases List.mem_append.mp hr with hr | hr
      · obtain ⟨hrid, hinactive, hphase⟩ := h.pending r hr
        refine ⟨hrid, hinactive, ?_⟩
        have hne : j ≠ r.call := by
          intro hsame
          rw [← hsame, hc] at hphase
          rcases hphase with hphase | hphase <;> cases hphase
        dsimp only
        rw [List.getElem?_set_ne hne]
        exact hphase
      · obtain rfl := List.mem_singleton.mp hr
        rw [hcall, hid]
        exact ⟨hq, hnot, .inl (List.getElem?_set_self hlt)⟩
  · cases hn

/-- A request of the queue becomes active. -/
theorem Placed.markAdmitted (h : s.Placed ids) {request : PendingPrompt}
    (hr : request ∈ s.pending) : (s.markAdmitted request now).Placed ids := by
  have hadmitted : request.admitted = false := (h.stored.pending request hr).2
  obtain ⟨hid, hinactive, hphase⟩ := h.pending request hr
  have hstored : (s.markAdmitted request now).Stored fun _ => True := h.stored.markAdmitted hr
  rw [markAdmitted_eq hadmitted] at hstored ⊢
  refine ⟨hstored, h.nodup, ?_, ?_, ?_, ?_, ?_⟩
  · exact (List.length_modify _ _ _).trans h.length
  · intro i c q hc hq
    dsimp only at hc
    rw [List.getElem?_modify] at hc
    obtain ⟨b, hb, rfl⟩ := Option.map_eq_some_iff.mp hc
    have hat := h.calls i b q hb hq
    by_cases hsame : request.call = i
    · -- the call of the request waits, or it has been cancelled
      rw [if_pos hsame]
      rw [hsame, hb] at hphase
      rw [hsame, hq] at hid
      obtain rfl := Option.some.inj hid
      rcases hphase with hphase | hphase
      · obtain rfl := Option.some.inj hphase
        exact ⟨rfl, (AList.mem_insert _).mpr (.inl rfl)⟩
      · obtain rfl := Option.some.inj hphase
        trivial
    · rw [if_neg hsame]
      have hne : q ≠ request.promptId := by
        intro he
        rw [he] at hq
        exact hsame (h.eq_of_id hid hq)
      have hnot : q ∉ s.activePrompts →
          q ∉ AList.insert request.promptId (request.activate now) s.activePrompts := by
        intro hnot hmem
        rcases (AList.mem_insert _).mp hmem with he | hmem
        · exact hne he
        · exact hnot hmem
      cases b with
      | requested r =>
        obtain ⟨hcall, hrid, hactive⟩ := hat
        exact ⟨hcall, hrid, hnot hactive⟩
      | waiting =>
        obtain ⟨⟨r, hmem, hrid⟩, hactive⟩ := hat
        refine ⟨⟨r, List.mem_filter.mpr ⟨hmem, ?_⟩, hrid⟩, hnot hactive⟩
        rw [hrid]
        exact decide_eq_true hne
      | admitted r =>
        obtain ⟨hrid, hactive⟩ := hat
        exact ⟨hrid, (AList.mem_insert _).mpr (.inr hactive)⟩
      | returned ticket => exact hat
      | cancelled => trivial
  · intro r hmem
    obtain ⟨hmem, hother⟩ := List.mem_filter.mp hmem
    obtain ⟨hrid, hrinactive, hrphase⟩ := h.pending r hmem
    have hdiffers : r.promptId ≠ request.promptId := of_decide_eq_true hother
    refine ⟨hrid, ?_, ?_⟩
    · intro hactive
      rcases (AList.mem_insert _).mp hactive with hsame | hactive
      · exact hdiffers hsame
      · exact hrinactive hactive
    · have hne : request.call ≠ r.call := by
        intro hsame
        rw [← hsame, hid] at hrid
        exact hdiffers (Option.some.inj hrid).symm
      dsimp only
      rw [List.getElem?_modify_ne _ _ hne]
      exact hrphase
  · intro q hq
    rcases (AList.mem_insert _).mp hq with rfl | hq
    · exact List.mem_of_getElem? hid
    · exact h.active q hq
  · intro l q hlookup
    obtain ⟨a, ha, hmem⟩ := h.mapped l q hlookup
    refine ⟨a, ?_, hmem⟩
    dsimp only
    rw [Dict.lookup_insert_ite]
    split_ifs with hsame
    · rw [hsame] at ha
      rw [AList.lookup_eq_none.mpr hinactive] at ha
      cases ha
    · exact ha

theorem Placed.requeue (h : s.Placed ids) {pending : List PendingPrompt}
    (hp : Requeued s.pending pending) : Placed { s with pending := pending } ids := by
  have hkeys := hp.map PendingPrompt.key
  rw [List.map_map, List.map_map] at hkeys
  exact h.frame (h.stored.requeue hp) hkeys rfl (fun _ hq => hq) (fun _ _ hq => hq) h.mapped

/-- A step in which no call but a waiting one moves, no prompt ends, and the scheduler gets nothing
of a prompt of which it has nothing. -/
structure Advances (s s' : OnlineEnvDockerScheduler) : Prop where
  calls : ∀ (j : Nat) (c : AdmitCall), s'.calls[j]? = some c → s.calls[j]? = some c ∨
    s.calls[j]? = some .waiting ∧ ∃ r, c = .admitted r
  active : ∀ q ∈ s.activePrompts, q ∈ s'.activePrompts
  holds : ∀ q, s'.Holds q → s.Holds q

theorem advances_touched (h : s.Placed ids) (ht : s.Touched s') (hm : s'.Mapped) :
    s.Advances s' := by
  refine ⟨?_, fun q hq => ht.mem_activePrompts.mpr hq, ?_⟩
  · intro i c hc
    rw [ht.2.2.1] at hc
    exact .inl hc
  · intro q hq
    rw [hm.holds_iff, ht.2.1, ht.mem_activePrompts] at hq
    exact h.mapped.holds_iff.mpr hq

theorem advances_markAdmitted (h : s.Placed ids) {request : PendingPrompt}
    (hr : request ∈ s.pending) : s.Advances (s.markAdmitted request now) := by
  have hadmitted : request.admitted = false := (h.stored.pending request hr).2
  have hm : (s.markAdmitted request now).Mapped := (h.markAdmitted hr).mapped
  rw [markAdmitted_eq hadmitted] at hm ⊢
  refine ⟨?_, fun q hq => (AList.mem_insert _).mpr (.inr hq), ?_⟩
  · intro i c hc
    dsimp only at hc
    rw [List.getElem?_modify] at hc
    obtain ⟨b, hb, rfl⟩ := Option.map_eq_some_iff.mp hc
    split_ifs
    · cases b with
      | waiting => exact .inr ⟨hb, _, rfl⟩
      | requested | admitted | returned | cancelled => exact .inl hb
    · exact .inl hb
  · intro q hq
    rcases hm.holds_iff.mp hq with ⟨r, hmem, hid⟩ | hactive
    · exact .inl ⟨r, (List.mem_filter.mp hmem).1, hid⟩
    · rcases (AList.mem_insert _).mp hactive with rfl | hactive
      · exact .inl ⟨request, hr, rfl⟩
      · exact .inr (.inl hactive)

theorem advances_requeue (h : s.Placed ids) {pending : List PendingPrompt}
    (hp : Requeued s.pending pending) : s.Advances { s with pending := pending } := by
  refine ⟨fun _ _ hc => .inl hc, fun _ hq => hq, ?_⟩
  intro q hq
  rcases (h.requeue hp).mapped.holds_iff.mp hq with ⟨r, hmem, hid⟩ | hactive
  · obtain ⟨r', hmem', he⟩ := hp.exists hmem
    have hsame : r'.promptId = r.promptId := congrArg (·.promptId) he
    exact .inl ⟨r', hmem', hsame.trans hid⟩
  · exact .inr (.inl hactive)

theorem Advances.trans {t : OnlineEnvDockerScheduler} (hs : s.Advances t) (ht : t.Advances s') :
    s.Advances s' := by
  refine ⟨?_, fun q hq => ht.active q (hs.active q hq), fun q hq => hs.holds q (ht.holds q hq)⟩
  intro i c hc
  rcases ht.calls i c hc with hc | ⟨hwaiting, r, hr⟩
  · exact hs.calls i c hc
  · rcases hs.calls i _ hwaiting with hwaiting | ⟨-, r', he⟩
    · exact .inr ⟨hwaiting, r, hr⟩
    · cases he

theorem Placed.pass (h : s.Placed ids) {chosen : Option PendingPrompt}
    (hp : s.Passed now s' chosen) : s'.Placed ids ∧ s.Advances s' := by
  obtain ⟨pending, hq, ⟨-, rfl⟩ | ⟨request, hr, -, rfl⟩⟩ := hp
  · exact ⟨h.requeue hq, advances_requeue h hq⟩
  · have hrequeued := h.requeue hq
    exact ⟨hrequeued.markAdmitted hr,
      (advances_requeue h hq).trans (advances_markAdmitted hrequeued hr)⟩

/-- A call whose prompt is active returns a ticket for it. -/
theorem Placed.returnTicket (h : s.Placed ids) (hn : s.next lower (.returnTicket j now) = some s') :
    s'.Placed ids ∧ ∃ request ticket, s.calls[j]? = some (.admitted request) ∧
      s' = { s with calls := s.calls.set j (.returned ticket) } := by
  obtain ⟨request, hr, rfl⟩ := Option.map_eq_some_iff.mp hn
  obtain ⟨c, hc, hr⟩ := Option.bind_eq_some_iff.mp hr
  cases c with
  | admitted request' =>
    obtain rfl := Option.some.inj hr
    obtain ⟨q, hq⟩ := h.id_of_call hc
    obtain ⟨hid, hmem⟩ := h.calls j _ q hc hq
    obtain ⟨active, hl⟩ := Option.isSome_iff_exists.mp (AList.lookup_isSome.mpr hmem)
    rw [← hid] at hl
    unfold OnlineEnvDockerScheduler.returnTicket
    rw [hl]
    refine ⟨?_, request', _, hc, rfl⟩
    apply h.set_call hc nofun rfl _ nofun
    intro q' hq'
    obtain rfl : q = q' := Option.some.inj (hq.symm.trans hq')
    exact hid
  | requested | waiting | returned | cancelled => cases hr

end Admission

theorem init_placed (config : SchedulerConfig) (repoResourceStats : Dict String RepoResourceProfile)
    (schedulerStartTs : ℚ) :
    (init config repoResourceStats schedulerStartTs).Placed [] := by
  refine ⟨?_, List.nodup_nil, rfl, ?_, ?_, ?_, ?_⟩
  · exact init_stored fun _ => trivial
  · intro i c q hc
    cases hc
  · intro r hr
    cases hr
  · intro q hq
    exact absurd hq (AList.notMem_empty q)
  · intro l q hl
    rw [OnlineEnvDockerScheduler.init, AList.lookup_empty] at hl
    cases hl

end OnlineEnvDockerScheduler

end Belayer.Scheduler
