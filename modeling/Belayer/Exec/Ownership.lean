import Belayer.Exec.ContainerPool

namespace Belayer.Exec

open Belayer.Framework

namespace PrewarmThread

/-- The image of the create that is in progress. -/
def images : PrewarmThread → List String
  | .creating image _ | .created image _ _ | .failed image => [image]
  | .notStarted | .waiting => []

/-- The container that the loop has made and not recorded. -/
def container? : PrewarmThread → Option String
  | .creating _ (some (containerId, _)) | .created _ containerId _ => some containerId
  | _ => none

end PrewarmThread

namespace AcquireCall

/-- The container that the call has taken from the queue or made. -/
def held? : AcquireCall → Option String
  | .popped _ containerId _ | .healthy _ containerId _ | .creating _ (some (containerId, _))
  | .acquired _ containerId _ _ | .registered containerId _ _ => some containerId
  | _ => none

/-- The container that the call will hand out, unless its create fails. -/
def chosen? : AcquireCall → Option String
  | .healthy _ containerId _ | .creating _ (some (containerId, _))
  | .acquired _ containerId _ _ | .registered containerId _ _ => some containerId
  | _ => none

/-- The container that `acquire` has returned. -/
def handed? : AcquireCall → Option String
  | .acquired _ containerId _ _ | .registered containerId _ _ => some containerId
  | _ => none

theorem held_of_chosen {call : AcquireCall} {c : String} (h : call.chosen? = some c) :
    call.held? = some c := by
  cases call with
  | creating image created =>
    cases created with
    | none => cases h
    | some created => exact h
  | _ => first | exact h | cases h

theorem chosen_of_handed {call : AcquireCall} {c : String} (h : call.handed? = some c) :
    call.chosen? = some c := by
  cases call <;> first | exact h | cases h

end AcquireCall

def SyncScan.containers : SyncScan → List (String × DockerContainer)
  | .listed containers | .scanning containers _ => containers
  | .checking container rest _ | .healthy container rest _ => container :: rest
  | .finished => []

namespace ContainerPool

/-- Each idle container is once in the queue of its image and in no other. -/
def Filed (p : ContainerPool) : Prop :=
  ∀ image c, (p.queue image).count c =
    if (p.idleMeta.lookup c).map (·.image) = some image then 1 else 0

/-- A pool with the same idle containers. -/
structure SameIdle (p p' : ContainerPool) : Prop where
  idleByImage : p'.idleByImage = p.idleByImage
  idleMeta : p'.idleMeta = p.idleMeta

variable {p p' : ContainerPool} {image c : String} {info : IdleMeta}

theorem SameIdle.refl : p.SameIdle p := ⟨rfl, rfl⟩

theorem SameIdle.filed (h : p.SameIdle p') (hf : p.Filed) : p'.Filed := by
  unfold Filed queue at hf ⊢
  rw [h.idleByImage, h.idleMeta]
  exact hf

/-- A container of a queue is idle, for the image of the queue. -/
theorem Filed.lookup (h : p.Filed) (hc : c ∈ p.queue image) :
    ∃ info, p.idleMeta.lookup c = some info ∧ info.image = image := by
  have hpos : 0 < (p.queue image).count c := List.count_pos_iff.mpr hc
  rw [h image c] at hpos
  split_ifs at hpos with hmeta
  · exact Option.map_eq_some_iff.mp hmeta
  · omega

/-- A create joins the queue of the prewarm loop, or none does. -/
inductive Enqueued (p : ContainerPool) : ContainerPool → Prop
  | none (n : Nat) : Enqueued p { p with prewarmRrIndex := n }
  | some (n : Nat) (image : String) : Enqueued p
      { p with
        prewarmRrIndex := n
        prewarmQueue := p.prewarmQueue ++ [image]
        pendingCreateCount := p.pendingCreateCount + 1
        pendingByImage := AList.insert image (p.pending image + 1) p.pendingByImage }

theorem nextImage_fst (p : ContainerPool) (n : Nat) :
    ∃ k, (p.nextImage n).1 = { p with prewarmRrIndex := k } := by
  induction n generalizing p with
  | zero => exact ⟨p.prewarmRrIndex, rfl⟩
  | succ n ih =>
    simp only [nextImage]
    split
    · exact ⟨p.prewarmRrIndex + 1, rfl⟩
    · exact ih { p with prewarmRrIndex := p.prewarmRrIndex + 1 }

theorem pickNextImage_fst (p : ContainerPool) (preferredImage : Option String) :
    ∃ k, (p.pickNextImage preferredImage).1 = { p with prewarmRrIndex := k } := by
  unfold pickNextImage
  dsimp only
  split
  · exact ⟨p.prewarmRrIndex, rfl⟩
  · exact nextImage_fst p p.config.prewarmImages.length

theorem enqueued (p : ContainerPool) (activeCount : Nat) (preferredImage : Option String) :
    p.Enqueued (p.enqueuePrewarm activeCount preferredImage) := by
  unfold enqueuePrewarm
  split_ifs
  · exact .none p.prewarmRrIndex
  · obtain ⟨k, hk⟩ := pickNextImage_fst p preferredImage
    generalize p.pickNextImage preferredImage = picked at hk
    obtain ⟨picked, image?⟩ := picked
    have hpicked : picked = { p with prewarmRrIndex := k } := hk
    subst hpicked
    cases image? with
    | none => exact .none k
    | some image =>
      dsimp only
      split_ifs
      · exact .none k
      · exact .some k image

theorem Enqueued.sameIdle (h : p.Enqueued p') : p.SameIdle p' := by
  cases h <;> exact ⟨rfl, rfl⟩

theorem Enqueued.config (h : p.Enqueued p') : p'.config = p.config := by
  cases h <;> rfl

/-- What is popped is the head of the queue of its image. -/
theorem popIdleCandidate_cases (hf : p.Filed) (image : String) :
    p.queue image = [] ∧ p.popIdleCandidate image = (p, none) ∨
      ∃ c rest info, p.queue image = c :: rest ∧ p.idleMeta.lookup c = some info ∧
        info.image = image ∧ p.popIdleCandidate image =
          ({ p with
              idleByImage :=
                if rest = [] then AList.erase image p.idleByImage
                else AList.insert image rest p.idleByImage
              idleMeta := AList.erase c p.idleMeta }, some (c, info)) := by
  unfold popIdleCandidate
  cases hq : p.queue image with
  | nil => exact .inl ⟨rfl, rfl⟩
  | cons c rest =>
    have hc : c ∈ p.queue image := by
      rw [hq]
      exact List.mem_cons_self ..
    obtain ⟨info, hl, himage⟩ := hf.lookup hc
    refine .inr ⟨c, rest, info, rfl, hl, himage, ?_⟩
    dsimp only
    rw [hl]
    rfl

/-- The queues after the head of one of them is gone. -/
theorem queue_popped {rest : List String} {idleMeta : Dict String IdleMeta}
    (image' : String) :
    queue { p with
        idleByImage :=
          if rest = [] then AList.erase image p.idleByImage
          else AList.insert image rest p.idleByImage
        idleMeta := idleMeta } image' =
      if image' = image then rest else p.queue image' := by
  unfold queue
  dsimp only
  split_ifs with hrest himage himage
  · rw [Dict.getD_erase_ite, if_pos himage, hrest]
  · rw [Dict.getD_erase_ite, if_neg himage]
  · rw [Dict.getD_insert_ite, if_pos himage]
  · rw [Dict.getD_insert_ite, if_neg himage]

theorem Filed.popped (hf : p.Filed) {rest : List String} (hq : p.queue image = c :: rest)
    (hl : p.idleMeta.lookup c = some info) (himage : info.image = image) :
    Filed { p with
      idleByImage :=
        if rest = [] then AList.erase image p.idleByImage
        else AList.insert image rest p.idleByImage
      idleMeta := AList.erase c p.idleMeta } := by
  intro image' c'
  have hcount := hf image' c'
  rw [queue_popped, Dict.lookup_erase_ite]
  by_cases hc : c' = c
  · subst hc
    rw [hl, Option.map_some, himage] at hcount
    rw [if_pos rfl, Option.map_none, if_neg (Option.some_ne_none image').symm]
    by_cases hi : image' = image
    · subst hi
      rw [hq, List.count_cons_self, if_pos rfl] at hcount
      rw [if_pos rfl]
      omega
    · rw [if_neg fun he => hi (Option.some.inj he).symm] at hcount
      rw [if_neg hi]
      exact hcount
  · rw [if_neg hc]
    split_ifs with hi hmeta hmeta
    · subst hi
      rw [hq, List.count_cons_of_ne (Ne.symm hc), if_pos hmeta] at hcount
      exact hcount
    · subst hi
      rw [hq, List.count_cons_of_ne (Ne.symm hc), if_neg hmeta] at hcount
      exact hcount
    · rw [if_pos hmeta] at hcount
      exact hcount
    · rw [if_neg hmeta] at hcount
      exact hcount

theorem queue_addIdle (image' : String) :
    (p.addIdle c info).queue image' =
      if image' = info.image then p.queue info.image ++ [c] else p.queue image' := by
  unfold addIdle queue
  exact Dict.getD_insert_ite ..

theorem Filed.addIdle (hf : p.Filed) (hc : c ∉ p.idleMeta) : (p.addIdle c info).Filed := by
  intro image' c'
  have hcount := hf image' c'
  have hlookup : (p.addIdle c info).idleMeta.lookup c' =
      if c' = c then some info else p.idleMeta.lookup c' := Dict.lookup_insert_ite ..
  rw [queue_addIdle, hlookup]
  by_cases hcc : c' = c
  · subst hcc
    rw [AList.lookup_eq_none.mpr hc, Option.map_none,
      if_neg (Option.some_ne_none image').symm] at hcount
    rw [if_pos rfl, Option.map_some]
    by_cases hi : image' = info.image
    · rw [if_pos hi, if_pos (by rw [hi]), ← hi, List.count_append, hcount,
        List.count_singleton_self]
    · rw [if_neg hi, if_neg fun he => hi (Option.some.inj he).symm]
      exact hcount
  · rw [if_neg hcc, ← hcount]
    split_ifs with hi
    · rw [hi, List.count_append, List.count_singleton, beq_false_of_ne (Ne.symm hcc)]
      rfl
    · rfl

/-- The counters are those of the creates that are queued, and of those in progress. -/
structure Counts (p : ContainerPool) (images : List String) : Prop where
  total : p.pendingCreateCount = p.prewarmQueue.length + images.length
  perImage : ∀ image, p.pending image = p.prewarmQueue.count image + images.count image

theorem Counts.enqueued {images : List String} (h : p.Counts images) (he : p.Enqueued p') :
    p'.Counts images := by
  cases he with
  | none n => exact ⟨h.total, h.perImage⟩
  | some n image =>
    refine ⟨?_, ?_⟩
    · have htotal := h.total
      rw [List.length_append, List.length_singleton]
      dsimp only
      omega
    · intro image'
      have hcount := h.perImage image'
      unfold pending at hcount ⊢
      rw [Dict.getD_insert_ite, List.count_append, List.count_singleton]
      split_ifs with hi hb hb
      · subst hi
        omega
      · exact absurd (beq_iff_eq.mpr hi.symm) hb
      · exact absurd (beq_iff_eq.mp hb).symm hi
      · omega

/-- The first create of the queue is in progress. -/
theorem Counts.taken {rest : List String} (h : p.Counts [])
    (hq : p.prewarmQueue = image :: rest) : Counts { p with prewarmQueue := rest } [image] := by
  refine ⟨?_, ?_⟩
  · have htotal := h.total
    rw [hq] at htotal
    exact htotal
  · intro image'
    have hcount := h.perImage image'
    rw [hq, List.count_nil, List.count_cons] at hcount
    rw [List.count_singleton]
    exact hcount

/-- The create in progress is settled. -/
theorem Counts.settled (h : p.Counts [image]) : (p.settleCreate image).Counts [] := by
  refine ⟨?_, ?_⟩
  · have htotal := h.total
    rw [List.length_singleton] at htotal
    unfold settleCreate
    dsimp only [List.length_nil]
    omega
  · intro image'
    have hcount := h.perImage image'
    have hpending : (p.settleCreate image).pending image' =
        if image' = image then p.pending image - 1 else p.pending image' := by
      unfold settleCreate
      generalize p.pending image = n
      unfold pending
      dsimp only
      split_ifs with hzero hi hi
      · rw [Dict.getD_erase_ite, if_pos hi]
        exact hzero.symm
      · rw [Dict.getD_erase_ite, if_neg hi]
      · rw [Dict.getD_insert_ite, if_pos hi]
      · rw [Dict.getD_insert_ite, if_neg hi]
    rw [hpending, List.count_nil]
    rw [List.count_singleton] at hcount
    split_ifs with hi
    · subst hi
      rw [beq_self_eq_true, if_pos rfl] at hcount
      rw [hcount]
      rfl
    · rw [beq_false_of_ne (Ne.symm hi)] at hcount
      exact hcount

end ContainerPool

namespace ContainerHost

/-- A call holds a container. -/
def Holds (s : ContainerHost) (i : Nat) (c : String) : Prop :=
  (s.acquires[i]?).bind (·.held?) = some c

/-- A call has settled on a container. -/
def Chooses (s : ContainerHost) (i : Nat) (c : String) : Prop :=
  (s.acquires[i]?).bind (·.chosen?) = some c

/-- A container has been handed to a call. -/
def Handed (s : ContainerHost) (i : Nat) (c : String) : Prop :=
  (s.acquires[i]?).bind (·.handed?) = some c

/-- No container is handed to two calls, the idle containers are in order, and so are the
counters. -/
structure Owned (s : ContainerHost) : Prop where
  handed : ∀ i j c, s.Handed i c → s.Handed j c → i = j
  filed : s.pool.Filed
  counted : s.pool.Counts s.prewarm.images

/-- The container that a scan adopts with its next step. -/
def adopted? (s : ContainerHost) (j : Nat) : Option String :=
  match s.syncs[j]? with
  | some (.healthy container _ _) =>
    if s.admits container s.activeContainers.keys = some true then some container.1 else none
  | _ => none

/-- The condition on a step: a scan adopts no container that the prewarm loop has made and not
recorded, and none that is alive and that a call has taken or made. -/
def Unclaimed (s : ContainerHost) : PoolAction → Prop
  | .syncAdopt j => ∀ c ∈ s.adopted? j, s.prewarm.container? ≠ some c ∧
      (c ∈ s.docker → ∀ call ∈ s.acquires, call.held? ≠ some c)
  | _ => True

instance (s : ContainerHost) : ∀ a, Decidable (s.Unclaimed a)
  | .syncAdopt j => inferInstanceAs (Decidable (∀ c ∈ s.adopted? j,
      s.prewarm.container? ≠ some c ∧ (c ∈ s.docker → ∀ call ∈ s.acquires, call.held? ≠ some c)))
  | .start | .refill | .prewarmTake | .prewarmRun _ _ _ | .prewarmReturn _ | .prewarmRecord
  | .acquire _ | .popIdle _ | .checkHealth _ _ | .reuse _ | .discard _ _ | .miss _
  | .acquireRun _ _ _ _ | .acquireReturn _ _ | .register _ | .release _ _ | .destroy _ _
  | .releaseRefill _ | .untrack _ | .syncList _ | .syncActive _ | .syncCheck _ | .syncHealth _ _
  | .appear _ _ | .vanish _ | .track _ _ => .isTrue trivial

/-- Where the containers are. -/
structure Placed (s : ContainerHost) : Prop where
  idle : ∀ c ∈ s.pool.idleMeta, c ∈ s.issued
  docker : ∀ c ∈ s.docker, c ∈ s.issued
  held : ∀ i c, s.Holds i c → c ∈ s.issued
  listed : ∀ scan ∈ s.syncs, ∀ e ∈ scan.containers, e.1 ∈ s.issued
  prewarm : ∀ c, s.prewarm.container? = some c →
    c ∈ s.issued ∧ c ∉ s.pool.idleMeta ∧ ∀ i, ¬s.Holds i c
  alone : ∀ c ∈ s.docker, ∀ i j, s.Holds i c → s.Holds j c → i = j
  free : ∀ c ∈ s.docker, c ∈ s.pool.idleMeta → ∀ i, ¬s.Holds i c
  chosen : ∀ i j c, s.Chooses i c → s.Chooses j c → i = j

/-- A step after which nothing new is idle, in docker or held. -/
structure Quiet (s s' : ContainerHost) : Prop where
  pool : s.pool.SameIdle s'.pool
  docker : ∀ c, c ∈ s'.docker → c ∈ s.docker
  issued : s'.issued = s.issued
  prewarm : ∀ c, s'.prewarm.container? = some c → s.prewarm.container? = some c
  held : ∀ i c, s'.Holds i c → s.Holds i c
  chosen : ∀ i c, s'.Chooses i c → s.Chooses i c
  listed : ∀ scan ∈ s'.syncs, ∀ e ∈ scan.containers,
    e.1 ∈ s.docker ∨ ∃ scan' ∈ s.syncs, e ∈ scan'.containers

variable {lower : String → String} {s s' : ContainerHost} {a : PoolAction} {c : String}

theorem holds_of_chooses {i : Nat} (h : s.Chooses i c) : s.Holds i c := by
  obtain ⟨call, hi, hc⟩ := Option.bind_eq_some_iff.mp h
  exact Option.bind_eq_some_iff.mpr ⟨call, hi, AcquireCall.held_of_chosen hc⟩

theorem chooses_of_handed {i : Nat} (h : s.Handed i c) : s.Chooses i c := by
  obtain ⟨call, hi, hc⟩ := Option.bind_eq_some_iff.mp h
  exact Option.bind_eq_some_iff.mpr ⟨call, hi, AcquireCall.chosen_of_handed hc⟩

theorem Quiet.placed (h : s.Quiet s') (hp : s.Placed) : s'.Placed := by
  have hidle : s'.pool.idleMeta = s.pool.idleMeta := h.pool.idleMeta
  refine ⟨?_, ?_, ?_, ?_, ?_, ?_, ?_, ?_⟩
  · intro c hc
    rw [h.issued]
    exact hp.idle c (hidle ▸ hc)
  · intro c hc
    rw [h.issued]
    exact hp.docker c (h.docker c hc)
  · intro i c hc
    rw [h.issued]
    exact hp.held i c (h.held i c hc)
  · intro scan hscan e he
    rw [h.issued]
    rcases h.listed scan hscan e he with hdocker | ⟨scan', hscan', he'⟩
    · exact hp.docker e.1 hdocker
    · exact hp.listed scan' hscan' e he'
  · intro c hc
    obtain ⟨hissued, hnot, hfree⟩ := hp.prewarm c (h.prewarm c hc)
    rw [h.issued, hidle]
    exact ⟨hissued, hnot, fun i hi => hfree i (h.held i c hi)⟩
  · intro c hc i j hi hj
    exact hp.alone c (h.docker c hc) i j (h.held i c hi) (h.held j c hj)
  · intro c hc hcidle i hi
    exact hp.free c (h.docker c hc) (hidle ▸ hcidle) i (h.held i c hi)
  · intro i j c hi hj
    exact hp.chosen i j c (h.chosen i c hi) (h.chosen j c hj)

/-- The pool with the creates in progress as they were, or with one more that is queued. -/
inductive Refilled (s s' : ContainerHost) : Prop
  | same (hp : s'.pool = s.pool) (hi : s'.prewarm.images = s.prewarm.images)
  | enqueued (hp : s.pool.Enqueued s'.pool) (hi : s'.prewarm.images = s.prewarm.images)

/-- Docker makes a container. -/
def launched (s : ContainerHost) (c : String) (container : DockerContainer) : ContainerHost :=
  { s with
    docker := AList.insert c container s.docker
    issued := c :: s.issued }

/-- What a step does to the containers and the counters. -/
inductive Moves (s : ContainerHost) : PoolAction → ContainerHost → Prop
  | quiet {a : PoolAction} {s' : ContainerHost} (hr : s.Refilled s') (h : s.Quiet s') :
      Moves s a s'
  | taken {image : String} {rest : List String} (hw : s.prewarm = .waiting)
      (hq : s.pool.prewarmQueue = image :: rest) :
      Moves s .prewarmTake
        { s with
          pool := { s.pool with prewarmQueue := rest }
          prewarm := .creating image none }
  | prewarmMade {image c name command : String} (hw : s.prewarm = .creating image none)
      (hc : c ∉ s.issued) :
      Moves s (.prewarmRun c name command)
        { s.launched c ⟨name, image, command⟩ with prewarm := .creating image (some (c, name)) }
  | acquireMade {i : Nat} {image c name command : String}
      (hi : s.acquires[i]? = some (.creating image none)) (hc : c ∉ s.issued) :
      Moves s (.acquireRun i c name command)
        ((s.launched c ⟨name, image, command⟩).setAcquire i (.creating image (some (c, name))))
  | appeared {c : String} {container : DockerContainer} (hc : c ∉ s.issued) :
      Moves s (.appear c container) (s.launched c container)
  | recorded {image c name : String} (hw : s.prewarm = .created image c name) :
      Moves s .prewarmRecord
        { s with
          pool := (s.pool.settleCreate image).addIdle c ⟨name, image⟩
          prewarm := .waiting }
  | dropped {image : String} (hw : s.prewarm = .failed image) :
      Moves s .prewarmRecord { s with pool := s.pool.settleCreate image, prewarm := .waiting }
  | popped {i : Nat} {image c : String} {rest : List String} {info : IdleMeta}
      (hi : s.acquires[i]? = some (.looking image)) (hq : s.pool.queue image = c :: rest)
      (hl : s.pool.idleMeta.lookup c = some info) (himage : info.image = image) :
      Moves s (.popIdle i)
        ({ s with
          pool := { s.pool with
            idleByImage :=
              if rest = [] then AList.erase image s.pool.idleByImage
              else AList.insert image rest s.pool.idleByImage
            idleMeta := AList.erase c s.pool.idleMeta } }.setAcquire i (.popped image c info))
  | confirmed {i : Nat} {image c : String} {info : IdleMeta}
      (hi : s.acquires[i]? = some (.popped image c info)) (hc : c ∈ s.docker) :
      Moves s (.checkHealth i true) (s.setAcquire i (.healthy image c info.name))
  | adopted {j : Nat} {container : String × DockerContainer}
      {rest : List (String × DockerContainer)} {activeIds : List String}
      (hj : s.syncs[j]? = some (.healthy container rest activeIds))
      (hc : container.1 ∉ s.pool.idleMeta) (ha : s.adopted? j = some container.1) :
      Moves s (.syncAdopt j)
        ({ s with
          pool := s.pool.addIdle container.1 ⟨container.2.name, container.2.image⟩ }.setSync j
            (.scanning rest s.activeContainers.keys))

/-- Only the call itself is another one. -/
theorem bind_setAcquire {i j : Nat} {call : AcquireCall} {f : AcquireCall → Option String}
    (h : (s.setAcquire i call).acquires[j]?.bind f = some c) :
    j = i ∧ f call = some c ∨ j ≠ i ∧ s.acquires[j]?.bind f = some c := by
  rw [setAcquire, List.getElem?_set] at h
  split_ifs at h with hij hlt
  · exact .inl ⟨hij.symm, h⟩
  · cases h
  · exact .inr ⟨Ne.symm hij, h⟩

theorem holds_setAcquire {i j : Nat} {call : AcquireCall} (h : (s.setAcquire i call).Holds j c) :
    j = i ∧ call.held? = some c ∨ j ≠ i ∧ s.Holds j c := by
  exact bind_setAcquire h

theorem chooses_setAcquire {i j : Nat} {call : AcquireCall}
    (h : (s.setAcquire i call).Chooses j c) :
    j = i ∧ call.chosen? = some c ∨ j ≠ i ∧ s.Chooses j c := by
  exact bind_setAcquire h

theorem Quiet.refl : s.Quiet s :=
  ⟨.refl, fun _ h => h, rfl, fun _ h => h, fun _ _ h => h, fun _ _ h => h,
    fun scan hscan _ he => .inr ⟨scan, hscan, he⟩⟩

theorem Quiet.trans {t : ContainerHost} (h : s.Quiet t) (h' : t.Quiet s') : s.Quiet s' := by
  refine ⟨⟨?_, ?_⟩, ?_, ?_, ?_, ?_, ?_, ?_⟩
  · rw [h'.pool.idleByImage, h.pool.idleByImage]
  · rw [h'.pool.idleMeta, h.pool.idleMeta]
  · exact fun c hc => h.docker c (h'.docker c hc)
  · rw [h'.issued, h.issued]
  · exact fun c hc => h.prewarm c (h'.prewarm c hc)
  · exact fun i c hc => h.held i c (h'.held i c hc)
  · exact fun i c hc => h.chosen i c (h'.chosen i c hc)
  · intro scan hscan e he
    rcases h'.listed scan hscan e he with hdocker | ⟨scan', hscan', he'⟩
    · exact .inl (h.docker e.1 hdocker)
    · exact h.listed scan' hscan' e he'

theorem quiet_enqueue {preferredImage : Option String} : s.Quiet (s.enqueue preferredImage) :=
  ⟨(s.pool.enqueued s.activeCount preferredImage).sameIdle, fun _ h => h, rfl, fun _ h => h,
    fun _ _ h => h, fun _ _ h => h, fun scan hscan _ he => .inr ⟨scan, hscan, he⟩⟩

theorem quiet_dockerRemove : s.Quiet (s.dockerRemove c) := by
  refine ⟨.refl, ?_, rfl, fun _ h => h, fun _ _ h => h, fun _ _ h => h,
    fun scan hscan _ he => .inr ⟨scan, hscan, he⟩⟩
  intro c' hc'
  exact (AList.mem_erase.mp hc').2

theorem quiet_setRelease {k : Nat} {call : ReleaseCall} : s.Quiet (s.setRelease k call) :=
  ⟨.refl, fun _ h => h, rfl, fun _ h => h, fun _ _ h => h, fun _ _ h => h,
    fun scan hscan _ he => .inr ⟨scan, hscan, he⟩⟩

/-- A call that goes on with its container, or without one. -/
theorem quiet_setAcquire {i : Nat} {call call' : AcquireCall} (hi : s.acquires[i]? = some call)
    (hheld : call'.held? = none ∨ call'.held? = call.held?)
    (hchosen : call'.chosen? = none ∨ call'.chosen? = call.chosen?) :
    s.Quiet (s.setAcquire i call') := by
  refine ⟨.refl, fun _ h => h, rfl, fun _ h => h, ?_, ?_,
    fun scan hscan _ he => .inr ⟨scan, hscan, he⟩⟩
  · intro j c hj
    rcases holds_setAcquire hj with ⟨rfl, hc⟩ | ⟨-, hold⟩
    · rcases hheld with hnone | hsame
      · cases hnone.symm.trans hc
      · exact Option.bind_eq_some_iff.mpr ⟨call, hi, hsame.symm.trans hc⟩
    · exact hold
  · intro j c hj
    rcases chooses_setAcquire hj with ⟨rfl, hc⟩ | ⟨-, hold⟩
    · rcases hchosen with hnone | hsame
      · cases hnone.symm.trans hc
      · exact Option.bind_eq_some_iff.mpr ⟨call, hi, hsame.symm.trans hc⟩
    · exact hold

/-- A scan goes on with what is left of its list. -/
theorem quiet_setSync {j : Nat} {scan scan' : SyncScan} (hj : s.syncs[j]? = some scan)
    (h : ∀ e ∈ scan'.containers, e ∈ scan.containers) : s.Quiet (s.setSync j scan') := by
  refine ⟨.refl, fun _ h => h, rfl, fun _ h => h, fun _ _ h => h, fun _ _ h => h, ?_⟩
  intro t ht e he
  rcases List.mem_or_eq_of_mem_set ht with ht | rfl
  · exact .inr ⟨t, ht, he⟩
  · exact .inr ⟨scan, List.mem_of_getElem? hj, h e he⟩

theorem quiet_activeContainers {active : Dict String String} :
    s.Quiet { s with activeContainers := active } :=
  ⟨.refl, fun _ h => h, rfl, fun _ h => h, fun _ _ h => h, fun _ _ h => h,
    fun scan hscan _ he => .inr ⟨scan, hscan, he⟩⟩

theorem quiet_releases {releases : List ReleaseCall} : s.Quiet { s with releases := releases } :=
  ⟨.refl, fun _ h => h, rfl, fun _ h => h, fun _ _ h => h, fun _ _ h => h,
    fun scan hscan _ he => .inr ⟨scan, hscan, he⟩⟩

theorem quiet_prewarm {prewarm : PrewarmThread}
    (h : ∀ c, prewarm.container? = some c → s.prewarm.container? = some c) :
    s.Quiet { s with prewarm := prewarm } :=
  ⟨.refl, fun _ h => h, rfl, h, fun _ _ h => h, fun _ _ h => h,
    fun scan hscan _ he => .inr ⟨scan, hscan, he⟩⟩

/-- The loop goes on without a container. -/
theorem quiet_loop {pool : ContainerPool} {prewarm : PrewarmThread} (hpool : s.pool.SameIdle pool)
    (h : prewarm.container? = none) : s.Quiet { s with pool := pool, prewarm := prewarm } := by
  refine ⟨hpool, fun _ h => h, rfl, ?_, fun _ _ h => h, fun _ _ h => h,
    fun scan hscan _ he => .inr ⟨scan, hscan, he⟩⟩
  intro c hc
  cases h.symm.trans hc

theorem quiet_syncList {containers : List (String × DockerContainer)}
    (h : ∀ e ∈ containers, s.docker.lookup e.1 = some e.2) :
    s.Quiet { s with syncs := s.syncs ++ [.listed containers] } := by
  refine ⟨.refl, fun _ h => h, rfl, fun _ h => h, fun _ _ h => h, fun _ _ h => h, ?_⟩
  intro scan hscan e he
  rcases List.mem_append.mp hscan with hscan | hscan
  · exact .inr ⟨scan, hscan, he⟩
  · rw [List.mem_singleton.mp hscan] at he
    exact .inl (AList.lookup_isSome.mp (by rw [h e he]; rfl))

/-- A call that has just come in holds nothing. -/
theorem getElem?_looking {image : String} {f : AcquireCall → Option String}
    (hf : f (.looking image) = none) {i : Nat}
    (h : ((s.acquires ++ [.looking image])[i]?).bind f = some c) :
    (s.acquires[i]?).bind f = some c := by
  rcases Nat.lt_trichotomy i s.acquires.length with hlt | rfl | hlt
  · rw [List.getElem?_append_left hlt] at h
    exact h
  · rw [List.getElem?_concat_length, Option.bind_some, hf] at h
    cases h
  · rw [List.getElem?_eq_none (by rw [List.length_append, List.length_singleton]; omega)] at h
    cases h

theorem quiet_acquire {image : String} :
    s.Quiet { s with acquires := s.acquires ++ [.looking image] } :=
  ⟨.refl, fun _ h => h, rfl, fun _ h => h, fun _ _ h => getElem?_looking rfl h,
    fun _ _ h => getElem?_looking rfl h, fun scan hscan _ he => .inr ⟨scan, hscan, he⟩⟩

theorem launched_of_dockerRun {container : DockerContainer}
    (h : s.dockerRun c container = some s') : c ∉ s.issued ∧ s' = s.launched c container := by
  unfold dockerRun at h
  split_ifs at h with hc
  cases h
  exact ⟨hc, rfl⟩

theorem moves_popIdle (hf : s.pool.Filed) {i : Nat} (h : s.popIdle i = some s') :
    s.Moves (.popIdle i) s' := by
  unfold popIdle at h
  split at h
  · rename_i image hi
    split_ifs at h
    · rcases ContainerPool.popIdleCandidate_cases hf image with
        ⟨-, hpop⟩ | ⟨c, rest, info, hq, hl, himage, hpop⟩
      · rw [hpop] at h
        cases h
        exact .quiet (.same rfl rfl) (quiet_setAcquire hi (.inl rfl) (.inl rfl))
      · rw [hpop] at h
        cases h
        exact .popped hi hq hl himage
    · cases h
      exact .quiet (.same rfl rfl) (quiet_setAcquire hi (.inl rfl) (.inl rfl))
  · cases h

theorem moves_checkHealth {i : Nat} {isHealthy : Bool} (h : s.checkHealth i isHealthy = some s') :
    s.Moves (.checkHealth i isHealthy) s' := by
  unfold checkHealth at h
  split at h
  · rename_i image c info hi
    split_ifs at h with hhealthy hc
    · cases h
      subst hhealthy
      exact .confirmed hi hc
    · cases h
      exact .quiet (.same rfl rfl) (quiet_setAcquire hi (.inl rfl) (.inl rfl))
  · cases h

theorem moves_recordCreate (h : s.recordCreate = some s') : s.Moves .prewarmRecord s' := by
  unfold recordCreate at h
  split at h
  · rename_i image c name hw
    cases h
    exact .recorded hw
  · rename_i image hw
    cases h
    exact .dropped hw
  · cases h

theorem moves_register {i : Nat} (h : s.register i = some s') : s.Moves (.register i) s' := by
  unfold register at h
  split at h
  · rename_i image c name pooled hi
    cases h
    have hcall : s.Quiet (s.setAcquire i (.registered c name pooled)) :=
      quiet_setAcquire hi (.inr rfl) (.inr rfl)
    exact .quiet (.same rfl rfl) (hcall.trans quiet_activeContainers)
  · cases h

theorem moves_syncCheck {j : Nat} (h : s.syncCheck lower j = some s') :
    s.Moves (.syncCheck j) s' := by
  unfold syncCheck at h
  split at h
  · rename_i hj
    cases h
    exact .quiet (.same rfl rfl) (quiet_setSync hj fun e he => he)
  · rename_i container rest activeIds hj
    have hrest : ∀ scan', (∀ e ∈ scan'.containers, e ∈ container :: rest) →
        s.Moves (.syncCheck j) (s.setSync j scan') :=
      fun scan' hscan => .quiet (.same rfl rfl) (quiet_setSync hj hscan)
    split_ifs at h
    · split at h
      · cases h
        exact hrest _ fun e he => absurd he List.not_mem_nil
      · cases h
        exact hrest _ fun e he => List.mem_cons_of_mem _ he
      · cases h
        exact hrest _ fun e he => he
    · cases h
      exact hrest _ fun e he => List.mem_cons_of_mem _ he
  · cases h

theorem moves_syncAdopt {j : Nat} (h : s.syncAdopt j = some s') : s.Moves (.syncAdopt j) s' := by
  unfold syncAdopt at h
  split at h
  · rename_i container rest activeIds hj
    have hrest : ∀ scan', (∀ e ∈ scan'.containers, e ∈ container :: rest) →
        s.Moves (.syncAdopt j) (s.setSync j scan') :=
      fun scan' hscan => .quiet (.same rfl rfl) (quiet_setSync hj hscan)
    dsimp only at h
    split at h
    · cases h
      exact hrest _ fun e he => absurd he List.not_mem_nil
    · cases h
      exact hrest _ fun e he => List.mem_cons_of_mem _ he
    · rename_i hadmits
      cases h
      have hadopted : s.adopted? j = some container.1 := by
        unfold adopted?
        rw [hj]
        dsimp only
        rw [if_pos hadmits]
      have hidle : container.1 ∉ s.pool.idleMeta := by
        unfold admits at hadmits
        split_ifs at hadmits
        have hchecks := Option.some.inj hadmits
        rw [Bool.and_eq_true, Bool.and_eq_true] at hchecks
        exact of_decide_eq_true hchecks.1.1
      exact .adopted hj hidle hadopted
  · cases h

theorem moves_next (hf : s.pool.Filed) (h : s.next lower a = some s') : s.Moves a s' := by
  cases a with
  | popIdle i => exact moves_popIdle hf h
  | checkHealth i isHealthy => exact moves_checkHealth h
  | prewarmRecord => exact moves_recordCreate h
  | register i => exact moves_register h
  | syncCheck j => exact moves_syncCheck h
  | syncAdopt j => exact moves_syncAdopt h
  | start =>
    simp only [next] at h
    split_ifs at h with hstart
    cases h
    have himages : PrewarmThread.waiting.images = s.prewarm.images := by
      rw [hstart.2]
      rfl
    exact .quiet (.same rfl himages) (quiet_loop .refl rfl)
  | refill =>
    cases h
    exact .quiet (.enqueued (s.pool.enqueued _ _) rfl) quiet_enqueue
  | prewarmTake =>
    simp only [next] at h
    split at h
    · rename_i hw hq
      cases h
      exact .taken hw hq
    · cases h
  | prewarmRun c name command =>
    simp only [next] at h
    split at h
    · rename_i image hw
      obtain ⟨t, ht, rfl⟩ := Option.map_eq_some_iff.mp h
      obtain ⟨hc, rfl⟩ := launched_of_dockerRun ht
      exact .prewarmMade hw hc
    · cases h
  | prewarmReturn succeeds =>
    simp only [next] at h
    split at h
    · rename_i image created hw
      split at h
      · rename_i c name
        cases h
        have himages : (PrewarmThread.created image c name).images = s.prewarm.images := by
          rw [hw]
          rfl
        refine .quiet (.same rfl himages) (quiet_prewarm fun c hc => ?_)
        rw [hw]
        exact hc
      · cases h
      · cases h
        have himages : (PrewarmThread.failed image).images = s.prewarm.images := by
          rw [hw]
          rfl
        exact .quiet (.same rfl himages) (quiet_loop .refl rfl)
    · cases h
  | acquire image =>
    cases h
    exact .quiet (.same rfl rfl) quiet_acquire
  | reuse i =>
    simp only [next] at h
    split at h
    · rename_i image c name hi
      cases h
      have hcall : s.Quiet (s.setAcquire i (.acquired image c name true)) :=
        quiet_setAcquire hi (.inr rfl) (.inr rfl)
      exact .quiet (.enqueued (s.pool.enqueued _ _) rfl) (hcall.trans quiet_enqueue)
    · cases h
  | discard i succeeds =>
    simp only [next] at h
    split at h
    · rename_i image c hi
      split_ifs at h
      · cases h
        have hcall : s.Quiet (s.setAcquire i (.looking image)) :=
          quiet_setAcquire hi (.inl rfl) (.inl rfl)
        exact .quiet (.same rfl rfl) (hcall.trans quiet_dockerRemove)
      · cases h
        exact .quiet (.same rfl rfl) (quiet_setAcquire hi (.inl rfl) (.inl rfl))
    · cases h
  | miss i =>
    simp only [next] at h
    split at h
    · rename_i image hi
      cases h
      have hcall : s.Quiet (s.setAcquire i (.creating image none)) :=
        quiet_setAcquire hi (.inl rfl) (.inl rfl)
      exact .quiet (.enqueued (s.pool.enqueued _ _) rfl) (hcall.trans quiet_enqueue)
    · cases h
  | acquireRun i c name command =>
    simp only [next] at h
    split at h
    · rename_i image hi
      obtain ⟨t, ht, rfl⟩ := Option.map_eq_some_iff.mp h
      obtain ⟨hc, rfl⟩ := launched_of_dockerRun ht
      exact .acquireMade hi hc
    · cases h
  | acquireReturn i succeeds =>
    simp only [next] at h
    split at h
    · rename_i image created hi
      split at h
      · cases h
        exact .quiet (.same rfl rfl) (quiet_setAcquire hi (.inr rfl) (.inr rfl))
      · cases h
      · cases h
        exact .quiet (.same rfl rfl) (quiet_setAcquire hi (.inl rfl) (.inl rfl))
    · cases h
  | release c isFault =>
    obtain ⟨image, -, rfl⟩ := Option.map_eq_some_iff.mp h
    exact .quiet (.same rfl rfl) quiet_releases
  | destroy k succeeds =>
    simp only [next] at h
    split at h
    · split_ifs at h
      · cases h
        exact .quiet (.same rfl rfl) (quiet_dockerRemove.trans quiet_setRelease)
      all_goals
        cases h
        exact .quiet (.same rfl rfl) quiet_setRelease
    · cases h
  | releaseRefill k =>
    simp only [next] at h
    split at h
    · cases h
      split_ifs
      · exact .quiet (.enqueued (s.pool.enqueued _ _) rfl) (quiet_enqueue.trans quiet_setRelease)
      · exact .quiet (.same rfl rfl) quiet_setRelease
    · cases h
  | untrack k =>
    simp only [next] at h
    split at h
    · cases h
      exact .quiet (.same rfl rfl) (quiet_setRelease.trans quiet_activeContainers)
    · cases h
  | syncList containers =>
    simp only [next] at h
    split_ifs at h with hlisted
    cases h
    exact .quiet (.same rfl rfl) (quiet_syncList hlisted.2.2)
  | syncActive j =>
    simp only [next] at h
    split at h
    · rename_i hj
      cases h
      exact .quiet (.same rfl rfl) (quiet_setSync hj fun e he => he)
    · cases h
  | syncHealth j isHealthy =>
    simp only [next] at h
    split at h
    · rename_i hj
      split_ifs at h
      · cases h
        exact .quiet (.same rfl rfl) (quiet_setSync hj fun e he => he)
      · cases h
        exact .quiet (.same rfl rfl) (quiet_setSync hj fun e he => List.mem_cons_of_mem _ he)
    · cases h
  | appear c container =>
    obtain ⟨hc, rfl⟩ := launched_of_dockerRun h
    exact .appeared hc
  | vanish c =>
    cases h
    exact .quiet (.same rfl rfl) quiet_dockerRemove
  | track c image =>
    cases h
    exact .quiet (.same rfl rfl) quiet_activeContainers

theorem Refilled.counts (h : s.Refilled s') (hc : s.pool.Counts s.prewarm.images) :
    s'.pool.Counts s'.prewarm.images := by
  cases h with
  | same hp hi =>
    rw [hp, hi]
    exact hc
  | enqueued hp hi =>
    rw [hi]
    exact hc.enqueued hp

theorem counts_next (hc : s.pool.Counts s.prewarm.images) (h : s.Moves a s') :
    s'.pool.Counts s'.prewarm.images := by
  cases h with
  | quiet hr _ => exact hr.counts hc
  | taken hw hq =>
    rw [hw] at hc
    exact hc.taken hq
  | prewarmMade hw _ =>
    rw [hw] at hc
    exact hc
  | acquireMade _ _ => exact hc
  | appeared _ => exact hc
  | recorded hw =>
    rw [hw] at hc
    have hsettled := hc.settled
    exact ⟨hsettled.total, hsettled.perImage⟩
  | dropped hw =>
    rw [hw] at hc
    exact hc.settled
  | popped _ _ _ _ => exact ⟨hc.total, hc.perImage⟩
  | confirmed _ _ => exact hc
  | adopted _ _ _ => exact ⟨hc.total, hc.perImage⟩

theorem filed_next (hp : s.Placed) (hf : s.pool.Filed) (h : s.Moves a s') : s'.pool.Filed := by
  cases h with
  | quiet _ h => exact h.pool.filed hf
  | taken _ _ => exact hf
  | prewarmMade _ _ => exact hf
  | acquireMade _ _ => exact hf
  | appeared _ => exact hf
  | @recorded image c name hw =>
    have hnot : c ∉ (s.pool.settleCreate image).idleMeta := by
      refine (hp.prewarm c ?_).2.1
      rw [hw]
      rfl
    have hsettled : (s.pool.settleCreate image).Filed := hf
    exact hsettled.addIdle hnot
  | dropped _ => exact hf
  | popped _ hq hl himage => exact hf.popped hq hl himage
  | confirmed _ _ => exact hf
  | adopted _ hnot _ => exact hf.addIdle hnot

/-- A container that docker has just made is nowhere else. -/
theorem Placed.launched (hp : s.Placed) {container : DockerContainer} (hc : c ∉ s.issued) :
    (s.launched c container).Placed := by
  have hnew : ∀ i, ¬s.Holds i c := fun i hi => hc (hp.held i c hi)
  refine ⟨?_, ?_, ?_, ?_, ?_, ?_, ?_, hp.chosen⟩
  · exact fun c' hc' => List.mem_cons_of_mem _ (hp.idle c' hc')
  · intro c' hc'
    rcases (AList.mem_insert s.docker).mp hc' with rfl | hc'
    · exact List.mem_cons_self ..
    · exact List.mem_cons_of_mem _ (hp.docker c' hc')
  · exact fun i c' hi => List.mem_cons_of_mem _ (hp.held i c' hi)
  · exact fun scan hscan e he => List.mem_cons_of_mem _ (hp.listed scan hscan e he)
  · intro c' hc'
    obtain ⟨hissued, hnot, hfree⟩ := hp.prewarm c' hc'
    exact ⟨List.mem_cons_of_mem _ hissued, hnot, hfree⟩
  · intro c' hc' i j hi hj
    rcases (AList.mem_insert s.docker).mp hc' with rfl | hc'
    · exact absurd hi (hnew i)
    · exact hp.alone c' hc' i j hi hj
  · intro c' hc' hidle i
    rcases (AList.mem_insert s.docker).mp hc' with rfl | hc'
    · exact hnew i
    · exact hp.free c' hc' hidle i

/-- Fewer containers are idle. -/
theorem Placed.fewer (hp : s.Placed) {pool : ContainerPool}
    (h : ∀ c ∈ pool.idleMeta, c ∈ s.pool.idleMeta) : Placed { s with pool := pool } := by
  refine ⟨fun c hc => hp.idle c (h c hc), hp.docker, hp.held, hp.listed, ?_, hp.alone, ?_,
    hp.chosen⟩
  · intro c hc
    obtain ⟨hissued, hnot, hfree⟩ := hp.prewarm c hc
    exact ⟨hissued, fun hidle => hnot (h c hidle), hfree⟩
  · exact fun c hc hidle => hp.free c hc (h c hidle)

/-- A container that nobody has becomes idle. -/
theorem Placed.addIdle (hp : s.Placed) (info : IdleMeta) (hissued : c ∈ s.issued)
    (hprewarm : s.prewarm.container? ≠ some c) (hfree : c ∈ s.docker → ∀ i, ¬s.Holds i c) :
    Placed { s with pool := s.pool.addIdle c info } := by
  have hidle : ∀ c', c' ∈ (s.pool.addIdle c info).idleMeta → c' = c ∨ c' ∈ s.pool.idleMeta :=
    fun c' => (AList.mem_insert s.pool.idleMeta).mp
  refine ⟨?_, hp.docker, hp.held, hp.listed, ?_, hp.alone, ?_, hp.chosen⟩
  · intro c' hc'
    rcases hidle c' hc' with rfl | hold
    · exact hissued
    · exact hp.idle c' hold
  · intro c' hc'
    obtain ⟨hissued', hnot, hnone⟩ := hp.prewarm c' hc'
    refine ⟨hissued', fun hnew => ?_, hnone⟩
    rcases hidle c' hnew with rfl | hold
    · exact hprewarm hc'
    · exact hnot hold
  · intro c' hdocker hc'
    rcases hidle c' hc' with rfl | hold
    · exact hfree hdocker
    · exact hp.free c' hdocker hold

/-- A call takes a container that nobody else has, as far as the container is alive. -/
theorem Placed.hold (hp : s.Placed) {i : Nat} {call : AcquireCall} (hheld : call.held? = some c)
    (hissued : c ∈ s.issued) (hprewarm : s.prewarm.container? ≠ some c)
    (hfree : c ∈ s.docker → c ∉ s.pool.idleMeta ∧ ∀ j, j ≠ i → ¬s.Holds j c)
    (hchosen : call.chosen? = none ∨ ∀ j, j ≠ i → ¬s.Chooses j c) :
    (s.setAcquire i call).Placed := by
  have hholds : ∀ j c', (s.setAcquire i call).Holds j c' →
      j = i ∧ c' = c ∨ j ≠ i ∧ s.Holds j c' := by
    intro j c' hj
    rcases holds_setAcquire hj with ⟨hji, hc⟩ | hold
    · exact .inl ⟨hji, Option.some.inj (hc.symm.trans hheld)⟩
    · exact .inr hold
  refine ⟨hp.idle, hp.docker, ?_, hp.listed, ?_, ?_, ?_, ?_⟩
  · intro j c' hj
    rcases hholds j c' hj with ⟨-, rfl⟩ | ⟨-, hold⟩
    · exact hissued
    · exact hp.held j c' hold
  · intro c' hc'
    obtain ⟨hissued', hnot, hnone⟩ := hp.prewarm c' hc'
    refine ⟨hissued', hnot, fun j hj => ?_⟩
    rcases hholds j c' hj with ⟨-, rfl⟩ | ⟨-, hold⟩
    · exact hprewarm hc'
    · exact hnone j hold
  · intro c' hdocker j k hj hk
    rcases hholds j c' hj with ⟨hji, rfl⟩ | ⟨hji, hold⟩
    · rcases hholds k c' hk with ⟨hki, -⟩ | ⟨hki, hold'⟩
      · exact hji.trans hki.symm
      · exact absurd hold' ((hfree hdocker).2 k hki)
    · rcases hholds k c' hk with ⟨hki, rfl⟩ | ⟨-, hold'⟩
      · exact absurd hold ((hfree hdocker).2 j hji)
      · exact hp.alone c' hdocker j k hold hold'
  · intro c' hdocker hidle j hj
    rcases hholds j c' hj with ⟨-, rfl⟩ | ⟨-, hold⟩
    · exact (hfree hdocker).1 hidle
    · exact hp.free c' hdocker hidle j hold
  · intro j k c' hj hk
    rcases chooses_setAcquire hj with ⟨hji, hc⟩ | ⟨hji, hold⟩
    · obtain rfl : c' = c :=
        Option.some.inj ((AcquireCall.held_of_chosen hc).symm.trans hheld)
      rcases chooses_setAcquire hk with ⟨hki, -⟩ | ⟨hki, hold'⟩
      · exact hji.trans hki.symm
      · rcases hchosen with hnone | hothers
        · cases hnone.symm.trans hc
        · exact absurd hold' (hothers k hki)
    · rcases chooses_setAcquire hk with ⟨hki, hc⟩ | ⟨-, hold'⟩
      · obtain rfl : c' = c :=
          Option.some.inj ((AcquireCall.held_of_chosen hc).symm.trans hheld)
        rcases hchosen with hnone | hothers
        · cases hnone.symm.trans hc
        · exact absurd hold (hothers j hji)
      · exact hp.chosen j k c' hold hold'

theorem holds_of_getElem {i : Nat} {call : AcquireCall} (hi : s.acquires[i]? = some call)
    (hc : call.held? = some c) : s.Holds i c :=
  Option.bind_eq_some_iff.mpr ⟨call, hi, hc⟩

/-- The container of the prewarm loop is one that no call holds. -/
theorem Placed.prewarm_ne (hp : s.Placed) {i : Nat} (hi : s.Holds i c) :
    s.prewarm.container? ≠ some c :=
  fun hw => (hp.prewarm c hw).2.2 i hi

theorem Placed.popped (hp : s.Placed) {i : Nat} {image : String}
    {info : IdleMeta} {idleByImage : Dict String (List String)}
    (hl : s.pool.idleMeta.lookup c = some info) :
    Placed ({ s with
      pool := { s.pool with
        idleByImage := idleByImage
        idleMeta := AList.erase c s.pool.idleMeta } }.setAcquire i (.popped image c info)) := by
  have hmem : c ∈ s.pool.idleMeta := AList.lookup_isSome.mp (by rw [hl]; rfl)
  have hfewer : ∀ c' ∈ AList.erase c s.pool.idleMeta, c' ∈ s.pool.idleMeta :=
    fun c' hc' => (AList.mem_erase.mp hc').2
  have hgone : c ∉ AList.erase c s.pool.idleMeta := fun hc => (AList.mem_erase.mp hc).1 rfl
  refine (hp.fewer hfewer).hold rfl (hp.idle c hmem) ?_ ?_ (.inl rfl)
  · exact fun hw => (hp.prewarm c hw).2.1 hmem
  · exact fun hdocker => ⟨hgone, fun j _ => hp.free c hdocker hmem j⟩

theorem Placed.next (hp : s.Placed) (hu : s.Unclaimed a) (h : s.Moves a s') :
    s'.Placed := by
  cases h with
  | quiet _ h => exact h.placed hp
  | taken hw hq =>
    refine Quiet.placed ?_ hp
    exact quiet_loop ⟨rfl, rfl⟩ rfl
  | @prewarmMade image c name command hw hc =>
    have hl : (s.launched c ⟨name, image, command⟩).Placed := hp.launched hc
    refine ⟨hl.idle, hl.docker, hl.held, hl.listed, ?_, hl.alone, hl.free, hl.chosen⟩
    intro c' hc'
    obtain rfl : c = c' := Option.some.inj hc'
    exact ⟨List.mem_cons_self .., fun hidle => hc (hp.idle c hidle),
      fun i hi => hc (hp.held i c hi)⟩
  | @acquireMade i image c name command hi hc =>
    have hl : (s.launched c ⟨name, image, command⟩).Placed := hp.launched hc
    have hnew : ∀ j, ¬s.Holds j c := fun j hj => hc (hp.held j c hj)
    refine hl.hold rfl (List.mem_cons_self ..) ?_ ?_ (.inr ?_)
    · exact fun hw => hc (hp.prewarm c hw).1
    · exact fun _ => ⟨fun hidle => hc (hp.idle c hidle), fun j _ => hnew j⟩
    · exact fun j _ hj => hnew j (holds_of_chooses hj)
  | appeared hc => exact hp.launched hc
  | @recorded image c name hw =>
    have hc : s.prewarm.container? = some c := by
      rw [hw]
      rfl
    obtain ⟨hissued, -, hnone⟩ := hp.prewarm c hc
    have hsettled : s.Quiet { s with pool := s.pool.settleCreate image, prewarm := .waiting } :=
      quiet_loop ⟨rfl, rfl⟩ rfl
    have hnothing : PrewarmThread.waiting.container? ≠ some c := (Option.some_ne_none c).symm
    exact (hsettled.placed hp).addIdle _ hissued hnothing fun _ => hnone
  | dropped hw =>
    refine Quiet.placed ?_ hp
    exact quiet_loop ⟨rfl, rfl⟩ rfl
  | popped hi hq hl himage => exact hp.popped hl
  | @confirmed i image c info hi hc =>
    have hholds : s.Holds i c := holds_of_getElem hi rfl
    have halone : ∀ j, j ≠ i → ¬s.Holds j c := fun j hji hj => hji (hp.alone c hc j i hj hholds)
    refine hp.hold rfl (hp.held i c hholds) (hp.prewarm_ne hholds) ?_ (.inr ?_)
    · exact fun hdocker => ⟨fun hidle => hp.free c hdocker hidle i hholds, halone⟩
    · exact fun j hji hj => halone j hji (holds_of_chooses hj)
  | @adopted j container rest activeIds hj hc ha =>
    obtain ⟨hprewarm, hunclaimed⟩ := hu container.1 ha
    have hissued : container.1 ∈ s.issued :=
      hp.listed _ (List.mem_of_getElem? hj) container (List.mem_cons_self ..)
    have hfree : container.1 ∈ s.docker → ∀ i, ¬s.Holds i container.1 := by
      intro hdocker i hi
      obtain ⟨call, hcall, hheld⟩ := Option.bind_eq_some_iff.mp hi
      exact hunclaimed hdocker call (List.mem_of_getElem? hcall) hheld
    have hidle := hp.addIdle ⟨container.2.name, container.2.image⟩ hissued hprewarm hfree
    refine Quiet.placed (quiet_setSync hj ?_) hidle
    exact fun e he => List.mem_cons_of_mem _ he

theorem init_placed (config : PoolConfig) (docker : Dict String DockerContainer) :
    (init config docker).Placed := by
  have hnone : ∀ i c, ¬(init config docker).Holds i c := by
    intro i c hi
    cases hi
  refine ⟨?_, fun c hc => hc, fun i c hi => absurd hi (hnone i c), ?_, ?_, ?_, ?_, ?_⟩
  · intro c hc
    cases hc
  · intro scan hscan
    cases hscan
  · intro c hc
    cases hc
  · exact fun c _ i j hi => absurd hi (hnone i c)
  · exact fun c _ _ i => hnone i c
  · exact fun i j c hi => absurd (holds_of_chooses hi) (hnone i c)

/-- Eight containers at most, four of each image, and one image to prewarm. -/
def warmConfig : PoolConfig where
  useContainerPool := true
  poolMaxSizePerImage := 4
  poolMaxTotalSize := 0
  poolPrewarmRatio := 1
  poolPrewarmMaxConcurrency := 8
  maxContainersPerNode := 0
  prewarmImages := ["img"]

def sleeper : DockerContainer := ⟨"swe-1", "img", "\"sleep infinity\""⟩

/-- A scan up to its last checks of one container. -/
def scanRun (j : Nat) (c : String) : List PoolAction :=
  [.syncList [(c, sleeper)], .syncActive j, .syncCheck j, .syncHealth j true]

/-- The prewarm loop has made a container and not recorded it when a scan adopts it. -/
def adoptedRun : List PoolAction :=
  [.start, .refill, .prewarmTake, .prewarmRun "c1" "swe-1" "\"sleep infinity\""] ++
    scanRun 0 "c1" ++ [.syncAdopt 0, .prewarmReturn true, .prewarmRecord]

/-- A call has popped a container and not registered it when a scan adopts it, and another call
pops it again. -/
def sharedRun : List PoolAction :=
  [.start] ++ scanRun 0 "c1" ++ [.syncAdopt 0, .acquire "img", .popIdle 0] ++ scanRun 1 "c1" ++
    [.checkHealth 0 true, .syncAdopt 1, .reuse 0, .acquire "img", .popIdle 1, .checkHealth 1 true,
      .reuse 1, .register 0, .register 1]

end ContainerHost

end Belayer.Exec
