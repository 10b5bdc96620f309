import Belayer.Framework.Traverse
import Belayer.Weights.ParameterServer

namespace Belayer.Weights.Ps

open Belayer.Framework

/-! Each bucket gets a receiver once, and no device sends twice in a round. -/

section Round

variable {T : Type} {device : Nat → Option String} {receivers : List Nat} {occupied : List String}
  {s s' : AssignState T}

/-- The receivers from the first on get the next buckets, from different devices. -/
structure IsRound (device : Nat → Option String) (receivers : List Nat) (occupied : List String)
    (round : List (Nat × Nat × T)) : Prop where
  receivers : round.map Prod.fst <+: receivers
  devices : (round.map fun b => device b.2.1).Nodup
  apart : ∀ b ∈ round, ∀ d ∈ occupied, device b.2.1 ≠ some d

theorem isRound_nil : IsRound (T := T) device receivers occupied [] :=
  ⟨List.nil_prefix, List.nodup_nil, fun _ h => absurd h List.not_mem_nil⟩

/-- One more bucket at the head of a round. -/
theorem IsRound.cons {receiver owner : Nat} {bucket : T} {d : String}
    {round : List (Nat × Nat × T)} (h : IsRound device receivers (d :: occupied) round)
    (hd : device owner = some d) (hoccupied : d ∉ occupied) :
    IsRound device (receiver :: receivers) occupied ((receiver, owner, bucket) :: round) := by
  refine ⟨List.cons_prefix_cons.mpr ⟨rfl, h.receivers⟩, ?_, ?_⟩
  · refine List.nodup_cons.mpr ⟨fun hmem => ?_, h.devices⟩
    obtain ⟨b, hb, he⟩ := List.mem_map.mp hmem
    exact h.apart b hb d List.mem_cons_self (he.trans hd)
  · refine List.forall_mem_cons.mpr ⟨fun d' hd' he => ?_, fun b hb d' hd' =>
      h.apart b hb d' (List.mem_cons_of_mem d hd')⟩
    have hsame : d = d' := Option.some.inj (hd.symm.trans he)
    exact hoccupied (hsame ▸ hd')

/-- What the loop over the receivers does: a round of the next buckets. -/
theorem round_of_assignRound (h : assignRound device receivers occupied s = some s') :
    ∃ round, s'.assigned = s.assigned ++ round ∧ round.map Prod.snd ++ s'.rest = s.rest ∧
      IsRound device receivers occupied round := by
  induction receivers generalizing occupied s with
  | nil =>
    obtain rfl : s = s' := Option.some.inj h
    exact ⟨[], (List.append_nil _).symm, rfl, isRound_nil⟩
  | cons receiver receivers ih =>
    unfold assignRound at h
    rcases hrest : s.rest with _ | ⟨⟨owner, bucket⟩, rest⟩
    · rw [hrest] at h
      obtain rfl : s = s' := Option.some.inj h
      exact ⟨[], (List.append_nil _).symm, hrest, isRound_nil⟩
    · rw [hrest] at h
      obtain ⟨d, hd, h⟩ := Option.bind_eq_some_iff.mp h
      split_ifs at h with hoccupied
      · obtain rfl : s = s' := Option.some.inj h
        exact ⟨[], (List.append_nil _).symm, hrest, isRound_nil⟩
      · obtain ⟨round, hassigned, hleft, hround⟩ := ih h
        refine ⟨(receiver, owner, bucket) :: round, ?_, ?_, hround.cons hd hoccupied⟩
        · rw [hassigned, List.append_assoc, List.singleton_append]
        · rw [List.map_cons, List.cons_append, hleft]

theorem exists_assignRound (receivers : List Nat) (occupied : List String) (hdevice : ∀ b ∈ s.rest, (device b.1).isSome) :
    ∃ s', assignRound device receivers occupied s = some s' := by
  induction receivers generalizing occupied s with
  | nil => exact ⟨s, rfl⟩
  | cons receiver receivers ih =>
    unfold assignRound
    rcases hrest : s.rest with _ | ⟨⟨owner, bucket⟩, rest⟩
    · exact ⟨s, rfl⟩
    · rw [hrest] at hdevice
      obtain ⟨howner, hothers⟩ := List.forall_mem_cons.mp hdevice
      obtain ⟨d, hd⟩ := Option.isSome_iff_exists.mp howner
      dsimp only at hd ⊢
      simp only [hd, Option.bind_eq_bind, Option.bind_some]
      split_ifs with hoccupied
      · exact ⟨s, rfl⟩
      · exact ih _ hothers

/-- A round with a receiver and a bucket gives one away. -/
theorem length_assignRound (hr : receivers ≠ []) (hrest : s.rest ≠ [])
    (h : assignRound device receivers [] s = some s') : s'.rest.length < s.rest.length := by
  obtain ⟨receiver, receivers, rfl⟩ := List.exists_cons_of_ne_nil hr
  obtain ⟨⟨owner, bucket⟩, rest, hs⟩ := List.exists_cons_of_ne_nil hrest
  unfold assignRound at h
  rw [hs] at h
  obtain ⟨d, -, h⟩ := Option.bind_eq_some_iff.mp h
  rw [if_neg List.not_mem_nil] at h
  obtain ⟨round, -, hleft, -⟩ := round_of_assignRound h
  have hlength := congrArg List.length hleft
  rw [List.length_append] at hlength
  rw [hs, List.length_cons]
  dsimp only at hlength
  omega

end Round

section Buckets

variable {T : Type} {localTopo remoteTopo : Dict String (List Nat)} {buckets : List (Nat × T)}

/-- The device of a rank. -/
def deviceOf (remoteTopo : Dict String (List Nat)) (rank : Nat) : Option String :=
  (rankToRdmaDevice remoteTopo).lookup rank

/-- The buckets of each device. -/
def bucketsMatrix (remoteTopo : Dict String (List Nat)) (buckets : List (Nat × T)) :
    List (List (Nat × T)) :=
  (Dict.groupBy (fun b => deviceOf remoteTopo b.1) buckets).items.map Prod.snd

/-- The buckets in the order in which they get their receivers. -/
def flattenedBuckets (remoteTopo : Dict String (List Nat)) (buckets : List (Nat × T)) :
    List (Nat × T) :=
  byColumns (((bucketsMatrix remoteTopo buckets).map List.length).max?.getD 0)
    (bucketsMatrix remoteTopo buckets)

/-- The receivers: the least rank of each of the first local devices. -/
def receiverList (localTopo remoteTopo : Dict String (List Nat)) (buckets : List (Nat × T)) :
    Option (List Nat) :=
  ((localTopo.items.map Prod.snd).take
    (min localTopo.items.length (bucketsMatrix remoteTopo buckets).length)).mapM fun ranks =>
      ranks.min?

/-- The `while` loop. -/
def assignLoop (remoteTopo : Dict String (List Nat)) (receivers : List Nat) (fuel : Nat)
    (buckets : List (Nat × T)) : Option (List (AssignState T) × AssignState T) :=
  whileLoop (fun s => s.rest ≠ []) (assignRound (deviceOf remoteTopo) receivers []) fuel
    ⟨flattenedBuckets remoteTopo buckets, []⟩

theorem assignReceiverRanks_eq (fuel : Nat) (hbuckets : buckets ≠ []) :
    assignReceiverRanks fuel buckets localTopo remoteTopo =
      (buckets.mapM fun b => deviceOf remoteTopo b.1).bind fun _ =>
        (receiverList localTopo remoteTopo buckets).bind fun receivers =>
          (assignLoop remoteTopo receivers fuel buckets).map fun loop => loop.2.assigned := by
  unfold assignReceiverRanks receiverList assignLoop flattenedBuckets bucketsMatrix deviceOf
  rw [if_neg hbuckets]
  simp only [Option.bind_eq_bind, Option.pure_def, Option.map_eq_bind]
  rfl

theorem flattenedBuckets_perm (hdevice : ∀ b ∈ buckets, (deviceOf remoteTopo b.1).isSome) :
    (flattenedBuckets remoteTopo buckets).Perm buckets := by
  have hgroups := Dict.perm_groupBy (fun b => deviceOf remoteTopo b.1) buckets
  rw [List.filter_eq_self.mpr hdevice, List.flatMap_def] at hgroups
  refine (byColumns_perm fun row hrow => ?_).trans hgroups
  cases hmax : ((bucketsMatrix remoteTopo buckets).map List.length).max? with
  | none =>
    rw [List.max?_eq_none_iff, List.map_eq_nil_iff] at hmax
    rw [bucketsMatrix] at hrow hmax
    rw [hmax] at hrow
    exact absurd hrow List.not_mem_nil
  | some n => exact (List.max?_eq_some_iff.mp hmax).2 _ (List.mem_map_of_mem hrow)

/-- What the loop keeps: rounds that have gone by, and in them the first buckets. -/
def InRounds (device : Nat → Option String) (receivers : List Nat) (flattened : List (Nat × T))
    (s : AssignState T) : Prop :=
  s.assigned.map Prod.snd ++ s.rest = flattened ∧
    ∃ rounds : List (List (Nat × Nat × T)), s.assigned = rounds.flatten ∧
      ∀ round ∈ rounds, IsRound device receivers [] round

theorem inRounds_start (device : Nat → Option String) (receivers : List Nat)
    (flattened : List (Nat × T)) : InRounds device receivers flattened ⟨flattened, []⟩ :=
  ⟨rfl, [], rfl, fun _ h => absurd h List.not_mem_nil⟩

theorem InRounds.step {device : Nat → Option String} {receivers : List Nat}
    {flattened : List (Nat × T)} {s s' : AssignState T} (h : InRounds device receivers flattened s)
    (hs' : assignRound device receivers [] s = some s') :
    InRounds device receivers flattened s' := by
  obtain ⟨hflat, rounds, hrounds, hall⟩ := h
  obtain ⟨round, hassigned, hleft, hround⟩ := round_of_assignRound hs'
  refine ⟨?_, rounds ++ [round], ?_, ?_⟩
  · rw [hassigned, List.map_append, List.append_assoc, hleft, hflat]
  · rw [hassigned, hrounds, List.flatten_append, List.flatten_singleton]
  · intro r hmem
    rcases List.mem_append.mp hmem with hmem | hmem
    · exact hall r hmem
    · rw [List.mem_singleton.mp hmem]
      exact hround

/-- What an assignment comes to, where it comes to an end. -/
theorem rounds_of_assignReceiverRanks {fuel : Nat} {out : List (Nat × Nat × T)}
    (h : assignReceiverRanks fuel buckets localTopo remoteTopo = some out) (hne : buckets ≠ []) :
    ∃ (receivers : List Nat) (rounds : List (List (Nat × Nat × T))),
      receiverList localTopo remoteTopo buckets = some receivers ∧
      (out.map Prod.snd).Perm buckets ∧ out = rounds.flatten ∧
      ∀ round ∈ rounds, IsRound (deviceOf remoteTopo) receivers [] round := by
  rw [assignReceiverRanks_eq fuel hne] at h
  obtain ⟨devices, hdevices, h⟩ := Option.bind_eq_some_iff.mp h
  obtain ⟨receivers, hreceivers, h⟩ := Option.bind_eq_some_iff.mp h
  obtain ⟨⟨tops, t⟩, hloop, rfl⟩ := Option.map_eq_some_iff.mp h
  obtain ⟨⟨hflat, rounds, hrounds, hall⟩, hend⟩ :=
    whileLoop_invariant _ (fun _ _ hs _ hs' => InRounds.step hs hs') hloop
      (inRounds_start (deviceOf remoteTopo) receivers _)
  refine ⟨receivers, rounds, hreceivers, ?_, hrounds, hall⟩
  rw [not_not.mp hend, List.append_nil] at hflat
  rw [hflat]
  exact flattenedBuckets_perm fun b hb => isSome_of_mapM hdevices hb

/-- The loop comes to an end where there is a receiver. -/
theorem exists_assignLoop (hdevice : ∀ b ∈ buckets, (deviceOf remoteTopo b.1).isSome)
    {receivers : List Nat} (hr : receivers ≠ []) :
    ∃ loop, ∀ fuel, buckets.length < fuel →
      assignLoop remoteTopo receivers fuel buckets = some loop := by
  have hperm := flattenedBuckets_perm hdevice
  have hround : ∀ s : AssignState T,
      InRounds (deviceOf remoteTopo) receivers (flattenedBuckets remoteTopo buckets) s →
      s.rest ≠ [] → ∃ s', assignRound (deviceOf remoteTopo) receivers [] s = some s' ∧
        InRounds (deviceOf remoteTopo) receivers (flattenedBuckets remoteTopo buckets) s' ∧
        s'.rest.length < s.rest.length := by
    intro s hs hrest
    have hdeviceRest : ∀ b ∈ s.rest, (deviceOf remoteTopo b.1).isSome := fun b hb =>
      hdevice b (hperm.mem_iff.mp (hs.1 ▸ List.mem_append_right _ hb))
    obtain ⟨s', hs'⟩ := exists_assignRound receivers [] hdeviceRest
    exact ⟨s', hs', hs.step hs', length_assignRound hr hrest hs'⟩
  obtain ⟨tops, t, hloop, -⟩ := whileLoop_total _ _ hround (inRounds_start _ _ _)
    (Nat.lt_succ_of_le hperm.length_eq.le)
  exact ⟨(tops, t), fun fuel hfuel => whileLoop_of_le hloop hfuel⟩

theorem bucketsMatrix_ne_nil (hdevice : ∀ b ∈ buckets, (deviceOf remoteTopo b.1).isSome)
    (hbuckets : buckets ≠ []) : bucketsMatrix remoteTopo buckets ≠ [] := by
  intro hnil
  have hperm := flattenedBuckets_perm hdevice
  rw [flattenedBuckets, hnil] at hperm
  have hempty : buckets = [] := by simpa [byColumns, column] using hperm
  exact hbuckets hempty

theorem exists_receiverList (remoteTopo : Dict String (List Nat)) (buckets : List (Nat × T))
    (hranks : ∀ e ∈ localTopo.items, e.2 ≠ []) :
    ∃ receivers, receiverList localTopo remoteTopo buckets = some receivers ∧
      receivers.length = min localTopo.items.length (bucketsMatrix remoteTopo buckets).length := by
  obtain ⟨receivers, hreceivers⟩ : ∃ receivers,
      receiverList localTopo remoteTopo buckets = some receivers := by
    refine exists_mapM fun ranks hmem => ?_
    obtain ⟨e, he, rfl⟩ := List.mem_map.mp (List.mem_of_mem_take hmem)
    rw [Option.isSome_iff_ne_none, Ne, List.min?_eq_none_iff]
    exact hranks e he
  refine ⟨receivers, hreceivers, ?_⟩
  have hlength := congrArg List.length (mapM_eq_some_iff.mp hreceivers)
  rw [List.length_map, List.length_map, List.length_take, List.length_map] at hlength
  omega

/-- Two ranks at one device. -/
def sharedDevice : Dict String (List Nat) := (∅ : Dict String (List Nat)).set "mlx5_0" [0, 1]

end Buckets

end Belayer.Weights.Ps
