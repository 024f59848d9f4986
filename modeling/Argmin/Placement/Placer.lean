import Argmin.Lib.Fallible
import Mathlib.Data.List.Sort
import Mathlib.Data.Rat.Lemmas
import Mathlib.Order.WithBot

/-!
# Placing shards on nodes

`Placer.place` assigns the shards of a key to nodes of a cluster: it scans the active nodes once, in
the order of their ids, and keeps the best candidates in a buffer with a count for each failure
group.  A constraint says for each node whether it competes for any slot or only with the candidates
of its own group.

The score of a node for a key is a parameter, with values in a linear order: for a positive weight
the source computes a number of `[0, ∞]`, never a NaN.  The fixed arrays of the source are the lists
of their valid entries.
-/

namespace Argmin.Placement

open Fallible

/-- The largest number of shards; the arrays of `place` have this size. -/
def maxShards : Nat := 32

def u64Max : UInt64 := 18446744073709551615

/-- The first element that has the key of its successor. -/
def firstRepeated {α : Type} (key : α → Nat) : List α → Option α
  | x :: y :: rest => if key x = key y then some x else firstRepeated key (y :: rest)
  | _ => none

/-- A sorted list in which no key is repeated is strictly sorted. -/
theorem pairwise_lt_of_firstRepeated {α : Type} {key : α → Nat} {l : List α}
    (hsorted : l.Pairwise fun a b => key a ≤ key b) (hnone : firstRepeated key l = none) :
    l.Pairwise fun a b => key a < key b := by
  rw [← List.isChain_iff_pairwise]
  induction l with
  | nil => exact List.IsChain.nil
  | cons x rest ih =>
    cases rest with
    | nil => exact List.IsChain.singleton x
    | cons y rest =>
      rw [firstRepeated] at hnone
      by_cases heq : key x = key y
      · rw [if_pos heq] at hnone
        exact absurd hnone (Option.some_ne_none x)
      · rw [if_neg heq] at hnone
        have hle := (List.pairwise_cons.mp hsorted).1 y List.mem_cons_self
        exact List.IsChain.cons_cons (Nat.lt_of_le_of_ne hle heq)
          (ih hsorted.of_cons hnone)

/-- Sorting by a key. -/
def sortByKey {α : Type} (key : α → Nat) (l : List α) : List α :=
  l.insertionSort fun a b => key a ≤ key b

theorem perm_sortByKey {α : Type} (key : α → Nat) (l : List α) : (sortByKey key l).Perm l :=
  List.perm_insertionSort _ l

theorem pairwise_sortByKey {α : Type} (key : α → Nat) (l : List α) :
    (sortByKey key l).Pairwise fun a b => key a ≤ key b :=
  List.pairwise_insertionSort _ l

/-! ### Topology -/

/-- An axis of the hierarchy; broader levels have lower values. -/
structure Level where
  value : UInt8
deriving DecidableEq, Repr

def Level.rack : Level := ⟨32⟩

inductive TopologyError
  | duplicateLevel (level : Level)
deriving DecidableEq, Repr

/-- The location of a node: its segments in the order of their levels, each level once. -/
structure TopologyKey where
  segments : List (Level × UInt32)
  ordered : segments.Pairwise fun a b => a.1.value.toNat < b.1.value.toNat
deriving DecidableEq

def TopologyKey.new (segments : List (Level × UInt32)) : Except TopologyError TopologyKey :=
  let sorted := sortByKey (·.1.value.toNat) segments
  match h : firstRepeated (·.1.value.toNat) sorted with
  | some segment => .error (.duplicateLevel segment.1)
  | none => .ok ⟨sorted, pairwise_lt_of_firstRepeated (pairwise_sortByKey _ _) h⟩

def TopologyKey.rack (rack : UInt32) : TopologyKey :=
  ⟨[(Level.rack, rack)], List.pairwise_singleton _ _⟩

/-- The value at a level, if there is one. -/
def TopologyKey.level (location : TopologyKey) (kind : Level) : Option UInt32 :=
  (location.segments.find? (·.1 = kind)).map (·.2)

/-! ### Nodes and the cluster map -/

structure NodeId where
  asU32 : UInt32
deriving DecidableEq, Repr

/-- A weight as the caller gives it; the two zeros of the source are one value here. -/
inductive Weight
  | finite (value : Rat)
  | infinite (negative : Bool)
  | nan
deriving DecidableEq, Repr

def Weight.isFinite : Weight → Bool
  | .finite _ => true
  | _ => false

def Weight.isNegative : Weight → Bool
  | .finite value => value < 0
  | .infinite negative => negative
  | .nan => false

def Weight.isZero : Weight → Bool
  | .finite value => value = 0
  | _ => false

def Weight.isPositive : Weight → Bool
  | .finite value => 0 < value
  | .infinite negative => !negative
  | .nan => false

structure NodeInfo where
  id : NodeId
  location : TopologyKey
  weight : Weight
deriving DecidableEq

def NodeInfo.order (node : NodeInfo) : Nat := node.id.asU32.toNat

inductive PlacementError
  | emptyCluster
  | duplicateNodeId (id : NodeId)
  | invalidWeight (id : NodeId) (weight : Weight)
  | invalidTotalShards
  | tooFewNodes (shards nodes : Nat)
  | constraintUnsatisfiable (shards filled : Nat)
  | outputLengthMismatch (got expected : Nat)
deriving DecidableEq, Repr

/-- A snapshot of the cluster: nodes in the order of their ids, each id once, with weights that are
finite and not negative. -/
structure ClusterMap where
  nodes : List NodeInfo
  ordered : nodes.Pairwise fun a b => a.order < b.order
  weights : ∀ node ∈ nodes, node.weight.isFinite = true ∧ node.weight.isNegative = false

def NodeInfo.hasInvalidWeight (node : NodeInfo) : Bool :=
  !node.weight.isFinite || node.weight.isNegative

theorem weights_of_find {nodes : List NodeInfo}
    (h : nodes.find? NodeInfo.hasInvalidWeight = none) :
    ∀ node ∈ sortByKey NodeInfo.order nodes,
      node.weight.isFinite = true ∧ node.weight.isNegative = false := by
  intro node hmem
  have hvalid := List.find?_eq_none.mp h node ((perm_sortByKey _ nodes).mem_iff.mp hmem)
  rw [NodeInfo.hasInvalidWeight, Bool.or_eq_true, not_or, Bool.not_eq_true', Bool.not_eq_false,
    Bool.not_eq_true] at hvalid
  exact hvalid

def ClusterMap.new (nodes : List NodeInfo) : Except PlacementError ClusterMap :=
  if nodes.isEmpty then .error .emptyCluster
  else
    match hweight : nodes.find? NodeInfo.hasInvalidWeight with
    | some node => .error (.invalidWeight node.id node.weight)
    | none =>
      match hid : firstRepeated NodeInfo.order (sortByKey NodeInfo.order nodes) with
      | some node => .error (.duplicateNodeId node.id)
      | none => .ok
        { nodes := sortByKey NodeInfo.order nodes
          ordered := pairwise_lt_of_firstRepeated (pairwise_sortByKey _ _) hid
          weights := weights_of_find hweight }

/-- The number of nodes with a positive weight. -/
def ClusterMap.activeNodeCount (map : ClusterMap) : Nat :=
  (map.nodes.filter (·.weight.isPositive)).length

/-! ### Configuration and constraints -/

def validateTotalShards (totalShards : Nat) : Except PlacementError Unit :=
  failIf (totalShards = 0 ∨ maxShards < totalShards) .invalidTotalShards

structure PlacementConfig where
  totalShards : Nat
  valid : 0 < totalShards ∧ totalShards ≤ maxShards

def PlacementConfig.new (totalShards : Nat) : Except PlacementError PlacementConfig :=
  if h : 0 < totalShards ∧ totalShards ≤ maxShards then .ok ⟨totalShards, h⟩
  else .error .invalidTotalShards

inductive Admission
  | global
  | constrained
  | excluded
deriving DecidableEq, Repr

/-- A constraint: the failure group of a node, and what a node may do when its group has a number of
candidates. -/
structure PlacementConstraint where
  groupKey : NodeInfo → UInt64
  admitFn : Nat → NodeInfo → Admission

/-- At most `max` shards share a value of the level; nodes without the level are not limited. -/
def PlacementConstraint.levelCap (level : Level) (max : Nat) : PlacementConstraint where
  groupKey node := ((node.location.level level).map (·.toUInt64)).getD u64Max
  admitFn sameGroupCount node :=
    if (node.location.level level).isNone then .global
    else if sameGroupCount < max then .global
    else .constrained

def PlacementConstraint.rackCap (max : Nat) : PlacementConstraint := .levelCap Level.rack max

def PlacementConstraint.none : PlacementConstraint where
  groupKey _ := 0
  admitFn _ _ := .global

/-! ### The placer -/

structure Placer where
  config : PlacementConfig
  /-- The nodes of the map with their group keys. -/
  nodes : List (NodeInfo × UInt64)
  admitFn : Nat → NodeInfo → Admission

def Placer.new (config : PlacementConfig) (map : ClusterMap) (constraint : PlacementConstraint) :
    Except PlacementError Placer := do
  validateTotalShards config.totalShards
  failIf (map.activeNodeCount < config.totalShards)
    (.tooFewNodes config.totalShards map.activeNodeCount)
  return { config
           nodes := map.nodes.map fun node => (node, constraint.groupKey node)
           admitFn := constraint.admitFn }

structure Candidate (S : Type) where
  score : S
  nodeId : NodeId
  groupKey : UInt64
deriving DecidableEq, Repr

/-- The number of candidates of a group. -/
def gcGet : List (UInt64 × Nat) → UInt64 → Nat
  | [], _ => 0
  | (key, count) :: rest, gk => if key = gk then count else gcGet rest gk

def gcInc : List (UInt64 × Nat) → UInt64 → List (UInt64 × Nat)
  | [], gk => [(gk, 1)]
  | (key, count) :: rest, gk =>
    if key = gk then (key, count + 1) :: rest else (key, count) :: gcInc rest gk

/-- A group leaves the list with its last candidate. -/
def gcDec : List (UInt64 × Nat) → UInt64 → List (UInt64 × Nat)
  | [], _ => []
  | (key, count) :: rest, gk =>
    if key = gk then
      if count ≤ 1 then rest else (key, count - 1) :: rest
    else (key, count) :: gcDec rest gk

section Scores

variable {S : Type} [LinearOrder S]

/-- The position of the candidate with the highest score, the first of several. -/
def findWorst : List (Candidate S) → Nat
  | [] => 0
  | first :: rest =>
    ((rest.zipIdx 1).foldl (fun worst (cand, i) =>
      if worst.2 < cand.score then (i, cand.score) else worst) (0, first.score)).1

/-- The same among the candidates of one group. -/
def findWorstInGroup (cands : List (Candidate S)) (gk : UInt64) : Option Nat :=
  (cands.zipIdx.foldl (fun (worst : Option Nat × WithBot S) (cand, i) =>
    if cand.groupKey = gk ∧ worst.2 < (cand.score : WithBot S) then (some i, cand.score)
    else worst) (none, ⊥)).1

/-- The candidates kept so far, in the order of the buffer, and the counts of their groups. -/
structure Buffer (S : Type) where
  cands : List (Candidate S)
  gc : List (UInt64 × Nat)
deriving DecidableEq, Repr

/-- **One node of the scan.** -/
def Placer.offer (placer : Placer) (score : NodeInfo → S) (buffer : Buffer S)
    (entry : NodeInfo × UInt64) : Buffer S :=
  let (node, gk) := entry
  if node.weight.isZero then buffer
  else
    let s := score node
    let cand : Candidate S := ⟨s, node.id, gk⟩
    match placer.admitFn (gcGet buffer.gc gk) node with
    | .excluded => buffer
    | .global =>
      if buffer.cands.length < placer.config.totalShards then
        ⟨buffer.cands ++ [cand], gcInc buffer.gc gk⟩
      else
        let wi := findWorst buffer.cands
        match buffer.cands[wi]? with
        | some worst =>
          if s < worst.score then
            ⟨buffer.cands.set wi cand, gcInc (gcDec buffer.gc worst.groupKey) gk⟩
          else buffer
        | none => buffer
    | .constrained =>
      match findWorstInGroup buffer.cands gk with
      | some wi =>
        match buffer.cands[wi]? with
        | some worst =>
          if s < worst.score then ⟨buffer.cands.set wi cand, buffer.gc⟩ else buffer
        | none => buffer
      | none => buffer

/-- Assign nodes to the shards of a key; `outLen` is the length of the caller's slice. -/
def Placer.place (placer : Placer) (score : List UInt8 → NodeId → Weight → S) (key : List UInt8)
    (outLen : Nat) : Except PlacementError (List NodeId) := do
  let total := placer.config.totalShards
  failIf (outLen ≠ total) (.outputLengthMismatch outLen total)
  let buffer := placer.nodes.foldl
    (placer.offer fun node => score key node.id node.weight) ⟨[], []⟩
  failIf (buffer.cands.length < total) (.constraintUnsatisfiable total buffer.cands.length)
  return (buffer.cands.take total).map (·.nodeId)

end Scores

end Argmin.Placement
