import Mathlib.Data.List.Basic

/-!
# Weighted load balancers

`WeightRoundRobinLoadBalancer` and `WeightedRandomLoadBalancer` of `common/async_strategy.hpp`, with
the 32-bit numbers of the source. A pointer to a node is its position in `m_nodes`, and the number
drawn by the random generator is an argument.
-/

namespace GalayKernel

variable {α : Type}

structure SmoothNode (α : Type) where
  node : α
  currentWeight : Int32
  fixedWeight : Int32

structure WeightRoundRobinLoadBalancer (α : Type) where
  nodes : List (SmoothNode α)
  totalWeight : Int32

namespace WeightRoundRobinLoadBalancer

def empty : WeightRoundRobinLoadBalancer α := ⟨[], 0⟩

def append (lb : WeightRoundRobinLoadBalancer α) (node : α) (weight : UInt32) :
    WeightRoundRobinLoadBalancer α :=
  ⟨lb.nodes ++ [⟨node, 0, weight.toInt32⟩], lb.totalWeight + weight.toInt32⟩

/-- The constructor. If there is not one weight for each node, every weight is 1. -/
def ofWeights (nodes : List α) (weights : List UInt32) : WeightRoundRobinLoadBalancer α :=
  if nodes.length ≠ weights.length then nodes.foldl (fun lb node => lb.append node 1) empty
  else (nodes.zip weights).foldl (fun lb p => lb.append p.1 p.2) empty

/-- The loop of `select` over the nodes that follow `done`; `selected` is the position of the best
node so far. -/
def scan : List (SmoothNode α) → List (SmoothNode α) → Option Nat →
    List (SmoothNode α) × Option Nat
  | done, [], selected => (done, selected)
  | done, n :: rest, selected =>
    let n' := { n with currentWeight := n.currentWeight + n.fixedWeight }
    let better := match selected.bind fun i => done[i]? with
      | none => true
      | some best => decide (n'.currentWeight > best.currentWeight)
    scan (done ++ [n']) rest (if better then some done.length else selected)

def selected (lb : WeightRoundRobinLoadBalancer α) : Option Nat := (scan [] lb.nodes none).2

def select (lb : WeightRoundRobinLoadBalancer α) : Option α × WeightRoundRobinLoadBalancer α :=
  if lb.nodes = [] then (none, lb)
  else
    let nodes := (scan [] lb.nodes none).1
    match lb.selected with
    | some i =>
      ((nodes[i]?).map (·.node),
        { lb with
          nodes := nodes.modify i fun n =>
            { n with currentWeight := n.currentWeight - lb.totalWeight } })
    | none => (none, { lb with nodes })

def afterSelects (lb : WeightRoundRobinLoadBalancer α) : Nat → WeightRoundRobinLoadBalancer α
  | 0 => lb
  | k + 1 => (lb.afterSelects k).select.2

end WeightRoundRobinLoadBalancer

structure WeightedNode (α : Type) where
  node : α
  weight : UInt32

structure WeightedRandomLoadBalancer (α : Type) where
  nodes : List (WeightedNode α)
  totalWeight : UInt32

namespace WeightedRandomLoadBalancer

def empty : WeightedRandomLoadBalancer α := ⟨[], 0⟩

def append (lb : WeightedRandomLoadBalancer α) (node : α) (weight : UInt32) :
    WeightedRandomLoadBalancer α :=
  ⟨lb.nodes ++ [⟨node, weight⟩], lb.totalWeight + weight⟩

def ofWeights (nodes : List α) (weights : List UInt32) : WeightedRandomLoadBalancer α :=
  if nodes.length ≠ weights.length then nodes.foldl (fun lb node => lb.append node 1) empty
  else (nodes.zip weights).foldl (fun lb p => lb.append p.1 p.2) empty

/-- The loop of `select`: the position of the node it returns, or `none` when it falls through. -/
def walk : List (WeightedNode α) → UInt32 → Option Nat
  | [], _ => none
  | n :: rest, randomWeight =>
    if randomWeight ≤ n.weight then some 0
    else (walk rest (randomWeight - n.weight)).map (· + 1)

def select (lb : WeightedRandomLoadBalancer α) (randomWeight : UInt32) : Option α :=
  if lb.nodes = [] ∨ lb.totalWeight = 0 then none
  else
    match walk lb.nodes randomWeight with
    | some i => (lb.nodes[i]?).map (·.node)
    | none => lb.nodes.getLast?.map (·.node)

end WeightedRandomLoadBalancer

end GalayKernel
