import Mathlib.Data.List.Basic

/-!
# Mesh topology

The vertex to constraint adjacency each gather kernel walks and the greedy
vertex colouring that turns a Jacobi sweep into Gauss-Seidel colour passes, as
`avbd_topology.cpp` builds them for both solvers, and the two Lean builders of
`lean/Cloth/Avbd` they were ported from. A loop of the source is a loop here;
long functions are cut at their passes.
-/

namespace DressOn.Avbd

/-- Running totals of the counts: the offsets loop all builders share. -/
def offsetsPass (n : Nat) (counts : Array Nat) : Array Nat := Id.run do
  let mut offsets : Array Nat := Array.replicate (n + 1) 0
  for v in [0:n] do
    offsets := offsets.set! (v + 1) (offsets[v]! + counts[v]!)
  return offsets

/-- The output of `build_csr`. -/
structure Csr where
  offsets : Array Nat
  idxArr : Array Nat
  roleArr : Array Nat
deriving DecidableEq, Repr

/-- The entries of vertex `v`: constraint and role, as a gather kernel reads them. -/
def Csr.row (csr : Csr) (v : Nat) : List (Nat × Nat) :=
  (List.range' csr.offsets[v]! (csr.offsets[v + 1]! - csr.offsets[v]!)).map fun k =>
    (csr.idxArr[k]!, csr.roleArr[k]!)

/-- `build_csr`'s first pass: incidences per vertex. -/
def csrCounts (nV nCon K : Nat) (conIdx : Array Nat) : Array Nat := Id.run do
  let mut counts : Array Nat := Array.replicate nV 0
  for c in [0:nCon] do
    for r in [0:K] do
      counts := counts.modify conIdx[K * c + r]! (· + 1)
  return counts

/-- `build_csr`'s second pass: every incidence goes to its vertex's cursor. -/
def csrScatter (nV nCon K : Nat) (conIdx offsets : Array Nat) : Array Nat × Array Nat := Id.run do
  let total := offsets[nV]!
  let mut idxArr : Array Nat := Array.replicate total 0
  let mut roleArr : Array Nat := Array.replicate total 0
  let mut cursor : Array Nat := Array.replicate nV 0
  for c in [0:nCon] do
    for r in [0:K] do
      let v := conIdx[K * c + r]!
      let p := offsets[v]! + cursor[v]!
      idxArr := idxArr.set! p c
      roleArr := roleArr.set! p r
      cursor := cursor.modify v (· + 1)
  return (idxArr, roleArr)

/-- `build_csr`: `K` entries per constraint, role `r` in `0..K-1`. -/
def buildCsr (nV nCon K : Nat) (conIdx : Array Nat) : Csr :=
  let offsets := offsetsPass nV (csrCounts nV nCon K conIdx)
  let entries := csrScatter nV nCon K conIdx offsets
  ⟨offsets, entries.1, entries.2⟩

/-- The index buffers of the three families that colour vertices. -/
structure Stencils where
  nSprings : Nat
  p1 : Array Nat
  p2 : Array Nat
  nTri : Nat
  triIdx : Array Nat
  nBend : Nat
  bendIdx : Array Nat

namespace Stencils

/-- The vertices of spring `c`. -/
def spring (s : Stencils) (c : Nat) : List Nat := [s.p1[c]!, s.p2[c]!]

/-- The vertices of triangle `c`. -/
def triangle (s : Stencils) (c : Nat) : List Nat :=
  [s.triIdx[3 * c]!, s.triIdx[3 * c + 1]!, s.triIdx[3 * c + 2]!]

/-- The vertices of bending stencil `c`. -/
def bending (s : Stencils) (c : Nat) : List Nat :=
  [s.bendIdx[4 * c]!, s.bendIdx[4 * c + 1]!, s.bendIdx[4 * c + 2]!, s.bendIdx[4 * c + 3]!]

/-- All incidence lists, springs first. -/
def constraints (s : Stencils) : List (List Nat) :=
  (List.range s.nSprings).map s.spring ++ (List.range s.nTri).map s.triangle ++
    (List.range s.nBend).map s.bending

/-- Every constraint names vertices of the mesh. -/
def InRange (s : Stencils) (nV : Nat) : Prop := ∀ inc ∈ s.constraints, ∀ v ∈ inc, v < nV

instance (s : Stencils) (nV : Nat) : Decidable (s.InRange nV) :=
  inferInstanceAs (Decidable (∀ inc ∈ s.constraints, ∀ v ∈ inc, v < nV))

end Stencils

/-- The `edge` closure of `greedy_coloring`. -/
def edge (adj : Array (Array Nat)) (a b : Nat) : Array (Array Nat) :=
  if a = b then adj else (adj.modify a (·.push b)).modify b (·.push a)

/-- The adjacency `greedy_coloring` collects from the three families. -/
def adjacencyPass (nV : Nat) (s : Stencils) : Array (Array Nat) := Id.run do
  let mut adj : Array (Array Nat) := Array.replicate nV #[]
  for c in [0:s.nSprings] do
    adj := edge adj s.p1[c]! s.p2[c]!
  for c in [0:s.nTri] do
    let i0 := s.triIdx[3 * c]!
    let i1 := s.triIdx[3 * c + 1]!
    let i2 := s.triIdx[3 * c + 2]!
    adj := edge adj i0 i1
    adj := edge adj i0 i2
    adj := edge adj i1 i2
  for c in [0:s.nBend] do
    let i0 := s.bendIdx[4 * c]!
    let i1 := s.bendIdx[4 * c + 1]!
    let i2 := s.bendIdx[4 * c + 2]!
    let i3 := s.bendIdx[4 * c + 3]!
    adj := edge adj i0 i1
    adj := edge adj i0 i2
    adj := edge adj i0 i3
    adj := edge adj i1 i2
    adj := edge adj i1 i3
    adj := edge adj i2 i3
  return adj

/-- The `while` loop: the first index from `c` on that is not used. -/
def firstFree (used : Array Bool) (c : Nat) : Nat :=
  if h : c < used.size then
    if used[c] then firstFree used (c + 1) else c
  else c
termination_by used.size - c

/-- The colours the neighbours of one vertex already have. -/
def usedPass (color : Array Int) (neighbours : Array Nat) : Array Bool := Id.run do
  let mut used : Array Bool := Array.replicate (neighbours.size + 1) false
  for n in neighbours do
    let cn := color[n]!
    if 0 ≤ cn ∧ cn.toNat < used.size then
      used := used.set! cn.toNat true
  return used

/-- First-fit colours in vertex order. -/
def colorPass (nV : Nat) (adj : Array (Array Nat)) : Array Int := Id.run do
  let mut color : Array Int := Array.replicate nV (-1)
  for v in [0:nV] do
    color := color.set! v (firstFree (usedPass color adj[v]!) 0 : Nat)
  return color

/-- The number of colours, at least one. -/
def colorCount (color : Array Int) : Nat := Id.run do
  let mut nc := 0
  for c in color do
    if (c + 1).toNat > nc then
      nc := (c + 1).toNat
  if nc = 0 then
    nc := 1
  return nc

/-- Vertices per colour. -/
def colorCounts (nc : Nat) (color : Array Int) : Array Nat := Id.run do
  let mut counts : Array Nat := Array.replicate nc 0
  for c in color do
    counts := counts.modify c.toNat (· + 1)
  return counts

/-- Every vertex goes to its colour's cursor. -/
def permPass (nV nc : Nat) (color : Array Int) (offsets : Array Nat) : Array Nat := Id.run do
  let mut cursor : Array Nat := Array.replicate nc 0
  let mut vertPerm : Array Nat := Array.replicate nV 0
  for v in [0:nV] do
    let c := color[v]!.toNat
    vertPerm := vertPerm.set! (offsets[c]! + cursor[c]!) v
    cursor := cursor.modify c (· + 1)
  return vertPerm

/-- The output of `greedy_coloring`: `vertPerm` lists vertices colour by colour
and `colorOffsets` bounds each colour's range in it. -/
structure Coloring where
  vertPerm : Array Nat
  colorOffsets : Array Nat
deriving DecidableEq, Repr

/-- `greedy_coloring`. -/
def greedyColoring (nV : Nat) (s : Stencils) : Coloring :=
  let color := colorPass nV (adjacencyPass nV s)
  let nc := colorCount color
  let offsets := offsetsPass nc (colorCounts nc color)
  ⟨permPass nV nc color offsets, offsets⟩

end DressOn.Avbd

namespace DressOn.Cloth.AdjacencyKwise

open Avbd (offsetsPass)

/-- The Lean builder's adjacency, `CsrAdj`. -/
structure CsrAdj where
  offsets : Array Nat
  cIdx : Array Nat
  role : Array Nat
deriving DecidableEq, Repr

/-- `CsrAdj.build`, pass 1. -/
def CsrAdj.counts (nVerts : Nat) (constraints : List (List Nat)) : Array Nat := Id.run do
  let mut counts : Array Nat := Array.replicate nVerts 0
  for inc in constraints do
    for v in inc do
      counts := counts.modify v (· + 1)
  return counts

/-- `CsrAdj.build`, pass 2. -/
def CsrAdj.scatter (nVerts : Nat) (constraints : List (List Nat)) (offsets : Array Nat) :
    Array Nat × Array Nat := Id.run do
  let total := offsets[nVerts]!
  let mut cIdx : Array Nat := Array.replicate total 0
  let mut role : Array Nat := Array.replicate total 0
  let mut cursor : Array Nat := Array.replicate nVerts 0
  let mut c := 0
  for inc in constraints do
    let mut r := 0
    for v in inc do
      let p := offsets[v]! + cursor[v]!
      cIdx := cIdx.set! p c
      role := role.set! p r
      cursor := cursor.modify v (· + 1)
      r := r + 1
    c := c + 1
  return (cIdx, role)

/-- `CsrAdj.build`. -/
def CsrAdj.build (nVerts : Nat) (constraints : List (List Nat)) : CsrAdj :=
  let offsets := offsetsPass nVerts (CsrAdj.counts nVerts constraints)
  let entries := CsrAdj.scatter nVerts constraints offsets
  ⟨offsets, entries.1, entries.2⟩

end DressOn.Cloth.AdjacencyKwise

namespace DressOn.Cloth.Coloring

open Avbd (offsetsPass)

/-- Output of `assignColors`. -/
structure ColorAssignment where
  vertColor : Array Nat
  colorOffsets : Array Nat
  vertPerm : Array Nat
  numColors : Nat
deriving DecidableEq, Repr

/-- All ordered pairs of distinct positions of one incidence list. -/
def addPairs (adj : Array (Array Nat)) (inc : List Nat) : Array (Array Nat) := Id.run do
  let mut adj := adj
  let arr := inc.toArray
  for i in [0:arr.size] do
    for j in [0:arr.size] do
      if i != j then
        let u := arr[i]!
        let v := arr[j]!
        adj := adj.modify u (·.push v)
  return adj

/-- `buildAdj`. -/
def buildAdj (nVerts : Nat) (constraints : List (List Nat)) : Array (Array Nat) := Id.run do
  let mut adj : Array (Array Nat) := Array.replicate nVerts #[]
  for inc in constraints do
    adj := addPairs adj inc
  return adj

/-- Colours already used by coloured neighbours of `v`. -/
def markUsed (nVerts v : Nat) (color neighbours : Array Nat) : Array Bool := Id.run do
  let mut used : Array Bool := Array.replicate (nVerts + 1) false
  for nb in neighbours do
    if nb < v then
      used := used.set! color[nb]! true
  return used

/-- Smallest unused colour. -/
def smallestUnused (nVerts : Nat) (used : Array Bool) : Nat := Id.run do
  let mut k : Nat := 0
  let mut found : Bool := false
  for cand in [0:nVerts + 1] do
    if !found && !used[cand]! then
      k := cand
      found := true
  return k

/-- The colouring loop: colours and how many there are. -/
def colorLoop (nVerts : Nat) (adj : Array (Array Nat)) : Array Nat × Nat := Id.run do
  let mut color : Array Nat := Array.replicate nVerts 0
  let mut numColors : Nat := 0
  for v in [0:nVerts] do
    let k := smallestUnused nVerts (markUsed nVerts v color adj[v]!)
    color := color.set! v k
    if k + 1 > numColors then numColors := k + 1
  return (color, numColors)

/-- Vertices per colour. -/
def countLoop (nVerts numColors : Nat) (color : Array Nat) : Array Nat := Id.run do
  let mut counts : Array Nat := Array.replicate numColors 0
  for v in [0:nVerts] do
    counts := counts.modify color[v]! (· + 1)
  return counts

/-- The scatter into the permutation. -/
def permLoop (nVerts numColors : Nat) (color offsets : Array Nat) : Array Nat := Id.run do
  let mut perm : Array Nat := Array.replicate nVerts 0
  let mut cursor : Array Nat := Array.replicate numColors 0
  for v in [0:nVerts] do
    let c := color[v]!
    let p := offsets[c]! + cursor[c]!
    perm := perm.set! p v
    cursor := cursor.modify c (· + 1)
  return perm

/-- `assignColors`. -/
def assignColors (nVerts : Nat) (constraints : List (List Nat)) : ColorAssignment :=
  let (color, numColors) := colorLoop nVerts (buildAdj nVerts constraints)
  let offsets := offsetsPass numColors (countLoop nVerts numColors color)
  ⟨color, offsets, permLoop nVerts numColors color offsets, numColors⟩

end DressOn.Cloth.Coloring
