import DressOn.Lib.BreadthFirst
import DressOn.Lib.Guarded
import DressOn.Lib.Texts

/-!
# Any rig onto 15 joints

`adapt` of `skeleton15.gd`: which joint of a rig stands in each slot of the 15-joint layout. Names
win when every slot matches one; otherwise the bone graph decides, by its branch joints and the
chains that leave them.
-/

namespace DressOn.Host.Skeleton15

open DressOn.Texts DressOn.Guarded

/-- The joints of the layout. -/
def slotCount : Nat := 15

/-- A side of the body, none for the joints in the middle. -/
inductive Side where
  | middle
  | left
  | right
  deriving DecidableEq

/-- What a slot is, without its side. -/
inductive Part where
  | pelvis
  | chest
  | head
  | shoulder
  | elbow
  | wrist
  | hip
  | knee
  | ankle
  deriving DecidableEq

/-- `SLOTS`. The right wrist comes before the right elbow. -/
def slots : List (Side × Part) :=
  [(.middle, .pelvis), (.middle, .chest), (.middle, .head),
    (.left, .shoulder), (.left, .elbow), (.left, .wrist),
    (.right, .shoulder), (.right, .wrist), (.right, .elbow),
    (.left, .hip), (.left, .knee), (.left, .ankle),
    (.right, .hip), (.right, .knee), (.right, .ankle)]

/-- `BONES`. -/
def layoutBones : List Nat :=
  [0, 1, 1, 2, 1, 3, 3, 4, 4, 5, 1, 6, 6, 8, 7, 8, 0, 9, 9, 10, 10, 11, 0, 12, 12, 13, 13, 14]

/-- `ALIASES`: base names without a side, the most specific first. -/
def aliases (part : Part) : List Text :=
  (match part with
  | .pelvis => ["hips", "pelvis", "hip"]
  | .chest => ["upperchest", "chest", "spine2", "spine02", "spine1", "spine01"]
  | .head => ["head"]
  | .shoulder => ["upperarm", "arm", "uparm", "shoulder"]
  | .elbow => ["lowerarm", "forearm", "elbow"]
  | .wrist => ["hand", "wrist"]
  | .hip => ["upperleg", "upleg", "thigh", "hip"]
  | .knee => ["lowerleg", "leg", "calf", "shin", "knee"]
  | .ankle => ["foot", "ankle"]).map String.toList

/-! ## Names -/

section Names

/-- A text without its start, if it has it. -/
def withoutStart (start : String) (n : Text) : Text :=
  if beginsWith n start.toList then n.drop start.toList.length else n

/-- The text ends with another one. -/
def endsWith (n : Text) (ending : String) : Bool := ending.toList.isSuffixOf n

/-- The side by a single letter next to a separator, the first separator that has one. -/
def letterSide (n : Text) : Side × Text :=
  ([".", "_", "-", " "].findSome? fun sep =>
    if endsWith n (sep ++ "l") then some (Side.left, n.take (n.length - 2))
    else if endsWith n (sep ++ "r") then some (Side.right, n.take (n.length - 2))
    else if beginsWith n ("l" ++ sep).toList then some (Side.left, n.drop 2)
    else if beginsWith n ("r" ++ sep).toList then some (Side.right, n.drop 2)
    else none).getD (.middle, n)

/-- The side of a name and what is left of it. -/
def sideOf (n : Text) : Side × Text :=
  if beginsWith n "left".toList then (.left, n.drop 4)
  else if beginsWith n "right".toList then (.right, n.drop 5)
  else if endsWith n "left" then (.left, n.take (n.length - 4))
  else if endsWith n "right" then (.right, n.take (n.length - 5))
  else letterSide n

/-- `_split`: the side and the base of a name, with the lower case of a letter as a parameter. -/
def split (lower : Char → Char) (name : Text) : Side × Text :=
  let n := name.map lower
  -- what is behind the last colon
  let n := if ':' ∈ n then (n.reverse.takeWhile (· ≠ ':')).reverse else n
  let n := ["def-", "def_", "bip01", "bip", "j_bip_", "j_"].foldl
    (fun n start => withoutStart start n) n
  let (side, n) := sideOf n
  (side, n.filter fun c => ('a' ≤ c && c ≤ 'z') || ('0' ≤ c && c ≤ '9'))

/-- The joint for a slot: the first with the first alias that one has. -/
def found (parts : List (Side × Text)) (slot : Side × Part) : Option Nat :=
  (aliases slot.2).findSome? fun base => parts.findIdx? (· = (slot.1, base))

/-- `_by_names`: a joint for every slot, all different. -/
def byNames (parts : List (Side × Text)) : Option (List Nat) := do
  let map ← slots.mapM (found parts)
  if map.Nodup then some map else none

end Names

/-! ## Topology -/

section Topology

variable {α : Type}

/-- `Vector3`. -/
structure Vector3 (α : Type) where
  x : α
  y : α
  z : α

/-- Bones as pairs of joints. A last number without a partner is skipped. -/
def pairs : List Int → List (Int × Int)
  | a :: c :: rest => (a, c) :: pairs rest
  | _ => []

/-- A bone in the lists of its two joints. -/
def link (adj : List (List Nat)) (a c : Nat) : List (List Nat) :=
  (adj.modify a (· ++ [c])).modify c (· ++ [a])

/-- The bones go into the lists of neighbours. -/
def joinBone (n : Nat) (adj : List (List Nat)) (bone : Int × Int) :
    Attempt String (List (List Nat)) :=
  if bone.1 < 0 ∨ bone.2 < 0 ∨ (n : Int) ≤ bone.1 ∨ (n : Int) ≤ bone.2 then
    refuse ("bone " ++ toString bone.1 ++ "-" ++ toString bone.2 ++ " out of range")
  else .ok (link adj bone.1.toNat bone.2.toNat)

/-- `adj`. -/
def neighbours (n : Nat) (bones : List Int) : Attempt String (List (List Nat)) :=
  (pairs bones).foldlM (joinBone n) (List.replicate n [])

/-- `branch`: the joints of three bones or more. -/
def branches (n : Nat) (adj : List (List Nat)) : Attempt String (List Nat) :=
  (List.range n).foldlM (fun branch i => do
    let nbs ← read adj i
    return if 3 ≤ nbs.length then branch ++ [i] else branch) []

/-- The rest of `_chain` from a joint on, with the turns that are left. -/
def chainFrom (adj : List (List Nat)) : Nat → Nat → Nat → Attempt String (List Nat)
  | 0, _, cur => do
    let _ ← read adj cur
    return [cur]
  | fuel + 1, prev, cur => do
    match ← read adj cur with
    | [one, two] => return cur :: (← chainFrom adj fuel cur (if one ≠ prev then one else two))
    | _ => return [cur]

/-- `_chain`: along joints of two bones, up to a leaf or a branch joint. A cycle cannot spin
forever. -/
def chain (adj : List (List Nat)) (start first : Nat) : Attempt String (List Nat) :=
  chainFrom adj adj.length start first

/-- `_path`: the joints from one to another, none where they are not connected. -/
def path (adj : List (List Nat)) (a b : Nat) : Attempt String (List Nat) :=
  need (BreadthFirst.path (adj[·]?) (adj.length + 1) a b)

/-- A member counted from the end, as `[-k]` reads it. -/
def readBack (items : List Nat) (k : Nat) : Attempt String Nat :=
  if k ≤ items.length then read items (items.length - k) else .error .fault

/-- What the bone graph says of a body. -/
structure Body where
  pelvis : Nat
  chest : Nat
  head : List Nat
  leftArm : List Nat
  rightArm : List Nat
  leftLeg : List Nat
  rightLeg : List Nat

/-- The slots of a body: the last three joints of an arm (a clavicle is skipped) and the first three
of a leg (toes are skipped). -/
def Body.slots (body : Body) : Attempt String (List Nat) := do
  let head ← readBack body.head 1
  let l3 ← readBack body.leftArm 3
  let l2 ← readBack body.leftArm 2
  let l1 ← readBack body.leftArm 1
  let r3 ← readBack body.rightArm 3
  let r2 ← readBack body.rightArm 2
  let r1 ← readBack body.rightArm 1
  let leftHip ← read body.leftLeg 0
  let leftKnee ← read body.leftLeg 1
  let leftAnkle ← read body.leftLeg 2
  let rightHip ← read body.rightLeg 0
  let rightKnee ← read body.rightLeg 1
  let rightAnkle ← read body.rightLeg 2
  return [body.pelvis, body.chest, head, l3, l2, l1, r3, r1, r2, leftHip, leftKnee, leftAnkle,
    rightHip, rightKnee, rightAnkle]

variable [LT α] [DecidableLT α] [Zero α] [Add α] [Div α] [NatCast α]

/-- The lowest and the highest branch joint, the first of equals. -/
def extremes (pos : List (Vector3 α)) (branch : List Nat) (first : Nat) :
    Attempt String (Nat × Nat) :=
  branch.foldlM (fun (pelvis, chest) i => do
    let here ← read pos i
    let low ← read pos pelvis
    let high ← read pos chest
    return (if here.y < low.y then i else pelvis, if high.y < here.y then i else chest))
    (first, first)

/-- `_mean_x`. -/
def meanX (pos : List (Vector3 α)) (joints : List Nat) : Attempt String α := do
  let sum ← joints.foldlM (fun s i => do return s + (← read pos i).x) 0
  return sum / (joints.length : α)

/-- The chains that leave a joint, but for one neighbour. -/
def leaving (adj : List (List Nat)) (joint toward : Nat) : Attempt String (List (List Nat)) := do
  let nbs ← read adj joint
  (nbs.filter (· ≠ toward)).mapM (chain adj joint)

/-- `pos[up[k][-1]]`: the end of a chain. -/
def tip (pos : List (Vector3 α)) (up : List (List Nat)) (k : Nat) : Attempt String (Vector3 α) := do
  read pos (← readBack (← read up k) 1)

/-- `hi`: the chain of three whose end is highest, the first of equals. -/
def highest (pos : List (Vector3 α)) (up : List (List Nat)) : Attempt String Nat :=
  [0, 1, 2].foldlM (fun hi k => do
    let here ← tip pos up k
    let top ← tip pos up hi
    return if top.y < here.y then k else hi) 0

/-- Two chains, the one with more x first: +x is left. -/
def leftFirst (pos : List (Vector3 α)) (one two : List Nat) :
    Attempt String (List Nat × List Nat) := do
  return if (← meanX pos one) < (← meanX pos two) then (two, one) else (one, two)

/-- `_by_topology` as far as the chains of the body. -/
def anatomy (pos : List (Vector3 α)) (bones : List Int) : Attempt String Body := do
  let n := pos.length
  refuseIf (n < slotCount)
    ("rig has " ++ toString n ++ " joints; the 15-joint layout needs at least 15")
  let adj ← neighbours n bones
  let branch ← branches n adj
  refuseIf (branch = []) "no branch joint (a chain is not a body)"
  let first ← read branch 0
  let (pelvis, chest) ← extremes pos branch first
  refuseIf (pelvis = chest) "one branch joint only; cannot tell the pelvis from the chest"
  let spine ← path adj pelvis chest
  refuseIf (spine = []) "pelvis and chest are not connected"
  let towardChest ← read spine 1
  let towardPelvis ← readBack spine 2
  let up ← leaving adj chest towardPelvis
  let down ← leaving adj pelvis towardChest
  refuseIf (up.length ≠ 3) ("the chest has " ++ toString up.length ++
    " chains besides the spine; want head + two arms")
  refuseIf (down.length ≠ 2) ("the pelvis has " ++ toString down.length ++
    " chains besides the spine; want two legs")
  let hi ← highest pos up
  let head ← read up hi
  let arms := up.eraseIdx hi
  let (leftArm, rightArm) ← leftFirst pos (← read arms 0) (← read arms 1)
  let (leftLeg, rightLeg) ← leftFirst pos (← read down 0) (← read down 1)
  [leftArm, rightArm, leftLeg, rightLeg].forM fun limb => refuseIf (limb.length < 3)
    ("a limb chain has " ++ toString limb.length ++ " joints; want 3 or more")
  return ⟨pelvis, chest, head, leftArm, rightArm, leftLeg, rightLeg⟩

/-- `_by_topology`. -/
def byTopology (pos : List (Vector3 α)) (bones : List Int) : Attempt String (List Nat) := do
  (← anatomy pos bones).slots

/-- What a map was made by. -/
inductive Method where
  | names
  | topology
  deriving DecidableEq

/-- A rig. There are no names where it has none. -/
structure Rig (α : Type) where
  positions : List (Vector3 α)
  bones : List Int
  names : List Text

/-- The answer without an error. -/
structure Answer (α : Type) where
  joints : List α
  bones : List Nat
  map : List Nat
  method : Method

/-- The slots by the names, where there is one for each joint. -/
def Rig.named (lower : Char → Char) (rig : Rig α) : Option (List Nat) :=
  if rig.names.length = rig.positions.length ∧ rig.names ≠ [] then
    byNames (rig.names.map (split lower))
  else none

/-- `map` and `method`: the names win when every slot matches one. -/
def Rig.mapped (lower : Char → Char) (rig : Rig α) : Attempt String (List Nat × Method) :=
  match rig.named lower with
  | some map => .ok (map, .names)
  | none => (byTopology rig.positions rig.bones).map (·, .topology)

/-- `adapt`. -/
def adapt (lower : Char → Char) (rig : Rig α) : Attempt String (Answer α) := do
  let (map, method) ← rig.mapped lower
  let joints ← map.mapM (read rig.positions)
  return ⟨joints.flatMap fun p => [p.x, p.y, p.z], layoutBones, map, method⟩

end Topology

end DressOn.Host.Skeleton15
