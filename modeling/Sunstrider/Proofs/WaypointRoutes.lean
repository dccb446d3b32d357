import Sunstrider.Movement.WaypointMovementGenerator

/-!
# The route of a generator

What is to be visited follows from where the nodes are in the direction of travel: the first
of it, the second, and so on to the last. A path that is done once ends there, a loop begins
again, and a round trip goes the other way along the same nodes, with the end for its first.

The generator keeps to this from its first node on. Only, in reverse it gets the first node
by asking for the one behind node zero, which is the end of the path: a path that is done
once has none there and stays at zero, and a round trip turns.
-/

namespace Sunstrider.Movement

/-- The index of a node by its place in the direction of travel. -/
def nodeAt (n : Nat) : WaypointPathDirection → Nat → Nat
  | .reverse, i => n - 1 - i
  | _, i => i

/-- What is to be visited, as many places on. -/
def route (type : WaypointPathType) (direction : WaypointPathDirection) (n k : Nat) : Option Nat :=
  match type with
  | .once => if k < n then some (nodeAt n direction k) else none
  | .roundTrip =>
      if n = 1 then some 0
      else
        some (nodeAt n (WaypointPathDirection.turn^[k / (n - 1)] direction) (k % (n - 1)))
  | _ => some (nodeAt n direction (k % n))

/-- Either of the two directions along the path. -/
def WaypointPathDirection.Along (direction : WaypointPathDirection) : Prop :=
  direction = .normal ∨ direction = .reverse

variable {direction : WaypointPathDirection} {n i j k node : Nat}

/-! ## Places -/

theorem WaypointPathDirection.along_turn : direction.turn.Along := by
  unfold turn
  split
  · exact .inr rfl
  · exact .inl rfl

theorem WaypointPathDirection.Along.turn_turn (h : direction.Along) :
    direction.turn.turn = direction := by
  rcases h with rfl | rfl
  · rfl
  · rfl

theorem WaypointPathDirection.Along.iterate (h : direction.Along) :
    (WaypointPathDirection.turn^[j] direction).Along := by
  cases j with
  | zero => exact h
  | succ j =>
      rw [Function.iterate_succ_apply']
      exact along_turn

theorem nodeAt_lt (h : i < n) : nodeAt n direction i < n := by
  cases direction <;> simp only [nodeAt] <;> omega

/-- The last place of one direction is the first of the other. -/
theorem nodeAt_last (hdir : direction.Along) :
    nodeAt n direction (n - 1) = nodeAt n direction.turn 0 := by
  rcases hdir with rfl | rfl
  · rfl
  · exact Nat.sub_self _

/-- Every node has a place. -/
theorem exists_nodeAt (hdir : direction.Along) (h : node < n) :
    ∃ i < n, nodeAt n direction i = node := by
  rcases hdir with rfl | rfl
  · exact ⟨node, h, rfl⟩
  · refine ⟨n - 1 - node, by omega, ?_⟩
    show n - 1 - (n - 1 - node) = node
    omega

/-! ## What the route says -/

/-- A path that is done once has each node at one moment. -/
theorem route_once (hdir : direction.Along) (h : node < n) :
    ∃ i, ∀ k, route .once direction n k = some node ↔ k = i := by
  obtain ⟨i, hi, hnode⟩ := exists_nodeAt hdir h
  refine ⟨i, fun k => ?_⟩
  rw [route]
  split
  · rename_i hk
    rw [Option.some.injEq, ← hnode]
    rcases hdir with rfl | rfl
    · exact Iff.rfl
    · simp only [nodeAt]
      omega
  · simp only [reduceCtorEq, false_iff]
    omega

/-- Each round of a loop has every node. -/
theorem route_loop (hdir : direction.Along) (h : node < n) (j : Nat) :
    ∃ k, j * n ≤ k ∧ k < (j + 1) * n ∧ route .loop direction n k = some node := by
  obtain ⟨i, hi, hnode⟩ := exists_nodeAt hdir h
  refine ⟨j * n + i, Nat.le_add_right _ _, ?_, ?_⟩
  · rw [Nat.succ_mul]
    exact Nat.add_lt_add_left hi _
  · rw [route, Nat.mul_comm, Nat.mul_add_mod, Nat.mod_eq_of_lt hi, hnode]
    all_goals exact fun h => by cases h

/-- So has each way of a round trip, from one end to the other. -/
theorem route_roundTrip (hdir : direction.Along) (h : node < n) (j : Nat) :
    ∃ k, j * (n - 1) ≤ k ∧ k ≤ (j + 1) * (n - 1) ∧ route .roundTrip direction n k = some node := by
  by_cases hone : n = 1
  · refine ⟨j * (n - 1), Nat.le_refl _, Nat.mul_le_mul_right _ (Nat.le_succ j), ?_⟩
    rw [route, if_pos hone]
    congr 1
    omega
  · obtain ⟨i, hi, hnode⟩ := exists_nodeAt (hdir.iterate (j := j)) h
    have hpos : 0 < n - 1 := by omega
    refine ⟨j * (n - 1) + i, Nat.le_add_right _ _, ?_, ?_⟩
    · rw [Nat.succ_mul]
      omega
    · rw [route, if_neg hone, Nat.mul_comm, Nat.mul_add_mod, Nat.mul_add_div hpos]
      rcases Nat.lt_or_ge i (n - 1) with hlt | hge
      · rw [Nat.div_eq_of_lt hlt, Nat.mod_eq_of_lt hlt, Nat.add_zero, hnode]
      · have hi' : i = n - 1 := by omega
        rw [hi', Nat.div_self hpos, Nat.mod_self, Function.iterate_succ_apply',
          ← nodeAt_last hdir.iterate, ← hi', hnode]

namespace WaypointMovementGenerator

variable {random : Nat → Nat} {g v : WaypointMovementGenerator}
  {allowReverseDirection splineFinalized : Bool}

/-! ## The next node -/

theorem isLastMemoryNode_nodeAt (hdir : g.direction.Along) (hi : i < g.size) :
    g.isLastMemoryNode (nodeAt g.size g.direction i) = decide (i = g.size - 1) := by
  unfold isLastMemoryNode
  rcases hdir with hdir | hdir
  · rw [hdir]
    rfl
  · rw [hdir]
    show decide (g.size - 1 - i = 0) = _
    rw [decide_eq_decide]
    omega

theorem nextNode_nodeAt (random : Nat → Nat) (hdir : g.direction.Along) (hi : i < g.size) :
    g.nextNode random (nodeAt g.size g.direction i) =
      some (nodeAt g.size g.direction ((i + 1) % g.size)) := by
  unfold nextNode
  rcases hdir with hdir | hdir
  · rw [hdir]
    rfl
  · rw [hdir]
    show some (if g.size - 1 - i = 0 then g.size - 1 else g.size - 1 - i - 1) =
      some (g.size - 1 - (i + 1) % g.size)
    rcases Nat.lt_or_ge (i + 1) g.size with hlt | hge
    · rw [Nat.mod_eq_of_lt hlt, if_neg (by omega), Nat.sub_sub]
    · have hi' : i + 1 = g.size := by omega
      rw [hi', Nat.mod_self, if_pos (by omega), Nat.sub_zero]

/-- Unless the path ends here, there is a node behind this one. -/
theorem getNextMemoryNode_go {node : Nat} (hpos : 0 < g.size)
    (hgo : ¬ (g.isLastMemoryNode node = true ∧ g.pathType = .once)) :
    g.getNextMemoryNode random node allowReverseDirection =
      (g.reverseDirection node allowReverseDirection,
        (g.reverseDirection node allowReverseDirection).nextNode random node) := by
  rw [getNextMemoryNode, if_neg (Nat.ne_of_gt hpos), if_neg hgo]

theorem getNextMemoryNode_inside (random : Nat → Nat) (allowReverseDirection : Bool)
    (hdir : g.direction.Along) (hi : i + 1 < g.size) :
    g.getNextMemoryNode random (nodeAt g.size g.direction i) allowReverseDirection =
      (g, some (nodeAt g.size g.direction (i + 1))) := by
  have hlast : ¬ g.isLastMemoryNode (nodeAt g.size g.direction i) = true := by
    rw [isLastMemoryNode_nodeAt hdir (by omega), decide_eq_true_iff]
    omega
  rw [getNextMemoryNode_go (by omega) fun h => hlast h.1, reverseDirection,
    if_neg fun h => hlast h.1, nextNode_nodeAt random hdir (by omega), Nat.mod_eq_of_lt hi]

theorem isLastMemoryNode_last (hdir : g.direction.Along) (hpos : 0 < g.size) :
    g.isLastMemoryNode (nodeAt g.size g.direction (g.size - 1)) = true := by
  rw [isLastMemoryNode_nodeAt hdir (Nat.sub_lt hpos Nat.one_pos)]
  exact decide_eq_true rfl

theorem getNextMemoryNode_once (random : Nat → Nat) (allowReverseDirection : Bool)
    (hdir : g.direction.Along) (hpos : 0 < g.size)
    (htype : g.pathType = .once) :
    g.getNextMemoryNode random (nodeAt g.size g.direction (g.size - 1)) allowReverseDirection =
      (g, none) := by
  rw [getNextMemoryNode, if_neg (Nat.ne_of_gt hpos),
    if_pos ⟨isLastMemoryNode_last hdir hpos, htype⟩]

/-- Behind the last node comes the first, if the direction is not changed. -/
theorem getNextMemoryNode_wrap (random : Nat → Nat) (allowReverseDirection : Bool)
    (hdir : g.direction.Along) (hpos : 0 < g.size)
    (htype : g.pathType ≠ .once)
    (hkeep : ¬ (allowReverseDirection = true ∧ g.pathType = .roundTrip)) :
    g.getNextMemoryNode random (nodeAt g.size g.direction (g.size - 1)) allowReverseDirection =
      (g, some (nodeAt g.size g.direction 0)) := by
  rw [getNextMemoryNode_go hpos fun h => htype h.2, reverseDirection, if_neg fun h => hkeep h.2,
    nextNode_nodeAt random hdir (Nat.sub_lt hpos Nat.one_pos),
    Nat.sub_add_cancel hpos, Nat.mod_self]

theorem getNextMemoryNode_turn (random : Nat → Nat) (hdir : g.direction.Along) (hpos : 0 < g.size)
    (htype : g.pathType = .roundTrip) :
    g.getNextMemoryNode random (nodeAt g.size g.direction (g.size - 1)) true =
      ({ g with direction := g.direction.turn },
        some (nodeAt g.size g.direction.turn (1 % g.size))) := by
  have honce : ¬ g.pathType = .once := by
    rw [htype]
    exact fun h => by cases h
  rw [getNextMemoryNode_go hpos fun h => honce h.2, reverseDirection,
    if_pos ⟨isLastMemoryNode_last hdir hpos, rfl, htype⟩, nodeAt_last hdir]
  have hnext := nextNode_nodeAt random (g := { g with direction := g.direction.turn }) (i := 0)
    WaypointPathDirection.along_turn hpos
  exact congrArg (Prod.mk _) hnext

/-! ## Arrivals -/

/-- The generator on its way to a place of a direction. -/
def place (v : WaypointMovementGenerator) (direction : WaypointPathDirection) (i : Nat) :
    WaypointMovementGenerator :=
  { v with direction := direction, currentNode := nodeAt v.size direction i }

theorem onArrived_next {g' : WaypointMovementGenerator} {next : Option Nat} (hi : i < v.size)
    (h : (v.place direction i).getNextMemoryNode random (nodeAt v.size direction i) true =
      (g', next)) :
    (v.place direction i).onArrived random true splineFinalized =
      next.elim (if splineFinalized then { g' with finalized := true } else g') fun node =>
        { g' with currentNode := node } := by
  have hin : ¬ (v.place direction i).size ≤ (v.place direction i).currentNode :=
    Nat.not_le.2 (nodeAt_lt hi)
  have hnext : (v.place direction i).getNextMemoryNode random (v.place direction i).currentNode
      true = (g', next) := h
  rw [onArrived, if_neg hin, hnext]
  cases next <;> rfl

theorem onArrived_inside (hdir : direction.Along) (hi : i + 1 < v.size) :
    (v.place direction i).onArrived random true splineFinalized = v.place direction (i + 1) := by
  have hnext := getNextMemoryNode_inside random true (g := v.place direction i)
    hdir hi
  exact onArrived_next (Nat.lt_of_succ_lt hi) hnext

theorem onArrived_once (hdir : direction.Along) (hpos : 0 < v.size) (htype : v.pathType = .once) :
    (v.place direction (v.size - 1)).onArrived random true true =
      { v.place direction (v.size - 1) with finalized := true } := by
  have hnext := getNextMemoryNode_once random true (g := v.place direction (v.size - 1))
    hdir hpos htype
  exact onArrived_next (Nat.sub_lt hpos Nat.one_pos) hnext

theorem onArrived_loop (hdir : direction.Along) (hpos : 0 < v.size) (htype : v.pathType = .loop) :
    (v.place direction (v.size - 1)).onArrived random true splineFinalized =
      v.place direction 0 := by
  have honce : v.pathType ≠ .once := by
    rw [htype]
    exact fun h => by cases h
  have hkeep : ¬ (true = true ∧ v.pathType = .roundTrip) := by
    rw [htype]
    exact fun h => by cases h.2
  have hnext := getNextMemoryNode_wrap random true (g := v.place direction (v.size - 1))
    hdir hpos honce hkeep
  exact onArrived_next (Nat.sub_lt hpos Nat.one_pos) hnext

/-- At the end of one way the other begins. -/
theorem onArrived_roundTrip (hdir : direction.Along) (hpos : 0 < v.size)
    (htype : v.pathType = .roundTrip) :
    (v.place direction (v.size - 1)).onArrived random true splineFinalized =
      v.place direction.turn (1 % v.size) := by
  have hnext := getNextMemoryNode_turn random (g := v.place direction (v.size - 1))
    hdir hpos htype
  exact onArrived_next (Nat.sub_lt hpos Nat.one_pos) hnext

/-! ## Runs -/

theorem arrivals_succ (k : Nat) :
    g.arrivals random (k + 1) = (g.arrivals random k).onArrived random true true :=
  Function.iterate_succ_apply' _ _ _

theorem arrivals_add (j k : Nat) :
    g.arrivals random (j + k) = (g.arrivals random j).arrivals random k := by
  rw [arrivals, Nat.add_comm]
  exact Function.iterate_add_apply _ _ _ _

theorem visited_of_place (hnew : v.finalized = false)
    (h : g.arrivals random k = v.place direction i) :
    g.visited random k = some (nodeAt v.size direction i) := by
  rw [visited, h]
  exact if_neg (by rw [place, hnew]; exact Bool.false_ne_true)

theorem finalized_getNextMemoryNode (node : Nat) :
    (g.getNextMemoryNode random node allowReverseDirection).1.finalized = g.finalized := by
  have hreverse : (g.reverseDirection node allowReverseDirection).finalized = g.finalized := by
    rw [reverseDirection]
    split <;> rfl
  rw [getNextMemoryNode]
  split
  · rfl
  · split
    · rfl
    · exact hreverse

theorem finalized_onArrived {ownSpline : Bool} (h : g.finalized = true) :
    (g.onArrived random ownSpline splineFinalized).finalized = true := by
  have hkeeps : (g.getNextMemoryNode random g.currentNode true).1.finalized = true :=
    (finalized_getNextMemoryNode _).trans h
  rw [onArrived]
  split
  · exact h
  · split
    · exact h
    · split
      · rename_i hnext
        rw [hnext] at hkeeps
        exact hkeeps
      · rename_i hnext
        rw [hnext] at hkeeps
        split
        · rfl
        · exact hkeeps

theorem arrivals_loop (hdir : direction.Along) (hpos : 0 < v.size) (htype : v.pathType = .loop)
    (k : Nat) : (v.place direction 0).arrivals random k = v.place direction (k % v.size) := by
  induction k with
  | zero => rw [Nat.zero_mod]; rfl
  | succ k ih =>
      rw [arrivals_succ, ih, ← Nat.mod_add_mod]
      have hlt : k % v.size < v.size := Nat.mod_lt _ hpos
      rcases Nat.lt_or_ge (k % v.size + 1) v.size with hin | hend
      · rw [onArrived_inside hdir hin, Nat.mod_eq_of_lt hin]
      · have hlast : k % v.size = v.size - 1 := by omega
        rw [hlast, onArrived_loop hdir hpos htype, Nat.sub_add_cancel hpos, Nat.mod_self]

theorem arrivals_inside (hdir : direction.Along) (hk : i + k < v.size) :
    (v.place direction i).arrivals random k = v.place direction (i + k) := by
  induction k with
  | zero => rfl
  | succ k ih =>
      rw [arrivals_succ, ih (Nat.lt_of_succ_lt hk)]
      exact onArrived_inside hdir hk

theorem arrivals_once (hdir : direction.Along) (hk : k < v.size) :
    (v.place direction 0).arrivals random k = v.place direction k := by
  have hinside : (v.place direction 0).arrivals random k = v.place direction (0 + k) :=
    arrivals_inside hdir (by omega)
  rwa [Nat.zero_add] at hinside

theorem finalized_arrivals_once (hdir : direction.Along) (hpos : 0 < v.size)
    (htype : v.pathType = .once) (hk : v.size ≤ k) :
    ((v.place direction 0).arrivals random k).finalized = true := by
  obtain ⟨m, rfl⟩ := Nat.exists_eq_add_of_le hk
  clear hk
  induction m with
  | zero =>
      have hlast : v.size - 1 < v.size := Nat.sub_lt hpos Nat.one_pos
      rw [Nat.add_zero, ← Nat.sub_add_cancel hpos, arrivals_succ, arrivals_once hdir hlast,
        onArrived_once hdir hpos htype]
  | succ m ih =>
      rw [← Nat.add_assoc, arrivals_succ]
      exact finalized_onArrived ih

/-- Where a way along the path begins: at the first place, or still at the last of the other
direction, which is the same node. -/
def StartsWay (v : WaypointMovementGenerator) (direction : WaypointPathDirection)
    (g : WaypointMovementGenerator) : Prop :=
  g = v.place direction 0 ∨ g = v.place direction.turn (v.size - 1)

theorem StartsWay.onArrived (hg : v.StartsWay direction g) (hdir : direction.Along)
    (hsize : 2 ≤ v.size) (htype : v.pathType = .roundTrip) :
    g.onArrived random true splineFinalized = v.place direction 1 := by
  rcases hg with rfl | rfl
  · exact onArrived_inside hdir hsize
  · rw [onArrived_roundTrip WaypointPathDirection.along_turn (by omega) htype, hdir.turn_turn,
      Nat.mod_eq_of_lt hsize]

theorem StartsWay.arrivals (hg : v.StartsWay direction g) (hdir : direction.Along)
    (hsize : 2 ≤ v.size) (htype : v.pathType = .roundTrip) (hi : i < v.size - 1) :
    g.arrivals random (i + 1) = v.place direction (i + 1) := by
  induction i with
  | zero => exact hg.onArrived hdir hsize htype
  | succ i ih => rw [arrivals_succ, ih (Nat.lt_of_succ_lt hi), onArrived_inside hdir (by omega)]

theorem StartsWay.visited (hg : v.StartsWay direction g) (hdir : direction.Along)
    (hsize : 2 ≤ v.size) (htype : v.pathType = .roundTrip) (hnew : v.finalized = false)
    (hi : i < v.size - 1) :
    g.visited random i = some (nodeAt v.size direction i) := by
  cases i with
  | zero =>
      rcases hg with rfl | rfl
      · exact visited_of_place (i := 0) hnew rfl
      · have hfirst : (v.place direction.turn (v.size - 1)).arrivals random 0 =
            v.place direction.turn (v.size - 1) := rfl
        rw [visited_of_place hnew hfirst, nodeAt_last WaypointPathDirection.along_turn,
          hdir.turn_turn]
  | succ i =>
      exact visited_of_place hnew (hg.arrivals hdir hsize htype (Nat.lt_of_succ_lt hi))

/-- One way after another. -/
theorem StartsWay.next (hg : v.StartsWay direction g) (hdir : direction.Along)
    (hsize : 2 ≤ v.size) (htype : v.pathType = .roundTrip) (j : Nat) :
    v.StartsWay (WaypointPathDirection.turn^[j] direction)
      (g.arrivals random (j * (v.size - 1))) := by
  induction j with
  | zero =>
      rw [Nat.zero_mul]
      exact hg
  | succ j ih =>
      have hway : (g.arrivals random (j * (v.size - 1))).arrivals random (v.size - 2 + 1) =
          v.place (WaypointPathDirection.turn^[j] direction) (v.size - 2 + 1) :=
        ih.arrivals hdir.iterate hsize htype (by omega)
      have hlast : v.size - 2 + 1 = v.size - 1 := by omega
      rw [hlast] at hway
      rw [Nat.succ_mul, arrivals_add, hway, Function.iterate_succ_apply']
      refine .inr ?_
      rw [hdir.iterate.turn_turn]

theorem visited_roundTrip (hg : v.StartsWay direction g) (hdir : direction.Along)
    (hsize : 2 ≤ v.size) (htype : v.pathType = .roundTrip) (hnew : v.finalized = false) (k : Nat) :
    g.visited random k = route .roundTrip direction v.size k := by
  have hmod : k % (v.size - 1) < v.size - 1 := Nat.mod_lt _ (by omega)
  have hway : (g.arrivals random (k / (v.size - 1) * (v.size - 1))).visited random
      (k % (v.size - 1)) =
      some (nodeAt v.size (WaypointPathDirection.turn^[k / (v.size - 1)] direction)
        (k % (v.size - 1))) :=
    (hg.next hdir hsize htype _).visited hdir.iterate hsize htype hnew hmod
  rw [WaypointMovementGenerator.visited, ← arrivals_add, Nat.div_add_mod'] at hway
  rw [WaypointMovementGenerator.visited, hway, route, if_neg (by omega)]

/-- On a path of one node a round trip turns on the spot. -/
theorem visited_roundTrip_one (hdir : direction.Along) (hsize : v.size = 1)
    (htype : v.pathType = .roundTrip) (hnew : v.finalized = false) (k : Nat) :
    (v.place direction 0).visited random k = some 0 := by
  have hplace : ∃ e : WaypointPathDirection, e.Along ∧
      (v.place direction 0).arrivals random k = v.place e 0 := by
    induction k with
    | zero => exact ⟨direction, hdir, rfl⟩
    | succ k ih =>
        obtain ⟨e, he, hk⟩ := ih
        have hturn : (v.place e (v.size - 1)).onArrived random true true =
            v.place e.turn (1 % v.size) := onArrived_roundTrip he (by omega) htype
        rw [hsize] at hturn
        refine ⟨e.turn, WaypointPathDirection.along_turn, ?_⟩
        rw [arrivals_succ, hk]
        exact hturn
  obtain ⟨e, he, hk⟩ := hplace
  rw [visited_of_place hnew hk, hsize]
  rcases he with rfl | rfl
  · rfl
  · rfl

/-! ## The first node -/

theorem setFirstNode_normal (hdir : v.direction = .normal) :
    v.setFirstNode random = v.place .normal 0 := by
  rw [setFirstNode, getFirstMemoryNode, hdir]
  show { v with currentNode := 0 } = { v with direction := .normal, currentNode := 0 }
  rw [← hdir]

/-- In reverse the first node is what comes behind node zero, if anything does. -/
theorem setFirstNode_reverse (hdir : v.direction = .reverse) :
    v.setFirstNode random =
      { (v.getNextMemoryNode random 0 true).1 with
        currentNode := (v.getNextMemoryNode random 0 true).2.getD 0 } := by
  rw [setFirstNode, getFirstMemoryNode, hdir]

theorem nodeAt_zero_reverse (hdir : v.direction = .reverse) :
    0 = nodeAt v.size v.direction (v.size - 1) := by
  rw [hdir]
  exact (Nat.sub_self _).symm

theorem setFirstNode_loop (hdir : v.direction = .reverse) (hpos : 0 < v.size)
    (htype : v.pathType = .loop) : v.setFirstNode random = v.place .reverse 0 := by
  have honce : v.pathType ≠ .once := by
    rw [htype]
    exact fun h => by cases h
  have hkeep : ¬ (true = true ∧ v.pathType = .roundTrip) := by
    rw [htype]
    exact fun h => by cases h.2
  have hnext := getNextMemoryNode_wrap random true (.inr hdir) hpos honce hkeep
  rw [← nodeAt_zero_reverse hdir, hdir] at hnext
  rw [setFirstNode_reverse hdir, hnext]
  show { v with currentNode := _ } = { v with direction := .reverse, currentNode := _ }
  rw [← hdir]
  rfl

theorem setFirstNode_once (hdir : v.direction = .reverse) (hpos : 0 < v.size)
    (htype : v.pathType = .once) : v.setFirstNode random = v.place .reverse (v.size - 1) := by
  have hnext := getNextMemoryNode_once random true (.inr hdir) hpos htype
  rw [← nodeAt_zero_reverse hdir] at hnext
  rw [setFirstNode_reverse hdir, hnext]
  show { v with currentNode := 0 } = { v with direction := .reverse, currentNode := _ }
  rw [← hdir, ← nodeAt_zero_reverse hdir]

theorem setFirstNode_roundTrip (hdir : v.direction = .reverse) (hpos : 0 < v.size)
    (htype : v.pathType = .roundTrip) :
    v.setFirstNode random = v.place .normal (1 % v.size) := by
  have hnext := getNextMemoryNode_turn random (.inr hdir) hpos htype
  rw [← nodeAt_zero_reverse hdir, hdir] at hnext
  rw [setFirstNode_reverse hdir, hnext]
  rfl

/-- What goes wrong in reverse, by the type and the number of nodes. -/
def Misled (type : WaypointPathType) (direction : WaypointPathDirection) (n : Nat) : Prop :=
  direction = .reverse ∧ (type = .once ∧ 2 ≤ n ∨ type = .roundTrip ∧ 3 ≤ n)

/-- From the first node on the route is kept, if the first node is that of the route. -/
theorem visited_setFirstNode_iff (random : Nat → Nat) (hpos : 0 < v.size)
    (htype : v.pathType = .loop ∨ v.pathType = .once ∨ v.pathType = .roundTrip)
    (hdir : v.direction.Along) (hnew : v.finalized = false) :
    (∀ k, (v.setFirstNode random).visited random k = route v.pathType v.direction v.size k) ↔
      ¬ Misled v.pathType v.direction v.size := by
  have hstart : ∀ {d : WaypointPathDirection} {i : Nat}, v.setFirstNode random = v.place d i →
      (v.setFirstNode random).visited random 0 = some (nodeAt v.size d i) := by
    intro d i h
    rw [h]
    exact visited_of_place hnew (k := 0) rfl
  rcases htype with htype | htype | htype
  · -- a loop has a node behind every node
    have hfirst : v.setFirstNode random = v.place v.direction 0 := by
      rcases hdir with hdir | hdir
      · rw [hdir]
        exact setFirstNode_normal hdir
      · rw [hdir]
        exact setFirstNode_loop hdir hpos htype
    refine iff_of_true (fun k => ?_) ?_
    · rw [hfirst, htype]
      exact visited_of_place hnew (arrivals_loop hdir hpos htype k)
    · rw [Misled, htype]
      rintro ⟨-, h | h⟩
      · cases h.1
      · cases h.1
  · have hkept (hfirst : v.setFirstNode random = v.place v.direction 0) (k : Nat) :
        (v.setFirstNode random).visited random k = route v.pathType v.direction v.size k := by
      rw [hfirst, htype, route]
      split
      · exact visited_of_place hnew (arrivals_once hdir ‹_›)
      · rw [visited, finalized_arrivals_once hdir hpos htype (Nat.not_lt.1 ‹_›)]
        rfl
    rcases hdir with hdir | hdir
    · have hfirst : v.setFirstNode random = v.place v.direction 0 := by
        rw [hdir]
        exact setFirstNode_normal hdir
      refine iff_of_true (hkept hfirst) ?_
      rw [Misled, hdir]
      rintro ⟨h, -⟩
      cases h
    · have hfirst : v.setFirstNode random = v.place .reverse (v.size - 1) :=
        setFirstNode_once hdir hpos htype
      constructor
      · rintro hall ⟨-, ⟨-, hsize⟩ | ⟨h, -⟩⟩
        · have hzero := (hall 0).symm.trans (hstart hfirst)
          rw [htype, hdir, route, if_pos hpos] at hzero
          have hnode : v.size - 1 - 0 = v.size - 1 - (v.size - 1) := Option.some.inj hzero
          omega
        · rw [htype] at h
          cases h
      · intro hmisled
        have hone : v.size = 1 := by
          by_contra hne
          exact hmisled ⟨hdir, .inl ⟨htype, by omega⟩⟩
        refine hkept ?_
        rw [hfirst, hdir, hone]
  · rcases hdir with hdir | hdir
    · refine iff_of_true (fun k => ?_) ?_
      · rw [setFirstNode_normal hdir, htype, hdir]
        rcases Nat.lt_or_ge v.size 2 with hone | hsize
        · have hone : v.size = 1 := by omega
          rw [visited_roundTrip_one (.inl rfl) hone htype hnew, route, if_pos hone]
        · exact visited_roundTrip (.inl rfl) (.inl rfl) hsize htype hnew k
      · rw [Misled, hdir]
        rintro ⟨h, -⟩
        cases h
    · have hfirst : v.setFirstNode random = v.place .normal (1 % v.size) :=
        setFirstNode_roundTrip hdir hpos htype
      constructor
      · rintro hall ⟨-, ⟨h, -⟩ | ⟨-, hsize⟩⟩
        · rw [htype] at h
          cases h
        · have hzero := (hall 0).symm.trans (hstart hfirst)
          rw [htype, hdir, route, if_neg (by omega), Nat.zero_div, Nat.zero_mod,
            Nat.mod_eq_of_lt (by omega)] at hzero
          have hnode : v.size - 1 - 0 = 1 := Option.some.inj hzero
          omega
      · intro hmisled k
        have hfew : v.size < 3 := by
          by_contra hmany
          exact hmisled ⟨hdir, .inr ⟨htype, by omega⟩⟩
        rw [hfirst, htype, hdir]
        rcases Nat.lt_or_ge v.size 2 with hone | hsize
        · have hone : v.size = 1 := by omega
          rw [hone, visited_roundTrip_one (.inl rfl) hone htype hnew, route, if_pos rfl]
        · -- of two nodes the second is the last, where reverse begins
          have htwo : v.size = 2 := by omega
          refine visited_roundTrip (.inr ?_) (.inr rfl) hsize htype hnew k
          rw [htwo]
          rfl

/-! ## Indices -/

/-- A generator on its way along the path. -/
structure OnPath (n : Nat) (g : WaypointMovementGenerator) : Prop where
  size : g.size = n
  along : g.direction.Along
  lt : g.currentNode < n

theorem OnPath.getNextMemoryNode (h : OnPath n g) (random : Nat → Nat)
    (allowReverseDirection : Bool) (hnode : node < n) :
    OnPath n (g.getNextMemoryNode random node allowReverseDirection).1 ∧
      ∀ next, (g.getNextMemoryNode random node allowReverseDirection).2 = some next → next < n := by
  have hreverse : OnPath n (g.reverseDirection node allowReverseDirection) := by
    rw [reverseDirection]
    split
    · exact ⟨h.size, WaypointPathDirection.along_turn, h.lt⟩
    · exact h
  rw [WaypointMovementGenerator.getNextMemoryNode]
  split
  · exact ⟨h, fun _ h => by cases h⟩
  · split
    · exact ⟨h, fun _ h => by cases h⟩
    · refine ⟨hreverse, fun next hnext => ?_⟩
      obtain ⟨i, hi, hplaced⟩ := exists_nodeAt hreverse.along hnode
      have hplace := nextNode_nodeAt random hreverse.along (hreverse.size.symm ▸ hi)
      rw [hreverse.size, hplaced] at hplace
      rw [← Option.some.inj (hplace.symm.trans hnext)]
      exact nodeAt_lt (Nat.mod_lt _ (by omega))

theorem OnPath.onArrived (h : OnPath n g) {ownSpline : Bool} :
    OnPath n (g.onArrived random ownSpline splineFinalized) := by
  obtain ⟨hon, hlt⟩ := h.getNextMemoryNode random true h.lt
  rw [WaypointMovementGenerator.onArrived]
  split
  · exact h
  · split
    · exact h
    · split
      · rename_i hnext
        rw [hnext] at hon hlt
        exact ⟨hon.size, hon.along, hlt _ rfl⟩
      · rename_i hnext
        rw [hnext] at hon
        split
        · exact ⟨hon.size, hon.along, hon.lt⟩
        · exact hon

theorem OnPath.arrivals (h : OnPath n g) (k : Nat) : OnPath n (g.arrivals random k) := by
  induction k with
  | zero => exact h
  | succ k ih =>
      rw [arrivals_succ]
      exact ih.onArrived

theorem onPath_setFirstNode (hpos : 0 < v.size)
    (htype : v.pathType = .loop ∨ v.pathType = .once ∨ v.pathType = .roundTrip)
    (hdir : v.direction.Along) : OnPath v.size (v.setFirstNode random) := by
  have hplace {d : WaypointPathDirection} {i : Nat} (hd : d.Along) (hi : i < v.size)
      (h : v.setFirstNode random = v.place d i) : OnPath v.size (v.setFirstNode random) := by
    rw [h]
    exact ⟨rfl, hd, nodeAt_lt hi⟩
  rcases hdir with hdir | hdir
  · exact hplace (.inl rfl) hpos (setFirstNode_normal hdir)
  · rcases htype with htype | htype | htype
    · exact hplace (.inr rfl) hpos (setFirstNode_loop hdir hpos htype)
    · exact hplace (.inr rfl) (Nat.sub_lt hpos Nat.one_pos) (setFirstNode_once hdir hpos htype)
    · exact hplace (.inl rfl) (Nat.mod_lt _ hpos) (setFirstNode_roundTrip hdir hpos htype)

/-! ## From loading on -/

theorem finalized_configure {stored : Option WaypointPath} (h : g.configure stored = some v) :
    v.finalized = g.finalized := by
  have hvalid (g : WaypointMovementGenerator) :
      g.validateType.validateDirection.finalized = g.finalized := by
    have htype : g.validateType.finalized = g.finalized := by
      rw [validateType]
      split <;> rfl
    rw [← htype, validateDirection]
    split
    · rfl
    · split <;> rfl
    · rfl
  obtain ⟨g', hchosen, rfl⟩ := Option.map_eq_some_iff.1 h
  rw [hvalid]
  unfold choosePath at hchosen
  split at hchosen
  · split at hchosen
    · cases hchosen
    · cases hchosen
      rfl
  · split at hchosen
    · cases hchosen
    · cases hchosen
      rfl

/-- A path with nodes is loaded, no index is used that it does not have, and what is visited
is the route of its type and direction, if and only if it is not one that is done once in
reverse and has two nodes or more, nor a round trip in reverse with three or more. -/
theorem loadPath_visits_iff (random : Nat → Nat) (stored : Option WaypointPath)
    (g v : WaypointMovementGenerator) (hv : g.configure stored = some v)
    (hnodes : v.path.nodes ≠ [])
    (htype : v.pathType = .loop ∨ v.pathType = .once ∨ v.pathType = .roundTrip)
    (hdir : v.direction = .normal ∨ v.direction = .reverse) (hnew : g.finalized = false) :
    ∃ g', g.loadPath random stored = some g' ∧
      (∀ k node, g'.visited random k = some node → node < v.size) ∧
      ((∀ k, g'.visited random k = route v.pathType v.direction v.size k) ↔
        ¬ Misled v.pathType v.direction v.size) := by
  have hpos : 0 < v.size := List.length_pos_iff.2 hnodes
  refine ⟨v.setFirstNode random, ?_, fun k node hvisited => ?_, ?_⟩
  · rw [loadPath, hv]
    exact if_neg (by rw [List.isEmpty_iff]; exact hnodes)
  · rw [visited] at hvisited
    split at hvisited
    · cases hvisited
    · rw [← Option.some.inj hvisited]
      exact ((onPath_setFirstNode hpos htype hdir).arrivals k).lt
  · exact visited_setFirstNode_iff random hpos htype hdir ((finalized_configure hv).trans hnew)

/-- A generator for a path of the table that has two nodes, with the type and direction. -/
def twoNodes (pathType pathDirection : Nat) : WaypointPath :=
  ⟨[⟨0, 0⟩, ⟨0, 0⟩], pathType, pathDirection⟩

/-- As it is made for a stored path. -/
def fresh : WaypointMovementGenerator := ⟨none, ⟨[], 0, 0⟩, .unspecified, .normal, 0, false, false⟩

theorem two_nodes_to_and_fro :
    ∃ g', fresh.loadPath id (some (twoNodes 2 1)) = some g' ∧
      ∀ k, g'.visited id k = route .roundTrip .reverse 2 k := by
  obtain ⟨g', hload, -, hiff⟩ := loadPath_visits_iff id (some (twoNodes 2 1)) fresh _ rfl
    (by decide) (.inr (.inr rfl)) (.inr rfl) rfl
  refine ⟨g', hload, hiff.2 ?_⟩
  rintro ⟨-, ⟨h, -⟩ | ⟨-, h⟩⟩
  · cases h
  · exact absurd h (by decide)

/-- Once through two nodes in reverse: node one is not visited. -/
theorem last_node_is_left_out :
    ∃ g', fresh.loadPath id (some (twoNodes 1 1)) = some g' ∧ g'.visited id 0 = some 0 ∧
      (∀ k, g'.visited id (k + 1) = none) ∧ route .once .reverse 2 0 = some 1 := by
  refine ⟨_, rfl, rfl, fun k => ?_, rfl⟩
  have hdone : ∀ k, (arrivals id ⟨none, twoNodes 1 1, .once, .reverse, 0, false, false⟩
      (k + 1)).finalized = true := by
    intro k
    induction k with
    | zero => rfl
    | succ k ih =>
        rw [arrivals_succ]
        exact finalized_onArrived ih
  exact if_pos (hdone k)

end WaypointMovementGenerator

end Sunstrider.Movement
