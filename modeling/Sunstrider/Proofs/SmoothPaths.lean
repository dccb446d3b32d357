import Sunstrider.Proofs.WaypointRoutes

/-!
# Splines through several nodes

A smooth spline leads through the nodes that are looked up from the current one, in the
direction of now and without a turn. Up to the last node of the direction these are the nodes
that are visited one by one, and a loop goes on from the last to the first either way. A round
trip turns at the last node, but the lookup goes on to the first: a spline that starts at the
last node leads across to the other end. It does not if there are no more than two nodes, or
if something cuts the spline off right there.
-/

namespace Sunstrider.Movement

namespace WaypointMovementGenerator

/-- The node the generator takes the creature to have reached, with so many points of the
spline behind it. -/
def believed (random : Nat → Nat) (g : WaypointMovementGenerator) (k : Nat) : Nat :=
  ((onArrived random true false)^[k] g).currentNode

/-- A smooth spline for a round trip that starts at the last node and goes on to the first. -/
structure Crosses (g : WaypointMovementGenerator) : Prop where
  underway : g.finalized = false
  smooth : g.useSmoothSpline = true
  type : g.pathType = .roundTrip
  size : 3 ≤ g.size
  last : g.isLastMemoryNode g.currentNode = true
  delay : g.delayOf g.currentNode = 0
  moveType : g.moveTypeOf (nodeAt g.size g.direction 0) = g.moveTypeOf g.currentNode

variable {random : Nat → Nat} {g : WaypointMovementGenerator} {direction : WaypointPathDirection}
  {lastMoveType fuel i k node : Nat} {nodes : List Nat}

/-- Nodes in their order, from a place on. -/
def stretch (g : WaypointMovementGenerator) (i m : Nat) : List Nat :=
  (List.range m).map fun j => nodeAt g.size g.direction (i + j)

theorem stretch_succ (g : WaypointMovementGenerator) (i m : Nat) :
    g.stretch i (m + 1) = nodeAt g.size g.direction i :: g.stretch (i + 1) m := by
  rw [stretch, List.range_succ_eq_map, List.map_cons, List.map_map, Nat.add_zero, stretch]
  congr 1
  refine List.map_congr_left fun j _ => ?_
  show nodeAt _ _ (i + (j + 1)) = nodeAt _ _ (i + 1 + j)
  rw [Nat.add_right_comm, Nat.add_assoc]

theorem getElem?_stretch {m : Nat} (h : (g.stretch i m)[k]? = some node) :
    k < m ∧ node = nodeAt g.size g.direction (i + k) := by
  rw [stretch, List.getElem?_map] at h
  obtain ⟨j, hj, hnode⟩ := Option.map_eq_some_iff.1 h
  obtain ⟨hlt, hget⟩ := List.getElem?_eq_some_iff.1 hj
  rw [List.getElem_range] at hget
  rw [List.length_range] at hlt
  exact ⟨hlt, by rw [← hnode, hget]⟩

/-! ## What is looked up -/

/-- Before the last node the lookup stays on this side of it. -/
theorem lookUpNodes_inside (random : Nat → Nat) (lastMoveType : Nat) (hdir : g.direction.Along)
    (hi : i + 1 < g.size) (hfuel : g.size ≤ fuel + i) :
    ∃ m c, g.lookUpNodes random lastMoveType fuel (nodeAt g.size g.direction i) =
      some (g.stretch (i + 1) m, c) ∧ i + m < g.size := by
  induction fuel generalizing i with
  | zero => omega
  | succ fuel ih =>
      rw [lookUpNodes]
      split
      · exact ⟨0, false, rfl, Nat.lt_of_succ_lt hi⟩
      · rw [getNextMemoryNode_inside random false hdir hi]
        dsimp only
        split
        · exact ⟨0, false, rfl, Nat.lt_of_succ_lt hi⟩
        · split
          · exact ⟨1, _, rfl, hi⟩
          · rename_i hnot
            rw [isLastMemoryNode_nodeAt hdir hi, decide_eq_true_iff] at hnot
            split
            · exact ⟨1, false, rfl, hi⟩
            · obtain ⟨m, c, hrest, hm⟩ := ih (i := i + 1) (by omega) (by omega)
              refine ⟨m + 1, c, ?_, by omega⟩
              rw [hrest, stretch_succ]
              rfl

/-- What the lookup from the last node does not go beyond. -/
def Stops (g : WaypointMovementGenerator) (lastMoveType : Nat) : Prop :=
  g.useSmoothSpline = false ∨ g.pathType = .once ∨
    g.moveTypeOf (nodeAt g.size g.direction 0) ≠ lastMoveType

theorem lookUpNodes_last (random : Nat → Nat) (lastMoveType : Nat) (hdir : g.direction.Along)
    (hpos : 0 < g.size) (hfuel : g.size < fuel) :
    ∃ m c, g.lookUpNodes random lastMoveType fuel (nodeAt g.size g.direction (g.size - 1)) =
      some (g.stretch 0 m, c) ∧ m ≤ g.size ∧ (m = 0 ↔ g.Stops lastMoveType) := by
  obtain ⟨fuel, rfl⟩ := Nat.exists_eq_succ_of_ne_zero (Nat.ne_of_gt (Nat.zero_lt_of_lt hfuel))
  rw [lookUpNodes]
  split
  · rename_i hsmooth
    exact ⟨0, false, rfl, Nat.zero_le _, iff_of_true rfl (.inl (by simpa using hsmooth))⟩
  · rename_i hsmooth
    by_cases honce : g.pathType = .once
    · rw [getNextMemoryNode_once random false hdir hpos honce]
      exact ⟨0, false, rfl, Nat.zero_le _, iff_of_true rfl (.inr (.inl honce))⟩
    · rw [getNextMemoryNode_wrap random false hdir hpos honce fun h => Bool.false_ne_true h.1]
      dsimp only
      split
      · rename_i hmove
        exact ⟨0, false, rfl, Nat.zero_le _, iff_of_true rfl (.inr (.inr hmove))⟩
      · rename_i hmove
        have hgo : ¬ g.Stops lastMoveType := by
          rintro (h | h | h)
          · rw [h] at hsmooth
            exact hsmooth rfl
          · exact honce h
          · exact hmove h
        split
        · exact ⟨1, _, rfl, hpos, iff_of_false Nat.one_ne_zero hgo⟩
        · rename_i hnot
          rw [isLastMemoryNode_nodeAt hdir hpos, decide_eq_true_iff] at hnot
          split
          · exact ⟨1, false, rfl, hpos, iff_of_false Nat.one_ne_zero hgo⟩
          · obtain ⟨m, c, hrest, hm⟩ := lookUpNodes_inside random lastMoveType (i := 0) hdir
              (by omega) (show g.size ≤ fuel + 0 by omega)
            refine ⟨m + 1, c, ?_, by omega, iff_of_false (Nat.succ_ne_zero m) hgo⟩
            rw [hrest, stretch_succ]
            rfl

theorem lookUpNodes_succ {r : List Nat × Bool}
    (h : g.lookUpNodes random lastMoveType fuel node = some r) :
    g.lookUpNodes random lastMoveType (fuel + 1) node = some r := by
  induction fuel generalizing node r with
  | zero => cases h
  | succ fuel ih =>
      rw [lookUpNodes] at h ⊢
      split
      · rename_i hsmooth
        rwa [if_pos hsmooth] at h
      · rename_i hsmooth
        rw [if_neg hsmooth] at h
        cases hnext : (g.getNextMemoryNode random node false).2 with
        | none => rwa [hnext] at h
        | some next =>
            rw [hnext] at h
            dsimp only at h ⊢
            split
            · rename_i hmove
              rwa [if_pos hmove] at h
            · rename_i hmove
              rw [if_neg hmove] at h
              split
              · rename_i hlast
                rwa [if_pos hlast] at h
              · rename_i hlast
                rw [if_neg hlast] at h
                split
                · rename_i hdelay
                  rwa [if_pos hdelay] at h
                · rename_i hdelay
                  rw [if_neg hdelay] at h
                  obtain ⟨r', hr', rfl⟩ := Option.map_eq_some_iff.1 h
                  rw [ih hr']
                  rfl

/-! ## What is visited -/

theorem place_self (h : g.currentNode = nodeAt g.size g.direction i) :
    g.place g.direction i = g := by
  rw [place, ← h]

theorem visited_inside (hdir : g.direction.Along)
    (hnode : g.currentNode = nodeAt g.size g.direction i) (hnew : g.finalized = false)
    (hk : i + k < g.size) : g.visited random k = some (nodeAt g.size g.direction (i + k)) := by
  have hinside : (g.place g.direction i).arrivals random k = g.place g.direction (i + k) :=
    arrivals_inside hdir hk
  rw [place_self hnode] at hinside
  exact visited_of_place hnew hinside

/-- A loop goes on behind the last node. -/
theorem visited_loop (hdir : g.direction.Along)
    (hnode : g.currentNode = nodeAt g.size g.direction (g.size - 1)) (hnew : g.finalized = false)
    (htype : g.pathType = .loop) (hk : k < g.size) :
    g.visited random (1 + k) = some (nodeAt g.size g.direction k) := by
  have hnext : (g.place g.direction (g.size - 1)).onArrived random true true =
      g.place g.direction 0 := onArrived_loop hdir (Nat.zero_lt_of_lt hk) htype
  rw [place_self hnode] at hnext
  have hfirst : g.arrivals random (1 + k) = g.place g.direction (k % g.size) := by
    rw [arrivals_add, ← arrivals_loop hdir (Nat.zero_lt_of_lt hk) htype k, ← hnext]
    rfl
  rw [visited_of_place hnew hfirst, Nat.mod_eq_of_lt hk]

/-- A round trip turns there. -/
theorem visited_turn (hdir : g.direction.Along)
    (hnode : g.currentNode = nodeAt g.size g.direction (g.size - 1)) (hnew : g.finalized = false)
    (htype : g.pathType = .roundTrip) (hpos : 0 < g.size) :
    g.visited random 1 = some (nodeAt g.size g.direction.turn (1 % g.size)) := by
  have hnext : (g.place g.direction (g.size - 1)).onArrived random true true =
      g.place g.direction.turn (1 % g.size) := onArrived_roundTrip hdir hpos htype
  rw [place_self hnode] at hnext
  exact visited_of_place (v := g) hnew hnext

/-- With no more than two nodes that is to go round. -/
theorem visited_few (hdir : g.direction.Along)
    (hnode : g.currentNode = nodeAt g.size g.direction (g.size - 1)) (hnew : g.finalized = false)
    (htype : g.pathType = .roundTrip) (hfew : g.size < 3) (hk : k < g.size) :
    g.visited random (1 + k) = some (nodeAt g.size g.direction k) := by
  have hpos : 0 < g.size := Nat.zero_lt_of_lt hk
  have hfirst : g.visited random 1 = some (nodeAt g.size g.direction.turn (1 % g.size)) :=
    visited_turn hdir hnode hnew htype hpos
  cases k with
  | zero =>
      rw [Nat.add_zero, hfirst]
      have hsize : g.size = 1 ∨ g.size = 2 := by omega
      rcases hsize with hsize | hsize <;> rcases hdir with hdir | hdir <;> rw [hsize, hdir] <;> rfl
  | succ k =>
      have hsize : g.size = 2 := by omega
      have hk' : k = 0 := by omega
      have hthere : (g.place g.direction (g.size - 1)).onArrived random true true =
          g.place g.direction.turn (1 % g.size) := onArrived_roundTrip hdir hpos htype
      have hback : (g.place g.direction.turn (g.size - 1)).onArrived random true true =
          g.place g.direction.turn.turn (1 % g.size) :=
        onArrived_roundTrip WaypointPathDirection.along_turn hpos htype
      rw [place_self hnode] at hthere
      rw [hdir.turn_turn] at hback
      have htwo : g.arrivals random 2 = g.place g.direction 1 := by
        show (g.onArrived random true true).onArrived random true true = _
        rw [hthere, hsize]
        rw [hsize] at hback
        exact hback
      rw [hk']
      exact visited_of_place hnew htwo

/-- What a generator takes for reached is what is visited, as long as the path goes on. -/
theorem believed_of_visited (h : g.visited random k = some node) : g.believed random k = node := by
  have hsame : ∀ k, (g.arrivals random k).finalized = false →
      (onArrived random true false)^[k] g = g.arrivals random k := by
    intro k
    induction k with
    | zero => exact fun _ => rfl
    | succ k ih =>
        intro hgo
        rw [arrivals_succ] at hgo ⊢
        have hbefore : (g.arrivals random k).finalized = false := by
          cases hk : (g.arrivals random k).finalized with
          | false => rfl
          | true => rw [finalized_onArrived hk] at hgo; cases hgo
        rw [Function.iterate_succ_apply', ih hbefore]
        generalize g.arrivals random k = g' at hgo
        rw [onArrived] at hgo ⊢
        rw [onArrived]
        split
        · rfl
        · rename_i hin
          rw [if_neg hin] at hgo
          generalize g'.getNextMemoryNode random g'.currentNode true = result at hgo ⊢
          obtain ⟨g₁, next⟩ := result
          cases next with
          | some node => rfl
          | none => cases hgo
  rw [visited] at h
  split at h
  · cases h
  · rename_i hgo
    rw [believed, hsame k (by simpa using hgo)]
    exact Option.some.inj h

/-! ## Both -/

/-- The nodes are visited one after the other, as far as they go. -/
def Follows (random : Nat → Nat) (g : WaypointMovementGenerator) (nodes : List Nat) : Prop :=
  ∀ k node, nodes[k]? = some node → g.visited random k = some node

theorem follows_nil : g.Follows random [] := by
  intro k node h
  cases h

theorem follows_cons (hnew : g.finalized = false) :
    g.Follows random (g.currentNode :: nodes) ↔
      ∀ k node, nodes[k]? = some node → g.visited random (1 + k) = some node := by
  constructor
  · intro h k node hk
    rw [Nat.add_comm]
    exact h (k + 1) node hk
  · intro h k node hk
    cases k with
    | zero =>
        rw [← Option.some.inj hk, visited]
        refine if_neg ?_
        rw [arrivals, Function.iterate_zero, id_eq, hnew]
        exact Bool.false_ne_true
    | succ k =>
        rw [Nat.add_comm]
        exact h k node hk

/-- A node of the spline is not the one that is visited then. -/
def Leaves (random : Nat → Nat) (g : WaypointMovementGenerator) (nodes : List Nat) : Prop :=
  ∃ k node node', nodes[k]? = some node ∧ g.visited random k = some node' ∧ node ≠ node'

theorem follows_inside {m : Nat} (hdir : g.direction.Along)
    (hnode : g.currentNode = nodeAt g.size g.direction i) (hnew : g.finalized = false)
    (hm : i + m < g.size) : g.Follows random (g.currentNode :: g.stretch (i + 1) m) := by
  refine (follows_cons hnew).2 fun k node hk => ?_
  obtain ⟨hlt, rfl⟩ := getElem?_stretch hk
  rw [visited_inside hdir hnode hnew (by omega), Nat.add_assoc]

/-- The lookup from the last node, by where it goes on. -/
theorem follows_last {m : Nat}
    (htype : g.pathType = .loop ∨ g.pathType = .once ∨ g.pathType = .roundTrip)
    (hdir : g.direction.Along) (hnode : g.currentNode = nodeAt g.size g.direction (g.size - 1))
    (hnew : g.finalized = false) (hpos : 0 < g.size) (hdelay : g.delayOf g.currentNode = 0)
    (hm : m ≤ g.size) (hstops : m = 0 ↔ g.Stops (g.moveTypeOf g.currentNode)) :
    (¬ g.Crosses ∧ g.Follows random (g.currentNode :: g.stretch 0 m)) ∨
      (g.Crosses ∧ g.Leaves random (g.currentNode :: g.stretch 0 m)) := by
  by_cases hzero : m = 0
  · refine .inl ⟨fun hcrosses => ?_, ?_⟩
    · rcases hstops.1 hzero with h | h | h
      · rw [hcrosses.smooth] at h
        cases h
      · rw [hcrosses.type] at h
        cases h
      · exact h hcrosses.moveType
    · rw [hzero]
      exact (follows_cons hnew).2 fun k node hk => by cases hk
  · have hgo : ¬ g.Stops (g.moveTypeOf g.currentNode) := fun h => hzero (hstops.2 h)
    have hround (hvisited : ∀ k < g.size,
        g.visited random (1 + k) = some (nodeAt g.size g.direction k)) :
        g.Follows random (g.currentNode :: g.stretch 0 m) := by
      refine (follows_cons hnew).2 fun k node hk => ?_
      obtain ⟨hlt, rfl⟩ := getElem?_stretch hk
      rw [hvisited k (Nat.lt_of_lt_of_le hlt hm), Nat.zero_add]
    rcases htype with htype | htype | htype
    · refine .inl ⟨fun hcrosses => ?_, hround fun k hk => visited_loop hdir hnode hnew htype hk⟩
      have htrip := hcrosses.type
      rw [htype] at htrip
      cases htrip
    · exact absurd (.inr (.inl htype)) hgo
    · rcases Nat.lt_or_ge g.size 3 with hfew | hmany
      · exact .inl ⟨fun hcrosses => absurd hcrosses.size (Nat.not_le.2 hfew),
          hround fun k hk => visited_few hdir hnode hnew htype hfew hk⟩
      · refine .inr ⟨?_, 1, nodeAt g.size g.direction 0, nodeAt g.size g.direction.turn 1, ?_, ?_,
          ?_⟩
        · refine ⟨hnew, ?_, htype, hmany, ?_, hdelay, ?_⟩
          · by_contra h
            exact hgo (.inl (by simpa using h))
          · rw [hnode]
            exact isLastMemoryNode_last hdir hpos
          · by_contra h
            exact hgo (.inr (.inr h))
        · obtain ⟨m, rfl⟩ := Nat.exists_eq_succ_of_ne_zero hzero
          rw [stretch_succ]
          rfl
        · rw [visited_turn hdir hnode hnew htype hpos, Nat.mod_eq_of_lt (by omega)]
        · rcases hdir with hdir | hdir
          · rw [hdir]
            show 0 ≠ g.size - 1 - 1
            omega
          · rw [hdir]
            show g.size - 1 - 0 ≠ 1
            omega

/-- The lookup ends, and with enough fuel it is always the same. -/
theorem lookUpNodes_cases (random : Nat → Nat)
    (htype : g.pathType = .loop ∨ g.pathType = .once ∨ g.pathType = .roundTrip)
    (hdir : g.direction.Along) (hlt : g.currentNode < g.size) (hnew : g.finalized = false)
    (hdelay : g.delayOf g.currentNode = 0) :
    ∃ nodes cyclic, (∀ fuel, g.size < fuel →
        g.lookUpNodes random (g.moveTypeOf g.currentNode) fuel g.currentNode =
          some (nodes, cyclic)) ∧
      ((¬ g.Crosses ∧ g.Follows random (g.currentNode :: nodes)) ∨
        (g.Crosses ∧ g.Leaves random (g.currentNode :: nodes))) := by
  have hfuel {r : List Nat × Bool}
      (h : g.lookUpNodes random (g.moveTypeOf g.currentNode) (g.size + 1) g.currentNode = some r)
      (fuel : Nat) (hfuel : g.size < fuel) :
      g.lookUpNodes random (g.moveTypeOf g.currentNode) fuel g.currentNode = some r := by
    obtain ⟨d, rfl⟩ := Nat.exists_eq_add_of_le hfuel
    clear hfuel
    induction d with
    | zero => exact h
    | succ d ih => exact lookUpNodes_succ ih
  obtain ⟨i, hi, hnode⟩ := exists_nodeAt hdir hlt
  rcases Nat.lt_or_ge (i + 1) g.size with hin | hend
  · obtain ⟨m, c, hlook, hm⟩ := lookUpNodes_inside random (g.moveTypeOf g.currentNode) hdir hin
      (show g.size ≤ g.size + 1 + i by omega)
    rw [hnode] at hlook
    refine ⟨_, c, hfuel hlook, .inl ⟨fun hcrosses => ?_, follows_inside hdir hnode.symm hnew hm⟩⟩
    have hlast := hcrosses.last
    rw [← hnode, isLastMemoryNode_nodeAt hdir hi, decide_eq_true_iff] at hlast
    omega
  · have hi' : i = g.size - 1 := by omega
    rw [hi'] at hnode
    have hpos : 0 < g.size := Nat.zero_lt_of_lt hlt
    obtain ⟨m, c, hlook, hm, hstops⟩ := lookUpNodes_last random
      (g.moveTypeOf g.currentNode) hdir hpos (Nat.lt_succ_self g.size)
    rw [hnode] at hlook
    exact ⟨_, c, hfuel hlook, follows_last htype hdir hnode.symm hnew hpos hdelay hm hstops⟩

theorem startMove_cases (random : Nat → Nat) (g : WaypointMovementGenerator)
    (htype : g.pathType = .loop ∨ g.pathType = .once ∨ g.pathType = .roundTrip)
    (hdir : g.direction.Along) :
    ∃ nodes cyclic, (∀ fuel, g.size < fuel → g.startMove random fuel = some (nodes, cyclic)) ∧
      ((¬ g.Crosses ∧ g.Follows random nodes) ∨ (g.Crosses ∧ g.Leaves random nodes)) := by
  have hrandom : g.direction ≠ .random := by
    rcases hdir with hdir | hdir <;> rw [hdir] <;> exact fun h => by cases h
  by_cases hstart : (g.path.nodes.isEmpty || g.finalized || decide (g.size ≤ g.currentNode)) = true
  · refine ⟨[], false, fun fuel _ => ?_, .inl ⟨fun hcrosses => ?_, follows_nil⟩⟩
    · rw [startMove, if_pos hstart]
    · rw [Bool.or_eq_true, Bool.or_eq_true, List.isEmpty_iff, decide_eq_true_iff] at hstart
      have hsize := hcrosses.size
      rcases hstart with (hempty | hdone) | hout
      · rw [size, hempty] at hsize
        exact absurd hsize (by decide)
      · rw [hcrosses.underway] at hdone
        cases hdone
      · have hlast := hcrosses.last
        rcases hdir with hdir | hdir
        · rw [isLastMemoryNode, hdir] at hlast
          have hnode : g.currentNode = g.size - 1 := of_decide_eq_true hlast
          omega
        · rw [isLastMemoryNode, hdir] at hlast
          have hnode : g.currentNode = 0 := of_decide_eq_true hlast
          omega
  · have hgo : g.finalized = false ∧ g.currentNode < g.size := by
      rw [Bool.or_eq_true, Bool.or_eq_true, not_or, not_or, decide_eq_true_iff] at hstart
      exact ⟨by simpa using hstart.1.2, Nat.not_le.1 hstart.2⟩
    have hplan (fuel : Nat) : g.startMove random fuel =
        if g.delayOf g.currentNode ≠ 0 then some ([g.currentNode], false)
        else
          (g.lookUpNodes random (g.moveTypeOf g.currentNode) fuel g.currentNode).map fun r =>
            (g.currentNode :: r.1, r.2) := by
      rw [startMove, if_neg hstart]
      rcases htype with htype | htype | htype
      · rw [htype]
        exact if_pos hrandom
      · rw [htype]
        exact if_pos hrandom
      · rw [htype]
        exact if_pos hrandom
    by_cases hdelay : g.delayOf g.currentNode = 0
    · obtain ⟨nodes, cyclic, hlook, hboth⟩ :=
        lookUpNodes_cases random htype hdir hgo.2 hgo.1 hdelay
      refine ⟨_, cyclic, fun fuel hfuel => ?_, hboth⟩
      rw [hplan, if_neg (not_not.2 hdelay), hlook fuel hfuel]
      rfl
    · refine ⟨[g.currentNode], false, fun fuel _ => ?_,
        .inl ⟨fun hcrosses => hdelay hcrosses.delay, ?_⟩⟩
      · rw [hplan, if_pos hdelay]
      · exact (follows_cons hgo.1).2 fun k node hk => by cases hk

/-- The lookup for a spline comes to an end. The nodes it has found are those that are visited
one by one, and the generator takes each for reached when the creature is there, if and only
if it is not a round trip that crosses from one end to the other. -/
theorem startMove_follows_iff (random : Nat → Nat) (g : WaypointMovementGenerator)
    (htype : g.pathType = .loop ∨ g.pathType = .once ∨ g.pathType = .roundTrip)
    (hdir : g.direction = .normal ∨ g.direction = .reverse) :
    ∃ nodes cyclic, (∀ fuel, g.size < fuel → g.startMove random fuel = some (nodes, cyclic)) ∧
      ((∀ k node, nodes[k]? = some node → g.visited random k = some node) ↔ ¬ g.Crosses) ∧
      ((∀ k node, nodes[k]? = some node → g.believed random k = node) ↔ ¬ g.Crosses) := by
  obtain ⟨nodes, cyclic, hplan, hboth⟩ := startMove_cases random g htype hdir
  refine ⟨nodes, cyclic, hplan, ?_⟩
  rcases hboth with ⟨hnot, hfollows⟩ | ⟨hcrosses, k, node, node', hk, hvisited, hne⟩
  · exact ⟨iff_of_true hfollows hnot,
      iff_of_true (fun k node hk => believed_of_visited (hfollows k node hk)) hnot⟩
  · refine ⟨iff_of_false (fun hall => hne ?_) (not_not.2 hcrosses),
      iff_of_false (fun hall => hne ?_) (not_not.2 hcrosses)⟩
    · exact Option.some.inj ((hall k node hk).symm.trans hvisited)
    · exact (hall k node hk).symm.trans (believed_of_visited hvisited)

/-- On its way to a node of a path of three, smoothly. -/
def threeNodes (pathType : WaypointPathType) (currentNode : Nat) : WaypointMovementGenerator :=
  ⟨none, ⟨[⟨0, 0⟩, ⟨0, 0⟩, ⟨0, 0⟩], 0, 0⟩, pathType, .normal, currentNode, true, false⟩

theorem loop_is_followed :
    ∃ nodes cyclic, (∀ fuel, 3 < fuel →
        (threeNodes .loop 2).startMove id fuel = some (nodes, cyclic)) ∧
      ∀ k node, nodes[k]? = some node → (threeNodes .loop 2).visited id k = some node := by
  obtain ⟨nodes, cyclic, hplan, hiff, -⟩ :=
    startMove_follows_iff id (threeNodes .loop 2) (.inl rfl) (.inl rfl)
  refine ⟨nodes, cyclic, hplan, hiff.2 fun hcrosses => ?_⟩
  cases hcrosses.type

/-- A round trip at the last of three nodes: the spline goes on to the first, but the second
is visited next. -/
theorem spline_crosses :
    (threeNodes .roundTrip 2).startMove id 9 = some ([2, 0, 1, 2], false) ∧
      (threeNodes .roundTrip 2).visited id 1 = some 1 ∧
      (threeNodes .roundTrip 2).believed id 1 = 1 := by
  decide

end WaypointMovementGenerator

end Sunstrider.Movement
