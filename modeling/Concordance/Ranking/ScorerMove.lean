import Concordance.Ranking.Scorer

/-!
# Moves of scorers

How scorers move to their next match, and to their first match from some document
on. A conjunction brings its parts to a common document. The parts of a disjunction
take turns, and it stands where the part whose turn comes first stands. An exclusion
moves past the documents that the excluded scorer also reaches. A preference moves
with its required scorer alone.

`Selection.scorer` is the scorer of a selection before its first move.
-/

namespace Concordance

/-- The moves of a scorer. -/
inductive ScorerMove where
  /-- To the next match. -/
  | next
  /-- To the first match from a document on. -/
  | advance (target : DocumentId)
deriving DecidableEq, Repr

namespace Scorer

/-- Move the parts of a conjunction one after another, until one of them finds no further match.
Yields the farthest place reached, and at least `farthest`, or nothing if a part is at its end. -/
def moveAll (move : Scorer → Scorer) (farthest : DocumentId) :
    (parts : List Scorer) → List Scorer × Option DocumentId
  | [] => ([], some farthest)
  | part :: rest =>
      let moved := move part
      if moved.place = noMore then (moved :: rest, none)
      else
        let (others, reached) := moveAll move (max farthest moved.place) rest
        (moved :: others, reached)

/-- Bring the parts of a conjunction to a common document from `target` on. The part at `index` is
looked at next, and `unchecked` parts are not known to stand at `target` yet. A part that moves
beyond `target` sets a new one, to which all others have to be brought. -/
def align (advance : DocumentId → Scorer → Scorer) (parts : List Scorer) (target : DocumentId)
    (index : Nat) : (unchecked : Nat) → List Scorer × DocumentId
  | 0 => (parts, target)
  | unchecked + 1 =>
      match parts[index]? with
      | none => (parts, noMore)
      | some part =>
          let moved := if isBefore part.document target then advance target part else part
          let parts := parts.set index moved
          if moved.place = noMore then (parts, noMore)
          else if hbeyond : target < moved.place then
            align advance parts moved.place ((index + 1) % parts.length) (parts.length - 1)
          else align advance parts target ((index + 1) % parts.length) unchecked
termination_by unchecked => (0x100000000 - target.toNat, unchecked)
decreasing_by
  · apply Prod.Lex.left
    change 0x100000000 - moved.place.toNat < _
    have := UInt32.toNat_lt moved.place
    have := UInt32.lt_iff_toNat_lt.1 hbeyond
    omega
  · exact Prod.Lex.right _ (by omega)

/-- A conjunction whose parts have been moved: brought into line, or at its end. -/
def settleBoth (advance : DocumentId → Scorer → Scorer) (parts : List Scorer)
    (reached : Option DocumentId) : Scorer :=
  match reached with
  | none => both parts (some noMore)
  | some target =>
      if parts.isEmpty then both parts (some noMore)
      else
        let (parts, place) := align advance parts target 0 parts.length
        both parts (some place)

/-- Move a conjunction to its next match. -/
def nextBoth (next : Scorer → Scorer) (advance : DocumentId → Scorer → Scorer)
    (parts : List Scorer) (current : Option DocumentId) : Scorer :=
  match current with
  | none =>
      let (parts, reached) := moveAll next 0 parts
      settleBoth advance parts reached
  | some place =>
      if place = noMore then both parts current
      else
        match parts with
        | [] => both [] (some noMore)
        | first :: rest =>
            let moved := next first
            settleBoth advance (moved :: rest)
              (if moved.place = noMore then none else some moved.place)

/-- Move a conjunction to its first match from `target` on. -/
def advanceBoth (advance : DocumentId → Scorer → Scorer) (target : DocumentId)
    (parts : List Scorer) : Scorer :=
  let (parts, reached) := moveAll (advance target) target parts
  settleBoth advance parts reached

/-- Give a part that stands at a place its turn, unless it is at its end. -/
def enqueue (place : DocumentId) (index : Nat) (queue : TurnQueue) : TurnQueue :=
  if place = noMore then queue else queue.put ⟨place, index⟩

/-- The turns of the parts from an index on, together with those of a queue. -/
def turnsFrom (queue : TurnQueue) (index : Nat) : (parts : List Scorer) → TurnQueue
  | [] => queue
  | part :: rest => turnsFrom (enqueue part.place index queue) (index + 1) rest

/-- A turn that is not due does not count as one. -/
theorem countP_enqueue {due : DocumentId → Bool} {place : DocumentId} (h : ¬ due place = true)
    (index : Nat) (queue : TurnQueue) :
    (enqueue place index queue).toList.countP (fun turn => due turn.place) =
      queue.toList.countP fun turn => due turn.place := by
  rw [enqueue]
  split
  · rfl
  · rw [(queue.put_perm _).countP_eq]
    exact List.countP_cons_of_neg h

/-- A disjunction whose parts have been moved stands where the part whose turn is the first one
stands. -/
def settleAny (parts : List Scorer) (queue : TurnQueue) : Scorer :=
  any parts queue (some ((queue[0]?.map Turn.place).getD noMore))

/-- Move the parts whose turns are due as long as the first turn is. A move takes a part beyond the
places that are due. -/
def takeTurns (due : DocumentId → Bool) (move : Scorer → Scorer) (parts : List Scorer)
    (queue : TurnQueue) : List Scorer × TurnQueue :=
  match _ : queue[0]? with
  | none => (parts, queue)
  | some turn =>
      if due turn.place then
        match parts[turn.index]? with
        | none => (parts, queue)
        | some part =>
            let moved := move part
            let parts := parts.set turn.index moved
            let queue := enqueue moved.place turn.index queue.takeFirst
            if due moved.place then (parts, queue) else takeTurns due move parts queue
      else (parts, queue)
termination_by queue.toList.countP fun turn => due turn.place
decreasing_by
  rename_i hfirst hdue hmoved
  rw [countP_enqueue hmoved, (TurnQueue.perm_takeFirst hfirst).countP_eq,
    List.countP_cons_of_pos (by exact hdue)]
  exact Nat.lt_succ_self _

/-- Move a disjunction to its next match: the parts at its current document leave it. -/
def nextAny (next : Scorer → Scorer) (parts : List Scorer) (queue : TurnQueue)
    (current : Option DocumentId) : Scorer :=
  match current with
  | none => settleAny parts queue
  | some place =>
      if place = noMore then any parts queue current
      else
        let (parts, queue) := takeTurns (· = place) next parts queue
        settleAny parts queue

/-- Move a disjunction to its first match from `target` on: the parts before it move there. -/
def advanceAny (advance : DocumentId → Scorer → Scorer) (target : DocumentId)
    (parts : List Scorer) (queue : TurnQueue) : Scorer :=
  let (parts, queue) := takeTurns (· < target) (advance target) parts queue
  settleAny parts queue

/-- Leave behind the documents that are excluded, from the place of the required scorer on. -/
def skipExcluded (next : Scorer → Scorer) (advance : DocumentId → Scorer → Scorer)
    (required excluded : Scorer) : Scorer :=
  if required.place = noMore then without required excluded (some noMore)
  else
    let moved := advance required.place excluded
    if moved.place = required.place then
      let later := next required
      if _ : required.place < later.place then skipExcluded next advance later moved
      else without later moved (some later.place)
    else without required moved (some required.place)
termination_by 0x100000000 - required.place.toNat
decreasing_by
  change 0x100000000 - later.place.toNat < _
  have := UInt32.toNat_lt later.place
  have := UInt32.lt_iff_toNat_lt.1 (by assumption : required.place < later.place)
  omega

/-- The match after a place among the documents below a limit. -/
def nextBelow (limit : DocumentId) (current : Option DocumentId) : DocumentId :=
  let target :=
    match current with
    | none => 0
    | some place => if place = noMore then noMore else place + 1
  if limit ≤ target then noMore else target

/-- Carry out a move of a scorer whose height is at most `height`. -/
def moveWithin : (height : Nat) → ScorerMove → Scorer → Scorer
  | height, .next, scorer =>
      match height, scorer with
      | _, term scorer => term scorer.next
      | _, all limit current => all limit (some (nextBelow limit current))
      | height + 1, both parts current =>
          nextBoth (moveWithin height .next) (fun target => moveWithin height (.advance target))
            parts current
      | height + 1, any parts queue current =>
          nextAny (moveWithin height .next) parts queue current
      | height + 1, without required excluded _ =>
          skipExcluded (moveWithin height .next)
            (fun target => moveWithin height (.advance target))
            (moveWithin height .next required) excluded
      | height + 1, preferring required optional =>
          preferring (moveWithin height .next required) optional
      | 0, scorer => scorer
  | height, .advance target, scorer =>
      if isBefore scorer.document target then
        match height, scorer with
        | _, term scorer => term (scorer.seek target)
        | _, all limit _ => all limit (some (if limit ≤ target then noMore else target))
        | height + 1, both parts _ =>
            advanceBoth (fun target => moveWithin height (.advance target)) target parts
        | height + 1, any parts queue _ =>
            advanceAny (fun target => moveWithin height (.advance target)) target parts queue
        | height + 1, without required excluded _ =>
            skipExcluded (moveWithin height .next)
              (fun target => moveWithin height (.advance target))
              (moveWithin height (.advance target) required) excluded
        | height + 1, preferring required optional =>
            preferring (moveWithin height (.advance target) required) optional
        | 0, scorer => scorer
      else scorer

/-- Carry out a move. -/
def move (scorer : Scorer) (move : ScorerMove) : Scorer :=
  moveWithin scorer.height move scorer

/-- Move to the next match. -/
def next (scorer : Scorer) : Scorer :=
  scorer.move .next

/-- Move to the first match from a document on. -/
def advance (scorer : Scorer) (target : DocumentId) : Scorer :=
  scorer.move (.advance target)

/-- A disjunction before its first move. Its parts have made theirs already. -/
def disjunction (parts : List Scorer) : Scorer :=
  let moved := parts.map next
  any moved (turnsFrom #[] 0 moved) none

end Scorer

namespace Selection

mutual

/-- The scorer of a selection, before its first move. -/
def scorer : Selection → Scorer
  | term list => .term { ahead := list.words, weight := list.weight, lengths := list.lengths }
  | all limit => .all limit none
  | both parts => .both (scorers parts) none
  | any parts => .disjunction (scorers parts)
  | without required excluded => .without required.scorer excluded.scorer none
  | preferring required optional => .preferring required.scorer optional.scorer

/-- The scorers of selections. -/
def scorers : List Selection → List Scorer
  | [] => []
  | first :: rest => first.scorer :: scorers rest

end

end Selection

end Concordance
