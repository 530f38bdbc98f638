import Concordance.Ranking.TermScorer

/-!
# Turns

The parts of a disjunction take turns. The turns wait in a binary heap: the one at
place `i` is the parent of those at `2 * i + 1` and `2 * i + 2`, and comes before
them, so the turn at place 0 is the first one. A new turn is put behind all others
and rises to its place. When the first turn is taken, the last one goes to the top,
sinks to the bottom, each time past the child that comes first, and rises from there.
-/

namespace Concordance

/-- The turn of a part of a disjunction: where the part stands, and its index. -/
structure Turn where
  place : DocumentId
  index : Nat
deriving DecidableEq, Repr

/-- Turns come in the order of places, and at one place in that of indices. -/
def Turn.before (first second : Turn) : Bool :=
  first.place < second.place || (first.place == second.place && first.index < second.index)

/-- The turns of the parts of a disjunction, as a binary heap. -/
abbrev TurnQueue := Array Turn

namespace TurnQueue

/-- Let the turn at a place rise above the parents that it comes before. -/
def rise (queue : TurnQueue) (place : Nat) (h : place < queue.size) : TurnQueue :=
  if hroot : place = 0 then queue
  else if queue[place].before queue[(place - 1) / 2] then
    rise (queue.swap place ((place - 1) / 2)) ((place - 1) / 2) (by rw [Array.size_swap]; omega)
  else queue
termination_by place

/-- Let the turn at a place sink to the bottom, past the child that comes first each time, and rise
from there. -/
def sink (queue : TurnQueue) (place : Nat) (h : place < queue.size) : TurnQueue :=
  if hboth : 2 * place + 2 < queue.size then
    if queue[2 * place + 1].before queue[2 * place + 2] then
      sink (queue.swap place (2 * place + 1)) (2 * place + 1) (by rw [Array.size_swap]; omega)
    else sink (queue.swap place (2 * place + 2)) (2 * place + 2) (by rwa [Array.size_swap])
  else if hleft : 2 * place + 1 < queue.size then
    rise (queue.swap place (2 * place + 1)) (2 * place + 1) (by rwa [Array.size_swap])
  else rise queue place h
termination_by queue.size - place
decreasing_by
  · rw [Array.size_swap]
    omega
  · rw [Array.size_swap]
    omega

/-- Put a turn into the queue. -/
def put (queue : TurnQueue) (turn : Turn) : TurnQueue :=
  rise (queue.push turn) queue.size (by rw [Array.size_push]; omega)

/-- Take the first turn out of the queue. -/
def takeFirst (queue : TurnQueue) : TurnQueue :=
  if h : 1 < queue.size then
    sink (queue.pop.set 0 queue[queue.size - 1] (by rw [Array.size_pop]; omega)) 0
      (by rw [Array.size_set, Array.size_pop]; omega)
  else #[]

/-! ## What is in a queue -/

/-- Rising leaves the same turns in the queue. -/
theorem rise_perm (queue : TurnQueue) (place : Nat) (h : place < queue.size) :
    (rise queue place h).toList.Perm queue.toList := by
  fun_induction rise queue place h with
  | case1 => exact List.Perm.refl _
  | case2 queue place h hroot _ ih => exact ih.trans (Array.swap_perm h _).toList
  | case3 => exact List.Perm.refl _

/-- Sinking leaves the same turns in the queue. -/
theorem sink_perm (queue : TurnQueue) (place : Nat) (h : place < queue.size) :
    (sink queue place h).toList.Perm queue.toList := by
  fun_induction sink queue place h with
  | case1 queue place h hboth _ ih => exact ih.trans (Array.swap_perm h _).toList
  | case2 queue place h hboth _ ih => exact ih.trans (Array.swap_perm h _).toList
  | case3 queue place h _ hleft => exact (rise_perm _ _ _).trans (Array.swap_perm h _).toList
  | case4 => exact rise_perm _ _ _

/-- A turn that is put into a queue joins the others. -/
theorem put_perm (queue : TurnQueue) (turn : Turn) :
    (queue.put turn).toList.Perm (turn :: queue.toList) := by
  refine (rise_perm _ _ _).trans ?_
  rw [Array.toList_push]
  exact List.perm_append_singleton _ _

/-- Only the first turn is taken out of a queue. -/
theorem perm_takeFirst {queue : TurnQueue} {turn : Turn} (h : queue[0]? = some turn) :
    queue.toList.Perm (turn :: queue.takeFirst.toList) := by
  obtain ⟨turns⟩ := queue
  cases turns with
  | nil => cases h
  | cons first rest =>
      obtain rfl : first = turn := Option.some.inj h
      refine List.Perm.cons first ?_
      rcases List.eq_nil_or_concat rest with rfl | ⟨middle, last, rfl⟩
      · exact List.Perm.refl _
      · -- the last turn goes to the top, and those between keep their places
        rw [takeFirst, dif_pos (by simp)]
        refine List.Perm.trans ?_ (sink_perm _ _ _).symm
        have hdrop : (first :: (middle ++ [last])).dropLast = first :: middle :=
          @List.dropLast_concat _ (first :: middle) last
        simp [hdrop]

end TurnQueue

end Concordance
