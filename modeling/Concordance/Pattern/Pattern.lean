import Concordance.Pattern.CharacterSet

/-!
# Patterns

A pattern describes runs of characters. Of the runs that start at one place, the
pattern prefers some to others: the first alternative to the second, and many
repetitions to few, or few to many where the repetition is lazy. `ends` lists the
places where a match may end in this order of preference; each place is given by
the characters behind it. A repetition goes on only from places that it has not
gone on from before.

`matchesOf` finds the preferred match at the first place that has one, and goes on
behind it. A match directly behind another one must not be empty.
-/

namespace Concordance

/-- A pattern for runs of characters. -/
inductive Pattern where
  /-- The empty run. -/
  | empty
  /-- One character of a set. -/
  | one (set : CharacterSet)
  /-- One pattern after another. -/
  | both (first second : Pattern)
  /-- Either of two patterns, rather the first. -/
  | either (first second : Pattern)
  /-- The pattern or the empty run. -/
  | optional (inner : Pattern) (greedy : Bool)
  /-- The pattern once or several times. -/
  | repeated (inner : Pattern) (greedy : Bool)
deriving Repr

namespace Pattern

/-- The pattern any number of times. -/
def many (inner : Pattern) (greedy : Bool) : Pattern :=
  optional (repeated inner greedy) greedy

/-- The pattern `count` times. -/
def times (inner : Pattern) : (count : Nat) → Pattern
  | 0 => empty
  | 1 => inner
  | count + 1 => both inner (times inner count)

/-- The pattern at most `count` times. -/
def atMost (inner : Pattern) (greedy : Bool) : (count : Nat) → Pattern
  | 0 => empty
  | count + 1 => optional (both inner (atMost inner greedy count)) greedy

/-- Keep the first of several equally long suffixes of one text. The lengths already seen are the
set bits of `seen`. -/
def distinct (seen : Nat) : List (List Char) → List (List Char)
  | [] => []
  | suffix :: rest =>
      if seen.testBit suffix.length then distinct seen rest
      else suffix :: distinct (seen ||| 1 <<< suffix.length) rest

/-- The ends of a repetition that starts at `chars`, and the places it has gone on from. -/
def repeatEnds (step : List Char → List (List Char)) (greedy : Bool) (chars : List Char)
    (seen : Nat) : List (List Char) × Nat :=
  (step chars).foldl
    (fun (found, seen) suffix =>
      if _shorter : suffix.length < chars.length then
        if seen.testBit suffix.length then (found ++ [suffix], seen)
        else
          let (later, seen) := repeatEnds step greedy suffix (seen ||| 1 <<< suffix.length)
          (found ++ (if greedy then later ++ [suffix] else suffix :: later), seen)
      else (found ++ [suffix], seen))
    ([], seen)
termination_by chars.length

/-- The places where a match of the pattern that starts at `chars` may end, the preferred one
first. -/
def ends : Pattern → (chars : List Char) → List (List Char)
  | empty, chars => [chars]
  | one _, [] => []
  | one set, c :: rest => if set.contains c then [rest] else []
  | both first second, chars => distinct 0 ((ends first chars).flatMap (ends second))
  | either first second, chars => distinct 0 (ends first chars ++ ends second chars)
  | optional inner greedy, chars =>
      distinct 0 (if greedy then ends inner chars ++ [chars] else chars :: ends inner chars)
  | repeated inner greedy, chars => distinct 0 (repeatEnds (ends inner) greedy chars 0).1

/-- The matches from `chars` on. `behindMatch` says whether a match ends there. -/
def matchesFrom (pattern : Pattern) (behindMatch : Bool) (chars : List Char) : List (List Char) :=
  let preferred := (ends pattern chars).head?
  let usable := preferred.filter fun suffix =>
    suffix.length < chars.length || (suffix.length = chars.length && !behindMatch)
  match _found : usable with
  | some suffix => chars.take (chars.length - suffix.length) :: matchesFrom pattern true suffix
  | none =>
      match chars with
      | [] => []
      | _ :: rest => matchesFrom pattern false rest
termination_by (chars.length, if behindMatch then 0 else 1)
decreasing_by
  · simp only [usable, Option.filter_eq_some_iff, Bool.or_eq_true, Bool.and_eq_true,
      decide_eq_true_eq, Bool.not_eq_true'] at _found
    rcases _found.2 with shorter | ⟨same, fresh⟩
    · exact Prod.Lex.left _ _ shorter
    · rw [same, fresh]
      exact Prod.Lex.right _ (by simp)
  · exact Prod.Lex.left _ _ (by simp)

/-- The matches of a pattern in a text, from left to right. -/
def matchesOf (pattern : Pattern) (text : String) : List String :=
  (matchesFrom pattern false text.toList).map String.ofList

end Pattern

end Concordance
