import Concordance.Proofs.Intersection.Shift
import Concordance.Searching.Phrase

/-!
# Chains of segments

Segments are chained at an address if each of them has the address at which the ones before it
end. `chain_ends` shows that chaining finds exactly these places, whichever neighbours it begins
with and to whichever side it goes on. A segment is only moved over a range that occurs somewhere,
so `Roomy` does not ask for more room than that. `chain_exact` tells the places by their distances
from the last segment, for lists with room for all of these distances; distances of 2 ^ 32 tokens
and more are mistaken (`chain_exact_overflow`).
-/

namespace Concordance

/-- The number of tokens of some segments. -/
def Segment.span (segments : List Segment) : Nat :=
  (segments.map Segment.length).sum

/-- Each segment has the address at which the segments before it end. -/
def Chained : List Segment → Nat → Prop
  | [], _ => True
  | segment :: rest, x => x ∈ segment.words.addresses ∧ Chained rest (x + segment.length)

/-- The list has the addresses of the last segment in the places where all are chained. -/
structure Ends (segments : List Segment) (words : Postings) : Prop where
  canonical : words.Canonical
  mem_iff : ∀ y, y ∈ words.addresses ↔
    ∃ x, Chained segments x ∧ y = x + Segment.span segments.dropLast

/-- The words of a list can be moved by a number of tokens: it has no more than 32 bits, and no
addition overflows. -/
def Movable (length : Nat) (words : Postings) : Prop :=
  length < 2 ^ 32 ∧ Offset.Fits length.toUInt32 words

/-- Whether a list can be moved can be checked. -/
instance (length : Nat) (words : Postings) : Decidable (Movable length words) :=
  inferInstanceAs (Decidable (length < 2 ^ 32 ∧ Offset.Fits length.toUInt32 words))

namespace Offset.Fits

variable {length : UInt32} {words : Postings}

/-- An address of a list that fits leaves room for the offset and a carry. -/
theorem address_lt (h : Fits length words) {x : Nat} (hx : x ∈ words.addresses) :
    x / 16 + length.toNat / 16 + 1 < 2 ^ 48 := by
  obtain ⟨word, hword, hmem⟩ := Postings.mem_addresses.1 hx
  have hslot := (Word.mem_addresses.1 hmem).1
  have hlt := h.slot_lt hword
  omega

/-- Without empty bitmaps, it can be told from the addresses whether a list fits. -/
theorem of_addresses (hfull : words.Full)
    (h : ∀ x ∈ words.addresses, x / 16 + length.toNat / 16 + 1 < 2 ^ 48) : Fits length words := by
  intro word hword
  obtain ⟨x, hx⟩ := Word.bitmap_ne_zero_iff.1 (hfull word hword)
  have hslot := (Word.mem_addresses.1 hx).1
  have hlt := h x (Postings.mem_addresses.2 ⟨word, hword, hx⟩)
  have heq := word.toNat_eq_slot
  omega

end Offset.Fits

/-- Every segment but the last can be moved by its own length, and over a range of segments behind
it that are chained somewhere. -/
structure Roomy (segments : List Segment) : Prop where
  own : ∀ segment ∈ segments.dropLast, Movable segment.length segment.words
  beyond : ∀ front left covered last back, segments = front ++ left :: (covered ++ last :: back) →
    (∃ x, Chained (covered ++ [last]) x) → Movable (Segment.span (left :: covered)) left.words

namespace Segment

/-- No segments have no tokens. -/
@[simp] theorem span_nil : span [] = 0 := rfl

/-- The tokens of the first segment count, and those of the others. -/
@[simp] theorem span_cons (segment : Segment) (rest : List Segment) :
    span (segment :: rest) = segment.length + span rest :=
  List.sum_cons

/-- The tokens of two rows of segments add up. -/
@[simp] theorem span_append (first second : List Segment) :
    span (first ++ second) = span first + span second := by
  rw [span, List.map_append, List.sum_append]
  rfl

/-- A segment with another one behind it is not the last. -/
theorem mem_dropLast {front back : List Segment} {segment next : Segment} :
    segment ∈ (front ++ segment :: next :: back).dropLast := by
  rw [List.dropLast_append_cons, List.dropLast_cons_cons]
  exact List.mem_append_right _ List.mem_cons_self

end Segment

/-! ## Ranges -/

section Ranges

variable {segments first second covered : List Segment} {last segment : Segment} {x : Nat}

/-- A row of no segments is chained at any address. -/
@[simp] theorem chained_nil : Chained [] x := trivial

/-- The first segment is chained where it stands if the others are chained where it ends. -/
@[simp] theorem chained_cons :
    Chained (segment :: segments) x ↔
      x ∈ segment.words.addresses ∧ Chained segments (x + segment.length) :=
  Iff.rfl

/-- Two rows of segments are chained if the second one is chained where the first one ends. -/
theorem chained_append :
    Chained (first ++ second) x ↔ Chained first x ∧ Chained second (x + Segment.span first) := by
  induction first generalizing x with
  | nil => simp
  | cons segment rest ih =>
      rw [List.cons_append, chained_cons, chained_cons, ih, Segment.span_cons, and_assoc,
        Nat.add_assoc]

/-- A segment by itself is chained at its addresses. -/
theorem ends_singleton (h : segment.words.Canonical) : Ends [segment] segment.words := by
  refine ⟨h, fun y => ?_⟩
  simp [Chained]

/-- What is left are addresses of the last segment. -/
theorem Ends.mem_last {words : Postings} (h : Ends segments words) (hne : segments ≠ []) {y : Nat}
    (hy : y ∈ words.addresses) : y ∈ (segments.getLast hne).words.addresses := by
  obtain ⟨x, hchained, rfl⟩ := (h.mem_iff y).1 hy
  rw [← List.dropLast_concat_getLast hne] at hchained
  exact (chained_append.1 hchained).2.1

/-- If nothing is left of a range, nothing is left of more segments. -/
theorem Ends.of_isEmpty {words : Postings} {front back : List Segment}
    (h : Ends (covered ++ [last]) words) (hempty : words.isEmpty = true) :
    Ends (front ++ (covered ++ last :: back)) words := by
  obtain rfl := List.isEmpty_iff.1 hempty
  refine ⟨Postings.Canonical.nil, fun y => ⟨fun hy => ?_, ?_⟩⟩
  · cases hy
  · intro hfound
    obtain ⟨x, hchained, -⟩ := hfound
    rw [List.append_cons covered last back] at hchained
    have hrange := (chained_append.1 (chained_append.1 hchained).2).1
    have hmem := (h.mem_iff _).2 ⟨_, hrange, rfl⟩
    cases hmem

/-- A list with words has a place at which the segments are chained. -/
theorem Ends.exists_chained {words : Postings} (h : Ends covered words) (hne : words ≠ []) :
    ∃ x, Chained covered x := by
  obtain ⟨y, hy⟩ := h.canonical.full.exists_mem hne
  obtain ⟨x, hchained, -⟩ := (h.mem_iff y).1 hy
  exact ⟨x, hchained⟩

end Ranges

/-! ## Growing -/

namespace Ends

variable {covered : List Segment} {left last right : Segment} {words : Postings}
  (preferred : Strategy)

/-- Going to the left. -/
theorem growLeft (h : Ends (covered ++ [last]) words) (hleft : left.words.Ascending)
    (hmovable : Movable (Segment.span (left :: covered)) left.words) :
    Ends (left :: covered ++ [last]) (Postings.intersect preferred left.words words
      (Segment.span (left :: covered)).toUInt32).value := by
  obtain ⟨hlt, hfits⟩ := hmovable
  have hnumber : (Segment.span (left :: covered)).toUInt32.toNat =
      left.length + Segment.span covered := by
    rw [← Segment.span_cons]
    exact Nat.mod_eq_of_lt hlt
  refine ⟨Postings.canonical_intersect preferred hleft h.canonical.ascending hfits, fun y => ?_⟩
  rw [Postings.mem_addresses_intersect preferred hleft h.canonical.ascending hfits, hnumber,
    h.mem_iff, List.dropLast_concat, List.dropLast_concat, Segment.span_cons]
  constructor
  · intro hfound
    obtain ⟨⟨start, hchained, hy⟩, x, hx, hsum⟩ := hfound
    have hstart : start = x + left.length := by omega
    subst hstart
    exact ⟨x, ⟨hx, hchained⟩, by omega⟩
  · intro hfound
    obtain ⟨x, ⟨hx, hchained⟩, hy⟩ := hfound
    exact ⟨⟨x + left.length, hchained, by omega⟩, x, hx, by omega⟩

/-- Going to the right. -/
theorem growRight (h : Ends (covered ++ [last]) words) (hright : right.words.Ascending)
    (hmovable : Movable last.length last.words) :
    Ends (covered ++ [last] ++ [right])
      (Postings.intersect preferred words right.words last.length.toUInt32).value := by
  obtain ⟨hlt, hlast⟩ := hmovable
  have hnumber : last.length.toUInt32.toNat = last.length := Nat.mod_eq_of_lt hlt
  have hends : ∀ y ∈ words.addresses, y ∈ last.words.addresses := by
    intro y hy
    obtain ⟨x, hchained, rfl⟩ := (h.mem_iff y).1 hy
    rw [List.dropLast_concat]
    exact (chained_append.1 hchained).2.1
  have hfits : Offset.Fits last.length.toUInt32 words :=
    .of_addresses h.canonical.full fun y hy => hlast.address_lt (hends y hy)
  refine ⟨Postings.canonical_intersect preferred h.canonical.ascending hright hfits, fun y => ?_⟩
  rw [Postings.mem_addresses_intersect preferred h.canonical.ascending hright hfits, hnumber,
    List.dropLast_concat, Segment.span_append, Segment.span_cons, Segment.span_nil]
  constructor
  · intro hfound
    obtain ⟨hy, z, hz, hsum⟩ := hfound
    obtain ⟨x, hchained, hxz⟩ := (h.mem_iff z).1 hz
    rw [List.dropLast_concat] at hxz
    have hsame : x + (Segment.span covered + last.length) = y := by omega
    refine ⟨x, chained_append.2 ⟨hchained, ?_, chained_nil⟩, by omega⟩
    rw [Segment.span_append, Segment.span_cons, Segment.span_nil, Nat.add_zero, hsame]
    exact hy
  · intro hfound
    obtain ⟨x, hchained, rfl⟩ := hfound
    obtain ⟨hcovered, hmem, -⟩ := chained_append.1 hchained
    rw [Segment.span_append, Segment.span_cons, Segment.span_nil] at hmem
    refine ⟨hmem, x + Segment.span covered, (h.mem_iff _).2 ⟨x, hcovered, ?_⟩, by omega⟩
    rw [List.dropLast_concat]

end Ends

/-! ## Beginning -/

namespace Neighbours

/-- Every pair of neighbours is given with all other segments. -/
theorem append_of_mem_allFrom {before segments : List Segment} {pair : Neighbours}
    (h : pair ∈ allFrom before segments) :
    pair.before.reverse ++ ([pair.left] ++ pair.right :: pair.after) =
      before.reverse ++ segments := by
  fun_induction allFrom before segments with
  | case1 before left right after ih =>
      rcases List.mem_cons.1 h with rfl | hlater
      · rfl
      · rw [ih hlater, List.reverse_cons, List.append_assoc, List.singleton_append]
  | case2 before segments hshort => cases h

/-- The best of some neighbours is one of them. -/
theorem foldl_better (first : Neighbours) (rest : List Neighbours) :
    ∃ pair ∈ first :: rest, rest.foldl better (some first) = some pair := by
  induction rest generalizing first with
  | nil => exact ⟨first, List.mem_cons_self, rfl⟩
  | cons second rest ih =>
      rw [List.foldl_cons, better]
      split
      · obtain ⟨pair, hpair, hbest⟩ := ih second
        exact ⟨pair, List.mem_cons_of_mem _ hpair, hbest⟩
      · obtain ⟨pair, hpair, hbest⟩ := ih first
        refine ⟨pair, ?_, hbest⟩
        rcases List.mem_cons.1 hpair with rfl | hlater
        · exact List.mem_cons_self
        · exact List.mem_cons_of_mem _ (List.mem_cons_of_mem _ hlater)

/-- Of two segments or more, some neighbours are the cheapest. -/
theorem cheapest?_eq_some {segments : List Segment} (h : 2 ≤ segments.length) :
    ∃ pair, cheapest? segments = some pair ∧
      pair.before.reverse ++ ([pair.left] ++ pair.right :: pair.after) = segments := by
  cases segments with
  | nil => simp at h
  | cons left rest =>
      cases rest with
      | nil => simp at h
      | cons right after =>
          obtain ⟨pair, hpair, hbest⟩ :=
            foldl_better ⟨[], left, right, after⟩ (allFrom [left] (right :: after))
          have hall : pair ∈ allFrom [] (left :: right :: after) := hpair
          exact ⟨pair, hbest, append_of_mem_allFrom hall⟩

end Neighbours

namespace Searcher

variable {searcher : Searcher} {before after covered segments : List Segment} {last : Segment}
  {result : Postings}

/-- One step to the left. -/
theorem intersect_left {left : Segment}
    (hascending : ∀ segment ∈ before.reverse ++ left :: (covered ++ last :: after),
      segment.words.Ascending)
    (hroomy : Roomy (before.reverse ++ left :: (covered ++ last :: after)))
    (h : Ends (covered ++ [last]) result) (hne : ¬ result.isEmpty = true) :
    Ends (left :: covered ++ [last]) (searcher.intersect left.words result
      (Segment.span covered + left.length).toUInt32).value := by
  have hchained := h.exists_chained fun hnil => hne (List.isEmpty_iff.2 hnil)
  have hmovable := hroomy.beyond before.reverse left covered last after rfl hchained
  have hleft : left.words.Ascending := hascending left (by simp)
  rw [Nat.add_comm, ← Segment.span_cons]
  exact h.growLeft _ hleft hmovable

/-- One step to the right. -/
theorem intersect_right {front : List Segment} {right : Segment}
    (hascending : ∀ segment ∈ front ++ (covered ++ last :: right :: after),
      segment.words.Ascending)
    (hroomy : Roomy (front ++ (covered ++ last :: right :: after)))
    (h : Ends (covered ++ [last]) result) :
    Ends (covered ++ [last] ++ [right])
      (searcher.intersect result right.words last.length.toUInt32).value := by
  rw [← List.append_assoc] at hroomy
  exact h.growRight _ (hascending right (by simp)) (hroomy.own last Segment.mem_dropLast)

/-- Growing leaves the ends of all segments, with those before the range and those after it. -/
theorem grow_ends
    (hascending : ∀ segment ∈ before.reverse ++ (covered ++ last :: after), segment.words.Ascending)
    (hroomy : Roomy (before.reverse ++ (covered ++ last :: after)))
    (h : Ends (covered ++ [last]) result) :
    Ends (before.reverse ++ (covered ++ last :: after))
      (searcher.grow result (Segment.span covered) last.length before after).value := by
  generalize hspan : Segment.span covered = span
  generalize hlength : last.length = length
  fun_induction Searcher.grow searcher result span length before after
    generalizing covered last with
  | case1 result span length => exact h
  | case2 result span length left before hempty => exact h.of_isEmpty hempty
  | case3 result span length left before hempty total =>
      rename_i ih
      subst hspan hlength
      rw [List.reverse_cons, List.append_assoc, List.singleton_append] at *
      have hnext := searcher.intersect_left hascending hroomy h hempty
      exact ih _ hascending hroomy hnext (Nat.add_comm _ _) rfl
  | case4 result span length right after hempty => exact h.of_isEmpty hempty
  | case5 result span length right after hempty ih =>
      subst hspan hlength
      have hnext := searcher.intersect_right hascending hroomy h
      rw [List.append_cons covered last] at hascending hroomy ⊢
      refine ih _ hascending hroomy hnext ?_ rfl
      rw [Segment.span_append, Segment.span_cons, Segment.span_nil, Nat.add_zero]
  | case6 result span length left before right after hempty => exact h.of_isEmpty hempty
  | case7 result span length left before right after hempty hshorter total =>
      rename_i ih
      subst hspan hlength
      rw [List.reverse_cons, List.append_assoc, List.singleton_append] at *
      have hnext := searcher.intersect_left hascending hroomy h hempty
      exact ih _ hascending hroomy hnext (Nat.add_comm _ _) rfl
  | case8 result span length left before right after hempty hshorter ih =>
      subst hspan hlength
      have hnext := searcher.intersect_right hascending hroomy h
      rw [List.append_cons covered last] at hascending hroomy ⊢
      refine ih _ hascending hroomy hnext ?_ rfl
      rw [Segment.span_append, Segment.span_cons, Segment.span_nil, Nat.add_zero]

/-- Chaining segments finds the ends of all of them, whichever neighbours are the cheapest. -/
theorem chain_ends (hascending : ∀ segment ∈ segments, segment.words.Ascending)
    (hroomy : Roomy segments) (htwo : 2 ≤ segments.length) :
    Ends segments (searcher.chain segments).value := by
  obtain ⟨⟨before, left, right, after⟩, hcheapest, hall⟩ := Neighbours.cheapest?_eq_some htwo
  simp only at hall
  subst hall
  have hleft := hascending left (by simp)
  have hright := hascending right (by simp)
  -- the two cheapest neighbours are intersected first, and their range grows from there
  obtain ⟨hlt, hfits⟩ := hroomy.own left Segment.mem_dropLast
  have hnumber : left.length.toUInt32.toNat = left.length := Nat.mod_eq_of_lt hlt
  have hpair : Ends ([left] ++ [right])
      (searcher.intersect left.words right.words left.length.toUInt32).value := by
    refine ⟨Postings.canonical_intersect _ hleft hright hfits, fun y => ?_⟩
    rw [intersect, Postings.mem_addresses_intersect _ hleft hright hfits, hnumber]
    constructor
    · intro h
      obtain ⟨hy, x, hx, rfl⟩ := h
      exact ⟨x, ⟨hx, hy, chained_nil⟩, rfl⟩
    · intro h
      obtain ⟨x, ⟨hx, hy, -⟩, rfl⟩ := h
      exact ⟨hy, x, hx, rfl⟩
  rw [chain, hcheapest]
  exact grow_ends hascending hroomy hpair

/-- A single segment is not chained to any other one. -/
theorem chain_singleton (segment : Segment) : (searcher.chain [segment]).value = segment.words :=
  rfl

/-- Chaining one segment or more finds the ends of all of them. -/
theorem chain_ends_of_canonical (hcanonical : ∀ segment ∈ segments, segment.words.Canonical)
    (hroomy : Roomy segments) (hne : segments ≠ []) :
    Ends segments (searcher.chain segments).value := by
  obtain ⟨segment, rest, rfl⟩ := List.exists_cons_of_ne_nil hne
  cases rest with
  | nil =>
      rw [chain_singleton]
      exact ends_singleton (hcanonical segment List.mem_cons_self)
  | cons other rest =>
      exact chain_ends (fun segment hsegment => (hcanonical segment hsegment).ascending) hroomy
        (Nat.le_add_left 2 rest.length)

end Searcher

/-! ## Distances from the last segment -/

section Distances

variable {segments : List Segment} {x y : Nat}

/-- Segments are chained at an address if each of them stands behind it by the length of those
before. -/
theorem chained_iff_getElem :
    Chained segments x ↔ ∀ i (h : i < segments.length),
      x + Segment.span (segments.take i) ∈ segments[i].words.addresses := by
  induction segments generalizing x with
  | nil => simp
  | cons segment rest ih =>
      rw [chained_cons, ih]
      constructor
      · intro h i hi
        cases i with
        | zero => exact h.1
        | succ i =>
            have hlater := h.2 i (Nat.lt_of_succ_lt_succ hi)
            rwa [Nat.add_assoc, ← Segment.span_cons] at hlater
      · intro h
        refine ⟨h 0 (Nat.zero_lt_succ _), fun i hi => ?_⟩
        have hlater := h (i + 1) (Nat.succ_lt_succ hi)
        rwa [List.take_succ_cons, Segment.span_cons, ← Nat.add_assoc] at hlater

/-- The segments before one of them, and those from it on without the last one, are all but the
last one. -/
theorem Segment.span_take_add_span_drop {i : Nat} (h : i < segments.length) :
    span (segments.take i) + span (segments.dropLast.drop i) = span segments.dropLast := by
  have htake : segments.take i = segments.dropLast.take i := by
    rw [List.dropLast_eq_take, List.take_take, Nat.min_eq_left (by omega)]
  rw [htake, ← span_append, List.take_append_drop]

/-- Where segments are chained, each of them stands before the last one by the length from its start
on. -/
theorem exists_chained_iff (hne : segments ≠ []) :
    (∃ x, Chained segments x ∧ y = x + Segment.span segments.dropLast) ↔
      ∀ i (h : i < segments.length), ∃ x ∈ segments[i].words.addresses,
        x + Segment.span (segments.dropLast.drop i) = y := by
  constructor
  · rintro ⟨x, hchained, rfl⟩ i hi
    refine ⟨_, chained_iff_getElem.1 hchained i hi, ?_⟩
    rw [Nat.add_assoc, Segment.span_take_add_span_drop hi]
  · intro h
    obtain ⟨x, -, hstart⟩ := h 0 (List.length_pos_iff.2 hne)
    rw [List.drop_zero] at hstart
    refine ⟨x, chained_iff_getElem.2 fun i hi => ?_, hstart.symm⟩
    obtain ⟨place, hplace, hbehind⟩ := h i hi
    have hsplit := Segment.span_take_add_span_drop hi
    have hsame : x + Segment.span (segments.take i) = place := by omega
    rwa [hsame]

/-- A list that can be moved can be moved by fewer tokens. -/
theorem Movable.mono {length shorter : Nat} {words : Postings} (h : Movable length words)
    (hle : shorter ≤ length) : Movable shorter words := by
  obtain ⟨hlt, hfits⟩ := h
  have hlt' : shorter < 2 ^ 32 := Nat.lt_of_le_of_lt hle hlt
  have hlength : length.toUInt32.toNat = length := Nat.mod_eq_of_lt hlt
  have hshorter : shorter.toUInt32.toNat = shorter := Nat.mod_eq_of_lt hlt'
  refine ⟨hlt', fun word hword => Nat.lt_of_le_of_lt ?_ (hfits word hword)⟩
  rw [hlength, hshorter]
  have hgroups := Nat.div_le_div_right (c := 16) hle
  omega

/-- Lists that can be moved to the start of the last segment leave room for all that lies in
between. -/
theorem roomy_of_movable (h : ∀ segment ∈ segments.dropLast,
    Movable (Segment.span segments.dropLast) segment.words) : Roomy segments := by
  constructor
  · intro segment hsegment
    refine (h segment hsegment).mono ?_
    obtain ⟨front, back, hsplit⟩ := List.append_of_mem hsegment
    rw [hsplit, Segment.span_append, Segment.span_cons]
    omega
  · rintro front left covered last back rfl -
    refine (h left ?_).mono ?_
    · cases covered with
      | nil => exact Segment.mem_dropLast
      | cons segment rest => exact Segment.mem_dropLast
    · rw [← List.cons_append, ← List.append_assoc, List.dropLast_append_cons, Segment.span_append,
        Segment.span_append]
      omega

end Distances

namespace Searcher

variable {segments : List Segment}

/-- **Chaining is exact.** If the lengths before the last segment add up to less than 2 ^ 32 and no
list overflows when it is moved by their sum, the result is canonical, and its addresses are those
at which the last segment stands with every other segment before it, by the sum of the lengths from
there on. Neither the neighbours to begin with, nor the sides to which the range grows, nor an early
end make a difference. -/
theorem chain_exact (searcher : Searcher) (htwo : 2 ≤ segments.length)
    (hascending : ∀ segment ∈ segments, segment.words.Ascending)
    (hmovable : ∀ segment ∈ segments.dropLast,
      Movable (Segment.span segments.dropLast) segment.words) :
    (searcher.chain segments).value.Canonical ∧
      ∀ y, y ∈ (searcher.chain segments).value.addresses ↔
        ∀ i (h : i < segments.length), ∃ x ∈ segments[i].words.addresses,
          x + Segment.span (segments.dropLast.drop i) = y := by
  have hends : Ends segments (searcher.chain segments).value :=
    chain_ends hascending (roomy_of_movable hmovable) htwo
  have hne : segments ≠ [] := by
    rintro rfl
    exact absurd htwo (by decide)
  exact ⟨hends.canonical, fun y => (hends.mem_iff y).trans (exists_chained_iff hne)⟩

/-- A searcher of an index without files. -/
def vacant : Searcher :=
  { settings := {}
    directory := Table.empty
    postingsFile := {}
    lengths := {}
    documents := ⟨none, none⟩
    statistics := {}
    common := CommonTokens.empty }

/-- Three segments, of which the last two are chained first. -/
def threeSegments : List Segment :=
  [⟨[Word.ofPosition 3 13, Word.ofPosition 3 40], 3⟩, ⟨[Word.ofPosition 3 16], 1⟩,
    ⟨[Word.ofPosition 3 17, Word.ofPosition 4 17], 1⟩]

/-- The first segment stands four positions before the last one, in another group. -/
theorem chain_exact_growing_left :
    2 ≤ threeSegments.length ∧
      address 3 17 ∈ (vacant.chain threeSegments).value.addresses ∧
      address 4 17 ∉ (vacant.chain threeSegments).value.addresses := by
  have hascending : ∀ segment ∈ threeSegments, segment.words.Ascending := by decide
  have hmovable : ∀ segment ∈ threeSegments.dropLast,
      Movable (Segment.span threeSegments.dropLast) segment.words := by decide
  have hexact := vacant.chain_exact (show 2 ≤ threeSegments.length by decide) hascending hmovable
  refine ⟨by decide, (hexact.2 _).2 (by decide), fun hmem => ?_⟩
  exact absurd ((hexact.2 _).1 hmem) (by decide)

/-- Three segments with 2 ^ 32 tokens before the last one, which stands where the first one does. -/
def wrappingSegments : List Segment :=
  [⟨[Word.ofPosition 2048 0], 0x80000000⟩, ⟨[Word.ofPosition 0 0], 0x80000000⟩,
    ⟨[Word.ofPosition 2048 0], 1⟩]

/-- **The sum of the lengths wraps around.** Every length fits, and no addition to a word overflows.
But the distance of 2 ^ 32 tokens from the first segment to the last counts as none at all, so that
a place is found without the first segment before it. -/
theorem chain_exact_overflow :
    2 ≤ wrappingSegments.length ∧
      (∀ segment ∈ wrappingSegments,
        segment.words.Ascending ∧ 1 ≤ segment.length ∧ segment.length < 2 ^ 32) ∧
      (∀ segment ∈ wrappingSegments, ∀ word ∈ segment.words,
        word.slot + Segment.span wrappingSegments / 16 + 1 < 2 ^ 48) ∧
      address 2048 0 ∈ (vacant.chain wrappingSegments).value.addresses ∧
      ¬ ∀ i (h : i < wrappingSegments.length), ∃ x ∈ wrappingSegments[i].words.addresses,
        x + Segment.span (wrappingSegments.dropLast.drop i) = address 2048 0 := by
  refine ⟨by decide, by decide +kernel, ?_, by decide +kernel, fun hbefore => ?_⟩
  · have hlater : (Word.ofPosition 2048 0).slot = 0x8000000 := by decide
    have hfirst : (Word.ofPosition 0 0).slot = 0 := by decide
    have hspan : Segment.span wrappingSegments = 0x100000001 := rfl
    intro segment hsegment word hword
    simp only [wrappingSegments, List.mem_cons, List.not_mem_nil, or_false] at hsegment
    rcases hsegment with rfl | rfl | rfl
    all_goals
      obtain rfl := List.mem_singleton.1 hword
      omega
  · obtain ⟨x, -, hsum⟩ := hbefore 0 (by decide)
    have hspan : Segment.span (wrappingSegments.dropLast.drop 0) = 0x100000000 := rfl
    have hplace : address 2048 0 = 0x80000000 := rfl
    omega

end Searcher
end Concordance
