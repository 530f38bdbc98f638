import Concordance.Indexing.Merge
import Concordance.Proofs.Indexing.BatchSource
import Concordance.Proofs.Posting.Canonical
import Concordance.Proofs.Table
import Mathlib.Data.List.Forall2

/-!
# What a merge yields

The lists of a unit in several streams are gathered in the order of the streams (`gather`). A merge
that ends well has added exactly the gathered lists, in ascending order of their units
(`mergeFrom_eq`), and every list that was added can be read at the place that the directory tells
(`MergedPostings.Stores`).
-/

namespace Concordance

/-! ## Streams of lists -/

/-- The lists that a source delivers, in order. -/
abbrev Stream := List (String × Postings)

/-- The units of a stream ascend strictly. -/
def Stream.Sorted (stream : Stream) : Prop :=
  stream.Pairwise fun first second => first.1 < second.1

/-- The lists of a unit in several streams, put together in the order of the streams. -/
def gather (streams : List Stream) (unit : String) : Option Postings :=
  match streams.filterMap (List.lookup unit) with
  | [] => none
  | lists => some lists.flatten

/-- What is gathered for a unit depends only on the lists of this unit. -/
theorem gather_congr {streams streams' : List Stream} {unit : String}
    (h : streams.filterMap (List.lookup unit) = streams'.filterMap (List.lookup unit)) :
    gather streams unit = gather streams' unit := by
  rw [gather, gather, h]

/-- Nothing is gathered for a unit that no stream delivers. -/
theorem gather_eq_none {streams : List Stream} {unit : String}
    (h : ∀ stream ∈ streams, ∀ entry ∈ stream, entry.1 ≠ unit) : gather streams unit = none := by
  have hnil : streams.filterMap (List.lookup unit) = [] := by
    rw [List.filterMap_eq_nil_iff]
    exact fun stream hstream => Table.lookup_eq_none (h stream hstream)
  rw [gather, hnil]

/-- A stream with nothing for a unit does not count. -/
theorem gather_cons_of_none {stream : Stream} {streams : List Stream} {unit : String}
    (h : stream.lookup unit = none) : gather (stream :: streams) unit = gather streams unit :=
  gather_congr (List.filterMap_cons_none h)

/-- The streams when the front of one of them has been taken off. -/
theorem filterMap_lookup_front {before after : List Stream} {tail : Stream} {front : String}
    {words : Postings} (hbefore : ∀ stream ∈ before, ∀ entry ∈ stream, front < entry.1)
    (htail : ∀ entry ∈ tail, front < entry.1) (unit : String) :
    (before ++ ((front, words) :: tail) :: after).filterMap (List.lookup unit) =
      if unit = front then words :: (before ++ tail :: after).filterMap (List.lookup unit)
      else (before ++ tail :: after).filterMap (List.lookup unit) := by
  have hlater : ∀ entry : String × Postings, front < entry.1 → entry.1 ≠ front := by
    intro entry hlt heq
    rw [heq] at hlt
    exact String.lt_irrefl front hlt
  by_cases h : unit = front
  · subst h
    have hnone : before.filterMap (List.lookup unit) = [] := by
      rw [List.filterMap_eq_nil_iff]
      exact fun stream hstream => Table.lookup_eq_none fun entry hentry =>
        hlater entry (hbefore stream hstream entry hentry)
    have hrest : tail.lookup unit = none :=
      Table.lookup_eq_none fun entry hentry => hlater entry (htail entry hentry)
    rw [if_pos rfl, List.filterMap_append, List.filterMap_append, hnone, List.nil_append,
      List.nil_append, List.filterMap_cons_none hrest, List.filterMap_cons_some]
    rw [Table.lookup_cons, if_pos rfl]
  · rw [if_neg h, List.filterMap_append, List.filterMap_append, List.filterMap_cons,
      List.filterMap_cons, Table.lookup_cons, if_neg h]

/-- The front of a stream may be gathered ahead of the others. -/
theorem gather_front {before after : List Stream} {tail : Stream} {front : String}
    {words : Postings} (hbefore : ∀ stream ∈ before, ∀ entry ∈ stream, front < entry.1)
    (htail : ∀ entry ∈ tail, front < entry.1) (unit : String) :
    gather (before ++ ((front, words) :: tail) :: after) unit =
      gather ([(front, words)] :: (before ++ tail :: after)) unit := by
  apply gather_congr
  rw [filterMap_lookup_front hbefore htail, List.filterMap_cons, Table.lookup_cons]
  split
  · rfl
  · rfl

/-- The front of a stream may be put behind what was gathered for the same unit. -/
theorem gather_front_append {before after : List Stream} {tail : Stream} {front : String}
    {earlier words : Postings} (hbefore : ∀ stream ∈ before, ∀ entry ∈ stream, front < entry.1)
    (htail : ∀ entry ∈ tail, front < entry.1) (unit : String) :
    gather ([(front, earlier)] :: (before ++ ((front, words) :: tail) :: after)) unit =
      gather ([(front, earlier ++ words)] :: (before ++ tail :: after)) unit := by
  by_cases h : unit = front
  · subst h
    simp only [gather, List.filterMap_cons, Table.lookup_cons, if_true,
      filterMap_lookup_front hbefore htail, List.flatten_cons, List.append_assoc]
  · apply gather_congr
    rw [List.filterMap_cons, List.filterMap_cons, Table.lookup_cons, Table.lookup_cons, if_neg h,
      filterMap_lookup_front hbefore htail, if_neg h, if_neg h]

/-! ## Choosing a source -/

/-- Several sources that still deliver these streams. -/
abbrev Deliver (sources : List BatchSource) (streams : List Stream) : Prop :=
  List.Forall₂ BatchSource.Delivers sources streams

namespace ChosenSource

/-- What is known of a choice among sources: the chosen one delivers the choice next, those before
it deliver later units only, and those after it no earlier ones. -/
def Chooses (choice : ChosenSource) (streams : List Stream) : Prop :=
  ∃ before tail after,
    streams = before ++ ((choice.unit, choice.words) :: tail) :: after ∧
      Deliver choice.before before ∧
      choice.source.Delivers ((choice.unit, choice.words) :: tail) ∧
      Deliver choice.after after ∧
      (∀ stream ∈ before, ∀ entry ∈ stream, choice.unit < entry.1) ∧
      (∀ entry ∈ tail, choice.unit < entry.1) ∧
      ∀ stream ∈ after, ∀ entry ∈ stream, choice.unit ≤ entry.1

/-- No choice is made only if no source delivers anything next. -/
theorem next_eq_none_of_choose? {sources : List BatchSource} (h : choose? sources = none) :
    ∀ source ∈ sources, source.next = none := by
  induction sources with
  | nil => exact fun _ hsource => absurd hsource List.not_mem_nil
  | cons source rest ih =>
      unfold choose? prefer at h
      split at h
      · split at h
        · cases h
        · cases h
      · cases h
      · rename_i hnext
        exact List.forall_mem_cons.2 ⟨hnext, ih (Option.map_eq_none_iff.1 h)⟩

/-- Then nothing is delivered any more. -/
theorem eq_nil_of_choose? {sources : List BatchSource} {streams : List Stream}
    (h : Deliver sources streams) (hnone : choose? sources = none) :
    ∀ stream ∈ streams, stream = [] := by
  have hnext := next_eq_none_of_choose? hnone
  clear hnone
  induction h with
  | nil => exact fun _ hstream => absurd hstream List.not_mem_nil
  | cons hfirst _ ih =>
      obtain ⟨hsource, hrest⟩ := List.forall_mem_cons.1 hnext
      exact List.forall_mem_cons.2
        ⟨List.head?_eq_none_iff.1 (hfirst.next.symm.trans hsource), ih hrest⟩

/-- The choice of a source that delivers next, when the others deliver nothing earlier. -/
theorem chooses_first {source : BatchSource} {sources : List BatchSource} {stream : Stream}
    {streams : List Stream} (hfirst : source.Delivers stream) (hrest : Deliver sources streams)
    (hsorted : Stream.Sorted stream) {unit : String} {words : Postings}
    (hnext : source.next = some (unit, words))
    (hleast : ∀ stream ∈ streams, ∀ entry ∈ stream, unit ≤ entry.1) :
    Chooses ⟨[], unit, words, source, sources⟩ (stream :: streams) := by
  obtain ⟨tail, rfl⟩ := List.head?_eq_some_iff.1 (hfirst.next.symm.trans hnext)
  exact ⟨[], tail, streams, rfl, List.Forall₂.nil, hfirst, hrest,
    fun _ hstream => absurd hstream List.not_mem_nil, (List.pairwise_cons.1 hsorted).1, hleast⟩

/-- A choice among later sources remains one if an earlier source delivers later units only. -/
theorem Chooses.behind {source : BatchSource} {stream : Stream} {streams : List Stream}
    (hfirst : source.Delivers stream) {choice : ChosenSource} (h : choice.Chooses streams)
    (hlater : ∀ entry ∈ stream, choice.unit < entry.1) :
    (ChosenSource.behind source choice).Chooses (stream :: streams) := by
  obtain ⟨before, tail, after, rfl, hbefore, hsource, hafter, hlt, htail, hle⟩ := h
  refine ⟨stream :: before, tail, after, rfl, List.Forall₂.cons hfirst hbefore, hsource, hafter, ?_,
    htail, hle⟩
  intro other hother
  rcases List.mem_cons.1 hother with heq | hother
  · rw [heq]
    exact hlater
  · exact hlt other hother

/-- A choice is one of the least units that are delivered next. -/
theorem Chooses.least {choice : ChosenSource} {streams : List Stream} (h : choice.Chooses streams)
    {stream : Stream} (hstream : stream ∈ streams) {entry : String × Postings}
    (hentry : entry ∈ stream) : choice.unit ≤ entry.1 := by
  obtain ⟨before, tail, after, rfl, -, -, -, hlt, htail, hle⟩ := h
  rcases List.mem_append.1 hstream with hstream | hstream
  · exact Std.le_of_lt (hlt stream hstream entry hentry)
  · rcases List.mem_cons.1 hstream with heq | hstream
    · rw [heq] at hentry
      rcases List.mem_cons.1 hentry with rfl | hentry
      · exact String.le_refl _
      · exact Std.le_of_lt (htail entry hentry)
    · exact hle stream hstream entry hentry

/-- What a choice leaves of the streams: they are still in order and deliver nothing earlier, and
the chosen list is gathered before them, behind any list of its unit. -/
structure Leaves (choice : ChosenSource) (streams left : List Stream) : Prop where
  sorted : ∀ stream ∈ left, Stream.Sorted stream
  least : ∀ stream ∈ left, ∀ entry ∈ stream, choice.unit ≤ entry.1
  gather_first : ∀ unit,
    gather streams unit = gather ([(choice.unit, choice.words)] :: left) unit
  gather_next : ∀ earlier unit, gather ([(choice.unit, earlier)] :: streams) unit =
    gather ([(choice.unit, earlier ++ choice.words)] :: left) unit

/-- The chosen list is one of those that are delivered. -/
theorem Chooses.exists_mem {choice : ChosenSource} {streams : List Stream}
    (h : choice.Chooses streams) : ∃ stream ∈ streams, (choice.unit, choice.words) ∈ stream := by
  obtain ⟨before, tail, after, rfl, -⟩ := h
  exact ⟨_, List.mem_append_right _ List.mem_cons_self, List.mem_cons_self⟩

/-- The sources go on to what the choice leaves when the chosen one advances. -/
theorem Chooses.advance {choice : ChosenSource} {streams : List Stream}
    (h : choice.Chooses streams) (hsorted : ∀ stream ∈ streams, Stream.Sorted stream)
    {later : BatchSource} (hadvance : choice.source.advance = .ok later) :
    ∃ left, Deliver (choice.replace later) left ∧ choice.Leaves streams left := by
  obtain ⟨before, tail, after, rfl, hbefore, hsource, hafter, hlt, htail, hle⟩ := h
  rw [List.forall_mem_append, List.forall_mem_cons] at hsorted
  obtain ⟨hsortedBefore, hsortedSource, hsortedAfter⟩ := hsorted
  have hdeliver : Deliver (choice.replace later) (before ++ tail :: after) :=
    List.rel_append hbefore (List.Forall₂.cons (hsource.advance hadvance) hafter)
  refine ⟨before ++ tail :: after, hdeliver, ?_, ?_, gather_front hlt htail,
    fun _ => gather_front_append hlt htail⟩
  · rw [List.forall_mem_append, List.forall_mem_cons]
    exact ⟨hsortedBefore, (List.pairwise_cons.1 hsortedSource).2, hsortedAfter⟩
  · rw [List.forall_mem_append, List.forall_mem_cons]
    exact ⟨fun stream hstream entry hentry => Std.le_of_lt (hlt stream hstream entry hentry),
      fun entry hentry => Std.le_of_lt (htail entry hentry), hle⟩

/-- The choice that is made is a choice of one of the least units. -/
theorem chooses_of_choose? {sources : List BatchSource} {streams : List Stream}
    (h : Deliver sources streams) (hsorted : ∀ stream ∈ streams, Stream.Sorted stream)
    {choice : ChosenSource} (hchoice : choose? sources = some choice) :
    choice.Chooses streams := by
  induction h generalizing choice with
  | nil => cases hchoice
  | @cons source stream sources streams hfirst hrest ih =>
      have hsortedFirst := hsorted stream List.mem_cons_self
      have hlater := @ih fun other hother => hsorted other (List.mem_cons_of_mem _ hother)
      unfold choose? prefer at hchoice
      split at hchoice
      · rename_i unit words inner hnext hinner
        obtain ⟨later, hchosen, rfl⟩ := Option.map_eq_some_iff.1 hinner
        have hchooses := hlater hchosen
        split at hchoice
        · rename_i hlt
          cases hchoice
          obtain ⟨tail, rfl⟩ := List.head?_eq_some_iff.1 (hfirst.next.symm.trans hnext)
          refine hchooses.behind hfirst fun entry hentry => ?_
          rcases List.mem_cons.1 hentry with heq | hentry
          · rw [heq]
            exact hlt
          · exact String.lt_trans hlt ((List.pairwise_cons.1 hsortedFirst).1 entry hentry)
        · rename_i hnot
          cases hchoice
          refine chooses_first hfirst hrest hsortedFirst hnext fun other hother entry hentry => ?_
          exact String.le_trans (String.not_lt.1 hnot) (hchooses.least hother hentry)
      · rename_i unit words hnext hinner
        cases hchoice
        have hnil := eq_nil_of_choose? hrest (Option.map_eq_none_iff.1 hinner)
        refine chooses_first hfirst hrest hsortedFirst hnext fun other hother entry hentry => ?_
        rw [hnil other hother] at hentry
        cases hentry
      · rename_i hnext
        obtain ⟨later, hchosen, rfl⟩ := Option.map_eq_some_iff.1 hchoice
        refine (hlater hchosen).behind hfirst fun entry hentry => ?_
        rw [List.head?_eq_none_iff.1 (hfirst.next.symm.trans hnext)] at hentry
        cases hentry

end ChosenSource

/-! ## Merging -/

namespace MergeOutcome

/-- When no source has a unit left, the list gathered last is written. -/
theorem mergeFrom_of_none {gathered : Option (String × Postings)} {merged : MergedPostings}
    {sources : List BatchSource} (h : ChosenSource.choose? sources = none) :
    mergeFrom gathered merged sources = { merged := merged.addGathered gathered } := by
  unfold mergeFrom
  split
  · rfl
  · rename_i choice hsome
    cases h.symm.trans hsome

/-- What is gathered and what has been written when a chosen list is taken in. -/
def continued (gathered : Option (String × Postings)) (merged : MergedPostings)
    (choice : ChosenSource) : Postings × MergedPostings :=
  match gathered with
  | some (unit, words) =>
      if unit = choice.unit then (words ++ choice.words, merged)
      else (choice.words, merged.add unit words)
  | none => (choice.words, merged)

/-- While some source has a unit left, the chosen one is read on, and its unit is gathered. -/
theorem mergeFrom_of_some {gathered : Option (String × Postings)} {merged : MergedPostings}
    {sources : List BatchSource} {choice : ChosenSource}
    (h : ChosenSource.choose? sources = some choice) :
    mergeFrom gathered merged sources =
      match choice.source.advance with
      | .ok later => mergeFrom (some (choice.unit, (continued gathered merged choice).1))
          (continued gathered merged choice).2 (choice.replace later)
      | .error failure => { merged := (continued gathered merged choice).2, failure } := by
  rw [mergeFrom]
  split
  · rename_i hnone
    cases h.symm.trans hnone
  · rename_i other hsome
    cases h.symm.trans hsome
    -- the pair is a match on what was gathered, so each of its cases is taken by itself
    cases gathered with
    | none =>
        simp only [continued]
        split
        · rename_i hadvance
          rw [hadvance]
        · rename_i hadvance
          rw [hadvance]
    | some entry =>
        by_cases hunit : entry.1 = choice.unit
        · simp only [continued, if_pos hunit]
          split
          · rename_i hadvance
            rw [hadvance]
          · rename_i hadvance
            rw [hadvance]
        · simp only [continued, if_neg hunit]
          split
          · rename_i hadvance
            rw [hadvance]
          · rename_i hadvance
            rw [hadvance]

/-- A merge that ends well goes on with the chosen source advanced. -/
theorem advance_of_failure_eq_none {gathered : Option (String × Postings)}
    {merged : MergedPostings} {sources : List BatchSource} {choice : ChosenSource}
    (h : ChosenSource.choose? sources = some choice)
    (hwell : (mergeFrom gathered merged sources).failure = none) :
    ∃ later, choice.source.advance = .ok later ∧
      mergeFrom gathered merged sources =
        mergeFrom (some (choice.unit, (continued gathered merged choice).1))
          (continued gathered merged choice).2 (choice.replace later) := by
  rw [mergeFrom_of_some h] at hwell ⊢
  cases hadvance : choice.source.advance with
  | ok later => exact ⟨later, rfl, rfl⟩
  | error failure =>
      rw [hadvance] at hwell
      cases hwell

/-- Lists that were added one after another. -/
def addAll (merged : MergedPostings) (lists : List (String × Postings)) : MergedPostings :=
  lists.foldl (fun merged list => merged.add list.1 list.2) merged

/-- The list of a unit before all others is the first one of the table. -/
theorem entries_of_gather {unit : String} {words : Postings} {streams : List Stream}
    (hlater : ∀ stream ∈ streams, ∀ entry ∈ stream, unit < entry.1) {table : Table Postings}
    (htable : ∀ other, table.find? other = gather ([(unit, words)] :: streams) other) :
    table.entries = (unit, words) :: (table.erase unit).entries ∧
      ∀ other, (table.erase unit).find? other = gather streams other := by
  have hne : ∀ stream ∈ streams, ∀ entry ∈ stream, entry.1 ≠ unit := by
    intro stream hstream entry hentry heq
    have hlt := hlater stream hstream entry hentry
    rw [heq] at hlt
    exact String.lt_irrefl unit hlt
  have hnone : gather streams unit = none := gather_eq_none hne
  have hother : ∀ other, other ≠ unit →
      gather ([(unit, words)] :: streams) other = gather streams other := by
    intro other h
    apply gather_cons_of_none
    rw [Table.lookup_cons, if_neg h]
    rfl
  constructor
  · apply Table.entries_eq_cons
    · have hnil : streams.filterMap (List.lookup unit) = [] := by
        rw [List.filterMap_eq_nil_iff]
        exact fun stream hstream => Table.lookup_eq_none (hne stream hstream)
      rw [htable, gather, List.filterMap_cons, Table.lookup_cons, if_pos rfl, hnil]
      exact congrArg some (List.append_nil words)
    · -- nothing before the unit is gathered, neither as the first list nor from the streams
      intro other old hfound
      refine String.not_lt.1 fun hlt => ?_
      rw [htable, hother other (fun h => String.lt_irrefl unit (h ▸ hlt)), gather_eq_none] at hfound
      · cases hfound
      · intro stream hstream entry hentry heq
        have hgt := hlater stream hstream entry hentry
        rw [heq] at hgt
        exact String.lt_irrefl unit (String.lt_trans hgt hlt)
  · intro other
    rw [Table.find?_erase]
    split
    · rename_i h
      rw [h, hnone]
    · rename_i h
      rw [htable, hother other h]

/-- When nothing is delivered any more, the list that was gathered is the last one. -/
theorem addGathered_eq {gathered : Option (String × Postings)} {streams : List Stream}
    (hnil : ∀ stream ∈ streams, stream = []) {table : Table Postings}
    (htable : ∀ unit, table.find? unit = gather (gathered.toList :: streams) unit)
    (merged : MergedPostings) : merged.addGathered gathered = addAll merged table.entries := by
  have hnone : ∀ unit, gather streams unit = none := by
    intro unit
    apply gather_eq_none
    intro stream hstream entry hentry
    rw [hnil stream hstream] at hentry
    cases hentry
  cases gathered with
  | none =>
      have hentries : table.entries = [] := Table.entries_eq_nil fun unit =>
        (htable unit).trans ((gather_cons_of_none rfl).trans (hnone unit))
      rw [hentries]
      rfl
  | some list =>
      have hlater : ∀ stream ∈ streams, ∀ entry ∈ stream, list.1 < entry.1 := by
        intro stream hstream entry hentry
        rw [hnil stream hstream] at hentry
        cases hentry
      obtain ⟨hentries, hrest⟩ := entries_of_gather hlater htable
      rw [hentries, Table.entries_eq_nil fun unit => (hrest unit).trans (hnone unit)]
      rfl

/-- The gathered lists of a table are written in ascending order of their units. -/
theorem mergeFrom_eq {gathered : Option (String × Postings)} {merged : MergedPostings}
    {sources : List BatchSource} {streams : List Stream} (h : Deliver sources streams)
    (hsorted : ∀ stream ∈ streams, Stream.Sorted stream)
    (hlater : ∀ list ∈ gathered, ∀ stream ∈ streams, ∀ entry ∈ stream, list.1 ≤ entry.1)
    {table : Table Postings}
    (htable : ∀ unit, table.find? unit = gather (gathered.toList :: streams) unit)
    (hwell : (mergeFrom gathered merged sources).failure = none) :
    (mergeFrom gathered merged sources).merged = addAll merged table.entries := by
  induction hpending : pending sources using Nat.strongRecOn generalizing gathered merged sources
    streams table with
  | ind count ih =>
      subst hpending
      cases hchoice : ChosenSource.choose? sources with
      | none =>
          rw [mergeFrom_of_none hchoice]
          exact addGathered_eq (ChosenSource.eq_nil_of_choose? h hchoice) htable merged
      | some choice =>
          obtain ⟨later, hadvance, hstep⟩ := advance_of_failure_eq_none hchoice hwell
          have hchooses := ChosenSource.chooses_of_choose? h hsorted hchoice
          -- the chosen source has one list fewer, and the others are as they were
          obtain ⟨left, hdeliver, hleaves⟩ := hchooses.advance hsorted hadvance
          rw [hstep] at hwell ⊢
          have hgo := fun {table : Table Postings} => @ih _ (pending_replace hchoice hadvance)
            (some (choice.unit, (continued gathered merged choice).1))
            (continued gathered merged choice).2 (choice.replace later) left hdeliver
            hleaves.sorted (fun list hlist => by cases hlist; exact hleaves.least) table
          cases gathered with
          | none =>
              refine hgo (fun unit => ?_) hwell rfl
              rw [htable unit]
              exact (gather_cons_of_none rfl).trans (hleaves.gather_first unit)
          | some list =>
              obtain ⟨unit, words⟩ := list
              by_cases hunit : unit = choice.unit
              · subst hunit
                simp only [continued, if_true] at hgo hwell ⊢
                refine hgo (fun other => ?_) hwell trivial
                rw [htable other]
                exact hleaves.gather_next words other
              · -- a list of an earlier unit is complete, and so the first one of the table
                simp only [continued, if_neg hunit] at hgo hwell ⊢
                obtain ⟨stream, hstream, hentry⟩ := hchooses.exists_mem
                have hfirst : unit < choice.unit :=
                  Std.lt_of_le_of_ne (hlater _ rfl stream hstream _ hentry) hunit
                obtain ⟨hentries, hrest⟩ := entries_of_gather
                  (fun stream hstream entry hentry =>
                    Std.lt_of_lt_of_le hfirst (hchooses.least hstream hentry)) htable
                rw [hentries]
                refine hgo (fun other => ?_) hwell trivial
                exact (hrest other).trans (hleaves.gather_first other)

/-- A merge of sources that can be read to their ends ends well. -/
theorem failure_eq_none {gathered : Option (String × Postings)} {merged : MergedPostings}
    {sources : List BatchSource} (h : ∀ source ∈ sources, source.Readable) :
    (mergeFrom gathered merged sources).failure = none := by
  induction hpending : pending sources using Nat.strongRecOn generalizing gathered merged
    sources with
  | ind count ih =>
      subst hpending
      cases hchoice : ChosenSource.choose? sources with
      | none => rw [mergeFrom_of_none hchoice]
      | some choice =>
          obtain ⟨hsources, hnext⟩ := ChosenSource.eq_of_choose? hchoice
          rw [← hsources, ChosenSource.replace, List.forall_mem_append, List.forall_mem_cons] at h
          obtain ⟨hbefore, hchosen, hafter⟩ := h
          obtain ⟨lists, hintact⟩ := hchosen (by rw [hnext]; rfl)
          obtain ⟨later, hadvance, hlater⟩ := hintact.exists_readable
          rw [mergeFrom_of_some hchoice, hadvance]
          refine ih _ (pending_replace hchoice hadvance) ?_ rfl
          rw [ChosenSource.replace, List.forall_mem_append, List.forall_mem_cons]
          exact ⟨hbefore, hlater, hafter⟩

end MergeOutcome

/-- The gathered lists of all units. -/
def union (streams : List Stream) : Table Postings :=
  Table.tabulate (streams.flatten.map (·.1)) (gather streams)

/-- The list of a unit in the union is the one that is gathered for it. -/
theorem find?_union (streams : List Stream) (unit : String) :
    (union streams).find? unit = gather streams unit := by
  rw [union, Table.find?_tabulate]
  split
  · rfl
  · rename_i h
    refine (gather_eq_none fun stream hstream entry hentry heq => h ?_).symm
    exact List.mem_map.2 ⟨entry, List.mem_flatten.2 ⟨stream, hstream, hentry⟩, heq⟩

/-- A merge that ends well writes the gathered lists of all units. -/
theorem MergeOutcome.ofSources_eq {sources : List BatchSource} {streams : List Stream}
    (h : Deliver sources streams) (hsorted : ∀ stream ∈ streams, Stream.Sorted stream)
    (hwell : (ofSources sources).failure = none) :
    (ofSources sources).merged = addAll {} (union streams).entries := by
  refine mergeFrom_eq h hsorted (fun list hlist => by cases hlist) (fun unit => ?_) hwell
  exact (find?_union streams unit).trans (gather_cons_of_none rfl).symm

/-! ## What is written -/

/-- An entry of a directory tells where a list lies in some bytes. -/
structure TokenEntry.Locates (entry : TokenEntry) (bytes : Bytes) (words : Postings) : Prop where
  inside : entry.start + entry.length ≤ bytes.length
  slice : bytes.slice entry.start entry.length = Bytes.ofWords words
  documents : entry.documents = .ofNat words.documentCount

/-- A list is still found when bytes were added at the end. -/
theorem TokenEntry.Locates.append {entry : TokenEntry} {bytes : Bytes} {words : Postings}
    (h : entry.Locates bytes words) (after : Bytes) : entry.Locates (bytes ++ after) words := by
  refine ⟨?_, ?_, h.documents⟩
  · have hinside := h.inside
    rw [List.length_append]
    omega
  · rw [Bytes.slice_append_of_le h.inside, h.slice]

/-- A list is read at the place where it lies. -/
theorem PostingsFile.read_of_locates {entry : TokenEntry} {bytes : Bytes} {words : Postings}
    (h : entry.Locates bytes words) : read ⟨bytes⟩ entry = words := by
  rw [read, Postings.ofBytes]
  show (bytes.slice entry.start entry.length).toWords = words
  rw [h.slice, Bytes.toWords_ofWords]

namespace MergedPostings

/-- The directory tells, for each list of a table, where the list lies when it is normalized. -/
structure Stores (merged : MergedPostings) (table : Table Postings) : Prop where
  sound : merged.writer.Sound
  missing : ∀ unit, table.find? unit = none → merged.directory.find? unit = none
  found : ∀ unit words, table.find? unit = some words → ∃ entry,
    merged.directory.find? unit = some entry ∧
      entry.Locates merged.writer.toBytes words.normalize

/-- Nothing is stored at first. -/
theorem Stores.empty : Stores {} Table.empty :=
  ⟨Writer.Sound.empty, fun _ _ => rfl, fun _ _ h => by cases h⟩

/-- A list that is added is found at its place, and so are all others. -/
theorem Stores.add {merged : MergedPostings} {table : Table Postings} (h : merged.Stores table)
    (unit : String) (words : Postings) :
    (merged.add unit words).Stores (table.insert unit words) := by
  obtain ⟨count, hfill⟩ := Writer.toBytes_fill merged.writer PostingsFile.alignment
  have hsound := h.sound.fill PostingsFile.alignment
  have hbytes : (merged.add unit words).writer.toBytes =
      (merged.writer.fill PostingsFile.alignment).toBytes ++ Bytes.ofWords words.normalize :=
    Writer.toBytes_putBytes _ _
  have hdirectory : (merged.add unit words).directory = merged.directory.insert unit
      ⟨(merged.writer.fill PostingsFile.alignment).position, words.normalize.byteSize,
        .ofNat words.normalize.documentCount⟩ := rfl
  refine ⟨hsound.putBytes _, ?_, ?_⟩
  · intro other hnone
    rw [Table.find?_insert] at hnone
    split at hnone
    · cases hnone
    · rename_i hother
      rw [hdirectory, Table.find?_insert, if_neg hother]
      exact h.missing other hnone
  · intro other words' hsome
    rw [Table.find?_insert] at hsome
    rw [hdirectory, Table.find?_insert, hbytes]
    split at hsome
    · rename_i hother
      cases hsome
      refine ⟨_, if_pos hother, ?_, ?_, rfl⟩
      · show Writer.position _ + Postings.byteSize _ ≤ _
        refine Nat.le_of_eq ?_
        rw [List.length_append, hsound, Bytes.length_ofWords, Postings.byteSize]
      · have hslice := Bytes.slice_append (merged.writer.fill PostingsFile.alignment).toBytes
          (Bytes.ofWords words.normalize) []
        rw [List.append_nil, Bytes.length_ofWords, ← hsound] at hslice
        exact hslice
    · rename_i hother
      obtain ⟨entry, hentry, hlocates⟩ := h.found other words' hsome
      refine ⟨entry, (if_neg hother).trans hentry, ?_⟩
      rw [hfill, List.append_assoc]
      exact hlocates.append _

/-- Lists that are added one after another are all found, for each unit the last one. -/
theorem Stores.addAll {merged : MergedPostings} {table : Table Postings} (h : merged.Stores table)
    (lists : List (String × Postings)) :
    (MergeOutcome.addAll merged lists).Stores
      (lists.foldl (fun table list => table.insert list.1 list.2) table) := by
  induction lists generalizing merged table with
  | nil => exact h
  | cons list rest ih => exact ih (h.add list.1 list.2)

/-- Every list of a table is found after all of them were added. -/
theorem stores_addAll (table : Table Postings) :
    (MergeOutcome.addAll {} table.entries).Stores table := by
  have hstores := Stores.empty.addAll table.entries
  have hsame : table.entries.foldl (fun later list => later.insert list.1 list.2) Table.empty =
      table := by
    apply Table.ext_find?
    intro unit
    exact (Table.find?_foldl_insert table id unit).trans (by rw [Option.map_id]; rfl)
  rw [hsame] at hstores
  exact hstores

/-- Normalizing a list before it is added makes no difference. -/
theorem add_normalize (merged : MergedPostings) (unit : String) (words : Postings) :
    merged.add unit words.normalize = merged.add unit words := by
  unfold add
  rw [Postings.normalize_normalize]

/-- Normalizing all lists before they are added makes no difference. -/
theorem addAll_map_normalize (merged : MergedPostings) (lists : List (String × Postings)) :
    MergeOutcome.addAll merged (lists.map fun list => (list.1, list.2.normalize)) =
      MergeOutcome.addAll merged lists := by
  induction lists generalizing merged with
  | nil => rfl
  | cons list rest ih =>
      show MergeOutcome.addAll (merged.add list.1 list.2.normalize) _ =
        MergeOutcome.addAll (merged.add list.1 list.2) rest
      rw [add_normalize]
      exact ih _

/-- What is written depends on the normalized lists only. -/
theorem addAll_congr {first second : Table Postings}
    (h : ∀ unit, (first.find? unit).map Postings.normalize =
      (second.find? unit).map Postings.normalize) :
    MergeOutcome.addAll {} first.entries = MergeOutcome.addAll {} second.entries := by
  rw [← addAll_map_normalize {} first.entries, ← addAll_map_normalize {} second.entries,
    Table.map_entries_congr h]

end MergedPostings
end Concordance
