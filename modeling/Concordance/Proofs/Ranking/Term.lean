import Concordance.Proofs.Posting.Boundary
import Concordance.Proofs.Posting.Counts
import Concordance.Proofs.Posting.Word
import Concordance.Proofs.Ranking.Cursor

/-!
# The scorers of posting lists and ranges

The scorer of a posting list whose words do not descend by document is a faithful cursor over the
documents with a set bit: the words still ahead are those behind its place, and all set bits of the
document there have been counted (`faithful_term`). Set bits are counted in 32 bits, so no document
may have more of them than that (`CountsFit`); a document with `2 ^ 32` of them would be left out.
The scorer of all documents below a limit is a cursor over these documents (`faithful_all`).
-/

namespace Concordance

namespace Postings

/-- The words of a list do not descend by document. -/
def ByDocument (words : Postings) : Prop :=
  words.Pairwise fun first second => first.document ≤ second.document

/-- The order of a list can be checked. -/
instance (words : Postings) : Decidable words.ByDocument :=
  inferInstanceAs (Decidable (words.Pairwise fun first second => first.document ≤ second.document))

/-- Some word of a document has a set bit. -/
def HasDocument (words : Postings) (document : DocumentId) : Prop :=
  ∃ word ∈ words, word.document = document ∧ word.bitmap ≠ 0

/-- The set bits of every document can be counted in 32 bits. -/
def CountsFit (words : Postings) : Prop :=
  ∀ document, words.setBits document < 2 ^ 32

/-- The words of the documents from a number on. -/
def behind (start : Nat) (words : Postings) : Postings :=
  words.filter fun word => start ≤ word.document.toNat

variable {words : Postings} {start : Nat} {document : DocumentId}

/-- All words belong to documents from zero on. -/
theorem behind_zero (words : Postings) : behind 0 words = words :=
  List.filter_eq_self.2 fun _ _ => rfl

/-- The words behind a later number are among those behind an earlier one. -/
theorem behind_behind {later : Nat} (h : start ≤ later) (words : Postings) :
    behind later (behind start words) = behind later words := by
  rw [behind, behind, List.filter_filter]
  refine List.filter_congr fun word _ => ?_
  rw [← Bool.decide_and]
  exact decide_eq_decide.2 ⟨And.left, fun hlater => ⟨hlater, Nat.le_trans h hlater⟩⟩

/-- Being behind a number is a matter of the document of a word. -/
theorem mem_behind {word : Word} :
    word ∈ behind start words ↔ word ∈ words ∧ start ≤ word.document.toNat := by
  rw [behind, List.mem_filter, decide_eq_true_eq]

/-- The words behind a number keep their order. -/
theorem ByDocument.behind (h : words.ByDocument) (start : Nat) : ByDocument (behind start words) :=
  h.sublist List.filter_sublist

/-- Nothing lies behind all documents. -/
theorem behind_eq_nil (h : ∀ word ∈ words, word.document.toNat < start) :
    behind start words = [] := by
  refine List.filter_eq_nil_iff.2 fun word hword => ?_
  rw [decide_eq_true_eq, Nat.not_le]
  exact h word hword

/-- The words behind a number have the documents from it on. -/
theorem hasDocument_behind :
    HasDocument (behind start words) document ↔
      HasDocument words document ∧ start ≤ document.toNat := by
  constructor
  · intro h
    obtain ⟨word, hword, rfl, hset⟩ := h
    obtain ⟨hmem, hstart⟩ := mem_behind.1 hword
    exact ⟨⟨word, hmem, rfl, hset⟩, hstart⟩
  · intro h
    obtain ⟨⟨word, hword, rfl, hset⟩, hstart⟩ := h
    exact ⟨word, mem_behind.2 ⟨hword, hstart⟩, rfl, hset⟩

/-- A document behind a number keeps its set bits. -/
theorem setBits_behind (h : start ≤ document.toNat) :
    setBits (behind start words) document = setBits words document := by
  rw [setBits, setBits, behind, List.filter_filter]
  congr 2
  refine List.filter_congr fun word _ => ?_
  rw [← Bool.decide_and]
  exact decide_eq_decide.2 (and_iff_left_of_imp fun heq => heq ▸ h)

/-- Leaving out words leaves no more to count. -/
theorem CountsFit.behind (h : words.CountsFit) (start : Nat) : CountsFit (behind start words) := by
  intro document
  rcases Nat.lt_or_ge document.toNat start with hlt | hle
  · have hnone : ∀ word ∈ Postings.behind start words, word.document ≠ document := by
      rintro word hword rfl
      exact Nat.not_le.2 hlt (mem_behind.1 hword).2
    rw [setBits_eq_zero hnone]
    decide
  · rw [setBits_behind hle]
    exact h document

/-- The set bits of a list with ascending keys can be counted, however long the list is. -/
theorem Ascending.countsFit (h : words.Ascending) : words.CountsFit := fun document => by
  have hle := h.setBits_le document
  omega

end Postings

namespace Word

/-- A word counts positions exactly if its bitmap is not empty. -/
theorem count_pos_iff {word : Word} : 0 < word.count ↔ word.bitmap ≠ 0 := by
  rw [bitmap_ne_zero_iff, count, List.length_pos_iff_exists_mem, addresses]
  constructor
  · intro h
    obtain ⟨offset, hoffset⟩ := h
    exact ⟨_, List.mem_map_of_mem hoffset⟩
  · intro h
    obtain ⟨x, hx⟩ := h
    obtain ⟨offset, hoffset, -⟩ := List.mem_map.1 hx
    exact ⟨offset, hoffset⟩

end Word

namespace TermScorer

open Postings (ByDocument HasDocument behind Leading setBits)

variable {words : Postings}

/-- In a list by document the words of the first document come first. -/
theorem leading_document {word : Word} {rest : Postings} (h : ByDocument (word :: rest)) :
    Leading (fun other => other.document = word.document) (word :: rest) := by
  refine List.Pairwise.imp_of_mem (fun {first second} hfirst _ hle hsecond => ?_) h
  rw [decide_eq_true_eq] at hsecond ⊢
  have hleast : word.document ≤ first.document := by
    rcases List.mem_cons.1 hfirst with rfl | hfirst
    · exact UInt32.le_refl _
    · exact (List.pairwise_cons.1 h).1 first hfirst
  exact UInt32.le_antisymm (hsecond ▸ hle) hleast

/-- Gathering adds up the set bits of the words of a document that come first, in 32 bits. -/
theorem toNat_gather (document : DocumentId) (frequency : UInt32) (words : Postings) :
    (gather document frequency words).1.toNat = (frequency.toNat +
      ((words.takeWhile fun word => word.document = document).map Word.count).sum) % 2 ^ 32 := by
  fun_induction gather document frequency words with
  | case1 frequency => exact (Nat.mod_eq_of_lt (UInt32.toNat_lt frequency)).symm
  | case2 frequency word rest hsame ih =>
      rw [ih, UInt32.toNat_add, Word.toNat_ones, Nat.mod_add_mod,
        List.takeWhile_cons_of_pos (by exact decide_eq_true hsame), List.map_cons, List.sum_cons,
        Nat.add_assoc]
  | case3 frequency word rest hother =>
      rw [List.takeWhile_cons_of_neg (by rwa [decide_eq_true_eq])]
      exact (Nat.mod_eq_of_lt (UInt32.toNat_lt frequency)).symm

/-- Gathering leaves the words that do not come first. -/
theorem gather_eq_dropWhile (document : DocumentId) (frequency : UInt32) (words : Postings) :
    (gather document frequency words).2 =
      words.dropWhile fun word => word.document = document := by
  fun_induction gather document frequency words with
  | case1 => rfl
  | case2 frequency word rest hsame ih =>
      rw [ih, List.dropWhile_cons_of_pos (by exact decide_eq_true hsame)]
  | case3 frequency word rest hother =>
      rw [List.dropWhile_cons_of_neg (by rwa [decide_eq_true_eq])]

/-- The frequency of the first document is the number of its set bits, in 32 bits. -/
theorem toNat_gather_eq_setBits {word : Word} {rest : Postings} (h : ByDocument (word :: rest)) :
    (gather word.document word.ones rest).1.toNat =
      setBits (word :: rest) word.document % 2 ^ 32 := by
  rw [toNat_gather, Word.toNat_ones, setBits, ← (leading_document h).takeWhile_eq_filter,
    List.takeWhile_cons_of_pos (by exact decide_eq_true rfl), List.map_cons, List.sum_cons]

/-- A document has set bits exactly if one of its words has one. -/
theorem setBits_pos_iff {document : DocumentId} :
    0 < setBits words document ↔ HasDocument words document := by
  rw [setBits, List.sum_pos_iff_exists_pos_nat]
  constructor
  · intro hfound
    obtain ⟨count, hcount, hpos⟩ := hfound
    obtain ⟨other, hother, rfl⟩ := List.mem_map.1 hcount
    obtain ⟨hmem, hdocument⟩ := List.mem_filter.1 hother
    exact ⟨other, hmem, of_decide_eq_true hdocument, Word.count_pos_iff.1 hpos⟩
  · intro hfound
    obtain ⟨other, hother, hdocument, hset⟩ := hfound
    exact ⟨other.count, List.mem_map_of_mem
      (List.mem_filter.2 ⟨hother, decide_eq_true hdocument⟩), Word.count_pos_iff.2 hset⟩

/-- Gathering the words of the first document leaves those behind it. -/
theorem gather_eq_behind {word : Word} {rest : Postings} (h : ByDocument (word :: rest)) :
    (gather word.document word.ones rest).2 =
      behind (word.document.toNat + 1) (word :: rest) := by
  have hdrop := (leading_document h).dropWhile_eq_filter
  rw [List.dropWhile_cons_of_pos (by exact decide_eq_true rfl)] at hdrop
  rw [gather_eq_dropWhile, hdrop, behind]
  refine List.filter_congr fun other hother => ?_
  have hleast : word.document ≤ other.document := by
    rcases List.mem_cons.1 hother with rfl | hother
    · exact UInt32.le_refl _
    · exact (List.pairwise_cons.1 h).1 other hother
  rw [← decide_not]
  refine decide_eq_decide.2 ?_
  rw [UInt32.le_iff_toNat_le] at hleast
  rw [← UInt32.toNat_inj]
  omega

/-- Moving on keeps what documents are scored by. -/
theorem nextAmong_weight (scorer : TermScorer) (words : Postings) :
    (scorer.nextAmong words).weight = scorer.weight ∧
      (scorer.nextAmong words).lengths = scorer.lengths := by
  fun_induction nextAmong scorer words with
  | case1 => exact ⟨rfl, rfl⟩
  | case2 => exact ⟨rfl, rfl⟩
  | case3 _ _ _ _ ih => exact ih

/-- A scorer moves to the first document with a set bit among the words ahead, counts its set bits
and keeps the words behind it. -/
theorem nextAmong_spec (scorer : TermScorer) (h : words.ByDocument) (hfit : words.CountsFit)
    (hbelow : ∀ word ∈ words, word.document < noMore) :
    ∃ place, IsFirst (HasDocument words) 0 place ∧ (scorer.nextAmong words).current = some place ∧
      (scorer.nextAmong words).ahead = behind (place.toNat + 1) words ∧
      (scorer.nextAmong words).frequency.toNat = setBits words place := by
  fun_induction nextAmong scorer words with
  | case1 =>
      refine ⟨noMore, ⟨Or.inl rfl, ?_⟩, rfl, rfl, rfl⟩
      intro other hfound
      obtain ⟨word, hword, -⟩ := hfound
      cases hword
  | case2 word rest gathered hpos =>
      have hcount : gathered.1.toNat = setBits (word :: rest) word.document := by
        rw [toNat_gather_eq_setBits h, Nat.mod_eq_of_lt (hfit word.document)]
      have hhas := setBits_pos_iff.1 (hcount ▸ UInt32.lt_iff_toNat_lt.1 hpos)
      refine ⟨word.document, ⟨Or.inr ⟨hhas, Nat.zero_le _⟩, ?_⟩, rfl, gather_eq_behind h, hcount⟩
      intro other hfound _
      obtain ⟨word', hword', rfl, -⟩ := hfound
      rcases List.mem_cons.1 hword' with rfl | hword'
      · exact UInt32.le_refl _
      · exact (List.pairwise_cons.1 h).1 word' hword'
  | case3 word rest gathered hzero ih =>
      have hnone : ¬ HasDocument (word :: rest) word.document := by
        -- a number of set bits that fits is not taken for zero
        rw [← setBits_pos_iff, ← Nat.mod_eq_of_lt (hfit word.document),
          ← toNat_gather_eq_setBits h]
        exact fun hpos => hzero (UInt32.lt_iff_toNat_lt.2 hpos)
      have hbehind : gathered.2 = behind (word.document.toNat + 1) (word :: rest) :=
        gather_eq_behind h
      rw [hbehind] at ih ⊢
      obtain ⟨place, hfirst, hcurrent, hahead, hcount⟩ := ih (h.behind _) (hfit.behind _)
        fun other hother => hbelow other (Postings.mem_behind.1 hother).1
      have hlt : word.document.toNat < place.toNat := by
        rcases hfirst.1 with rfl | hmem
        · exact UInt32.lt_iff_toNat_lt.1 (hbelow word List.mem_cons_self)
        · exact (Postings.hasDocument_behind.1 hmem.1).2
      rw [Postings.behind_behind (by omega)] at hahead
      rw [Postings.setBits_behind hlt] at hcount
      refine ⟨place, ⟨?_, ?_⟩, hcurrent, hahead, hcount⟩
      · exact hfirst.1.imp_right fun hmem =>
          ⟨(Postings.hasDocument_behind.1 hmem.1).1, Nat.zero_le _⟩
      · rintro other hother -
        refine hfirst.le (Postings.hasDocument_behind.2 ⟨hother, ?_⟩) (Nat.zero_le _)
        -- the first document has no set bit, so every document that has one lies behind it
        obtain ⟨word', hword', rfl, hset⟩ := hother
        rcases List.mem_cons.1 hword' with rfl | hmem
        · exact absurd ⟨word', hword', rfl, hset⟩ hnone
        · have hle := UInt32.le_iff_toNat_le.1 ((List.pairwise_cons.1 h).1 word' hmem)
          rcases Nat.lt_or_eq_of_le hle with hlt | heq
          · exact hlt
          · exact absurd ⟨word', hword', (UInt32.toNat_inj.1 heq).symm, hset⟩ hnone

/-- A scorer of a posting list stands at a place: the words it keeps ahead are those behind, and it
has counted the set bits of a document. -/
structure At (list : WeightedPostings) (current : Option DocumentId) (scorer : TermScorer) :
    Prop where
  document : scorer.current = current
  ahead : scorer.ahead = behind (after current) list.words
  valid : ∀ place, current = some place → place = noMore ∨ HasDocument list.words place
  frequency : ∀ place, current = some place → place ≠ noMore →
    scorer.frequency.toNat = setBits list.words place
  weight : scorer.weight = list.weight
  lengths : scorer.lengths = list.lengths

variable {list : WeightedPostings} {scorer : TermScorer} {current : Option DocumentId}

/-- Moving among the words from a number on finds the first document from that number on. -/
theorem At.nextAmong (hat : At list current scorer) (h : list.words.ByDocument)
    (hfit : list.words.CountsFit) (hbelow : ∀ word ∈ list.words, word.document < noMore)
    (start : Nat) :
    ∃ place, IsFirst (HasDocument list.words) start place ∧
      At list (some place) (scorer.nextAmong (behind start list.words)) := by
  obtain ⟨place, hfirst, hcurrent, hahead, hcount⟩ := scorer.nextAmong_spec (h.behind start)
    (hfit.behind start) fun word hword => hbelow word (Postings.mem_behind.1 hword).1
  obtain ⟨hweight, hlengths⟩ := scorer.nextAmong_weight (behind start list.words)
  have hplace : place = noMore ∨ HasDocument list.words place ∧ start ≤ place.toNat :=
    hfirst.1.imp_right fun hmem => Postings.hasDocument_behind.1 hmem.1
  refine ⟨place, ⟨hplace, fun other hother hfrom => ?_⟩, hcurrent, ?_, ?_, ?_,
    hweight.trans hat.weight, hlengths.trans hat.lengths⟩
  · exact hfirst.le (Postings.hasDocument_behind.2 ⟨hother, hfrom⟩) (Nat.zero_le _)
  · rw [hahead, after]
    rcases hplace with rfl | hmem
    · have hmore : ∀ word ∈ list.words, word.document.toNat < noMore.toNat + 1 :=
        fun word hword => Nat.lt_succ_of_lt (UInt32.lt_iff_toNat_lt.1 (hbelow word hword))
      rw [Postings.behind_eq_nil hmore,
        Postings.behind_eq_nil fun word hword => hmore word (Postings.mem_behind.1 hword).1]
    · exact Postings.behind_behind (by omega) list.words
  · rintro _ ⟨⟩
    exact hplace.imp_right And.left
  · rintro _ ⟨⟩ hmore
    rw [hcount, Postings.setBits_behind (hplace.resolve_left hmore).2]

/-- Seeking skips the words ahead that lie before the target. -/
theorem At.seek_eq (hat : At list current scorer) (h : list.words.ByDocument)
    {target : DocumentId} (hbefore : Scorer.isBefore current target = true) :
    scorer.seek target = scorer.nextAmong (behind target.toNat list.words) := by
  have hstart : after current ≤ target.toNat := by
    cases current with
    | none => exact Nat.zero_le _
    | some place => exact UInt32.lt_iff_toNat_lt.1 (of_decide_eq_true hbefore)
  have hleading : Leading (fun word => word.document < target)
      (behind (after current) list.words) := by
    refine (h.behind _).imp fun hle hlt => ?_
    rw [decide_eq_true_eq] at hlt ⊢
    exact UInt32.lt_of_le_of_lt hle hlt
  rw [seek, hat.ahead, Postings.countBelow_eq_countP hleading, hleading.drop_countP_eq_filter,
    ← Postings.behind_behind hstart]
  congr 1
  refine List.filter_congr fun word _ => ?_
  rw [← decide_not]
  refine decide_eq_decide.2 ?_
  rw [UInt32.lt_iff_toNat_lt, Nat.not_lt]

end TermScorer

/-- The score of a document with set bits in a posting list. -/
def WeightedPostings.worth (list : WeightedPostings) (document : DocumentId) : Float32 :=
  list.weight.score (list.words.setBits document).toUInt32 (list.lengths document)

/-- At a document, the scorer of a posting list answers with the score of all its set bits. -/
theorem TermScorer.At.score_eq {list : WeightedPostings} {scorer : TermScorer} {place : DocumentId}
    (hat : At list (some place) scorer) (hmore : place ≠ noMore) :
    scorer.score = list.worth place := by
  have hcount : (list.words.setBits place).toUInt32 = scorer.frequency := by
    rw [← hat.frequency place rfl hmore]
    exact UInt32.ofNat_toNat
  simp only [score, hat.document, if_neg hmore, hat.weight, hat.lengths, WeightedPostings.worth,
    hcount]

namespace Role

/-- The role of the scorer of a posting list. -/
def term (list : WeightedPostings) : Role where
  height := 0
  members := list.words.HasDocument
  worth document value := value = list.worth document

/-- The role of the scorer of all documents below a limit. -/
def all (limit : DocumentId) : Role where
  height := 0
  members document := document < limit
  worth _ value := value = 1.0

end Role

namespace Scorer

/-- A scorer of a posting list at a place. -/
def TermAt (list : WeightedPostings) (current : Option DocumentId) (scorer : Scorer) : Prop :=
  ∃ inner : TermScorer, scorer = term inner ∧ inner.At list current

variable {list : WeightedPostings}

/-- The scorer of a posting list is a cursor over the documents with a set bit. -/
theorem invariant_termAt (h : list.words.ByDocument) (hfit : list.words.CountsFit)
    (hbelow : ∀ word ∈ list.words, word.document < noMore) :
    (Role.term list).Invariant (TermAt list) where
  below := by
    intro document hfound
    obtain ⟨word, hword, rfl, -⟩ := hfound
    exact hbelow word hword
  height := by
    intro current scorer hfound
    obtain ⟨inner, rfl, -⟩ := hfound
    rfl
  document := by
    intro current scorer hfound
    obtain ⟨inner, rfl, hat⟩ := hfound
    exact hat.document
  valid := by
    intro place scorer hfound
    obtain ⟨inner, rfl, hat⟩ := hfound
    exact hat.valid place rfl
  next := by
    intro current scorer bound hfound _
    obtain ⟨inner, rfl, hat⟩ := hfound
    obtain ⟨place, hfirst, hmoved⟩ := hat.nextAmong h hfit hbelow (after current)
    refine ⟨place, hfirst, _, next_term inner, ?_⟩
    rw [TermScorer.next, hat.ahead]
    exact hmoved
  advance := by
    intro current scorer bound target hfound _ hbefore
    obtain ⟨inner, rfl, hat⟩ := hfound
    obtain ⟨place, hfirst, hmoved⟩ := hat.nextAmong h hfit hbelow target.toNat
    refine ⟨place, hfirst, _, advance_term (by rwa [← hat.document] at hbefore), ?_⟩
    rw [hat.seek_eq h hbefore]
    exact hmoved
  score := by
    intro current scorer bound hfound _
    obtain ⟨inner, rfl, hat⟩ := hfound
    refine ⟨inner, ?_, hat⟩
    cases bound <;> rfl
  worth := by
    intro place scorer bound hfound _ hmore
    obtain ⟨inner, rfl, hat⟩ := hfound
    refine Eq.trans ?_ (hat.score_eq hmore)
    cases bound <;> rfl
  again := by
    intro place scorer bound hfound _ _
    obtain ⟨inner, rfl, -⟩ := hfound
    cases bound <;> rfl

/-- The scorer of a posting list is a faithful cursor from the start. -/
theorem faithful_term (h : list.words.ByDocument) (hfit : list.words.CountsFit)
    (hbelow : ∀ word ∈ list.words, word.document < noMore) :
    (Role.term list).Faithful none
      (term { ahead := list.words, weight := list.weight, lengths := list.lengths }) := by
  refine ⟨TermAt list, invariant_termAt h hfit hbelow, _, rfl, ⟨rfl, ?_, ?_, ?_, rfl, rfl⟩⟩
  · exact (Postings.behind_zero list.words).symm
  · exact fun _ hplace => nomatch hplace
  · exact fun _ hplace => nomatch hplace

/-! ## More set bits than can be counted -/

/-- A scorer of all documents below a limit at a place. -/
def AllAt (limit : DocumentId) (current : Option DocumentId) (scorer : Scorer) : Prop :=
  scorer = all limit current ∧ ∀ place, current = some place → place = noMore ∨ place < limit

/-- The place at or behind a target is the target itself as long as it lies below the limit. -/
theorem isFirst_below (limit target : DocumentId) :
    IsFirst (· < limit) target.toNat (if limit ≤ target then noMore else target) := by
  split
  · rename_i hle
    refine ⟨Or.inl rfl, fun other hother hstart => ?_⟩
    have hlt := UInt32.lt_of_lt_of_le hother hle
    rw [UInt32.lt_iff_toNat_lt] at hlt
    omega
  · rename_i hnle
    refine ⟨Or.inr ⟨UInt32.not_le.1 hnle, Nat.le_refl _⟩, fun other _ hstart => ?_⟩
    exact UInt32.le_iff_toNat_le.2 hstart

/-- The next document of a range is the first one behind the current place. -/
theorem isFirst_nextBelow (limit : DocumentId) (current : Option DocumentId) :
    IsFirst (· < limit) (after current) (nextBelow limit current) := by
  cases current with
  | none => exact isFirst_below limit 0
  | some place =>
      by_cases hmore : place = noMore
      · subst hmore
        have hnext : nextBelow limit (some noMore) = noMore := by
          simp only [nextBelow, if_true, ite_self]
        rw [hnext]
        refine ⟨Or.inl rfl, fun other _ hstart => ?_⟩
        have hlt := UInt32.toNat_lt other
        have htop : noMore.toNat + 1 ≤ other.toNat := hstart
        rw [toNat_noMore] at htop
        omega
      · have hsucc : (place + 1).toNat = place.toNat + 1 := by
          have hne : place.toNat ≠ noMore.toNat := fun heq => hmore (UInt32.toNat_inj.1 heq)
          have hlt := UInt32.toNat_lt place
          rw [toNat_noMore] at hne
          rw [UInt32.toNat_add]
          change (place.toNat + 1) % 2 ^ 32 = _
          omega
        have hnext : nextBelow limit (some place) =
            if limit ≤ place + 1 then noMore else place + 1 := by
          simp only [nextBelow, if_neg hmore]
        rw [hnext, after, ← hsucc]
        exact isFirst_below limit (place + 1)

/-- The scorer of a range is a cursor over the documents below its limit. -/
theorem invariant_allAt (limit : DocumentId) : (Role.all limit).Invariant (AllAt limit) where
  below := fun document hlt => UInt32.lt_of_lt_of_le hlt (by
    rw [UInt32.le_iff_toNat_le, toNat_noMore]
    have hlimit := UInt32.toNat_lt limit
    omega)
  height := by
    intro current scorer h
    obtain ⟨rfl, -⟩ := h
    rfl
  document := by
    intro current scorer h
    obtain ⟨rfl, -⟩ := h
    rfl
  valid := by
    intro place scorer h
    obtain ⟨rfl, hplace⟩ := h
    exact hplace place rfl
  next := by
    intro current scorer bound h _
    obtain ⟨rfl, -⟩ := h
    have hfirst := isFirst_nextBelow limit current
    refine ⟨nextBelow limit current, hfirst, next_all limit current, ?_⟩
    rintro _ ⟨⟩
    exact hfirst.1.imp_right And.left
  advance := by
    intro current scorer bound target h _ hbefore
    obtain ⟨rfl, -⟩ := h
    have hfirst := isFirst_below limit target
    refine ⟨_, hfirst, advance_all hbefore, ?_⟩
    rintro _ ⟨⟩
    exact hfirst.1.imp_right And.left
  score := by
    intro current scorer bound h _
    obtain ⟨rfl, hplace⟩ := h
    refine ⟨?_, hplace⟩
    cases bound <;> rfl
  worth := by
    intro place scorer bound h _ _
    obtain ⟨rfl, -⟩ := h
    cases bound <;> rfl
  again := by
    intro place scorer bound h _ _
    obtain ⟨rfl, -⟩ := h
    cases bound <;> rfl

/-- The scorer of a range is a faithful cursor from the start. -/
theorem faithful_all (limit : DocumentId) :
    (Role.all limit).Faithful none (all limit none) :=
  ⟨AllAt limit, invariant_allAt limit, rfl, fun _ hplace => nomatch hplace⟩

end Scorer
end Concordance
