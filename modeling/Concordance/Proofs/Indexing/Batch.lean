import Concordance.Indexing.Batch
import Concordance.Proofs.Fusion.Units
import Concordance.Proofs.Posting.Positions
import Concordance.Proofs.Table

/-!
# What a batch holds

The list of a unit in a batch covers exactly the places at which the unit occurs in the documents
added (`Batch.covers_ofAdditions`). It does so in whatever order the documents came, also when one
document came twice, and when a longer unit reads like a token.
-/

namespace Concordance

/-! ## Covering -/

/-- What is found for a unit stands for these addresses: there is a list, without empty words, if
there are any. -/
structure Covers (found : Option Postings) (occurs : Nat → Prop) : Prop where
  full : (found.getD []).Full
  mem_iff : ∀ x, x ∈ (found.getD []).addresses ↔ occurs x
  ne_nil : found ≠ some []

namespace Covers

variable {found : Option Postings} {occurs occurs' : Nat → Prop}

/-- Nothing is found exactly if there are no addresses. -/
theorem eq_none_iff (h : Covers found occurs) : found = none ↔ ∀ x, ¬ occurs x := by
  cases found with
  | none =>
      simp only [true_iff]
      intro x hx
      have hmem := (h.mem_iff x).2 hx
      cases hmem
  | some words =>
      have hne : words ≠ [] := fun hnil => h.ne_nil (congrArg some hnil)
      obtain ⟨x, hx⟩ := Postings.Full.exists_mem h.full hne
      simp only [reduceCtorEq, false_iff]
      intro hnone
      exact hnone x ((h.mem_iff x).1 hx)

/-- Covering is about which addresses there are, not about how they are described. -/
theorem congr (h : Covers found occurs) (hiff : ∀ x, occurs x ↔ occurs' x) :
    Covers found occurs' :=
  ⟨h.full, fun x => (h.mem_iff x).trans (hiff x), h.ne_nil⟩

/-- No list covers no addresses. -/
theorem none (h : ∀ x, ¬ occurs x) : Covers none occurs := by
  refine ⟨Postings.Full.nil, fun x => ?_, by simp⟩
  constructor
  · intro hx
    cases hx
  · intro hx
    exact absurd hx (h x)

/-- A list without empty words covers its own addresses, of which there is one. -/
theorem some {words : Postings} (hfull : words.Full) (hiff : ∀ x, x ∈ words.addresses ↔ occurs x)
    (hsome : ∃ x, occurs x) : Covers (some words) occurs := by
  refine ⟨hfull, hiff, ?_⟩
  intro hnil
  obtain ⟨x, hx⟩ := hsome
  have hmem := (hiff x).2 hx
  rw [Option.some.inj hnil] at hmem
  cases hmem

/-- Lists that cover the same addresses are the same when they are normalized. -/
theorem normalize_eq {other : Option Postings} (h : Covers found occurs)
    (hother : Covers other occurs) :
    found.map Postings.normalize = other.map Postings.normalize := by
  cases found with
  | none =>
      rw [hother.eq_none_iff.2 (h.eq_none_iff.1 rfl)]
  | some words =>
      cases other with
      | none => cases h.eq_none_iff.2 (hother.eq_none_iff.1 rfl)
      | some words' =>
          refine congrArg Option.some (Postings.Canonical.ext
            (Postings.canonical_normalize h.full) (Postings.canonical_normalize hother.full) ?_)
          intro x
          rw [Postings.mem_addresses_normalize, Postings.mem_addresses_normalize]
          exact (h.mem_iff x).trans (hother.mem_iff x).symm

/-- Normalizing a list does not change what it covers. -/
theorem normalize (h : Covers found occurs) : Covers (found.map Postings.normalize) occurs := by
  cases found with
  | none => exact h
  | some words =>
      have hne : words ≠ [] := fun hnil => h.ne_nil (congrArg Option.some hnil)
      obtain ⟨x, hx⟩ := Postings.Full.exists_mem h.full hne
      refine Covers.some (Postings.full_normalize h.full) (fun x => ?_) ⟨x, (h.mem_iff x).1 hx⟩
      rw [Postings.mem_addresses_normalize]
      exact h.mem_iff x

end Covers

namespace Batch

/-! ## Adding the units of one document -/

variable {document : DocumentId} {occurs : Nat → Prop}

/-- Pushing units one by one pushes the positions of each unit together. -/
theorem pushAll_eq (postings : Table Postings) (document : DocumentId)
    (units : List (String × Position)) :
    pushAll postings document units =
      (Table.collect units).entries.foldl (fun table entry => table.alter entry.1 fun words =>
        Postings.push (words.getD []) document entry.2) postings := rfl

/-- Appending the units of a document adds the addresses at which they stand. -/
theorem covers_pushAll {postings : Table Postings} {units : List (String × Position)}
    {unit : String} (h : Covers (postings.find? unit) occurs)
    (hlimit : ∀ entry ∈ units, entry.2 < Position.limit) :
    Covers ((pushAll postings document units).find? unit) fun x =>
      occurs x ∨ ∃ position, (unit, position) ∈ units ∧ x = address document position.toNat := by
  rw [pushAll_eq, Table.find?_foldl_alter (Table.collect units).sorted
    fun positions words => Postings.push (words.getD []) document positions]
  have hmem := fun position => @Table.mem_collect _ units unit position
  cases hcollected : (Table.collect units).entries.lookup unit with
  | none =>
      refine h.congr fun x => ?_
      constructor
      · exact Or.inl
      · rintro (hx | ⟨position, hposition, -⟩)
        · exact hx
        · exact absurd hposition (Table.find?_collect_eq_none.1 hcollected position)
  | some positions =>
      rw [show (Table.collect units).find? unit = some positions from hcollected,
        Option.getD_some] at hmem
      have hpositions : ∀ position ∈ positions, position < Position.limit :=
        fun position hposition => hlimit (unit, position) ((hmem position).1 hposition)
      have haddresses : ∀ x,
          x ∈ (Postings.push ((postings.find? unit).getD []) document positions).addresses ↔
            occurs x ∨
              ∃ position, (unit, position) ∈ units ∧ x = address document position.toNat := by
        intro x
        rw [Postings.mem_addresses_push hpositions, h.mem_iff]
        simp only [hmem]
      -- a unit that was collected stands somewhere
      have hsome : ∃ position, (unit, position) ∈ units := by
        refine Classical.not_forall_not.1 fun hnone => ?_
        cases hcollected.symm.trans (Table.find?_collect_eq_none.2 hnone)
      obtain ⟨position, hposition⟩ := hsome
      exact Covers.some (h.full.push hpositions) haddresses ⟨_, Or.inr ⟨position, hposition, rfl⟩⟩

/-! ## Adding one document -/

/-- All tokens have a position that can be indexed. -/
def Fits (tokens : List String) : Prop :=
  tokens.length ≤ Position.limit.toNat

/-- The positions in a document that fits have 32 bits and are below the limit. -/
theorem toNat_position {tokens : List String} (h : Fits tokens) {position : Nat}
    (hposition : position < tokens.length) :
    position.toUInt32.toNat = position ∧ position.toUInt32 < Position.limit := by
  have hlimit : Position.limit.toNat < 2 ^ 32 := by decide
  have hvalue : position.toUInt32.toNat = position :=
    Nat.mod_eq_of_lt (show position < 2 ^ 32 by unfold Fits at h; omega)
  refine ⟨hvalue, UInt32.lt_iff_toNat_lt.2 ?_⟩
  unfold Fits at h
  omega

/-- The positions of a token are those where it stands. -/
theorem mem_tokenPositions {tokens : List String} {unit : String} {p : Position} :
    (unit, p) ∈ tokenPositions tokens ↔
      ∃ position : Nat, tokens[position]? = some unit ∧ p = position.toUInt32 := by
  unfold tokenPositions
  rw [List.mem_map]
  constructor
  · intro h
    obtain ⟨⟨token, position⟩, hmem, heq⟩ := h
    obtain ⟨rfl, rfl⟩ := Prod.mk.inj heq
    exact ⟨position, List.mk_mem_zipIdx_iff_getElem?.1 hmem, rfl⟩
  · intro h
    obtain ⟨position, hunit, rfl⟩ := h
    exact ⟨(unit, position), List.mk_mem_zipIdx_iff_getElem?.2 hunit, rfl⟩

/-- The positions of a merged unit are those where a run of several tokens with its text starts. -/
theorem mem_unitPositions {common : CommonTokens} {tokens : List String} {unit : String}
    {p : Position} :
    (unit, p) ∈ unitPositions common tokens ↔
      ∃ position, (position, unit) ∈ common.mergedUnits tokens ∧ p = position.toUInt32 := by
  unfold unitPositions
  rw [List.mem_map]
  constructor
  · intro h
    obtain ⟨⟨position, token⟩, hmem, heq⟩ := h
    obtain ⟨rfl, rfl⟩ := Prod.mk.inj heq
    exact ⟨position, hmem, rfl⟩
  · intro h
    obtain ⟨position, hmem, rfl⟩ := h
    exact ⟨(position, unit), hmem, rfl⟩

variable {common : CommonTokens}

/-- Adding a document adds the addresses at which units occur in it. -/
theorem covers_addDocument {batch : Batch} {tokens : List String} {unit : String}
    (h : Covers (batch.postings.find? unit) occurs) (hfits : Fits tokens) :
    Covers ((batch.addDocument common document tokens).postings.find? unit) fun x =>
      occurs x ∨
        ∃ position, common.Occurs tokens unit position ∧ x = address document position := by
  -- positions stay below the limit, so that none of them is cut short
  have htokens : ∀ entry ∈ tokenPositions tokens, entry.2 < Position.limit := by
    intro hfound hentry
    obtain ⟨token, p⟩ := hfound
    obtain ⟨position, htoken, rfl⟩ := mem_tokenPositions.1 hentry
    exact (toNat_position hfits (List.getElem?_eq_some_iff.1 htoken).1).2
  have hoccurs : ∀ {position token}, (position, token) ∈ common.mergedUnits tokens →
      position < tokens.length := by
    intro position token hmem
    exact CommonTokens.Occurs.lt_length (Or.inr (CommonTokens.mem_mergedUnits.1 hmem))
  have hunits : ∀ entry ∈ unitPositions common tokens, entry.2 < Position.limit := by
    intro hfound hentry
    obtain ⟨token, p⟩ := hfound
    obtain ⟨position, hmem, rfl⟩ := mem_unitPositions.1 hentry
    exact (toNat_position hfits (hoccurs hmem)).2
  have hboth := @covers_pushAll document _ (pushAll batch.postings document (tokenPositions tokens))
    (unitPositions common tokens) unit (covers_pushAll h htokens) hunits
  refine hboth.congr fun x => ?_
  constructor
  · rintro ((hx | ⟨p, hp, hx⟩) | ⟨p, hp, hx⟩)
    · exact Or.inl hx
    · obtain ⟨position, htoken, rfl⟩ := mem_tokenPositions.1 hp
      rw [(toNat_position hfits (List.getElem?_eq_some_iff.1 htoken).1).1] at hx
      exact Or.inr ⟨position, Or.inl htoken, hx⟩
    · obtain ⟨position, hmem, rfl⟩ := mem_unitPositions.1 hp
      rw [(toNat_position hfits (hoccurs hmem)).1] at hx
      exact Or.inr ⟨position, Or.inr (CommonTokens.mem_mergedUnits.1 hmem), hx⟩
  · rintro (hx | ⟨position, hposition, hx⟩)
    · exact Or.inl (Or.inl hx)
    · have hvalue := (toNat_position hfits hposition.lt_length).1
      rcases hposition with htoken | hrun
      · refine Or.inl (Or.inr ⟨position.toUInt32, mem_tokenPositions.2 ⟨position, htoken, rfl⟩, ?_⟩)
        rw [hvalue, hx]
      · refine Or.inr ⟨position.toUInt32, mem_unitPositions.2
          ⟨position, CommonTokens.mem_mergedUnits.2 hrun, rfl⟩, ?_⟩
        rw [hvalue, hx]

end Batch

/-! ## Adding documents -/

/-- A document with its tokens. -/
abbrev Addition := DocumentId × List String

/-- A unit occurs in an added document at this address. -/
def OccursIn (common : CommonTokens) (additions : List Addition) (unit : String) (x : Nat) : Prop :=
  ∃ document tokens, (document, tokens) ∈ additions ∧
    ∃ position, common.Occurs tokens unit position ∧ x = address document position

/-- A unit occurs in some documents at the addresses in the first one and in the others. -/
theorem occursIn_cons {common : CommonTokens} {document : DocumentId} {tokens : List String}
    {additions : List Addition} {unit : String} {x : Nat} :
    OccursIn common ((document, tokens) :: additions) unit x ↔
      (∃ position, common.Occurs tokens unit position ∧ x = address document position) ∨
        OccursIn common additions unit x := by
  constructor
  · intro hfound
    obtain ⟨other, tokens', hmem, h⟩ := hfound
    rcases List.mem_cons.1 hmem with heq | hmem
    · obtain ⟨rfl, rfl⟩ := Prod.mk.inj heq
      exact Or.inl h
    · exact Or.inr ⟨other, tokens', hmem, h⟩
  · rintro (h | ⟨other, tokens', hmem, h⟩)
    · exact ⟨document, tokens, List.mem_cons_self, h⟩
    · exact ⟨other, tokens', List.mem_cons_of_mem _ hmem, h⟩

/-- A unit occurs in two series of documents at the addresses in either of them. -/
theorem occursIn_append {common : CommonTokens} {first second : List Addition} {unit : String}
    {x : Nat} :
    OccursIn common (first ++ second) unit x ↔
      OccursIn common first unit x ∨ OccursIn common second unit x := by
  induction first with
  | nil =>
      constructor
      · exact Or.inr
      · rintro (⟨_, _, hmem, _⟩ | h)
        · cases hmem
        · exact h
  | cons addition first ih =>
      rw [List.cons_append, show addition = (addition.1, addition.2) from rfl, occursIn_cons,
        occursIn_cons, ih, or_assoc]

namespace Batch

variable {common : CommonTokens}

/-- A batch to which documents were added one after another. -/
def addAll (common : CommonTokens) (batch : Batch) (additions : List Addition) : Batch :=
  additions.foldl (fun batch (document, tokens) => batch.addDocument common document tokens) batch

/-- The batch of some documents. -/
def ofAdditions (common : CommonTokens) (additions : List Addition) : Batch :=
  addAll common { postings := Table.empty } additions

/-- Documents can be added in two parts. -/
theorem ofAdditions_append (first second : List Addition) :
    ofAdditions common (first ++ second) = addAll common (ofAdditions common first) second :=
  List.foldl_append

/-- Every document that is added counts. -/
@[simp] theorem documents_addAll (batch : Batch) (additions : List Addition) :
    (addAll common batch additions).documents = batch.documents + additions.length := by
  induction additions generalizing batch with
  | nil => rfl
  | cons addition additions ih =>
      have hrest := ih (batch.addDocument common addition.1 addition.2)
      rw [List.length_cons]
      refine hrest.trans ?_
      show batch.documents + 1 + additions.length = _
      omega

/-- A list that is extended by documents covers their occurrences as well. -/
theorem covers_addAll {batch : Batch} {occurs : Nat → Prop} {unit : String}
    (h : Covers (batch.postings.find? unit) occurs) {additions : List Addition}
    (hfits : ∀ addition ∈ additions, Fits addition.2) :
    Covers ((addAll common batch additions).postings.find? unit) fun x =>
      occurs x ∨ OccursIn common additions unit x := by
  induction additions generalizing batch occurs with
  | nil =>
      refine h.congr fun x => ?_
      constructor
      · exact Or.inl
      · rintro (hx | ⟨_, _, hmem, _⟩)
        · exact hx
        · cases hmem
  | cons addition additions ih =>
      obtain ⟨document, tokens⟩ := addition
      have hfirst := @covers_addDocument document occurs common batch tokens unit h
        (hfits _ List.mem_cons_self)
      refine (ih hfirst fun later hlater => hfits later (List.mem_cons_of_mem _ hlater)).congr
        fun x => ?_
      rw [occursIn_cons, or_assoc]

/-- The list of a unit covers the places at which the unit occurs in the documents added. -/
theorem covers_ofAdditions {additions : List Addition}
    (hfits : ∀ addition ∈ additions, Fits addition.2) (unit : String) :
    Covers ((ofAdditions common additions).postings.find? unit)
      (OccursIn common additions unit) := by
  have hstart : Covers (({} : Batch).postings.find? unit) fun _ => False :=
    Covers.none fun _ h => h
  exact (covers_addAll hstart hfits).congr fun x => by rw [false_or]

/-- A batch holds no lists exactly if all its documents are empty. -/
theorem isEmpty_ofAdditions {additions : List Addition}
    (hfits : ∀ addition ∈ additions, Fits addition.2) :
    (ofAdditions common additions).postings.isEmpty = true ↔
      ∀ addition ∈ additions, addition.2 = [] := by
  rw [Table.isEmpty_iff]
  constructor
  · intro hnone h hmem
    obtain ⟨document, tokens⟩ := h
    cases tokens with
    | nil => rfl
    | cons first rest =>
        have hfound := (covers_ofAdditions hfits first).eq_none_iff.1 (hnone first)
        exact absurd ⟨document, first :: rest, hmem, 0, Or.inl rfl, rfl⟩
          (hfound (address document 0))
  · intro hempty unit
    refine (covers_ofAdditions hfits unit).eq_none_iff.2 ?_
    intro x h
    obtain ⟨document, tokens, hmem, position, hoccurs, -⟩ := h
    have hlt := hoccurs.lt_length
    rw [show tokens = [] from hempty (document, tokens) hmem] at hlt
    exact absurd hlt (Nat.not_lt_zero _)

/-! ## What is written -/

/-- The lists of a batch are those of its table, normalized unless the documents came in order. -/
theorem lists_eq (batch : Batch) :
    batch.lists = batch.postings.entries.map fun entry =>
      (entry.1, if batch.inOrder then entry.2 else entry.2.normalize) := by
  unfold lists
  cases batch.inOrder with
  | true => exact (List.map_id _).symm
  | false => rfl

/-- The lists are written in ascending order of their units. -/
theorem lists_sorted (batch : Batch) :
    batch.lists.Pairwise fun first second => first.1 < second.1 := by
  rw [lists_eq]
  exact List.pairwise_map.2 batch.postings.sorted

/-- What is written for a unit is its list in the batch, normalized unless the documents came in
order. -/
theorem lookup_lists (batch : Batch) (unit : String) :
    batch.lists.lookup unit = batch.postings.find? unit ∨
      batch.lists.lookup unit = (batch.postings.find? unit).map Postings.normalize := by
  rw [lists_eq, Table.lookup_map fun words : Postings =>
    if batch.inOrder then words else words.normalize]
  cases batch.inOrder with
  | true =>
      simp only [if_true]
      rw [show (fun words : Postings => words) = id from rfl, Option.map_id]
      exact Or.inl rfl
  | false => exact Or.inr rfl

/-! ## Batches that were emptied -/

/-- A batch has the lists of some documents, and these came in order if the batch says so. Before
them it may have had other documents whose lists are gone. -/
structure Carries (common : CommonTokens) (additions : List Addition) (batch : Batch) : Prop where
  postings : batch.postings = (ofAdditions common additions).postings
  inOrder : batch.inOrder = true → (ofAdditions common additions).inOrder = true
  last : (ofAdditions common additions).last = none ∨
    (ofAdditions common additions).last = batch.last

/-- A batch of some documents has their lists. -/
theorem carries_ofAdditions (additions : List Addition) :
    Carries common additions (ofAdditions common additions) :=
  ⟨rfl, id, Or.inr rfl⟩

/-- A batch without lists has those of no documents. -/
theorem carries_nil {batch : Batch} (h : batch.postings = Table.empty) : Carries common [] batch :=
  ⟨h, fun _ => rfl, Or.inl rfl⟩

/-- A batch that has the lists of some documents has them with one more document, too. -/
theorem Carries.addDocument {additions : List Addition} {batch : Batch}
    (h : Carries common additions batch) (added : Addition) :
    Carries common (additions ++ [added]) (batch.addDocument common added.1 added.2) := by
  have happend : ofAdditions common (additions ++ [added]) =
      (ofAdditions common additions).addDocument common added.1 added.2 :=
    ofAdditions_append additions [added]
  refine ⟨?_, ?_, ?_⟩
  · rw [happend]
    simp only [Batch.addDocument, h.postings]
  · intro hinOrder
    obtain ⟨hbefore, hnext⟩ := Bool.and_eq_true_iff.1 hinOrder
    rw [happend]
    refine Bool.and_eq_true_iff.2 ⟨h.inOrder hbefore, ?_⟩
    unfold isNext at hnext ⊢
    rcases h.last with hlast | hlast
    · rw [hlast]
    · rw [hlast]
      exact hnext
  · rw [happend]
    exact Or.inr rfl

/-- What is written for a unit covers the places at which it occurs in the documents. -/
theorem Carries.covers_lists {additions : List Addition} {batch : Batch}
    (h : Carries common additions batch) (hfits : ∀ addition ∈ additions, Fits addition.2)
    (unit : String) : Covers (batch.lists.lookup unit) (OccursIn common additions unit) := by
  have hcovers := @covers_ofAdditions common additions hfits unit
  rw [← h.postings] at hcovers
  rcases lookup_lists batch unit with hlookup | hlookup
  · rw [hlookup]
    exact hcovers
  · rw [hlookup]
    exact hcovers.normalize

end Batch
end Concordance
