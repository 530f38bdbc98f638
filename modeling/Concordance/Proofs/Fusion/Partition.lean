import Mathlib.Algebra.GroupWithZero.Nat
import Mathlib.Data.List.Induction
import Concordance.Fusion.Partition
import Concordance.Proofs.Fusion.Units
import Concordance.Proofs.Success
import Concordance.Proofs.Table

/-!
# Cutting a query

`minimize` looks up the costs of the units of a query and fails with the first look-up that fails
(`asks_minimize`). Otherwise it cuts the tokens into neighbouring runs, each of which is a unit, at
the least total cost, and every unit is the longest one with which a cut of least cost begins there
(`minimize_optimal`). Whatever a query may ask for is indexed wherever its tokens stand
(`asked_units_indexed`).
-/

namespace Concordance

/-- The limit of all costs is the largest number of 64 bits. -/
theorem Partition.costLimit_eq : costLimit = 2 ^ 64 - 1 := rfl

namespace CommonTokens

variable {common : CommonTokens} {tokens : List String}

/-- The units are those of neighbouring runs that make up the tokens. -/
inductive Cuts (common : CommonTokens) : List String → List TokenUnit → Prop
  | nil : Cuts common [] []
  | cons {run later : List String} {units : List TokenUnit} (hrun : common.IsUnit run)
      (hlater : Cuts common later units) :
      Cuts common (run ++ later) (TokenUnit.ofTokens run :: units)

/-- Tokens can always be cut into single ones. -/
theorem cuts_singletons (tokens : List String) :
    common.Cuts tokens (tokens.map fun token => TokenUnit.ofTokens [token]) := by
  induction tokens with
  | nil => exact Cuts.nil
  | cons token rest ih => exact Cuts.cons (isUnit_singleton token) ih

/-- Without tokens there are no units. -/
theorem Cuts.eq_nil {units : List TokenUnit} (h : common.Cuts tokens units)
    (htokens : tokens = []) : units = [] := by
  cases h with
  | nil => rfl
  | cons hrun hlater => exact absurd (List.append_eq_nil_iff.1 htokens).1 hrun.1

/-- Without common tokens there is only one cut. -/
theorem Cuts.eq_singletons (hempty : common.isEmpty = true) {units : List TokenUnit}
    (h : common.Cuts tokens units) :
    units = tokens.map fun token => TokenUnit.ofTokens [token] := by
  induction h with
  | nil => rfl
  | @cons run later units hrun hlater ih =>
      have hwindow := hrun.2
      have htwo := windowEnd_of_isEmpty hempty run
      have hpos := List.length_pos_iff.2 hrun.1
      obtain ⟨token, rfl⟩ := List.length_eq_one_iff.1 (show run.length = 1 by omega)
      rw [ih]
      rfl

/-- The number of tokens of some units. -/
def tokenCount (units : List TokenUnit) : Nat :=
  (units.map TokenUnit.length).sum

/-- The units behind some others cut the tokens behind theirs. -/
theorem Cuts.drop {before units : List TokenUnit} (h : common.Cuts tokens (before ++ units)) :
    common.Cuts (tokens.drop (tokenCount before)) units := by
  induction before generalizing tokens with
  | nil => exact h
  | cons unit before ih =>
      rw [List.cons_append] at h
      cases h with
      | @cons run later _ hrun hlater =>
          have hcount : tokenCount (.ofTokens run :: before) = run.length + tokenCount before :=
            List.sum_cons
          rw [hcount, List.drop_length_add_append]
          exact ih hlater

/-- The first unit of a cut is a run that the window lets pass. -/
theorem Cuts.exists_first {unit : TokenUnit} {units : List TokenUnit}
    (h : common.Cuts tokens (unit :: units)) :
    0 < unit.length ∧ unit.length < common.windowEnd tokens ∧
      unit = .ofTokens (tokens.take unit.length) ∧
      common.Cuts (tokens.drop unit.length) units := by
  cases h with
  | @cons run later _ hrun hlater =>
      change 0 < run.length ∧ run.length < _ ∧
        _ = TokenUnit.ofTokens ((run ++ later).take run.length) ∧
        common.Cuts ((run ++ later).drop run.length) units
      rw [List.take_left, List.drop_left]
      exact ⟨List.length_pos_iff.2 hrun.1, lt_windowEnd_append_iff.2 hrun.2, rfl, hlater⟩

/-- A run that the window lets pass can be put in front of a cut of what follows it. -/
theorem Cuts.of_first {length : Nat} {units : List TokenUnit} (hpos : 0 < length)
    (hlength : length < common.windowEnd tokens) (h : common.Cuts (tokens.drop length) units) :
    common.Cuts tokens (.ofTokens (tokens.take length) :: units) := by
  have hcuts := Cuts.cons (isUnit_take hpos hlength) h
  rwa [List.take_append_drop] at hcuts

/-- Inside the window a unit has as many tokens as were taken. -/
theorem length_ofTokens_take {length : Nat} (hlength : length < common.windowEnd tokens) :
    (TokenUnit.ofTokens (tokens.take length)).length = length :=
  List.length_take_of_le (lt_windowEnd_iff.1 hlength).1

/-- The lengths that are tried are those that the window lets pass. -/
theorem mem_unitLengths {length : Nat} :
    length ∈ common.unitLengths tokens ↔ 0 < length ∧ length < common.windowEnd tokens := by
  rw [unitLengths, List.mem_reverse, List.mem_range'_1]
  omega

/-! ## What a cut costs -/

variable {cost : String → Except Failure (Option Nat)}

/-- What a unit counts for: nothing if it is not in the index. -/
def price (cost : String → Except Failure (Option Nat)) (unit : String) : Nat :=
  match cost unit with
  | .ok count => count.getD 0
  | .error _ => 0

/-- The sum of what units count for, or the largest number of 64 bits if it is larger. -/
def totalCost (cost : String → Except Failure (Option Nat)) (units : List TokenUnit) : Nat :=
  min (units.map fun unit => price cost unit.text).sum (2 ^ 64 - 1)

/-- A unit in front adds what it counts for to the total, up to the same limit. -/
theorem totalCost_cons (unit : TokenUnit) (units : List TokenUnit) :
    totalCost cost (unit :: units) =
      min (price cost unit.text + totalCost cost units) (2 ^ 64 - 1) := by
  rw [totalCost, totalCost, List.map_cons, List.sum_cons]
  omega

/-- Units that cut tokens at the least cost. -/
structure Cheapest (common : CommonTokens) (cost : String → Except Failure (Option Nat))
    (tokens : List String) (units : List TokenUnit) : Prop where
  cuts : common.Cuts tokens units
  least : ∀ other, common.Cuts tokens other → totalCost cost units ≤ totalCost cost other

/-- A unit is the longest one with which a cut of tokens at the least cost begins. -/
def Longest (common : CommonTokens) (cost : String → Except Failure (Option Nat))
    (tokens : List String) (unit : TokenUnit) : Prop :=
  (∃ later, common.Cheapest cost tokens (unit :: later)) ∧
    ∀ other later, common.Cheapest cost tokens (other :: later) → other.length ≤ unit.length

/-- Units that cut tokens at the least cost, every one of which is the longest one with which such
a cut of the tokens from its first one on begins. -/
structure Optimal (common : CommonTokens) (cost : String → Except Failure (Option Nat))
    (tokens : List String) (units : List TokenUnit) : Prop where
  cheapest : common.Cheapest cost tokens units
  longest : ∀ before unit after, units = before ++ unit :: after →
    common.Longest cost (tokens.drop (tokenCount before)) unit

/-- The end of a query is cut into no units. -/
theorem optimal_nil : common.Optimal cost [] [] where
  cheapest := ⟨Cuts.nil, fun other hother => hother.eq_nil rfl ▸ Nat.le_refl _⟩
  longest := fun before unit after h => by simp at h

/-- Without common tokens the only cut is the best one. -/
theorem optimal_singletons (hempty : common.isEmpty = true) (tokens : List String) :
    common.Optimal cost tokens (tokens.map fun token => TokenUnit.ofTokens [token]) := by
  have hcheapest : ∀ {some units}, common.Cuts some units → common.Cheapest cost some units :=
    fun hcuts => ⟨hcuts, fun other hother =>
      (hcuts.eq_singletons hempty).trans (hother.eq_singletons hempty).symm ▸ Nat.le_refl _⟩
  refine ⟨hcheapest (cuts_singletons tokens), fun before unit after hsplit => ?_⟩
  have hcuts : common.Cuts (tokens.drop (tokenCount before)) (unit :: after) :=
    Cuts.drop (hsplit ▸ cuts_singletons tokens)
  refine ⟨⟨after, hcheapest hcuts⟩, fun other later hother => ?_⟩
  have hsame := (hother.cuts.eq_singletons hempty).trans (hcuts.eq_singletons hempty).symm
  exact (List.cons.inj hsame).1 ▸ Nat.le_refl _

/-! ## Looking up costs -/

/-- The failure of a look-up. -/
def failure? (cost : String → Except Failure (Option Nat)) (unit : String) : Option Failure :=
  match cost unit with
  | .ok _ => none
  | .error failure => some failure

/-- An attempt looks up units one after another. It fails with the first failure of them, and if
there is none its result has a property. -/
structure Asks {α : Type} (cost : String → Except Failure (Option Nat)) (units : List String)
    (attempt : Except Failure α) (holds : α → Prop) : Prop where
  ok : ∀ value, attempt = .ok value → units.findSome? (failure? cost) = none ∧ holds value
  error : ∀ failure, attempt = .error failure →
    units.findSome? (failure? cost) = some failure

section Asks

variable {α β : Type} {units later : List String} {holds : α → Prop} {holds' : β → Prop}

/-- A value that is at hand needs no look-up. -/
theorem Asks.pure {value : α} (h : holds value) : Asks cost [] (.ok value) holds :=
  ⟨fun _ heq => ⟨rfl, Except.ok.inj heq ▸ h⟩, fun _ heq => nomatch heq⟩

/-- What is looked up by two attempts, the second of which goes on with the result of the first. -/
theorem Asks.bind {first : Except Failure α} {next : α → Except Failure β}
    (h : Asks cost units first holds)
    (hnext : ∀ value, holds value → Asks cost later (next value) holds') :
    Asks cost (units ++ later) (first >>= next) holds' := by
  cases hfirst : first with
  | error failure =>
      have hfound := h.error failure hfirst
      refine ⟨fun _ heq => (nomatch heq), fun other heq => ?_⟩
      cases heq
      rw [List.findSome?_append, hfound, Option.some_or]
  | ok value =>
      obtain ⟨hnone, hvalue⟩ := h.ok value hfirst
      have hlater := hnext value hvalue
      refine ⟨fun result heq => ?_, fun failure heq => ?_⟩
      · obtain ⟨hrest, hresult⟩ := hlater.ok result heq
        rw [List.findSome?_append, hnone, hrest]
        exact ⟨rfl, hresult⟩
      · rw [List.findSome?_append, hnone, hlater.error failure heq]
        rfl

/-- What is made of a result looks up nothing more. -/
theorem Asks.map {attempt : Except Failure α} {made : α → β} (h : Asks cost units attempt holds)
    (hmade : ∀ value, holds value → holds' (made value)) :
    Asks cost units (attempt >>= fun value => .ok (made value)) holds' := by
  rw [← List.append_nil units]
  exact h.bind fun value hvalue => Asks.pure (hmade value hvalue)

/-- An attempt whose look-ups all succeed succeeds. -/
theorem Asks.exists_ok {attempt : Except Failure α} (h : Asks cost units attempt holds)
    (hcost : ∀ unit, ∃ count, cost unit = .ok count) :
    ∃ value, attempt = .ok value ∧ holds value := by
  cases hattempt : attempt with
  | ok value => exact ⟨value, rfl, (h.ok value hattempt).2⟩
  | error failure =>
      obtain ⟨unit, -, hfailure⟩ := List.exists_of_findSome?_eq_some (h.error failure hattempt)
      obtain ⟨count, hcount⟩ := hcost unit
      rw [failure?, hcount] at hfailure
      cases hfailure

/-- Looking up a cost yields what the unit counts for. -/
theorem asks_cost (cost : String → Except Failure (Option Nat)) (unit : String) :
    Asks cost [unit] (cost unit) fun count => price cost unit = count.getD 0 := by
  refine ⟨fun count hcount => ?_, fun failure hfailure => ?_⟩
  · rw [List.findSome?_singleton, failure?, price, hcount]
    exact ⟨rfl, rfl⟩
  · rw [List.findSome?_singleton, failure?, hfailure]

end Asks

/-- The costs that are known were looked up. -/
def Knows (cost : String → Except Failure (Option Nat)) (known : Table Nat) : Prop :=
  ∀ unit unitCost, known.find? unit = some unitCost →
    failure? cost unit = none ∧ unitCost = price cost unit

/-- A cost that was looked up may be noted. -/
theorem knows_insert {known : Table Nat} (h : Knows cost known) {unit : String}
    (hunit : failure? cost unit = none) : Knows cost (known.insert unit (price cost unit)) := by
  intro other otherCost hfound
  rw [Table.find?_insert] at hfound
  split at hfound
  · rename_i hsame
    cases hfound
    subst hsame
    exact ⟨hunit, rfl⟩
  · exact h other otherCost hfound

/-- A cost that is known need not be looked up, and would be the same. -/
theorem asks_costOf {known : Table Nat} (h : Knows cost known) (unit : String) :
    Asks cost [unit] (costOf cost known unit) fun result =>
      result.1 = price cost unit ∧ Knows cost result.2 := by
  unfold costOf
  cases hfind : known.find? unit with
  | some unitCost =>
      obtain ⟨hnone, hprice⟩ := h unit unitCost hfind
      refine ⟨fun result heq => ?_, fun failure heq => nomatch heq⟩
      cases heq
      rw [List.findSome?_singleton, hnone]
      exact ⟨rfl, hprice, h⟩
  | none =>
      have hasks := asks_cost cost unit
      refine ⟨fun result heq => ?_, fun failure heq => ?_⟩
      · obtain ⟨count, hcount, heq⟩ := Success.eq_ok_of_bind heq
        cases heq
        obtain ⟨hnone, hprice⟩ := hasks.ok count hcount
        rw [List.findSome?_singleton] at hnone
        refine ⟨by rw [List.findSome?_singleton, hnone], hprice.symm, ?_⟩
        rw [← hprice]
        exact knows_insert h hnone
      · cases hcount : cost unit with
        | ok count =>
            rw [hcount] at heq
            cases heq
        | error other =>
            rw [hcount] at heq
            cases heq
            exact hasks.error _ hcount

/-! ## The dynamic programme -/

variable {later : List Partition}

/-- The partition that starts with the first tokens, as many as `length`. -/
def extension (cost : String → Except Failure (Option Nat)) (tokens : List String)
    (later : List Partition) (length : Nat) : Partition :=
  (later.getD (length - 1) {}).prepend (.ofTokens (tokens.take length))
    (price cost (joinTokens (tokens.take length)))

/-- Considering several lengths looks up their units and keeps the best partition. -/
theorem asks_foldlM_consider {known : Table Nat} (h : Knows cost known)
    (best : Option Partition) (lengths : List Nat) :
    Asks cost (lengths.map fun length => joinTokens (tokens.take length))
      (lengths.foldlM (consider cost tokens later) (best, known)) fun result =>
        result.1 = (lengths.map (extension cost tokens later)).foldl Partition.better best ∧
          Knows cost result.2 := by
  induction lengths generalizing best known with
  | nil => exact Asks.pure ⟨rfl, h⟩
  | cons length rest ih =>
      rw [List.foldlM_cons, List.map_cons, ← List.singleton_append]
      have hone : Asks cost [joinTokens (tokens.take length)]
          (consider cost tokens later (best, known) length) fun result =>
            result.1 = Partition.better best (extension cost tokens later length) ∧
              Knows cost result.2 := by
        refine (asks_costOf h (joinTokens (tokens.take length))).map fun found hfound => ?_
        refine ⟨?_, hfound.2⟩
        rw [extension, hfound.1]
      refine hone.bind fun result hresult => ?_
      obtain ⟨first, knownThen⟩ := result
      obtain ⟨rfl, hknown⟩ := hresult
      exact ih hknown _

/-- Of partitions for descending lengths the longest one of least cost is kept. -/
theorem exists_foldl_better (partition : Nat → Partition) {lengths : List Nat}
    (hne : lengths ≠ []) (hdescending : lengths.Pairwise (· > ·)) :
    ∃ chosen ∈ lengths,
      (lengths.map partition).foldl Partition.better none = some (partition chosen) ∧
      ∀ length ∈ lengths, (partition chosen).cost ≤ (partition length).cost ∧
        ((partition length).cost ≤ (partition chosen).cost → length ≤ chosen) := by
  induction lengths using List.reverseRecOn with
  | nil => exact absurd rfl hne
  | append_singleton longer last ih =>
      rw [List.map_append, List.map_singleton, List.foldl_append, List.foldl_cons, List.foldl_nil]
      obtain ⟨hlonger, -, hlast⟩ := List.pairwise_append.1 hdescending
      by_cases hnil : longer = []
      · subst hnil
        refine ⟨last, List.mem_singleton_self last, rfl, fun length hlength => ?_⟩
        obtain rfl := List.mem_singleton.1 hlength
        exact ⟨Nat.le_refl _, fun _ => Nat.le_refl _⟩
      · obtain ⟨chosen, hchosen, hfold, hbest⟩ := ih hnil hlonger
        rw [hfold]
        by_cases hless : (partition last).cost < (partition chosen).cost
        · -- the last one is cheaper than all that are longer
          refine ⟨last, by simp, if_pos hless, fun length hlength => ?_⟩
          rcases List.mem_append.1 hlength with hmem | hmem
          · have hle := (hbest length hmem).1
            exact ⟨by omega, fun hsame => by omega⟩
          · obtain rfl := List.mem_singleton.1 hmem
            exact ⟨Nat.le_refl _, fun _ => Nat.le_refl _⟩
        · refine ⟨chosen, List.mem_append_left _ hchosen, if_neg hless, fun length hlength => ?_⟩
          rcases List.mem_append.1 hlength with hmem | hmem
          · exact hbest length hmem
          · have hshorter := hlast chosen hchosen length hmem
            obtain rfl := List.mem_singleton.1 hmem
            exact ⟨Nat.not_lt.1 hless, fun _ => Nat.le_of_lt hshorter⟩

/-- A partition whose units are the best ones for some tokens, at its cost. -/
structure Solves (common : CommonTokens) (cost : String → Except Failure (Option Nat))
    (tokens : List String) (partition : Partition) : Prop where
  optimal : common.Optimal cost tokens partition.units
  cost_eq : partition.cost = totalCost cost partition.units

/-- What a unit costs together with the best partition of what follows. -/
theorem cost_extension {length : Nat}
    (hlater : common.Solves cost (tokens.drop length) (later.getD (length - 1) {})) :
    (extension cost tokens later length).cost =
      totalCost cost (extension cost tokens later length).units := by
  rw [extension, Partition.prepend, totalCost_cons, hlater.cost_eq, Partition.costLimit_eq]
  rfl

/-- No cut of tokens costs less than the best one that starts with a unit of the same length. -/
theorem extension_le {unit : TokenUnit} {units : List TokenUnit}
    (hlater : common.Solves cost (tokens.drop unit.length) (later.getD (unit.length - 1) {}))
    (h : common.Cuts tokens (unit :: units)) :
    (extension cost tokens later unit.length).cost ≤ totalCost cost (unit :: units) := by
  obtain ⟨-, -, hunit, hrest⟩ := h.exists_first
  have hleast := hlater.optimal.cheapest.least units hrest
  have htext : joinTokens (tokens.take unit.length) = unit.text :=
    (congrArg TokenUnit.text hunit).symm
  rw [← hlater.cost_eq] at hleast
  rw [extension, Partition.prepend, Partition.costLimit_eq, totalCost_cons, htext]
  change min (price cost unit.text + (later.getD (unit.length - 1) {}).cost) _ ≤ _
  omega

/-- The longest partition of least cost solves the tokens if the later ones solve what follows. -/
theorem solves_extension {chosen : Nat}
    (hlater : ∀ length, 0 < length →
      common.Solves cost (tokens.drop length) (later.getD (length - 1) {}))
    (hne : tokens ≠ []) (hchosen : chosen ∈ common.unitLengths tokens)
    (hbest : ∀ length ∈ common.unitLengths tokens,
      (extension cost tokens later chosen).cost ≤ (extension cost tokens later length).cost ∧
        ((extension cost tokens later length).cost ≤ (extension cost tokens later chosen).cost →
          length ≤ chosen)) :
    common.Solves cost tokens (extension cost tokens later chosen) := by
  obtain ⟨hpos, hwindow⟩ := mem_unitLengths.1 hchosen
  have hrest := hlater chosen hpos
  have hcost := cost_extension hrest
  have hcuts : common.Cuts tokens (extension cost tokens later chosen).units :=
    Cuts.of_first hpos hwindow hrest.optimal.cheapest.cuts
  have hcheapest : common.Cheapest cost tokens (extension cost tokens later chosen).units := by
    refine ⟨hcuts, fun other hother => ?_⟩
    cases other with
    | nil =>
        cases hother
        exact absurd rfl hne
    | cons unit units =>
        obtain ⟨hpos', hwindow', -⟩ := hother.exists_first
        have hle := extension_le (hlater _ hpos') hother
        have hleast := (hbest _ (mem_unitLengths.2 ⟨hpos', hwindow'⟩)).1
        omega
  refine ⟨⟨hcheapest, fun before unit after hsplit => ?_⟩, hcost⟩
  have hlength := length_ofTokens_take hwindow
  cases before with
  | nil =>
      obtain ⟨rfl, hafter⟩ := List.cons.inj hsplit
      refine ⟨⟨after, ?_⟩, fun other units hother => ?_⟩
      · rw [List.nil_append] at hsplit
        exact hsplit ▸ hcheapest
      · obtain ⟨hpos', hwindow', -⟩ := hother.cuts.exists_first
        have hle := extension_le (hlater _ hpos') hother.cuts
        have hsame := hother.least _ hcuts
        rw [hlength]
        exact (hbest _ (mem_unitLengths.2 ⟨hpos', hwindow'⟩)).2 (by omega)
  | cons first before =>
      -- the units behind the first one are those of the partition of what follows
      obtain ⟨rfl, hunits⟩ := List.cons.inj hsplit
      have hcount : tokenCount (.ofTokens (tokens.take chosen) :: before) =
          chosen + tokenCount before := by
        rw [tokenCount, List.map_cons, List.sum_cons, hlength]
        rfl
      rw [hcount, ← List.drop_drop]
      exact hrest.optimal.longest before unit after hunits

/-- The units whose costs are looked up, in this order. -/
def lookups (common : CommonTokens) : List String → List String
  | [] => []
  | first :: rest =>
      lookups common rest ++
        (common.unitLengths (first :: rest)).map fun length =>
          joinTokens ((first :: rest).take length)

/-- From each token on, the cheapest partition solves the tokens that are left. -/
theorem asks_cheapest (position : Nat) (tokens : List String) :
    Asks cost (common.lookups tokens) (common.cheapest cost position tokens) fun result =>
      (∀ place, common.Solves cost (tokens.drop place) (result.1.getD place {})) ∧
        Knows cost result.2 := by
  induction tokens generalizing position with
  | nil =>
      refine Asks.pure ⟨fun place => ?_, fun unit unitCost hfound => nomatch hfound⟩
      have hempty : ([{}] : List Partition).getD place {} = {} := by
        cases place with
        | zero => rfl
        | succ place => rfl
      rw [List.drop_nil, hempty]
      exact ⟨optimal_nil, rfl⟩
  | cons first rest ih =>
      refine (ih (position + 1)).bind fun result hresult => ?_
      obtain ⟨later, known⟩ := result
      obtain ⟨hlater, hknown⟩ := hresult
      have hfollowing : ∀ length, 0 < length →
          common.Solves cost ((first :: rest).drop length) (later.getD (length - 1) {}) := by
        intro length hpos
        obtain ⟨length, rfl⟩ := Nat.exists_eq_succ_of_ne_zero (Nat.ne_of_gt hpos)
        exact hlater length
      -- the first token alone is always considered, so that some partition is found
      have hsome : common.unitLengths (first :: rest) ≠ [] :=
        List.ne_nil_of_mem (mem_unitLengths.2
          ⟨Nat.one_pos, one_lt_windowEnd (List.cons_ne_nil first rest)⟩)
      have hdescending : (common.unitLengths (first :: rest)).Pairwise (· > ·) :=
        List.pairwise_reverse.2 List.pairwise_lt_range'
      obtain ⟨chosen, hchosen, hfold, hbest⟩ :=
        exists_foldl_better (extension cost (first :: rest) later) hsome hdescending
      have hsolves := solves_extension hfollowing (List.cons_ne_nil first rest) hchosen hbest
      rw [← List.append_nil (List.map _ _)]
      refine (asks_foldlM_consider hknown none _).bind fun result hresult => ?_
      obtain ⟨best, knownThen⟩ := result
      obtain ⟨rfl, hknownThen⟩ := hresult
      simp only [hfold]
      refine Asks.pure ⟨fun place => ?_, hknownThen⟩
      cases place with
      | zero => exact hsolves
      | succ place => exact hlater place

/-- Where there are common tokens, the costs of all units are looked up. -/
theorem asks_minimize (hempty : common.isEmpty = false) (tokens : List String) :
    Asks cost (common.lookups tokens) (common.minimize cost tokens)
      (common.Optimal cost tokens) := by
  rw [minimize, if_neg (by rw [hempty]; exact Bool.false_ne_true)]
  refine (asks_cheapest 0 tokens).map fun result hresult => ?_
  have hfirst := (hresult.1 0).optimal
  rwa [List.drop_zero, ← List.headD_eq_getD] at hfirst

/-- A query is cut into units. -/
theorem minimize_cuts (hcost : ∀ unit, ∃ count, cost unit = .ok count) (tokens : List String) :
    ∃ units, common.minimize cost tokens = .ok units ∧ common.Cuts tokens units := by
  cases hempty : common.isEmpty with
  | true => exact ⟨_, if_pos hempty, cuts_singletons tokens⟩
  | false =>
      obtain ⟨units, hunits, hoptimal⟩ := (asks_minimize hempty tokens).exists_ok hcost
      exact ⟨units, hunits, hoptimal.cheapest.cuts⟩

/-- **Queries are cut at least cost.** The units of a query are runs of its tokens one after
another, each of them inside the window where it stands. No other cut costs less, and every unit is
the longest one with which a cut of least cost begins there. Cutting fails only if there are common
tokens and the look-up of a unit fails, with the first failure in the order of the look-ups. -/
theorem minimize_optimal (common : CommonTokens) (cost : String → Except Failure (Option Nat))
    (tokens : List String) :
    (∀ units, common.minimize cost tokens = .ok units →
      common.Cuts tokens units ∧
      (∀ other, common.Cuts tokens other → totalCost cost units ≤ totalCost cost other) ∧
      ∀ before unit after, units = before ++ unit :: after →
        0 < unit.length ∧ unit.length < common.windowEnd (tokens.drop (tokenCount before)) ∧
        unit = .ofTokens ((tokens.drop (tokenCount before)).take unit.length) ∧
        common.Longest cost (tokens.drop (tokenCount before)) unit) ∧
    ∀ failure, common.minimize cost tokens = .error failure ↔ common.isEmpty = false ∧
      (common.lookups tokens).findSome? (failure? cost) = some failure := by
  refine ⟨fun units hunits => ?_, fun failure => ?_⟩
  · have hoptimal : common.Optimal cost tokens units := by
      cases hempty : common.isEmpty with
      | true =>
          rw [minimize, if_pos hempty] at hunits
          exact Except.ok.inj hunits ▸ optimal_singletons hempty tokens
      | false => exact ((asks_minimize hempty tokens).ok units hunits).2
    refine ⟨hoptimal.cheapest.cuts, hoptimal.cheapest.least, fun before unit after hsplit => ?_⟩
    have hcuts : common.Cuts (tokens.drop (tokenCount before)) (unit :: after) :=
      Cuts.drop (hsplit ▸ hoptimal.cheapest.cuts)
    obtain ⟨hpos, hwindow, hunit, -⟩ := hcuts.exists_first
    exact ⟨hpos, hwindow, hunit, hoptimal.longest before unit after hsplit⟩
  · cases hempty : common.isEmpty with
    | true =>
        rw [minimize, if_pos hempty]
        exact iff_of_false (fun h => nomatch h) (fun h => nomatch h.1)
    | false =>
        have hasks : Asks cost (common.lookups tokens) (common.minimize cost tokens) _ :=
          asks_minimize hempty tokens
        refine ⟨fun h => ⟨rfl, hasks.error failure h⟩, fun h => ?_⟩
        cases hresult : common.minimize cost tokens with
        | ok units =>
            have hnone := (hasks.ok units hresult).1
            rw [h.2] at hnone
            cases hnone
        | error other =>
            have hfound := hasks.error other hresult
            rw [h.2] at hfound
            exact congrArg Except.error (Option.some.inj hfound).symm

/-- What the run "the cat", the token "the" and every other unit cost. -/
def costsOf (run first other : Nat) (unit : String) : Except Failure (Option Nat) :=
  .ok (some (if unit = "the cat" then run else if unit = "the" then first else other))

/-- Of two cuts that cost the same the one with the longer unit is taken, also if the sum for the
shorter ones is the largest number of 64 bits only because it does not go further. Cheaper units are
taken however short they are. If the cost of the last token cannot be told, there is no cut. -/
theorem minimize_optimal_tie :
    (ofList ["the"]).minimize (costsOf 7 3 4) ["the", "cat"] = .ok [⟨"the cat", 2⟩] ∧
      (ofList ["the"]).Longest (costsOf 7 3 4) ["the", "cat"] ⟨"the cat", 2⟩ ∧
      (ofList ["the"]).minimize (costsOf (2 ^ 64 - 1) (2 ^ 64 - 2) 2) ["the", "cat"] =
        .ok [⟨"the cat", 2⟩] ∧
      (ofList ["the"]).minimize (costsOf (2 ^ 64 - 1) (2 ^ 64 - 3) 1) ["the", "cat"] =
        .ok [⟨"the", 1⟩, ⟨"cat", 1⟩] ∧
      (ofList ["the"]).minimize (fun unit => if unit = "cat" then .error .endOfQuery else .ok none)
        ["the", "cat"] = .error .endOfQuery := by
  have htie : (ofList ["the"]).minimize (costsOf 7 3 4) ["the", "cat"] = .ok [⟨"the cat", 2⟩] := by
    decide +kernel
  obtain ⟨-, -, hunits⟩ := (minimize_optimal (ofList ["the"]) _ ["the", "cat"]).1 _ htie
  obtain ⟨-, -, -, hlongest⟩ := hunits [] _ [] rfl
  refine ⟨htie, hlongest, by decide +kernel, by decide +kernel, ?_⟩
  exact ((minimize_optimal (ofList ["the"]) _ ["the", "cat"]).2 .endOfQuery).2
    ⟨by decide +kernel, by decide +kernel⟩

/-! ## What a query asks for -/

/-- Every unit of a cut is a run at some token that the window lets pass there. -/
theorem Cuts.exists_run {units : List TokenUnit} (h : common.Cuts tokens units) {unit : TokenUnit}
    (hunit : unit ∈ units) :
    ∃ start length, 1 ≤ length ∧ length < common.windowEnd (tokens.drop start) ∧
      unit = .ofTokens ((tokens.drop start).take length) := by
  induction h with
  | nil => cases hunit
  | @cons run later units hrun hlater ih =>
      rcases List.mem_cons.1 hunit with rfl | hunit
      · refine ⟨0, run.length, List.length_pos_iff.2 hrun.1, lt_windowEnd_append_iff.2 hrun.2, ?_⟩
        rw [List.drop_zero, List.take_left]
      · obtain ⟨start, length, hpos, hlength, heq⟩ := ih hunit
        refine ⟨run.length + start, length, hpos, ?_⟩
        rw [List.drop_length_add_append]
        exact ⟨hlength, heq⟩

/-- **What a query asks for is indexed.** A run that a query may look up as one is inside the window
wherever its tokens stand in a document, and is indexed there if it has several tokens; the tokens
after the run make no difference. The units of a query are runs of this kind. -/
theorem asked_units_indexed (common : CommonTokens) (document query : List String) :
    (∀ start length position, 1 ≤ length → length < common.windowEnd (query.drop start) →
      (document.drop position).take length = (query.drop start).take length →
      length < common.windowEnd (document.drop position) ∧
        (2 ≤ length →
          (position, joinTokens ((query.drop start).take length)) ∈ common.mergedUnits document)) ∧
    (∀ run later : List String,
      run.length < common.windowEnd (run ++ later) ↔ run.length < common.windowEnd run) ∧
    ∀ cost : String → Option Nat, ∃ units,
      common.minimize (fun unit => .ok (cost unit)) query = .ok units ∧
        ∀ unit ∈ units, ∃ start length, 1 ≤ length ∧
          length < common.windowEnd (query.drop start) ∧
          unit = .ofTokens ((query.drop start).take length) := by
  refine ⟨?_, fun run later => lt_windowEnd_append_iff, fun cost => ?_⟩
  · intro start length position _ hlength hsame
    have hwindow := lt_windowEnd_of_take_eq hlength hsame
    refine ⟨hwindow, fun htwo => mem_mergedUnits.2 ⟨length, htwo, hwindow, ?_⟩⟩
    rw [hsame]
  · obtain ⟨units, hunits, hcuts⟩ := @minimize_cuts common (fun unit => .ok (cost unit))
      (fun unit => ⟨cost unit, rfl⟩) query
    exact ⟨units, hunits, fun unit hunit => hcuts.exists_run hunit⟩

/-- The run "of the" at the end of a query is indexed inside a document that goes on. -/
theorem asked_units_indexed_at_end :
    2 < (ofList ["of", "the"]).windowEnd (["end", "of", "the"].drop 1) ∧
    2 < (ofList ["of", "the"]).windowEnd (["king", "of", "the", "hill"].drop 1) ∧
      (1, "of the") ∈ (ofList ["of", "the"]).mergedUnits ["king", "of", "the", "hill"] := by
  have hasked : 2 < (ofList ["of", "the"]).windowEnd (["end", "of", "the"].drop 1) := by
    decide +kernel
  obtain ⟨hruns, -, -⟩ := asked_units_indexed (ofList ["of", "the"]) ["king", "of", "the", "hill"]
    ["end", "of", "the"]
  obtain ⟨hwindow, hindexed⟩ := hruns 1 2 1 (by decide) hasked rfl
  exact ⟨hasked, hwindow, hindexed (by decide)⟩

end CommonTokens
end Concordance
