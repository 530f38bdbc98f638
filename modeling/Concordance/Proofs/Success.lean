import Concordance.Failure
import Mathlib.Data.List.Forall2

/-!
# Successful computations

A sequence of attempts succeeds only if every one of them does. The lemmas here take a successful
computation apart into its steps, for computations that only fail (`eq_ok_of_bind`) and for those
that also have a state (`of_bind`). A computation with a state that fails has performed the steps
before the one that failed (`fails_of_bind`). What every step leaves as it was is left so either way
(`Keeps.bind`).
-/

namespace Concordance

variable {α β σ : Type}

/-! ## Computations without a state -/

namespace Success

/-- Two steps succeed if the first one does and the second one does with its result. -/
theorem eq_ok_of_bind {first : Except Failure α} {next : α → Except Failure β} {result : β}
    (h : first >>= next = .ok result) : ∃ value, first = .ok value ∧ next value = .ok result := by
  cases first with
  | error failure => cases h
  | ok value => exact ⟨value, rfl, h⟩

/-- A computation whose result passes a test has a result. -/
theorem exists_of_any {outcome : Except Failure α} {test : α → Bool}
    (h : outcome.toOption.any test = true) : ∃ value, outcome = .ok value ∧ test value = true := by
  cases outcome with
  | error failure => cases h
  | ok value => exact ⟨value, rfl, h⟩

/-- What a loop that succeeds yields, given what each of its rounds adds. -/
theorem foldlM_induction {step : β → α → Except Failure β} (holds : List α → β → Prop)
    (hstep : ∀ done element state later, holds done state → step state element = .ok later →
      holds (done ++ [element]) later)
    {elements : List α} {state result : β} (hstart : holds [] state)
    (h : elements.foldlM step state = .ok result) : holds elements result := by
  suffices hgeneral : ∀ done, holds done state → holds (done ++ elements) result from
    hgeneral [] hstart
  intro done hdone
  clear hstart
  induction elements generalizing done state with
  | nil =>
      cases h
      rw [List.append_nil]
      exact hdone
  | cons element rest ih =>
      rw [List.foldlM_cons] at h
      obtain ⟨later, hfirst, hrest⟩ := eq_ok_of_bind h
      have hlater := ih hrest (done ++ [element]) (hstep done element state later hdone hfirst)
      rw [List.append_assoc] at hlater
      exact hlater

/-- A loop all of whose rounds succeed has a result. -/
theorem exists_foldlM {step : β → α → Except Failure β} {elements : List α}
    (h : ∀ element ∈ elements, ∀ state, ∃ later, step state element = .ok later) (state : β) :
    ∃ result, elements.foldlM step state = .ok result := by
  induction elements generalizing state with
  | nil => exact ⟨state, rfl⟩
  | cons element rest ih =>
      obtain ⟨hfirst, hrest⟩ := List.forall_mem_cons.1 h
      obtain ⟨later, hlater⟩ := hfirst state
      obtain ⟨result, hresult⟩ := ih hrest later
      refine ⟨result, ?_⟩
      rw [List.foldlM_cons, hlater]
      exact hresult

end Success

/-! ## Computations with a state -/

/-- A computation on a state that may fail and does not undo what it did before. -/
abbrev Attempt (σ α : Type) := ExceptT Failure (StateM σ) α

namespace Attempt

/-- The computation succeeds on a state, with this result and this state afterwards. -/
def Yields (attempt : Attempt σ α) (state : σ) (result : α) (later : σ) : Prop :=
  attempt state = (.ok result, later)

variable {state later : σ}

/-- A value that is at hand is the result, and the state stays. -/
theorem of_pure {value result : α} (h : Yields (pure value) state result later) :
    result = value ∧ later = state := by
  cases h
  exact ⟨rfl, rfl⟩

/-- A sequence goes on with what its first step leaves. -/
theorem run_bind (first : Attempt σ α) (next : α → Attempt σ β) :
    (first >>= next) state = ExceptT.bindCont next (first state).1 (first state).2 :=
  rfl

/-- A sequence succeeds if its first step does, and the second one does in the state that it leaves.
-/
theorem of_bind {first : Attempt σ α} {next : α → Attempt σ β} {result : β}
    (h : Yields (first >>= next) state result later) :
    ∃ value between, Yields first state value between ∧
      Yields (next value) between result later := by
  cases hfirst : first state with
  | mk outcome between =>
      rw [Yields, run_bind, hfirst] at h
      cases outcome with
      | error failure => cases h
      | ok value => exact ⟨value, between, hfirst, h⟩

/-- What throws a failure does not succeed. -/
theorem of_throw {failure : Failure} {result : α}
    (h : Yields (throw failure : Attempt σ α) state result later) : False := by
  cases h

/-- After looking at the state, a sequence goes on in this state. -/
theorem of_get_bind {next : σ → Attempt σ β} {result : β}
    (h : Yields (get >>= next) state result later) : Yields (next state) state result later :=
  h

/-- The state that is set is the one afterwards. -/
theorem of_set {value : σ} {result : PUnit}
    (h : Yields (set value : Attempt σ PUnit) state result later) : later = value := by
  cases h
  rfl

/-- After setting the state, a sequence goes on in the state that was set. -/
theorem of_set_bind {value : σ} {next : PUnit → Attempt σ β} {result : β}
    (h : Yields (set value >>= next) state result later) : Yields (next ⟨⟩) value result later :=
  h

/-- A modification leaves the modified state. -/
theorem of_modify {f : σ → σ} {result : PUnit}
    (h : Yields (modify f : Attempt σ PUnit) state result later) : later = f state := by
  cases h
  rfl

/-- A computation without a state that is part of one with a state. -/
theorem of_lift {outcome : Except Failure α} {result : α}
    (h : Yields (liftM outcome : Attempt σ α) state result later) :
    outcome = .ok result ∧ later = state := by
  cases outcome with
  | error failure => cases h
  | ok value =>
      cases h
      exact ⟨rfl, rfl⟩

/-- After a computation without a state, a sequence goes on with its result in the same state. -/
theorem of_lift_bind {outcome : Except Failure α} {next : α → Attempt σ β} {result : β}
    (h : Yields (liftM outcome >>= next) state result later) :
    ∃ value, outcome = .ok value ∧ Yields (next value) state result later := by
  obtain ⟨value, between, hlift, hnext⟩ := of_bind h
  obtain ⟨houtcome, rfl⟩ := of_lift hlift
  exact ⟨value, houtcome, hnext⟩

/-! ## Computations with a state that fail -/

/-- The computation fails on a state, with this failure and this state afterwards. -/
def Fails (attempt : Attempt σ α) (state : σ) (failure : Failure) (later : σ) : Prop :=
  attempt state = (.error failure, later)

variable {failure : Failure}

/-- A value that is at hand does not fail. -/
theorem not_fails_pure {value : α} (h : Fails (pure value) state failure later) : False := by
  cases h

/-- A sequence fails in its first step, or in the steps after it. -/
theorem fails_of_bind {first : Attempt σ α} {next : α → Attempt σ β}
    (h : Fails (first >>= next) state failure later) :
    Fails first state failure later ∨
      ∃ value between, Yields first state value between ∧
        Fails (next value) between failure later := by
  cases hfirst : first state with
  | mk outcome between =>
      rw [Fails, run_bind, hfirst] at h
      cases outcome with
      | error other =>
          cases h
          exact Or.inl hfirst
      | ok value => exact Or.inr ⟨value, between, hfirst, h⟩

/-- A sequence whose first step succeeds goes on with the steps after it. -/
theorem bind_of_yields {first : Attempt σ α} {next : α → Attempt σ β} {value : α}
    (h : Yields first state value later) : (first >>= next) state = next value later := by
  rw [run_bind, h]
  rfl

/-- A sequence yields what its second step yields after the first one. -/
theorem yields_bind {first : Attempt σ α} {next : α → Attempt σ β} {value : α} {between : σ}
    {result : β} (h : Yields first state value between)
    (hnext : Yields (next value) between result later) :
    Yields (first >>= next) state result later :=
  (bind_of_yields h).trans hnext

/-- A sequence whose first step fails ends there. -/
theorem bind_of_fails {first : Attempt σ α} {next : α → Attempt σ β}
    (h : Fails first state failure later) : (first >>= next) state = (.error failure, later) := by
  rw [run_bind, h]
  rfl

/-- Throwing a failure leaves the state as it was. -/
theorem fails_of_throw {other : Failure}
    (h : Fails (throw other : Attempt σ α) state failure later) :
    later = state := by
  cases h
  rfl

/-- If a sequence fails that looks at the state first, it fails in this state. -/
theorem fails_of_get_bind {next : σ → Attempt σ β}
    (h : Fails (get >>= next) state failure later) : Fails (next state) state failure later :=
  h

/-- If a sequence fails that sets the state first, it fails in the state that was set. -/
theorem fails_of_set_bind {value : σ} {next : PUnit → Attempt σ β}
    (h : Fails (set value >>= next) state failure later) : Fails (next ⟨⟩) value failure later :=
  h

/-- A modification does not fail. -/
theorem not_fails_modify {f : σ → σ}
    (h : Fails (modify f : Attempt σ PUnit) state failure later) : False := by
  cases h

/-- A computation without a state leaves the state as it was when it fails. -/
theorem fails_of_lift {outcome : Except Failure α}
    (h : Fails (liftM outcome : Attempt σ α) state failure later) : later = state := by
  cases outcome with
  | error other =>
      cases h
      rfl
  | ok value => cases h

/-- If a sequence fails that begins without a state, either this beginning fails or the rest does.
-/
theorem fails_of_lift_bind {outcome : Except Failure α} {next : α → Attempt σ β}
    (h : Fails (liftM outcome >>= next) state failure later) :
    later = state ∨ ∃ value, outcome = .ok value ∧ Fails (next value) state failure later := by
  rcases fails_of_bind h with hlift | ⟨value, between, hlift, hnext⟩
  · exact Or.inl (fails_of_lift hlift)
  · obtain ⟨houtcome, rfl⟩ := of_lift hlift
    exact Or.inr ⟨value, houtcome, hnext⟩

/-! ## What is left as it was -/

/-- A part of the state is left as it was, whether the computation succeeds or fails. -/
def Keeps {γ : Type} (part : σ → γ) (attempt : Attempt σ α) : Prop :=
  ∀ state, part (attempt state).2 = part state

section

variable {γ : Type} {part : σ → γ}

/-- What a computation keeps is as before when it succeeds. -/
theorem Keeps.of_yields {attempt : Attempt σ α} {result : α} (h : Keeps part attempt)
    (hyields : Yields attempt state result later) : part later = part state := by
  have hkept := h state
  rwa [hyields] at hkept

/-- What a computation keeps is as before when it fails. -/
theorem Keeps.of_fails {attempt : Attempt σ α} (h : Keeps part attempt)
    (hfails : Fails attempt state failure later) : part later = part state := by
  have hkept := h state
  rwa [hfails] at hkept

/-- A value that is at hand keeps everything. -/
theorem keeps_pure (value : α) : Keeps part (pure value : Attempt σ α) :=
  fun _ => rfl

/-- Throwing a failure keeps everything. -/
theorem keeps_throw (failure : Failure) : Keeps part (throw failure : Attempt σ α) :=
  fun _ => rfl

/-- A computation without a state keeps everything. -/
theorem keeps_lift (outcome : Except Failure α) : Keeps part (liftM outcome : Attempt σ α) := by
  intro state
  cases outcome with
  | error failure => rfl
  | ok value => rfl

/-- A sequence keeps what both of its steps keep. -/
theorem Keeps.bind {first : Attempt σ α} {next : α → Attempt σ β} (hfirst : Keeps part first)
    (hnext : ∀ value, Keeps part (next value)) : Keeps part (first >>= next) := by
  intro state
  have hkept := hfirst state
  cases hrun : first state with
  | mk outcome between =>
      rw [hrun] at hkept
      rw [run_bind, hrun]
      cases outcome with
      | error failure => exact hkept
      | ok value => exact (hnext value between).trans hkept

/-- A loop keeps what each of its rounds keeps. -/
theorem keeps_forM {action : α → Attempt σ PUnit} (h : ∀ element, Keeps part (action element))
    (elements : List α) : Keeps part (elements.forM action) := by
  induction elements with
  | nil => exact keeps_pure _
  | cons element rest ih => exact (h element).bind fun _ => ih

end

/-! ## Loops -/

/-- What a loop over a list leaves behind, given what each of its rounds changes. -/
theorem forM_induction {action : α → Attempt σ PUnit} (holds : List α → σ → Prop)
    (hstep : ∀ done element state later, holds done state →
      Yields (action element) state ⟨⟩ later → holds (done ++ [element]) later)
    {elements : List α} {result : PUnit} (hstart : holds [] state)
    (h : Yields (elements.forM action) state result later) : holds elements later := by
  suffices hgeneral : ∀ done, holds done state → holds (done ++ elements) later from
    hgeneral [] hstart
  intro done hdone
  clear hstart
  induction elements generalizing done state with
  | nil =>
      obtain ⟨-, rfl⟩ := of_pure h
      rw [List.append_nil]
      exact hdone
  | cons element rest ih =>
      obtain ⟨_, between, hfirst, hrest⟩ := of_bind h
      have hlater := ih hrest (done ++ [element]) (hstep done element state between hdone hfirst)
      rw [List.append_assoc] at hlater
      exact hlater

/-- The results of a loop over a list are those of its rounds. -/
theorem mapM_induction {action : α → Attempt σ β} (keeps : σ → Prop) (relates : α → β → Prop)
    (hstep : ∀ element state result later, keeps state →
      Yields (action element) state result later → keeps later ∧ relates element result)
    {elements : List α} {results : List β} (hstart : keeps state)
    (h : Yields (elements.mapM action) state results later) :
    keeps later ∧ List.Forall₂ relates elements results := by
  induction elements generalizing state results with
  | nil =>
      rw [List.mapM_nil] at h
      obtain ⟨rfl, rfl⟩ := of_pure h
      exact ⟨hstart, List.Forall₂.nil⟩
  | cons element rest ih =>
      rw [List.mapM_cons] at h
      obtain ⟨result, between, hfirst, h⟩ := of_bind h
      obtain ⟨others, after, hrest, h⟩ := of_bind h
      obtain ⟨rfl, rfl⟩ := of_pure h
      obtain ⟨hbetween, hresult⟩ := hstep element state result between hstart hfirst
      obtain ⟨hafter, hothers⟩ := ih hbetween hrest
      exact ⟨hafter, List.Forall₂.cons hresult hothers⟩

end Attempt
end Concordance
