import Concordance.Ranking.Turns

/-!
# The order of the turns

A queue is in order if no turn comes before its parent (`Ordered`), so that its first turn comes
before all others (`Ordered.first_le`). While a turn moves, the queue is in order but for the place
of that turn (`OrderedBut`): rising ends in an ordered queue (`OrderedBut.ordered_rise`), and so
does sinking to the bottom and rising from there (`OrderedBut.ordered_sink`). Putting a turn into a
queue and taking the first one out of it therefore keep it in order.
-/

namespace Concordance

namespace Turn

variable {first second third : Turn}

/-- Turns of one part at one place are the same. -/
@[ext] theorem ext (hplace : first.place = second.place) (hindex : first.index = second.index) :
    first = second := by
  cases first
  cases second
  cases hplace
  cases hindex
  rfl

/-- A turn comes before another one if its place is lower, or the same with a lower index. -/
theorem before_iff : first.before second = true ↔
    first.place < second.place ∨ first.place = second.place ∧ first.index < second.index := by
  rw [before, Bool.or_eq_true, Bool.and_eq_true, decide_eq_true_eq, decide_eq_true_eq, beq_iff_eq]

/-- A turn that comes before another one does not come behind it. -/
theorem before_asymm (h : first.before second = true) : ¬ second.before first = true := by
  intro hother
  rcases before_iff.1 h with hlt | ⟨heq, hlt⟩
  · rcases before_iff.1 hother with hgt | ⟨heq, -⟩
    · exact UInt32.lt_asymm hlt hgt
    · exact UInt32.ne_of_lt hlt heq.symm
  · rcases before_iff.1 hother with hgt | ⟨-, hgt⟩
    · exact UInt32.ne_of_lt hgt heq.symm
    · exact Nat.lt_asymm hlt hgt

/-- No turn comes before itself. -/
theorem before_irrefl (turn : Turn) : ¬ turn.before turn = true :=
  fun h => before_asymm h h

/-- What comes before an earlier turn comes before a later one. -/
theorem before_trans (h : first.before second = true) (hlater : second.before third = true) :
    first.before third = true := by
  rw [before_iff] at h hlater ⊢
  rcases h with hlt | ⟨heq, hindex⟩
  · rcases hlater with hlater | ⟨heq, -⟩
    · exact Or.inl (UInt32.lt_trans hlt hlater)
    · exact Or.inl (heq ▸ hlt)
  · rcases hlater with hlater | ⟨heq', hindex'⟩
    · exact Or.inl (heq ▸ hlater)
    · exact Or.inr ⟨heq.trans heq', Nat.lt_trans hindex hindex'⟩

/-- Of two turns one comes first. -/
theorem before_of_not (h : ¬ first.before second = true) (hne : first ≠ second) :
    second.before first = true := by
  rw [before_iff, not_or, UInt32.not_lt, not_and] at h
  rw [before_iff]
  rcases UInt32.lt_or_eq_of_le h.1 with hlt | heq
  · exact Or.inl hlt
  · exact Or.inr ⟨heq, Nat.lt_of_le_of_ne (Nat.le_of_not_lt (h.2 heq.symm)) fun hindex =>
      hne (Turn.ext heq.symm hindex.symm)⟩

/-- A turn that does not come before an earlier one does not come before the first of them. -/
theorem not_before_trans (h : ¬ first.before second = true)
    (hlater : ¬ second.before third = true) : ¬ first.before third = true := by
  intro hbefore
  by_cases hne : first = second
  · exact hlater (hne ▸ hbefore)
  · exact hlater (before_trans (before_of_not h hne) hbefore)

/-- A turn that does not come before another one does not have a lower place. -/
theorem place_le_of_not_before (h : ¬ first.before second = true) : second.place ≤ first.place :=
  UInt32.not_lt.1 fun hlt => h (before_iff.2 (Or.inl hlt))

end Turn

namespace TurnQueue

variable {queue : TurnQueue} {child parent place : Nat}

/-! ## Order -/

/-- The places of parents and children in a queue. -/
def IsChild (child parent : Nat) : Prop :=
  child = 2 * parent + 1 ∨ child = 2 * parent + 2

/-- No turn of a queue comes before its parent. -/
def Ordered (queue : TurnQueue) : Prop :=
  ∀ (child parent : Nat) (hchild : child < queue.size) (hparent : parent < queue.size),
    IsChild child parent → ¬ queue[child].before queue[parent] = true

/-- No turn of a queue comes before its parent, leaving out the turn at a place, whose children do
not come before its own parent. -/
structure OrderedBut (queue : TurnQueue) (place : Nat) : Prop where
  others : ∀ (child parent : Nat) (hchild : child < queue.size) (hparent : parent < queue.size),
    IsChild child parent → child ≠ place → parent ≠ place →
      ¬ queue[child].before queue[parent] = true
  across : ∀ (child parent : Nat) (hchild : child < queue.size) (hparent : parent < queue.size),
    IsChild child place → IsChild place parent → ¬ queue[child].before queue[parent] = true

/-- A place other than the first one has a parent in front of it. -/
theorem isChild_half (h : place ≠ 0) : IsChild place ((place - 1) / 2) := by
  unfold IsChild
  omega

/-- Every place has one parent only. -/
theorem IsChild.parent_eq {other : Nat} (h : IsChild child parent) (hother : IsChild child other) :
    parent = other := by
  unfold IsChild at h hother
  omega

/-- Parents stand in front of their children. -/
theorem IsChild.lt (h : IsChild child parent) : parent < child := by
  unfold IsChild at h
  omega

/-- The first turn of a queue in order does not come behind any other. -/
theorem Ordered.first_le (h : queue.Ordered) (hfirst : 0 < queue.size)
    (hplace : place < queue.size) : ¬ queue[place].before queue[0] = true := by
  induction place using Nat.strongRecOn with
  | ind place ih =>
      by_cases hroot : place = 0
      · subst hroot
        exact Turn.before_irrefl _
      · have hhalf := (isChild_half hroot).lt
        exact Turn.not_before_trans
          (h place _ hplace (Nat.lt_trans hhalf hplace) (isChild_half hroot))
          (ih _ hhalf (Nat.lt_trans hhalf hplace))

/-! ## Rising -/

/-- A queue in which the turn at a place rises: the others are in order, and it has come before its
children so far. -/
structure Rising (queue : TurnQueue) (place : Nat) : Prop extends OrderedBut queue place where
  below : ∀ (child : Nat) (hchild : child < queue.size) (hplace : place < queue.size),
    IsChild child place → ¬ queue[child].before queue[place] = true

/-- A turn that has no parent it comes before is in its place. -/
theorem Rising.ordered (h : Rising queue place) (hplace : place < queue.size)
    (hparent : ∀ (parent : Nat) (hparent : parent < queue.size), IsChild place parent →
      ¬ queue[place].before queue[parent] = true) : queue.Ordered := by
  intro child parent hchild hlt hrelated
  by_cases hsame : child = place
  · subst hsame
    exact hparent parent hlt hrelated
  · by_cases hunder : parent = place
    · subst hunder
      exact h.below child hchild hlt hrelated
    · exact h.others child parent hchild hlt hrelated hsame hunder

/-- A turn that comes before its parent changes places with it and goes on rising. -/
theorem Rising.swap (h : Rising queue place) (hplace : place < queue.size)
    (hparent : parent < queue.size) (hrelated : IsChild place parent)
    (hbefore : queue[place].before queue[parent] = true) :
    Rising (queue.swap place parent) parent := by
  have hlt := hrelated.lt
  have hsibling : ∀ child (hchild : child < queue.size), IsChild child parent → child ≠ place →
      ¬ queue[child].before queue[parent] = true := fun child hchild hfamily hne =>
    h.others child parent hchild hparent hfamily hne (by omega)
  refine ⟨⟨fun child other hchild hother hfamily hne hne' => ?_,
    fun child above hchild habove hfamily hancestor => ?_⟩, fun child hchild _ hfamily => ?_⟩
  · -- the parent has gone down, and its new children were below it before
    have hmoved : child ≠ place := fun heq => hne' ((heq ▸ hfamily).parent_eq hrelated)
    rw [Array.getElem_swap_of_ne hmoved hne]
    by_cases hunder : other = place
    · subst hunder
      rw [Array.getElem_swap_left]
      exact h.across child parent _ hparent hfamily hrelated
    · rw [Array.getElem_swap_of_ne hunder hne']
      exact h.others child other _ _ hfamily hmoved hunder
  · have hup := hancestor.lt
    have hdown := hfamily.lt
    have habove' : above < queue.size := by omega
    have hpassed : ¬ queue[parent].before queue[above] = true :=
      h.others parent above hparent habove' hancestor (by omega) (by omega)
    rw [@Array.getElem_swap_of_ne _ above queue place parent _ _ _ (by omega) (by omega)]
    by_cases hsame : child = place
    · subst hsame
      rwa [Array.getElem_swap_left]
    · rw [Array.getElem_swap_of_ne hsame (by omega)]
      exact Turn.not_before_trans (hsibling child _ hfamily hsame) hpassed
  · have hdown := hfamily.lt
    rw [Array.getElem_swap_right]
    by_cases hsame : child = place
    · subst hsame
      rw [Array.getElem_swap_left]
      exact Turn.before_asymm hbefore
    · rw [Array.getElem_swap_of_ne hsame (by omega)]
      exact fun hchild => hsibling child _ hfamily hsame (Turn.before_trans hchild hbefore)

/-- Rising ends in a queue in order. -/
theorem Rising.ordered_rise (h : Rising queue place) (hplace : place < queue.size) :
    (rise queue place hplace).Ordered := by
  fun_induction rise queue place hplace with
  | case1 queue hplace =>
      exact h.ordered hplace fun parent _ hrelated => absurd hrelated.lt (Nat.not_lt_zero parent)
  | case2 queue place hplace hroot hbefore ih =>
      exact ih (h.swap hplace _ (isChild_half hroot) hbefore)
  | case3 queue place hplace hroot hbefore =>
      refine h.ordered hplace fun parent hparent hrelated => ?_
      obtain rfl := hrelated.parent_eq (isChild_half hroot)
      exact hbefore

/-! ## Sinking -/

/-- A turn without children is only to be compared with its parent. -/
theorem OrderedBut.rising (h : OrderedBut queue place) (hbottom : queue.size ≤ 2 * place + 1) :
    Rising queue place := by
  refine ⟨h, fun child hchild _ hrelated => absurd hchild (Nat.not_lt.2 ?_)⟩
  unfold IsChild at hrelated
  omega

/-- A turn changes places with the child that comes before the other one, and goes on sinking. -/
theorem OrderedBut.swap (h : OrderedBut queue place) (hplace : place < queue.size)
    (hchild : child < queue.size) (hrelated : IsChild child place)
    (hleast : ∀ other (hother : other < queue.size), IsChild other place → other ≠ child →
      ¬ queue[other].before queue[child] = true) :
    OrderedBut (queue.swap place child) child := by
  have hlt := hrelated.lt
  refine ⟨fun lower upper hlower hupper hfamily hne hne' => ?_,
    fun lower upper hlower hupper hfamily hancestor => ?_⟩
  · by_cases hmoved : lower = place
    · -- the child that went up stays behind the parent of the turn that sinks
      subst hmoved
      have hup := hfamily.lt
      rw [Array.getElem_swap_left, Array.getElem_swap_of_ne (by omega) hne']
      exact h.across child upper hchild _ hrelated hfamily
    · rw [Array.getElem_swap_of_ne hmoved hne]
      by_cases hunder : upper = place
      · subst hunder
        rw [Array.getElem_swap_left]
        exact hleast lower _ hfamily hne
      · rw [Array.getElem_swap_of_ne hunder hne']
        exact h.others lower upper _ _ hfamily hmoved hunder
  · obtain rfl := hancestor.parent_eq hrelated
    have hdown := hfamily.lt
    rw [Array.getElem_swap_left, Array.getElem_swap_of_ne (by omega) (by omega)]
    exact h.others lower child _ hchild hfamily (by omega) (by omega)

/-- Sinking to the bottom and rising from there ends in a queue in order. -/
theorem OrderedBut.ordered_sink (h : OrderedBut queue place) (hplace : place < queue.size) :
    (sink queue place hplace).Ordered := by
  fun_induction sink queue place hplace with
  | case1 queue place hplace hboth hbefore ih =>
      refine ih (h.swap hplace _ (Or.inl rfl) fun other hother hrelated hne => ?_)
      obtain rfl := hrelated.resolve_left hne
      exact Turn.before_asymm hbefore
  | case2 queue place hplace hboth hbefore ih =>
      refine ih (h.swap hplace _ (Or.inr rfl) fun other hother hrelated hne => ?_)
      obtain rfl := hrelated.resolve_right hne
      exact hbefore
  | case3 queue place hplace hboth hleft =>
      refine ((h.swap hplace hleft (Or.inl rfl) fun other hother hrelated hne => ?_).rising
        ?_).ordered_rise _
      · obtain rfl := hrelated.resolve_left hne
        exact absurd hother hboth
      · rw [Array.size_swap]
        omega
  | case4 queue place hplace hboth hleft => exact (h.rising (Nat.le_of_not_lt hleft)).ordered_rise _

/-! ## Putting in and taking out -/

/-- A queue in order is in order after a turn was put into it. -/
theorem Ordered.put (h : queue.Ordered) (turn : Turn) : (queue.put turn).Ordered := by
  refine Rising.ordered_rise (OrderedBut.rising ⟨?_, ?_⟩ ?_) _
  · intro child parent hchild hparent hrelated hne hne'
    rw [Array.size_push] at hchild hparent
    rw [Array.getElem_push_lt (by omega), Array.getElem_push_lt (by omega)]
    exact h child parent _ _ hrelated
  · intro child parent hchild _ hrelated
    rw [Array.size_push] at hchild
    have hlt := hrelated.lt
    omega
  · rw [Array.size_push]
    omega

/-- A queue in order is in order after its first turn was taken out. -/
theorem Ordered.takeFirst (h : queue.Ordered) : queue.takeFirst.Ordered := by
  rw [TurnQueue.takeFirst]
  split
  · refine OrderedBut.ordered_sink ⟨?_, ?_⟩ _
    · intro child parent hchild hparent hrelated hne hne'
      rw [Array.size_set] at hchild hparent
      rw [Array.getElem_set_ne _ hchild (Ne.symm hne),
        Array.getElem_set_ne _ hparent (Ne.symm hne'), Array.getElem_pop, Array.getElem_pop]
      exact h child parent _ _ hrelated
    · intro child parent _ _ _ hroot
      exact absurd hroot.lt (Nat.not_lt_zero parent)
  · intro child _ hchild
    exact absurd hchild (Nat.not_lt_zero child)

end TurnQueue
end Concordance
