/-!
# Strictly ordered lists

A strictly ordered list is determined by its elements (`eq_of_pairwise`). Lists that agree in a
strictly ascending measure of their elements pair up the elements of one measure
(`mem_zipWith_of_map_eq`).
-/

namespace Concordance

namespace Ordered

variable {α β γ : Type}

/-- A strictly ordered list has no element twice. -/
theorem nodup_of_pairwise {lt : α → α → Prop} (hasymm : ∀ a b, lt a b → ¬ lt b a)
    {list : List α} (h : list.Pairwise lt) : list.Nodup := by
  refine List.Pairwise.imp ?_ h
  intro a b hlt heq
  subst heq
  exact hasymm a a hlt hlt

/-- Strictly ordered lists with the same elements are equal. -/
theorem eq_of_pairwise {lt : α → α → Prop} (hasymm : ∀ a b, lt a b → ¬ lt b a)
    {first second : List α} (hfirst : first.Pairwise lt) (hsecond : second.Pairwise lt)
    (h : ∀ a, a ∈ first ↔ a ∈ second) : first = second := by
  have hperm := (List.perm_ext_iff_of_nodup (nodup_of_pairwise hasymm hfirst)
    (nodup_of_pairwise hasymm hsecond)).2 fun a => h a
  exact hperm.eq_of_pairwise (fun a b _ _ hab hba => absurd hba (hasymm a b hab)) hfirst hsecond

/-- Lists with the same ascending measures pair up the elements of one measure. -/
theorem mem_zipWith_of_map_eq {measure : α → Nat} {measure' : β → Nat} {f : α → β → γ}
    {first : List α} {second : List β} (hfirst : (first.map measure).Pairwise (· < ·))
    (h : first.map measure = second.map measure') {c : γ} :
    c ∈ List.zipWith f first second ↔
      ∃ a ∈ first, ∃ b ∈ second, measure a = measure' b ∧ c = f a b := by
  induction first generalizing second with
  | nil => simp
  | cons a first ih =>
      cases second with
      | nil => simp at h
      | cons b second =>
          rw [List.map_cons, List.map_cons, List.cons.injEq] at h
          rw [List.map_cons, List.pairwise_cons] at hfirst
          have hlater : ∀ b' ∈ second, measure a < measure' b' := fun b' hb' =>
            hfirst.1 _ (h.2 ▸ List.mem_map_of_mem hb')
          have hearlier : ∀ a' ∈ first, measure' b < measure a' := fun a' ha' =>
            h.1 ▸ hfirst.1 _ (List.mem_map_of_mem ha')
          rw [List.zipWith_cons_cons, List.mem_cons, ih hfirst.2 h.2]
          constructor
          · rintro (rfl | ⟨a', ha', b', hb', heq⟩)
            · exact ⟨a, List.mem_cons_self, b, List.mem_cons_self, h.1, rfl⟩
            · exact ⟨a', List.mem_cons_of_mem a ha', b', List.mem_cons_of_mem b hb', heq⟩
          · intro hfound
            obtain ⟨a', ha', b', hb', heq, rfl⟩ := hfound
            rcases List.mem_cons.1 ha' with rfl | ha'
            · rcases List.mem_cons.1 hb' with rfl | hb'
              · exact Or.inl rfl
              · have hlt := hlater b' hb'
                omega
            · rcases List.mem_cons.1 hb' with rfl | hb'
              · have hlt := hearlier a' ha'
                omega
              · exact Or.inr ⟨a', ha', b', hb', heq, rfl⟩

/-- Pairing up elements keeps the measures of the first ones in their order. -/
theorem sublist_zipWith {measure : α → Nat} {measure' : γ → Nat} {f : α → β → γ}
    (h : ∀ a b, measure' (f a b) = measure a) (first : List α) (second : List β) :
    List.Sublist ((List.zipWith f first second).map measure') (first.map measure) := by
  induction first generalizing second with
  | nil => exact List.Sublist.refl _
  | cons a first ih =>
      cases second with
      | nil => exact List.nil_sublist _
      | cons b second =>
          rw [List.zipWith_cons_cons, List.map_cons, List.map_cons, h]
          exact (ih second).cons_cons _

end Ordered
end Concordance
