import Mathlib.Data.List.Basic
import Workbench.Keyed

/-! # Relocated entries

Entries are relocated by moving them one after another while the others are in place.
As long as every move goes to a key that was free at the beginning, and no two go to
the same, nothing is lost on the way, whatever the order. -/

namespace Workbench.Keyed

universe u

variable {α : Type u} {before middle after : Keyed α} {place next : String → String}

/-- Every entry is found at its place, nothing else is, and no two share a place. -/
structure Relocated (before after : Keyed α) (place : String → String) : Prop where
  kept : ∀ key a, before.get? key = some a → after.get? (place key) = some a
  origin : ∀ key a, after.get? key = some a →
    ∃ former, before.get? former = some a ∧ place former = key
  distinct : ∀ key other, before.contains key = true → before.contains other = true →
    place key = place other → key = other

namespace Relocated

theorem refl (m : Keyed α) : m.Relocated m id where
  kept _ _ h := h
  origin key _ h := ⟨key, h, rfl⟩
  distinct _ _ _ _ h := h

theorem contains (h : Relocated before after place) {key : String}
    (hkey : before.contains key = true) : after.contains (place key) = true := by
  obtain ⟨a, ha⟩ := before.contains_iff.mp hkey
  exact contains_of_get? (h.kept key a ha)

theorem exists_former (h : Relocated before after place) {key : String}
    (hkey : after.contains key = true) :
    ∃ former, before.contains former = true ∧ place former = key := by
  obtain ⟨a, ha⟩ := after.contains_iff.mp hkey
  obtain ⟨former, hformer, hplace⟩ := h.origin key a ha
  exact ⟨former, contains_of_get? hformer, hplace⟩

theorem trans (h : Relocated before middle place) (h' : Relocated middle after next) :
    Relocated before after fun key => next (place key) where
  kept key a hkey := h'.kept _ a (h.kept key a hkey)
  origin key a hkey := by
    obtain ⟨between, hbetween, hnext⟩ := h'.origin key a hkey
    obtain ⟨former, hformer, hplace⟩ := h.origin between a hbetween
    exact ⟨former, hformer, by rw [hplace, hnext]⟩
  distinct key other hkey hother heq :=
    h.distinct key other hkey hother
      (h'.distinct _ _ (h.contains hkey) (h.contains hother) heq)

theorem congr (h : Relocated before after place)
    (hsame : ∀ key, before.contains key = true → place key = next key) :
    Relocated before after next where
  kept key a hkey := by
    rw [← hsame key (contains_of_get? hkey)]
    exact h.kept key a hkey
  origin key a hkey := by
    obtain ⟨former, hformer, hplace⟩ := h.origin key a hkey
    exact ⟨former, hformer, by rw [← hsame former (contains_of_get? hformer), hplace]⟩
  distinct key other hkey hother heq := by
    rw [← hsame key hkey, ← hsame other hother] at heq
    exact h.distinct key other hkey hother heq

end Relocated

/-- One entry moves to a free key. -/
theorem relocated_single {m : Keyed α} {source target : String} {a : α}
    (hsource : m.get? source = some a) (hfree : m.contains target = false) :
    m.Relocated ((m.erase source).insert target a)
      fun key => if key = source then target else key := by
  have hstored : ∀ key b, m.get? key = some b → target ≠ key := by
    rintro key b hkey rfl
    rw [contains_of_get? hkey] at hfree
    cases hfree
  constructor
  case kept =>
    intro key b hkey
    split
    next heq =>
      subst heq
      rw [get?_insert_self, ← hsource, hkey]
    next hne =>
      rw [get?_insert_ne _ (hstored key b hkey), get?_erase_ne _ (Ne.symm hne), hkey]
  case origin =>
    intro key b hkey
    rw [get?_insert] at hkey
    split at hkey
    next heq => exact ⟨source, by rw [hsource, hkey], by rw [if_pos rfl, heq]⟩
    next =>
      by_cases heq : source = key
      · rw [heq, get?_erase_self] at hkey
        cases hkey
      · rw [get?_erase_ne _ heq] at hkey
        exact ⟨key, hkey, if_neg (Ne.symm heq)⟩
  case distinct =>
    intro key other hkey hother heq
    obtain ⟨b, hb⟩ := m.contains_iff.mp hkey
    obtain ⟨c, hc⟩ := m.contains_iff.mp hother
    split at heq
    next hfirst =>
      split at heq
      next hsecond => rw [hfirst, hsecond]
      next => exact absurd heq (hstored other c hc)
    next =>
      split at heq
      next => exact absurd heq.symm (hstored key b hb)
      next => exact heq

/-- Moving entries one by one to keys that are free and different puts each at its
place. -/
theorem relocated_foldl {step : Keyed α → String → Keyed α} {moving : List String}
    (hstep : ∀ key ∈ moving, ∀ (m : Keyed α) a, m.get? key = some a →
      step m key = (m.erase key).insert (place key) a)
    (m : Keyed α) (hnodup : moving.Nodup) (hstored : ∀ key ∈ moving, m.contains key = true)
    (hfree : ∀ key ∈ moving, m.contains (place key) = false)
    (hdistinct : ∀ key ∈ moving, ∀ other ∈ moving, place key = place other → key = other) :
    m.Relocated (moving.foldl step m) fun key => if key ∈ moving then place key else key := by
  induction moving generalizing m with
  | nil => exact (Relocated.refl m).congr fun _ _ => (if_neg List.not_mem_nil).symm
  | cons first rest ih =>
      obtain ⟨hfirst, hrest⟩ := List.nodup_cons.mp hnodup
      obtain ⟨a, ha⟩ := m.contains_iff.mp (hstored first List.mem_cons_self)
      have hfree_first := hfree first List.mem_cons_self
      have hmoved := relocated_single ha hfree_first
      rw [← hstep first List.mem_cons_self m a ha] at hmoved
      -- Those still to be moved are where they were, and their places are still free.
      have hplaces : ∀ key ∈ rest, place key ≠ place first := by
        intro key hkey heq
        have hsame := hdistinct key (List.mem_cons_of_mem _ hkey) first List.mem_cons_self heq
        exact hfirst (hsame ▸ hkey)
      have hstays : ∀ key ∈ rest, key ≠ first := fun key hkey heq => hfirst (heq ▸ hkey)
      have hstored_rest : ∀ key ∈ rest, (step m first).contains key = true := by
        intro key hkey
        have hmem := hmoved.contains (hstored key (List.mem_cons_of_mem _ hkey))
        rwa [if_neg (hstays key hkey)] at hmem
      have hfree_rest : ∀ key ∈ rest, (step m first).contains (place key) = false := by
        intro key hkey
        by_contra hfilled
        obtain ⟨former, hformer, hplace⟩ := hmoved.exists_former (Bool.not_eq_false _ ▸ hfilled)
        have hfree_key := hfree key (List.mem_cons_of_mem _ hkey)
        split at hplace
        next => exact hplaces key hkey hplace.symm
        next => rw [← hplace, hformer] at hfree_key; cases hfree_key
      have hlater := ih (fun key hkey => hstep key (List.mem_cons_of_mem _ hkey)) (step m first)
        hrest hstored_rest hfree_rest
        (fun key hkey other hother =>
          hdistinct key (List.mem_cons_of_mem _ hkey) other (List.mem_cons_of_mem _ hother))
      refine (hmoved.trans hlater).congr ?_
      intro key hkey
      by_cases heq : key = first
      · -- The place of the first was free, so it is none of those that move later.
        have hnot : place first ∉ rest := by
          intro hmem
          rw [hstored _ (List.mem_cons_of_mem _ hmem)] at hfree_first
          cases hfree_first
        simp [heq, hnot]
      · simp [heq]

end Workbench.Keyed
