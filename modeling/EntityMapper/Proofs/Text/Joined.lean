import Mathlib.Data.List.Basic

/-!
# Joined texts

Texts are joined by a separator and told from one another again, if the separator has a character
that none of them has.

* `append_cons_inj` — a text is cut at the first of a kind
* `intercalate_inj` — texts are told from what joins them
* `Lacks` — a text does not have a character
-/

namespace EntityMapper

/-! ## Lists -/

section Lists

variable {α β γ : Type} {x : α} {a b r s u v : List α} {ls ms : List (List α)}

/-- What stands in front of the first of a kind, and what stands behind it. -/
theorem append_cons_inj (ha : x ∉ a) (hb : x ∉ b) (h : a ++ x :: r = b ++ x :: s) :
    a = b ∧ r = s := by
  rcases List.append_eq_append_iff.mp h with ⟨c, rfl, hc⟩ | ⟨c, rfl, hc⟩
  · cases c with
    | nil => simpa using hc
    | cons y c =>
      obtain ⟨rfl, -⟩ := List.cons.inj hc
      exact absurd (by simp) hb
  · cases c with
    | nil => simpa using hc.symm
    | cons y c =>
      obtain ⟨rfl, -⟩ := List.cons.inj hc
      exact absurd (by simp) ha

theorem mem_intercalate_cons_cons (hx : x ∈ s) (l l' : List α) :
    x ∈ s.intercalate (l :: l' :: ls) := by
  simp [List.intercalate_cons_cons, hx]

theorem intercalate_ne_nil (hls : ∀ l ∈ ls, l ≠ []) (hne : ls ≠ []) : s.intercalate ls ≠ [] := by
  obtain ⟨l, ls, rfl⟩ := List.exists_cons_of_ne_nil hne
  have hl := hls l List.mem_cons_self
  cases ls with
  | nil => simpa using hl
  | cons l' ls => simp [List.intercalate_cons_cons, hl]

/-- **Texts are told from what joins them**, if it holds what none of them does. -/
theorem intercalate_inj (hu : x ∉ u) (hls : ∀ l ∈ ls, x ∉ l) (hms : ∀ l ∈ ms, x ∉ l) (hne : ls ≠ [])
    (hne' : ms ≠ []) (h : (u ++ x :: v).intercalate ls = (u ++ x :: v).intercalate ms) :
    ls = ms := by
  induction ls generalizing ms with
  | nil => exact absurd rfl hne
  | cons l ls ih =>
    obtain ⟨m, ms, rfl⟩ := List.exists_cons_of_ne_nil hne'
    have hl : x ∉ l := hls l List.mem_cons_self
    have hm : x ∉ m := hms m List.mem_cons_self
    have hjoin : x ∈ u ++ x :: v := by simp
    cases ls with
    | nil =>
      cases ms with
      | nil => simpa using h
      | cons m' ms =>
        rw [List.intercalate_singleton] at h
        exact absurd (h ▸ mem_intercalate_cons_cons hjoin m m') hl
    | cons l' ls =>
      cases ms with
      | nil =>
        rw [List.intercalate_singleton] at h
        exact absurd (h ▸ mem_intercalate_cons_cons hjoin l l') hm
      | cons m' ms =>
        simp only [List.intercalate_cons_cons, List.append_assoc, List.cons_append] at h
        rw [← List.append_assoc, ← List.append_assoc] at h
        obtain ⟨hlm, hrest⟩ := append_cons_inj (by simp [hl, hu]) (by simp [hm, hu]) h
        rw [List.append_cancel_right hlm, ih (fun k hk => hls k (List.mem_cons_of_mem _ hk))
          (fun k hk => hms k (List.mem_cons_of_mem _ hk)) (List.cons_ne_nil _ _)
          (List.cons_ne_nil _ _) (List.append_cancel_left hrest)]

/-- Where the texts are not empty, there is nothing to be told of none. -/
theorem intercalate_inj_of_nonempty (hu : x ∉ u) (hls : ∀ l ∈ ls, l ≠ [] ∧ x ∉ l)
    (hms : ∀ l ∈ ms, l ≠ [] ∧ x ∉ l)
    (h : (u ++ x :: v).intercalate ls = (u ++ x :: v).intercalate ms) : ls = ms := by
  by_cases hne : ls = []
  · subst hne
    by_contra hne'
    exact intercalate_ne_nil (fun l hl => (hms l hl).1) (Ne.symm hne') h.symm
  · by_cases hne' : ms = []
    · subst hne'
      exact absurd h (intercalate_ne_nil (fun l hl => (hls l hl).1) hne)
    · exact intercalate_inj hu (fun l hl => (hls l hl).2) (fun l hl => (hms l hl).2) hne hne' h

end Lists

/-! ## Texts without a character -/

/-- A text does not have a character. -/
def Lacks (x : Char) (s : String) : Prop := x ∉ s.toList

instance (x : Char) (s : String) : Decidable (Lacks x s) := inferInstanceAs (Decidable (_ ∉ _))

@[simp] theorem lacks_append {x : Char} {s r : String} :
    Lacks x (s ++ r) ↔ Lacks x s ∧ Lacks x r := by
  simp [Lacks, String.toList_append]

theorem Lacks.intercalate {x : Char} {separator : String} (hseparator : Lacks x separator)
    {texts : List String} (h : ∀ s ∈ texts, Lacks x s) : Lacks x (separator.intercalate texts) := by
  induction texts with
  | nil => simp [Lacks]
  | cons s texts ih =>
    have hs := h s List.mem_cons_self
    have hrest := ih fun r hr => h r (List.mem_cons_of_mem _ hr)
    cases texts with
    | nil => simpa using hs
    | cons r texts =>
      rw [String.intercalate_cons_cons]
      simp [hs, hseparator, hrest]

end EntityMapper
