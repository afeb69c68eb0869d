/-!
# Splitting text
-/

namespace EntityMapper

/-- The parts of a text between a separator; there is always at least one. -/
def splitAtEach (separator : Char) : List Char → List (List Char)
  | [] => [[]]
  | c :: r =>
    if c = separator then [] :: splitAtEach separator r
    else match splitAtEach separator r with
      | [] => [[c]]
      | first :: others => (c :: first) :: others

/-- The parts of a text before and after the first separator, if there is one. -/
def splitAtFirst? (separator : Char) : List Char → Option (List Char × List Char)
  | [] => none
  | c :: r =>
    if c = separator then some ([], r)
    else (splitAtFirst? separator r).map fun (before, after) => (c :: before, after)

/-- No part has the separator. -/
theorem not_mem_of_mem_splitAtEach {separator : Char} {cs part : List Char}
    (h : part ∈ splitAtEach separator cs) : separator ∉ part := by
  induction cs generalizing part with
  | nil => simp_all [splitAtEach]
  | cons c r ih =>
    rw [splitAtEach] at h
    split at h
    · rcases List.mem_cons.1 h with rfl | h
      · simp
      · exact ih h
    · next hc =>
      split at h
      · simp at h
        simp [h, Ne.symm hc]
      · next first others heq =>
        rcases List.mem_cons.1 h with rfl | h
        · have := ih (by rw [heq]; exact List.mem_cons_self)
          simp [this, Ne.symm hc]
        · exact ih (by rw [heq]; exact List.mem_cons_of_mem _ h)

/-- Splitting at the first separator loses only that. -/
theorem eq_of_splitAtFirst? {separator : Char} {cs before after : List Char}
    (h : splitAtFirst? separator cs = some (before, after)) :
    cs = before ++ separator :: after ∧ separator ∉ before := by
  induction cs generalizing before with
  | nil => simp [splitAtFirst?] at h
  | cons c r ih =>
    rw [splitAtFirst?] at h
    split at h
    · next hc => simp_all
    · next hc =>
      obtain ⟨⟨b, a⟩, hr, he⟩ := Option.map_eq_some_iff.1 h
      simp only [Prod.mk.injEq] at he
      obtain ⟨rfl, rfl⟩ := he
      obtain ⟨rfl, hb⟩ := ih hr
      simp [hb, Ne.symm hc]

end EntityMapper
