import EntityMapper.Text.Mark

/-!
# Clusters

What a reader takes for one character: a character with the marks that go with it. A text falls into
clusters, and putting them together gives it back.
-/

namespace EntityMapper

/-- Whether no cluster ends between two neighbours. -/
def staysTogether (before c : Char) : Bool := isMark c || isLeadingSign before

/-- The clusters of a text. -/
def clusters : List Char → List (List Char)
  | [] => []
  | c :: r =>
    match clusters r with
    | [] => [[c]]
    | g :: gs => if g.head?.any (staysTogether c) then (c :: g) :: gs else [c] :: g :: gs

/-- Nothing of a text is lost in its clusters. -/
theorem flatten_clusters (cs : List Char) : (clusters cs).flatten = cs := by
  induction cs with
  | nil => rfl
  | cons c r ih =>
    rw [clusters]
    split
    · next h => rw [h] at ih; simp [← ih]
    · next h =>
      rw [h] at ih
      split <;> simp [← ih]

/-- Every cluster has a character. -/
theorem ne_nil_of_mem_clusters {cs g : List Char} (h : g ∈ clusters cs) : g ≠ [] := by
  induction cs generalizing g with
  | nil => simp [clusters] at h
  | cons c r ih =>
    rw [clusters] at h
    split at h
    · simp_all
    · next hc =>
      rw [hc] at ih
      split at h <;> rcases List.mem_cons.1 h with rfl | hg
      · simp
      · exact ih (List.mem_cons_of_mem _ hg)
      · simp
      · exact ih hg

end EntityMapper
