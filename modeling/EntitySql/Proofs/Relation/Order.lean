import EntitySql.RelationPath
import Mathlib.Data.List.Perm.Basic
import Mathlib.Data.List.Sort
import Mathlib.Data.String.Basic

/-! # The order of relation paths

    Paths are resolved in the order of `precedes`, a strict linear order. The
    closure of paths is sorted by it, so that no path is in it twice.
-/

namespace EntitySql.RelationPath

/-- A path comes before another one if it has fewer segments, or as many and a smaller text. -/
theorem precedes_iff {p q : String} :
    precedes p q = true ↔ depth p < depth q ∨ depth p = depth q ∧ p < q := by
  simp [precedes]

/-- No path comes before itself. -/
theorem not_precedes_self (p : String) : ¬ precedes p p = true := by
  rw [precedes_iff]
  rintro (h | ⟨-, h⟩)
  · exact absurd h (Nat.lt_irrefl _)
  · exact absurd h (String.lt_irrefl p)

theorem precedes_trans {p q r : String} (hpq : precedes p q = true) (hqr : precedes q r = true) :
    precedes p r = true := by
  rw [precedes_iff] at *
  rcases hpq with hpq | ⟨hpq, htext⟩
  · left
    rcases hqr with hqr | ⟨hqr, -⟩ <;> omega
  · rcases hqr with hqr | ⟨hqr, htext'⟩
    · left
      omega
    · right
      exact ⟨hpq.trans hqr, String.lt_trans htext htext'⟩

/-- Of two different paths one comes before the other. -/
theorem precedes_of_not {p q : String} (hne : p ≠ q) (h : ¬ precedes p q = true) :
    precedes q p = true := by
  rw [precedes_iff] at *
  obtain ⟨hdepth, htext⟩ := not_or.1 h
  rcases Nat.lt_trichotomy (depth p) (depth q) with hlt | heq | hgt
  · exact absurd hlt hdepth
  · right
    have hnlt : ¬ p < q := fun hlt => htext ⟨heq, hlt⟩
    exact ⟨heq.symm, lt_of_le_of_ne (String.not_lt.1 hnlt) hne.symm⟩
  · exact Or.inl hgt

/-- Paths each of which comes before all that follow it. -/
def Sorted (ps : List String) : Prop := ps.Pairwise fun p q => precedes p q = true

/-- No path is among sorted ones twice. -/
theorem Sorted.nodup {ps : List String} (h : Sorted ps) : ps.Nodup := by
  refine h.imp ?_
  rintro p q hpq rfl
  exact not_precedes_self p hpq

/-- Sorted paths are determined by which they are. -/
theorem Sorted.eq_of_mem_iff {ps qs : List String} (hps : Sorted ps) (hqs : Sorted qs)
    (h : ∀ p, p ∈ ps ↔ p ∈ qs) : ps = qs := by
  have hperm : ps.Perm qs := (List.perm_ext_iff_of_nodup hps.nodup hqs.nodup).2 h
  refine hperm.eq_of_pairwise ?_ hps hqs
  intro p q _ _ hpq hqp
  exact absurd (precedes_trans hpq hqp) (not_precedes_self p)

/-- A path that is put in its place leaves the others sorted. -/
theorem sorted_insert (p : String) {ps : List String} (h : Sorted ps) : Sorted (insert p ps) := by
  induction ps with
  | nil => exact List.pairwise_singleton _ p
  | cons q qs ih =>
    obtain ⟨hq, hqs⟩ := List.pairwise_cons.1 h
    unfold insert
    by_cases heq : p = q
    · rw [if_pos heq]
      exact h
    · rw [if_neg heq]
      by_cases hbefore : precedes p q = true
      -- it comes before the first path, and so before all others
      · rw [if_pos hbefore]
        refine List.pairwise_cons.2 ⟨?_, h⟩
        intro r hr
        rcases List.mem_cons.1 hr with rfl | hr
        · exact hbefore
        · exact precedes_trans hbefore (hq r hr)
      · rw [if_neg hbefore]
        refine List.pairwise_cons.2 ⟨?_, ih hqs⟩
        intro r hr
        rcases mem_insert.1 hr with rfl | hr
        · exact precedes_of_not heq hbefore
        · exact hq r hr

theorem sorted_closure (paths : List String) : Sorted (closure paths) := by
  unfold closure
  induction paths.flatMap prefixes with
  | nil => exact List.Pairwise.nil
  | cons p ps ih => exact sorted_insert p ih

/-- No path is in the closure twice. -/
theorem nodup_closure (paths : List String) : (closure paths).Nodup := (sorted_closure paths).nodup

end EntitySql.RelationPath
