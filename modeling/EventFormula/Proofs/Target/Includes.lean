import EventFormula.Target.JavaScript

/-!
# Files to include

The files that the JavaScript target records are absorbed: once a file is recorded, recording it
again changes nothing, whatever has been recorded in between.
-/

namespace EventFormula

/-- To record a file again changes nothing, and no other file undoes that. -/
structure Target.Absorbing (target : Target) : Prop where
  again : ∀ path files, target.record path (target.record path files) = target.record path files
  keeps : ∀ {path files} other, target.record path files = files →
    target.record path (target.record other files) = target.record other files

namespace JavaScript

theorem insertFile_again (path : String) (files : List String) :
    insertFile path (insertFile path files) = insertFile path files := by
  induction files with
  | nil => simp [insertFile]
  | cons file files ih =>
    by_cases hlt : path < file
    · simp [insertFile, hlt]
    · by_cases heq : path = file
      · simp [insertFile, heq]
      · simp [insertFile, hlt, heq, ih]

theorem not_lt_of_insertFile {path file : String} {files : List String}
    (h : insertFile path (file :: files) = file :: files) : ¬ path < file := by
  intro hlt
  have hlength := congrArg List.length h
  simp only [insertFile, hlt, if_true, List.length_cons] at hlength
  omega

/-- A file that is found in its place is still found there when another has been inserted. -/
theorem insertFile_keeps {path : String} {files : List String} (other : String)
    (h : insertFile path files = files) :
    insertFile path (insertFile other files) = insertFile other files := by
  induction files with
  | nil => cases h
  | cons file files ih =>
    have hlt := not_lt_of_insertFile h
    by_cases hother : other < file
    · have hbefore : ¬ path < other := fun hpath => hlt (String.lt_trans hpath hother)
      have hinsert : insertFile other (file :: files) = other :: file :: files := by
        simp only [insertFile, hother, if_true]
      rw [hinsert]
      by_cases heq : path = other
      · simp only [insertFile, heq, if_true, if_false, String.lt_irrefl]
      · show (if path < other then _ else if path = other then _ else _) = _
        rw [if_neg hbefore, if_neg heq, h]
    by_cases hsame : other = file
    · have hinsert : insertFile other (file :: files) = file :: files := by
        simp only [insertFile, hsame, if_true, if_false, String.lt_irrefl]
      rw [hinsert, h]
    have hinsert : insertFile other (file :: files) = file :: insertFile other files := by
      simp only [insertFile, hother, hsame, if_false]
    rw [hinsert]
    by_cases heq : path = file
    · simp only [insertFile, heq, if_true, if_false, String.lt_irrefl]
    · simp only [insertFile, hlt, heq, if_false, List.cons.injEq, true_and] at h ⊢
      exact ih h

theorem absorbing_target (scope : Scope) : (target scope).Absorbing where
  again path files := by
    by_cases hpath : path = ""
    · simp only [target, hpath, if_true]
    · simp only [target, hpath, if_false]
      exact insertFile_again path files
  keeps {path files} other h := by
    by_cases hpath : path = ""
    · simp only [target, hpath, if_true]
    by_cases hother : other = ""
    · simp only [target, hother, hpath, if_true, if_false] at h ⊢
      exact h
    · simp only [target, hother, hpath, if_false] at h ⊢
      exact insertFile_keeps other h

end JavaScript
end EventFormula
