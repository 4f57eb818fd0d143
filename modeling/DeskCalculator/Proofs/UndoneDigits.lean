import DeskCalculator.Proofs.NumberEntry

/-!
# Deleting what was typed

A digit is added to the pending text, but a lone `0` gives way to it; and `delete`
takes the last character off, but the last one of all leaves a `0`. The two
exceptions belong together: the `0` that a digit took the place of is the one that
`delete` puts back. So a `delete` undoes the digit before it, whatever is pending,
and as many deletes as digits undo them all, the last digit first. That zeros in
front are dropped while they are typed makes no difference.

An empty pending text is the one that does not come back, for `delete` leaves none.
-/

namespace DeskCalculator.Session

/-- Some characters on the digit keys, and then a `delete` for each of them. -/
def typeAndDelete (cs : List Char) : List Action :=
  cs.map .digit ++ List.replicate cs.length .delete

theorem delete_entering (s : Session) (pending : List Char) :
    (s.entering pending).delete
      = s.entering (if 1 < pending.length then pending.dropLast else ['0']) := by
  have hphase : ¬(s.entering pending).phase = .evaluated := nofun
  have hlength : (s.entering pending).pending.length = pending.length := by
    rw [pending_entering, String.length_ofList]
  rw [delete, if_neg hphase, hlength]
  -- deleting the last character leaves the zero of nothing typed
  by_cases hlong : 1 < pending.length
  · have hdrop : Text.dropLast (s.entering pending).pending = String.ofList pending.dropLast := by
      rw [pending_entering, Text.dropLast, String.toList_ofList]
    rw [if_pos hlong, if_pos hlong, hdrop]
    rfl
  · rw [if_neg hlong, if_neg hlong]
    rfl

/-- **A `delete` undoes a digit.** -/
theorem delete_digit_entering (s : Session) {pending : List Char} (hne : pending ≠ []) (c : Char) :
    ((s.entering pending).digit c).delete = s.entering pending := by
  rw [digit_entering]
  by_cases hzero : pending = ['0']
  · -- the digit stands in the place of the zero, and leaves it behind
    have hshort : ¬1 < [c].length := Nat.lt_irrefl 1
    rw [if_pos hzero, delete_entering, if_neg hshort, hzero]
  · have hlong : 1 < (pending ++ [c]).length := by
      rw [List.length_append, List.length_singleton]
      exact Nat.succ_lt_succ (List.length_pos_iff.mpr hne)
    rw [if_neg hzero, delete_entering, if_pos hlong, List.dropLast_concat]

/-- The pending text is not empty behind a digit. -/
theorem exists_digit_entering (s : Session) (pending : List Char) (c : Char) :
    ∃ next, next ≠ [] ∧ (s.entering pending).digit c = s.entering next := by
  rw [digit_entering]
  split
  · exact ⟨[c], List.cons_ne_nil c [], rfl⟩
  · exact ⟨pending ++ [c], List.append_ne_nil_of_right_ne_nil _ (List.cons_ne_nil c []), rfl⟩

/-- The last `delete` undoes the first digit, when the others are undone between them. -/
theorem performAll_typeAndDelete_cons (s : Session) (c : Char) (cs : List Char) :
    s.performAll (typeAndDelete (c :: cs))
      = ((s.digit c).performAll (typeAndDelete cs)).delete := by
  have hactions : typeAndDelete (c :: cs) = .digit c :: (typeAndDelete cs ++ [.delete]) := by
    rw [typeAndDelete, typeAndDelete, List.length_cons, List.replicate_succ', List.map_cons,
      List.cons_append, List.append_assoc]
  rw [hactions, performAll_cons, performAll_append]
  rfl

theorem performAll_typeAndDelete_entering (s : Session) {pending : List Char} (hne : pending ≠ [])
    (cs : List Char) : (s.entering pending).performAll (typeAndDelete cs) = s.entering pending := by
  induction cs generalizing pending with
  | nil => rfl
  | cons c cs ih =>
      obtain ⟨next, hnext, hdigit⟩ := s.exists_digit_entering pending c
      rw [performAll_typeAndDelete_cons, hdigit, ih hnext, ← hdigit, delete_digit_entering s hne]

/-- The first digit begins an entry; but for that, it is typed behind the same pending text. -/
theorem digit_eq_digit_entering {s : Session} (hphase : s.phase ≠ .evaluated) (c : Char) :
    s.digit c = (s.entering s.pending.toList).digit c := by
  have hsame : s.entering s.pending.toList = s.beginEntry := by
    rw [entering, String.ofList_toList]
    rfl
  have hentry : ¬s.beginEntry.phase = .evaluated := nofun
  rw [hsame, digit, digit, if_neg hphase, if_neg hentry]
  rfl

/--
**As many deletes as digits undo them.**

Unless the session stands at a result, or nothing at all is pending, the same texts are
committed and the same text is pending as before the digits, whatever text it is. The
entry has begun with the first digit, so no error is shown any more; without a digit,
nothing is done.
-/
theorem performAll_typeAndDelete {s : Session} (hphase : s.phase ≠ .evaluated)
    (hpending : s.pending ≠ "") (cs : List Char) :
    let after := s.performAll (typeAndDelete cs)
    after.tokens = s.tokens
      ∧ after.pending = s.pending
      ∧ (cs ≠ [] → after = { s with phase := .entry, error := none })
      ∧ (cs = [] → after = s) := by
  cases cs with
  | nil => exact ⟨rfl, rfl, fun h => absurd rfl h, fun _ => rfl⟩
  | cons c cs =>
      have hne : s.pending.toList ≠ [] := by
        intro hnil
        exact hpending (String.toList_eq_nil_iff.mp hnil)
      intro after
      -- from the first digit on the session is in an entry, where a delete undoes a digit
      have hafter : after = { s with phase := .entry, error := none } := by
        show s.performAll (typeAndDelete (c :: cs)) = _
        rw [performAll_typeAndDelete_cons, digit_eq_digit_entering hphase,
          ← performAll_typeAndDelete_cons, performAll_typeAndDelete_entering s hne, entering,
          String.ofList_toList]
        rfl
      rw [hafter]
      exact ⟨rfl, rfl, fun _ => rfl, fun h => absurd h (List.cons_ne_nil c cs)⟩

/-- After an error, `005` is typed as `5`, and three deletes leave the `0` of the start. -/
theorem performAll_typeAndDelete_zeros :
    let failed := fail .divisionByZero
    failed.phase ≠ .evaluated ∧ failed.pending ≠ ""
      ∧ (failed.performAll (['0', '0', '5'].map .digit)).pending = "5"
      ∧ (failed.performAll (typeAndDelete ['0', '0', '5'])).pending = "0"
      ∧ failed.performAll (typeAndDelete ['0', '0', '5'])
        = { failed with phase := .entry, error := none } := by
  intro failed
  have hphase : failed.phase ≠ .evaluated := nofun
  have hpending : failed.pending ≠ "" := by decide
  obtain ⟨-, hsame, hafter, -⟩ := performAll_typeAndDelete hphase hpending ['0', '0', '5']
  exact ⟨hphase, hpending, by decide, hsame, hafter (List.cons_ne_nil _ _)⟩

/-- Without a digit, the session at the start does not begin an entry. -/
theorem phase_typeAndDelete_nothing :
    let start : Session := {}
    start.phase ≠ .evaluated ∧ start.pending ≠ ""
      ∧ (start.performAll (typeAndDelete [])).phase ≠ .entry := by
  decide

end DeskCalculator.Session
