import DeskCalculator.Proofs.Rearranging
import Mathlib.Logic.Relation

/-!
# Rearranging a row, one move at a time

`arrange` reads a whole token at once. Here the same work is taken apart into the
moves of a loop, in which every operator that goes out is a move of its own. Every
token carries the place at which it stands in the row, so that equal tokens are told
apart.

**The tokens in line.** Put what has gone out, what waits and what is still to be
read one behind the other. A move leaves this line as it is, or takes the token that
is read to the front of those that wait. Only operators wait, so the line is always
the whole row in another order, and an operand is never overtaken: whatever stands in
front of it stood in front of it in the row.

**The stack stays sorted**, also between two moves for one token, and with two
precedences no more than two operators are ever on it.

At the end of the loop the line is what has gone out, and this is the rearranged row.
-/

namespace DeskCalculator.Postfix

/-- How far a row has been rearranged. Every token goes with its place in the row. -/
structure Loop where
  /-- What has gone out. -/
  out : List (Token × Nat)
  /-- The operators that wait, latest first. -/
  waiting : List (Operator × Nat)
  /-- What is still to be read. -/
  rest : List (Token × Nat)

namespace Loop

/-- Before anything is read. -/
def start (row : List Token) : Loop := ⟨[], [], row.zipIdx⟩

inductive Move : Loop → Loop → Prop where
  /-- An operand that is read goes out. -/
  | operand {out : List (Token × Nat)} {waiting : List (Operator × Nat)}
      {rest : List (Token × Nat)} {o : Operand} {place : Nat} :
      Move ⟨out, waiting, (.operand o, place) :: rest⟩
        ⟨out ++ [(.operand o, place)], waiting, rest⟩
  /-- The latest operator that waits goes out: the next one binds no tighter, or the row ends. -/
  | letOut {out : List (Token × Nat)} {waiting : List (Operator × Nat)}
      {rest : List (Token × Nat)} {op : Operator} {place : Nat} :
      LetsOut op (rest.map Prod.fst) →
      Move ⟨out, (op, place) :: waiting, rest⟩ ⟨out ++ [(.operator op, place)], waiting, rest⟩
  /-- An operator that binds tighter than the latest one that waits is read and waits too. -/
  | push {out : List (Token × Nat)} {waiting : List (Operator × Nat)}
      {rest : List (Token × Nat)} {op : Operator} {place : Nat} :
      (∀ latest ∈ (waiting.map Prod.fst).head?, latest.precedence < op.precedence) →
      Move ⟨out, waiting, (.operator op, place) :: rest⟩ ⟨out, (op, place) :: waiting, rest⟩

/-- Any number of moves, one after another. -/
abbrev Moves : Loop → Loop → Prop := Relation.ReflTransGen Move

/-! ## The tokens in line -/

/-- The waiting operators as tokens. -/
def waitingTokens (s : Loop) : List (Token × Nat) := s.waiting.map (Prod.map .operator id)

/-- What has gone out, what waits and what is still to be read, one behind the other. -/
def line (s : Loop) : List (Token × Nat) := s.out ++ (s.waitingTokens ++ s.rest)

theorem not_isOperand_of_mem_waitingTokens {s : Loop} {token : Token × Nat}
    (h : token ∈ s.waitingTokens) : token.1.isOperand = false := by
  obtain ⟨w, _, rfl⟩ := List.mem_map.mp h
  rfl

/-- A line of the tokens of a row in which no operand has been overtaken. -/
structure Kept (row : List Token) (line : List (Token × Nat)) : Prop where
  /-- The tokens are those of the row, each of them once. -/
  perm : line.Perm row.zipIdx
  /-- What stands in front of an operand stood in front of it in the row. -/
  inFront : line.Pairwise fun before after => after.1.isOperand → before.2 < after.2

theorem pairwise_zipIdx (row : List Token) :
    row.zipIdx.Pairwise fun before after => before.2 < after.2 := by
  rw [← List.pairwise_map, List.zipIdx_map_snd]
  exact List.pairwise_lt_range'

theorem kept_start (row : List Token) : Kept row (start row).line where
  perm := List.Perm.refl _
  inFront := by
    refine List.Pairwise.imp ?_ (pairwise_zipIdx row)
    intro before after hlt _
    exact hlt

/-- **A token may come to the front of others that are no operands.** -/
theorem Kept.advance {row : List Token} {front passed rest : List (Token × Nat)}
    {token : Token × Nat} (h : Kept row (front ++ (passed ++ token :: rest)))
    (hpassed : ∀ other ∈ passed, other.1.isOperand = false) :
    Kept row (front ++ (token :: passed ++ rest)) := by
  -- only operators are passed, so no operand loses its place
  have hmiddle : (token :: passed ++ rest).Perm (passed ++ token :: rest) :=
    List.perm_middle.symm
  obtain ⟨hfront, hback, hcross⟩ := List.pairwise_append.mp h.inFront
  obtain ⟨_, htoken, _⟩ := List.pairwise_append.mp hback
  refine ⟨(hmiddle.append_left front).trans h.perm, List.pairwise_append.mpr ⟨hfront, ?_, ?_⟩⟩
  · refine List.pairwise_cons.mpr ⟨?_, ?_⟩
    · intro after hafter hoperand
      rcases List.mem_append.mp hafter with hover | hrest
      · rw [hpassed after hover] at hoperand
        cases hoperand
      · exact List.rel_of_pairwise_cons htoken hrest hoperand
    · exact hback.sublist ((List.sublist_cons_self token rest).append_left passed)
  · intro before hbefore after hafter
    exact hcross before hbefore after (hmiddle.mem_iff.mp hafter)

theorem Kept.perm_row {row : List Token} {line : List (Token × Nat)} (h : Kept row line) :
    (line.map Prod.fst).Perm row := by
  have hperm := h.perm.map Prod.fst
  rwa [List.zipIdx_map_fst] at hperm

/-- The operands are in the order of their places, and so in that of the row. -/
theorem Kept.filter_isOperand {row : List Token} {line : List (Token × Nat)} (h : Kept row line) :
    (line.map Prod.fst).filter Token.isOperand = row.filter Token.isOperand := by
  have hline : (line.filter (Token.isOperand ∘ Prod.fst)).Pairwise
      fun before after => before.2 < after.2 := by
    refine (h.inFront.filter _).imp_of_mem ?_
    intro before after _ hafter hlt
    exact hlt (List.mem_filter.mp hafter).2
  -- two lists in the order of the places that are permutations are the same
  have hsame : line.filter (Token.isOperand ∘ Prod.fst)
      = row.zipIdx.filter (Token.isOperand ∘ Prod.fst) := by
    refine List.Perm.eq_of_pairwise ?_ hline ((pairwise_zipIdx row).filter _) (h.perm.filter _)
    intro before after _ _ hlt hgt
    omega
  calc (line.map Prod.fst).filter Token.isOperand
      = (line.filter (Token.isOperand ∘ Prod.fst)).map Prod.fst := List.filter_map
    _ = (row.zipIdx.filter (Token.isOperand ∘ Prod.fst)).map Prod.fst := by rw [hsame]
    _ = (row.zipIdx.map Prod.fst).filter Token.isOperand := by rw [List.filter_map]
    _ = row.filter Token.isOperand := by rw [List.zipIdx_map_fst]

/-! ## What every move keeps -/

/-- The invariant of the loop. -/
structure Sound (row : List Token) (s : Loop) : Prop where
  kept : Kept row s.line
  stacked : Stacked (s.waiting.map Prod.fst)
  /-- What has gone out goes on with what is left to do. -/
  arranged : s.out.map Prod.fst ++ arrange (s.waiting.map Prod.fst) (s.rest.map Prod.fst)
    = ofRow row

theorem sound_start (row : List Token) : Sound row (start row) where
  kept := kept_start row
  stacked := List.Pairwise.nil
  arranged := by
    show arrange [] (row.zipIdx.map Prod.fst) = ofRow row
    rw [List.zipIdx_map_fst]
    rfl

/-- **Kept by every move.** -/
theorem sound_move {row : List Token} {s s' : Loop} (h : Sound row s) (hmove : Move s s') :
    Sound row s' := by
  obtain ⟨hkept, hstacked, harranged⟩ := h
  cases hmove with
  | operand =>
      refine ⟨?_, hstacked, ?_⟩
      · have hline := hkept.advance fun _ => not_isOperand_of_mem_waitingTokens
        simpa [line, waitingTokens] using hline
      · rw [← harranged]
        simp [arrange, release, wait]
  | letOut hout =>
      refine ⟨?_, (List.pairwise_cons.mp hstacked).2, ?_⟩
      · -- the latest is the first of those that wait, so the line is the same
        simpa [line, waitingTokens] using hkept
      · rw [← harranged, List.map_cons, arrange_of_letsOut hout]
        simp
  | push hlatest =>
      have hlooser := hstacked.looser_of_head hlatest
      refine ⟨?_, List.pairwise_cons.mpr ⟨hlooser, hstacked⟩, ?_⟩
      · have hline := hkept.advance fun _ => not_isOperand_of_mem_waitingTokens
        simpa [line, waitingTokens] using hline
      · rw [← harranged, List.map_cons, List.map_cons, arrange_of_tighter hlooser]

theorem sound_moves {row : List Token} {s : Loop} (h : Moves (start row) s) : Sound row s := by
  induction h with
  | refl => exact sound_start row
  | tail _ hmove ih => exact sound_move ih hmove

/-- **No more than two operators wait.** -/
theorem Sound.length_waiting_le {row : List Token} {s : Loop} (h : Sound row s) :
    s.waiting.length ≤ 2 := by
  have hbound : ∀ w ∈ s.waiting.map Prod.fst, w.precedence < 3 := by
    intro w _
    exact Nat.lt_succ_of_le w.precedence_le_two
  have hlt := h.stacked.length_lt (Nat.succ_pos 2) hbound
  rw [List.length_map] at hlt
  omega

theorem Sound.length_eq {row : List Token} {s : Loop} (h : Sound row s) :
    s.out.length + s.waiting.length + s.rest.length = row.length := by
  have hlength := h.kept.perm.length_eq
  simp only [line, waitingTokens, List.length_append, List.length_map, List.length_zipIdx]
    at hlength
  omega

/-- **No more than two operators go out before the next token is read.** -/
theorem Sound.length_out_le {row : List Token} {s s' : Loop} (h : Sound row s)
    (h' : Sound row s') (hrest : s'.rest = s.rest) : s'.out.length ≤ s.out.length + 2 := by
  have hlength := h.length_eq
  have hlength' := h'.length_eq
  have hwaiting := h.length_waiting_le
  rw [hrest] at hlength'
  omega

/-! ## The way of the loop -/

/-- One token is read. What waits then is what `wait` says. -/
theorem exists_moves_read (out : List (Token × Nat)) (waiting : List (Operator × Nat))
    (token : Token) (place : Nat) (rest : List (Token × Nat)) :
    ∃ s, Moves ⟨out, waiting, (token, place) :: rest⟩ s ∧ s.rest = rest
      ∧ s.waiting.map Prod.fst = wait (waiting.map Prod.fst) token := by
  cases token with
  | operand o => exact ⟨_, .single .operand, rfl, rfl⟩
  | operator op =>
      -- either the latest goes out and the rest of the stack is next, or `op` is pushed
      induction waiting generalizing out with
      | nil => exact ⟨_, .single (.push nofun), rfl, rfl⟩
      | cons latest below ih =>
          by_cases hgoes : goesBefore op latest.1 = true
          · obtain ⟨s, hmoves, hrest, hwaiting⟩ := ih (out ++ [(.operator latest.1, latest.2)])
            refine ⟨s, .head (.letOut (goesBefore_iff.mp hgoes)) hmoves, hrest, ?_⟩
            rw [hwaiting, wait, wait, List.map_cons, List.dropWhile_cons_of_pos hgoes]
          · refine ⟨_, .single (.push ?_), rfl, ?_⟩
            · intro w hw
              cases hw
              rw [goesBefore_iff] at hgoes
              exact Nat.not_le.mp hgoes
            · show op :: (latest :: below).map Prod.fst = _
              rw [wait, List.map_cons, List.dropWhile_cons_of_neg hgoes]

/-- **The loop comes by with every part of the row read**, and with the operators that wait then. -/
theorem exists_moves_waitingAfter (before after : List Token) :
    ∃ s, Moves (start (before ++ after)) s ∧ s.rest.map Prod.fst = after
      ∧ s.waiting.map Prod.fst = waitingAfter before := by
  induction before using List.reverseRecOn generalizing after with
  | nil => exact ⟨start after, .refl, List.zipIdx_map_fst 0 after, rfl⟩
  | append_singleton before token ih =>
      -- the run over the tokens before is gone on by reading one more
      obtain ⟨⟨out, waiting, rest⟩, hmoves, hrest, hwaiting⟩ := ih (token :: after)
      obtain ⟨⟨_, place⟩, rest, rfl, rfl, hafter⟩ := List.map_eq_cons_iff.mp hrest
      obtain ⟨s, hread, hsrest, hswaiting⟩ := exists_moves_read out waiting _ place rest
      refine ⟨s, ?_, ?_, ?_⟩
      · rw [List.append_assoc]
        exact hmoves.trans hread
      · rw [hsrest]
        exact hafter
      · rw [hswaiting, hwaiting, waitingAfter_concat]

/-- At the end of the row all that wait go out. -/
theorem exists_moves_flush (out : List (Token × Nat)) (waiting : List (Operator × Nat)) :
    ∃ out', Moves ⟨out, waiting, []⟩ ⟨out', [], []⟩ := by
  induction waiting generalizing out with
  | nil => exact ⟨out, .refl⟩
  | cons latest below ih =>
      obtain ⟨out', hmoves⟩ := ih (out ++ [(.operator latest.1, latest.2)])
      exact ⟨out', .head (.letOut trivial) hmoves⟩

theorem exists_moves_to_end (row : List Token) : ∃ out, Moves (start row) ⟨out, [], []⟩ := by
  obtain ⟨⟨out, waiting, rest⟩, hread, hrest, _⟩ := exists_moves_waitingAfter row []
  obtain rfl := List.map_eq_nil_iff.mp hrest
  obtain ⟨out', hflush⟩ := exists_moves_flush out waiting
  rw [List.append_nil] at hread
  exact ⟨out', hread.trans hflush⟩

/-- At the end the line is what has gone out, and this is the rearranged row. -/
theorem Sound.of_end {row : List Token} {out : List (Token × Nat)}
    (h : Sound row ⟨out, [], []⟩) : Kept row out ∧ out.map Prod.fst = ofRow row := by
  obtain ⟨hkept, _, harranged⟩ := h
  refine ⟨?_, ?_⟩
  · simpa [line, waitingTokens] using hkept
  · simpa [arrange] using harranged

end Loop

open Loop

/-- The rearranged row with the places of its tokens. -/
theorem exists_kept_ofRow (row : List Token) :
    ∃ out, Kept row out ∧ out.map Prod.fst = ofRow row := by
  obtain ⟨out, hmoves⟩ := exists_moves_to_end row
  exact ⟨out, (sound_moves hmoves).of_end⟩

/-- **Rearranging loses no token and brings none in.** -/
theorem ofRow_perm (row : List Token) : (ofRow row).Perm row := by
  obtain ⟨out, hkept, hout⟩ := exists_kept_ofRow row
  rw [← hout]
  exact hkept.perm_row

/-- **Rearranging keeps the order of the operands.** -/
theorem filter_isOperand_ofRow (row : List Token) :
    (ofRow row).filter Token.isOperand = row.filter Token.isOperand := by
  obtain ⟨out, hkept, hout⟩ := exists_kept_ofRow row
  rw [← hout]
  exact hkept.filter_isOperand

/--
**Rearranging a row puts its operators off, and does nothing else.**

Every token goes out once, the operands in their order. In what has gone out when the
loop ends, a token that stands in front of an operand had its place in front of it in
the row: no operator comes out before an operand that was typed before it.

The loop comes by with every part of the row read, the stack being then the one with
which `arrange` goes on. All the time the stack is sorted and holds no more than two
operators, so that no more than two of them go out before the next token is read.
-/
theorem ofRow_of_moves (row : List Token) :
    (ofRow row).Perm row
      ∧ (ofRow row).filter Token.isOperand = row.filter Token.isOperand
      ∧ (∃ out, Moves (start row) ⟨out, [], []⟩)
      ∧ (∀ out, Moves (start row) ⟨out, [], []⟩ → Kept row out ∧ out.map Prod.fst = ofRow row)
      ∧ (∀ before after, row = before ++ after →
          ∃ s, Moves (start row) s ∧ s.rest.map Prod.fst = after
            ∧ s.waiting.map Prod.fst = waitingAfter before)
      ∧ ∀ s, Moves (start row) s →
          Kept row s.line ∧ Stacked (s.waiting.map Prod.fst) ∧ s.waiting.length ≤ 2
            ∧ ∀ s', Moves s s' → s'.rest = s.rest → s'.out.length ≤ s.out.length + 2 := by
  refine ⟨ofRow_perm row, filter_isOperand_ofRow row, exists_moves_to_end row, ?_, ?_, ?_⟩
  · intro out hmoves
    exact (sound_moves hmoves).of_end
  · intro before after hrow
    rw [hrow]
    exact exists_moves_waitingAfter before after
  · intro s hmoves
    -- the invariant of the loop holds in every state that it reaches
    have hsound := sound_moves hmoves
    refine ⟨hsound.kept, hsound.stacked, hsound.length_waiting_le, ?_⟩
    intro s' hmoves' hrest
    exact hsound.length_out_le (sound_moves (hmoves.trans hmoves')) hrest

/-- In the malformed row `+ * X -` the subtraction lets both waiting operators out. -/
theorem ofRow_of_moves_twoOut :
    let x : Token × Nat := (.operand (.name "X"), 2)
    let row : List Token := [.operator .add, .operator .mul, x.1, .operator .sub]
    let full : Loop := ⟨[x], [(.mul, 1), (.add, 0)], [(.operator .sub, 3)]⟩
    let emptied : Loop :=
      ⟨[x, (.operator .mul, 1), (.operator .add, 0)], [], [(.operator .sub, 3)]⟩
    let out := emptied.out ++ [(.operator .sub, 3)]
    Moves (start row) full ∧ Moves full emptied ∧ Moves (start row) ⟨out, [], []⟩
      ∧ out.map Prod.fst = ofRow row
      ∧ Stacked (full.waiting.map Prod.fst) ∧ emptied.out.length ≤ full.out.length + 2 := by
  intro x row full emptied out
  have hfull : Moves (start row) full :=
    .head (.push nofun) (.head (.push (by decide)) (.single .operand))
  have hmul : Operator.sub.precedence ≤ Operator.mul.precedence := by decide
  have hadd : Operator.sub.precedence ≤ Operator.add.precedence := by decide
  have hemptied : Moves full emptied := .head (.letOut hmul) (.single (.letOut hadd))
  have hend : Moves (start row) ⟨out, [], []⟩ :=
    (hfull.trans hemptied).trans (.head (.push nofun) (.single (.letOut trivial)))
  obtain ⟨_, _, _, hended, _, hall⟩ := ofRow_of_moves row
  obtain ⟨_, hstacked, _, htwo⟩ := hall full hfull
  exact ⟨hfull, hemptied, hend, (hended out hend).2, hstacked, htwo emptied hemptied rfl⟩

end DeskCalculator.Postfix
