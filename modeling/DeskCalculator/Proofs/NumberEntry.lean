import Mathlib.Data.List.Induction
import DeskCalculator.Proofs.Numeral
import DeskCalculator.Session

/-!
# Typing a number

A number is typed with the digit keys and the point, in any order. A lone zero
gives way to the next digit, a point after the first one is ignored, and the first
key after a result starts anew. What is pending is then the number that was typed,
with its first point only and without superfluous zeros in front. Nothing else in
the session changes but the phase and the error, and a finished expression is gone.

The first key is taken as the second one after a zero that nobody typed. From there
the induction is on the keys: the pending text is always the one that belongs to
the keys so far. That it reads as what was typed is a fact about numerals, as which
both texts can be taken.
-/

namespace DeskCalculator

/-! ## The text that is typed -/

/-- The characters without the points that come after another one. -/
def keepFirstPoint : List Char → List Char
  | [] => []
  | c :: rest => if c = '.' then '.' :: rest.filter (· ≠ '.') else c :: keepFirstPoint rest

/-- The characters without zeros in front; one stays before a point and at the end. -/
def dropLeadingZeros : List Char → List Char
  | c :: next :: rest =>
    if c = '0' ∧ next ≠ '.' then dropLeadingZeros (next :: rest) else c :: next :: rest
  | text => text

/-- The number that the keys say, with a digit in front of its point. -/
def numberText (keys : List Char) : List Char :=
  let text := keepFirstPoint keys
  if text.head? = some '.' then '0' :: text else text

theorem keepFirstPoint_point (rest : List Char) :
    keepFirstPoint ('.' :: rest) = '.' :: rest.filter (· ≠ '.') := by
  rw [keepFirstPoint, if_pos rfl]

theorem keepFirstPoint_cons {c : Char} (h : c ≠ '.') (rest : List Char) :
    keepFirstPoint (c :: rest) = c :: keepFirstPoint rest := by
  rw [keepFirstPoint, if_neg h]

theorem mem_keepFirstPoint {text : List Char} : '.' ∈ keepFirstPoint text ↔ '.' ∈ text := by
  induction text with
  | nil => rfl
  | cons c rest ih =>
      by_cases hc : c = '.'
      · simp [hc, keepFirstPoint_point]
      · rw [keepFirstPoint_cons hc, List.mem_cons, List.mem_cons, ih]

theorem keepFirstPoint_ne_nil {text : List Char} (h : text ≠ []) : keepFirstPoint text ≠ [] := by
  obtain ⟨c, rest, rfl⟩ := List.exists_cons_of_ne_nil h
  by_cases hc : c = '.'
  · rw [hc, keepFirstPoint_point]
    exact List.cons_ne_nil _ _
  · rw [keepFirstPoint_cons hc]
    exact List.cons_ne_nil _ _

/-- A text with one point at most is kept as it is. -/
theorem keepFirstPoint_eq_self {text : List Char} (h : text.count '.' ≤ 1) :
    keepFirstPoint text = text := by
  induction text with
  | nil => rfl
  | cons c rest ih =>
      by_cases hc : c = '.'
      · rw [hc, List.count_cons_self] at h
        -- this is the only point, so there is none to drop behind it
        have hnone : '.' ∉ rest := List.count_eq_zero.mp (by omega)
        have hkept : rest.filter (· ≠ '.') = rest := by
          rw [List.filter_eq_self]
          intro d hd
          exact decide_eq_true fun hpoint => hnone (hpoint ▸ hd)
        rw [hc, keepFirstPoint_point, hkept]
      · rw [List.count_cons_of_ne hc] at h
        rw [keepFirstPoint_cons hc, ih h]

/-- One key more adds its character, unless it is a further point. -/
theorem keepFirstPoint_append_singleton (text : List Char) (c : Char) :
    keepFirstPoint (text ++ [c])
      = if c = '.' ∧ '.' ∈ text then keepFirstPoint text else keepFirstPoint text ++ [c] := by
  induction text with
  | nil =>
      by_cases hc : c = '.'
      · rw [hc]; rfl
      · rw [List.nil_append, keepFirstPoint_cons hc, if_neg (fun h => hc h.1)]
        rfl
  | cons first rest ih =>
      by_cases hfirst : first = '.'
      · -- behind the point, nothing but points is left out
        rw [hfirst, List.cons_append, keepFirstPoint_point, keepFirstPoint_point]
        by_cases hc : c = '.'
        · simp [hc]
        · simp [hc]
      · rw [List.cons_append, keepFirstPoint_cons hfirst, keepFirstPoint_cons hfirst, ih]
        have hmem : '.' ∈ first :: rest ↔ '.' ∈ rest := by
          rw [List.mem_cons]
          exact or_iff_right (Ne.symm hfirst)
        simp only [hmem]
        split
        · rfl
        · rfl

theorem dropLeadingZeros_zero {c : Char} (h : c ≠ '.') (rest : List Char) :
    dropLeadingZeros ('0' :: c :: rest) = dropLeadingZeros (c :: rest) := by
  rw [dropLeadingZeros, if_pos ⟨rfl, h⟩]

theorem dropLeadingZeros_zero_point (rest : List Char) :
    dropLeadingZeros ('0' :: '.' :: rest) = '0' :: '.' :: rest := by
  rw [dropLeadingZeros, if_neg (fun h => h.2 rfl)]

theorem dropLeadingZeros_cons {c : Char} (h : c ≠ '0') (rest : List Char) :
    dropLeadingZeros (c :: rest) = c :: rest := by
  cases rest with
  | nil => rfl
  | cons next rest => rw [dropLeadingZeros, if_neg (fun hc => h hc.1)]

theorem mem_dropLeadingZeros {text : List Char} : '.' ∈ dropLeadingZeros text ↔ '.' ∈ text := by
  fun_induction dropLeadingZeros text with
  | case1 first next rest hzero ih =>
      have hne : '.' ≠ first := by
        rw [hzero.1]
        decide
      rw [ih]
      exact (List.mem_cons.trans (or_iff_right hne)).symm
  | case2 first next rest hstop => rfl
  | case3 text hshort => rfl

/-- A digit takes the place of a lone zero; everything else is added at the end. -/
theorem dropLeadingZeros_append_singleton {text : List Char} (hne : text ≠ []) (c : Char) :
    dropLeadingZeros (text ++ [c])
      = if dropLeadingZeros text = ['0'] ∧ c ≠ '.' then [c] else dropLeadingZeros text ++ [c] := by
  fun_induction dropLeadingZeros text with
  | case1 first next rest hzero ih =>
      rw [← ih (List.cons_ne_nil next rest), List.cons_append, List.cons_append, dropLeadingZeros,
        if_pos hzero]
  | case2 first next rest hstop =>
      rw [List.cons_append, List.cons_append, dropLeadingZeros, if_neg hstop, if_neg (by simp)]
  | case3 text hshort =>
      -- one character is kept as it is, a zero too
      match text with
      | [] => exact absurd rfl hne
      | [first] => simp [dropLeadingZeros]
      | first :: next :: rest => exact absurd rfl (hshort first next rest)

/-- Zeros in front end at the first other digit, at the point or at the end. -/
theorem dropLeadingZeros_append {whole after : List Char} (hne : whole ≠ [])
    (hwhole : ∀ c ∈ whole, c.isDigit) (hafter : ∀ c ∈ after.head?, c = '.') :
    dropLeadingZeros (whole ++ after) = trimZeros whole ++ after := by
  induction whole with
  | nil => exact absurd rfl hne
  | cons c rest ih =>
      by_cases hc : c = '0'
      · rw [hc, trimZeros_zero]
        -- the last zero of the whole part stays if nothing but a point follows
        cases rest with
        | nil =>
            cases after with
            | nil => rfl
            | cons point after =>
                rw [hafter point rfl]
                exact dropLeadingZeros_zero_point after
        | cons next rest =>
            have hdigits : ∀ c ∈ next :: rest, c.isDigit :=
              fun d hd => hwhole d (List.mem_cons_of_mem c hd)
            have hnext : next ≠ '.' := Numeral.ne_point (hdigits next List.mem_cons_self)
            rw [List.cons_append, List.cons_append, dropLeadingZeros_zero hnext,
              ← List.cons_append, ih (List.cons_ne_nil next rest) hdigits]
      · rw [List.cons_append, dropLeadingZeros_cons hc, trimZeros_cons hc, List.cons_append]

theorem numberText_point (rest : List Char) :
    numberText ('.' :: rest) = keepFirstPoint ('0' :: '.' :: rest) := by
  have hzero : '0' ≠ '.' := by decide
  rw [numberText, keepFirstPoint_cons hzero, keepFirstPoint_point]
  rfl

theorem numberText_cons {c : Char} (h : c ≠ '.') (rest : List Char) :
    numberText (c :: rest) = keepFirstPoint (c :: rest) := by
  rw [numberText, keepFirstPoint_cons h, List.head?_cons, if_neg (fun hc => h (Option.some.inj hc))]

/-- A zero typed in front counts only where a point follows. -/
theorem dropLeadingZeros_zero_keepFirstPoint {keys : List Char} (hne : keys ≠ []) :
    dropLeadingZeros (keepFirstPoint ('0' :: keys)) = dropLeadingZeros (numberText keys) := by
  obtain ⟨c, rest, rfl⟩ := List.exists_cons_of_ne_nil hne
  by_cases hc : c = '.'
  · rw [hc, numberText_point]
  · rw [numberText_cons hc, keepFirstPoint_cons (by decide), keepFirstPoint_cons hc,
      dropLeadingZeros_zero hc]

namespace Numeral

theorem count_chars_le (n : Numeral) : n.chars.count '.' ≤ 1 := by
  have hwhole : n.whole.count '.' = 0 :=
    List.count_eq_zero.mpr (point_not_mem_digits n.isDigit_whole)
  rw [chars, List.count_append, hwhole, Nat.zero_add]
  unfold pointAndAfter
  split
  · exact Nat.zero_le 1
  · rename_i digits hfraction
    have hdigits : digits.count '.' = 0 :=
      List.count_eq_zero.mpr (point_not_mem_digits (n.isDigit_fraction digits hfraction))
    rw [List.count_cons_self]
    omega

theorem keepFirstPoint_chars (n : Numeral) : keepFirstPoint n.chars = n.chars :=
  keepFirstPoint_eq_self n.count_chars_le

theorem numberText_chars (n : Numeral) : numberText n.chars = n.chars := by
  obtain ⟨c, rest, hchars, hc⟩ := n.chars_eq_cons
  rw [hchars, numberText_cons (ne_point hc), ← hchars, keepFirstPoint_chars]

theorem chars_trimmed (n : Numeral) : n.trimmed.chars = dropLeadingZeros n.chars := by
  have hafter : ∀ c ∈ n.pointAndAfter.head?, c = '.' := by
    unfold pointAndAfter
    split
    · nofun
    · intro c hc
      exact (Option.some.inj hc).symm
  rw [chars, chars, dropLeadingZeros_append n.whole_ne_nil n.isDigit_whole hafter]
  rfl

/-- Digits and points that start with a digit are a numeral, once the further points are gone. -/
theorem exists_chars_eq {first : Char} (hfirst : first.isDigit) {keys : List Char}
    (hkeys : ∀ c ∈ keys, c.isDigit ∨ c = '.') :
    ∃ n : Numeral, n.chars = keepFirstPoint (first :: keys) := by
  induction keys using List.reverseRecOn with
  | nil =>
      exact ⟨ofDigit first hfirst, (keepFirstPoint_chars (ofDigit first hfirst)).symm⟩
  | append_singleton keys c ih =>
      obtain ⟨hbefore, hc⟩ := List.forall_mem_append.mp hkeys
      obtain ⟨n, hn⟩ := ih hbefore
      rw [← List.cons_append, keepFirstPoint_append_singleton]
      -- a digit and the first point extend the numeral, a second point is dropped
      rcases hc c List.mem_cons_self with hdigit | hpoint
      · rw [if_neg (fun h => ne_point hdigit h.1)]
        exact ⟨n.addDigit hdigit, by rw [chars_addDigit, hn]⟩
      · by_cases hmem : '.' ∈ first :: keys
        · rw [if_pos ⟨hpoint, hmem⟩]
          exact ⟨n, hn⟩
        · have hnone : '.' ∉ n.chars := by
            rw [hn, mem_keepFirstPoint]
            exact hmem
          rw [if_neg (fun h => hmem h.2), hpoint]
          exact ⟨n.addPoint, by rw [chars_addPoint hnone, hn]⟩

theorem exists_chars_eq_numberText {keys : List Char} (hne : keys ≠ [])
    (hkeys : ∀ c ∈ keys, c.isDigit ∨ c = '.') : ∃ n : Numeral, n.chars = numberText keys := by
  obtain ⟨c, rest, rfl⟩ := List.exists_cons_of_ne_nil hne
  rcases hkeys c List.mem_cons_self with hdigit | hpoint
  · rw [numberText_cons (ne_point hdigit)]
    exact exists_chars_eq hdigit fun d hd => hkeys d (List.mem_cons_of_mem c hd)
  · rw [hpoint] at hkeys ⊢
    rw [numberText_point]
    exact exists_chars_eq isDigit_zero hkeys

end Numeral

/-! ## The keys of a number -/

namespace Session

def Action.ofKey (c : Char) : Action := if c = '.' then .decimal else .digit c

/-- The session in which some characters are pending. -/
def entering (pending : List Char) (s : Session) : Session :=
  { s.beginEntry with pending := String.ofList pending }

/-- The session without the expression, when it stands at a result. -/
def cleared (s : Session) : Session :=
  { s with tokens := if s.phase = .evaluated then [] else s.tokens }

theorem pending_entering (s : Session) (pending : List Char) :
    (s.entering pending).pending = String.ofList pending := rfl

theorem ofList_eq_nothingTyped_iff {cs : List Char} :
    String.ofList cs = nothingTyped ↔ cs = ['0'] := by
  rw [← String.toList_inj, String.toList_ofList]
  rfl

theorem ofList_push (cs : List Char) (c : Char) :
    (String.ofList cs).push c = String.ofList (cs ++ [c]) := by
  rw [← String.toList_inj, String.toList_push, String.toList_ofList, String.toList_ofList]

theorem digit_entering (s : Session) (pending : List Char) (c : Char) :
    (s.entering pending).digit c
      = s.entering (if pending = ['0'] then [c] else pending ++ [c]) := by
  have hphase : ¬(s.entering pending).phase = .evaluated := nofun
  rw [digit, if_neg hphase]
  by_cases hzero : pending = ['0']
  · rw [hzero]
    rfl
  · have hpending : ¬(s.entering pending).pending = nothingTyped :=
      fun h => hzero (ofList_eq_nothingTyped_iff.mp h)
    rw [if_neg hpending, if_neg hzero]
    show { s.beginEntry with pending := (String.ofList pending).push c } = _
    rw [ofList_push]
    rfl

theorem decimal_entering (s : Session) (pending : List Char) :
    (s.entering pending).decimal
      = s.entering (if '.' ∈ pending then pending else pending ++ ['.']) := by
  have hphase : ¬(s.entering pending).phase = .evaluated := nofun
  have hcontains : (s.entering pending).pending.toList.contains '.' = true ↔ '.' ∈ pending := by
    rw [pending_entering, String.toList_ofList, List.contains_iff_mem]
  rw [decimal, if_neg hphase]
  by_cases hpoint : '.' ∈ pending
  · rw [if_pos (hcontains.mpr hpoint), if_pos hpoint]
    rfl
  · rw [if_neg (fun h => hpoint (hcontains.mp h)), if_neg hpoint]
    show { s.beginEntry with pending := (String.ofList pending).push '.' } = _
    rw [ofList_push]
    rfl

theorem perform_ofKey {c : Char} (h : c.isDigit) (s : Session) :
    s.perform (Action.ofKey c) = s.digit c := by
  rw [Action.ofKey, if_neg (Numeral.ne_point h)]
  rfl

theorem perform_ofKey_point (s : Session) : s.perform (Action.ofKey '.') = s.decimal := rfl

/-- After a result as after a zero that nobody typed, the first key starts the pending text. -/
theorem perform_ofKey_first {s : Session} (hstart : s.phase = .evaluated ∨ s.pending = nothingTyped)
    {c : Char} (hc : c.isDigit ∨ c = '.') :
    s.perform (Action.ofKey c) = (s.cleared.entering ['0']).perform (Action.ofKey c) := by
  -- a pending zero counts as nothing typed, like the result that is replaced
  rcases hc with hdigit | rfl
  · rw [perform_ofKey hdigit, perform_ofKey hdigit, digit_entering, if_pos rfl, digit]
    by_cases hphase : s.phase = .evaluated
    · rw [if_pos hphase, cleared, if_pos hphase]
      rfl
    · rw [if_neg hphase, if_pos (hstart.resolve_left hphase), cleared, if_neg hphase]
      rfl
  · rw [perform_ofKey_point, perform_ofKey_point, decimal_entering, if_neg (by decide), decimal]
    by_cases hphase : s.phase = .evaluated
    · rw [if_pos hphase, cleared, if_pos hphase]
      rfl
    · rw [if_neg hphase, hstart.resolve_left hphase, cleared, if_neg hphase]
      rfl

/-- **One key more**, when what is pending belongs to the keys so far. -/
theorem perform_ofKey_entering {typed : List Char} (hne : typed ≠ []) {c : Char}
    (hc : c.isDigit ∨ c = '.') (s : Session) :
    (s.entering (dropLeadingZeros (keepFirstPoint typed))).perform (Action.ofKey c)
      = s.entering (dropLeadingZeros (keepFirstPoint (typed ++ [c]))) := by
  have hkept : keepFirstPoint typed ≠ [] := keepFirstPoint_ne_nil hne
  have hmem : '.' ∈ dropLeadingZeros (keepFirstPoint typed) ↔ '.' ∈ typed :=
    mem_dropLeadingZeros.trans mem_keepFirstPoint
  -- the session looks for a point in the pending text, which has one if one was typed
  rw [keepFirstPoint_append_singleton]
  rcases hc with hdigit | rfl
  · have hpoint : c ≠ '.' := Numeral.ne_point hdigit
    rw [if_neg (fun h => hpoint h.1), dropLeadingZeros_append_singleton hkept,
      perform_ofKey hdigit, digit_entering]
    simp only [hpoint, ne_eq, not_false_eq_true, and_true]
  · rw [perform_ofKey_point, decimal_entering]
    by_cases hpoint : '.' ∈ typed
    · rw [if_pos (hmem.mpr hpoint), if_pos ⟨rfl, hpoint⟩]
    · rw [if_neg (fun h => hpoint (hmem.mp h)), if_neg (fun h => hpoint h.2),
        dropLeadingZeros_append_singleton hkept, if_neg (fun h => h.2 rfl)]

/-- After any further keys, what is pending belongs to all of them. -/
theorem performAll_entering {typed : List Char} (hne : typed ≠ []) {keys : List Char}
    (hkeys : ∀ c ∈ keys, c.isDigit ∨ c = '.') (s : Session) :
    (s.entering (dropLeadingZeros (keepFirstPoint typed))).performAll (keys.map Action.ofKey)
      = s.entering (dropLeadingZeros (keepFirstPoint (typed ++ keys))) := by
  induction keys generalizing typed with
  | nil => rw [List.append_nil]; rfl
  | cons c keys ih =>
      rw [List.map_cons, performAll_cons, perform_ofKey_entering hne (hkeys c List.mem_cons_self),
        ih (List.append_ne_nil_of_left_ne_nil hne _)
          (fun d hd => hkeys d (List.mem_cons_of_mem c hd)), List.append_assoc]
      rfl

/-- The keys of a number leave it pending, behind the expression unless that is finished. -/
theorem performAll_keys {s : Session} (hstart : s.phase = .evaluated ∨ s.pending = nothingTyped)
    {keys : List Char} (hne : keys ≠ []) (hkeys : ∀ c ∈ keys, c.isDigit ∨ c = '.') :
    s.performAll (keys.map Action.ofKey)
      = s.cleared.entering (dropLeadingZeros (numberText keys)) := by
  have hfirst : s.performAll (keys.map Action.ofKey)
      = (s.cleared.entering ['0']).performAll (keys.map Action.ofKey) := by
    obtain ⟨c, rest, rfl⟩ := List.exists_cons_of_ne_nil hne
    rw [List.map_cons, performAll_cons, performAll_cons,
      perform_ofKey_first hstart (hkeys c List.mem_cons_self)]
  rw [hfirst, ← dropLeadingZeros_zero_keepFirstPoint hne]
  exact performAll_entering (List.cons_ne_nil '0' []) hkeys s.cleared

/-- **A typed numeral is pending without its superfluous zeros**, and nothing else has changed. -/
theorem performAll_numeral {s : Session} (hphase : s.phase ≠ .evaluated)
    (hpending : s.pending = nothingTyped) (n : Numeral) :
    s.performAll (n.chars.map Action.ofKey) = s.entering n.trimmed.chars := by
  rw [performAll_keys (Or.inr hpending) n.chars_ne_nil (fun c hc => Numeral.isDigit_or_point hc),
    n.numberText_chars, n.chars_trimmed, cleared, if_neg hphase]

/--
**A number is typed as it is meant.** Digits and points, typed after a result or where
nothing has been typed yet, leave the number pending that they say: with its first point
only, with a zero in front if it starts with the point, and without superfluous zeros. It
reads as what was typed, and of the expression only a finished one is gone.
-/
theorem pending_performAll_keys {s : Session}
    (hstart : s.phase = .evaluated ∨ s.pending = nothingTyped) {keys : List Char} (hne : keys ≠ [])
    (hkeys : ∀ c ∈ keys, c.isDigit ∨ c = '.') :
    let after := s.performAll (keys.map Action.ofKey)
    after.pending = String.ofList (dropLeadingZeros (numberText keys))
      ∧ after.pending.toList.count '.' ≤ 1
      ∧ readNumber? after.pending = readNumber? (String.ofList (numberText keys))
      ∧ after.tokens = if s.phase = .evaluated then [] else s.tokens := by
  intro after
  have hafter : after = s.cleared.entering (dropLeadingZeros (numberText keys)) :=
    performAll_keys hstart hne hkeys
  -- what is left of the keys is a numeral, so that its lemmas apply
  obtain ⟨n, hn⟩ := Numeral.exists_chars_eq_numberText hne hkeys
  rw [hafter, pending_entering, ← hn, ← n.chars_trimmed, String.toList_ofList]
  exact ⟨rfl, n.trimmed.count_chars_le, n.readNumber?_trimmed, rfl⟩

theorem pending_performAll_keys_afterResult :
    let result : Session := { tokens := ["1", "+", "2"], pending := "3", phase := .evaluated }
    let after := result.performAll (['0', '0', '.', '5', '.', '0'].map Action.ofKey)
    after.pending = "0.50"
      ∧ readNumber? after.pending = readNumber? "00.50"
      ∧ after.tokens = [] := by
  intro result after
  have hstart : result.phase = .evaluated ∨ result.pending = nothingTyped := Or.inl rfl
  have hkeys : ∀ c ∈ ['0', '0', '.', '5', '.', '0'], c.isDigit ∨ c = '.' := by simp
  obtain ⟨hpending, _, hread, htokens⟩ :=
    pending_performAll_keys hstart (List.cons_ne_nil '0' _) hkeys
  have htyped : String.ofList (numberText ['0', '0', '.', '5', '.', '0']) = "00.50" := by decide
  rw [htyped] at hread
  exact ⟨hpending.trans (by decide), hread, htokens⟩

end Session

end DeskCalculator
