import DeskCalculator.Calculator

/-!
# The texts of a session

A key edits the pending text, replaces it, or commits it; a committed text was
pending once, or it is an operator. So a property of texts that survives the edits
holds of everything in a session, as long as it holds of the names that are
inserted and of the results that are shown.
-/

namespace DeskCalculator

/-- A property of pending texts that is kept up while they are edited. -/
structure KeptByEdits (property : String → Prop) : Prop where
  nothingTyped : property Session.nothingTyped
  digit : ∀ {c : Char}, c.isDigit → property (String.singleton c)
  addDigit : ∀ {text : String} {c : Char}, property text → c.isDigit → property (text.push c)
  addPoint : ∀ {text : String}, property text → '.' ∉ text.toList → property (text.push '.')
  dropLast : ∀ {text : String}, property text → 1 < text.length → property (Text.dropLast text)

namespace Session

/-- A session in which every text has a property or is a committed operator. -/
structure MadeOf (property : String → Prop) (s : Session) : Prop where
  tokens : ∀ text ∈ s.tokens, property text ∨ ∃ op : Operator, text = op.text
  pending : property s.pending

variable {property : String → Prop}

theorem madeOf_start (hp : KeptByEdits property) : ({} : Session).MadeOf property :=
  ⟨nofun, hp.nothingTyped⟩

theorem madeOf_fail (hp : KeptByEdits property) (error : EvalError) :
    (fail error).MadeOf property :=
  ⟨nofun, hp.nothingTyped⟩

namespace MadeOf

variable {s : Session}

theorem tokens_concat {tokens : List String} {text : String}
    (h : ∀ t ∈ tokens, property t ∨ ∃ op : Operator, t = op.text)
    (htext : property text ∨ ∃ op : Operator, text = op.text) :
    ∀ t ∈ tokens ++ [text], property t ∨ ∃ op : Operator, t = op.text :=
  List.forall_mem_append.mpr ⟨h, List.forall_mem_singleton.mpr htext⟩

theorem commit (hp : KeptByEdits property) (h : s.MadeOf property) : s.commit.MadeOf property := by
  unfold Session.commit
  split
  · exact h
  · split
    · split
      · exact h
      · exact ⟨tokens_concat h.tokens (Or.inl hp.nothingTyped), h.pending⟩
    · exact ⟨tokens_concat h.tokens (Or.inl h.pending), hp.nothingTyped⟩

theorem digit (hp : KeptByEdits property) (h : s.MadeOf property) {c : Char} (hc : c.isDigit) :
    (s.digit c).MadeOf property := by
  unfold Session.digit
  split
  · exact ⟨nofun, hp.digit hc⟩
  · refine ⟨h.tokens, ?_⟩
    dsimp only
    split
    · exact hp.digit hc
    · exact hp.addDigit h.pending hc

theorem decimal (hp : KeptByEdits property) (h : s.MadeOf property) :
    s.decimal.MadeOf property := by
  unfold Session.decimal
  split
  · have hpoint : property (nothingTyped.push '.') := hp.addPoint hp.nothingTyped (by decide)
    exact ⟨nofun, hpoint⟩
  · refine ⟨h.tokens, ?_⟩
    dsimp only
    split
    · exact h.pending
    · next hpoint => exact hp.addPoint h.pending fun hmem => hpoint (List.contains_iff_mem.mpr hmem)

/-- An operator comes after a result, in the place of an operator, or after what is committed. -/
theorem operator (hp : KeptByEdits property) (h : s.MadeOf property) (op : Operator) :
    (s.operator op).MadeOf property := by
  refine ⟨tokens_concat ?_ (Or.inr ⟨op, rfl⟩), hp.nothingTyped⟩
  split
  · exact List.forall_mem_singleton.mpr (Or.inl h.pending)
  · split
    · exact fun text htext => h.tokens text ((List.dropLast_sublist _).subset htext)
    · exact (h.commit hp).tokens

theorem insert (hp : KeptByEdits property) (h : s.MadeOf property) {name : String}
    (hname : property name) : (s.insert name).MadeOf property := by
  unfold Session.insert
  split
  · exact ⟨nofun, hname⟩
  · refine ⟨tokens_concat ?_ (Or.inl hname), hp.nothingTyped⟩
    split
    · exact h.tokens
    · exact (h.commit hp).tokens

theorem delete (hp : KeptByEdits property) (h : s.MadeOf property) : s.delete.MadeOf property := by
  refine ⟨?_, ?_⟩
  · show ∀ text ∈ (if s.phase = .evaluated then [] else s.tokens), _
    split
    · exact nofun
    · exact h.tokens
  · show property (if 1 < s.pending.length then Text.dropLast s.pending else nothingTyped)
    split
    · next hlong => exact hp.dropLast h.pending hlong
    · exact hp.nothingTyped

/-- A result is pending as it is shown. -/
theorem equals (hp : KeptByEdits property) (h : s.MadeOf property) {resolve : Resolver}
    (hresult : ∀ v, (s.equals resolve).outcome.result = .ok v → property (Display.text v)) :
    (s.equals resolve).session.MadeOf property := by
  unfold Session.equals at hresult ⊢
  split
  · exact h
  · next hnone =>
    rw [hnone] at hresult
    dsimp only at hresult ⊢
    split
    · next value explanation hok =>
      -- the committed texts stay, and the result becomes the pending one
      rw [hok] at hresult
      exact ⟨(h.commit hp).tokens, hresult value rfl⟩
    · exact madeOf_fail hp _

end MadeOf

end Session

/-- **A key brings in nothing but what edits keep up**, an inserted name and a shown result. -/
theorem Calculator.madeOf_press {property : String → Prop} (hp : KeptByEdits property)
    {desk : Calculator} (h : desk.session.MadeOf property) {key : Key}
    (hdigit : ∀ c, key = .digit c → c.isDigit)
    (hname : key = .insertVariable → property VariableField.variableName)
    (hresult : key = .equals → ∀ v, desk.equals.outcome.result = .ok v →
      property (Display.text v)) :
    (desk.press key).session.MadeOf property := by
  cases key with
  | digit c => exact h.digit hp (hdigit c rfl)
  | decimal => exact h.decimal hp
  | operator op => exact h.operator hp op
  | insertVariable => exact h.insert hp (hname rfl)
  | equals => exact h.equals hp (hresult rfl)
  | delete => exact h.delete hp
  | clear => exact Session.madeOf_start hp
  | fieldDigit c => exact h
  | fieldDelete => exact h

end DeskCalculator
