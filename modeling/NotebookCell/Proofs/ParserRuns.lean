import NotebookCell.Proofs.TokenOrder
import NotebookCell.Script.Parse

/-!
# Runs of parsers

A run that gives a result and leaves no fault noted is taken apart at each `bind`. Between its ends
lie moves only, so the tokens that it takes are in the order of the text.
-/

namespace NotebookCell.Script

/-- Run from `s`, the parser gives `a` and leaves `s'`, and no fault has been noted. -/
structure Parser.Reads {α : Type} (p : Parser α) (c : Context) (s : State) (a : α) (s' : State) :
    Prop where
  eq : (p c s).val = .result a s'
  faults : s'.faults = []

namespace Parser

/-! ## Steps of a run -/

section
variable {α β σ : Type} {p : Parser α} {f : α → Parser β} {c : Context} {s s' : State} {a a' : α} {b : β}

theorem Reads.moves (h : p.Reads c s a s') : Moves c.inModule s s' := by
  have hfollows := (p c s).property
  rw [h.eq] at hfollows
  exact hfollows.moves a s' rfl h.faults

theorem Reads.faults_before (h : p.Reads c s a s') : s.faults = [] :=
  h.moves.faults_eq_nil h.faults

theorem reads_iff_of_eq {t : State} (h : (p c s).val = .result a t) :
    p.Reads c s a' s' ↔ a' = a ∧ s' = t ∧ t.faults = [] := by
  constructor
  · rintro ⟨heq, hfaults⟩
    rw [h] at heq
    cases heq
    exact ⟨rfl, rfl, hfaults⟩
  · rintro ⟨rfl, rfl, hfaults⟩
    exact ⟨h, hfaults⟩

@[simp] theorem reads_pure : (pure a : Parser α).Reads c s a' s' ↔ a' = a ∧ s' = s ∧ s.faults = [] :=
  reads_iff_of_eq rfl

@[simp] theorem reads_state {t : State} : state.Reads c s t s' ↔ t = s ∧ s' = s ∧ s.faults = [] :=
  reads_iff_of_eq rfl

@[simp] theorem reads_read {c' : Context} :
    (read : Parser Context).Reads c s c' s' ↔ c' = c ∧ s' = s ∧ s.faults = [] :=
  reads_iff_of_eq rfl

@[simp] theorem reads_move {g : Context → State → State} {h : ∀ c s, Move c.inModule s (g c s)}
    {u : Unit} : (move g h).Reads c s u s' ↔ s' = g c s ∧ (g c s).faults = [] :=
  (reads_iff_of_eq rfl).trans (and_iff_right rfl)

@[simp] theorem reads_failWith {e : Fault} : ¬(failWith e : Parser α).Reads c s a s' := by
  rintro ⟨heq, -⟩
  cases heq

@[simp] theorem reads_failBehind {e : Fault} : ¬(failBehind e : Parser α).Reads c s a s' := by
  rintro ⟨heq, -⟩
  cases heq

theorem val_bind_of_result {t : State} (h : (p c s).val = .result a t) :
    ((p >>= f) c s).val = (f a c t).val := by
  show (Parser.bind p f c s).val = _
  unfold Parser.bind
  generalize p c s = o at h
  obtain ⟨o, ho⟩ := o
  subst h
  rfl

theorem val_bind_of_fault {e : Fault} {t : State} (h : (p c s).val = .fault e t) :
    ((p >>= f) c s).val = .fault e t := by
  show (Parser.bind p f c s).val = _
  unfold Parser.bind
  generalize p c s = o at h
  obtain ⟨o, ho⟩ := o
  subst h
  rfl

@[simp] theorem reads_bind :
    (p >>= f).Reads c s b s' ↔ ∃ a t, p.Reads c s a t ∧ (f a).Reads c t b s' := by
  constructor
  · rintro ⟨heq, hfaults⟩
    cases hp : (p c s).val with
    | result a t =>
      rw [val_bind_of_result hp] at heq
      have hrest : (f a).Reads c t b s' := ⟨heq, hfaults⟩
      exact ⟨a, t, ⟨hp, hrest.faults_before⟩, hrest⟩
    | fault e t =>
      rw [val_bind_of_fault hp] at heq
      cases heq
  · rintro ⟨a, t, ⟨hp, -⟩, heq, hfaults⟩
    exact ⟨(val_bind_of_result hp).trans heq, hfaults⟩

@[simp] theorem reads_map {g : α → β} :
    (g <$> p).Reads c s b s' ↔ ∃ a, p.Reads c s a s' ∧ b = g a := by
  show (p >>= fun a => pure (g a)).Reads c s b s' ↔ _
  rw [reads_bind]
  constructor
  · rintro ⟨a, t, hp, hpure⟩
    obtain ⟨rfl, rfl, -⟩ := reads_pure.mp hpure
    exact ⟨a, hp, rfl⟩
  · rintro ⟨a, hp, rfl⟩
    exact ⟨a, s', hp, reads_pure.mpr ⟨rfl, rfl, hp.faults⟩⟩

@[simp] theorem reads_inContext {change : Context → Context}
    {h : ∀ c, (change c).inModule = c.inModule} :
    (inContext change p h).Reads c s a s' ↔ p.Reads (change c) s a s' := by
  have hval : ((inContext change p h) c s).val = (p (change c) s).val := by
    unfold inContext
    rcases p (change c) s with ⟨o, ho⟩
    rfl
  constructor
  · rintro ⟨heq, hfaults⟩
    exact ⟨hval ▸ heq, hfaults⟩
  · rintro ⟨heq, hfaults⟩
    exact ⟨hval.trans heq, hfaults⟩

/-! ## Loops -/

theorem exists_of_reads_loopWithin {step : σ → Parser (Round σ β)} {Inv : σ → State → Prop}
    (hstep : ∀ x y t t', Inv x t → (step x).Reads c t (.again y) t' → Inv y t') {budget : Nat} {x : σ}
    (hx : Inv x s) (h : (loopWithin step budget x).Reads c s b s') :
    ∃ x t, Inv x t ∧ (step x).Reads c t (.done b) s' := by
  induction budget generalizing x s with
  | zero => simp [loopWithin] at h -- it throws
  | succ budget ih =>
    simp only [loopWithin, reads_bind] at h
    obtain ⟨round, t, hround, h⟩ := h
    cases round with
    | again y => exact ih (hstep x y s t hx hround) h
    | done b' =>
      obtain ⟨rfl, rfl, -⟩ := reads_pure.mp h
      exact ⟨x, s, hx, hround⟩

/-- What each round of a loop keeps still holds before the last one. -/
theorem exists_of_reads_loop (Inv : σ → State → Prop) {step : σ → Parser (Round σ β)} {init : σ}
    (h : (loop init step).Reads c s b s') (hinit : Inv init s)
    (hstep : ∀ x y t t', Inv x t → (step x).Reads c t (.again y) t' → Inv y t') :
    ∃ x t, Inv x t ∧ (step x).Reads c t (.done b) s' := by
  simp only [loop, reads_bind] at h
  obtain ⟨c', t, hc', h⟩ := h
  obtain ⟨rfl, rfl, -⟩ := reads_read.mp hc'
  exact exists_of_reads_loopWithin hstep hinit h

end

/-! ## Tokens -/

section
variable {α : Type} {a : α} {c : Context} {s s' : State} {u : Unit}

@[simp] theorem reads_current {l : Option Lexeme} :
    current.Reads c s l s' ↔ l = (s.withCurrent c.dialect).current ∧
      s' = s.withCurrent c.dialect ∧ (s.withCurrent c.dialect).faults = [] :=
  reads_iff_of_eq rfl

@[simp] theorem reads_currentToken {token : Option Token} :
    currentToken.Reads c s token s' ↔ token = (s.withCurrent c.dialect).current.map (·.token) ∧
      s' = s.withCurrent c.dialect ∧ (s.withCurrent c.dialect).faults = [] :=
  reads_iff_of_eq rfl

@[simp] theorem reads_bump : bump.Reads c s u s' ↔ s' = s.bumped ∧ s.bumped.faults = [] :=
  reads_move

@[simp] theorem reads_previousSpan {span : Span} :
    previousSpan.Reads c s span s' ↔ span = s.previous ∧ s' = s ∧ s.faults = [] :=
  reads_iff_of_eq rfl

@[simp] theorem reads_spanFrom {start : Nat} {span : Span} :
    (spanFrom start).Reads c s span s' ↔
      span = ⟨start, s.previous.stop⟩ ∧ s' = s ∧ s.faults = [] :=
  reads_iff_of_eq rfl

@[simp] theorem reads_failAt {position : Nat} {error : SyntaxError} :
    ¬(failAt position error : Parser α).Reads c s a s' := by
  simp [failAt]

@[simp] theorem reads_failHere {error : SyntaxError} :
    ¬(failHere error : Parser α).Reads c s a s' := by
  simp [failHere]

@[simp] theorem reads_failUnexpected {wanted : String} :
    ¬(failUnexpected wanted : Parser α).Reads c s a s' := by
  simp [failUnexpected]

theorem current_of_reads_sees {spelling : String} (h : (sees spelling).Reads c s true s') :
    ∃ l, s'.current = some l ∧ l.token.spells spelling := by
  simp only [sees, reads_bind, reads_current, reads_pure] at h
  obtain ⟨_, _, ⟨rfl, rfl, -⟩, hfound, rfl, -⟩ := h
  cases hl : (s.withCurrent c.dialect).current with
  | none => simp [hl] at hfound
  | some l => exact ⟨l, rfl, by simpa [hl] using hfound⟩

theorem current_of_reads_peeks {spelling : String} {found : Bool} {l : Lexeme}
    (hl : s.current = some l) (h : (peeks spelling).Reads c s found s') : s'.current = some l := by
  simp only [peeks, peek, reads_bind, reads_current, reads_move, reads_state, reads_pure] at h
  obtain ⟨_, _, ⟨_, _, ⟨-, rfl, -⟩, _, _, ⟨rfl, -⟩, _, _, ⟨-, rfl, -⟩, -, rfl, -⟩, -, rfl, -⟩ := h
  rw [State.withNext_current, State.withCurrent_of_current hl, hl]

theorem startPosition_of_current {n : Nat} {l : Lexeme} (hl : s.current = some l)
    (h : startPosition.Reads c s n s') : n = l.span.start := by
  simp only [startPosition, reads_bind, reads_current] at h
  obtain ⟨_, _, ⟨rfl, rfl, -⟩, h⟩ := h
  rw [State.withCurrent_of_current hl, hl] at h
  exact (reads_pure.mp h).1

theorem reads_required {token : Token} (h : required.Reads c s token s') :
    s' = s.withCurrent c.dialect ∧ ∃ l, s'.current = some l ∧ l.token = token := by
  simp only [required, reads_bind] at h
  obtain ⟨found, t, hcurrent, h⟩ := h
  obtain ⟨rfl, rfl, -⟩ := reads_currentToken.mp hcurrent
  split at h
  · simp at h
  · rename_i heq
    obtain ⟨rfl, rfl, -⟩ := reads_pure.mp h
    exact ⟨rfl, Option.map_eq_some_iff.mp heq⟩
  · simp at h

end

/-! ## Positions in a module -/

theorem pos_of_spells {token : Token} {spelling : String} (hspelling : 0 < spelling.length)
    (h : token.spells spelling) {cs : List Char} {n : Nat} (htext : token.HasText cs n) : 0 < n := by
  cases token with
  | word name bare => exact htext.1
  | punct p =>
    have hp : p = spelling := eq_of_beq h
    have hlength : n = p.length := htext.1
    rwa [hlength, hp]
  | _ => simp [Token.spells] at h

section
variable {α : Type} {p : Parser α} {a : α} {c : Context} {s s' t : State} {token : Token}
  {text : List Char} {n : Nat} (hc : c.inModule = true)
include hc

theorem Reads.sound (h : p.Reads c s a s') (hs : s.Sound text) :
    s'.Sound text ∧ s.previous.stop ≤ s'.previous.stop :=
  (hc ▸ h.moves).sound h.faults hs

/-- What is read from the start position on stands behind it. -/
theorem goesOn_startPosition (h : startPosition.Reads c s n s') (hs : s.Sound text) :
    s'.GoesOn n text ∧ s.previous.stop ≤ n ∧ n ≤ s'.bumped.previous.stop := by
  simp only [startPosition, reads_bind] at h
  obtain ⟨l, t, hcurrent, h⟩ := h
  obtain ⟨ht, hle⟩ := hcurrent.sound hc hs
  obtain ⟨rfl, rfl, -⟩ := reads_current.mp hcurrent
  split at h
  · rename_i l hl
    obtain ⟨rfl, rfl, -⟩ := reads_pure.mp h
    obtain ⟨hlies, htaken⟩ := ht.taken hl
    exact ⟨ht.from_current hl, Nat.le_trans hle hlies.start_le, by rw [htaken]; exact hlies.le⟩
  · simp only [reads_bind, reads_previousSpan, reads_pure] at h
    obtain ⟨_, _, ⟨rfl, rfl, -⟩, rfl, rfl, -⟩ := h
    exact ⟨ht, hle, ht.bumped.2⟩

theorem goesOn_required (h : required.Reads c s token s') (hs : s.GoesOn n text) :
    s'.GoesOn n text ∧ ∃ l, s'.current = some l ∧ l.token = token := by
  obtain ⟨rfl, hl⟩ := reads_required h
  exact ⟨hs.withCurrent hc h.faults, hl⟩

/-- A token that is not empty ends behind its start position. -/
theorem bumped_required (hstart : startPosition.Reads c s n t) (h : required.Reads c t token s')
    (hs : s.Sound text) (htoken : ∀ cs k, token.HasText cs k → 0 < k) :
    s'.bumped.Sound text ∧ IsBoundary text n ∧ s.previous.stop ≤ n ∧
      n < s'.bumped.previous.stop := by
  obtain ⟨hgoes, hle, -⟩ := goesOn_startPosition hc hstart hs
  have hboundary := hgoes.isBoundary
  obtain ⟨hgoes, l, hl, rfl⟩ := goesOn_required hc h hgoes
  obtain ⟨⟨hn, hspan, -, ⟨cs, -, htext⟩, -⟩, htaken⟩ := hgoes.taken hl
  have hsound := (h.sound hc (hstart.sound hc hs).1).1
  have hpos := htoken _ _ htext
  rw [htaken]
  exact ⟨hsound.bumped.1, hboundary, hle, by omega⟩

theorem lt_of_reads_eat {spelling : String} (hspelling : 0 < spelling.length)
    (h : (eat spelling).Reads c s true s') (hs : s.Sound text) :
    s.previous.stop < s'.previous.stop := by
  simp only [eat, reads_bind] at h
  obtain ⟨found, t, hsees, h⟩ := h
  obtain ⟨ht, hle⟩ := hsees.sound hc hs
  split at h
  · rename_i hfound
    rw [hfound] at hsees
    obtain ⟨l, hl, hspells⟩ := current_of_reads_sees hsees
    simp only [reads_bind, reads_bump, reads_pure] at h
    obtain ⟨_, _, ⟨rfl, -⟩, -, rfl, -⟩ := h
    obtain ⟨⟨hstart, hspan, -, ⟨cs, -, htext⟩, -⟩, htaken⟩ := ht.taken hl
    have hpos := pos_of_spells hspelling hspells htext
    rw [htaken]
    omega
  · rename_i hnot
    obtain ⟨rfl, -⟩ := reads_pure.mp h
    exact absurd rfl hnot

end

end Parser

/-! ## Texts -/

theorem State.sound_start (text : String) : (State.start text).Sound text.toList where
  cursor := ⟨⟨List.suffix_rfl, Nat.zero_add _⟩, fun _ _ h => nomatch h⟩
  isBoundary := isBoundary_zero _
  ahead := Nat.le_refl 0

open Script.Parser

theorem exists_reads_of_runOn {α : Type} {inModule : Bool} {text : String} {p : Parser α} {a : α}
    (h : runOn inModule text p = .ok a) :
    ∃ s, p.Reads (Context.start inModule (budget text)) (State.start text) a s := by
  unfold runOn at h
  split at h
  · cases h
  rename_i s heq
  split at h
  · cases h
  · rename_i hfaults
    cases h
    exact ⟨s, heq, List.getLast?_eq_none_iff.mp hfaults⟩

end NotebookCell.Script
